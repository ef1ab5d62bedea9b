import GaiaHub.Basic

/-!
# Path scopes

A token may carry scopes, each a kind and a path (`AuthScope`); `groupScopes`
groups their paths into six lists (`AuthScopeValues`). For each kind the handlers check the
request path in the same way (`checkScope`): when the token has scopes of that kind, the path
must be matched by `!!prefixes.find(p => path.startsWith(p))` or else by
`!!paths.find(p => path === p)`, and otherwise the request fails with a `ValidationError`. The
write and delete checks are two instances of it; `checkArchivalRestrictions` has its own body,
which also returns whether archival scopes are present, and `checkArchivalRestrictions_eq`
relates it to the others.

`!!` turns the element that `find` returns back into a boolean, and the empty string is falsy.
So the code's test (`scopeMatch_iff`) differs from the spec's rule (`scopeAllows`) exactly on
empty scope strings (`checkScope_ok_iff_scopeAllows`).
-/

namespace GaiaHub

inductive ScopeKind where
  | putFile
  | putFilePrefix
  | deleteFile
  | deleteFilePrefix
  | putFileArchival
  | putFileArchivalPrefix
  deriving DecidableEq, Repr

structure AuthScope where
  scope : ScopeKind
  domain : JsString
  deriving DecidableEq, Repr

structure AuthScopeValues where
  writePrefixes : List JsString
  writePaths : List JsString
  deletePrefixes : List JsString
  deletePaths : List JsString
  writeArchivalPrefixes : List JsString
  writeArchivalPaths : List JsString
  deriving DecidableEq, Repr

def domainsOf (k : ScopeKind) (scopes : List AuthScope) : List JsString :=
  (scopes.filter fun s => s.scope = k).map AuthScope.domain

/-- Modelled from the spec: the grouping of a token's scopes into six lists keyed by kind that
`getAuthenticationScopes` (in `authentication.ts`, not in the sources) returns (§4.2). -/
def groupScopes (scopes : List AuthScope) : AuthScopeValues where
  writePrefixes := domainsOf .putFilePrefix scopes
  writePaths := domainsOf .putFile scopes
  deletePrefixes := domainsOf .deleteFilePrefix scopes
  deletePaths := domainsOf .deleteFile scopes
  writeArchivalPrefixes := domainsOf .putFileArchivalPrefix scopes
  writeArchivalPaths := domainsOf .putFileArchival scopes

/-- The match of one scope kind: `!!prefixes.find(p => path.startsWith(p))`, and when that
fails `!!paths.find(p => path === p)`. -/
def scopeMatch (prefixes paths : List JsString) (path : JsString) : Bool :=
  toBoolean (prefixes.find? fun p => startsWith path p) ||
    toBoolean (paths.find? fun p => path == p)

/-- The scope check of one kind: when the token has scopes of the kind, the path must match
one of them, or the request fails with `ValidationError(message)`. -/
def checkScope (prefixes paths : List JsString) (path message : JsString) :
    Except HubError Unit :=
  if prefixes.length > 0 || paths.length > 0 then
    if scopeMatch prefixes paths path then .ok () else .error (.validationError message)
  else .ok ()

/-- The write-scope check of `handleRequest`. -/
def checkWriteScopes (address path : JsString) (scopes : AuthScopeValues) :
    Except HubError Unit :=
  checkScope scopes.writePrefixes scopes.writePaths path
    ("Address ".toList ++ address ++ " not authorized to write to ".toList ++ path ++
      " by scopes".toList)

/-- The delete-scope check of `handleDelete`. -/
def checkDeleteScopes (address path : JsString) (scopes : AuthScopeValues) :
    Except HubError Unit :=
  checkScope scopes.deletePrefixes scopes.deletePaths path
    ("Address ".toList ++ address ++ " not authorized to delete from ".toList ++ path ++
      " by scopes".toList)

/-- `isArchivalRestricted(scopes)`. -/
def isArchivalRestricted (scopes : AuthScopeValues) : Bool :=
  scopes.writeArchivalPaths.length > 0 || scopes.writeArchivalPrefixes.length > 0

def archivalScopeMessage (address path : JsString) : JsString :=
  "Address ".toList ++ address ++ " not authorized to modify ".toList ++ path ++
    " by scopes".toList

/-- `checkArchivalRestrictions(address, path, scopes)`: the archival-scope check, which
returns whether archival scopes are present. -/
def checkArchivalRestrictions (address path : JsString) (scopes : AuthScopeValues) :
    Except HubError Bool :=
  if isArchivalRestricted scopes then
    if scopeMatch scopes.writeArchivalPrefixes scopes.writeArchivalPaths path then .ok true
    else .error (.validationError (archivalScopeMessage address path))
  else .ok false

theorem checkArchivalRestrictions_eq (address path : JsString) (scopes : AuthScopeValues) :
    checkArchivalRestrictions address path scopes =
      (checkScope scopes.writeArchivalPrefixes scopes.writeArchivalPaths path
        (archivalScopeMessage address path)).map fun _ => isArchivalRestricted scopes := by
  unfold checkArchivalRestrictions checkScope isArchivalRestricted
  rw [Bool.or_comm]
  split <;> [split; skip] <;> simp_all [Except.map]

theorem checkScope_error {prefixes paths : List JsString} {path message : JsString} {e : HubError}
    (h : checkScope prefixes paths path message = .error e) : e = .validationError message := by
  unfold checkScope at h
  split_ifs at h
  exact (Except.error.inj h).symm

theorem checkArchivalRestrictions_error {address path : JsString} {scopes : AuthScopeValues}
    {e : HubError} (h : checkArchivalRestrictions address path scopes = .error e) :
    e = .validationError (archivalScopeMessage address path) := by
  unfold checkArchivalRestrictions at h
  split_ifs at h
  exact (Except.error.inj h).symm

theorem checkArchivalRestrictions_ok {address path : JsString} {scopes : AuthScopeValues}
    {b : Bool} (h : checkArchivalRestrictions address path scopes = .ok b) :
    b = isArchivalRestricted scopes := by
  unfold checkArchivalRestrictions at h
  split_ifs at h with h1 <;> cases h <;> simp [h1]

theorem checkArchivalRestrictions_ok_iff (address path : JsString) (scopes : AuthScopeValues) :
    (∃ a, checkArchivalRestrictions address path scopes = .ok a) ↔
      checkScope scopes.writeArchivalPrefixes scopes.writeArchivalPaths path
        (archivalScopeMessage address path) = .ok () := by
  rw [checkArchivalRestrictions_eq]
  cases checkScope scopes.writeArchivalPrefixes scopes.writeArchivalPaths path
    (archivalScopeMessage address path) <;> simp [Except.map]

/-! ## What the check accepts -/

/-- The spec's rule for one scope kind (§3): no scope of the kind, or a prefix scope that is a
prefix of the path, or a path scope equal to it. -/
def scopeAllows (prefixes paths : List JsString) (path : JsString) : Prop :=
  (prefixes = [] ∧ paths = []) ∨ (∃ pre ∈ prefixes, pre <+: path) ∨ path ∈ paths

instance (prefixes paths : List JsString) (path : JsString) :
    Decidable (scopeAllows prefixes paths path) :=
  inferInstanceAs (Decidable (_ ∨ _))

theorem empty_not_mem_domainsOf {scopes : List AuthScope} (h : ∀ sc ∈ scopes, sc.domain ≠ [])
    (k : ScopeKind) : [] ∉ domainsOf k scopes := by
  simp only [domainsOf, List.mem_map, List.mem_filter, not_exists, not_and]
  exact fun sc hsc => h sc hsc.1

/-- What the code accepts: the first prefix scope that is a prefix of the path is not empty,
or the path is a non-empty path scope. -/
theorem scopeMatch_iff (prefixes paths : List JsString) (path : JsString) :
    scopeMatch prefixes paths path = true ↔
      (∃ pre, (prefixes.find? fun p => startsWith path p) = some pre ∧ pre ≠ []) ∨
        (path ∈ paths ∧ path ≠ []) := by
  have hpaths :
      toBoolean (paths.find? fun p => path == p) = true ↔ path ∈ paths ∧ path ≠ [] := by
    cases h : paths.find? fun p => path == p with
    | none =>
        have : path ∉ paths := fun hm => by simpa using List.find?_eq_none.1 h path hm
        simp [this]
    | some q =>
        obtain rfl : path = q := by simpa using List.find?_some h
        simp [List.mem_of_find?_eq_some h]
  cases h : prefixes.find? fun p => startsWith path p <;> simp [scopeMatch, h, hpaths]

theorem checkScope_ok_iff (prefixes paths : List JsString) (path message : JsString) :
    checkScope prefixes paths path message = .ok () ↔
      (prefixes = [] ∧ paths = []) ∨ scopeMatch prefixes paths path = true := by
  unfold checkScope
  cases prefixes <;> cases paths <;> split <;> simp_all

/-- On scope strings that are not empty the code's check is the spec's rule. -/
theorem checkScope_ok_iff_scopeAllows {prefixes paths : List JsString} (path message : JsString)
    (hpre : [] ∉ prefixes) (hpaths : [] ∉ paths) :
    checkScope prefixes paths path message = .ok () ↔ scopeAllows prefixes paths path := by
  rw [checkScope_ok_iff, scopeMatch_iff, scopeAllows]
  refine or_congr_right (or_congr ⟨?_, ?_⟩ ⟨fun h => h.1, fun h => ⟨h, ?_⟩⟩)
  · rintro ⟨pre, hfind, -⟩
    exact ⟨pre, List.mem_of_find?_eq_some hfind, by simpa using List.find?_some hfind⟩
  · rintro ⟨pre, hmem, hpre'⟩
    cases hfind : prefixes.find? fun p => startsWith path p with
    | none => simp_all
    | some q => exact ⟨q, rfl, ne_of_mem_of_not_mem (List.mem_of_find?_eq_some hfind) hpre⟩
  · rintro rfl
    exact hpaths h

end GaiaHub
