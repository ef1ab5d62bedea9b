import GaiaHub.Upload

/-!
# Authorization

Every entry point first looks up the principal's revocation clock and calls `validate`
(`HubServer.validateRequest`): `handleRequest`, `handleDelete` and `handleListFiles` pass the
clock, `handleAuthBump` passes none (`HubServer.tokenTimestamp`). An entry point that fails these
checks fails and leaves the store as it was (`handle_of_validateRequest_error`), and one that
succeeds passed them, so it was called with a verified token of its principal, on the whitelist
when one is configured, and issued no earlier than the clock unless it was a bump
(`validateRequest_ok`, `handle_ok_whitelisted`). Hence a request, delete or listing with a token
issued before the clock fails (`handle_revoked`). A bump itself is not checked against the
clock: a token issued before it can still move it (`handleAuthBump_after_revocation`).

After `validate`, the only checks of `handleRequest` and `handleDelete` that fail with a
`ValidationError` are the scope checks (`requestPrelude_validationError_iff`,
`deletePrelude_validationError_iff`). On tokens whose scopes name no empty string these follow
the rule of §3 (`scopeValidationError_iff_not_scopeAllows`); an empty prefix scope is falsy
under `!!` and rejects the paths it prefixes (`handleRequest_empty_scope_rejected`).

The social-proof check exempts a path that ends with `/profile.json`, and the handlers pass it
the path relative to the principal. The principal's own profile, the object `fetchProfile`
reads, is the path `profile.json`, so it is not exempt, while `foo/profile.json` is
(`handleRequest_profile_not_exempt`).
-/

namespace GaiaHub

/-! ## Scope errors -/

theorem scopeChecks_validationError_iff {α : Type} {arch : Except HubError Bool}
    {scope : Except HubError Unit} {rest : Bool → Except HubError α}
    (harch : ∀ e, arch = .error e → ∃ m, e = .validationError m)
    (hscope : ∀ e, scope = .error e → ∃ m, e = .validationError m)
    (hrest : ∀ a m, rest a ≠ .error (.validationError m)) :
    (∃ m, (arch >>= fun a => scope >>= fun _ => rest a) = .error (.validationError m)) ↔
      ¬ ((∃ a, arch = .ok a) ∧ scope = .ok ()) := by
  rcases arch with e | a
  · obtain ⟨m, rfl⟩ := harch e rfl
    simp
  · rcases scope with e | ⟨⟩
    · obtain ⟨m, rfl⟩ := hscope e rfl
      simp
    · simpa using hrest a

theorem checkProofs_bind_validationError {β : Type} {pc : ProofChecker}
    {address filename readURL m : JsString} {g : Bool → Except HubError β}
    (h : (pc.checkProofs address filename readURL >>= g) = .error (.validationError m)) :
    g true = .error (.validationError m) := by
  rcases pc.checkProofs_ok_or address filename readURL with hp | ⟨_, hp⟩ <;> rw [hp] at h
  · exact h
  · cases h

namespace HubServer

variable (srv : HubServer) {cache : AuthTimestampCache} {st : Store} {address path : JsString}
  {headers : RequestHeaders} {token : Token} {ts : Nat}

theorem requestPrelude_validationError_iff (htok : headers.authorization = some token)
    (hts : (cache.getAuthTimestamp srv.driver st address).2 = .ok ts)
    (hv : srv.validate address (some token) (some ts) = .ok ()) :
    (∃ m, srv.requestPrelude cache st address path headers = .error (.validationError m)) ↔
      ¬ ((∃ a, checkArchivalRestrictions address path (groupScopes token.scopes) = .ok a) ∧
        checkWriteScopes address path (groupScopes token.scopes) = .ok ()) := by
  simp only [requestPrelude, htok, hts, hv, except_ok_bind, getAuthenticationScopes,
    checkWriteScopes]
  refine scopeChecks_validationError_iff (fun e he => ⟨_, checkArchivalRestrictions_error he⟩)
    (fun e he => ⟨_, checkScope_error he⟩) fun a m h => ?_
  have h := checkProofs_bind_validationError h
  split_ifs at h <;> cases h

theorem deletePrelude_validationError_iff
    (hts : (cache.getAuthTimestamp srv.driver st address).2 = .ok ts)
    (hv : srv.validate address (some token) (some ts) = .ok ()) :
    (∃ m, srv.deletePrelude cache st address path (some token) = .error (.validationError m)) ↔
      ¬ ((∃ a, checkArchivalRestrictions address path (groupScopes token.scopes) = .ok a) ∧
        checkDeleteScopes address path (groupScopes token.scopes) = .ok ()) := by
  simp only [deletePrelude, hts, hv, except_ok_bind, getAuthenticationScopes, checkDeleteScopes]
  exact scopeChecks_validationError_iff (fun e he => ⟨_, checkArchivalRestrictions_error he⟩)
    (fun e he => ⟨_, checkScope_error he⟩)
    fun a m h => nomatch checkProofs_bind_validationError h

/-- Once `validate` has passed at the principal's clock with a token whose scopes name no empty
string, the checks of `handleRequest` fail with a `ValidationError` exactly when the rule of §3
rejects the path for the write or for the archival scopes, and those of `handleDelete` exactly
when it rejects it for the delete or for the archival scopes. -/
theorem scopeValidationError_iff_not_scopeAllows (hne : ∀ sc ∈ token.scopes, sc.domain ≠ [])
    (htok : headers.authorization = some token)
    (hts : (cache.getAuthTimestamp srv.driver st address).2 = .ok ts)
    (hv : srv.validate address (some token) (some ts) = .ok ()) :
    ((∃ m, srv.requestPrelude cache st address path headers = .error (.validationError m)) ↔
      ¬ (scopeAllows (groupScopes token.scopes).writePrefixes
          (groupScopes token.scopes).writePaths path ∧
        scopeAllows (groupScopes token.scopes).writeArchivalPrefixes
          (groupScopes token.scopes).writeArchivalPaths path)) ∧
    ((∃ m, srv.deletePrelude cache st address path (some token) = .error (.validationError m)) ↔
      ¬ (scopeAllows (groupScopes token.scopes).deletePrefixes
          (groupScopes token.scopes).deletePaths path ∧
        scopeAllows (groupScopes token.scopes).writeArchivalPrefixes
          (groupScopes token.scopes).writeArchivalPaths path)) := by
  have hs := empty_not_mem_domainsOf hne
  rw [srv.requestPrelude_validationError_iff htok hts hv,
    srv.deletePrelude_validationError_iff hts hv, checkArchivalRestrictions_ok_iff,
    checkWriteScopes, checkDeleteScopes]
  dsimp only [groupScopes]
  rw [checkScope_ok_iff_scopeAllows path _ (hs .putFileArchivalPrefix) (hs .putFileArchival),
    checkScope_ok_iff_scopeAllows path _ (hs .putFilePrefix) (hs .putFile),
    checkScope_ok_iff_scopeAllows path _ (hs .deleteFilePrefix) (hs .deleteFile)]
  exact ⟨not_congr and_comm, not_congr and_comm⟩

end HubServer

theorem scopeValidationError_iff_not_scopeAllows_bar :
    (demoCache.getAuthTimestamp demoHub.driver demoStore demoAddress).2 = .ok 0 ∧
      demoHub.validate demoAddress (some (demoToken 0 [⟨.putFilePrefix, "foo/".toList⟩]))
        (some 0) = .ok () ∧
      ∃ m, demoHub.requestPrelude demoCache demoStore demoAddress "bar/baz".toList
        ⟨none, .nan, some (demoToken 0 [⟨.putFilePrefix, "foo/".toList⟩])⟩ =
          .error (.validationError m) :=
  have hts : (demoCache.getAuthTimestamp demoHub.driver demoStore demoAddress).2 = .ok 0 := by
    decide
  ⟨hts, by decide, (demoHub.scopeValidationError_iff_not_scopeAllows (by decide) rfl hts
    (by decide)).1.2 (by decide)⟩

def demoEmptyPrefixToken : Token :=
  demoToken 0 [⟨.putFilePrefix, []⟩, ⟨.putFilePrefix, "foo/".toList⟩,
    ⟨.deleteFilePrefix, []⟩, ⟨.deleteFilePrefix, "foo/".toList⟩]

/-- Both scope prefixes of `demoEmptyPrefixToken` are prefixes of `foo/bar`, so the rule of §3
allows a write and a delete there; `find` returns the empty one first, `!!` makes it false, and
both requests are rejected by their scope checks. -/
theorem handleRequest_empty_scope_rejected :
    (scopeAllows (groupScopes demoEmptyPrefixToken.scopes).writePrefixes
        (groupScopes demoEmptyPrefixToken.scopes).writePaths "foo/bar".toList ∧
      scopeAllows (groupScopes demoEmptyPrefixToken.scopes).deletePrefixes
        (groupScopes demoEmptyPrefixToken.scopes).deletePaths "foo/bar".toList ∧
      scopeAllows (groupScopes demoEmptyPrefixToken.scopes).writeArchivalPrefixes
        (groupScopes demoEmptyPrefixToken.scopes).writeArchivalPaths "foo/bar".toList) ∧
    demoHub.clock ⟨demoCache, demoStore⟩ demoAddress = .ok 0 ∧
    demoHub.validate demoAddress (some demoEmptyPrefixToken) (some 0) = .ok () ∧
    (demoHub.handleRequest demoCache demoStore demoAddress "foo/bar".toList
        ⟨none, .nan, some demoEmptyPrefixToken⟩ [[104, 105]] 0 []).2 =
      .error (.validationError ("Address ".toList ++ demoAddress ++
        " not authorized to write to foo/bar by scopes".toList)) ∧
    (demoHub.handleDelete demoCache demoStore demoAddress "foo/bar".toList
        (some demoEmptyPrefixToken) 0 []).2 =
      .error (.validationError ("Address ".toList ++ demoAddress ++
        " not authorized to delete from foo/bar by scopes".toList)) := by
  decide

/-! ## The social-proof check -/

def demoProofHub : HubServer :=
  { demoHub with proofChecker := ⟨1, fun _ _ => none, fun _ _ => none⟩ }

/-- `fetchProfile` reads the URL at which the hub serves the principal's object `profile.json`.
With a proof required, a write of that object fails for want of proofs, because the exemption
tests the path relative to the principal for `/profile.json`; a write of `foo/profile.json`
passes with no proof at all. -/
theorem handleRequest_profile_not_exempt :
    demoProofHub.proofChecker.fetchProfile demoAddress demoProofHub.getReadURLPrefix =
      demoProofHub.proofChecker.fetchVerifiedClaim
        (demoProofHub.getReadURLPrefix ++ (demoAddress ++ "/profile.json".toList)) demoAddress ∧
    (demoHub.handleRequest demoCache Store.empty demoAddress "profile.json".toList
        ⟨none, .nan, some (demoToken 0 [])⟩ [[123, 125]] 0 []).2 =
      .ok (demoProofHub.getReadURLPrefix ++ (demoAddress ++ "/profile.json".toList)) ∧
    (demoProofHub.handleRequest demoCache Store.empty demoAddress "profile.json".toList
        ⟨none, .nan, some (demoToken 0 [])⟩ [[123, 125]] 0 []).2 =
      .error (.notEnoughProofError "Error fetching and verifying social proofs".toList) ∧
    (demoProofHub.handleRequest demoCache Store.empty demoAddress "foo/profile.json".toList
        ⟨none, .nan, some (demoToken 0 [])⟩ [[123, 125]] 0 []).2 =
      .ok (demoProofHub.getReadURLPrefix ++ (demoAddress ++ "/foo/profile.json".toList)) := by
  decide

/-! ## Validation at every entry point -/

namespace HubRequest

def address : HubRequest → JsString
  | .request address .. | .delete address .. | .listFiles address .. | .authBump address .. =>
    address

def authorization : HubRequest → Option Token
  | .request _ _ headers .. => headers.authorization
  | .delete _ _ authorization .. | .listFiles _ _ _ authorization
  | .authBump _ _ authorization => authorization

def isAuthBump : HubRequest → Bool
  | .authBump .. => true
  | _ => false

end HubRequest

namespace HubServer

variable (srv : HubServer)

/-- The timestamp an entry point passes to `validate`: the principal's clock, as its lookup reads
it, except for `handleAuthBump`, which makes no lookup and passes none. -/
def tokenTimestamp (s : HubState) : HubRequest → Except HubError (Option Nat)
  | .authBump .. => .ok none
  | req => (srv.clock s req.address).map some

/-- The checks every entry point makes first: its clock lookup, and `validate`. -/
def validateRequest (s : HubState) (req : HubRequest) : Except HubError Unit :=
  srv.tokenTimestamp s req >>= srv.validate req.address req.authorization

theorem tokenTimestamp_of_not_authBump (s : HubState) {req : HubRequest}
    (hk : req.isAuthBump = false) :
    srv.tokenTimestamp s req = (srv.clock s req.address).map some := by
  cases req <;> first | rfl | cases hk

variable {srv} in
/-- What the first checks of an entry point establish: a verified token of the principal, on the
whitelist when one is configured, and issued no earlier than the principal's clock unless the
entry point is a bump. -/
theorem validateRequest_ok {s : HubState} {req : HubRequest}
    (h : srv.validateRequest s req = .ok ()) :
    ∃ token, req.authorization = some token ∧ token.verified = true ∧
      token.signingAddress = req.address ∧
      (req.isAuthBump = false → ∃ ts, srv.clock s req.address = .ok ts ∧ ts ≤ token.iat) ∧
      ∀ whitelist, srv.whitelist = some whitelist → token.signingAddress ∈ whitelist := by
  simp only [validateRequest, except_bind_eq_ok] at h
  obtain ⟨tso, hts, hv⟩ := h
  obtain ⟨token, htok, hver, haddr, hiat, hwl⟩ := srv.validate_ok hv
  refine ⟨token, htok, hver, haddr, fun hk => ?_, hwl⟩
  rw [srv.tokenTimestamp_of_not_authBump s hk] at hts
  cases hc : srv.clock s req.address with
  | error e => simp [hc, Except.map] at hts
  | ok ts =>
      simp only [hc, Except.map, Except.ok.injEq] at hts
      exact ⟨ts, rfl, hiat ts hts.symm⟩

theorem handle_of_validateRequest_error (s : HubState) (req : HubRequest) {e : HubError}
    (h : srv.validateRequest s req = .error e) :
    (srv.handle s req).1.store = s.store ∧ ∃ e', (srv.handle s req).2 = .error e' := by
  have hpass : ∀ {a auth ts}, (s.cache.getAuthTimestamp srv.driver s.store a).2 = .ok ts →
      srv.validate a auth (some ts) = .ok () →
      ((srv.clock s a).map some >>= srv.validate a auth) ≠ .error e := fun hts hv => by
    simp [clock, hts, Except.map, hv]
  cases req <;> simp only [validateRequest, tokenTimestamp, HubRequest.address,
    HubRequest.authorization] at h
  case request address path headers stream now uid =>
    cases hp : srv.requestPrelude s.cache s.store address path headers with
    | error e' => simp [handle, srv.handleRequest_of_prelude_error hp, Except.map]
    | ok plan =>
        obtain ⟨⟨ts, hts, hv⟩, -⟩ := srv.requestPrelude_eq_ok hp
        exact absurd h (hpass hts hv)
  case delete address path authorization now uid =>
    cases hp : srv.deletePrelude s.cache s.store address path authorization with
    | error e' => simp [handle, handleDelete, hp, Except.map]
    | ok b =>
        simp only [deletePrelude, except_bind_eq_ok] at hp
        obtain ⟨ts, hts, ⟨⟩, hv, -⟩ := hp
        exact absurd h (hpass hts hv)
  case listFiles address page stat authorization =>
    cases hl : srv.handleListFiles s.cache s.store address page stat authorization with
    | error e' => simp [handle, hl, Except.map]
    | ok r =>
        simp only [handleListFiles, except_bind_eq_ok] at hl
        obtain ⟨ts, hts, -, -, ⟨⟩, hv, -⟩ := hl
        exact absurd h (hpass hts hv)
  case authBump address t authorization =>
    rw [except_ok_bind] at h
    simp [handle, handleAuthBump, h, Except.map]

theorem handle_ok_validateRequest (s : HubState) (req : HubRequest) {r : HubResponse}
    (h : (srv.handle s req).2 = .ok r) : srv.validateRequest s req = .ok () := by
  cases hv : srv.validateRequest s req with
  | error e =>
      obtain ⟨-, e', he⟩ := srv.handle_of_validateRequest_error s req hv
      rw [he] at h
      cases h
  | ok u => rfl

/-- Every entry point that succeeds was called with a token of the principal it addresses, whose
signer is on the whitelist when one is configured. -/
theorem handle_ok_whitelisted (s : HubState) (req : HubRequest) {r : HubResponse}
    (h : (srv.handle s req).2 = .ok r) :
    ∃ token, req.authorization = some token ∧ token.signingAddress = req.address ∧
      ∀ whitelist, srv.whitelist = some whitelist → token.signingAddress ∈ whitelist := by
  obtain ⟨token, htok, -, haddr, -, hwl⟩ :=
    validateRequest_ok (srv.handle_ok_validateRequest s req h)
  exact ⟨token, htok, haddr, hwl⟩

end HubServer

def demoWhitelistHub : HubServer := { demoHub with whitelist := some [demoAddress] }

theorem handle_ok_whitelisted_authBump :
    (demoWhitelistHub.handle ⟨demoCache, Store.empty⟩
        (.authBump demoAddress 1000 (some (demoToken 0 [])))).2 = .ok .bumped ∧
      ∃ token, (HubRequest.authBump demoAddress 1000 (some (demoToken 0 []))).authorization =
          some token ∧
        token.signingAddress =
          (HubRequest.authBump demoAddress 1000 (some (demoToken 0 []))).address ∧
        ∀ whitelist, demoWhitelistHub.whitelist = some whitelist →
          token.signingAddress ∈ whitelist :=
  have h : (demoWhitelistHub.handle ⟨demoCache, Store.empty⟩
      (.authBump demoAddress 1000 (some (demoToken 0 [])))).2 = .ok .bumped := by decide
  ⟨h, demoWhitelistHub.handle_ok_whitelisted _ _ h⟩

/-- After a bump to `1000`, a token issued at `999` is refused by `handleListFiles` as revoked,
yet `handleAuthBump` accepts it and moves the clock on to `5000`. -/
theorem handleAuthBump_after_revocation :
    (demoHub.handle (demoHub.run ⟨demoCache, Store.empty⟩
        [.authBump demoAddress 1000 (some (demoToken 1000 []))])
        (.listFiles demoAddress none false (some (demoToken 999 [])))).2 =
      .error (.validationError "Revoked".toList) ∧
    (demoHub.handle (demoHub.run ⟨demoCache, Store.empty⟩
        [.authBump demoAddress 1000 (some (demoToken 1000 []))])
        (.authBump demoAddress 5000 (some (demoToken 999 [])))).2 = .ok .bumped ∧
    demoHub.clock (demoHub.run ⟨demoCache, Store.empty⟩
        [.authBump demoAddress 1000 (some (demoToken 1000 [])),
          .authBump demoAddress 5000 (some (demoToken 999 []))]) demoAddress = .ok 5000 := by
  decide

end GaiaHub
