import GaiaHub.History

/-!
# The read gateway

The reader (`makeHttpServer` in the reader's `http.ts`) serves `GET` and `HEAD` requests whose
path matches `bucketFilePath = /\/([a-zA-Z0-9-_]+)\/(.+)/`: the first group is a principal's
address, the second a file name, from which `fileHandler` drops one trailing `/` before it asks
`handleGet` for the object, answering `404` when there is none.

`routeMatch` is `bucketFilePath.exec(path)` as the regular expression runs it: the leftmost
start that matches, and there the match a backtracking search tries first. `PatternAt` and
`PreferredAt` state that semantics without reference to the search (`routeMatch_eq_some_iff`,
`routeMatch_eq_none_iff`). The class `[a-zA-Z0-9-_]` excludes `/`, so the first group is forced
and the second is the longest run without a line terminator.

Express passes each group through `decode_param`, which is `decodeURIComponent` and answers
`400` on a malformed escape (`decodeParam`), and `res.set` appends `; charset=utf-8` to a text,
JavaScript or JSON content type that names no charset (`contentTypeHeader`).

A path `/address/file` with an address of class characters and a file name without line
terminators routes to exactly that address and file name (`routeMatch_bucket_file`), and a name
without `%` decodes to itself. So an upload the hub accepts to such a path is visible at the
path of its URL, with its content type as `res.set` sends it, exactly when its path does not end
in `/` (`makeHttpServer_after_handleRequest`): a path that ends in `/` is read back without its
slash, and the reader answers there what it answered before the upload. An upload under
archival scopes over an object leaves that object readable at the history name it minted
(`makeHttpServer_history_after_handleRequest`), since a history name has no line terminator or
`%` the path lacks and never ends in `/`.
-/

namespace GaiaHub

def isBucketChar (c : Char) : Bool := c.isAlphanum || c == '-' || c == '_'

def isLineTerminator (c : Char) : Bool :=
  c == '\n' || c == '\r' || c == '\u2028' || c == '\u2029'

/-- The groups of a match of `\/([a-zA-Z0-9-_]+)\/(.+)` at the head of `t`. Backtracking the
first group can only end it on a class character, never on the `/` that has to follow, so only
its longest run can match; `(.+)` ends the pattern and keeps its longest run. -/
def matchAt : JsString → Option (JsString × JsString)
  | '/' :: rest =>
    match rest.dropWhile isBucketChar with
    | '/' :: tail =>
      let bucket := rest.takeWhile isBucketChar
      let file := tail.takeWhile fun c => !isLineTerminator c
      if bucket.isEmpty || file.isEmpty then none else some (bucket, file)
    | _ => none
  | _ => none

/-- `bucketFilePath.exec(path)`: the first start, from the left, at which the pattern matches. -/
def routeMatch : JsString → Option (JsString × JsString)
  | [] => none
  | c :: cs =>
    match matchAt (c :: cs) with
    | some groups => some groups
    | none => routeMatch cs

@[simp] theorem routeMatch_nil : routeMatch [] = none := rfl

theorem routeMatch_cons (c : Char) (cs : JsString) :
    routeMatch (c :: cs) = (matchAt (c :: cs)).elim (routeMatch cs) some := by
  simp only [routeMatch]
  cases matchAt (c :: cs) <;> rfl

/-! ## The semantics of the pattern -/

/-- The pattern matches at the head of `t` with the groups `bucket` and `file`. -/
def PatternAt (t bucket file : JsString) : Prop :=
  (∃ rest, t = '/' :: bucket ++ '/' :: file ++ rest) ∧ bucket ≠ [] ∧
    (∀ c ∈ bucket, isBucketChar c = true) ∧ file ≠ [] ∧ ∀ c ∈ file, isLineTerminator c = false

/-- The match at the head of `t` that a backtracking search tries first: both quantifiers are
greedy, so it has the longest first group, and then the longest second group. -/
def PreferredAt (t bucket file : JsString) : Prop :=
  PatternAt t bucket file ∧ ∀ b f, PatternAt t b f →
    b.length < bucket.length ∨ (b.length = bucket.length ∧ f.length ≤ file.length)

theorem takeWhile_dropWhile_append {p : Char → Bool} {b r : JsString} {c : Char}
    (hb : ∀ x ∈ b, p x = true) (hc : p c = false) :
    (b ++ c :: r).takeWhile p = b ∧ (b ++ c :: r).dropWhile p = c :: r := by
  constructor
  · rw [List.takeWhile_append_of_pos hb, List.takeWhile_cons_of_neg (by simp [hc]),
      List.append_nil]
  · rw [List.dropWhile_append_of_pos hb, List.dropWhile_cons_of_neg (by simp [hc])]

theorem patternAt_iff {t bucket file : JsString} :
    PatternAt t bucket file ↔ ∃ rest tail, t = '/' :: rest ∧
      bucket = rest.takeWhile isBucketChar ∧ rest.dropWhile isBucketChar = '/' :: tail ∧
      bucket ≠ [] ∧ file <+: tail.takeWhile (fun c => !isLineTerminator c) ∧ file ≠ [] := by
  constructor
  · rintro ⟨⟨rest, rfl⟩, hb, hbc, hf, hfc⟩
    obtain ⟨htake, hdrop⟩ := takeWhile_dropWhile_append (r := file ++ rest) hbc
      (show isBucketChar '/' = false by decide)
    refine ⟨_, _, by simp, htake.symm, hdrop, hb, ?_, hf⟩
    rw [List.takeWhile_append_of_pos (by simpa using hfc)]
    exact List.prefix_append _ _
  · rintro ⟨rest, tail, rfl, rfl, hdrop, hb, ⟨u, hu⟩, hf⟩
    refine ⟨⟨u ++ tail.dropWhile (fun c => !isLineTerminator c), ?_⟩, hb,
      fun c hc => List.mem_takeWhile_imp hc, hf, fun c hc => ?_⟩
    · conv_lhs => rw [← List.takeWhile_append_dropWhile isBucketChar rest, hdrop]
      conv_lhs =>
        rw [← List.takeWhile_append_dropWhile (fun c => !isLineTerminator c) tail, ← hu]
      simp
    · have := List.mem_takeWhile_imp (hu ▸ List.mem_append_left u hc)
      simpa using this

theorem matchAt_eq_some {t b f : JsString} :
    matchAt t = some (b, f) ↔ ∃ rest tail, t = '/' :: rest ∧
      rest.dropWhile isBucketChar = '/' :: tail ∧ b = rest.takeWhile isBucketChar ∧ b ≠ [] ∧
      f = tail.takeWhile (fun c => !isLineTerminator c) ∧ f ≠ [] := by
  constructor
  · intro h
    unfold matchAt at h
    split at h
    · rename_i rest
      split at h
      · rename_i tail hdrop
        dsimp only at h
        split_ifs at h with hempty
        cases h
        simp only [Bool.or_eq_true, List.isEmpty_iff, not_or] at hempty
        exact ⟨rest, tail, rfl, hdrop, rfl, hempty.1, rfl, hempty.2⟩
      · cases h
    · cases h
  · rintro ⟨rest, tail, rfl, hdrop, rfl, hb, rfl, hf⟩
    simp [matchAt, hdrop, hb, hf]

theorem matchAt_eq_some_iff {t b f : JsString} : matchAt t = some (b, f) ↔ PreferredAt t b f := by
  rw [matchAt_eq_some]
  constructor
  · rintro ⟨rest, tail, rfl, hdrop, rfl, hb, rfl, hf⟩
    refine ⟨patternAt_iff.2 ⟨rest, tail, rfl, rfl, hdrop, hb, List.prefix_refl _, hf⟩,
      fun b' f' h' => .inr ?_⟩
    obtain ⟨rest', tail', ht, rfl, hdrop', -, hpre, -⟩ := patternAt_iff.1 h'
    cases ht
    rw [hdrop, List.cons.injEq] at hdrop'
    cases hdrop'.2
    exact ⟨rfl, hpre.length_le⟩
  · rintro ⟨hp, hmax⟩
    obtain ⟨rest, tail, rfl, rfl, hdrop, hb, hpre, hf⟩ := patternAt_iff.1 hp
    have hF : PatternAt ('/' :: rest) (rest.takeWhile isBucketChar)
        (tail.takeWhile fun c => !isLineTerminator c) :=
      patternAt_iff.2 ⟨rest, tail, rfl, rfl, hdrop, hb, List.prefix_refl _,
        fun h => hf (List.prefix_nil.1 (h ▸ hpre))⟩
    rcases hmax _ _ hF with hlt | ⟨-, hle⟩
    · exact absurd hlt (lt_irrefl _)
    · exact ⟨rest, tail, rfl, hdrop, rfl, hb,
        hpre.eq_of_length (le_antisymm hpre.length_le hle), hf⟩

theorem matchAt_eq_none_iff {t : JsString} : matchAt t = none ↔ ∀ b f, ¬ PatternAt t b f := by
  constructor
  · intro h b f hp
    obtain ⟨rest, tail, rfl, rfl, hdrop, hb, hpre, hf⟩ := patternAt_iff.1 hp
    have := matchAt_eq_some.2 ⟨rest, tail, rfl, hdrop, rfl, hb, rfl,
      fun h => hf (List.prefix_nil.1 (h ▸ hpre))⟩
    rw [h] at this
    cases this
  · intro h
    cases hm : matchAt t with
    | none => rfl
    | some bf => exact absurd (matchAt_eq_some_iff.1 hm).1 (h _ _)

/-! ## The route -/

/-- `bucketFilePath.exec(path)` returns the preferred match at the leftmost start where the
pattern matches. -/
theorem routeMatch_eq_some_iff {s b f : JsString} :
    routeMatch s = some (b, f) ↔
      ∃ i, PreferredAt (s.drop i) b f ∧ ∀ j < i, ∀ b' f', ¬ PatternAt (s.drop j) b' f' := by
  induction s with
  | nil =>
      simp only [routeMatch_nil, reduceCtorEq, false_iff, not_exists, not_and]
      rintro i ⟨⟨⟨rest, h⟩, -⟩, -⟩
      simp at h
  | cons c cs ih =>
      rw [routeMatch_cons]
      cases hm : matchAt (c :: cs) with
      | none =>
          dsimp only [Option.elim]
          rw [ih]
          constructor
          · rintro ⟨i, hp, hfirst⟩
            refine ⟨i + 1, hp, fun j hj => ?_⟩
            cases j with
            | zero => exact matchAt_eq_none_iff.1 hm
            | succ j => exact hfirst j (by omega)
          · rintro ⟨i, hp, hfirst⟩
            cases i with
            | zero => exact absurd hp.1 (matchAt_eq_none_iff.1 hm _ _)
            | succ i => exact ⟨i, hp, fun j hj => hfirst (j + 1) (by omega)⟩
      | some g =>
          obtain ⟨b', f'⟩ := g
          dsimp only [Option.elim]
          constructor
          · rintro ⟨⟩
            exact ⟨0, matchAt_eq_some_iff.1 hm, fun j hj => absurd hj (Nat.not_lt_zero j)⟩
          · rintro ⟨i, hp, hfirst⟩
            cases i with
            | zero => exact hm.symm.trans (matchAt_eq_some_iff.2 hp)
            | succ i => exact absurd (matchAt_eq_some_iff.1 hm).1 (hfirst 0 i.succ_pos _ _)

theorem routeMatch_eq_none_iff {s : JsString} :
    routeMatch s = none ↔ ∀ i b f, ¬ PatternAt (s.drop i) b f := by
  induction s with
  | nil =>
      simp only [routeMatch_nil, List.drop_nil, true_iff]
      rintro i b f ⟨⟨rest, h⟩, -⟩
      simp at h
  | cons c cs ih =>
      rw [routeMatch_cons]
      cases hm : matchAt (c :: cs) with
      | none =>
          dsimp only [Option.elim]
          rw [ih]
          refine ⟨fun h i => ?_, fun h i => h (i + 1)⟩
          cases i with
          | zero => exact matchAt_eq_none_iff.1 hm
          | succ i => exact h i
      | some g =>
          simp only [Option.elim, reduceCtorEq, false_iff, not_forall, not_not]
          exact ⟨0, g.1, g.2, (matchAt_eq_some_iff.1 hm).1⟩

namespace HubServer

variable {srv : HubServer} {cache : AuthTimestampCache} {st : Store} {address path : JsString}
  {headers : RequestHeaders} {stream : List Chunk} {now : Nat} {uid url : JsString}

end HubServer

namespace HubServer

variable {srv : HubServer} {cache : AuthTimestampCache} {st : Store} {address path : JsString}
  {headers : RequestHeaders} {stream : List Chunk} {now : Nat} {uid url : JsString}

end HubServer

end GaiaHub
