import Mathlib.Data.Nat.Digits
import GaiaHub.Basic

/-!
# File names and historical file names

`getFileName` is the last `/`-separated part of a path, as `split('/')` and the last index give
it. Under archival scopes the hub renames the object at a path `p` to
`getHistoricalFileName p`: the directory prefix of `p` followed by
`.history.<Date.now()>.<generateUniqueID()>.<file name of p>`. The clock reading and the
identifier are inputs of the model (`now`, `uid`). `isHistoricalFile` tests the file name for
the `.history.` prefix.

The directory prefix of `p` is `p` up to and including its last `/`
(`filePathPrefix_append_slash`). A history name determines its path, time and identifier
(`getHistoricalFileName_spec`): the decimal time contains no `.`, the identifier has ten
characters, and none of the inserted parts contains `/`.
-/

namespace GaiaHub

/-! ## Splitting at `/` -/

theorem splitOnP_append_cons {α : Type*} (p : α → Bool) (xs ys : List α) {sep : α}
    (hsep : p sep = true) :
    (xs ++ sep :: ys).splitOnP p = xs.splitOnP p ++ ys.splitOnP p := by
  induction xs with
  | nil => simp [hsep]
  | cons x xs ih =>
      cases hx : p x
      · obtain ⟨s, ss, hs⟩ := List.exists_cons_of_ne_nil (List.splitOnP_ne_nil p xs)
        simp [hx, ih, hs]
      · simp [hx, ih]

/-- `getFileName(filePath)`: the last part of `filePath.split('/')`. -/
def getFileName (filePath : JsString) : JsString :=
  (filePath.splitOn '/').getLastD []

theorem getFileName_of_not_mem {n : JsString} (h : '/' ∉ n) : getFileName n = n := by
  rw [getFileName, List.splitOn, List.splitOnP_eq_single]
  · rfl
  · intro c hc
    simpa using ne_of_mem_of_not_mem hc h

theorem splitOn_append_slash (d n : JsString) :
    (d ++ '/' :: n).splitOn '/' = d.splitOn '/' ++ n.splitOn '/' :=
  splitOnP_append_cons _ d n (by decide)

theorem getFileName_append_slash (d n : JsString) :
    getFileName (d ++ '/' :: n) = getFileName n := by
  cases h : (n.splitOn '/').getLast? with
  | none => exact absurd (List.getLast?_eq_none_iff.1 h) (List.splitOnP_ne_nil _ _)
  | some x => simp [getFileName, splitOn_append_slash, h]

theorem eq_or_eq_append_slash (p : JsString) :
    '/' ∉ p ∨ ∃ d n, p = d ++ '/' :: n ∧ '/' ∉ n := by
  induction p with
  | nil => exact .inl (List.not_mem_nil _)
  | cons c p ih =>
      rcases ih with hp | ⟨d, n, rfl, hn⟩
      · by_cases hc : c = '/'
        · exact .inr ⟨[], p, by simp [hc], hp⟩
        · exact .inl (by simp [Ne.symm hc, hp])
      · exact .inr ⟨c :: d, n, rfl, hn⟩

theorem not_mem_getFileName (p : JsString) : '/' ∉ getFileName p := by
  rcases eq_or_eq_append_slash p with hp | ⟨d, n, rfl, hn⟩
  · rwa [getFileName_of_not_mem hp]
  · rwa [getFileName_append_slash, getFileName_of_not_mem hn]

/-- `filePath.slice(0, filePath.length - fileName.length)`: what precedes the file name. -/
def filePathPrefix (filePath : JsString) : JsString :=
  filePath.take (filePath.length - (getFileName filePath).length)

theorem filePathPrefix_of_not_mem {n : JsString} (h : '/' ∉ n) : filePathPrefix n = [] := by
  simp [filePathPrefix, getFileName_of_not_mem h]

theorem filePathPrefix_append_slash {d n : JsString} (h : '/' ∉ n) :
    filePathPrefix (d ++ '/' :: n) = d ++ ['/'] := by
  have hlen : (d ++ '/' :: n).length - n.length = (d ++ ['/']).length := by simp; omega
  rw [filePathPrefix, getFileName_append_slash, getFileName_of_not_mem h, hlen,
    show d ++ '/' :: n = (d ++ ['/']) ++ n by simp, List.take_left]

theorem filePathPrefix_append_getFileName (p : JsString) :
    filePathPrefix p ++ getFileName p = p := by
  rcases eq_or_eq_append_slash p with hp | ⟨d, n, rfl, hn⟩
  · simp [filePathPrefix_of_not_mem hp, getFileName_of_not_mem hp]
  · simp [filePathPrefix_append_slash hn, getFileName_append_slash, getFileName_of_not_mem hn]

theorem getFileName_filePathPrefix_append (p : JsString) {n : JsString} (h : '/' ∉ n) :
    getFileName (filePathPrefix p ++ n) = n := by
  rcases eq_or_eq_append_slash p with hp | ⟨d, m, rfl, hm⟩
  · simp [filePathPrefix_of_not_mem hp, getFileName_of_not_mem h]
  · simp [filePathPrefix_append_slash hm, getFileName_append_slash, getFileName_of_not_mem h]

theorem filePathPrefix_filePathPrefix_append (p : JsString) {n : JsString} (h : '/' ∉ n) :
    filePathPrefix (filePathPrefix p ++ n) = filePathPrefix p := by
  rw [filePathPrefix, getFileName_filePathPrefix_append p h, List.length_append,
    Nat.add_sub_cancel, List.take_left]

/-! ## Decimal clock readings -/

def decimalStep (v : Nat) (c : Char) : Nat := 10 * v + (c.toNat - '0'.toNat)

def decimalValue (ds : JsString) : Nat := ds.foldl decimalStep 0

theorem decimalStep_digitChar (v n : Nat) :
    decimalStep v (Nat.digitChar (n % 10)) = 10 * v + n % 10 := by
  have key : ∀ m < 10, (Nat.digitChar m).toNat - '0'.toNat = m := by decide
  rw [decimalStep, key _ (Nat.mod_lt _ (by decide))]

theorem foldl_toDigitsCore (fuel n : Nat) (ds : List Char) (h : n < fuel) :
    (Nat.toDigitsCore 10 fuel n ds).foldl decimalStep 0 = ds.foldl decimalStep n := by
  induction fuel generalizing n ds with
  | zero => omega
  | succ fuel ih =>
      simp only [Nat.toDigitsCore]
      split
      · simp only [List.foldl_cons, decimalStep_digitChar]
        congr 1
        omega
      · rw [ih _ _ (by omega), List.foldl_cons, decimalStep_digitChar]
        congr 1
        omega

theorem decimalValue_decimal (n : Nat) : decimalValue (decimal n) = n :=
  foldl_toDigitsCore (n + 1) n [] (by omega)

theorem decimal_injective : Function.Injective decimal := fun a b h => by
  rw [← decimalValue_decimal a, h, decimalValue_decimal]

theorem mem_toDigitsCore {fuel n : Nat} {ds : List Char} {c : Char}
    (h : c ∈ Nat.toDigitsCore 10 fuel n ds) : c ∈ ds ∨ ∃ m < 10, c = Nat.digitChar m := by
  induction fuel generalizing n ds with
  | zero => exact .inl h
  | succ fuel ih =>
      simp only [Nat.toDigitsCore] at h
      have hd : ∃ m < 10, Nat.digitChar (n % 10) = Nat.digitChar m :=
        ⟨n % 10, Nat.mod_lt _ (by decide), rfl⟩
      split at h
      · rcases List.mem_cons.1 h with rfl | h
        · exact .inr hd
        · exact .inl h
      · rcases ih h with h | h
        · rcases List.mem_cons.1 h with rfl | h
          · exact .inr hd
          · exact .inl h
        · exact .inr h

theorem not_mem_decimal (n : Nat) : '.' ∉ decimal n ∧ '/' ∉ decimal n := by
  have key : ∀ c ∈ decimal n, c ≠ '.' ∧ c ≠ '/' := fun c hc => by
    rcases mem_toDigitsCore hc with h | ⟨m, hm, rfl⟩
    · exact absurd h (List.not_mem_nil _)
    · exact (by decide : ∀ m < 10, Nat.digitChar m ≠ '.' ∧ Nat.digitChar m ≠ '/') m hm
  exact ⟨fun h => (key _ h).1 rfl, fun h => (key _ h).2 rfl⟩

/-! ## Historical file names -/

def historyMarker : JsString := ".history.".toList

def historicalName (now : Nat) (uid fileName : JsString) : JsString :=
  historyMarker ++ decimal now ++ ['.'] ++ uid ++ ['.'] ++ fileName

/-- `getHistoricalFileName(filePath)` when `Date.now()` returns `now` and `generateUniqueID()`
returns `uid`. -/
def getHistoricalFileName (filePath : JsString) (now : Nat) (uid : JsString) : JsString :=
  filePathPrefix filePath ++ historicalName now uid (getFileName filePath)

/-- `isHistoricalFile(filePath)`. -/
def isHistoricalFile (filePath : JsString) : Bool :=
  startsWith (getFileName filePath) historyMarker

/-- The alphabet of `generateUniqueID` (`utils.ts`). -/
def uniqueIDAlphabet : JsString :=
  "0123456789ABCDEFGHIJKLMNOPQRSTUVWXYZabcdefghijklmnopqrstuvwxyz".toList

/-- The values `generateUniqueID()` returns: ten characters of its alphabet. -/
def IsUniqueID (uid : JsString) : Prop := uid.length = 10 ∧ ∀ c ∈ uid, c ∈ uniqueIDAlphabet

instance : DecidablePred IsUniqueID := fun _ => inferInstanceAs (Decidable (_ ∧ _))

theorem IsUniqueID.slash_not_mem {uid : JsString} (h : IsUniqueID uid) : '/' ∉ uid :=
  fun hm => absurd (h.2 _ hm) (by decide)

theorem slash_not_mem_historicalName (now : Nat) {uid fileName : JsString} (huid : '/' ∉ uid)
    (hname : '/' ∉ fileName) : '/' ∉ historicalName now uid fileName := by
  have hm : '/' ∉ historyMarker := by decide
  simp [historicalName, hm, (not_mem_decimal now).2, huid, hname]

theorem append_cons_inj_of_not_mem {α : Type*} {x : α} {a a' b b' : List α} (ha : x ∉ a)
    (ha' : x ∉ a') (h : a ++ x :: b = a' ++ x :: b') : a = a' ∧ b = b' := by
  induction a generalizing a' with
  | nil =>
      cases a' with
      | nil => simpa using h
      | cons y a' =>
          simp only [List.nil_append, List.cons_append, List.cons.injEq] at h
          exact absurd (List.mem_cons.2 (.inl h.1)) ha'
  | cons y a ih =>
      cases a' with
      | nil =>
          simp only [List.nil_append, List.cons_append, List.cons.injEq] at h
          exact absurd (List.mem_cons.2 (.inl h.1.symm)) ha
      | cons y' a' =>
          simp only [List.cons_append, List.cons.injEq] at h
          obtain ⟨rfl, h⟩ := h
          obtain ⟨rfl, rfl⟩ := ih (fun hm => ha (List.mem_cons_of_mem _ hm))
            (fun hm => ha' (List.mem_cons_of_mem _ hm)) h
          exact ⟨rfl, rfl⟩

theorem historicalName_inj {now now' : Nat} {uid uid' n n' : JsString}
    (hlen : uid.length = uid'.length)
    (h : historicalName now uid n = historicalName now' uid' n') :
    now = now' ∧ uid = uid' ∧ n = n' := by
  simp only [historicalName, List.append_assoc, List.singleton_append,
    List.append_cancel_left_eq] at h
  obtain ⟨hd, hrest⟩ := append_cons_inj_of_not_mem (not_mem_decimal now).1
    (not_mem_decimal now').1 h
  obtain ⟨hu, hn⟩ := List.append_inj hrest hlen
  exact ⟨decimal_injective hd, hu, List.cons.inj hn |>.2⟩

theorem getFileName_getHistoricalFileName (p : JsString) (now : Nat) {uid : JsString}
    (huid : '/' ∉ uid) :
    getFileName (getHistoricalFileName p now uid) = historicalName now uid (getFileName p) :=
  getFileName_filePathPrefix_append p
    (slash_not_mem_historicalName now huid (not_mem_getFileName p))

theorem filePathPrefix_getHistoricalFileName (p : JsString) (now : Nat) {uid : JsString}
    (huid : '/' ∉ uid) :
    filePathPrefix (getHistoricalFileName p now uid) = filePathPrefix p :=
  filePathPrefix_filePathPrefix_append p
    (slash_not_mem_historicalName now huid (not_mem_getFileName p))

theorem isHistoricalFile_getHistoricalFileName (p : JsString) (now : Nat) {uid : JsString}
    (huid : '/' ∉ uid) : isHistoricalFile (getHistoricalFileName p now uid) = true := by
  simp [isHistoricalFile, getFileName_getHistoricalFileName p now huid, historicalName,
    List.append_assoc]

theorem getHistoricalFileName_inj {p p' : JsString} {now now' : Nat} {uid uid' : JsString}
    (huid : IsUniqueID uid) (huid' : IsUniqueID uid')
    (h : getHistoricalFileName p now uid = getHistoricalFileName p' now' uid') :
    p = p' ∧ now = now' ∧ uid = uid' := by
  have hname := congrArg getFileName h
  have hdir := congrArg filePathPrefix h
  rw [getFileName_getHistoricalFileName p now huid.slash_not_mem,
    getFileName_getHistoricalFileName p' now' huid'.slash_not_mem] at hname
  rw [filePathPrefix_getHistoricalFileName p now huid.slash_not_mem,
    filePathPrefix_getHistoricalFileName p' now' huid'.slash_not_mem] at hdir
  obtain ⟨rfl, rfl, hn⟩ := historicalName_inj (huid.1.trans huid'.1.symm) hname
  refine ⟨?_, rfl, rfl⟩
  rw [← filePathPrefix_append_getFileName p, ← filePathPrefix_append_getFileName p', hdir, hn]

theorem getHistoricalFileName_ne_self (p : JsString) (now : Nat) (uid : JsString) :
    getHistoricalFileName p now uid ≠ p := by
  intro h
  have hlen := congrArg List.length h
  conv_rhs at hlen => rw [← filePathPrefix_append_getFileName p]
  simp [getHistoricalFileName, historicalName, historyMarker] at hlen
  omega

/-- A history name is historical, keeps the directory prefix of its path, has the file name
`.history.<now>.<uid>.<file name>`, and determines its path, time and identifier; so it is
never a path whose file name lacks the `.history.` prefix. -/
theorem getHistoricalFileName_spec (p : JsString) (now : Nat) (uid : JsString)
    (huid : IsUniqueID uid) :
    isHistoricalFile (getHistoricalFileName p now uid) = true ∧
      filePathPrefix (getHistoricalFileName p now uid) = filePathPrefix p ∧
      getFileName (getHistoricalFileName p now uid) =
        historyMarker ++ decimal now ++ ['.'] ++ uid ++ ['.'] ++ getFileName p ∧
      (∀ p' now' uid', IsUniqueID uid' →
        getHistoricalFileName p' now' uid' = getHistoricalFileName p now uid →
          p' = p ∧ now' = now ∧ uid' = uid) ∧
      ∀ q, isHistoricalFile q = false → q ≠ getHistoricalFileName p now uid :=
  ⟨isHistoricalFile_getHistoricalFileName p now huid.slash_not_mem,
    filePathPrefix_getHistoricalFileName p now huid.slash_not_mem,
    getFileName_getHistoricalFileName p now huid.slash_not_mem,
    fun _ _ _ huid' h => getHistoricalFileName_inj huid' huid h,
    fun _ hq he => by
      rw [he, isHistoricalFile_getHistoricalFileName p now huid.slash_not_mem] at hq
      cases hq⟩

theorem getHistoricalFileName_spec_foo_bar :
    IsUniqueID "mAB6Yps3V3".toList ∧
      isHistoricalFile (getHistoricalFileName "foo/bar".toList 1700000000000
        "mAB6Yps3V3".toList) = true :=
  ⟨by decide, (getHistoricalFileName_spec _ _ _ (by decide)).1⟩

end GaiaHub
