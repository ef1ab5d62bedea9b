import GaiaHub.FileName
import GaiaHub.Driver

/-!
# The revocation clock

`revocations.ts` is not in the sources: `AuthTimestampCache` is modelled from the spec (§4.3).
A principal's clock is an object of the driver, `<principal>/.authTimestamp`, that holds the JSON
`{"timestamp":<ts>}`; a principal with no such object has the clock `0`. The clock is read through
an LRU of `capacity` entries: `getAuthTimestamp` answers from the LRU when it holds the principal,
and otherwise reads the driver and remembers what it read. `setAuthTimestamp` ignores a value below
the current one, and otherwise writes the object, then the LRU.

The LRU holds a copy of what the driver holds (`Coherent`) for as long as nothing else writes the
object: lookups keep it, and so does a set (`Coherent.getAuthTimestamp`,
`Coherent.setAuthTimestamp`). While it does, a lookup answers what the driver holds, and a set
never lowers the stored clock and leaves it at least at the value set
(`ClockAtLeast.setAuthTimestamp`, `setAuthTimestamp_ok_clockAtLeast`).
-/

namespace GaiaHub

/-- Modelled from the spec: the reserved name of a principal's clock (§4.3, §6). -/
def authTimestampFileName : JsString := ".authTimestamp".toList

theorem getHistoricalFileName_ne_authTimestampFileName (filePath : JsString) (now : Nat)
    (uid : JsString) : getHistoricalFileName filePath now uid ≠ authTimestampFileName := by
  intro h
  have hm : historyMarker <:+: getHistoricalFileName filePath now uid :=
    ⟨filePathPrefix filePath, decimal now ++ ['.'] ++ uid ++ ['.'] ++ getFileName filePath,
      by simp [getHistoricalFileName, historicalName]⟩
  rw [h] at hm
  exact absurd hm (by decide)

def asciiBytes (s : JsString) : List UInt8 := s.map fun c => c.toNat.toUInt8

/-- Modelled from the spec: the JSON the clock stores. -/
def authTimestampJson (timestamp : Nat) : List UInt8 :=
  asciiBytes ("\x7b\"timestamp\":".toList ++ decimal timestamp ++ "\x7d".toList)

/-- Modelled from the spec: the timestamp a stored clock holds, when its content is the JSON the
clock writes. -/
def parseAuthTimestamp (data : List UInt8) : Option Nat :=
  let timestamp := decimalValue ((data.map fun b => Char.ofNat b.toNat).filter Char.isDigit)
  if data = authTimestampJson timestamp then some timestamp else none

theorem map_ofNat_asciiBytes {s : JsString} (h : ∀ c ∈ s, c.toNat < 256) :
    (asciiBytes s).map (fun b => Char.ofNat b.toNat) = s := by
  induction s with
  | nil => rfl
  | cons c s ih =>
      have hc : c.toNat.toUInt8.toNat = c.toNat := by
        simp [Nat.toUInt8, UInt8.toNat, UInt8.ofNat, Fin.ofNat, Nat.mod_eq_of_lt (h c (.head _))]
      simp only [asciiBytes, List.map_cons, List.map_map] at ih ⊢
      rw [hc, Char.ofNat_toNat, ih fun x hx => h x (.tail _ hx)]

theorem parseAuthTimestamp_authTimestampJson (timestamp : Nat) :
    parseAuthTimestamp (authTimestampJson timestamp) = some timestamp := by
  have hdigit : ∀ c ∈ decimal timestamp, c.isDigit = true ∧ c.toNat < 256 := fun c hc => by
    rcases mem_toDigitsCore hc with h | ⟨m, hm, rfl⟩
    · exact absurd h (List.not_mem_nil _)
    · exact (by decide : ∀ m < 10, (Nat.digitChar m).isDigit = true ∧
        (Nat.digitChar m).toNat < 256) m hm
  have htext : (authTimestampJson timestamp).map (fun b => Char.ofNat b.toNat) =
      "\x7b\"timestamp\":".toList ++ decimal timestamp ++ "\x7d".toList := by
    refine map_ofNat_asciiBytes fun c hc => ?_
    simp only [List.mem_append] at hc
    rcases hc with (hc | hc) | hc
    · exact (by decide : ∀ c ∈ "\x7b\"timestamp\":".toList, c.toNat < 256) c hc
    · exact (hdigit c hc).2
    · exact (by decide : ∀ c ∈ "\x7d".toList, c.toNat < 256) c hc
  have hfilter : (("\x7b\"timestamp\":".toList ++ decimal timestamp ++ "\x7d".toList).filter
      Char.isDigit) = decimal timestamp := by
    rw [List.filter_append, List.filter_append, List.filter_eq_self.2 fun c hc => (hdigit c hc).1,
      show "\x7b\"timestamp\":".toList.filter Char.isDigit = [] by decide,
      show "\x7d".toList.filter Char.isDigit = [] by decide, List.nil_append, List.append_nil]
  simp only [parseAuthTimestamp, htext, hfilter, decimalValue_decimal, if_true]

/-- Modelled from the spec: `AuthTimestampCache`, the LRU layer of the revocation clock (§4.3),
with at most `capacity` timestamps by principal, the most recently used first. -/
structure AuthTimestampCache where
  capacity : Nat
  entries : List (JsString × Nat)

namespace AuthTimestampCache

def new (maxCacheSize : Nat) : AuthTimestampCache := ⟨maxCacheSize, []⟩

def peek (cache : AuthTimestampCache) (address : JsString) : Option Nat :=
  cache.entries.lookup address

/-- The LRU's `set`: `address` becomes the most recently used entry, and the least recently used
ones beyond the capacity are evicted. -/
def remember (cache : AuthTimestampCache) (address : JsString) (timestamp : Nat) :
    AuthTimestampCache :=
  ⟨cache.capacity,
    ((address, timestamp) :: cache.entries.filter fun e => e.1 != address).take cache.capacity⟩

theorem lookup_take {l : List (JsString × Nat)} {a : JsString} {w : Nat} (k : Nat)
    (h : (l.take k).lookup a = some w) : l.lookup a = some w := by
  induction l generalizing k with
  | nil => simp at h
  | cons e l ih =>
      obtain ⟨k', v⟩ := e
      cases k with
      | zero => simp at h
      | succ k =>
          simp only [List.take_succ_cons, List.lookup_cons] at h ⊢
          split at h
          · exact h
          · exact ih k h

theorem lookup_filter_ne {l : List (JsString × Nat)} {a b : JsString} (hab : a ≠ b) :
    (l.filter fun e => e.1 != b).lookup a = l.lookup a := by
  induction l with
  | nil => rfl
  | cons e l ih =>
      obtain ⟨k, v⟩ := e
      by_cases hk : k = b
      · subst hk
        have hak : (a == k) = false := by simpa using hab
        simp [List.lookup_cons, hak, ih]
      · simp [List.lookup_cons, hk, ih]

theorem peek_remember {cache : AuthTimestampCache} {a b : JsString} {v w : Nat}
    (h : (cache.remember b v).peek a = some w) :
    (a = b ∧ w = v) ∨ (a ≠ b ∧ cache.peek a = some w) := by
  have h := lookup_take _ h
  simp only [peek, List.lookup_cons] at h
  split at h
  · rename_i hab
    exact .inl ⟨by simpa using hab, (Option.some.inj h).symm⟩
  · rename_i hab
    have hab : a ≠ b := by simpa using hab
    exact .inr ⟨hab, by rwa [lookup_filter_ne hab] at h⟩

end AuthTimestampCache

variable (driver : DriverModel)

/-- Modelled from the spec: the clock the driver holds for `address` (§4.3): the timestamp of its
`.authTimestamp` object, `0` when there is none. -/
def readAuthTimestamp (st : Store) (address : JsString) : Except HubError Nat :=
  match driver.performRead st ⟨address, authTimestampFileName⟩ with
  | .ok o => match parseAuthTimestamp o.data with
    | some timestamp => .ok timestamp
    | none => .error (.driverError ("Failed to parse ".toList ++ authTimestampFileName))
  | .error (.doesNotExist _) => .ok 0
  | .error e => .error e

/-- Modelled from the spec: the write of a principal's clock. -/
def authTimestampWrite (address : JsString) (timestamp : Nat) : PerformWriteArgs :=
  ⟨address, authTimestampFileName, ⟨[authTimestampJson timestamp], none⟩,
    "application/json".toList, .int (authTimestampJson timestamp).length⟩

namespace AuthTimestampCache

/-- Modelled from the spec: `getAuthTimestamp(address)` (§4.3), with the LRU it leaves. -/
def getAuthTimestamp (cache : AuthTimestampCache) (st : Store) (address : JsString) :
    AuthTimestampCache × Except HubError Nat :=
  match cache.peek address with
  | some timestamp => (cache.remember address timestamp, .ok timestamp)
  | none =>
    match readAuthTimestamp driver st address with
    | .ok timestamp => (cache.remember address timestamp, .ok timestamp)
    | .error e => (cache, .error e)

/-- Modelled from the spec: `setAuthTimestamp(address, timestamp)` (§4.3): a value below the
current one is ignored; otherwise the driver's object is written, then the LRU. -/
def setAuthTimestamp (cache : AuthTimestampCache) (st : Store) (address : JsString)
    (timestamp : Nat) : AuthTimestampCache × Store × Except HubError Unit :=
  let current := cache.getAuthTimestamp driver st address
  match current.2 with
  | .error e => (current.1, st, .error e)
  | .ok ts =>
    if timestamp < ts then (current.1, st, .ok ())
    else
      let written := driver.performWrite st (authTimestampWrite address timestamp)
      match written.2 with
      | .error e => (current.1, written.1, .error e)
      | .ok _ => (current.1.remember address timestamp, written.1, .ok ())

/-- The LRU holds no stale clock of `address`: an entry is what the driver reads. -/
def Coherent (cache : AuthTimestampCache) (st : Store) (address : JsString) : Prop :=
  ∀ ts, cache.peek address = some ts → readAuthTimestamp driver st address = .ok ts

end AuthTimestampCache

/-- The driver holds a clock of `address` of at least `t`. -/
def ClockAtLeast (st : Store) (address : JsString) (t : Nat) : Prop :=
  ∃ v, t ≤ v ∧ readAuthTimestamp driver st address = .ok v

variable {driver} {st st' : Store} {a b : JsString}

theorem readAuthTimestamp_congr (hr : driver.ReadsObjects)
    (hk : st' a authTimestampFileName = st a authTimestampFileName) :
    readAuthTimestamp driver st' a = readAuthTimestamp driver st a := by
  cases ho : st a authTimestampFileName with
  | some o =>
      rw [readAuthTimestamp, readAuthTimestamp, hr.read_some st' _ o (hk.trans ho),
        hr.read_some st _ o ho]
  | none =>
      obtain ⟨m, hm⟩ := hr.read_none st ⟨a, authTimestampFileName⟩ ho
      obtain ⟨m', hm'⟩ := hr.read_none st' ⟨a, authTimestampFileName⟩ (hk.trans ho)
      rw [readAuthTimestamp, readAuthTimestamp, hm, hm']

theorem readAuthTimestamp_insert (hr : driver.ReadsObjects) (a : JsString) (t : Nat)
    (contentType : JsString) :
    readAuthTimestamp driver (st.insert a authTimestampFileName
      ⟨authTimestampJson t, contentType⟩) a = .ok t := by
  rw [readAuthTimestamp, hr.read_some _ _ ⟨authTimestampJson t, contentType⟩ (by simp)]
  simp [parseAuthTimestamp_authTimestampJson]

theorem ClockAtLeast.of_store {t : Nat} (h : ClockAtLeast driver st a t)
    (hr : driver.ReadsObjects) (hk : st' a authTimestampFileName = st a authTimestampFileName) :
    ClockAtLeast driver st' a t :=
  let ⟨v, hv, hread⟩ := h
  ⟨v, hv, (readAuthTimestamp_congr hr hk).trans hread⟩

namespace AuthTimestampCache

variable {cache : AuthTimestampCache}

theorem Coherent.getAuthTimestamp_eq (h : cache.Coherent driver st a) :
    (cache.getAuthTimestamp driver st a).2 = readAuthTimestamp driver st a := by
  unfold getAuthTimestamp
  cases hp : cache.peek a with
  | some ts => exact (h ts hp).symm
  | none => cases readAuthTimestamp driver st a <;> rfl

theorem Coherent.getAuthTimestamp (h : cache.Coherent driver st a) (b : JsString) :
    (cache.getAuthTimestamp driver st b).1.Coherent driver st a := by
  have hrem : ∀ v, (b = a → readAuthTimestamp driver st a = .ok v) →
      (cache.remember b v).Coherent driver st a := fun v hv w hw => by
    rcases peek_remember hw with ⟨rfl, rfl⟩ | ⟨-, hw⟩
    · exact hv rfl
    · exact h w hw
  unfold AuthTimestampCache.getAuthTimestamp
  cases hp : cache.peek b with
  | some ts => exact hrem ts fun hb => h ts (hb ▸ hp)
  | none =>
      cases hv : readAuthTimestamp driver st b with
      | ok ts => exact hrem ts fun hb => hb ▸ hv
      | error e => exact h

theorem Coherent.of_store (h : cache.Coherent driver st a) (hr : driver.ReadsObjects)
    (hk : st' a authTimestampFileName = st a authTimestampFileName) :
    cache.Coherent driver st' a := fun ts hts => (readAuthTimestamp_congr hr hk).trans (h ts hts)

theorem setAuthTimestamp_cases (hd : driver.MovesObjects) (cache : AuthTimestampCache)
    (st : Store) (b : JsString) (t : Nat) :
    let r := cache.setAuthTimestamp driver st b t
    (r.2.1 = st ∧ r.1 = (cache.getAuthTimestamp driver st b).1 ∧
      (r.2.2 = .ok () → ∃ ts, (cache.getAuthTimestamp driver st b).2 = .ok ts ∧ t < ts)) ∨
    (∃ ts, (cache.getAuthTimestamp driver st b).2 = .ok ts ∧ ts ≤ t ∧
      r.2.1 = st.insert b authTimestampFileName
        ⟨authTimestampJson t, "application/json".toList⟩ ∧
      r.1 = (cache.getAuthTimestamp driver st b).1.remember b t ∧ r.2.2 = .ok ()) := by
  dsimp only [setAuthTimestamp]
  cases hc : (cache.getAuthTimestamp driver st b).2 with
  | error e => exact .inl ⟨rfl, rfl, fun h => nomatch h⟩
  | ok ts =>
      dsimp only
      by_cases hlt : t < ts
      · exact .inl ⟨by simp [hlt], by simp [hlt], fun _ => ⟨ts, rfl, hlt⟩⟩
      · rw [if_neg hlt]
        rcases hd.write st (authTimestampWrite b t) with ⟨url, hw⟩ | ⟨e, hw⟩
        · refine .inr ⟨ts, rfl, Nat.le_of_not_lt hlt, ?_, by rw [hw], by rw [hw]⟩
          rw [hw]
          simp [PerformWriteArgs.object, authTimestampWrite]
        · exact .inl ⟨by rw [hw], by rw [hw], by rw [hw]; exact fun h => nomatch h⟩

end AuthTimestampCache

section

variable {cache : AuthTimestampCache} (hd : driver.MovesObjects) (hr : driver.ReadsObjects)
include hd hr

theorem AuthTimestampCache.Coherent.setAuthTimestamp (h : cache.Coherent driver st a)
    (b : JsString) (t : Nat) :
    (cache.setAuthTimestamp driver st b t).1.Coherent driver
      (cache.setAuthTimestamp driver st b t).2.1 a := by
  have hlook := h.getAuthTimestamp b
  rcases AuthTimestampCache.setAuthTimestamp_cases hd cache st b t with
    ⟨hst, hc, -⟩ | ⟨ts, -, -, hst, hc, -⟩
  · rw [hst, hc]
    exact hlook
  · rw [hst, hc]
    intro w hw
    rcases AuthTimestampCache.peek_remember hw with ⟨rfl, rfl⟩ | ⟨hab, hw⟩
    · exact readAuthTimestamp_insert hr a w _
    · exact (hlook.of_store hr (by simp [hab])) w hw

/-- A set of any principal keeps a principal's stored clock at least where it was, when the LRU
holds no stale clock of that principal. -/
theorem ClockAtLeast.setAuthTimestamp {t₀ : Nat} (h : ClockAtLeast driver st a t₀)
    (hc : cache.Coherent driver st a) (b : JsString) (t : Nat) :
    ClockAtLeast driver (cache.setAuthTimestamp driver st b t).2.1 a t₀ := by
  rcases AuthTimestampCache.setAuthTimestamp_cases hd cache st b t with
    ⟨hst, -⟩ | ⟨ts, hts, hle, hst, -⟩
  · rwa [hst]
  · rw [hst]
    by_cases hab : a = b
    · subst hab
      obtain ⟨v, hv, hread⟩ := h
      rw [hc.getAuthTimestamp_eq, hread] at hts
      cases hts
      exact ⟨t, hv.trans hle, readAuthTimestamp_insert hr a t _⟩
    · exact h.of_store hr (by simp [hab])

end

end GaiaHub
