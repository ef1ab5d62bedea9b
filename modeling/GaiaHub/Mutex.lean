import Mathlib.Data.List.Nodup
import GaiaHub.Basic

/-!
# The single-flight lock

`AsyncMutexScope` keeps the ids it holds in a `Set<string>`. `tryAcquire(id, spawnOwner)`
answers `false` when `id` is held; otherwise it adds `id`, calls `spawnOwner`, and attaches to the
promise it returns a `finally` callback that deletes `id`; when `spawnOwner` throws it deletes
`id` and rethrows.

`spawnOwner` runs synchronously and may call `tryAcquire` again, so the calls whose `spawnOwner`
is running form a stack. An owner promise settles at any time after it is made; its `finally`
callback runs later, when no synchronous code is running. `MutexState` holds the set and what
surrounds it: the acquisitions not yet released and the stack. `MutexState.step` takes one
event: a call of `tryAcquire`, from the top level or from the running `spawnOwner`; the return
or the throw of the innermost `spawnOwner`; the settling of an owner promise; or the run of a
`finally` callback.

The invariant `MutexState.Inv` adds what keeps this true from event to event: serial numbers
are distinct and below `next`, and the stack holds, each once, the serial numbers of the
acquisitions whose `spawnOwner` runs. From it, in every reachable state
(`MutexState.Reachable.spec`) the set holds exactly the ids of the acquisitions not yet
released, each once, so `openedCount` is their number; a call answers `false` exactly on a held
id; and the throw cleanup and the `finally` callback each release their own acquisition, so the
unconditional `delete(id)` never frees an id that a later acquisition holds.
-/

namespace GaiaHub

def setHas (set : List JsString) (x : JsString) : Bool := set.contains x

def setAdd (set : List JsString) (x : JsString) : List JsString :=
  if set.contains x then set else set ++ [x]

def setDelete (set : List JsString) (x : JsString) : List JsString :=
  @List.erase _ instBEqOfDecidableEq set x

/-- The data of an `AsyncMutexScope`: its `_opened` set. -/
structure AsyncMutexScope where
  opened : List JsString
  deriving DecidableEq, Repr

def AsyncMutexScope.openedCount (m : AsyncMutexScope) : Nat := m.opened.length

/-- Where an acquisition stands until it is released: its `spawnOwner` runs; its promise is
pending with the `finally` callback attached; or the promise settled and the callback waits. -/
inductive OwnerPhase where
  | spawning
  | pending
  | settled
  deriving DecidableEq, Repr

structure Acquisition where
  key : Nat
  id : JsString
  phase : OwnerPhase
  deriving DecidableEq, Repr

inductive Answer where
  | returned (acquired : Bool)
  | threw
  deriving DecidableEq, Repr

/-- An event of a run around an `AsyncMutexScope`. -/
inductive MutexEvent where
  | tryAcquire (id : JsString)
  | spawnReturns
  | spawnThrows
  | settle (key : Nat)
  | runFinally (key : Nat)
  deriving DecidableEq, Repr

/-- The scope, the acquisitions not yet released in the order they were made, the acquisitions
whose `spawnOwner` is running (innermost first), and the serial number of the next
acquisition. -/
structure MutexState where
  scope : AsyncMutexScope
  live : List Acquisition
  stack : List Nat
  next : Nat
  deriving DecidableEq, Repr

namespace MutexState

def init : MutexState := ⟨⟨[]⟩, [], [], 0⟩

def setPhase (live : List Acquisition) (k : Nat) (phase : OwnerPhase) : List Acquisition :=
  live.map fun a => if a.key = k then { a with phase } else a

def findIn (live : List Acquisition) (k : Nat) (phase : OwnerPhase) : Option Acquisition :=
  live.find? fun a => a.key = k && a.phase = phase

/-- One event, and what a call of `tryAcquire` answers if one completes; `none` when the event
cannot happen in `s`. -/
def step (s : MutexState) : MutexEvent → Option (MutexState × Option Answer)
  | .tryAcquire id =>
    if setHas s.scope.opened id then some (s, some (.returned false))
    else
      some (⟨⟨setAdd s.scope.opened id⟩, s.live ++ [⟨s.next, id, .spawning⟩], s.next :: s.stack,
        s.next + 1⟩, none)
  | .spawnReturns =>
    match s.stack with
    | k :: stack => some (⟨s.scope, setPhase s.live k .pending, stack, s.next⟩,
        some (.returned true))
    | [] => none
  | .spawnThrows =>
    match s.stack with
    | k :: stack =>
      match findIn s.live k .spawning with
      | some a => some (⟨⟨setDelete s.scope.opened a.id⟩, s.live.erase a, stack, s.next⟩,
          some .threw)
      | none => none
    | [] => none
  | .settle k =>
    match findIn s.live k .pending with
    | some _ => some (⟨s.scope, setPhase s.live k .settled, s.stack, s.next⟩, none)
    | none => none
  | .runFinally k =>
    if s.stack.isEmpty then
      match findIn s.live k .settled with
      | some a => some (⟨⟨setDelete s.scope.opened a.id⟩, s.live.erase a, s.stack, s.next⟩, none)
      | none => none
    else none

/-- The states a run reaches from a fresh scope. -/
inductive Reachable : MutexState → Prop
  | init : Reachable init
  | step {s s' : MutexState} {e : MutexEvent} {answer : Option Answer} :
      Reachable s → s.step e = some (s', answer) → Reachable s'

/-! ## The invariant -/

theorem map_setPhase {β : Type} (f : Acquisition → β)
    (hf : ∀ (a : Acquisition) (phase : OwnerPhase), f { a with phase } = f a)
    (live : List Acquisition) (k : Nat) (phase : OwnerPhase) :
    (setPhase live k phase).map f = live.map f := by
  simp only [setPhase, List.map_map]
  exact List.map_congr_left fun a _ => by dsimp only [Function.comp]; split_ifs <;> simp only [hf]

theorem mem_setPhase {live : List Acquisition} {a : Acquisition} {k : Nat} (phase : OwnerPhase)
    (ha : a ∈ live) (hk : a.key ≠ k) : a ∈ setPhase live k phase :=
  List.mem_map.2 ⟨a, ha, if_neg hk⟩

theorem findIn_spec {live : List Acquisition} {k : Nat} {phase : OwnerPhase} {a : Acquisition}
    (h : findIn live k phase = some a) : a ∈ live ∧ a.key = k ∧ a.phase = phase := by
  have hp := List.find?_some h
  simp only [Bool.and_eq_true, decide_eq_true_eq] at hp
  exact ⟨List.mem_of_find?_eq_some h, hp⟩

theorem map_erase_perm {α β : Type} [DecidableEq α] [DecidableEq β] (f : α → β)
    {l : List α} {a : α} (h : a ∈ l) : List.Perm ((l.erase a).map f) ((l.map f).erase (f a)) :=
  (((List.perm_cons_erase h).map f).symm.trans
    (List.perm_cons_erase (List.mem_map_of_mem f h))).cons_inv

/-- The invariant of the lock: the set holds the ids of the acquisitions not yet released, each
once; their serial numbers are distinct and below `next`; and the stack holds, each once, the
serial numbers of acquisitions whose `spawnOwner` runs. -/
structure Inv (s : MutexState) : Prop where
  opened_perm : List.Perm s.scope.opened (s.live.map (·.id))
  nodup : (s.live.map (·.id)).Nodup
  keys_nodup : (s.live.map (·.key)).Nodup
  key_lt : ∀ k ∈ s.live.map (·.key), k < s.next
  stack_nodup : s.stack.Nodup
  stack_spawning : ∀ k ∈ s.stack, ∃ a ∈ s.live, a.key = k ∧ a.phase = .spawning

variable {s s' : MutexState}

theorem Inv.eq_of_key_eq (hi : s.Inv) {a b : Acquisition} (ha : a ∈ s.live) (hb : b ∈ s.live)
    (h : a.key = b.key) : a = b :=
  List.inj_on_of_nodup_map hi.keys_nodup ha hb h

theorem Inv.findIn_of_mem (hi : s.Inv) {a : Acquisition} (ha : a ∈ s.live) :
    findIn s.live a.key a.phase = some a := by
  cases h : findIn s.live a.key a.phase with
  | none => exact absurd (List.find?_eq_none.1 h a ha) (by simp)
  | some b =>
      obtain ⟨hb, hk, -⟩ := findIn_spec h
      rw [hi.eq_of_key_eq hb ha hk]

theorem Inv.acquire (hi : s.Inv) {id : JsString} (hid : id ∉ s.live.map (·.id)) :
    Inv ⟨⟨s.scope.opened ++ [id]⟩, s.live ++ [⟨s.next, id, .spawning⟩], s.next :: s.stack,
      s.next + 1⟩ := by
  have hfresh : s.next ∉ s.live.map (·.key) := fun h => (hi.key_lt _ h).false
  refine ⟨?_, ?_, ?_, ?_, ?_, ?_⟩ <;> simp only [List.map_append, List.map_cons, List.map_nil]
  · exact hi.opened_perm.append_right [id]
  · exact hi.nodup.append (List.nodup_singleton _) (List.disjoint_singleton.2 hid)
  · exact hi.keys_nodup.append (List.nodup_singleton _) (List.disjoint_singleton.2 hfresh)
  · intro k hk
    rcases List.mem_append.1 hk with hk | hk
    · exact Nat.lt_succ_of_lt (hi.key_lt k hk)
    · simp only [List.mem_singleton] at hk; omega
  · refine List.nodup_cons.2 ⟨fun h => hfresh ?_, hi.stack_nodup⟩
    obtain ⟨a, ha, hak, -⟩ := hi.stack_spawning _ h
    exact hak ▸ List.mem_map_of_mem _ ha
  · intro k hk
    rcases List.mem_cons.1 hk with rfl | hk
    · exact ⟨_, List.mem_append_right _ (List.mem_singleton_self _), rfl, rfl⟩
    · obtain ⟨a, ha, hak, hph⟩ := hi.stack_spawning k hk
      exact ⟨a, List.mem_append_left _ ha, hak, hph⟩

theorem Inv.pop (hi : s.Inv) {k : Nat} {stack : List Nat} (hst : s.stack = k :: stack) :
    stack ⊆ s.stack ∧ stack.Nodup ∧ k ∉ stack :=
  have hnd := List.nodup_cons.1 (hst ▸ hi.stack_nodup)
  ⟨hst ▸ List.subset_cons_self k stack, hnd.2, hnd.1⟩

theorem Inv.setPhase (hi : s.Inv) {k : Nat} (phase : OwnerPhase) {stack : List Nat}
    (hsub : stack ⊆ s.stack) (hnd : stack.Nodup) (hk : k ∉ stack) :
    Inv ⟨s.scope, MutexState.setPhase s.live k phase, stack, s.next⟩ := by
  have hid := map_setPhase (·.id) (fun _ _ => rfl) s.live k phase
  have hkey := map_setPhase (·.key) (fun _ _ => rfl) s.live k phase
  refine ⟨hid ▸ hi.opened_perm, hid ▸ hi.nodup, hkey ▸ hi.keys_nodup, hkey ▸ hi.key_lt, hnd,
    fun k' hk' => ?_⟩
  obtain ⟨a, ha, rfl, hph⟩ := hi.stack_spawning k' (hsub hk')
  exact ⟨a, mem_setPhase phase ha fun h => hk (h ▸ hk'), rfl, hph⟩

theorem Inv.release (hi : s.Inv) {a : Acquisition} (ha : a ∈ s.live) {stack : List Nat}
    (hsub : stack ⊆ s.stack) (hnd : stack.Nodup) (hk : a.key ∉ stack) :
    Inv ⟨⟨setDelete s.scope.opened a.id⟩, s.live.erase a, stack, s.next⟩ := by
  have hsl : (s.live.erase a).Sublist s.live := List.erase_sublist a s.live
  refine ⟨(hi.opened_perm.erase a.id).trans (map_erase_perm _ ha).symm,
    hi.nodup.sublist (hsl.map _), hi.keys_nodup.sublist (hsl.map _),
    fun k hk' => hi.key_lt k ((hsl.map _).subset hk'), hnd, fun k hk' => ?_⟩
  obtain ⟨b, hb, rfl, hph⟩ := hi.stack_spawning k (hsub hk')
  have hba : b ≠ a := by rintro rfl; exact hk hk'
  exact ⟨b, List.mem_erase_of_ne hba |>.2 hb, rfl, hph⟩

/-- Every event keeps the invariant. -/
theorem Inv.step (hi : s.Inv) {e : MutexEvent} {answer : Option Answer}
    (h : s.step e = some (s', answer)) : s'.Inv := by
  cases e with
  | tryAcquire id =>
      simp only [MutexState.step, setHas] at h
      split_ifs at h with hheld
      · cases h; exact hi
      · cases h
        simp only [setAdd, hheld, if_false]
        exact hi.acquire fun hm => hheld (by simpa using hi.opened_perm.mem_iff.2 hm)
  | spawnReturns =>
      simp only [MutexState.step] at h
      split at h
      · rename_i hst
        cases h
        obtain ⟨hsub, hnd, hk⟩ := hi.pop hst
        exact hi.setPhase _ hsub hnd hk
      · cases h
  | spawnThrows =>
      simp only [MutexState.step] at h
      split at h
      · rename_i hst
        split at h
        · rename_i a hfind
          cases h
          obtain ⟨ha, rfl, -⟩ := findIn_spec hfind
          obtain ⟨hsub, hnd, hk⟩ := hi.pop hst
          exact hi.release ha hsub hnd hk
        · cases h
      · cases h
  | settle k =>
      simp only [MutexState.step] at h
      split at h
      · rename_i b hfind
        cases h
        obtain ⟨hb, rfl, hph⟩ := findIn_spec hfind
        refine hi.setPhase _ (List.Subset.refl _) hi.stack_nodup fun hk => ?_
        obtain ⟨a, ha, hab, hpa⟩ := hi.stack_spawning _ hk
        rw [hi.eq_of_key_eq ha hb hab, hph] at hpa
        cases hpa
      · cases h
  | runFinally k =>
      simp only [MutexState.step] at h
      split_ifs at h with hemp
      split at h
      · rename_i a hfind
        cases h
        have hst : s.stack = [] := List.isEmpty_iff.1 hemp
        exact hi.release (findIn_spec hfind).1 (List.Subset.refl _) hi.stack_nodup
          (by rw [hst]; exact List.not_mem_nil _)
      · cases h

theorem Reachable.inv (hs : s.Reachable) : s.Inv := by
  induction hs with
  | init => exact ⟨List.Perm.nil, List.nodup_nil, List.nodup_nil, nofun, List.nodup_nil, nofun⟩
  | step _ h ih => exact ih.step h

/-! ## What a run guarantees -/

/-- What the lock guarantees in a state `s` of a run: the set holds exactly the ids of the
acquisitions not yet released, each once, and `openedCount` is their number; a call on a held id
answers `false`, and one on a free id takes it and runs `spawnOwner`; the innermost `spawnOwner`
belongs to an acquisition, whose call answers `true` when it returns and whose cleanup releases
that acquisition alone when it throws; and once no synchronous code runs, the `finally` callback
of a settled acquisition releases it alone. -/
structure Spec (s : MutexState) : Prop where
  held_iff : ∀ id, setHas s.scope.opened id = true ↔ ∃ a ∈ s.live, a.id = id
  ids_nodup : (s.live.map (·.id)).Nodup
  openedCount_eq : s.scope.openedCount = s.live.length
  tryAcquire_held : ∀ id, setHas s.scope.opened id = true →
    s.step (.tryAcquire id) = some (s, some (.returned false))
  tryAcquire_free : ∀ id, setHas s.scope.opened id = false →
    ∃ s', s.step (.tryAcquire id) = some (s', none) ∧ setHas s'.scope.opened id = true ∧
      s'.live = s.live ++ [⟨s.next, id, .spawning⟩] ∧ s'.stack = s.next :: s.stack
  innermost : ∀ k stack, s.stack = k :: stack → ∃ a ∈ s.live, a.key = k ∧ a.phase = .spawning ∧
    (∃ s', s.step .spawnReturns = some (s', some (.returned true))) ∧
    s.step .spawnThrows =
      some (⟨⟨setDelete s.scope.opened a.id⟩, s.live.erase a, stack, s.next⟩, some .threw)
  runFinally_settled : ∀ a ∈ s.live, a.phase = .settled → s.stack = [] →
    s.step (.runFinally a.key) =
      some (⟨⟨setDelete s.scope.opened a.id⟩, s.live.erase a, [], s.next⟩, none)

/-- Every state a run reaches meets `Spec`, over every interleaving of calls, returns, throws,
settlements and `finally` callbacks, over any ids. -/
theorem Reachable.spec (hs : s.Reachable) : s.Spec := by
  have hi := hs.inv
  have hheld : ∀ id, setHas s.scope.opened id = true ↔ ∃ a ∈ s.live, a.id = id := fun id => by
    simp [setHas, hi.opened_perm.mem_iff]
  refine ⟨hheld, hi.nodup, hi.opened_perm.length_eq.trans (List.length_map _ _),
    fun id h => by simp [MutexState.step, h], fun id h => ?_, fun k stack hst => ?_,
    fun a ha hph hst => ?_⟩
  · refine ⟨⟨⟨setAdd s.scope.opened id⟩, s.live ++ [⟨s.next, id, .spawning⟩], s.next :: s.stack,
      s.next + 1⟩, by simp [MutexState.step, h], ?_, rfl, rfl⟩
    have hnot : id ∉ s.scope.opened := by simpa [setHas] using h
    simp [setHas, setAdd, hnot]
  · obtain ⟨a, ha, rfl, hph⟩ := hi.stack_spawning k (hst ▸ List.mem_cons_self _ _)
    refine ⟨a, ha, rfl, hph, ⟨⟨s.scope, setPhase s.live a.key .pending, stack, s.next⟩, ?_⟩, ?_⟩ <;>
      simp only [MutexState.step, hst, ← hph, hi.findIn_of_mem ha]
  · simp only [MutexState.step, hst, List.isEmpty_nil, if_true, ← hph, hi.findIn_of_mem ha]

theorem spec_while_spawning :
    Spec ⟨⟨["a".toList]⟩, [⟨0, "a".toList, .spawning⟩], [0], 1⟩ :=
  Reachable.spec (@Reachable.step init _ (.tryAcquire "a".toList) none .init (by decide))

end MutexState

end GaiaHub
