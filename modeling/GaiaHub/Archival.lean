import GaiaHub.Upload

/-!
# Archival runs

Under archival scopes `handleRequest` renames the object at its path to a fresh history name
before it writes the path, and `handleDelete` renames the object instead of deleting it. The
driver calls are where requests interleave. An `ArchivalState` holds the store and, for each
path, the request in flight on it with the driver call it makes next (`InFlight`); a request
may start only on a path no request in flight targets. `archivalStep` runs a request's checks
or its next driver call, through the pieces `handleRequest` and `handleDelete` are made of, so
that a request run alone is the handler (`archivalRun_request`, `archivalRun_delete`).

The history name a rename mints is an input of the step (`Date.now()` and
`generateUniqueID()`). When it is absent from the store and is not the path of a request in
flight, a step keeps every object stored under the principal and changes no key but the path of
the request that moves and the name it mints (`archivalStep_keeps_objects`): the invariant is
that a request about to write has a vacant path (`ArchivalState.Inv`). A minted name that is
the path of a request in flight breaks it: the rename moves an object there, and that request's
write then replaces it (`archivalStep_loses_object`).
-/

namespace GaiaHub

/-- The driver call a request in flight makes next: the rename or the write of `handleRequest`,
or the rename or the delete of `handleDelete`. -/
inductive InFlight where
  | rename (plan : UploadPlan) (stream : List Chunk)
  | write (plan : UploadPlan) (stream : List Chunk)
  | renameForDelete
  | delete

/-- The store, and the request in flight on each path. -/
structure ArchivalState where
  store : Store
  inflight : JsString → Option InFlight

/-- What happens next in an interleaved run: `handleRequest` or `handleDelete` is called and runs
its checks, or the request in flight on `path` makes its next driver call, with
`Date.now() = now` and `generateUniqueID() = uid` if that call is a rename. -/
inductive ArchivalAction where
  | request (path : JsString) (headers : RequestHeaders) (stream : List Chunk)
  | delete (path : JsString) (authorization : Option Token)
  | advance (path : JsString) (now : Nat) (uid : JsString)

def InFlight.renames : InFlight → Bool
  | .rename _ _ | .renameForDelete => true
  | .write _ _ | .delete => false

def ArchivalAction.mayTouch (k : JsString) : ArchivalAction → Prop
  | .advance path now uid => k = path ∨ k = getHistoricalFileName path now uid
  | _ => False

def carriesArchival : Option Token → Bool
  | some token => isArchivalRestricted (groupScopes token.scopes)
  | none => true

namespace ArchivalState

def minted (s : ArchivalState) (path : JsString) (now : Nat) (uid : JsString) :
    Option JsString :=
  match s.inflight path with
  | some (.rename _ _) | some .renameForDelete => some (getHistoricalFileName path now uid)
  | _ => none

/-- The conditions under which an action keeps every object: a request's token carries archival
scopes, and a name a rename mints is absent from the store. -/
def admissible (s : ArchivalState) (address : JsString) : ArchivalAction → Bool
  | .request _ headers _ => carriesArchival headers.authorization
  | .delete _ authorization => carriesArchival authorization
  | .advance path now uid =>
    match s.minted path now uid with
    | some h => (s.store address h).isNone
    | none => true

/-- The conditions of `admissible`, and a name a rename mints is not the path of a request in
flight. -/
def freshlyAdmissible (s : ArchivalState) (address : JsString) (a : ArchivalAction) : Bool :=
  s.admissible address a &&
    match a with
    | .advance path now uid =>
      match s.minted path now uid with
      | some h => (s.inflight h).isNone
      | none => true
    | _ => true

/-- The keys a step of `a` may change: the path of the request that makes a driver call, and
the name it mints. -/
def Touches (s : ArchivalState) (k : JsString) : ArchivalAction → Prop
  | .advance path now uid => k = path ∨ s.minted path now uid = some k
  | _ => False

/-- What one step of an archival run can do (`archivalStep_stepsTo`): nothing; start a request
on a vacant path; end a request without touching the store; let a rename find nothing, so that
the write comes next; move the object at a request's path to the name it mints; write a
request's path; or delete it. -/
inductive StepsTo (address : JsString) (s : ArchivalState) (a : ArchivalAction) :
    ArchivalState → Prop
  | stay : StepsTo address s a s
  | start {path : JsString} {x : InFlight} : s.inflight path = none →
      (s.admissible address a = true → x.renames = true) →
      StepsTo address s a ⟨s.store, Function.update s.inflight path (some x)⟩
  | stop {path : JsString} {now : Nat} {uid : JsString} {x : InFlight} :
      a = .advance path now uid → s.inflight path = some x →
      StepsTo address s a ⟨s.store, Function.update s.inflight path none⟩
  | findNothing {path : JsString} {now : Nat} {uid : JsString} {plan : UploadPlan}
      {stream : List Chunk} : a = .advance path now uid →
      s.inflight path = some (.rename plan stream) → s.store address path = none →
      StepsTo address s a ⟨s.store, Function.update s.inflight path (some (.write plan stream))⟩
  | move {path : JsString} {now : Nat} {uid h : JsString} {o : StoredObject}
      {next : Option InFlight} : a = .advance path now uid → s.minted path now uid = some h →
      s.store address path = some o →
      (next = none ∨ ∃ plan stream, next = some (.write plan stream)) →
      StepsTo address s a ⟨s.store.move address path h o, Function.update s.inflight path next⟩
  | write {path : JsString} {now : Nat} {uid : JsString} {plan : UploadPlan}
      {stream : List Chunk} {o : StoredObject} : a = .advance path now uid →
      s.inflight path = some (.write plan stream) →
      StepsTo address s a ⟨s.store.insert address path o, Function.update s.inflight path none⟩
  | delete {path : JsString} {now : Nat} {uid : JsString} {st : Store} :
      a = .advance path now uid → s.inflight path = some .delete →
      StepsTo address s a ⟨st, Function.update s.inflight path none⟩

/-! ## The invariant of archival runs -/

variable {s s' : ArchivalState} {address : JsString} {a : ArchivalAction}

theorem minted_eq {path : JsString} {now : Nat} {uid h : JsString}
    (hm : s.minted path now uid = some h) : h = getHistoricalFileName path now uid := by
  unfold minted at hm
  split at hm <;> cases hm <;> rfl

theorem Touches.mayTouch {k : JsString} (h : s.Touches k a) : a.mayTouch k := by
  cases a with
  | advance path now uid => exact h.imp id minted_eq
  | _ => exact h.elim

theorem admissible_of_freshlyAdmissible (ha : s.freshlyAdmissible address a = true) :
    s.admissible address a = true := by
  simp only [freshlyAdmissible, Bool.and_eq_true] at ha
  exact ha.1

theorem admissible_minted {path : JsString} {now : Nat} {uid h : JsString}
    (ha : s.admissible address (.advance path now uid) = true)
    (hm : s.minted path now uid = some h) : s.store address h = none := by
  simpa [admissible, hm] using ha

theorem freshlyAdmissible_minted {path : JsString} {now : Nat} {uid h : JsString}
    (ha : s.freshlyAdmissible address (.advance path now uid) = true)
    (hm : s.minted path now uid = some h) : s.inflight h = none := by
  simp only [freshlyAdmissible, Bool.and_eq_true, hm] at ha
  simpa using ha.2

theorem update_eq_some {f : JsString → Option InFlight} {path p : JsString}
    {v : Option InFlight} {x : InFlight} (h : Function.update f path v p = some x) :
    (p = path ∧ v = some x) ∨ (p ≠ path ∧ f p = some x) := by
  by_cases hp : p = path
  · subst hp
    exact .inl ⟨rfl, by simpa using h⟩
  · exact .inr ⟨hp, by simpa [Function.update_noteq hp] using h⟩

def NoDelete (s : ArchivalState) : Prop := ∀ path, s.inflight path ≠ some .delete

/-- A request about to write has a vacant path. -/
def WriteVacant (s : ArchivalState) (address : JsString) : Prop :=
  ∀ path plan stream, s.inflight path = some (.write plan stream) → s.store address path = none

/-- The invariant of archival runs. -/
structure Inv (s : ArchivalState) (address : JsString) : Prop where
  write_vacant : s.WriteVacant address
  no_delete : s.NoDelete

theorem Inv.init (st : Store) (address : JsString) : Inv ⟨st, fun _ => none⟩ address :=
  ⟨fun _ _ _ h => (nomatch h), fun _ h => (nomatch h)⟩

theorem NoDelete.update (hnd : s.NoDelete) {st : Store} {path : JsString} {v : Option InFlight}
    (hv : v ≠ some .delete) : NoDelete ⟨st, Function.update s.inflight path v⟩ := by
  intro p hp
  rcases update_eq_some hp with ⟨-, h⟩ | ⟨-, hp⟩
  · exact hv h
  · exact hnd p hp

theorem WriteVacant.update (hw : s.WriteVacant address) {st : Store} {path : JsString}
    {v : Option InFlight}
    (hv : ∀ plan stream, v = some (.write plan stream) → st address path = none)
    (hst : ∀ p plan stream, p ≠ path → s.inflight p = some (.write plan stream) →
      st address p = s.store address p) :
    WriteVacant ⟨st, Function.update s.inflight path v⟩ address := by
  intro p plan stream hp
  rcases update_eq_some hp with ⟨rfl, h⟩ | ⟨hne, hp⟩
  · exact hv plan stream h
  · exact (hst p plan stream hne hp).trans (hw p plan stream hp)

theorem StepsTo.noDelete (hnd : s.NoDelete) (ha : s.admissible address a = true)
    (h : s.StepsTo address a s') : s'.NoDelete := by
  cases h with
  | stay => exact hnd
  | start _ hx => exact hnd.update fun h => by cases h; cases hx ha
  | move _ _ _ hnext => exact hnd.update (by rcases hnext with rfl | ⟨_, _, rfl⟩ <;> simp)
  | delete _ hx => exact absurd hx (hnd _)
  | _ => exact hnd.update (by simp)

/-- Every step of a freshly admissible action keeps the invariant. -/
theorem StepsTo.inv (hi : s.Inv address) (ha : s.freshlyAdmissible address a = true)
    (h : s.StepsTo address a s') : s'.Inv address := by
  have hadm := admissible_of_freshlyAdmissible ha
  refine ⟨?_, h.noDelete hi.no_delete hadm⟩
  cases h with
  | stay => exact hi.write_vacant
  | start _ hx =>
      exact hi.write_vacant.update (fun _ _ h => by cases h; cases hx hadm) fun _ _ _ _ _ => rfl
  | stop => exact hi.write_vacant.update (fun _ _ h => nomatch h) fun _ _ _ _ _ => rfl
  | findNothing _ _ hvac => exact hi.write_vacant.update (fun _ _ _ => hvac) fun _ _ _ _ _ => rfl
  | @move path now uid h o next hadv hm ho hnext =>
      subst hadv
      have hne : path ≠ h := by
        rw [minted_eq hm]
        exact (getHistoricalFileName_ne_self path now uid).symm
      refine hi.write_vacant.update (fun _ _ _ => by simp [hne]) fun p plan stream hp hw => ?_
      have hph : p ≠ h := fun hph => by
        rw [hph, freshlyAdmissible_minted ha hm] at hw
        cases hw
      simp [hp, hph]
  | write _ _ =>
      exact hi.write_vacant.update (fun _ _ h => nomatch h) fun p _ _ hp _ => by simp [hp]
  | delete _ hx => exact absurd hx (hi.no_delete _)

theorem StepsTo.frame (hnd : s.NoDelete) (h : s.StepsTo address a s') (a' k : JsString)
    (hk : s'.store a' k ≠ s.store a' k) : a' = address ∧ s.Touches k a := by
  cases h with
  | move hadv hm =>
      subst hadv
      simp only [Store.move_apply] at hk
      split_ifs at hk with h1 h2
      · exact ⟨h1.1, .inr (h1.2 ▸ hm)⟩
      · exact ⟨h2.1, .inl h2.2⟩
      · exact absurd rfl hk
  | write hadv =>
      subst hadv
      simp only [Store.insert_apply] at hk
      split_ifs at hk with h1
      · exact ⟨h1.1, .inl h1.2⟩
      · exact absurd rfl hk
  | delete _ hx => exact absurd hx (hnd _)
  | _ => exact absurd rfl hk

/-- A step keeps every object stored under `address` when the invariant holds and a name it
mints is absent from the store: at its key, or at the history name the step minted. -/
theorem StepsTo.keeps_objects (hi : s.Inv address) (ha : s.admissible address a = true)
    (h : s.StepsTo address a s') {k : JsString} {o : StoredObject}
    (hk : s.store address k = some o) :
    ∃ k', s'.store address k' = some o ∧
      (k' = k ∨ ∃ path now uid, k' = getHistoricalFileName path now uid) := by
  cases h with
  | @move path now uid h o' next hadv hm hpath =>
      subst hadv
      have hfresh := admissible_minted ha hm
      by_cases hkp : k = path
      · subst hkp
        rw [hpath] at hk
        cases hk
        exact ⟨h, by simp, .inr ⟨k, now, uid, minted_eq hm⟩⟩
      · have hkh : k ≠ h := fun hkh => by rw [hkh, hfresh] at hk; cases hk
        exact ⟨k, by simp [hkh, hkp, hk], .inl rfl⟩
  | @write path now uid plan stream o' _ hw =>
      have hkp : k ≠ path := fun hkp => by rw [hkp, hi.write_vacant _ _ _ hw] at hk; cases hk
      exact ⟨k, by simp [hkp, hk], .inl rfl⟩
  | delete _ hx => exact absurd hx (hi.no_delete _)
  | _ => exact ⟨k, hk, .inl rfl⟩

end ArchivalState

namespace HubServer

variable (srv : HubServer) (cache : AuthTimestampCache) (address : JsString)

/-- One step of an interleaved run of requests for `address`; `none` when a request would start
on a path that a request in flight targets. -/
def archivalStep (s : ArchivalState) : ArchivalAction → Option ArchivalState
  | .request path headers stream =>
    if (s.inflight path).isSome then none
    else some <| match srv.requestPrelude cache s.store address path headers with
      | .error _ => s
      | .ok plan => ⟨s.store, Function.update s.inflight path
          (some (if plan.isArchivalRestricted then .rename plan stream else .write plan stream))⟩
  | .delete path authorization =>
    if (s.inflight path).isSome then none
    else some <| match srv.deletePrelude cache s.store address path authorization with
      | .error _ => s
      | .ok isArchivalRestricted => ⟨s.store, Function.update s.inflight path
          (some (if isArchivalRestricted then .renameForDelete else .delete))⟩
  | .advance path now uid => some <| match s.inflight path with
    | none => s
    | some (.rename plan stream) =>
      let renamed := srv.archivalRename s.store address path now uid
      ⟨renamed.1, Function.update s.inflight path
        (match renamed.2 with
          | .ok () => some (.write plan stream)
          | .error _ => none)⟩
    | some (.write plan stream) =>
      ⟨(srv.uploadStream s.store address path plan stream).1,
        Function.update s.inflight path none⟩
    | some .renameForDelete =>
      ⟨(srv.driver.performRename s.store
          ⟨path, address, getHistoricalFileName path now uid⟩).1,
        Function.update s.inflight path none⟩
    | some .delete =>
      ⟨(srv.driver.performDelete s.store ⟨address, path⟩).1,
        Function.update s.inflight path none⟩

def archivalRun : ArchivalState → List ArchivalAction → Option ArchivalState
  | s, [] => some s
  | s, a :: acts => (srv.archivalStep cache address s a).bind fun s' => archivalRun s' acts

@[simp] theorem archivalRun_nil (s : ArchivalState) : srv.archivalRun cache address s [] = some s :=
  rfl

@[simp] theorem archivalRun_cons (s : ArchivalState) (a : ArchivalAction)
    (acts : List ArchivalAction) :
    srv.archivalRun cache address s (a :: acts) =
      (srv.archivalStep cache address s a).bind fun s' => srv.archivalRun cache address s' acts :=
  rfl

theorem archivalRun_append (s : ArchivalState) (acts acts' : List ArchivalAction) :
    srv.archivalRun cache address s (acts ++ acts') =
      (srv.archivalRun cache address s acts).bind fun s' =>
        srv.archivalRun cache address s' acts' := by
  induction acts generalizing s with
  | nil => rfl
  | cons a acts ih => simp [ih, Option.bind_assoc]

/-- The states of interleaved runs for `address` from a store with no request in flight, every
action meeting `adm` in the state it is taken in. -/
inductive ArchivalReachable (adm : ArchivalState → ArchivalAction → Bool) :
    ArchivalState → Prop
  | init (st : Store) : ArchivalReachable adm ⟨st, fun _ => none⟩
  | step {s s' : ArchivalState} {a : ArchivalAction} : ArchivalReachable adm s →
      adm s a = true →
      srv.archivalStep cache address s a = some s' → ArchivalReachable adm s'

/-- Whether every action of `acts`, run from `s`, is taken and meets `adm` in the state it is
taken in. -/
def admissibleRun (adm : ArchivalState → ArchivalAction → Bool) :
    ArchivalState → List ArchivalAction → Bool
  | _, [] => true
  | s, a :: acts =>
    adm s a &&
      match srv.archivalStep cache address s a with
      | some s' => admissibleRun adm s' acts
      | none => false

variable {srv cache address} {st : Store} {path : JsString}

theorem archivalRun_request (s : ArchivalState) (hfree : s.inflight path = none)
    (headers : RequestHeaders) (stream : List Chunk) (now : Nat) (uid : JsString) :
    srv.archivalRun cache address s
        [.request path headers stream, .advance path now uid, .advance path now uid] =
      some ⟨(srv.handleRequest cache s.store address path headers stream now uid).1,
        s.inflight⟩ := by
  cases hp : srv.requestPrelude cache s.store address path headers with
  | error e => simp [archivalStep, hfree, hp, handleRequest]
  | ok plan =>
      cases harch : plan.isArchivalRestricted
      · simp [archivalStep, hfree, hp, harch, handleRequest, renameThenUpload]
      · cases hr : (srv.archivalRename s.store address path now uid).2 with
        | error e => simp [archivalStep, hfree, hp, harch, hr, handleRequest, renameThenUpload]
        | ok u => simp [archivalStep, hfree, hp, harch, hr, handleRequest, renameThenUpload]

theorem archivalRun_delete (s : ArchivalState) (hfree : s.inflight path = none)
    (authorization : Option Token) (now : Nat) (uid : JsString) :
    srv.archivalRun cache address s [.delete path authorization, .advance path now uid] =
      some ⟨(srv.handleDelete cache s.store address path authorization now uid).1,
        s.inflight⟩ := by
  cases hp : srv.deletePrelude cache s.store address path authorization with
  | error e => simp [archivalStep, hfree, hp, handleDelete]
  | ok b => cases b <;> simp [archivalStep, hfree, hp, handleDelete]

/-! ## The steps refine `StepsTo` -/

theorem carriesArchival_of_getAuthenticationScopes {authorization : Option Token}
    {scopes : AuthScopeValues} (h : getAuthenticationScopes authorization = .ok scopes) :
    carriesArchival authorization = isArchivalRestricted scopes := by
  cases authorization with
  | none => cases h
  | some token => cases h; rfl

theorem requestPrelude_isArchivalRestricted {headers : RequestHeaders} {plan : UploadPlan}
    (h : srv.requestPrelude cache st address path headers = .ok plan) :
    plan.isArchivalRestricted = carriesArchival headers.authorization := by
  obtain ⟨-, ⟨scopes, hs, ha, -⟩, -⟩ := srv.requestPrelude_eq_ok h
  rw [checkArchivalRestrictions_ok ha, carriesArchival_of_getAuthenticationScopes hs]

theorem deletePrelude_isArchivalRestricted {authorization : Option Token} {b : Bool}
    (h : srv.deletePrelude cache st address path authorization = .ok b) :
    b = carriesArchival authorization := by
  simp only [deletePrelude, except_bind_eq_ok] at h
  obtain ⟨-, -, -, -, scopes, hs, b', ha, -, -, -, -, ⟨⟩⟩ := h
  rw [checkArchivalRestrictions_ok ha, carriesArchival_of_getAuthenticationScopes hs]

/-- Every step of an archival run is one of the steps of `StepsTo`. -/
theorem archivalStep_stepsTo (hd : srv.driver.MovesObjects) {s s' : ArchivalState}
    {a : ArchivalAction} (h : srv.archivalStep cache address s a = some s') :
    s.StepsTo address a s' := by
  cases a with
  | request path headers stream =>
      simp only [archivalStep] at h
      split_ifs at h with hin
      obtain rfl := Option.some.inj h
      cases hp : srv.requestPrelude cache s.store address path headers with
      | error e => exact .stay
      | ok plan =>
          refine .start (by simpa using hin) fun ha => ?_
          rw [ArchivalState.admissible, ← srv.requestPrelude_isArchivalRestricted hp] at ha
          simp [ha, InFlight.renames]
  | delete path authorization =>
      simp only [archivalStep] at h
      split_ifs at h with hin
      obtain rfl := Option.some.inj h
      cases hp : srv.deletePrelude cache s.store address path authorization with
      | error e => exact .stay
      | ok b =>
          refine .start (by simpa using hin) fun ha => ?_
          rw [ArchivalState.admissible, ← srv.deletePrelude_isArchivalRestricted hp] at ha
          simp [ha, InFlight.renames]
  | advance path now uid =>
      obtain rfl := Option.some.inj h
      cases hx : s.inflight path with
      | none => exact .stay
      | some x =>
        cases x with
        | rename plan stream =>
            rcases srv.archivalRename_cases hd s.store address path now uid with
              ⟨o, ho, hr⟩ | ⟨hst, hvac⟩
            · simp only [hr]
              exact .move rfl (by simp [ArchivalState.minted, hx]) ho (.inr ⟨plan, stream, rfl⟩)
            · cases hr : (srv.archivalRename s.store address path now uid).2 with
              | error e => simp only [hr, hst]; exact .stop rfl hx
              | ok u => simp only [hr, hst]; exact .findNothing rfl hx (hvac hr)
        | write plan stream =>
            rcases srv.uploadStream_store_cases hd s.store address path plan stream with
              hst | ⟨o, hst⟩
            · simp only [hst]; exact .stop rfl hx
            · simp only [hst]; exact .write rfl hx
        | renameForDelete =>
            rcases hd.rename s.store ⟨path, address, getHistoricalFileName path now uid⟩ with
              ⟨o, ho, he⟩ | ⟨e, he, -⟩
            · simp only [he]
              exact .move rfl (by simp [ArchivalState.minted, hx]) ho (.inl rfl)
            · simp only [he]; exact .stop rfl hx
        | delete => exact .delete rfl hx

variable {s s' : ArchivalState} {a : ArchivalAction}

theorem ArchivalReachable.inv (hd : srv.driver.MovesObjects)
    (hs : srv.ArchivalReachable cache address (fun s => s.freshlyAdmissible address) s) :
    s.Inv address := by
  induction hs with
  | init st => exact .init st address
  | step _ ha h ih => exact (srv.archivalStep_stepsTo hd h).inv ih ha

theorem ArchivalReachable.of_admissibleRun {adm : ArchivalState → ArchivalAction → Bool}
    (hs : srv.ArchivalReachable cache address adm s) {acts : List ArchivalAction}
    (hadm : srv.admissibleRun cache address adm s acts = true)
    (h : srv.archivalRun cache address s acts = some s') :
    srv.ArchivalReachable cache address adm s' := by
  induction acts generalizing s with
  | nil => cases h; exact hs
  | cons a acts ih =>
      simp only [admissibleRun, Bool.and_eq_true] at hadm
      simp only [archivalRun_cons, Option.bind_eq_some] at h
      obtain ⟨s₁, h₁, h⟩ := h
      rw [h₁] at hadm
      exact ih (hs.step hadm.1 h₁) hadm.2 h

theorem admissibleRun_snoc {adm : ArchivalState → ArchivalAction → Bool}
    {acts : List ArchivalAction} (h : srv.admissibleRun cache address adm s (acts ++ [a]) = true) :
    ∃ s₁ s₂, srv.archivalRun cache address s acts = some s₁ ∧
      srv.admissibleRun cache address adm s acts = true ∧ adm s₁ a = true ∧
      srv.archivalStep cache address s₁ a = some s₂ := by
  induction acts generalizing s with
  | nil =>
      simp only [List.nil_append, admissibleRun, Bool.and_eq_true] at h
      obtain ⟨ha, h⟩ := h
      cases hs : srv.archivalStep cache address s a with
      | none => simp [hs] at h
      | some s₂ => exact ⟨s, s₂, rfl, rfl, ha, hs⟩
  | cons b acts ih =>
      simp only [List.cons_append, admissibleRun, Bool.and_eq_true] at h
      obtain ⟨hb, h⟩ := h
      cases hs : srv.archivalStep cache address s b with
      | none => simp [hs] at h
      | some s₁ =>
          rw [hs] at h
          obtain ⟨s₃, s₂, hr, hadm, ha, hst⟩ := ih h
          exact ⟨s₃, s₂, by simp [hs, hr], by simp [admissibleRun, hb, hs, hadm], ha, hst⟩

theorem archivalRun_frame (hd : srv.driver.MovesObjects) {acts : List ArchivalAction}
    (hnd : s.NoDelete)
    (hadm : srv.admissibleRun cache address (fun s => s.admissible address) s acts = true)
    (h : srv.archivalRun cache address s acts = some s') (k : JsString)
    (hk : ∀ act ∈ acts, ¬ act.mayTouch k) : s'.store address k = s.store address k := by
  induction acts generalizing s with
  | nil => cases h; rfl
  | cons a acts ih =>
      simp only [archivalRun_cons, Option.bind_eq_some] at h
      obtain ⟨s₁, h₁, h⟩ := h
      simp only [admissibleRun, Bool.and_eq_true, h₁] at hadm
      have hst := srv.archivalStep_stepsTo hd h₁
      rw [ih (hst.noDelete hnd hadm.1) hadm.2 h fun act hact => hk act (.tail _ hact)]
      by_contra hne
      exact hk a (.head _) (hst.frame hnd address k hne).2.mayTouch

/-- In every interleaved run of requests for `address` whose tokens carry archival scopes, in
which a request starts only on a path no request in flight targets and every name a rename mints
is absent from the store and is not the path of a request in flight, a step keeps every object
stored under `address`, and changes no key but the path of the request that makes a driver call
and the history name it mints. -/
theorem archivalStep_keeps_objects (hd : srv.driver.MovesObjects)
    (hs : srv.ArchivalReachable cache address (fun s => s.freshlyAdmissible address) s)
    (ha : s.freshlyAdmissible address a = true)
    (h : srv.archivalStep cache address s a = some s') :
    (∀ o, (∃ k, s.store address k = some o) → ∃ k, s'.store address k = some o) ∧
      ∀ a' k, s'.store a' k ≠ s.store a' k → a' = address ∧ s.Touches k a :=
  have hst := srv.archivalStep_stepsTo hd h
  have hi := hs.inv hd
  ⟨fun _ ⟨_, hk⟩ => (hst.keeps_objects hi (ArchivalState.admissible_of_freshlyAdmissible ha)
    hk).imp fun _ h => h.1, hst.frame hi.no_delete⟩

end HubServer

def demoHistoryPath : JsString :=
  getHistoricalFileName "foo/bar".toList 1700000000000 "mAB6Yps3V3".toList

def demoRenaming : ArchivalState :=
  ⟨demoStore, Function.update (fun _ => none) "foo/bar".toList
    (some (.rename ⟨"application/octet-stream".toList, true, .nan⟩ [[1]]))⟩

def demoRenamed : ArchivalState :=
  ⟨demoStore.move demoAddress "foo/bar".toList demoHistoryPath ⟨[104, 105], "text/plain".toList⟩,
    Function.update demoRenaming.inflight "foo/bar".toList
      (some (.write ⟨"application/octet-stream".toList, true, .nan⟩ [[1]]))⟩

theorem archivalStep_keeps_objects_rename :
    (∀ o, (∃ k, demoRenaming.store demoAddress k = some o) →
      ∃ k, demoRenamed.store demoAddress k = some o) ∧
    ∀ a' k, demoRenamed.store a' k ≠ demoRenaming.store a' k →
      a' = demoAddress ∧ demoRenaming.Touches k
        (.advance "foo/bar".toList 1700000000000 "mAB6Yps3V3".toList) :=
  demoHub.archivalStep_keeps_objects (storeDriver_movesObjects _)
    (.step (.init demoStore) (a := .request "foo/bar".toList (demoArchivalHeaders .nan) [[1]])
      (by decide) rfl : demoHub.ArchivalReachable demoCache demoAddress
        (fun s => s.freshlyAdmissible demoAddress) demoRenaming) (by decide) rfl

/-- Two archival uploads in flight, on `demoHistoryPath` and on `foo/bar` of `demoStore`: the
first finds nothing to rename and is about to write; the second moves `hi` to the name it mints,
the first one's path. -/
def demoInterleaving : List ArchivalAction :=
  [.request demoHistoryPath (demoArchivalHeaders .nan) [[1]],
    .request "foo/bar".toList (demoArchivalHeaders .nan) [[2]],
    .advance demoHistoryPath 1700000000001 "AAAAAAAAAA".toList,
    .advance "foo/bar".toList 1700000000000 "mAB6Yps3V3".toList]

/-- Under `admissible` alone a minted name may be the path of a request in flight: after
`demoInterleaving` the write of the first upload replaces the object the rename moved to its
path, and `hi` is stored nowhere. -/
theorem archivalStep_loses_object :
    ¬ ∀ (s s' : ArchivalState) (a : ArchivalAction),
      demoHub.ArchivalReachable demoCache demoAddress (fun s => s.admissible demoAddress) s →
      s.admissible demoAddress a = true →
      demoHub.archivalStep demoCache demoAddress s a = some s' →
      ∀ o, (∃ k, s.store demoAddress k = some o) →
        ∃ k, s'.store demoAddress k = some o := by
  intro hkeeps
  have hrun : demoHub.admissibleRun demoCache demoAddress (fun s => s.admissible demoAddress)
      ⟨demoStore, fun _ => none⟩ (demoInterleaving ++ [.advance demoHistoryPath 0 []]) =
        true := by
    decide
  obtain ⟨s₄, s₅, hrun₄, hadm, ha, hstep⟩ := demoHub.admissibleRun_snoc hrun
  have hrun₅ : demoHub.archivalRun demoCache demoAddress ⟨demoStore, fun _ => none⟩
      (demoInterleaving ++ [.advance demoHistoryPath 0 []]) = some s₅ := by
    simp [HubServer.archivalRun_append, hrun₄, hstep]
  have hhi : (demoHub.archivalRun demoCache demoAddress ⟨demoStore, fun _ => none⟩
      demoInterleaving).map (fun s => s.store demoAddress demoHistoryPath) =
        some (some ⟨[104, 105], "text/plain".toList⟩) := by
    decide
  rw [hrun₄, Option.map_some', Option.some.injEq] at hhi
  obtain ⟨k, hk⟩ := hkeeps s₄ s₅ _
    ((HubServer.ArchivalReachable.init demoStore).of_admissibleRun hadm hrun₄) ha hstep _ ⟨_, hhi⟩
  have hgone : (demoHub.archivalRun demoCache demoAddress ⟨demoStore, fun _ => none⟩
      (demoInterleaving ++ [.advance demoHistoryPath 0 []])).map (fun s =>
        [demoHistoryPath, "foo/bar".toList,
          getHistoricalFileName demoHistoryPath 1700000000001 "AAAAAAAAAA".toList,
          getHistoricalFileName demoHistoryPath 0 []].all fun k =>
            s.store demoAddress k ≠ some ⟨[104, 105], "text/plain".toList⟩) = some true := by
    decide
  simp only [hrun₅, Option.map_some', Option.some.injEq, List.all_eq_true,
    decide_eq_true_eq] at hgone
  by_cases hmay : ∀ act ∈ demoInterleaving ++ [.advance demoHistoryPath 0 []], ¬ act.mayTouch k
  · rw [demoHub.archivalRun_frame (storeDriver_movesObjects _)
      (ArchivalState.Inv.init demoStore demoAddress).no_delete hrun hrun₅ k hmay] at hk
    have hk' : k = "foo/bar".toList := by
      dsimp only at hk
      simp only [demoStore, Store.insert_apply, Store.empty] at hk
      split_ifs at hk with hk'
      exact hk'.2
    exact hmay (.advance "foo/bar".toList 1700000000000 "mAB6Yps3V3".toList)
      (by simp [demoInterleaving]) (Or.inl hk')
  · push_neg at hmay
    obtain ⟨act, hact, hmt⟩ := hmay
    simp only [demoInterleaving, List.cons_append, List.nil_append, List.mem_cons,
      List.mem_singleton, List.not_mem_nil, or_false] at hact
    rcases hact with rfl | rfl | rfl | rfl | rfl <;> simp only [ArchivalAction.mayTouch] at hmt <;>
      rcases hmt with rfl | rfl <;> exact hgone _ (by simp [demoHistoryPath]) hk

end GaiaHub
