import GaiaHub.Isolation

/-!
# Retention under archival scopes

A write or a delete run alone is a run of the interleaved model from a store with nothing in
flight (`archivalRun_archivalActions`). When the request's token carries archival scopes and the
name it mints is absent from the store, each of its steps is freshly admissible
(`admissibleRun_archivalActions`), so the invariant of the interleaved runs applies: the request
keeps every object of its principal, at its name or at a history name (`handle_keeps_objects`).
A bump writes only the principal's clock, which no history name is, and requests of other
principals leave the principal's objects alone (`handle_store_change`).

Hence in every run in which the principal's writes and deletes carry archival scopes and mint
names absent from the store (`retainsRun`), every object the principal had at the start other
than its clock is still stored under the principal at the end (`run_keeps_objects`).
-/

namespace GaiaHub

namespace HubRequest

def minted (a : JsString) : HubRequest → Option JsString
  | .request address path _ _ now uid | .delete address path _ now uid =>
    if a = address then some (getHistoricalFileName path now uid) else none
  | .listFiles .. | .authBump .. => none

/-- The actions of the interleaved model a request is, run alone: a write is its checks and two
driver calls, a delete its checks and one driver call, and a listing changes nothing. -/
def archivalActions : HubRequest → List ArchivalAction
  | .request _ path headers stream now uid =>
    [.request path headers stream, .advance path now uid, .advance path now uid]
  | .delete _ path authorization now uid => [.delete path authorization, .advance path now uid]
  | .listFiles .. | .authBump .. => []

end HubRequest

namespace HubServer

variable (srv : HubServer)

/-- Whether each write and delete of `a` in the run carries archival scopes and mints a name
absent from the store in the state it is made in. -/
def retainsRun (a : JsString) : HubState → List HubRequest → Bool
  | _, [] => true
  | s, req :: reqs =>
    (req.minted a).all (fun h => carriesArchival req.authorization && (s.store a h).isNone) &&
      retainsRun a (srv.handle s req).1 reqs

variable {srv} {cache : AuthTimestampCache} {address : JsString}

theorem archivalRun_keeps_objects (hd : srv.driver.MovesObjects) {s s' : ArchivalState}
    {acts : List ArchivalAction} (hi : s.Inv address)
    (hadm : srv.admissibleRun cache address (fun s => s.freshlyAdmissible address) s acts = true)
    (h : srv.archivalRun cache address s acts = some s') {o : StoredObject}
    (ho : ∃ k, k ≠ authTimestampFileName ∧ s.store address k = some o) :
    ∃ k, k ≠ authTimestampFileName ∧ s'.store address k = some o := by
  induction acts generalizing s with
  | nil =>
      cases h
      exact ho
  | cons a acts ih =>
      simp only [archivalRun_cons, Option.bind_eq_some] at h
      obtain ⟨s₁, h₁, h⟩ := h
      simp only [admissibleRun, Bool.and_eq_true, h₁] at hadm
      have hst := srv.archivalStep_stepsTo hd h₁
      obtain ⟨k, hk, hko⟩ := ho
      obtain ⟨k', hk', hkk⟩ :=
        hst.keeps_objects hi (ArchivalState.admissible_of_freshlyAdmissible hadm.1) hko
      refine ih (hst.inv hi hadm.1) hadm.2 h ⟨k', ?_, hk'⟩
      rcases hkk with rfl | ⟨path, now, uid, rfl⟩
      · exact hk
      · exact getHistoricalFileName_ne_authTimestampFileName path now uid

/-- A request of `address` other than a bump is a run of the interleaved model from a store with
nothing in flight. -/
theorem archivalRun_archivalActions (s : HubState) {req : HubRequest}
    (hk : req.isAuthBump = false) (ha : req.address = address) :
    srv.archivalRun s.cache address ⟨s.store, fun _ => none⟩ req.archivalActions =
      some ⟨(srv.handle s req).1.store, fun _ => none⟩ := by
  cases req
  case request address path headers stream now uid =>
    subst ha
    exact archivalRun_request ⟨s.store, fun _ => none⟩ rfl headers stream now uid
  case delete address path authorization now uid =>
    subst ha
    exact archivalRun_delete ⟨s.store, fun _ => none⟩ rfl authorization now uid
  case listFiles => rfl
  case authBump => cases hk

theorem admissibleRun_request (st : Store) {path : JsString} {headers : RequestHeaders}
    (stream : List Chunk) {now : Nat} {uid : JsString}
    (harch : carriesArchival headers.authorization = true)
    (hfresh : st address (getHistoricalFileName path now uid) = none) :
    srv.admissibleRun cache address (fun s => s.freshlyAdmissible address) ⟨st, fun _ => none⟩
      [.request path headers stream, .advance path now uid, .advance path now uid] = true := by
  have hne := getHistoricalFileName_ne_self path now uid
  cases hp : srv.requestPrelude cache st address path headers with
  | error e =>
      simp [admissibleRun, archivalStep, hp, ArchivalState.freshlyAdmissible,
        ArchivalState.admissible, ArchivalState.minted, harch]
  | ok plan =>
      have harch' := (srv.requestPrelude_isArchivalRestricted hp).trans harch
      cases hr : (srv.archivalRename st address path now uid).2 <;>
        simp [admissibleRun, archivalStep, hp, harch', hr, ArchivalState.freshlyAdmissible,
          ArchivalState.admissible, ArchivalState.minted, harch, hfresh, hne]

theorem admissibleRun_delete (st : Store) {path : JsString} {authorization : Option Token}
    {now : Nat} {uid : JsString} (harch : carriesArchival authorization = true)
    (hfresh : st address (getHistoricalFileName path now uid) = none) :
    srv.admissibleRun cache address (fun s => s.freshlyAdmissible address) ⟨st, fun _ => none⟩
      [.delete path authorization, .advance path now uid] = true := by
  have hne := getHistoricalFileName_ne_self path now uid
  cases hp : srv.deletePrelude cache st address path authorization with
  | error e =>
      simp [admissibleRun, archivalStep, hp, ArchivalState.freshlyAdmissible,
        ArchivalState.admissible, ArchivalState.minted, harch]
  | ok b =>
      obtain rfl := (srv.deletePrelude_isArchivalRestricted hp).trans harch
      simp [admissibleRun, archivalStep, hp, ArchivalState.freshlyAdmissible,
        ArchivalState.admissible, ArchivalState.minted, harch, hfresh, hne]

/-- A write or a delete of `address` whose token carries archival scopes and whose minted name
is absent from the store is freshly admissible at each of its steps, run alone. -/
theorem admissibleRun_archivalActions (s : HubState) {req : HubRequest}
    (ha : req.address = address)
    (hret : (req.minted address).all
      (fun h => carriesArchival req.authorization && (s.store address h).isNone) = true) :
    srv.admissibleRun s.cache address (fun s => s.freshlyAdmissible address)
      ⟨s.store, fun _ => none⟩ req.archivalActions = true := by
  cases req
  case request a path headers stream now uid =>
    obtain rfl : a = address := ha
    simp only [HubRequest.minted, if_true, Option.all_some, HubRequest.authorization,
      Bool.and_eq_true, Option.isNone_iff_eq_none] at hret
    exact admissibleRun_request _ stream hret.1 hret.2
  case delete a path authorization now uid =>
    obtain rfl : a = address := ha
    simp only [HubRequest.minted, if_true, Option.all_some, HubRequest.authorization,
      Bool.and_eq_true, Option.isNone_iff_eq_none] at hret
    exact admissibleRun_delete _ hret.1 hret.2
  all_goals rfl

/-- Under the store contract, a request keeps every object of `a` stored under a name other than
the clock's when, if it is a write or a delete of `a`, its token carries archival scopes and the
name it mints is absent from the store: it is then a freshly admissible run of the interleaved
model, and a bump changes only the clock. -/
theorem handle_keeps_objects (hd : srv.driver.MovesObjects) (hdel : srv.driver.DeletesAtPath)
    (s : HubState) (req : HubRequest) {a : JsString}
    (hret : (req.minted a).all
      (fun h => carriesArchival req.authorization && (s.store a h).isNone) = true)
    {o : StoredObject} (ho : ∃ k, k ≠ authTimestampFileName ∧ s.store a k = some o) :
    ∃ k, k ≠ authTimestampFileName ∧ (srv.handle s req).1.store a k = some o := by
  obtain ⟨k, hk, hko⟩ := ho
  by_cases hc : (srv.handle s req).1.store a k = s.store a k
  · exact ⟨k, hk, hc.trans hko⟩
  obtain ⟨hm, -⟩ := handle_store_change hd hdel s req hc
  cases hb : req.isAuthBump
  · exact archivalRun_keeps_objects hd (.init _ _)
      (admissibleRun_archivalActions s hm.address hret)
      (archivalRun_archivalActions s hb hm.address) ⟨k, hk, hko⟩
  · cases req with
    | authBump => exact absurd hm.2 hk
    | _ => cases hb

/-- In every run in which each write and delete of principal `a` carries archival scopes and
mints a name absent from the store, every object stored under `a` at the start under a name other
than the clock's is stored under `a` at the end, under a name other than the clock's. -/
theorem run_keeps_objects (hd : srv.driver.MovesObjects) (hdel : srv.driver.DeletesAtPath)
    (s : HubState) (reqs : List HubRequest) {a : JsString}
    (hret : srv.retainsRun a s reqs = true) {o : StoredObject}
    (ho : ∃ k, k ≠ authTimestampFileName ∧ s.store a k = some o) :
    ∃ k, k ≠ authTimestampFileName ∧ (srv.run s reqs).store a k = some o := by
  induction reqs generalizing s with
  | nil => exact ho
  | cons req reqs ih =>
      simp only [retainsRun, Bool.and_eq_true] at hret
      exact ih _ hret.2 (handle_keeps_objects hd hdel s req hret.1 ho)

end HubServer

theorem run_keeps_objects_hi :
    ∃ k, k ≠ authTimestampFileName ∧ (demoHub.run ⟨demoCache, demoStore⟩
      [.request demoAddress "foo/bar".toList (demoArchivalHeaders (.int 1)) [[1]] 1700000000000
          "mAB6Yps3V3".toList,
        .request demoAddress "foo/bar".toList (demoArchivalHeaders (.int 1)) [[2]] 1700000000001
          "AAAAAAAAAA".toList,
        .authBump demoAddress 1000 (demoArchivalHeaders .nan).authorization,
        .delete demoAddress "foo/bar".toList (demoArchivalHeaders .nan).authorization
          1700000000002 "BBBBBBBBBB".toList]).store demoAddress k =
      some ⟨[104, 105], "text/plain".toList⟩ :=
  HubServer.run_keeps_objects (storeDriver_movesObjects _) (storeDriver_deletesAtPath _) _ _
    (by decide) ⟨"foo/bar".toList, by decide, rfl⟩

end GaiaHub
