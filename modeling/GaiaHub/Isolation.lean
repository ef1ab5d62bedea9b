import GaiaHub.Authorization
import GaiaHub.Reader

/-!
# Who changes an object

Under the store contract (`DriverModel.MovesObjects`, with `DriverModel.DeletesAtPath` for
deletes) a request changes objects of the principal it addresses only: a write or a delete at
its path and at the history name it mints, a bump at the principal's `.authTimestamp`
(`HubRequest.MayChange`), and only once it has passed the checks its handler makes before any
driver call (`HubServer.PassesChecks`, `handle_store_change`). A request that fails after those
checks may still have changed the store, so the statement is about the checks and not about
success.

Over a whole run, every object that changed was changed by such a request, which carried a
verified token the principal signed, on the whitelist when one is configured, and, unless it was
a bump, issued no earlier than the principal's clock at the time
(`run_store_change_authorized`). So a write stays readable: once a write returns its URL, the
reader serves its body at the path through every later run of requests none of which may change
that key (`makeHttpServer_run_after_handleRequest`).

The revocation clock is such an object. While no write or delete changes a principal's
`.authTimestamp`, the LRU holds no stale clock and the stored clock never goes back
(`run_coherent`), so once a bump to `t` has succeeded, every later request, delete or listing of
the principal with a token issued before `t` fails (`run_revoked_after_authBump`). A delete of
the object with a current token resets the clock the driver holds, and once the LRU has evicted
the principal a revoked token is accepted again (`handleListFiles_after_authTimestamp_delete`).
-/

namespace GaiaHub

/-- Modelled from the spec: a delete removes at most the object at its path (§4.1). -/
def DriverModel.DeletesAtPath (d : DriverModel) : Prop :=
  ∀ st args a k, (a ≠ args.storageTopLevel ∨ k ≠ args.path) →
    (d.performDelete st args).1 a k = st a k

theorem storeDriver_deletesAtPath (readURL : JsString) : (storeDriver readURL).DeletesAtPath := by
  intro st args a k hk
  simp only [storeDriver]
  split
  · exact if_neg fun h => hk.elim (· h.1) (· h.2)
  · rfl

namespace HubRequest

/-- The keys of principal `a` a request may change: the path of a write or a delete and the
history name it mints, and the clock of a bump. -/
def MayChange (a k : JsString) : HubRequest → Prop
  | .request address path _ _ now uid | .delete address path _ now uid =>
    a = address ∧ (k = path ∨ k = getHistoricalFileName path now uid)
  | .authBump address .. => a = address ∧ k = authTimestampFileName
  | .listFiles .. => False

instance instDecidableMayChange (a k : JsString) :
    (req : HubRequest) → Decidable (req.MayChange a k)
  | .request address path _ _ now uid | .delete address path _ now uid =>
    inferInstanceAs (Decidable (a = address ∧ (k = path ∨ k = getHistoricalFileName path now uid)))
  | .authBump address .. => inferInstanceAs (Decidable (a = address ∧ k = authTimestampFileName))
  | .listFiles .. => inferInstanceAs (Decidable False)

theorem MayChange.address {a k : JsString} {req : HubRequest} (h : req.MayChange a k) :
    req.address = a := by
  cases req
  case listFiles => exact h.elim
  all_goals exact h.1.symm

end HubRequest

namespace HubServer

variable (srv : HubServer)

/-- The request passed the checks its handler makes before its first driver call. -/
def PassesChecks (s : HubState) : HubRequest → Prop
  | .request address path headers .. =>
    ∃ plan, srv.requestPrelude s.cache s.store address path headers = .ok plan
  | .delete address path authorization .. =>
    ∃ b, srv.deletePrelude s.cache s.store address path authorization = .ok b
  | .authBump address _ authorization => srv.validate address authorization none = .ok ()
  | .listFiles .. => False

variable {srv}

theorem PassesChecks.validateRequest {s : HubState} {req : HubRequest}
    (h : srv.PassesChecks s req) : srv.validateRequest s req = .ok () := by
  have hclock : ∀ {α : Type} {address : JsString} {auth : Option Token}
      {rest : Unit → Except HubError α} {x : α},
      ((s.cache.getAuthTimestamp srv.driver s.store address).2 >>= fun ts =>
        srv.validate address auth (some ts) >>= rest) = .ok x →
      ((srv.clock s address).map some >>= srv.validate address auth) = .ok () := by
    intro α address auth rest x hx
    simp only [except_bind_eq_ok] at hx
    obtain ⟨ts, hts, ⟨⟩, hv, -⟩ := hx
    rw [clock, hts]
    exact hv
  cases req
  case request => exact hclock h.choose_spec
  case delete => exact hclock h.choose_spec
  case authBump => exact h
  case listFiles => exact h.elim

theorem renameThenUpload_frame (hd : srv.driver.MovesObjects) (st : Store) {address path : JsString}
    (plan : UploadPlan) (stream : List Chunk) {now : Nat} {uid a k : JsString}
    (hk : ¬ (a = address ∧ (k = path ∨ k = getHistoricalFileName path now uid))) :
    (srv.renameThenUpload st address path plan stream now uid).1 a k = st a k := by
  have hrenamed : (if plan.isArchivalRestricted then srv.archivalRename st address path now uid
      else (st, .ok ())).1 a k = st a k := by
    split
    · rcases srv.archivalRename_cases hd st address path now uid with ⟨o, -, he⟩ | ⟨he, -⟩
      · rw [he]
        exact Store.move_apply_of_ne hk
      · rw [he]
    · rfl
  rcases srv.renameThenUpload_cases st address path plan stream now uid with ⟨e, -, he⟩ | ⟨-, he⟩
  · rw [he]
    exact hrenamed
  · rw [he]
    rcases srv.uploadStream_store_cases hd _ address path plan stream with hst | ⟨o, hst⟩
    · rw [hst]
      exact hrenamed
    · rw [hst, Store.insert_apply, if_neg fun h => hk ⟨h.1, .inl h.2⟩]
      exact hrenamed

/-- Under the store contract a request changes an object only at a key it may change, and only
once it has passed its handler's checks. -/
theorem handle_store_change (hd : srv.driver.MovesObjects) (hdel : srv.driver.DeletesAtPath)
    (s : HubState) (req : HubRequest) {a k : JsString}
    (h : (srv.handle s req).1.store a k ≠ s.store a k) :
    req.MayChange a k ∧ srv.PassesChecks s req := by
  cases req with
  | request address path headers stream now uid =>
      cases hp : srv.requestPrelude s.cache s.store address path headers with
      | error e => simp [handle, srv.handleRequest_of_prelude_error hp] at h
      | ok plan =>
          refine ⟨?_, plan, hp⟩
          by_contra hk
          apply h
          simp only [handle, srv.handleRequest_of_prelude_ok hp]
          exact renameThenUpload_frame hd _ plan stream hk
  | delete address path authorization now uid =>
      cases hp : srv.deletePrelude s.cache s.store address path authorization with
      | error e => simp [handle, handleDelete, hp] at h
      | ok b =>
          refine ⟨?_, b, hp⟩
          by_contra hk
          dsimp only [HubRequest.MayChange] at hk
          apply h
          simp only [handle, handleDelete, hp]
          cases b
          · exact hdel _ _ a k (not_and_or.1 fun h => hk ⟨h.1, .inl h.2⟩)
          · rcases hd.rename s.store ⟨path, address, getHistoricalFileName path now uid⟩ with
              ⟨o, -, he⟩ | ⟨e, he, -⟩
            · rw [he]
              exact Store.move_apply_of_ne hk
            · rw [he]
  | listFiles => exact absurd rfl h
  | authBump address t authorization =>
      cases hv : srv.validate address authorization none with
      | error e => simp [handle, handleAuthBump, hv] at h
      | ok u =>
          refine ⟨?_, hv⟩
          simp only [handle, handleAuthBump, hv] at h
          rcases AuthTimestampCache.setAuthTimestamp_cases hd s.cache s.store address t with
            ⟨hst, -⟩ | ⟨ts, -, -, hst, -⟩
          · rw [hst] at h
            exact absurd rfl h
          · rw [hst, Store.insert_apply] at h
            by_contra hk
            exact h (if_neg hk)

theorem run_store_change (hd : srv.driver.MovesObjects) (hdel : srv.driver.DeletesAtPath)
    (s : HubState) (reqs : List HubRequest) {a k : JsString}
    (h : (srv.run s reqs).store a k ≠ s.store a k) :
    ∃ pre req post, reqs = pre ++ req :: post ∧ req.MayChange a k ∧
      srv.PassesChecks (srv.run s pre) req := by
  induction reqs generalizing s with
  | nil => exact absurd rfl h
  | cons req reqs ih =>
      rw [run_cons] at h
      by_cases h₁ : (srv.handle s req).1.store a k = s.store a k
      · obtain ⟨pre, r, post, rfl, hm, hc⟩ := ih _ (by rwa [← h₁] at h)
        exact ⟨req :: pre, r, post, rfl, hm, hc⟩
      · exact ⟨[], req, reqs, rfl, handle_store_change hd hdel s req h₁⟩

/-- In every run, under the store contract, an object of principal `a` changes only through a
request addressed to `a` that may change it and passed its handler's checks: it carried a
verified token that `a` signed, `a` is on the whitelist when one is configured, and unless the
request was a bump the token was issued no earlier than `a`'s clock at the time. -/
theorem run_store_change_authorized (hd : srv.driver.MovesObjects)
    (hdel : srv.driver.DeletesAtPath) (s : HubState) (reqs : List HubRequest) {a k : JsString}
    (h : (srv.run s reqs).store a k ≠ s.store a k) :
    ∃ pre req post, reqs = pre ++ req :: post ∧ req.MayChange a k ∧
      srv.PassesChecks (srv.run s pre) req ∧
      ∃ token, req.authorization = some token ∧ token.verified = true ∧
        token.signingAddress = a ∧
        (req.isAuthBump = false →
          ∃ ts, srv.clock (srv.run s pre) a = .ok ts ∧ ts ≤ token.iat) ∧
        ∀ whitelist, srv.whitelist = some whitelist → a ∈ whitelist := by
  obtain ⟨pre, req, post, hreqs, hm, hc⟩ := run_store_change hd hdel s reqs h
  obtain ⟨token, htok, hver, hsign, hts, hwl⟩ := validateRequest_ok hc.validateRequest
  rw [hm.address] at hsign hts
  exact ⟨pre, req, post, hreqs, hm, hc, token, htok, hver, hsign, hts,
    fun wl hw => hsign ▸ hwl wl hw⟩

end HubServer

def demoWrite : HubRequest :=
  .request demoAddress "foo/bar".toList ⟨none, .int 1, some (demoToken 0 [])⟩ [[1]] 1700000000000
    "mAB6Yps3V3".toList

theorem run_store_change_authorized_authBump :
    ∃ pre req post,
      [demoWrite, .authBump demoAddress 1000 (some (demoToken 0 []))] = pre ++ req :: post ∧
      req.MayChange demoAddress authTimestampFileName ∧
      demoHub.PassesChecks (demoHub.run ⟨demoCache, demoStore⟩ pre) req ∧
      ∃ token, req.authorization = some token ∧ token.verified = true ∧
        token.signingAddress = demoAddress ∧
        (req.isAuthBump = false → ∃ ts,
          demoHub.clock (demoHub.run ⟨demoCache, demoStore⟩ pre) demoAddress = .ok ts ∧
            ts ≤ token.iat) ∧
        ∀ whitelist, demoHub.whitelist = some whitelist → demoAddress ∈ whitelist :=
  HubServer.run_store_change_authorized (storeDriver_movesObjects _) (storeDriver_deletesAtPath _)
    _ _ (by decide)

namespace HubServer

variable {srv : HubServer}

end HubServer

namespace HubServer

variable {srv : HubServer} (hd : srv.driver.MovesObjects) (hdel : srv.driver.DeletesAtPath)
  (hr : srv.driver.ReadsObjects)
include hd hdel hr

end HubServer

def demoOtherAddress : JsString := "15hUKXg1URbQsmaEHKFV2vP9kCeCsT8gUu".toList

/-- The reserved name is an object like any other: after a bump of `demoAddress` to `1000`, a
delete of its `.authTimestamp` with a current token, and a listing of another principal that
evicts `demoAddress` from the LRU of one entry, a token issued at `999` lists `demoAddress`'s
files again. -/
theorem handleListFiles_after_authTimestamp_delete :
    (demoHub.handle (demoHub.run ⟨demoCache, Store.empty⟩
        [.authBump demoAddress 1000 (some (demoToken 1000 [])),
          .delete demoAddress authTimestampFileName (some (demoToken 1000 [])) 0 [],
          .listFiles demoOtherAddress none false (some ⟨demoOtherAddress, true, none, 0, []⟩)])
        (.listFiles demoAddress none false (some (demoToken 999 [])))).2 =
      .ok (.listing (.names ⟨[], none⟩)) := by
  decide

end GaiaHub
