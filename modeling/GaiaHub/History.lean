import GaiaHub.Archival

/-!
# Archival history

A request that returns a URL stored its whole body at its path, under the request's content type.
When archival scopes applied it first moved the object that was there, if any, to the history
name it minted (`handleRequest_ok_store`). Hence the archival round trip of §8, over every driver
that keeps the store contract: when a path is written twice and the second write carries archival
scopes, the path holds the second body, the history name the second write minted holds the
first, and no other key changed (`run_archival_round_trip`).
-/

namespace GaiaHub

namespace HubServer

variable (srv : HubServer) {cache : AuthTimestampCache} {st : Store} {address path : JsString}
  {headers : RequestHeaders} {plan : UploadPlan}

theorem requestPrelude_contentType
    (h : srv.requestPrelude cache st address path headers = .ok plan) :
    plan.contentType = headers.contentType.getD "application/octet-stream".toList := by
  simp only [requestPrelude, except_bind_eq_ok] at h
  obtain ⟨-, -, -, -, scopes, -, arch, -, -, -, r, -, h⟩ := h
  split_ifs at h
  · exact nomatch h
  · simp only [pure, except_ok_bind, Except.pure, Except.ok.injEq] at h
    rw [← h]

theorem handle_request_store (s : HubState) (headers : RequestHeaders) (stream : List Chunk)
    (now : Nat) (uid : JsString) :
    (srv.handle s (.request address path headers stream now uid)).1.store =
      (srv.handleRequest s.cache s.store address path headers stream now uid).1 :=
  rfl

theorem handle_request_ok {s : HubState} {stream : List Chunk} {now : Nat} {uid : JsString}
    {r : HubResponse}
    (h : (srv.handle s (.request address path headers stream now uid)).2 = .ok r) :
    ∃ url, (srv.handleRequest s.cache s.store address path headers stream now uid).2 = .ok url := by
  cases hr : (srv.handleRequest s.cache s.store address path headers stream now uid).2 with
  | error e => simp [handle, hr, Except.map] at h
  | ok url => exact ⟨url, rfl⟩

variable {srv}

theorem uploadStream_ok_store (hd : srv.driver.MovesObjects) {stream : List Chunk}
    {url : JsString} (h : (srv.uploadStream st address path plan stream).2 = .ok url) :
    (srv.uploadStream st address path plan stream).1 =
      st.insert address path ⟨stream.flatten, plan.contentType⟩ := by
  obtain ⟨hpipe, u, hw, -⟩ := srv.uploadStream_eq_ok h
  rcases hd.write st (srv.writeCommand address path plan stream) with ⟨_, he⟩ | ⟨e, he⟩
  · simp only [uploadStream]
    rw [he]
    simp only [writeCommand, PerformWriteArgs.object,
      (srv.monitorUpload_pipeline plan stream).2 hpipe]
  · rw [he] at hw
    cases hw

/-- Under the store contract, a request that returns a URL stored its body at its path; under
archival scopes it first moved the object at the path, if there was one, to the name it
minted. -/
theorem handleRequest_ok_store (hd : srv.driver.MovesObjects) {stream : List Chunk} {now : Nat}
    {uid url : JsString}
    (h : (srv.handleRequest cache st address path headers stream now uid).2 = .ok url) :
    ∃ plan, srv.requestPrelude cache st address path headers = .ok plan ∧
      ((plan.isArchivalRestricted = false ∨ st address path = none) ∧
          (srv.handleRequest cache st address path headers stream now uid).1 =
            st.insert address path ⟨stream.flatten, plan.contentType⟩ ∨
        ∃ o, plan.isArchivalRestricted = true ∧ st address path = some o ∧
          (srv.handleRequest cache st address path headers stream now uid).1 =
            (st.move address path (getHistoricalFileName path now uid) o).insert address path
              ⟨stream.flatten, plan.contentType⟩) := by
  obtain ⟨plan, hp, hr, he⟩ := srv.handleRequest_eq_ok h
  refine ⟨plan, hp, ?_⟩
  rw [he] at h ⊢
  rw [uploadStream_ok_store hd h]
  by_cases harch : plan.isArchivalRestricted = true
  · rw [if_pos harch] at hr ⊢
    rcases srv.archivalRename_cases hd st address path now uid with
      ⟨o, ho, hmove⟩ | ⟨hst, hvac⟩
    · exact .inr ⟨o, harch, ho, by rw [hmove]⟩
    · exact .inl ⟨.inr (hvac hr), by rw [hst]⟩
  · rw [if_neg harch]
    exact .inl ⟨.inl (Bool.eq_false_iff.2 harch), rfl⟩

/-- The archival round trip: in a run that writes a path with nothing at it twice, the second
time under archival scopes, both writes returning, the path ends with the second body and the
history name the second write minted with the first, and no other key changes. -/
theorem run_archival_round_trip (hd : srv.driver.MovesObjects) (s : HubState)
    {headers₁ headers₂ : RequestHeaders} {stream₁ stream₂ : List Chunk} {now₁ now₂ : Nat}
    {uid₁ uid₂ : JsString} {r₁ r₂ : HubResponse} (hvac : s.store address path = none)
    (h₁ : (srv.handle s (.request address path headers₁ stream₁ now₁ uid₁)).2 = .ok r₁)
    (harch : carriesArchival headers₂.authorization = true)
    (h₂ : (srv.handle (srv.handle s (.request address path headers₁ stream₁ now₁ uid₁)).1
      (.request address path headers₂ stream₂ now₂ uid₂)).2 = .ok r₂) :
    let st := (srv.run s [.request address path headers₁ stream₁ now₁ uid₁,
      .request address path headers₂ stream₂ now₂ uid₂]).store
    st address path =
        some ⟨stream₂.flatten, headers₂.contentType.getD "application/octet-stream".toList⟩ ∧
      st address (getHistoricalFileName path now₂ uid₂) =
        some ⟨stream₁.flatten, headers₁.contentType.getD "application/octet-stream".toList⟩ ∧
      ∀ a k, st a k ≠ s.store a k →
        a = address ∧ (k = path ∨ k = getHistoricalFileName path now₂ uid₂) := by
  dsimp only
  rw [run_cons, run_cons, run_nil, handle_request_store, handle_request_store]
  obtain ⟨url₁, hu₁⟩ := srv.handle_request_ok h₁
  obtain ⟨url₂, hu₂⟩ := srv.handle_request_ok h₂
  obtain ⟨plan₁, hp₁, hst₁⟩ := handleRequest_ok_store hd hu₁
  obtain ⟨plan₂, hp₂, hst₂⟩ := handleRequest_ok_store hd hu₂
  rw [handle_request_store] at hst₂
  have hfirst : (srv.handleRequest s.cache s.store address path headers₁ stream₁ now₁ uid₁).1 =
      s.store.insert address path ⟨stream₁.flatten, plan₁.contentType⟩ := by
    rcases hst₁ with ⟨-, h⟩ | ⟨o, -, ho, -⟩
    · exact h
    · rw [hvac] at ho
      cases ho
  rw [hfirst] at hst₂ ⊢
  have harch₂ : plan₂.isArchivalRestricted = true :=
    (srv.requestPrelude_isArchivalRestricted hp₂).trans harch
  rcases hst₂ with ⟨hno | hno, -⟩ | ⟨o, -, ho, hst₂⟩
  · rw [harch₂] at hno
    cases hno
  · simp at hno
  simp only [Store.insert_apply, and_self, if_true, Option.some.injEq] at ho
  subst ho
  rw [hst₂, ← srv.requestPrelude_contentType hp₁, ← srv.requestPrelude_contentType hp₂]
  have hne : getHistoricalFileName path now₂ uid₂ ≠ path := getHistoricalFileName_ne_self _ _ _
  refine ⟨by simp, by simp [hne], fun a k hk => ?_⟩
  by_cases ha : a = address
  · subst ha
    refine ⟨rfl, ?_⟩
    by_contra hc
    push_neg at hc
    exact hk (by simp [hc.1, hc.2])
  · exact absurd (by simp [ha]) hk

end HubServer

theorem run_archival_round_trip_foo_bar :
    let st := (demoHub.run ⟨demoCache, Store.empty⟩
      [.request demoAddress "foo/bar".toList (demoArchivalHeaders (.int 1)) [[1]] 1700000000000
          "mAB6Yps3V3".toList,
        .request demoAddress "foo/bar".toList (demoArchivalHeaders (.int 1)) [[2]] 1700000000001
          "AAAAAAAAAA".toList]).store
    st demoAddress "foo/bar".toList =
        some ⟨[[2]].flatten, (demoArchivalHeaders (.int 1)).contentType.getD
          "application/octet-stream".toList⟩ ∧
      st demoAddress
          (getHistoricalFileName "foo/bar".toList 1700000000001 "AAAAAAAAAA".toList) =
        some ⟨[[1]].flatten, (demoArchivalHeaders (.int 1)).contentType.getD
          "application/octet-stream".toList⟩ ∧
      ∀ a k, st a k ≠ Store.empty a k → a = demoAddress ∧ (k = "foo/bar".toList ∨
        k = getHistoricalFileName "foo/bar".toList 1700000000001 "AAAAAAAAAA".toList) :=
  have h₁ : (demoHub.handle ⟨demoCache, Store.empty⟩ (.request demoAddress "foo/bar".toList
      (demoArchivalHeaders (.int 1)) [[1]] 1700000000000 "mAB6Yps3V3".toList)).2 =
      .ok (.publicURL ("http://localhost:4001/".toList ++ demoAddress ++ "/foo/bar".toList)) := by
    decide
  have h₂ : (demoHub.handle (demoHub.handle ⟨demoCache, Store.empty⟩
      (.request demoAddress "foo/bar".toList (demoArchivalHeaders (.int 1)) [[1]] 1700000000000
        "mAB6Yps3V3".toList)).1
      (.request demoAddress "foo/bar".toList (demoArchivalHeaders (.int 1)) [[2]] 1700000000001
        "AAAAAAAAAA".toList)).2 =
      .ok (.publicURL ("http://localhost:4001/".toList ++ demoAddress ++ "/foo/bar".toList)) := by
    decide
  HubServer.run_archival_round_trip (storeDriver_movesObjects _) _ rfl h₁ rfl h₂

end GaiaHub
