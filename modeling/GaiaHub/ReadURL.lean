import GaiaHub.Upload

/-!
# Read URLs

`handleRequest` moves the URL the driver returns from under the driver's prefix `d` to under the
hub's read prefix `h` when the two differ (`rewriteReadURL`). For a URL under `d` both branches
give `h` followed by the rest of the URL (`rewriteReadURL_under`), so the hub's URL is the
rewrite of the URL of the write the request made and names the same key under `h`
(`handleRequest_readURL`).

Rewriting twice is not always rewriting once: when one prefix is a proper prefix of the other, a
rewritten URL can lie under `d` again. The rewrite is idempotent on every URL exactly when
neither prefix is a proper prefix of the other (`rewriteReadURL_idempotent_iff`).
-/

namespace GaiaHub

theorem rewriteReadURL_under {h d u : JsString} (hu : d <+: u) :
    rewriteReadURL h d u = h ++ u.drop d.length := by
  unfold rewriteReadURL
  split_ifs with hc
  · rfl
  · have hhd : h = d := by simpa [hu] using hc
    subst hhd
    exact (List.prefix_iff_eq_append.1 hu).symm

theorem rewriteReadURL_not_under {h d u : JsString} (hu : ¬ d <+: u) :
    rewriteReadURL h d u = u := by
  simp [rewriteReadURL, hu]

@[simp] theorem rewriteReadURL_self (h u : JsString) : rewriteReadURL h h u = u := by
  simp [rewriteReadURL]

namespace HubServer

variable (srv : HubServer) {cache : AuthTimestampCache} {st : Store}
  {address path : JsString} {headers : RequestHeaders} {stream : List Chunk} {now : Nat}
  {uid : JsString}

/-- A URL `handleRequest` returns is the rewrite of the URL of the driver write the request made,
on the store its archival rename left: when that URL lies under the driver's prefix, the hub's URL
is the read prefix followed by the same key. -/
theorem handleRequest_readURL {url : JsString}
    (h : (srv.handleRequest cache st address path headers stream now uid).2 = .ok url) :
    ∃ plan u, srv.requestPrelude cache st address path headers = .ok plan ∧
      (srv.driver.performWrite
        (if plan.isArchivalRestricted then (srv.archivalRename st address path now uid).1 else st)
        (srv.writeCommand address path plan stream)).2 = .ok u ∧
      url = rewriteReadURL srv.getReadURLPrefix srv.driver.getReadURLPrefix u ∧
      (srv.driver.getReadURLPrefix <+: u →
        url = srv.getReadURLPrefix ++ u.drop srv.driver.getReadURLPrefix.length ∧
        srv.getReadURLPrefix <+: url ∧
        url.drop srv.getReadURLPrefix.length = u.drop srv.driver.getReadURLPrefix.length) := by
  obtain ⟨plan, hp, -, he⟩ := srv.handleRequest_eq_ok h
  rw [he] at h
  obtain ⟨-, u, hw, rfl⟩ := srv.uploadStream_eq_ok h
  refine ⟨plan, u, hp, by rw [← hw, apply_ite Prod.fst], rfl, fun hu => ?_⟩
  rw [rewriteReadURL_under hu]
  exact ⟨rfl, List.prefix_append _ _, by simp⟩

end HubServer

def demoReadURLHub : HubServer := { demoHub with readURL := some "http://localhost:8009/".toList }

theorem handleRequest_readURL_rewritten :
    (demoReadURLHub.handleRequest demoCache demoStore demoAddress "foo/bar".toList
        ⟨none, .int 3, some (demoToken 0 [])⟩ [[1, 2, 3]] 1700000000000 "mAB6Yps3V3".toList).2 =
      .ok ("http://localhost:8009/".toList ++ demoAddress ++ "/foo/bar".toList) ∧
    ∃ plan u, demoReadURLHub.requestPrelude demoCache demoStore demoAddress "foo/bar".toList
        ⟨none, .int 3, some (demoToken 0 [])⟩ = .ok plan ∧
      (demoReadURLHub.driver.performWrite
        (if plan.isArchivalRestricted then (demoReadURLHub.archivalRename demoStore demoAddress
          "foo/bar".toList 1700000000000 "mAB6Yps3V3".toList).1 else demoStore)
        (demoReadURLHub.writeCommand demoAddress "foo/bar".toList plan [[1, 2, 3]])).2 = .ok u ∧
      "http://localhost:8009/".toList ++ demoAddress ++ "/foo/bar".toList =
        rewriteReadURL demoReadURLHub.getReadURLPrefix demoReadURLHub.driver.getReadURLPrefix u ∧
      (demoReadURLHub.driver.getReadURLPrefix <+: u →
        "http://localhost:8009/".toList ++ demoAddress ++ "/foo/bar".toList =
            demoReadURLHub.getReadURLPrefix ++
              u.drop demoReadURLHub.driver.getReadURLPrefix.length ∧
          demoReadURLHub.getReadURLPrefix <+:
            "http://localhost:8009/".toList ++ demoAddress ++ "/foo/bar".toList ∧
          ("http://localhost:8009/".toList ++ demoAddress ++ "/foo/bar".toList).drop
              demoReadURLHub.getReadURLPrefix.length =
            u.drop demoReadURLHub.driver.getReadURLPrefix.length) :=
  have h : (demoReadURLHub.handleRequest demoCache demoStore demoAddress "foo/bar".toList
      ⟨none, .int 3, some (demoToken 0 [])⟩ [[1, 2, 3]] 1700000000000 "mAB6Yps3V3".toList).2 =
      .ok ("http://localhost:8009/".toList ++ demoAddress ++ "/foo/bar".toList) := by decide
  ⟨h, demoReadURLHub.handleRequest_readURL h⟩

/-- Rewriting twice is rewriting once, on every URL, exactly when neither prefix is a proper
prefix of the other. -/
theorem rewriteReadURL_idempotent_iff (h d : JsString) :
    (∀ u, rewriteReadURL h d (rewriteReadURL h d u) = rewriteReadURL h d u) ↔
      (d <+: h ∨ h <+: d → h = d) := by
  constructor
  · intro hidem hpre
    by_contra hne
    rcases hpre with hdh | hhd
    · have := hidem d
      rw [rewriteReadURL_under (List.prefix_refl d), List.drop_length, List.append_nil,
        rewriteReadURL_under hdh, List.append_right_eq_self, List.drop_eq_nil_iff] at this
      exact hne (hdh.eq_of_length (le_antisymm hdh.length_le this)).symm
    · obtain ⟨s, rfl⟩ := hhd
      have hs : s ≠ [] := fun hs => hne (by simp [hs])
      have := hidem (h ++ s ++ s)
      rw [rewriteReadURL_under (List.prefix_append _ _), List.drop_left,
        rewriteReadURL_under (List.prefix_refl _), List.drop_length, List.append_nil] at this
      exact hs (by simpa using this.symm)
  · intro hc u
    by_cases hhd : h = d
    · subst hhd
      simp
    by_cases hu : d <+: u
    · rw [rewriteReadURL_under hu]
      refine rewriteReadURL_not_under fun hp => hhd (hc ?_)
      rcases le_total d.length h.length with hle | hle
      · exact .inl (List.prefix_of_prefix_length_le hp (List.prefix_append h _) hle)
      · exact .inr (List.prefix_of_prefix_length_le (List.prefix_append h _) hp hle)
    · rw [rewriteReadURL_not_under hu, rewriteReadURL_not_under hu]

/-- When the driver's prefix is a proper prefix of the hub's, a rewritten URL lies under the
driver's prefix again and a second rewrite inserts the difference once more. -/
theorem rewriteReadURL_twice_ne :
    rewriteReadURL "http://localhost:4001/hub/".toList "http://localhost:4001/".toList
        (rewriteReadURL "http://localhost:4001/hub/".toList "http://localhost:4001/".toList
          "http://localhost:4001/1Lbcfr7sAHTD9CgdQo3HTMTkV8LK4ZnX71/foo".toList) ≠
      rewriteReadURL "http://localhost:4001/hub/".toList "http://localhost:4001/".toList
        "http://localhost:4001/1Lbcfr7sAHTD9CgdQo3HTMTkV8LK4ZnX71/foo".toList := by
  decide

end GaiaHub
