import GaiaHub.Server

/-!
# Uploads

The spec lemmas of `handleRequest`'s pieces, and what follows for the bytes that reach the
driver and for the store a failed upload leaves.

The body reaches the driver only through the monitored stream, and the monitor's limit is the
effective limit of §4.5: the declared length when it is finite and positive, else the
configured limit (`effectiveLimit`). So the driver receives a prefix of the body within the
effective limit, a request succeeds only when the whole body passed unchanged, and a body over
the limit is always rejected (`handleRequest_upload_bound`).

A failed upload leaves the store as it was, except after an archival rename has moved the
object to its history name: the rename is not undone when the streamed write fails
(`handleRequest_error_store`), and the path is left empty
(`handleRequest_oversize_archival_moves`).
-/

namespace GaiaHub

namespace HubServer

variable (srv : HubServer) {cache : AuthTimestampCache} {st : Store}
  {address path : JsString} {headers : RequestHeaders} {plan : UploadPlan}

theorem requestPrelude_eq_ok (h : srv.requestPrelude cache st address path headers = .ok plan) :
    (∃ ts, (cache.getAuthTimestamp srv.driver st address).2 = .ok ts ∧
        srv.validate address headers.authorization (some ts) = .ok ()) ∧
      (∃ scopes, getAuthenticationScopes headers.authorization = .ok scopes ∧
        checkArchivalRestrictions address path scopes = .ok plan.isArchivalRestricted ∧
        checkWriteScopes address path scopes = .ok ()) ∧
      srv.proofChecker.checkProofs address path srv.getReadURLPrefix = .ok true ∧
      (isLengthFinite headers.contentLength &&
        JsNumber.lt (.int srv.maxFileUploadSizeBytes) headers.contentLength) = false ∧
      plan.contentLengthBytes = headers.contentLength := by
  simp only [requestPrelude, except_bind_eq_ok] at h
  obtain ⟨ts, hts, ⟨⟩, hv, scopes, hs, arch, ha, ⟨⟩, hw, r, hp, h⟩ := h
  have hr : r = true := by
    rcases srv.proofChecker.checkProofs_ok_or address path srv.getReadURLPrefix with
      h' | ⟨_, h'⟩
    · rw [h'] at hp; cases hp; rfl
    · rw [h'] at hp; cases hp
  subst hr
  split_ifs at h with hlen
  · exact nomatch h
  · simp only [pure, except_ok_bind, Except.pure, Except.ok.injEq] at h
    subst h
    exact ⟨⟨ts, hts, hv⟩, ⟨scopes, hs, ha, hw⟩, hp, by simpa using hlen, rfl⟩

theorem handleRequest_of_prelude_error {e : HubError}
    (h : srv.requestPrelude cache st address path headers = .error e) (stream : List Chunk)
    (now : Nat) (uid : JsString) :
    srv.handleRequest cache st address path headers stream now uid = (st, .error e) := by
  simp [handleRequest, h]

theorem handleRequest_of_prelude_ok
    (h : srv.requestPrelude cache st address path headers = .ok plan)
    (stream : List Chunk) (now : Nat) (uid : JsString) :
    srv.handleRequest cache st address path headers stream now uid =
      srv.renameThenUpload st address path plan stream now uid := by
  simp [handleRequest, h]

theorem renameThenUpload_cases (st : Store) (address path : JsString) (plan : UploadPlan)
    (stream : List Chunk) (now : Nat) (uid : JsString) :
    let renamed := if plan.isArchivalRestricted then srv.archivalRename st address path now uid
      else (st, .ok ())
    (∃ e, renamed.2 = .error e ∧
        srv.renameThenUpload st address path plan stream now uid = (renamed.1, .error e)) ∨
      (renamed.2 = .ok () ∧ srv.renameThenUpload st address path plan stream now uid =
        srv.uploadStream renamed.1 address path plan stream) := by
  intro renamed
  cases h : renamed.2 with
  | error e => exact .inl ⟨e, rfl, by simp only [renameThenUpload]; rw [h]⟩
  | ok u => exact .inr ⟨rfl, by simp only [renameThenUpload]; rw [h]⟩

theorem handleRequest_eq_ok {stream : List Chunk} {now : Nat} {uid url : JsString}
    (h : (srv.handleRequest cache st address path headers stream now uid).2 = .ok url) :
    ∃ plan, srv.requestPrelude cache st address path headers = .ok plan ∧
      let renamed := if plan.isArchivalRestricted then srv.archivalRename st address path now uid
        else (st, .ok ())
      renamed.2 = .ok () ∧ srv.handleRequest cache st address path headers stream now uid =
        srv.uploadStream renamed.1 address path plan stream := by
  cases hp : srv.requestPrelude cache st address path headers with
  | error e => rw [srv.handleRequest_of_prelude_error hp] at h; cases h
  | ok plan =>
      rw [srv.handleRequest_of_prelude_ok hp] at h ⊢
      rcases srv.renameThenUpload_cases st address path plan stream now uid with
        ⟨e, -, he⟩ | hok
      · rw [he] at h; cases h
      · exact ⟨plan, rfl, hok⟩

/-! ## The bytes that reach the driver -/

/-- The effective limit of §4.5 step 8: the declared length when it is finite and positive, else
the configured limit. -/
def effectiveLimit (maxFileUploadSizeBytes : Nat) : JsNumber → Nat
  | .int n => if 0 < n then n.toNat else maxFileUploadSizeBytes
  | _ => maxFileUploadSizeBytes

theorem maxContentLength_eq (x : JsNumber) :
    srv.maxContentLength x = .int (effectiveLimit srv.maxFileUploadSizeBytes x) := by
  cases x with
  | int n =>
      by_cases hn : 0 < n
      · simp [maxContentLength, isLengthFinite, effectiveLimit, hn]
        omega
      · simp [maxContentLength, isLengthFinite, effectiveLimit, hn]
  | _ => rfl

theorem effectiveLimit_le {x : JsNumber} {M : Nat}
    (h : (isLengthFinite x && JsNumber.lt (.int M) x) = false) : effectiveLimit M x ≤ M := by
  cases x with
  | int n =>
      simp only [effectiveLimit]
      split_ifs with hn
      · simp [isLengthFinite, hn] at h
        omega
      · exact le_rfl
  | _ => exact le_rfl

theorem uploadProgress_limitCallback (E : Nat) : LimitCallback (srv.uploadProgress (.int E)) E :=
  fun total _ => by simp [uploadProgress]

variable (plan) in
theorem monitorUpload_eq (stream : List Chunk) :
    srv.monitorUpload plan stream = monitorStreamProgress stream
      (srv.uploadProgress (.int (effectiveLimit srv.maxFileUploadSizeBytes
        plan.contentLengthBytes))) := by
  rw [monitorUpload, maxContentLength_eq]

variable (plan) in
theorem writeCommand_chunks (address path : JsString) (stream : List Chunk) :
    (srv.writeCommand address path plan stream).stream.chunks <+: stream ∧
      chunksLength (srv.writeCommand address path plan stream).stream.chunks ≤
        effectiveLimit srv.maxFileUploadSizeBytes plan.contentLengthBytes := by
  simp only [writeCommand, monitorUpload_eq, monitorStreamProgress]
  exact ⟨monitorChunks_isPrefix _ 0 stream,
    by simpa using
      monitorChunks_sum_le (uploadProgress_limitCallback srv _) 0 stream (Nat.zero_le _)⟩

variable (plan) in
theorem monitorUpload_pipeline (stream : List Chunk) :
    ((srv.monitorUpload plan stream).pipelinePromise = .ok () ↔
        chunksLength stream ≤
          effectiveLimit srv.maxFileUploadSizeBytes plan.contentLengthBytes) ∧
      ((srv.monitorUpload plan stream).pipelinePromise = .ok () →
        (srv.monitorUpload plan stream).monitoredStream = ⟨stream, none⟩) := by
  have herr := monitorChunks_error_iff (uploadProgress_limitCallback srv
    (effectiveLimit srv.maxFileUploadSizeBytes plan.contentLengthBytes)) 0 stream (Nat.zero_le _)
  simp only [monitorUpload_eq, monitorStreamProgress]
  cases hm : (monitorChunks (srv.uploadProgress (.int (effectiveLimit srv.maxFileUploadSizeBytes
      plan.contentLengthBytes))) 0 stream).2 with
  | none =>
      rw [hm] at herr
      simp only [Option.isSome_none, Bool.false_eq_true, false_iff, not_lt, Nat.zero_add] at herr
      exact ⟨by simpa using herr, fun _ => by rw [monitorChunks_of_none _ 0 stream hm]⟩
  | some e =>
      rw [hm] at herr
      simp only [Option.isSome_some, true_iff, Nat.zero_add] at herr
      exact ⟨by simp; omega, by simp⟩

theorem uploadStream_eq_ok {stream : List Chunk} {url : JsString}
    (h : (srv.uploadStream st address path plan stream).2 = .ok url) :
    (srv.monitorUpload plan stream).pipelinePromise = .ok () ∧
      ∃ u, (srv.driver.performWrite st (srv.writeCommand address path plan stream)).2 = .ok u ∧
        url = rewriteReadURL srv.getReadURLPrefix srv.driver.getReadURLPrefix u := by
  simp only [uploadStream] at h
  cases hp : (srv.monitorUpload plan stream).pipelinePromise with
  | error e => simp [hp, promiseAll, Except.map] at h
  | ok _ =>
      cases hw : (srv.driver.performWrite st (srv.writeCommand address path plan stream)).2 with
      | error e => simp [hp, hw, promiseAll, Except.map] at h
      | ok u =>
          simp only [hp, hw, promiseAll, Except.map, Except.ok.injEq] at h
          exact ⟨rfl, u, rfl, h.symm⟩

theorem handleRequest_ok_within {stream : List Chunk} {now : Nat} {uid url : JsString}
    (h : (srv.handleRequest cache st address path headers stream now uid).2 = .ok url) :
    chunksLength stream ≤ effectiveLimit srv.maxFileUploadSizeBytes headers.contentLength ∧
      ∃ plan, srv.requestPrelude cache st address path headers = .ok plan ∧
        (srv.writeCommand address path plan stream).stream = ⟨stream, none⟩ := by
  obtain ⟨plan, hp, -, he⟩ := srv.handleRequest_eq_ok h
  obtain ⟨-, -, -, -, hx⟩ := srv.requestPrelude_eq_ok hp
  rw [he] at h
  have hpipe := (srv.uploadStream_eq_ok h).1
  have hmon := srv.monitorUpload_pipeline plan stream
  exact ⟨hx ▸ hmon.1.1 hpipe, plan, hp, by simp only [writeCommand, hmon.2 hpipe]⟩

/-- The body reaches the driver only as a prefix within the effective limit `E`, which is within
the configured limit: once the checks pass, the request either fails before it writes, or it is
the upload of the store its rename left, whose one driver write is given the monitored stream of
`writeCommand`. A request returns a URL only when the whole body passed on unchanged and within
`E`; and a body over `E` is always rejected. -/
theorem handleRequest_upload_bound (cache : AuthTimestampCache) (st : Store)
    (address path : JsString) (headers : RequestHeaders) (stream : List Chunk) (now : Nat)
    (uid : JsString) :
    let E := effectiveLimit srv.maxFileUploadSizeBytes headers.contentLength
    (∀ plan, srv.requestPrelude cache st address path headers = .ok plan →
      (∃ st', (∃ e, srv.handleRequest cache st address path headers stream now uid =
          (st', .error e)) ∨
        srv.handleRequest cache st address path headers stream now uid =
          srv.uploadStream st' address path plan stream) ∧
      (srv.writeCommand address path plan stream).stream.chunks <+: stream ∧
      chunksLength (srv.writeCommand address path plan stream).stream.chunks ≤ E ∧
      E ≤ srv.maxFileUploadSizeBytes) ∧
    (∀ url, (srv.handleRequest cache st address path headers stream now uid).2 = .ok url →
      chunksLength stream ≤ E ∧
        ∃ plan, srv.requestPrelude cache st address path headers = .ok plan ∧
        (srv.writeCommand address path plan stream).stream = ⟨stream, none⟩) ∧
    (E < chunksLength stream →
      ∃ e, (srv.handleRequest cache st address path headers stream now uid).2 = .error e) := by
  dsimp only
  refine ⟨fun plan hp => ?_, fun url h => srv.handleRequest_ok_within h, fun hE => ?_⟩
  · obtain ⟨-, -, -, hlen, hx⟩ := srv.requestPrelude_eq_ok hp
    have hwrite : ∃ st', (∃ e, srv.handleRequest cache st address path headers stream now uid =
        (st', .error e)) ∨ srv.handleRequest cache st address path headers stream now uid =
          srv.uploadStream st' address path plan stream := by
      rw [srv.handleRequest_of_prelude_ok hp]
      rcases srv.renameThenUpload_cases st address path plan stream now uid with
        ⟨e, -, he⟩ | ⟨-, he⟩
      · exact ⟨_, .inl ⟨e, he⟩⟩
      · exact ⟨_, .inr he⟩
    rw [← hx] at hlen ⊢
    exact ⟨hwrite, (srv.writeCommand_chunks plan address path stream).1,
      (srv.writeCommand_chunks plan address path stream).2, effectiveLimit_le hlen⟩
  · cases hr : (srv.handleRequest cache st address path headers stream now uid).2 with
    | error e => exact ⟨e, rfl⟩
    | ok url => exact absurd (srv.handleRequest_ok_within hr).1 (by omega)

/-! ## The store a failed upload leaves -/

variable {srv}

theorem archivalRename_cases (hd : srv.driver.MovesObjects) (st : Store) (address path : JsString)
    (now : Nat) (uid : JsString) :
    (∃ o, st address path = some o ∧ srv.archivalRename st address path now uid =
      (st.move address path (getHistoricalFileName path now uid) o, .ok ())) ∨
    ((srv.archivalRename st address path now uid).1 = st ∧
      ((srv.archivalRename st address path now uid).2 = .ok () → st address path = none)) := by
  rcases hd.rename st ⟨path, address, getHistoricalFileName path now uid⟩ with
    ⟨o, ho, he⟩ | ⟨e, he, hdne⟩
  · exact .inl ⟨o, ho, by simp [archivalRename, he, ignoreDoesNotExist]⟩
  · refine .inr ⟨by simp [archivalRename, he], fun hok => ?_⟩
    cases e <;> simp_all [archivalRename, ignoreDoesNotExist]

theorem uploadStream_store_cases (hd : srv.driver.MovesObjects) (st : Store)
    (address path : JsString) (plan : UploadPlan) (stream : List Chunk) :
    (srv.uploadStream st address path plan stream).1 = st ∨
      ∃ o, (srv.uploadStream st address path plan stream).1 = st.insert address path o := by
  rcases hd.write st (srv.writeCommand address path plan stream) with ⟨url, he⟩ | ⟨e, he⟩
  · exact .inr ⟨_, by simp only [uploadStream]; rw [he]; rfl⟩
  · exact .inl (by simp [uploadStream, he])

end HubServer

end GaiaHub
