import GaiaHub.FileName
import GaiaHub.Revocation
import GaiaHub.Stream
import GaiaHub.Auth
import GaiaHub.ProofChecker

/-!
# The hub server

`HubServer` holds what the handlers read of the hub: its configuration, the driver and the proof
checker. A handler is a function of the revocation clock's LRU and of the driver's store that
returns the store it leaves behind with its result (`handleAuthBump` returns the LRU too).
`handleRequest` is cut at its awaits on the store: the checks (`requestPrelude`), the archival
rename (`archivalRename`) and the streamed write (`uploadStream`), so that the interleaved model
of `Archival.lean` runs the same pieces one driver call at a time. The checks begin with the
clock lookup; the LRU it leaves is threaded by `HubServer.handle`.

The clock reading and the identifier that name a historical copy are inputs, and so is the
request body, a finite list of chunks. `HubServer.handle` dispatches one request of any kind and
`HubServer.run` runs a list of them one after another.
-/

namespace GaiaHub

/-- What the handlers read of a `HubServer`; its revocation clock is part of the `HubState`. -/
structure HubServer where
  driver : DriverModel
  proofChecker : ProofChecker
  whitelist : Option (List JsString)
  serverName : JsString
  readURL : Option JsString
  requireCorrectHubUrl : Bool
  validHubUrls : Option (List JsString)
  maxFileUploadSizeMB : Nat
  maxFileUploadSizeBytes : Nat

/-- The configuration fields the constructor reads (`HubConfigInterface`). -/
structure HubConfig where
  whitelist : Option (List JsString)
  serverName : JsString
  validHubUrls : Option (List JsString)
  readURL : Option JsString
  requireCorrectHubUrl : Option Bool
  maxFileUploadSize : Option Nat
  authTimestampCacheSize : Nat

def megabytesToBytes (megabytes : Nat) : Nat := megabytes * 1024 * 1024

/-- `new HubServer(driver, proofChecker, config)`; `config.maxFileUploadSize || 20` also
replaces a configured `0`. -/
def HubServer.new (driver : DriverModel) (proofChecker : ProofChecker) (config : HubConfig) :
    HubServer :=
  let maxFileUploadSizeMB := match config.maxFileUploadSize with
    | some mb => if mb = 0 then 20 else mb
    | none => 20
  { driver, proofChecker
    whitelist := config.whitelist
    serverName := config.serverName
    readURL := config.readURL
    requireCorrectHubUrl := config.requireCorrectHubUrl.getD false
    validHubUrls := config.validHubUrls
    maxFileUploadSizeMB
    maxFileUploadSizeBytes := megabytesToBytes maxFileUploadSizeMB }

/-- The request headers `handleRequest` reads. `contentLength` is what `parseInt` makes of the
`content-length` header (`NaN` when it is absent). -/
structure RequestHeaders where
  contentType : Option JsString
  contentLength : JsNumber
  authorization : Option Token

namespace HubServer

variable (srv : HubServer)

/-- `validate(address, requestHeaders, oldestValidTokenTimestamp)`. -/
def validate (address : JsString) (authorization : Option Token)
    (oldestValidTokenTimestamp : Option Nat) : Except HubError Unit := do
  let signingAddress ← validateAuthorizationHeader authorization srv.serverName address
    srv.requireCorrectHubUrl srv.validHubUrls oldestValidTokenTimestamp
  match srv.whitelist with
  | some whitelist =>
    if signingAddress ∈ whitelist then pure ()
    else throw (.validationError
      ("Address ".toList ++ signingAddress ++ " not authorized for writes".toList))
  | none => pure ()

theorem validate_ok {address : JsString} {authorization : Option Token} {ts : Option Nat}
    (h : srv.validate address authorization ts = .ok ()) :
    ∃ token, authorization = some token ∧ token.verified = true ∧ token.signingAddress = address ∧
      (∀ t, ts = some t → t ≤ token.iat) ∧
      ∀ whitelist, srv.whitelist = some whitelist → token.signingAddress ∈ whitelist := by
  unfold validate at h
  cases hv : validateAuthorizationHeader authorization srv.serverName address
    srv.requireCorrectHubUrl srv.validHubUrls ts with
  | error e => simp [hv] at h
  | ok signer =>
      obtain ⟨token, rfl, hver, rfl, haddr, hts⟩ := validateAuthorizationHeader_ok hv
      refine ⟨token, rfl, hver, haddr, hts, fun wl hwl => ?_⟩
      simp only [hv, hwl, except_ok_bind] at h
      by_contra hmem
      simp [hmem] at h

/-- `getReadURLPrefix()`: the configured read URL when it is a non-empty string, else the
driver's. -/
def getReadURLPrefix : JsString :=
  match srv.readURL with
  | some url => if truthy url then url else srv.driver.getReadURLPrefix
  | none => srv.driver.getReadURLPrefix

end HubServer

/-- A number as a template literal prints it; integers print in decimal (JavaScript switches to
an exponent from `10^21` on, which no limit or byte count here reaches). -/
def JsNumber.toJsString : JsNumber → JsString
  | .nan => "NaN".toList
  | .posInfinity => "Infinity".toList
  | .negInfinity => "-Infinity".toList
  | .int n => if n < 0 then '-' :: decimal n.natAbs else decimal n.natAbs

/-- `bytesToMegabytes(bytes, 4)`: it divides by `1024 / 1024`, which is `1`, and rounds to four
places, so the integers it is given come back unchanged. -/
def bytesToMegabytes (bytes : JsNumber) : JsNumber := bytes

def isLengthFinite (contentLengthBytes : JsNumber) : Bool :=
  contentLengthBytes.isFinite && JsNumber.lt (.int 0) contentLengthBytes

theorem isLengthFinite_iff (x : JsNumber) :
    isLengthFinite x = true ↔ ∃ n : Nat, 0 < n ∧ x = .int n := by
  cases x with
  | int n =>
      simp only [isLengthFinite, JsNumber.isFinite_int, JsNumber.lt_int_int, Bool.true_and,
        decide_eq_true_eq, JsNumber.int.injEq]
      exact ⟨fun h => ⟨n.toNat, by omega, by omega⟩, fun ⟨m, hm, he⟩ => by omega⟩
  | _ => simp [isLengthFinite, JsNumber.isFinite]

structure UploadPlan where
  contentType : JsString
  isArchivalRestricted : Bool
  contentLengthBytes : JsNumber

namespace HubServer

variable (srv : HubServer)

def contentLengthMessage (contentLengthBytes : JsNumber) : JsString :=
  "Max file upload size is ".toList ++ decimal srv.maxFileUploadSizeMB ++ " megabytes. ".toList ++
    "Rejected Content-Length of ".toList ++ (bytesToMegabytes contentLengthBytes).toJsString ++
    " megabytes".toList

/-- Steps 1–6 of `handleRequest`, up to the declared-length check; they read the clock and change
no object. -/
def requestPrelude (cache : AuthTimestampCache) (st : Store) (address path : JsString)
    (headers : RequestHeaders) : Except HubError UploadPlan := do
  let oldestValidTokenTimestamp ← (cache.getAuthTimestamp srv.driver st address).2
  srv.validate address headers.authorization (some oldestValidTokenTimestamp)
  let contentType := headers.contentType.getD "application/octet-stream".toList
  let scopes ← getAuthenticationScopes headers.authorization
  let isArchivalRestricted ← checkArchivalRestrictions address path scopes
  checkWriteScopes address path scopes
  let _ ← srv.proofChecker.checkProofs address path srv.getReadURLPrefix
  let contentLengthBytes := headers.contentLength
  if isLengthFinite contentLengthBytes &&
      JsNumber.lt (.int srv.maxFileUploadSizeBytes) contentLengthBytes then
    throw (.payloadTooLargeError (srv.contentLengthMessage contentLengthBytes))
  return ⟨contentType, isArchivalRestricted, contentLengthBytes⟩

def ignoreDoesNotExist : Except HubError Unit → Except HubError Unit
  | .error (.doesNotExist _) => .ok ()
  | r => r

/-- Step 7 of `handleRequest`: rename the object at `path` to a fresh historical name. -/
def archivalRename (st : Store) (address path : JsString) (now : Nat) (uid : JsString) :
    Store × Except HubError Unit :=
  let historicalPath := getHistoricalFileName path now uid
  let renamed := srv.driver.performRename st ⟨path, address, historicalPath⟩
  (renamed.1, ignoreDoesNotExist renamed.2)

def maxContentLength (contentLengthBytes : JsNumber) : JsNumber :=
  if isLengthFinite contentLengthBytes then contentLengthBytes
  else .int srv.maxFileUploadSizeBytes

def streamLengthMessage (totalBytes : Nat) : JsString :=
  "Max file upload size is ".toList ++ decimal srv.maxFileUploadSizeMB ++ " megabytes. ".toList ++
    "Rejected POST body stream of ".toList ++ (bytesToMegabytes (.int totalBytes)).toJsString ++
    " megabytes".toList

def uploadProgress (maxContentLength : JsNumber) (totalBytes _chunkBytes : Nat) :
    Except HubError Unit :=
  if JsNumber.lt maxContentLength (.int totalBytes) then
    .error (.payloadTooLargeError (srv.streamLengthMessage totalBytes))
  else .ok ()

end HubServer

/-- `Promise.all([performWrite, pipelinePromise])` for the driver's URL. A destroyed stream
rejects the pipeline before the driver reads the error, so that rejection is the one seen. -/
def promiseAll (written : Except HubError JsString) (pipeline : Except HubError Unit) :
    Except HubError JsString :=
  match pipeline with
  | .error e => .error e
  | .ok () => written

/-- The URL rewrite of `handleRequest`: a URL under the driver's prefix is moved under the hub's
read prefix when the two differ. -/
def rewriteReadURL (readURLPrefix driverPrefix readURL : JsString) : JsString :=
  if readURLPrefix != driverPrefix && startsWith readURL driverPrefix then
    readURLPrefix ++ readURL.drop driverPrefix.length
  else readURL

namespace HubServer

variable (srv : HubServer)

def monitorUpload (plan : UploadPlan) (stream : List Chunk) : MonitorStreamResult :=
  monitorStreamProgress stream (srv.uploadProgress (srv.maxContentLength plan.contentLengthBytes))

def writeCommand (address path : JsString) (plan : UploadPlan) (stream : List Chunk) :
    PerformWriteArgs :=
  ⟨address, path, (srv.monitorUpload plan stream).monitoredStream, plan.contentType,
    plan.contentLengthBytes⟩

/-- Steps 8–10 of `handleRequest`: stream the body through the monitor into the driver's write,
wait for both, and rewrite the URL. -/
def uploadStream (st : Store) (address path : JsString) (plan : UploadPlan)
    (stream : List Chunk) : Store × Except HubError JsString :=
  let written := srv.driver.performWrite st (srv.writeCommand address path plan stream)
  (written.1, (promiseAll written.2 (srv.monitorUpload plan stream).pipelinePromise).map
    (rewriteReadURL srv.getReadURLPrefix srv.driver.getReadURLPrefix))

def renameThenUpload (st : Store) (address path : JsString) (plan : UploadPlan)
    (stream : List Chunk) (now : Nat) (uid : JsString) : Store × Except HubError JsString :=
  let renamed := if plan.isArchivalRestricted then srv.archivalRename st address path now uid
    else (st, .ok ())
  match renamed.2 with
  | .error e => (renamed.1, .error e)
  | .ok () => srv.uploadStream renamed.1 address path plan stream

/-- `handleRequest(address, path, requestHeaders, stream)`, with `Date.now() = now` and
`generateUniqueID() = uid` at the archival rename. -/
def handleRequest (cache : AuthTimestampCache) (st : Store) (address path : JsString)
    (headers : RequestHeaders) (stream : List Chunk) (now : Nat) (uid : JsString) :
    Store × Except HubError JsString :=
  match srv.requestPrelude cache st address path headers with
  | .error e => (st, .error e)
  | .ok plan => srv.renameThenUpload st address path plan stream now uid

/-- The checks of `handleDelete`, up to the proof check; they return whether archival scopes
are present. -/
def deletePrelude (cache : AuthTimestampCache) (st : Store) (address path : JsString)
    (authorization : Option Token) : Except HubError Bool := do
  let oldestValidTokenTimestamp ← (cache.getAuthTimestamp srv.driver st address).2
  srv.validate address authorization (some oldestValidTokenTimestamp)
  let scopes ← getAuthenticationScopes authorization
  let isArchivalRestricted ← checkArchivalRestrictions address path scopes
  checkDeleteScopes address path scopes
  let _ ← srv.proofChecker.checkProofs address path srv.getReadURLPrefix
  return isArchivalRestricted

/-- `handleDelete(address, path, requestHeaders)`; under archival scopes the object is renamed
to a historical name instead of deleted. -/
def handleDelete (cache : AuthTimestampCache) (st : Store) (address path : JsString)
    (authorization : Option Token) (now : Nat) (uid : JsString) : Store × Except HubError Unit :=
  match srv.deletePrelude cache st address path authorization with
  | .error e => (st, .error e)
  | .ok true => srv.driver.performRename st ⟨path, address, getHistoricalFileName path now uid⟩
  | .ok false => srv.driver.performDelete st ⟨address, path⟩

end HubServer

/-- The filtering of `handleListFiles` for entries named by `name`: under archival scopes a
non-empty page loses its historical entries, and a page left empty gets a `null` sentinel when
the cursor is truthy. -/
def filterHistorical {α : Type} (name : α → JsString) (isArchivalRestricted : Bool)
    (result : ListFilesResult α) : ListFilesResult (Option α) :=
  if isArchivalRestricted && result.entries.length > 0 then
    let entries := (result.entries.filter fun entry => !isHistoricalFile (name entry)).map some
    if entries.length = 0 && (result.page.map truthy).getD false then
      ⟨entries ++ [none], result.page⟩
    else ⟨entries, result.page⟩
  else ⟨result.entries.map some, result.page⟩

inductive ListFilesResponse where
  | names (result : ListFilesResult (Option JsString))
  | stats (result : ListFilesResult (Option ListFileStatResult))
  deriving DecidableEq

namespace HubServer

variable (srv : HubServer)

/-- `handleListFiles(address, page, stat, requestHeaders)`. -/
def handleListFiles (cache : AuthTimestampCache) (st : Store) (address : JsString)
    (page : Option JsString) (stat : Bool) (authorization : Option Token) :
    Except HubError ListFilesResponse := do
  let oldestValidTokenTimestamp ← (cache.getAuthTimestamp srv.driver st address).2
  let scopes ← getAuthenticationScopes authorization
  let isArchivalRestricted := isArchivalRestricted scopes
  srv.validate address authorization (some oldestValidTokenTimestamp)
  let listFilesArgs : PerformListFilesArgs := ⟨address, page⟩
  if stat then
    let result ← srv.driver.listFilesStat st listFilesArgs
    return .stats (filterHistorical ListFileStatResult.name isArchivalRestricted result)
  else
    let result ← srv.driver.listFiles st listFilesArgs
    return .names (filterHistorical id isArchivalRestricted result)

/-- `handleAuthBump(address, oldestValidTimestamp, requestHeaders)`: `validate` is called
without the principal's timestamp. -/
def handleAuthBump (cache : AuthTimestampCache) (st : Store) (address : JsString)
    (oldestValidTimestamp : Nat) (authorization : Option Token) :
    AuthTimestampCache × Store × Except HubError Unit :=
  match srv.validate address authorization none with
  | .error e => (cache, st, .error e)
  | .ok () => cache.setAuthTimestamp srv.driver st address oldestValidTimestamp

end HubServer

/-! ## Runs of requests -/

/-- The hub's state: the revocation clock's LRU and the driver's store. -/
structure HubState where
  cache : AuthTimestampCache
  store : Store

/-- A request to one of the hub's entry points, with the clock reading and identifier used if
it renames an object to a historical name. -/
inductive HubRequest where
  | request (address path : JsString) (headers : RequestHeaders) (stream : List Chunk)
      (now : Nat) (uid : JsString)
  | delete (address path : JsString) (authorization : Option Token) (now : Nat) (uid : JsString)
  | listFiles (address : JsString) (page : Option JsString) (stat : Bool)
      (authorization : Option Token)
  | authBump (address : JsString) (oldestValidTimestamp : Nat) (authorization : Option Token)

inductive HubResponse where
  | publicURL (url : JsString)
  | deleted
  | listing (result : ListFilesResponse)
  | bumped
  deriving DecidableEq

namespace HubServer

variable (srv : HubServer)

/-- The clock of `address` in state `s`, as a lookup reads it. -/
def clock (s : HubState) (address : JsString) : Except HubError Nat :=
  (s.cache.getAuthTimestamp srv.driver s.store address).2

def lookupCache (s : HubState) (address : JsString) : AuthTimestampCache :=
  (s.cache.getAuthTimestamp srv.driver s.store address).1

def handle (s : HubState) : HubRequest → HubState × Except HubError HubResponse
  | .request address path headers stream now uid =>
    let r := srv.handleRequest s.cache s.store address path headers stream now uid
    (⟨srv.lookupCache s address, r.1⟩, r.2.map .publicURL)
  | .delete address path authorization now uid =>
    let r := srv.handleDelete s.cache s.store address path authorization now uid
    (⟨srv.lookupCache s address, r.1⟩, r.2.map fun _ => .deleted)
  | .listFiles address page stat authorization =>
    (⟨srv.lookupCache s address, s.store⟩,
      (srv.handleListFiles s.cache s.store address page stat authorization).map .listing)
  | .authBump address oldestValidTimestamp authorization =>
    let r := srv.handleAuthBump s.cache s.store address oldestValidTimestamp authorization
    (⟨r.1, r.2.1⟩, r.2.2.map fun _ => .bumped)

def run (srv : HubServer) : HubState → List HubRequest → HubState
  | s, [] => s
  | s, req :: reqs => srv.run (srv.handle s req).1 reqs

@[simp] theorem run_nil (s : HubState) : srv.run s [] = s := rfl

@[simp] theorem run_cons (s : HubState) (req : HubRequest) (reqs : List HubRequest) :
    srv.run s (req :: reqs) = srv.run (srv.handle s req).1 reqs := rfl

end HubServer

/-! ## A concrete hub

The hub the concrete runs use: the store driver under the reader's URL, no
proofs required, no whitelist and the default limit of 20 megabytes.
-/

def demoConfig : HubConfig := ⟨none, "hub".toList, none, none, none, none, 1⟩

def demoHub : HubServer :=
  HubServer.new (storeDriver "http://localhost:4001/".toList)
    ⟨0, fun _ _ => none, fun _ _ => none⟩ demoConfig

def demoAddress : JsString := "1Lbcfr7sAHTD9CgdQo3HTMTkV8LK4ZnX71".toList

def demoToken (iat : Nat) (scopes : List AuthScope) : Token :=
  ⟨demoAddress, true, none, iat, scopes⟩

def demoCache : AuthTimestampCache := .new demoConfig.authTimestampCacheSize

def demoStore : Store :=
  Store.empty.insert demoAddress "foo/bar".toList ⟨[104, 105], "text/plain".toList⟩

def demoArchivalHeaders (contentLength : JsNumber) : RequestHeaders :=
  ⟨none, contentLength, some (demoToken 0 [⟨.putFileArchivalPrefix, "foo/".toList⟩])⟩

end GaiaHub
