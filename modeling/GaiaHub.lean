import GaiaHub.Basic
import GaiaHub.FileName
import GaiaHub.Scope
import GaiaHub.Driver
import GaiaHub.Revocation
import GaiaHub.Stream
import GaiaHub.Auth
import GaiaHub.ProofChecker
import GaiaHub.Server
import GaiaHub.Upload
import GaiaHub.ReadURL
import GaiaHub.Listing
import GaiaHub.Authorization
import GaiaHub.Archival
import GaiaHub.Mutex
import GaiaHub.History
import GaiaHub.Reader
import GaiaHub.Isolation
import GaiaHub.Retention
