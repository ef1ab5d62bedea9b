import GaiaHub.Scope

/-!
# Tokens

`authentication.ts` is not in the sources: what the hub uses of it is modelled from the spec. A
bearer token reaches the hub decoded (`Token`), with the outcome of its signature and
association-chain checks; a header that does not decode is `none`.
`validateAuthorizationHeader` follows the verification order of §4.2 and returns the signing
address.
-/

namespace GaiaHub

/-- A decoded bearer token (§3, §6). -/
structure Token where
  signingAddress : JsString
  verified : Bool
  hubUrl : Option JsString
  iat : Nat
  scopes : List AuthScope
  deriving DecidableEq, Repr

def stripTrailingSlash (url : JsString) : JsString :=
  if url.getLast? = some '/' then url.dropLast else url

def claimsHub (token : Token) (serverName : JsString) (validHubUrls : Option (List JsString)) :
    Bool :=
  match token.hubUrl with
  | some url => (validHubUrls.getD [serverName]).contains (stripTrailingSlash url)
  | none => false

/-- Modelled from the spec: `validateAuthorizationHeader` (§4.2) returns the signing address of
a token that decodes and verifies, belongs to `address`, claims this hub when that is required,
and was not issued before `oldestValidTokenTimestamp` when one is given. -/
def validateAuthorizationHeader (authorization : Option Token) (serverName address : JsString)
    (requireCorrectHubUrl : Bool) (validHubUrls : Option (List JsString))
    (oldestValidTokenTimestamp : Option Nat) : Except HubError JsString :=
  match authorization with
  | none => .error (.validationError "BadTokenFormat".toList)
  | some token =>
    if !token.verified then .error (.validationError "SignatureInvalid".toList)
    else if token.signingAddress ≠ address then
      .error (.validationError "PrincipalMismatch".toList)
    else if requireCorrectHubUrl && !claimsHub token serverName validHubUrls then
      .error (.validationError "WrongHub".toList)
    else match oldestValidTokenTimestamp with
      | some ts => if token.iat < ts then .error (.validationError "Revoked".toList)
          else .ok token.signingAddress
      | none => .ok token.signingAddress

theorem validateAuthorizationHeader_ok {authorization : Option Token}
    {serverName address : JsString} {requireCorrectHubUrl : Bool}
    {validHubUrls : Option (List JsString)} {ts : Option Nat} {signer : JsString}
    (h : validateAuthorizationHeader authorization serverName address requireCorrectHubUrl
      validHubUrls ts = .ok signer) :
    ∃ token, authorization = some token ∧ token.verified = true ∧ signer = token.signingAddress ∧
      signer = address ∧ ∀ t, ts = some t → t ≤ token.iat := by
  unfold validateAuthorizationHeader at h
  rcases authorization with _ | token
  · cases h
  refine ⟨token, rfl, ?_⟩
  dsimp only at h
  split_ifs at h with h1 h2 h3
  have hver : token.verified = true := by simpa using h1
  rcases ts with _ | t
  · cases h
    exact ⟨hver, rfl, by simpa using h2, by simp⟩
  · simp only at h
    split_ifs at h with h4
    cases h
    exact ⟨hver, rfl, by simpa using h2, by simp; omega⟩

/-- Modelled from the spec: `getAuthenticationScopes(authorization)` decodes the token without
verifying it and groups its scopes (§4.2). -/
def getAuthenticationScopes (authorization : Option Token) : Except HubError AuthScopeValues :=
  match authorization with
  | some token => .ok (groupScopes token.scopes)
  | none => .error (.validationError "BadTokenFormat".toList)

end GaiaHub
