import GaiaHub.Basic

/-!
# The social-proof check

`ProofChecker.checkProofs(address, filename, readURL)` lets a write or a delete through when
no proofs are required or the file is a profile (`filename.endsWith('/profile.json')`).
Otherwise it fetches the principal's profile from `readURL + address + '/profile.json'`,
validates the proofs listed in it and requires `proofsRequired` valid ones; any failure of the
fetch or of the validation becomes a `NotEnoughProofError`. The network and blockstack.js are
external: the checker carries what they return.
-/

namespace GaiaHub

structure Proof where
  valid : Bool
  deriving DecidableEq, Repr

/-- A proof checker: its configuration, and what its external collaborators return:
`fetchVerifiedClaim` is the profile claim `fetch(url)` and `verifyProfileToken(token, address)`
give, and `validateProofs` the proofs `validateProofs(profile, address, cheerio)` finds, each
`none` when it throws. -/
structure ProofChecker where
  proofsRequired : Nat
  fetchVerifiedClaim : JsString → JsString → Option JsString
  validateProofs : JsString → JsString → Option (List Proof)

namespace ProofChecker

/-- `fetchProfile(address, readURL)`. -/
def fetchProfile (pc : ProofChecker) (address readURL : JsString) : Option JsString :=
  let filename := address ++ "/profile.json".toList
  let url := readURL ++ filename
  pc.fetchVerifiedClaim url address

/-- `validEnough(validProofs)`. -/
def validEnough (pc : ProofChecker) (validProofs : List Proof) : Bool :=
  decide (validProofs.length ≥ pc.proofsRequired)

/-- `checkProofs(address, filename, readURL)`. -/
def checkProofs (pc : ProofChecker) (address filename readURL : JsString) :
    Except HubError Bool :=
  if pc.proofsRequired == 0 || endsWith filename "/profile.json".toList then .ok true
  else
    match (pc.fetchProfile address readURL).bind (pc.validateProofs · address) with
    | none =>
      .error (.notEnoughProofError "Error fetching and verifying social proofs".toList)
    | some proofs =>
      if pc.validEnough (proofs.filter (·.valid)) then .ok true
      else .error (.notEnoughProofError "Not enough social proofs for gaia hub writes".toList)

theorem checkProofs_ok_or (pc : ProofChecker) (address filename readURL : JsString) :
    pc.checkProofs address filename readURL = .ok true ∨
      ∃ msg, pc.checkProofs address filename readURL = .error (.notEnoughProofError msg) := by
  unfold checkProofs
  split
  · exact .inl rfl
  · split
    · exact .inr ⟨_, rfl⟩
    · split
      · exact .inl rfl
      · exact .inr ⟨_, rfl⟩

end ProofChecker

end GaiaHub
