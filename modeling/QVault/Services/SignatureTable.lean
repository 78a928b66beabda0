import QVault.Services.Approval

/-!
# The signatures table as anyone can write it

What `tally` and `verify_signature` of `qvault/services/approval_service.py` make of rows of any
content. The application itself only writes the rows of `Signature`.
-/

namespace QVault.Services
open Python Crypto

structure SignatureRow where
  signerId : Int
  keyId : Nat
  algId : Text
  backend : Text
  publicKey : Bytes
  decision : Text
  signature : Bytes
  signedPayloadHash : Text
  reason : Option Text
  createdAt : Option Text
deriving DecidableEq

section Table
variable (config : VoteConfig) (board : Board) (proposal : Proposal)

-- The key the row is pinned to is the signer's own, and its copies of it are unaltered.
def pinnedToOwner (row : SignatureRow) : Bool :=
  match board.keys[row.keyId]? with
  | none => false
  | some key => key.ownerId == some row.signerId && row.publicKey == key.publicKey && row.algId == key.algId

-- `verify_signature`. Without a provider `registry.signature` raises UnknownAlgorithm for its KeyError.
def verifyRow (row : SignatureRow) : Except PyError Bool :=
  if !pinnedToOwner board row then .ok false
  else if row.signedPayloadHash ≠ proposal.payloadHash then .ok false
  else do
    let message ← voteSigningBytes row.signedPayloadHash (.str row.decision) (.int row.signerId)
    match config.registry.signature row.algId with
    | none => throw .keyError
    | some verify => return verify row.publicKey message row.signature

-- `sum(1 for s in rows if s.decision == decision and verify_signature(s, proposal))`
def countRows (decision : Text) : List SignatureRow → Except PyError Nat
  | [] => .ok 0
  | row :: rest =>
    if row.decision ≠ decision then countRows decision rest
    else do
      let verified ← verifyRow config board proposal row
      let others ← countRows decision rest
      return others + if verified then 1 else 0

-- `tally`, over the rows of the decision
def tallyRows (rows : List SignatureRow) : Except PyError (Nat × Nat) :=
  if !bindingOk config board proposal then .ok (0, 0)
  else do
    let approvals ← countRows config board proposal "approve" rows
    let rejections ← countRows config board proposal "reject" rows
    return (approvals, rejections)

end Table

-- the row the application writes for a vote
def Signature.row (s : Signature) (backend : Text) (createdAt : Option Text) : SignatureRow where
  signerId := s.signerId
  keyId := s.keyId
  algId := s.algId
  backend
  publicKey := s.publicKey
  decision := s.decision.text
  signature := s.signature
  signedPayloadHash := s.signedPayloadHash
  reason := s.reason
  createdAt

end QVault.Services
