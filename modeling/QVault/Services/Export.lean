import QVault.Services.SignatureTable

/-!
# The bundle of a decision

What `build_decision_bundle` of `qvault/services/export_service.py` writes about a decision and its
votes. Its log section and its authorisations are built elsewhere.
-/

namespace QVault.Services
open Python Crypto

def bundleFormatOf (proposal : Proposal) : Text :=
  if proposal.action.isSome then "qvault.decision/2" else "qvault.decision/1"

def exportDecision (proposal : Proposal) (vaultName : Option Text) : List (Text × Json) :=
  ([("proposal_uuid", .str proposal.proposalUuid), ("title", .str proposal.title),
    ("vault_id", .int proposal.vaultId), ("vault_name", optionText vaultName),
    ("action_text", .str proposal.actionText), ("file_sha256", optionText proposal.fileSha256),
    ("required_m", .int proposal.requiredM), ("required_n", .int proposal.requiredN),
    ("authorized_signers", .list (proposal.authorizedSigners.map .int)),
    ("nonce_hex", .str (hexText proposal.nonce)), ("created_at_iso", .str proposal.createdAtIso),
    ("payload_hash", .str proposal.payloadHash), ("status", .str proposal.status.text)] :
    List (Text × Json)) ++
  match proposal.action with
  | some action => [("action", action.canonical)]
  | none => []

structure Person where
  email : Text
  displayName : Text

-- `Signature.custody`
def rowCustody (keys : List Key) (row : SignatureRow) : Text :=
  match keys[row.keyId]? with
  | some key => if key.wrapDomain = .device then "device" else "server"
  | none => "server"

def exportSignature (keys : List Key) (people : Int → Option Person) (row : SignatureRow) : Json :=
  .dict [("signer_id", .int row.signerId), ("signer_email", optionText ((people row.signerId).map (·.email))),
    ("signer_name", optionText ((people row.signerId).map (·.displayName))), ("decision", .str row.decision),
    ("reason", optionText row.reason), ("custody", .str (rowCustody keys row)), ("alg_id", .str row.algId),
    ("backend", .str row.backend), ("public_key_b64", .str (b64encode row.publicKey)),
    ("signature_b64", .str (b64encode row.signature)), ("signed_payload_hash", .str row.signedPayloadHash),
    ("signed_at", optionText row.createdAt)]

-- What stands around the decision in its bundle
structure Surrounding where
  vaultName : Option Text
  people : Int → Option Person
  exportedAt : Text
  origin : Text
  log : Json
  execution : List (Text × Json)

def exportBundle (keys : List Key) (around : Surrounding) (proposal : Proposal) (rows : List SignatureRow) :
    List (Text × Json) :=
  ([("format", .str (bundleFormatOf proposal)), ("exported_at", .str around.exportedAt),
    ("origin", .str around.origin), ("decision", .dict (exportDecision proposal around.vaultName)),
    ("signatures", .list (rows.map (exportSignature keys around.people))), ("log", around.log)] :
    List (Text × Json)) ++ around.execution

end QVault.Services
