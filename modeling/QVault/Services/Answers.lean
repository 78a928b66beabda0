import QVault.Services.Decision

/-!
# What the API answers a phone about a decision

`qvault/blueprints/api.py`, and `_reconfiguration_view` of `reconfiguration_service.py`.
-/

namespace QVault.Services
open Python

def Proposal.signingPolicy (proposal : Proposal) (signers : List Int) : Json :=
  .dict [("M", .int proposal.requiredM), ("N", .int proposal.requiredN), ("signers", .list (signers.map .int))]

-- `signing_inputs` of the decision's detail, with its signers in this order
def Proposal.signingInputsIn (proposal : Proposal) (signers : List Int) : Json :=
  let fields : List (Text × Json) :=
    [("vault_id", .int proposal.vaultId), ("proposal_id", .str proposal.proposalUuid),
      ("action_text", .str proposal.actionText), ("file_sha256", optionText proposal.fileSha256),
      ("policy", proposal.signingPolicy signers), ("nonce", .str (hexText proposal.nonce)),
      ("created_at", .str proposal.createdAtIso)]
  match proposal.action with
  | none => .dict fields
  | some action => .dict (fields ++ [(text "action", action.canonical)])

def Proposal.signingInputs (proposal : Proposal) : Json :=
  proposal.signingInputsIn (proposal.authorizedSigners.insertionSort (· ≤ ·))

-- `signing_inputs` of a change to a treasury's signers; its identities are stored as hexadecimal.
def reconfigurationInputs (chainId : Int) (treasury : Text) (configNonce : Int) (add remove : List Bytes)
    (threshold validUntil : Int) : Json :=
  let identities (signers : List Bytes) : Json := .list (signers.map fun b => .str (text "0x" ++ hexText b))
  .dict [("chain_id", .int chainId), ("treasury", .str treasury), ("config_nonce", .int configNonce),
    ("add", identities add), ("remove", identities remove), ("threshold", .int threshold),
    ("valid_until", .int validUntil)]

end QVault.Services
