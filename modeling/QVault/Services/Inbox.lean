import QVault.Services.ApprovalRun

/-!
# What lists and the phone's pages show of a decision

`effective_status` of `qvault/services/inbox_service.py`, and the facts `_proposal_summary` of
`qvault/blueprints/api.py` sends the phone.
-/

namespace QVault.Services
open Python

def effectiveStatus (directory : Directory) (proposal : Proposal) (now : Int) : Status :=
  if proposal.status = .open ∧ proposal.expiresAt.any fun deadline => deadline ≤ now then
    let approvals := (proposal.votes .approve).length
    let rejections := (proposal.votes .reject).length
    if proposal.requiredM ≤ approvals then .approved
    else if proposal.requiredN - proposal.requiredM < rejections ∨
        (proposal.requiredN - 1 - proposal.requiredM < rejections ∧
          proposal.rejectionCloses directory rejections) then .rejected
    else .expired
  else proposal.status

structure ProposalSummary where
  status : Text
  requiredM : Int
  requiredN : Int
  approvals : Nat
  rejections : Nat
  expiresAt : Option Int

def proposalSummary (config : VoteConfig) (board : Board) (proposal : Proposal) : ProposalSummary where
  status := proposal.status.text
  requiredM := proposal.requiredM
  requiredN := proposal.requiredN
  approvals := (tally config board proposal).1
  rejections := (tally config board proposal).2
  expiresAt := proposal.expiresAt

end QVault.Services
