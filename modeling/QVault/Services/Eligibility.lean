import QVault.Services.Decision

/-!
# Who can still sign a decision

`qvault/services/eligibility.py`, and the parts of `workspace_service` and `approval_service` that
ask for a person's role and standing now.
-/

namespace QVault.Services
open Python

inductive Standing
  | unconfirmed | notMember | suspended | auditor
  deriving DecidableEq

def Standing.text : Standing → Text
  | .unconfirmed => "your place in this vault's workspace could not be confirmed"
  | .notMember => "you are not a member of this vault's workspace"
  | .suspended => "you are suspended from this vault's workspace"
  | .auditor => "auditors are read-only"

def membershipStanding : Option WorkspaceMember → Option Standing
  | none => some .notMember
  | some member =>
    if !member.active then some .suspended else if member.role = .auditor then some .auditor else none

namespace Directory
variable (directory : Directory)

def signingStanding (vaultId userId : Int) : Option Standing :=
  match (directory.vault vaultId).homeWorkspaceId with
  | none => if directory.anyWorkspace then some .unconfirmed else none
  | some workspaceId => membershipStanding (directory.membership workspaceId userId)

def isCurrentApprover (vaultId userId : Int) : Bool :=
  ((directory.vault vaultId).memberFor userId).any fun m => m.role.signs

-- `user_id in current_signer_ids(vault)`
def signsNow (vaultId userId : Int) : Bool :=
  directory.isCurrentApprover vaultId userId && (directory.signingStanding vaultId userId).isNone

def currentSignerIds (vaultId : Int) : List Int :=
  (directory.vault vaultId).signerIds.filter (directory.signsNow vaultId)

def vaultAllowsRequester (vaultId : Int) : Bool :=
  (directory.vault vaultId).requesterCanApprove.getD true

def ableToApprove (vaultId requesterId : Int) : List Int :=
  (directory.currentSignerIds vaultId).filter fun id =>
    directory.vaultAllowsRequester vaultId || id != requesterId

-- `cannot_raise` refuses exactly when this holds.
def impossibleToPass (vaultId requesterId : Int) : Bool :=
  ((directory.ableToApprove vaultId requesterId).length : Int) < (directory.vault vaultId).thresholdM

end Directory

namespace Proposal
variable (proposal : Proposal) (directory : Directory)

-- the rule the decision was raised under; without a row it reads as yes
def frozenRule : Bool := proposal.requesterCanApprove.getD true

def requesterMayApprove : Bool :=
  if proposal.status = .open then
    proposal.frozenRule && directory.vaultAllowsRequester proposal.vaultId
  else proposal.frozenRule

def requesterExcluded : Bool :=
  proposal.authorizedSigners.contains proposal.creatorId && !proposal.requesterMayApprove directory &&
    !proposal.hasVoted proposal.creatorId

def decidingN : Int := proposal.requiredN - if proposal.requesterExcluded directory then 1 else 0

def rejectionCloses (rejections : Nat) : Bool :=
  proposal.decidingN directory - proposal.requiredM < rejections

-- `Outlook.still`: who is eligible and has not voted
def still : List Int :=
  proposal.authorizedSigners.dedup.filter fun id =>
    directory.signsNow proposal.vaultId id &&
      (proposal.requesterMayApprove directory || id != proposal.creatorId) && !proposal.hasVoted id

def cannotPass : Bool :=
  proposal.status = .open &&
    ((proposal.still directory).length : Int) <
      max (proposal.requiredM - (proposal.votes .approve).length) 0

end Proposal

end QVault.Services
