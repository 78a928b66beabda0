import QVault.Services.NeedsYou

/-!
# Why a decision's approvers fall short

`shortfall` of `qvault/services/eligibility.py`, over the tables.
-/

namespace QVault.Services
open Python Workspaces

-- `voted.get(uid)`, where a later vote of the same person would take an earlier one's place
def votedAs (p : Proposal) (userId : Int) : Option Vote :=
  (p.signatures.reverse.find? fun s => s.signerId = userId).map (·.decision)

-- What stops somebody who hasn't approved a decision and can't now
inductive Stop
  | removed | demoted | requester | auditor | suspended
  deriving DecidableEq

structure Shortfall where
  demoted : List Int
  removed : List Int
  suspended : List Int
  auditors : List Int
  requester : Option Int
  rejected : List Int

namespace Database
variable (db : Database) (p : Proposal)

def eligibleNow : List Int := eligibleIds p (db.signersNow p.vaultId) (db.allowsRequester p.vaultId)

def storedOutlook : Outlook := outlook p (p.votes .approve).length (p.signatures.map (·.signerId)) (db.eligibleNow p)

def isAuditor (userId : Int) : Bool :=
  ((db.vaultRow p.vaultId).bind db.world.homeWorkspaceId).any fun workspaceId =>
    (db.world.membership workspaceId userId).any fun member => member.active && member.role = .auditor

def stopOf (userId : Int) : Stop :=
  match (db.vaultRow p.vaultId).bind fun vault => vault.memberFor userId with
  | none => .removed
  | some member =>
    if !member.role.signs then .demoted
    else if userId = p.creatorId ∧ !requesterMayApprove p (db.allowsRequester p.vaultId) then .requester
    else if db.isAuditor p userId then .auditor
    else .suspended

-- Everyone in the frozen set whom the loop of `shortfall` does not pass over
def stopped : List Int :=
  (p.authorizedSigners.dedup.insertionSort (· ≤ ·)).filter fun id =>
    !(votedAs p id = some .approve || (db.eligibleNow p).contains id)

def stoppedBy (stop : Stop) : List Int := (db.stopped p).filter fun id => db.stopOf p id = stop

def shortfall : Shortfall where
  demoted := db.stoppedBy p .demoted
  removed := db.stoppedBy p .removed
  suspended := db.stoppedBy p .suspended
  auditors := db.stoppedBy p .auditor
  requester := (db.stoppedBy p .requester).getLast?
  rejected := ((db.eligibleNow p).filter fun id => votedAs p id = some .reject).insertionSort (· ≤ ·)

end Database

end QVault.Services
