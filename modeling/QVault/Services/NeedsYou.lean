import QVault.Services.Inbox
import QVault.Services.VaultPeople

/-!
# Whom the lists ask

The needs-you set and the rows of `qvault/services/inbox_service.py`, and what of `eligibility` and
`workspace_service` they read, over the tables themselves.
-/

namespace QVault.Services
open Python Workspaces

-- The tables, with `uq_vault_member`. A vault always has a policy; its rule may have no row.
structure Database where
  world : World
  vaultKeys : (world.vaults.map (·.id)).Nodup
  vaultMembers : ∀ v ∈ world.vaults, (v.members.map (·.userId)).Nodup
  threshold : Int → Int
  positive : ∀ vaultId, 1 ≤ threshold vaultId
  rule : Int → Option Bool
  proposals : List Proposal
  proposalKeys : (proposals.map (·.id)).Nodup

/-! ## Standing -/

section Standing
variable (w : World)

def signingStanding (vault : VaultRow) (userId : Int) : Option Standing :=
  match w.homeWorkspaceId vault with
  | none => if w.workspaces.isEmpty then none else some .unconfirmed
  | some workspaceId => membershipStanding ((w.membership workspaceId userId).map (·.toWorkspaceMember))

def inGoodStanding (vault : VaultRow) (ids : List Int) : List Int :=
  match w.homeWorkspaceId vault with
  | none => if w.workspaces.isEmpty then ids else []
  | some workspaceId =>
    (w.members.rows.filter fun m =>
      m.workspaceId = workspaceId && ids.contains m.userId && m.active && m.role ≠ .auditor).map (·.userId)

def currentSignerIds (vault : VaultRow) : List Int := inGoodStanding w vault (vault.signerMembers.map (·.userId))

def standingWorkspaceIds (userId : Int) : List Nat :=
  (w.members.rows.filter fun m => m.userId = userId && m.active && m.role ≠ .auditor).map (·.workspaceId)

def signsIn (vault : VaultRow) (userId : Int) : Bool := vault.members.any fun m => m.userId = userId && m.role.signs

-- A query for each owner, not for each vault
def signingVaultIds (userId : Int) : List Int :=
  let rows := w.vaults.filter fun v => signsIn v userId
  let good := standingWorkspaceIds w userId
  let noWorkspaces := rows.any (fun v => (w.ownersWorkspaceId v.ownerId).isNone) && w.workspaces.isEmpty
  (rows.filter fun v =>
    match w.ownersWorkspaceId v.ownerId with
    | some home => good.contains home
    | none => noWorkspaces).map (·.id)

end Standing

/-! ## Who can still sign -/

def requesterMayApprove (p : Proposal) (allows : Bool) : Bool :=
  if p.status = .open then p.frozenRule && allows else p.frozenRule

def ownDecisionBlocked (p : Proposal) (allows : Bool) (userId : Int) : Bool :=
  p.creatorId = userId && !requesterMayApprove p allows

def eligibleIds (p : Proposal) (current : List Int) (allows : Bool) : List Int :=
  p.authorizedSigners.dedup.filter fun id => current.contains id && (requesterMayApprove p allows || id != p.creatorId)

structure Outlook where
  still : List Int
  needed : Int

def Outlook.reachable (outlook : Outlook) : Bool := outlook.needed ≤ outlook.still.length

def outlook (p : Proposal) (approvals : Nat) (voted eligible : List Int) : Outlook where
  still := eligible.filter fun id => !voted.contains id
  needed := max (p.requiredM - approvals) 0

namespace Database
variable (db : Database)

def vaultRow (vaultId : Int) : Option VaultRow := db.world.vaults.find? fun v => v.id = vaultId

def allowsRequester (vaultId : Int) : Bool := (db.rule vaultId).getD true

def signersNow (vaultId : Int) : List Int := (db.vaultRow vaultId).elim [] (currentSignerIds db.world)

-- `cannot_pass`, with the vault's signers and rule as they are now
def cannotPass (p : Proposal) : Bool :=
  p.status = .open && !(outlook p (p.votes .approve).length (p.signatures.map (·.signerId))
    (eligibleIds p (db.signersNow p.vaultId) (db.allowsRequester p.vaultId))).reachable

/-! ## The lists -/

-- `_live_open`
def liveOpen (p : Proposal) (now : Int) : Bool :=
  p.status = .open && (p.expiresAt.all fun deadline => now < deadline)

-- `_snapshot_authorised_ids`
def snapshotAuthorisedIds (userId now : Int) : List Nat :=
  let vaults := signingVaultIds db.world userId
  let candidates := db.proposals.filter fun p => vaults.contains p.vaultId && liveOpen p now && !p.hasVoted userId
  let ids := candidates.filter fun p => p.authorizedSigners.contains userId &&
    !(p.creatorId = userId && ownDecisionBlocked p (db.allowsRequester p.vaultId) userId)
  (ids.filter fun p => !db.cannotPass p).map (·.id)

-- What the vote gate reads of the tables
def directory : Directory where
  vault vaultId :=
    match found : db.vaultRow vaultId with
    | some v => ⟨v.members, db.vaultMembers v (List.mem_of_find?_eq_some found), db.threshold vaultId,
        db.positive vaultId, db.rule vaultId, (db.world.homeWorkspaceId v).map Int.ofNat⟩
    | none => ⟨[], List.nodup_nil, db.threshold vaultId, db.positive vaultId, db.rule vaultId, none⟩
  membership workspaceId userId := (db.world.membership workspaceId.toNat userId).map (·.toWorkspaceMember)
  anyWorkspace := !db.world.workspaces.isEmpty

-- `needs_me` of a row that `decorate` makes
def needsMe (p : Proposal) (userId : Int) (signerVaults : List Int) (now : Int) : Bool :=
  let signedIds := p.signatures.map (·.signerId)
  let authorised := p.authorizedSigners.contains userId &&
    !ownDecisionBlocked p (db.allowsRequester p.vaultId) userId
  let outlook := outlook p (p.votes .approve).length signedIds
    (eligibleIds p (db.signersNow p.vaultId) (db.allowsRequester p.vaultId))
  effectiveStatus db.directory p now = .open && authorised && signerVaults.contains p.vaultId &&
    !signedIds.contains userId && outlook.reachable

-- Whether `_authorize_vote` takes an approval with no reason: past its deadline a decision closes first.
def approvalAccepted (p : Proposal) (userId : Int) (clock : Clock) : Bool :=
  !pastDeadline p clock && (gateRefusal db.directory p userId .approve .null).isNone

end Database

end QVault.Services
