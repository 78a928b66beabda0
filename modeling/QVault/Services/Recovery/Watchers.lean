import QVault.Services.Recovery.Run
import QVault.Services.VaultPeople

/-!
# Who watches a recovery

`watchers`, `_possibly_watched` and `banners_for` of `qvault/services/recovery_service.py`, over the
memberships and vaults of `workspace_service` and `vault_service`.
-/

namespace QVault.Recovery
open Python Workspaces

section Watchers
variable (w : Workspaces.World)

def signsIn (vault : VaultRow) (userId : Int) : Bool := vault.members.any fun m => m.userId = userId && m.role.signs

-- `signing_vault_ids`, by their rows
def signingVaults (userId : Int) : List VaultRow := w.vaults.filter fun v => signsIn v userId

def watchedWorkspaceIds (userId : Int) : List Nat :=
  (signingVaults w userId).filterMap w.homeWorkspaceId ++
    (w.members.rows.filter fun m => m.userId = userId && m.active).map (·.workspaceId)

def stillActiveIn (vault : VaultRow) (memberId : Int) : Bool :=
  match w.homeWorkspaceId vault with
  | none => true
  | some home => (w.membership home memberId).any (·.active)

def cosigners (userId : Int) : List Int :=
  (signingVaults w userId).flatMap fun v => (v.signerMembers.map (·.userId)).filter (stillActiveIn w v)

def managers (userId : Int) : List Int :=
  (w.members.rows.filter fun m => (watchedWorkspaceIds w userId).contains m.workspaceId && manages m.role && m.active).map
    (·.userId)

-- The dictionary, by what it says of each person: a manager is written last, and the person is taken out.
def watchers (userId member : Int) : Option Text :=
  if member = userId then none
  else if (managers w userId).contains member then some "manager"
  else if (cosigners w userId).contains member then some "cosigner"
  else none

/-! ## From the viewer's side -/

def managedIds (viewerId : Int) : List Nat :=
  (w.members.rows.filter fun m => m.userId = viewerId && manages m.role && m.active).map (·.workspaceId)

def managedPeople (viewerId : Int) : List Int :=
  (w.members.rows.filter fun m => (managedIds w viewerId).contains m.workspaceId).map (·.userId)

-- `_possibly_watched`
def possiblyWatched (viewerId : Int) : List Int :=
  let members := managedPeople w viewerId
  let vaults := w.vaults.filter fun v => members.contains v.ownerId || signsIn v viewerId
  members ++ vaults.flatMap fun v => v.signerMembers.map (·.userId)

end Watchers

/-! ## Banners -/

-- The tables between transactions, where `watchers` reads those of workspaces and vaults. A request's
-- `user_id` names a row of `users`.
structure Deployment where
  db : Db
  world : Workspaces.World
  requesters : ∀ r ∈ db.requests.1, (db.user? r.userId).isSome
  watch : db.watchers = watchers world
  atRest : db.held = []

-- The phone gives the banner its name, the day it was paired and the start of its key's fingerprint.
structure Banner where
  request : Request
  user : User
  completesAt : Int
  viewerAs : Text
  phone : Option Device

namespace Deployment
variable (d : Deployment)

def vouchingDevice (r : Request) : Option Device :=
  let approvals := (d.db.approvalsOf r.id).insertionSort fun a b =>
    (a.state = .used ∧ b.state ≠ .used) ∨ ((a.state = .used ↔ b.state = .used) ∧ b.id ≤ a.id)
  approvals.findSome? fun a => d.db.device? a.deviceId

def roleOf (viewerId : Int) (r : Request) : Option Text :=
  if r.userId = viewerId then some "self" else watchers d.world r.userId viewerId

def bannerRows (viewerId now : Int) : List Request :=
  (d.db.requests.1.filter fun r => r.state = .waiting && r.completesAt.any (now < ·) &&
    (r.userId = viewerId || (possiblyWatched d.world viewerId).contains r.userId)).insertionSort
    fun a b => a.completesAt.getD 0 ≤ b.completesAt.getD 0

def bannerFor (viewerId : Int) (r : Request) : Option Banner := do
  let role ← d.roleOf viewerId r
  let user ← d.db.user? r.userId
  let completesAt ← r.completesAt
  return ⟨r, user, completesAt, role, if r.route = .phone then d.vouchingDevice r else none⟩

def bannersFor (viewerId now : Int) : List Banner := (d.bannerRows viewerId now).filterMap (d.bannerFor viewerId)

end Deployment

end QVault.Recovery
