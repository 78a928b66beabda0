import QVault.Services.Workspace

/-!
# Vaults and their people

`qvault/services/vault_service.py`: vaults, who is in them and in which role, and how many approvals they
take. Each operation on a vault that exists is a guard, which reads, and a write.
-/

namespace QVault.Workspaces
open Python Services

-- `vault_policy`, which is a table of its own
structure VaultPolicy where
  vaultId : Int
  thresholdM : Int

structure Estate where
  world : World
  policies : List VaultPolicy

def Estate.empty : Estate := ⟨World.empty, []⟩

inductive VaultRefusal
  | membership (refusal : MembershipRefusal)
  | auditorCreates | thresholdBelowOne | nameHidden | notAMember | ownerRole | ownerRemoved
  | signersShort (threshold : Int) (remaining : Nat)
  | thresholdAbove (threshold : Int) (signers : Nat)
  | noSuchRow
  deriving DecidableEq

/-! ## Where a vault belongs -/

-- `owners_workspace_id`
def World.ownersWorkspaceId (w : World) (ownerId : Int) : Option Nat :=
  match w.currentWorkspace ownerId with
  | some workspaceId => some workspaceId
  | none => (byJoined (w.members.rows.filter fun m => m.userId = ownerId)).head?.map (·.workspaceId)

def World.homeWorkspaceId (w : World) (vault : VaultRow) : Option Nat := w.ownersWorkspaceId vault.ownerId

namespace VaultRow

def memberFor (vault : VaultRow) (userId : Int) : Option VaultMember :=
  vault.members.find? fun m => m.userId = userId

def signerMembers (vault : VaultRow) : List VaultMember := vault.members.filter fun m => m.role.signs

end VaultRow

def memberRoleText : MemberRole → Text
  | .owner => "owner"
  | .signer => "signer"
  | .viewer => "viewer"

namespace Estate
variable (estate : Estate)

def vault (vaultId : Int) : Option VaultRow := estate.world.vaults.find? fun v => v.id = vaultId

def thresholdOf (vaultId : Int) : Option Int :=
  (estate.policies.find? fun p => p.vaultId = vaultId).map (·.thresholdM)

def updateVault (vaultId : Int) (change : List VaultMember → List VaultMember) : Estate :=
  { estate with world := { estate.world with
      vaults := estate.world.vaults.map fun v =>
        if v.id = vaultId then { v with members := change v.members } else v } }

def updatePolicy (vaultId thresholdM : Int) : Estate :=
  { estate with policies := estate.policies.map fun (p : VaultPolicy) =>
      if p.vaultId = vaultId then { p with thresholdM } else p }

def logged (event : Text) (vaultId actorId : Int) (payload : List (Text × Json)) : Estate :=
  { estate with world := { estate.world with
      log := estate.world.log ++ [{
        eventType := event
        payload := .dict ((text "vault_id", .int vaultId) :: payload)
        actor := text "user:" ++ intText actorId
        actorId := some actorId
        vaultId := some vaultId
        refType := some "vault"
        refId := some (intText vaultId) }] } }

end Estate

/-! ## Creating a vault -/

def canCreateVaults (w : World) (userId : Int) : Bool :=
  match w.currentMembership userId with
  | none => true
  | some member => member.role ≠ .auditor

def createVault (characters : Characters) (estate : Estate) (ownerId : Int) (name kemAlg : Text) (thresholdM : Int) :
    Except VaultRefusal Estate :=
  if !canCreateVaults estate.world ownerId then .error .auditorCreates
  else if thresholdM < 1 then .error .thresholdBelowOne
  else if invisibleIn characters name then .error .nameHidden
  else
    let id := (estate.world.vaults.map (·.id)).foldl max 0 + 1
    let vaults := estate.world.vaults ++ [⟨id, ownerId, [⟨ownerId, .owner⟩]⟩]
    let created : Estate := ⟨{ estate.world with vaults }, estate.policies ++ [⟨id, thresholdM⟩]⟩
    .ok (created.logged "vault_created" id ownerId
      [("name", .str (strip name)), ("kem_alg", .str kemAlg), ("threshold_m", .int thresholdM)])

/-! ## Who is in a vault -/

-- `role not in ("signer", "viewer")`
def vaultRoleNamed (role : Text) : Option MemberRole :=
  if role = text "signer" then some .signer else if role = text "viewer" then some .viewer else none

-- What an operation writes once its guard has passed
inductive VaultWrite
  | add (user : User) (role : MemberRole)
  | changeRole (userId : Int) (previous role : MemberRole)
  | remove (userId : Int) (role : MemberRole)
  | setThreshold (previous thresholdM : Int)

-- `_guard_signer_count`
def guardSignerCount (estate : Estate) (vault : VaultRow) (losingUserId : Int) : Except VaultRefusal Unit :=
  match estate.thresholdOf vault.id with
  | none => .error .noSuchRow
  | some threshold =>
    let remaining := (vault.signerMembers.filter fun m => m.userId ≠ losingUserId).length
    if (remaining : Int) < threshold then .error (.signersShort threshold remaining) else .ok ()

def addMemberGuard (characters : Characters) (estate : Estate) (vaultId : Int) (email role : Text) :
    Except VaultRefusal (Option VaultWrite) := do
  let some role := vaultRoleNamed role | throw (.membership .badRole)
  let some vault := estate.vault vaultId | throw .noSuchRow
  let some user := estate.world.findMemberUser characters (estate.world.workspaceOfVault vault) email
    | throw (.membership .notFound)
  if (vault.memberFor user.id).isSome then throw (.membership .alreadyMember)
  else match (if role = .signer then cannotApprove estate.world vault user else none) with
    | some refusal => throw (.membership refusal)
    | none => return some (.add user role)

-- A new role that is the old one changes nothing.
def changeMemberRoleGuard (estate : Estate) (vaultId userId : Int) (role : Text) :
    Except VaultRefusal (Option VaultWrite) := do
  let some role := vaultRoleNamed role | throw (.membership .badRole)
  let some vault := estate.vault vaultId | throw .noSuchRow
  let some member := vault.memberFor userId | throw .notAMember
  if member.role = .owner then throw .ownerRole
  else if member.role = role then return none
  else if role = .viewer then do
    guardSignerCount estate vault userId
    return some (.changeRole userId member.role role)
  else
    let some user := estate.world.users.find? fun u => u.id = userId | throw .noSuchRow
    match cannotApprove estate.world vault user with
    | some refusal => throw (.membership refusal)
    | none => return some (.changeRole userId member.role role)

def removeVaultMemberGuard (estate : Estate) (vaultId userId : Int) : Except VaultRefusal (Option VaultWrite) := do
  let some vault := estate.vault vaultId | throw .noSuchRow
  let some member := vault.memberFor userId | throw .notAMember
  if member.role = .owner then throw .ownerRemoved
  else if member.role.signs then do
    guardSignerCount estate vault userId
    return some (.remove userId member.role)
  else return some (.remove userId member.role)

def setThresholdGuard (estate : Estate) (vaultId thresholdM : Int) : Except VaultRefusal (Option VaultWrite) := do
  let some vault := estate.vault vaultId | throw .noSuchRow
  let signers := vault.signerMembers.length
  if thresholdM < 1 then throw .thresholdBelowOne
  else if (signers : Int) < thresholdM then throw (.thresholdAbove thresholdM signers)
  else
    let some previous := estate.thresholdOf vaultId | throw .noSuchRow
    return if previous = thresholdM then none else some (.setThreshold previous thresholdM)

-- The rows as the write finds them: `uq_vault_member` refuses a second row, and a row to be updated that is
-- gone is an error, where one to be deleted is not.
def writeVault (estate : Estate) (vaultId actorId : Int) : VaultWrite → Except VaultRefusal Estate
  | .add user role =>
    match estate.vault vaultId with
    | none => .error .noSuchRow
    | some vault =>
      if (vault.memberFor user.id).isSome then .error (.membership .alreadyMember)
      else .ok ((estate.updateVault vaultId (· ++ [⟨user.id, role⟩])).logged "member_added" vaultId actorId
        [("user_id", .int user.id), ("email", .str user.email), ("role", .str (memberRoleText role))])
  | .changeRole userId previous role =>
    match (estate.vault vaultId).bind (·.memberFor userId) with
    | none => .error .noSuchRow
    | some _ =>
      .ok ((estate.updateVault vaultId (List.map fun m => if m.userId = userId then { m with role } else m)).logged
        "member_role_changed" vaultId actorId
        [("user_id", .int userId), ("from", .str (memberRoleText previous)), ("to", .str (memberRoleText role))])
  | .remove userId role =>
    .ok ((estate.updateVault vaultId (List.filter fun m => m.userId ≠ userId)).logged "member_removed" vaultId actorId
      [("user_id", .int userId), ("role", .str (memberRoleText role))])
  | .setThreshold previous thresholdM =>
    .ok ((estate.updatePolicy vaultId thresholdM).logged "vault_threshold_changed" vaultId actorId
      [("from", .int previous), ("to", .int thresholdM)])

inductive VaultRequest
  | addMember (email role : Text)
  | changeMemberRole (userId : Int) (role : Text)
  | removeMember (userId : Int)
  | setThreshold (thresholdM : Int)

def guardVault (characters : Characters) (estate : Estate) (vaultId : Int) :
    VaultRequest → Except VaultRefusal (Option VaultWrite)
  | .addMember email role => addMemberGuard characters estate vaultId email role
  | .changeMemberRole userId role => changeMemberRoleGuard estate vaultId userId role
  | .removeMember userId => removeVaultMemberGuard estate vaultId userId
  | .setThreshold thresholdM => setThresholdGuard estate vaultId thresholdM

-- An operation that nothing comes between
def operateVault (characters : Characters) (estate : Estate) (vaultId actorId : Int) (request : VaultRequest) :
    Except VaultRefusal Estate := do
  match ← guardVault characters estate vaultId request with
  | none => return estate
  | some write => writeVault estate vaultId actorId write

/-! ## People and vaults over time -/

-- A person who acts is an account that exists.
inductive PeopleEvent
  | signUp (email displayName workspaceName : Text)
  | registerUser (email displayName : Text)
  | registerThroughInvitation (token displayName : Text)
  | ensureDefaultWorkspace
  | createWorkspace (name : Text) (ownerId : Int)
  | joinSharedWorkspaceFrom (userId : Int)
  | acceptInvitation (token : Text) (userId : Int)
  | changeRole (workspaceId : Nat) (userId : Int) (role : Text) (actorId : Int)
  | removeMember (workspaceId : Nat) (userId actorId : Int)
  | suspendMember (workspaceId : Nat) (userId actorId : Int)
  | reinstateMember (workspaceId : Nat) (userId actorId : Int)
  | leaveWorkspace (workspaceId : Nat) (userId : Int)
  | createVault (ownerId : Int) (name kemAlg : Text) (thresholdM : Int)
  | vault (vaultId actorId : Int) (request : VaultRequest)
  | elsewhere (invitations : List Invitation) (enrolled : List Int) (now : Int)

def userNamed (w : World) (userId : Int) : Option User := w.users.find? fun u => u.id = userId

section Steps
variable (characters : Characters) (sha256 : Bytes → Bytes)

-- `auth_service.sign_up`
def signUp (w : World) (email displayName workspaceName : Text) : Except Refusal World := do
  let name ← cleanWorkspaceName characters workspaceName
  let (w, user) ← registerUser characters w email displayName false false
  createWorkspace characters w name user.id

def operateWorld (w : World) : PeopleEvent → Except Refusal World
  | .signUp email displayName workspaceName => signUp characters w email displayName workspaceName
  | .registerUser email displayName => (registerUser characters w email displayName true true).map Prod.fst
  | .registerThroughInvitation token displayName => registerThroughInvitation characters sha256 w token displayName
  | .ensureDefaultWorkspace => ensureDefaultWorkspace w
  | .createWorkspace name ownerId =>
    match userNamed w ownerId with
    | none => .error .integrity
    | some owner => createWorkspace characters w name owner.id
  | .joinSharedWorkspaceFrom userId =>
    match userNamed w userId with
    | none => .error .integrity
    | some user => joinSharedWorkspaceFrom w user.id
  | .acceptInvitation token userId =>
    match userNamed w userId with
    | none => .error .integrity
    | some user => acceptInvitation characters sha256 w token user
  | .changeRole workspaceId userId role actorId => changeRole w workspaceId userId role actorId
  | .removeMember workspaceId userId actorId => removeMember w workspaceId userId actorId
  | .suspendMember workspaceId userId actorId => suspendMember w workspaceId userId actorId
  | .reinstateMember workspaceId userId actorId => reinstateMember w workspaceId userId actorId
  | .leaveWorkspace workspaceId userId => leaveWorkspace w workspaceId userId
  | .elsewhere invitations enrolled now => .ok { w with invitations, enrolled, now }
  | .createVault _ _ _ _ | .vault _ _ _ => .ok w

def peopleStep (estate : Estate) (event : PeopleEvent) : Estate :=
  match event with
  | .createVault ownerId name kemAlg thresholdM =>
    match userNamed estate.world ownerId with
    | none => estate
    | some owner =>
      match createVault characters estate owner.id name kemAlg thresholdM with
      | .ok after => after
      | .error _ => estate
  | .vault vaultId actorId request =>
    match operateVault characters estate vaultId actorId request with
    | .ok after => after
    | .error _ => estate
  | event =>
    match operateWorld characters sha256 estate.world event with
    | .ok world => { estate with world }
    | .error _ => estate

end Steps

/-! ## Operations that others come between -/

-- An operation whose guard has passed, and which has its write to do
structure Passed where
  vaultId : Int
  actorId : Int
  write : VaultWrite

structure Contended where
  estate : Estate
  passed : List Passed

def Contended.empty : Contended := ⟨Estate.empty, []⟩

-- Somebody who comes into a vault through an invitation is added to it as any other member is.
inductive VaultMove
  | createVault (ownerId : Int) (name kemAlg : Text) (thresholdM : Int)
  | guard (vaultId actorId : Int) (request : VaultRequest)
  | write (index : Nat)
  | elsewhere (world : World)

def contend (characters : Characters) (s : Contended) : VaultMove → Contended
  | .createVault ownerId name kemAlg thresholdM =>
    match createVault characters s.estate ownerId name kemAlg thresholdM with
    | .ok estate => { s with estate }
    | .error _ => s
  | .guard vaultId actorId request =>
    match guardVault characters s.estate vaultId request with
    | .ok (some write) => { s with passed := s.passed ++ [⟨vaultId, actorId, write⟩] }
    | .ok none | .error _ => s
  | .write index =>
    match s.passed[index]? with
    | none => s
    | some operation =>
      match writeVault s.estate operation.vaultId operation.actorId operation.write with
      | .ok estate => ⟨estate, s.passed.eraseIdx index⟩
      | .error _ => { s with passed := s.passed.eraseIdx index }
  | .elsewhere world => { s with estate := { s.estate with world := { world with vaults := s.estate.world.vaults } } }

end QVault.Workspaces
