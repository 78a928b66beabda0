import QVault.Services.Decision

/-!
# Workspaces

`qvault/services/workspace_service.py`: workspaces, who belongs to them, and the ways in and out.
The people, vaults and invitations it reads are rows of the same state, which other parts of the
application also write. An operation that raises is rolled back.
-/

namespace QVault.Workspaces
open Python Services

-- What `unicodedata` and `str.lower` know of characters
structure Characters where
  category : CodePoint → Text
  lower : Text → Text

/-! ## Rows -/

structure User where
  id : Int
  email : Text
  admin : Bool
  createdAt : Int

structure Workspace where
  id : Nat
  name : Text
  slug : Text

structure Membership extends WorkspaceMember where
  id : Nat
  workspaceId : Nat
  userId : Int
  joinedAt : Int

def Membership.key (m : Membership) : Nat × Int := (m.workspaceId, m.userId)

-- `uq_workspace_member`
structure MemberTable where
  rows : List Membership
  distinct : (rows.map (·.key)).Nodup

structure Grant where
  vaultId : Int
  role : MemberRole

structure Invitation where
  id : Nat
  workspaceId : Nat
  email : Text
  role : WorkspaceRole
  grants : List Grant
  inviterId : Int
  tokenHash : Bytes
  expiresAt : Int
  acceptedAt : Option Int
  acceptedById : Option Int
  revokedAt : Option Int

structure VaultRow where
  id : Int
  ownerId : Int
  members : List VaultMember

-- `enrolled` lists the people who hold an active signing key.
structure World where
  users : List User
  workspaces : List Workspace
  members : MemberTable
  invitations : List Invitation
  vaults : List VaultRow
  enrolled : List Int
  log : List LedgerEvent
  now : Int

inductive MembershipRefusal
  | badRole | notFound | alreadyMember | notActive | auditor | noKey
  deriving DecidableEq

-- The codes of `WorkspaceError`, and the other exceptions of the operations
inductive Refusal
  | nameRequired | nameInvisible | nameTooLong | notAllowed | badRole | notAMember | lastOwner | stillInVaults
  | notYourself | alreadySuspended | notSuspended | ownerCannotLeave | hasWorkspace | unknownInvitation
  | alreadyAccepted | revoked | expired | inviterLostAccess | wrongAccount | alreadyMember | accountExists
  | auditorApprover | notVaultOwner | otherWorkspace | displayNameHidden | emailTaken | integrity
  | vaultRefused (reason : MembershipRefusal)
  deriving DecidableEq

/-! ## The table of memberships -/

namespace MemberTable

def find (table : MemberTable) (workspaceId : Nat) (userId : Int) : Option Membership :=
  table.rows.find? fun m => m.key = (workspaceId, userId)

def insert (table : MemberTable) (m : Membership) : Except Refusal MemberTable :=
  if fresh : m.key ∉ table.rows.map (·.key) then
    .ok ⟨table.rows ++ [m], by
      rw [List.map_append, List.nodup_append]
      refine ⟨table.distinct, List.nodup_singleton _, ?_⟩
      intro a listed b new same
      rw [same, List.mem_singleton.mp new] at listed
      exact fresh listed⟩
  else .error .integrity

def delete (table : MemberTable) (workspaceId : Nat) (userId : Int) : MemberTable :=
  ⟨table.rows.filter fun m => m.key ≠ (workspaceId, userId),
    table.distinct.sublist (List.filter_sublist.map _)⟩

def update (table : MemberTable) (workspaceId : Nat) (userId : Int) (change : WorkspaceMember → WorkspaceMember) :
    MemberTable :=
  ⟨table.rows.map fun m =>
      if m.key = (workspaceId, userId) then { m with toWorkspaceMember := change m.toWorkspaceMember } else m, by
    have keys : (table.rows.map fun m => if m.key = (workspaceId, userId) then
        { m with toWorkspaceMember := change m.toWorkspaceMember } else m).map (·.key) = table.rows.map (·.key) := by
      rw [List.map_map]
      apply List.map_congr_left
      intro m _
      simp only [Function.comp_apply]
      split <;> rfl
    rw [keys]
    exact table.distinct⟩

end MemberTable

/-! ## Reading -/

def nextId (ids : List Nat) : Nat := ids.foldl max 0 + 1

-- in the order people joined
def byJoined (rows : List Membership) : List Membership :=
  rows.insertionSort fun a b => a.joinedAt < b.joinedAt ∨ (a.joinedAt = b.joinedAt ∧ a.id ≤ b.id)

def defaultWorkspaceName : Text := "Q-Vault"
def defaultWorkspaceSlug : Text := "q-vault"

namespace World

def sharedWorkspace (w : World) : Option Workspace := w.workspaces.find? fun s => s.slug = defaultWorkspaceSlug

def membership (w : World) (workspaceId : Nat) (userId : Int) : Option Membership :=
  w.members.find workspaceId userId

def membersOf (w : World) (workspaceId : Nat) : List Membership :=
  w.members.rows.filter fun m => m.workspaceId = workspaceId

def currentMembership (w : World) (userId : Int) : Option Membership :=
  (byJoined (w.members.rows.filter fun m => m.userId = userId ∧ m.active)).head?

-- `current_workspace`, by its id
def currentWorkspace (w : World) (userId : Int) : Option Nat :=
  (w.currentMembership userId).map (·.workspaceId)

def workspaceOfVault (w : World) (vault : VaultRow) : Option Nat := w.currentWorkspace vault.ownerId

-- `vault_ids_of`
def vaultsIn (w : World) (workspaceId : Nat) : List VaultRow :=
  w.vaults.filter fun v =>
    (w.membersOf workspaceId).any (fun m => m.userId = v.ownerId) &&
      w.currentWorkspace v.ownerId == some workspaceId

def vaultsOf (w : World) (userId : Int) (workspaceId : Nat) : List VaultRow :=
  (w.vaultsIn workspaceId).filter fun v => v.members.any fun m => m.userId = userId

-- `find_member_user` by email
def findMemberUser (w : World) (characters : Characters) (workspaceId : Option Nat) (email : Text) : Option User :=
  match workspaceId with
  | none => none
  | some workspaceId =>
    w.users.find? fun u => u.email = characters.lower (strip email) &&
      (w.membersOf workspaceId).any fun m => m.userId = u.id && m.active

end World

-- `MANAGER_ROLES`
def manages : WorkspaceRole → Bool
  | .owner | .admin => true
  | .member | .auditor => false

def canManage : Option Membership → Bool
  | some member => member.active && manages member.role
  | none => false

-- `_RANK`
def rank : WorkspaceRole → Nat
  | .owner => 3
  | .admin => 2
  | .member | .auditor => 1

-- `role not in WORKSPACE_ROLES`
def roleNamed (role : Text) : Option WorkspaceRole :=
  if role = text "owner" then some .owner
  else if role = text "admin" then some .admin
  else if role = text "member" then some .member
  else if role = text "auditor" then some .auditor
  else none

def roleText : WorkspaceRole → Text
  | .owner => "owner"
  | .admin => "admin"
  | .member => "member"
  | .auditor => "auditor"

def Invitation.state (invitation : Invitation) (now : Int) : Option Refusal :=
  if invitation.acceptedAt.isSome then some .alreadyAccepted
  else if invitation.revokedAt.isSome then some .revoked
  else if invitation.expiresAt ≤ now then some .expired
  else none

/-! ## Names -/

section Names
variable (characters : Characters)

-- `_BLANK`
def blankCharacter (c : CodePoint) : Bool :=
  [0x034F, 0x115F, 0x1160, 0x180B, 0x180C, 0x180D, 0x180F, 0x2800, 0x3164, 0xFFA0].contains c.val ||
    (0xFE00 ≤ c.val && c.val < 0xFE0E) || (0xE0100 ≤ c.val && c.val < 0xE01F0)

def drawnNothing (c : CodePoint) : Bool :=
  ([text "Cf", text "Co", text "Cs", text "Cc", text "Zl", text "Zp", text "Cn"]).contains (characters.category c) ||
    blankCharacter c

-- The loop of `invisible_in`; `run` counts the combining marks before this character.
def invisibleAfter : Nat → Text → Bool
  | _, [] => false
  | run, c :: rest =>
    if drawnNothing characters c then true
    else
      let run := if [text "Mn", text "Me"].contains (characters.category c) then run + 1 else 0
      if 4 < run then true else invisibleAfter run rest

def invisibleIn (t : Text) : Bool := invisibleAfter characters 0 t

def cleanWorkspaceName (name : Text) : Except Refusal Text :=
  let name := strip name
  if name = [] then .error .nameRequired
  else if invisibleIn characters name then .error .nameInvisible
  else if 120 < name.length then .error .nameTooLong
  else .ok name

def isSlugCharacter (c : CodePoint) : Bool := (97 ≤ c.val && c.val ≤ 122) || (48 ≤ c.val && c.val ≤ 57)

-- `re.sub(r"[^a-z0-9]+", "-", ...)`; `inside` says that the run of other characters has begun.
def hyphenate : Bool → Text → Text
  | _, [] => []
  | inside, c :: rest =>
    if isSlugCharacter c then c :: hyphenate false rest
    else if inside then hyphenate true rest
    else codePoint '-' :: hyphenate true rest

def stripHyphens (t : Text) : Text :=
  ((t.dropWhile (· == codePoint '-')).reverse.dropWhile (· == codePoint '-')).reverse

def slugBase (name : Text) : Text :=
  let base := (stripHyphens (hyphenate false (characters.lower name))).take 56
  if base = [] then "workspace" else base

def slugTaken (w : World) (slug : Text) : Bool :=
  slug == defaultWorkspaceSlug || w.workspaces.any fun s => s.slug = slug

-- The loop of `_slug_for`: of more slugs than there are workspaces, one is free.
def slugFrom (w : World) (base : Text) : Nat → Nat → Text → Text
  | 0, _, slug => slug
  | fuel + 1, n, slug =>
    if slugTaken w slug then slugFrom w base fuel (n + 1) (base ++ text "-" ++ natText (n + 1)) else slug

def slugFor (w : World) (name : Text) : Text :=
  let base := slugBase characters name
  slugFrom w base (w.workspaces.length + 2) 1 base

end Names

/-! ## Writing -/

namespace World

def addWorkspace (w : World) (name slug : Text) : World × Nat :=
  let id := nextId (w.workspaces.map (·.id))
  ({ w with workspaces := w.workspaces ++ [⟨id, name, slug⟩] }, id)

def join (w : World) (workspaceId : Nat) (userId : Int) (role : WorkspaceRole) (joinedAt : Int) :
    Except Refusal World := do
  let members ← w.members.insert
    { role, active := true, id := nextId (w.members.rows.map (·.id)), workspaceId, userId, joinedAt }
  return { w with members }

def leave (w : World) (workspaceId : Nat) (userId : Int) : World :=
  { w with members := w.members.delete workspaceId userId }

def change (w : World) (workspaceId : Nat) (userId : Int) (change : WorkspaceMember → WorkspaceMember) : World :=
  { w with members := w.members.update workspaceId userId change }

def markAccepted (w : World) (invitation : Invitation) (userId : Int) : World :=
  { w with invitations := w.invitations.map fun (i : Invitation) =>
      if i.id = invitation.id then { i with acceptedAt := some w.now, acceptedById := some userId } else i }

-- `_log`
def logged (w : World) (event : Text) (workspaceId : Nat) (actorId : Int) (payload : List (Text × Json)) : World :=
  { w with log := w.log ++ [{
      eventType := event
      payload := .dict ((text "workspace_id", .int workspaceId) :: payload)
      actor := text "user:" ++ intText actorId
      actorId := some actorId
      vaultId := none
      refType := some "workspace"
      refId := some (natText workspaceId) }] }

end World

/-! ## Everyone belongs to a workspace -/

def ensureDefaultWorkspace (w : World) : Except Refusal World :=
  if !w.workspaces.isEmpty then .ok w
  else
    let users := w.users.insertionSort fun a b => a.createdAt < b.createdAt ∨ (a.createdAt = b.createdAt ∧ a.id ≤ b.id)
    match (users.filter (·.admin) ++ users).head? with
    | none => .ok w
    | some owner =>
      let (w, workspaceId) := w.addWorkspace defaultWorkspaceName defaultWorkspaceSlug
      users.foldlM (fun w user =>
        w.join workspaceId user.id (if user.id = owner.id then .owner else .member) user.createdAt) w

def joinSharedWorkspace (w : World) (userId : Int) : Except Refusal World :=
  match w.sharedWorkspace with
  | none =>
    let (w, workspaceId) := w.addWorkspace defaultWorkspaceName defaultWorkspaceSlug
    w.join workspaceId userId .owner w.now
  | some workspace => w.join workspace.id userId .member w.now

def createWorkspace (characters : Characters) (w : World) (name : Text) (ownerId : Int) : Except Refusal World := do
  let name ← cleanWorkspaceName characters name
  let (w, workspaceId) := w.addWorkspace name (slugFor characters w name)
  let w ← w.join workspaceId ownerId .owner w.now
  return w.logged "workspace_created" workspaceId ownerId [("name", .str name)]

/-! ## One workspace per person -/

def isVacantFor (w : World) (workspaceId : Nat) (userId : Int) : Bool :=
  !(w.membersOf workspaceId).any (fun m => m.userId ≠ userId) &&
    !w.vaults.any (fun v => v.ownerId = userId || v.members.any fun m => m.userId = userId) &&
    !w.invitations.any (fun i => i.workspaceId = workspaceId && (i.state w.now).isNone)

def workspaceToLeave (w : World) (userId : Int) (joining : Nat) : Option (Membership × Bool) :=
  match byJoined (w.members.rows.filter fun m => m.userId = userId ∧ m.workspaceId ≠ joining) with
  | [] => none
  | first :: rest => some (first, rest.isEmpty && isVacantFor w first.workspaceId userId)

def makeRoomToJoin (w : World) (userId : Int) (joining : Nat) : Except Refusal World :=
  match workspaceToLeave w userId joining with
  | none => .ok w
  | some (member, vacant) =>
    if !vacant then .error .hasWorkspace
    else .ok ((w.leave member.workspaceId userId).logged "workspace_member_left" member.workspaceId userId
      [("user_id", .int userId), ("role", .str (roleText member.role)), ("moved_to", .int joining)])

def joinSharedWorkspaceFrom (w : World) (userId : Int) : Except Refusal World := do
  let (w, shared, member) := match w.sharedWorkspace with
    | some workspace => (w, workspace.id, (w.membership workspace.id userId).isSome)
    | none =>
      let (w, workspaceId) := w.addWorkspace defaultWorkspaceName defaultWorkspaceSlug
      (w, workspaceId, false)
  if member then return w
  else
    let w ← makeRoomToJoin w userId shared
    let owners := (w.membersOf shared).countP fun m => m.role = .owner
    w.join shared userId (if owners ≠ 0 then .member else .owner) w.now

/-! ## Invitations -/

section Invitations
variable (characters : Characters) (sha256 : Bytes → Bytes)

-- `base64.urlsafe_b64decode` reads these two characters for `+` and `/`.
def fromUrlsafe (c : CodePoint) : CodePoint :=
  if c = codePoint '-' then codePoint '+' else if c = codePoint '_' then codePoint '/' else c

def tokenDigest (token : Text) : Option Bytes :=
  if token.length ≠ 43 then none
  else match b64decode false ((token ++ [base64Pad]).map fromUrlsafe) with
    | .error _ => none
    | .ok raw =>
      if raw.length = 32 then some (sha256 (asciiBytes "QVAULT-INVITATION-TOKEN-v1|" ++ raw)) else none

def inviterStillEntitled (invitation : Invitation) (inviter : Option Membership) : Bool :=
  match inviter with
  | some member => canManage (some member) && rank invitation.role ≤ rank member.role
  | none => false

-- `_usable`
def usable (w : World) (token : Text) : Except Refusal Invitation := do
  let some invitation := (tokenDigest sha256 token).bind fun digest =>
    w.invitations.find? fun i => i.tokenHash = digest | throw .unknownInvitation
  match invitation.state w.now with
  | some refusal => throw refusal
  | none =>
    if !inviterStillEntitled invitation (w.membership invitation.workspaceId invitation.inviterId) then
      throw .inviterLostAccess
    else return invitation

def checkGrant (w : World) (workspaceId : Nat) (inviterId : Int) (grant : Grant) : Except Refusal VaultRow := do
  let some vault := w.vaults.find? fun v => v.id = grant.vaultId | throw .notVaultOwner
  if vault.ownerId ≠ inviterId then throw .notVaultOwner
  else if w.workspaceOfVault vault ≠ some workspaceId then throw .otherWorkspace
  else return vault

def checkGrants (w : World) (workspaceId : Nat) (inviterId : Int) (grants : List Grant) (role : WorkspaceRole) :
    Except Refusal (List VaultRow) :=
  if role = .auditor ∧ grants.any (fun g => g.role = .signer) then .error .auditorApprover
  else grants.mapM (checkGrant w workspaceId inviterId)

-- `_require_can_approve`
def cannotApprove (w : World) (vault : VaultRow) (user : User) : Option MembershipRefusal :=
  match (w.workspaceOfVault vault).bind fun workspaceId => w.membership workspaceId user.id with
  | none => some .notActive
  | some member =>
    if !member.active then some .notActive
    else if member.role = .auditor then some .auditor
    else if user.id ∉ w.enrolled then some .noKey
    else none

-- `vault_service.add_member`
def addVaultMember (w : World) (vault : VaultRow) (email : Text) (role : MemberRole) (actorId : Int)
    (invitationId : Nat) : Except MembershipRefusal World := do
  if role = .owner then throw .badRole
  else
    let some user := w.findMemberUser characters (w.workspaceOfVault vault) email | throw .notFound
    if vault.members.any fun m => m.userId = user.id then throw .alreadyMember
    else match (if role = .signer then cannotApprove w vault user else none) with
      | some refusal => throw refusal
      | none =>
        return { w with
          vaults := w.vaults.map fun v =>
            if v.id = vault.id then { v with members := v.members ++ [⟨user.id, role⟩] } else v
          log := w.log ++ [{
            eventType := "member_added"
            payload := .dict [("vault_id", .int vault.id), ("user_id", .int user.id), ("email", .str user.email),
              ("role", .str (if role = .signer then "signer" else "viewer")), ("invitation_id", .int invitationId)]
            actor := text "user:" ++ intText actorId
            actorId := some actorId
            vaultId := some vault.id
            refType := some "vault"
            refId := some (intText vault.id) }] }

-- `_accept`
def accept (w : World) (invitation : Invitation) (user : User) : Except Refusal World := do
  if user.email ≠ invitation.email then throw .wrongAccount
  else if (w.membership invitation.workspaceId user.id).isSome then throw .alreadyMember
  else
    let w ← makeRoomToJoin w user.id invitation.workspaceId
    let w ← w.join invitation.workspaceId user.id invitation.role w.now
    let w := w.markAccepted invitation user.id
    let w := w.logged "invitation_accepted" invitation.workspaceId user.id
      [("invitation_id", .int invitation.id), ("user_id", .int user.id), ("email", .str user.email),
        ("role", .str (roleText invitation.role))]
    let vaults ← checkGrants w invitation.workspaceId invitation.inviterId invitation.grants invitation.role
    vaults.foldlM (fun w vault =>
      if vault.members.any fun m => m.userId = user.id then .ok w
      else
        let role := ((invitation.grants.find? fun g => g.vaultId = vault.id).map (·.role)).getD .viewer
        (addVaultMember characters w vault user.email role invitation.inviterId invitation.id).mapError .vaultRefused) w

def acceptInvitation (w : World) (token : Text) (user : User) : Except Refusal World := do
  let invitation ← usable sha256 w token
  accept characters w invitation user

-- `auth_service.register_user`, with the new account's key
def registerUser (w : World) (email displayName : Text) (place bootstrapAdmin : Bool) :
    Except Refusal (World × User) := do
  let email := characters.lower (strip email)
  if invisibleIn characters displayName then throw .displayNameHidden
  else if w.users.any fun u => u.email = email then throw .emailTaken
  else
    let user : User :=
      { id := (w.users.map (·.id)).foldl max 0 + 1, email, admin := bootstrapAdmin && w.users.isEmpty,
        createdAt := w.now }
    let w := { w with
      users := w.users ++ [user]
      enrolled := w.enrolled ++ [user.id] }
    let w ← if place then joinSharedWorkspace w user.id else .ok w
    return (w, user)

def registerThroughInvitation (w : World) (token displayName : Text) : Except Refusal World := do
  let invitation ← usable sha256 w token
  if w.users.any fun u => u.email = invitation.email then throw .accountExists
  else
    let (w, user) ← (registerUser characters w invitation.email displayName false false).mapError fun refusal =>
      if refusal = .emailTaken then .accountExists else refusal
    accept characters w invitation user

end Invitations

/-! ## Roles and removal -/

def requireManager (w : World) (workspaceId : Nat) (actorId : Int) : Except Refusal Membership :=
  match w.membership workspaceId actorId with
  | some member => if canManage (some member) then .ok member else .error .notAllowed
  | none => .error .notAllowed

def requireMember (w : World) (workspaceId : Nat) (userId : Int) : Except Refusal Membership :=
  match w.membership workspaceId userId with
  | some member => .ok member
  | none => .error .notAMember

def requireRank (actor : Membership) (role : WorkspaceRole) : Except Refusal Unit :=
  if rank actor.role < rank role then .error .notAllowed else .ok ()

def activeOwner (m : Membership) : Bool := m.role = .owner ∧ m.active

def guardLastOwner (w : World) (workspaceId : Nat) (member : Membership) : Except Refusal Unit :=
  if member.role ≠ .owner ∨ !member.active then .ok ()
  else if (w.membersOf workspaceId).countP activeOwner ≤ 1 then .error .lastOwner
  else .ok ()

def changeRole (w : World) (workspaceId : Nat) (userId : Int) (role : Text) (actorId : Int) : Except Refusal World := do
  match roleNamed role with
  | none => throw .badRole
  | some role =>
    let actor ← requireManager w workspaceId actorId
    let member ← requireMember w workspaceId userId
    if member.role = role then return w
    else
      requireRank actor member.role
      requireRank actor role
      guardLastOwner w workspaceId member
      return (w.change workspaceId userId fun m => { m with role }).logged "workspace_role_changed" workspaceId actorId
        [("user_id", .int userId), ("from", .str (roleText member.role)), ("to", .str (roleText role))]

def removeMember (w : World) (workspaceId : Nat) (userId actorId : Int) : Except Refusal World := do
  let actor ← requireManager w workspaceId actorId
  let member ← requireMember w workspaceId userId
  requireRank actor member.role
  guardLastOwner w workspaceId member
  if !(w.vaultsOf userId workspaceId).isEmpty then throw .stillInVaults
  else
    return (w.leave workspaceId userId).logged "workspace_member_removed" workspaceId actorId
      [("user_id", .int userId), ("role", .str (roleText member.role))]

def suspendMember (w : World) (workspaceId : Nat) (userId actorId : Int) : Except Refusal World := do
  let actor ← requireManager w workspaceId actorId
  let member ← requireMember w workspaceId userId
  if member.userId = actorId then throw .notYourself
  else if !member.active then throw .alreadySuspended
  else
    requireRank actor member.role
    guardLastOwner w workspaceId member
    return (w.change workspaceId userId fun m => { m with active := false }).logged "workspace_member_suspended"
      workspaceId actorId [("user_id", .int userId), ("role", .str (roleText member.role))]

def reinstateMember (w : World) (workspaceId : Nat) (userId actorId : Int) : Except Refusal World := do
  let actor ← requireManager w workspaceId actorId
  let member ← requireMember w workspaceId userId
  if member.active then throw .notSuspended
  else
    requireRank actor member.role
    return (w.change workspaceId userId fun m => { m with active := true }).logged "workspace_member_reinstated"
      workspaceId actorId [("user_id", .int userId), ("role", .str (roleText member.role))]

def leaveWorkspace (w : World) (workspaceId : Nat) (userId : Int) : Except Refusal World := do
  let member ← requireMember w workspaceId userId
  if member.role = .owner then throw .ownerCannotLeave
  else if !(w.vaultsOf userId workspaceId).isEmpty then throw .stillInVaults
  else
    return (w.leave workspaceId userId).logged "workspace_member_left" workspaceId userId
      [("user_id", .int userId), ("role", .str (roleText member.role))]

/-! ## Runs -/

-- What the rest of the application changes: accounts, keys, vaults, open invitations and the clock
structure Elsewhere where
  users : List User
  invitations : List Invitation
  vaults : List VaultRow
  enrolled : List Int
  now : Int

inductive Event
  | createWorkspace (name : Text) (ownerId : Int)
  | ensureDefaultWorkspace
  | registerUser (email displayName : Text)
  | joinSharedWorkspace (userId : Int)
  | joinSharedWorkspaceFrom (userId : Int)
  | acceptInvitation (token : Text) (user : User)
  | registerThroughInvitation (token displayName : Text)
  | changeRole (workspaceId : Nat) (userId : Int) (role : Text) (actorId : Int)
  | removeMember (workspaceId : Nat) (userId actorId : Int)
  | suspendMember (workspaceId : Nat) (userId actorId : Int)
  | reinstateMember (workspaceId : Nat) (userId actorId : Int)
  | leaveWorkspace (workspaceId : Nat) (userId : Int)
  | elsewhere (rows : Elsewhere)

section Steps
variable (characters : Characters) (sha256 : Bytes → Bytes)

def operate (w : World) : Event → Except Refusal World
  | .createWorkspace name ownerId => createWorkspace characters w name ownerId
  | .ensureDefaultWorkspace => ensureDefaultWorkspace w
  | .registerUser email displayName => (registerUser characters w email displayName true true).map Prod.fst
  | .joinSharedWorkspace userId => joinSharedWorkspace w userId
  | .joinSharedWorkspaceFrom userId => joinSharedWorkspaceFrom w userId
  | .acceptInvitation token user => acceptInvitation characters sha256 w token user
  | .registerThroughInvitation token displayName => registerThroughInvitation characters sha256 w token displayName
  | .changeRole workspaceId userId role actorId => changeRole w workspaceId userId role actorId
  | .removeMember workspaceId userId actorId => removeMember w workspaceId userId actorId
  | .suspendMember workspaceId userId actorId => suspendMember w workspaceId userId actorId
  | .reinstateMember workspaceId userId actorId => reinstateMember w workspaceId userId actorId
  | .leaveWorkspace workspaceId userId => leaveWorkspace w workspaceId userId
  | .elsewhere rows => .ok { w with
      users := rows.users
      invitations := rows.invitations
      vaults := rows.vaults
      enrolled := rows.enrolled
      now := rows.now }

def step (w : World) (event : Event) : World :=
  match operate characters sha256 w event with
  | .ok after => after
  | .error _ => w

end Steps

def World.empty : World := ⟨[], [], ⟨[], List.nodup_nil⟩, [], [], [], [], 0⟩

end QVault.Workspaces
