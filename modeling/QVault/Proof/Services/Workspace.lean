import QVault.Services.Workspace
import QVault.Lib.Groups
import QVault.Lib.Results
import QVault.Lib.Runs

/-!
# A workspace with people in it has an owner

Every operation but one leaves an active owner in each workspace that has members. The one puts a
person into the shared workspace as a plain member, although the last owner may have moved out of it.
-/

namespace QVault.Proof.Workspaces
open QVault.Python QVault.Services QVault.Workspaces Groups Results Runs

def Leads (m : Membership) : Prop := m.role = .owner ∧ m.active = true

def Owned (w : World) : Prop := Led (·.workspaceId) Leads w.members.rows

abbrev Staffed (w : World) (workspaceId : Nat) : Prop := HasLeader (·.workspaceId) Leads w.members.rows workspaceId

variable {w after : World} {workspaceId : Nat} {userId actorId : Int} {member : Membership}

/-! ## Rows -/

theorem membership_some (found : w.membership workspaceId userId = some member) :
    member ∈ w.members.rows ∧ member.workspaceId = workspaceId ∧ member.userId = userId := by
  have key := List.find?_some found
  simp only [Membership.key, decide_eq_true_eq, Prod.mk.injEq] at key
  exact ⟨List.mem_of_find?_eq_some found, key⟩

theorem row_unique {m m' : Membership} (listed : m ∈ w.members.rows) (listed' : m' ∈ w.members.rows)
    (same : m.key = m'.key) : m = m' :=
  List.inj_on_of_nodup_map w.members.distinct listed listed' same

theorem join_ok {role : WorkspaceRole} {joinedAt : Int} (joined : w.join workspaceId userId role joinedAt = .ok after) :
    ∃ m : Membership, after = { w with members := after.members } ∧ after.members.rows = w.members.rows ++ [m] ∧
      m.workspaceId = workspaceId ∧ m.userId = userId ∧ m.role = role ∧ m.active = true := by
  obtain ⟨members, inserted, made⟩ := bind_eq_ok.mp joined
  unfold MemberTable.insert at inserted
  split at inserted
  · cases inserted
    cases made
    exact ⟨_, rfl, rfl, rfl, rfl, rfl, rfl⟩
  · cases inserted

theorem join_owner {joinedAt : Int} (owned : Owned w) (joined : w.join workspaceId userId .owner joinedAt = .ok after) :
    Owned after := by
  obtain ⟨m, _, rows, _, _, role, active⟩ := join_ok joined
  unfold Owned
  rw [rows]
  exact owned.append_leader ⟨role, active⟩

theorem join_staffed {role : WorkspaceRole} {joinedAt : Int} (owned : Owned w) (staffed : Staffed w workspaceId)
    (joined : w.join workspaceId userId role joinedAt = .ok after) : Owned after := by
  obtain ⟨m, _, rows, here, _, _, _⟩ := join_ok joined
  unfold Owned
  rw [rows]
  exact owned.append_follower (here ▸ staffed)

theorem mem_leave {m : Membership} :
    m ∈ (w.leave workspaceId userId).members.rows ↔ m ∈ w.members.rows ∧ m.key ≠ (workspaceId, userId) := by
  simp [World.leave, MemberTable.delete]

/-! ## The last owner -/

theorem two_differ {rows : List Membership} (distinct : (rows.map (·.key)).Nodup) (two : 1 < rows.length)
    (key : Nat × Int) : ∃ m ∈ rows, m.key ≠ key := by
  obtain ⟨a, b, rest, rfl⟩ : ∃ a b rest, rows = a :: b :: rest := by
    cases rows with
    | nil => simp at two
    | cons a rest =>
      cases rest with
      | nil => simp at two
      | cons b rest => exact ⟨a, b, rest, rfl⟩
  have different : a.key ≠ b.key := by
    intro same
    simp [same] at distinct
  by_cases first : a.key = key
  · exact ⟨b, by simp, fun second => different (first.trans second.symm)⟩
  · exact ⟨a, by simp, first⟩

-- The guard leaves the workspace an owner other than the member it is asked about.
theorem guardLastOwner_ok (owned : Owned w) (found : w.membership workspaceId userId = some member)
    (guarded : guardLastOwner w workspaceId member = .ok ()) :
    ∃ l ∈ w.members.rows, l.workspaceId = workspaceId ∧ Leads l ∧ l.key ≠ (workspaceId, userId) := by
  obtain ⟨listed, here, who⟩ := membership_some found
  have memberKey : member.key = (workspaceId, userId) := Prod.ext here who
  unfold guardLastOwner at guarded
  split at guarded
  · next plain =>
    obtain ⟨l, among, sameGroup, leading⟩ := owned member listed
    refine ⟨l, among, sameGroup.trans here, leading, ?_⟩
    intro same
    rw [row_unique among listed (same.trans memberKey.symm)] at leading
    rcases plain with other | suspended
    · exact other leading.1
    · simp [leading.2] at suspended
  · split at guarded
    · cases guarded
    · next many =>
      have owners := (w.members.distinct.sublist
        ((List.filter_sublist (p := activeOwner)).trans (List.filter_sublist (p := fun m => m.workspaceId = workspaceId))
          |>.map (·.key)))
      rw [World.membersOf, List.countP_eq_length_filter] at many
      obtain ⟨l, among, other⟩ := two_differ owners (by omega) (workspaceId, userId)
      simp only [List.mem_filter, decide_eq_true_eq, activeOwner] at among
      exact ⟨l, among.1.1, among.1.2, among.2, other⟩

theorem leave_guarded (owned : Owned w)
    (remaining : ∃ l ∈ w.members.rows, l.workspaceId = workspaceId ∧ Leads l ∧ l.key ≠ (workspaceId, userId)) :
    Owned (w.leave workspaceId userId) := by
  apply Led.touch owned (g := workspaceId)
  · intro m other
    rw [mem_leave]
    refine and_iff_left ?_
    intro same
    exact other (congrArg Prod.fst same)
  · intro _ _ _
    obtain ⟨l, among, here, leading, kept⟩ := remaining
    exact ⟨l, mem_leave.mpr ⟨among, kept⟩, here, leading⟩

theorem leave_vacant (owned : Owned w) (alone : ∀ m ∈ w.members.rows, m.workspaceId = workspaceId → m.userId = userId) :
    Owned (w.leave workspaceId userId) := by
  apply Led.touch owned (g := workspaceId)
  · intro m other
    rw [mem_leave]
    refine and_iff_left ?_
    intro same
    exact other (congrArg Prod.fst same)
  · intro m listed here
    obtain ⟨there, kept⟩ := mem_leave.mp listed
    exact absurd (Prod.ext here (alone m there here)) kept

theorem change_guarded {edit : WorkspaceMember → WorkspaceMember} (owned : Owned w)
    (remaining : ∃ l ∈ w.members.rows, l.workspaceId = workspaceId ∧ Leads l ∧ l.key ≠ (workspaceId, userId)) :
    Owned (w.change workspaceId userId edit) := by
  have untouched : ∀ m : Membership, m.key ≠ (workspaceId, userId) →
      (m ∈ (w.change workspaceId userId edit).members.rows ↔ m ∈ w.members.rows) := by
    intro m other
    simp only [World.change, MemberTable.update, List.mem_map]
    constructor
    · rintro ⟨m', listed, same⟩
      split at same
      · next changed =>
        rw [← same] at other
        exact absurd changed other
      · exact same ▸ listed
    · intro listed
      exact ⟨m, listed, if_neg other⟩
  apply Led.touch owned (g := workspaceId)
  · intro m other
    exact untouched m fun same => other (congrArg Prod.fst same)
  · intro _ _ _
    obtain ⟨l, among, here, leading, kept⟩ := remaining
    exact ⟨l, (untouched l kept).mpr among, here, leading⟩

/-! ## Roles and removal -/

theorem requireMember_ok (found : requireMember w workspaceId userId = .ok member) :
    w.membership workspaceId userId = some member := by
  unfold requireMember at found
  split at found
  · next row => rw [row, Except.ok.inj found]
  · cases found

theorem changeRole_owned {role : Text} (owned : Owned w)
    (done : changeRole w workspaceId userId role actorId = .ok after) : Owned after := by
  unfold changeRole at done
  split at done
  · cases done
  · obtain ⟨actor, _, done⟩ := bind_eq_ok.mp done
    obtain ⟨member, found, done⟩ := bind_eq_ok.mp done
    split at done
    · cases done
      exact owned
    · obtain ⟨_, _, done⟩ := bind_eq_ok.mp done
      obtain ⟨_, _, done⟩ := bind_eq_ok.mp done
      obtain ⟨_, guarded, done⟩ := bind_eq_ok.mp done
      cases done
      exact change_guarded owned (guardLastOwner_ok owned (requireMember_ok found) guarded)

theorem removeMember_owned (owned : Owned w) (done : removeMember w workspaceId userId actorId = .ok after) :
    Owned after := by
  obtain ⟨actor, _, done⟩ := bind_eq_ok.mp done
  obtain ⟨member, found, done⟩ := bind_eq_ok.mp done
  obtain ⟨_, _, done⟩ := bind_eq_ok.mp done
  obtain ⟨_, guarded, done⟩ := bind_eq_ok.mp done
  split at done
  · cases done
  · cases done
    exact leave_guarded owned (guardLastOwner_ok owned (requireMember_ok found) guarded)

theorem suspendMember_owned (owned : Owned w) (done : suspendMember w workspaceId userId actorId = .ok after) :
    Owned after := by
  obtain ⟨actor, _, done⟩ := bind_eq_ok.mp done
  obtain ⟨member, found, done⟩ := bind_eq_ok.mp done
  split at done
  · cases done
  · split at done
    · cases done
    · obtain ⟨_, _, done⟩ := bind_eq_ok.mp done
      obtain ⟨_, guarded, done⟩ := bind_eq_ok.mp done
      cases done
      exact change_guarded owned (guardLastOwner_ok owned (requireMember_ok found) guarded)

theorem reinstateMember_owned (owned : Owned w) (done : reinstateMember w workspaceId userId actorId = .ok after) :
    Owned after := by
  obtain ⟨actor, _, done⟩ := bind_eq_ok.mp done
  obtain ⟨member, found, done⟩ := bind_eq_ok.mp done
  split at done
  · cases done
  · next suspended =>
    obtain ⟨_, _, done⟩ := bind_eq_ok.mp done
    cases done
    have guarded : guardLastOwner w workspaceId member = .ok () := if_pos (.inr (by simpa using suspended))
    exact change_guarded owned (guardLastOwner_ok owned (requireMember_ok found) guarded)

theorem leaveWorkspace_owned (owned : Owned w) (done : leaveWorkspace w workspaceId userId = .ok after) :
    Owned after := by
  obtain ⟨member, found, done⟩ := bind_eq_ok.mp done
  split at done
  · cases done
  · next plain =>
    split at done
    · cases done
    · cases done
      exact leave_guarded owned (guardLastOwner_ok owned (requireMember_ok found) (if_pos (.inl plain)))

/-! ## Joining -/

theorem joins_rows {users : List User} (role : User → WorkspaceRole)
    (joined : users.foldlM (fun w user => w.join workspaceId user.id (role user) user.createdAt) w = .ok after) :
    (∀ m ∈ w.members.rows, m ∈ after.members.rows) ∧
      (∀ m ∈ after.members.rows, m ∈ w.members.rows ∨ m.workspaceId = workspaceId) ∧
      ∀ u ∈ users, ∃ m ∈ after.members.rows, m.workspaceId = workspaceId ∧ m.role = role u ∧ m.active = true := by
  induction users generalizing w with
  | nil =>
    cases joined
    exact ⟨fun m listed => listed, fun m listed => .inl listed, fun u none => (nomatch none)⟩
  | cons first rest ih =>
    rw [List.foldlM_cons] at joined
    obtain ⟨between, one, others⟩ := bind_eq_ok.mp joined
    obtain ⟨m, _, rows, here, _, isRole, active⟩ := join_ok one
    obtain ⟨kept, fresh, placed⟩ := ih others
    refine ⟨?_, ?_, ?_⟩
    · intro m' listed
      exact kept m' (by rw [rows]; exact List.mem_append_left _ listed)
    · intro m' listed
      rcases fresh m' listed with old | new
      · rw [rows, List.mem_append, List.mem_singleton] at old
        rcases old with before | rfl
        · exact .inl before
        · exact .inr here
      · exact .inr new
    · intro u listed
      rcases List.mem_cons.mp listed with rfl | later
      · exact ⟨m, kept m (by simp [rows]), here, isRole, active⟩
      · exact placed u later

theorem ensureDefaultWorkspace_owned (owned : Owned w) (done : ensureDefaultWorkspace w = .ok after) :
    Owned after := by
  unfold ensureDefaultWorkspace at done
  split at done
  · cases done
    exact owned
  · dsimp only at done
    split at done
    · cases done
      exact owned
    · next owner first =>
      obtain ⟨kept, fresh, placed⟩ := joins_rows (fun user => if user.id = owner.id then .owner else .member) done
      have among : owner ∈ w.users.insertionSort fun a b =>
          a.createdAt < b.createdAt ∨ (a.createdAt = b.createdAt ∧ a.id ≤ b.id) := by
        rcases List.mem_append.mp (List.mem_of_mem_head? first) with admin | anyone
        · exact (List.mem_filter.mp admin).1
        · exact anyone
      obtain ⟨l, listed, here, role, active⟩ := placed owner among
      apply Led.touch owned (g := nextId (w.workspaces.map (·.id)))
      · intro m other
        exact ⟨fun now => (fresh m now).resolve_right other, kept m⟩
      · intro _ _ _
        exact ⟨l, listed, here, role.trans (if_pos rfl), active⟩

-- The condition on putting a new account into the shared workspace: whoever is to own it is still there.
def Peopled (w : World) : Prop :=
  ∀ workspace, w.sharedWorkspace = some workspace → ∃ m ∈ w.members.rows, m.workspaceId = workspace.id

theorem joinSharedWorkspace_owned (owned : Owned w) (peopled : Peopled w)
    (done : joinSharedWorkspace w userId = .ok after) : Owned after := by
  unfold joinSharedWorkspace at done
  split at done
  · have joined : (w.addWorkspace defaultWorkspaceName defaultWorkspaceSlug).1.join _ userId .owner w.now = .ok after :=
      done
    exact join_owner (w := (w.addWorkspace defaultWorkspaceName defaultWorkspaceSlug).1) owned joined
  · next workspace found =>
    obtain ⟨m, listed, here⟩ := peopled workspace found
    exact join_staffed owned (here ▸ owned m listed) done

-- Putting somebody into the shared workspace keeps the property under no other condition.
theorem joinSharedWorkspace_iff (owned : Owned w) (done : joinSharedWorkspace w userId = .ok after) :
    Owned after ↔ Peopled w := by
  refine ⟨?_, fun peopled => joinSharedWorkspace_owned owned peopled done⟩
  intro kept workspace found
  simp only [joinSharedWorkspace, found] at done
  obtain ⟨m, _, rows, here, _, role, _⟩ := join_ok done
  obtain ⟨l, among, same, leading⟩ := kept m (by simp [rows])
  rw [rows, List.mem_append, List.mem_singleton] at among
  rcases among with before | rfl
  · exact ⟨l, before, same.trans here⟩
  · rw [leading.1] at role
    cases role

theorem byJoined_mem {rows : List Membership} {m : Membership} : m ∈ byJoined rows ↔ m ∈ rows :=
  (List.perm_insertionSort _ _).mem_iff

-- Who makes room leaves one workspace that nobody else is in.
theorem makeRoomToJoin_owned {joining : Nat} (owned : Owned w) (done : makeRoomToJoin w userId joining = .ok after) :
    Owned after ∧ ∀ m ∈ w.members.rows, m.workspaceId = joining → m ∈ after.members.rows := by
  unfold makeRoomToJoin at done
  split at done
  · cases done
    exact ⟨owned, fun m listed _ => listed⟩
  · next member vacant found =>
    split at done
    · cases done
    · next isVacant =>
      cases done
      unfold workspaceToLeave at found
      split at found
      · cases found
      · next first rest rows =>
        obtain ⟨rfl, rfl⟩ := Prod.mk.inj (Option.some.inj found)
        have listed : first ∈ w.members.rows.filter fun m => m.userId = userId ∧ m.workspaceId ≠ joining := by
          rw [← byJoined_mem, rows]
          exact List.mem_cons_self
        simp only [ne_eq, List.mem_filter, decide_eq_true_eq] at listed
        have alone : isVacantFor w first.workspaceId userId = true := by
          simp only [Bool.not_eq_true', Bool.not_eq_false, Bool.and_eq_true] at isVacant
          exact isVacant.2
        simp only [isVacantFor, Bool.and_eq_true, Bool.not_eq_true', List.any_eq_false] at alone
        constructor
        · refine leave_vacant owned ?_
          intro m there here
          have other := alone.1.1 m (List.mem_filter.mpr ⟨there, by simpa using here⟩)
          simpa using other
        · intro m there here
          refine mem_leave.mpr ⟨there, ?_⟩
          intro same
          exact listed.2.2 ((congrArg Prod.fst same).symm.trans here)

theorem joinSharedWorkspaceFrom_owned (owned : Owned w) (done : joinSharedWorkspaceFrom w userId = .ok after) :
    Owned after := by
  have placed : ∀ {v : World} {shared : Nat}, Owned v → (do
      let v ← makeRoomToJoin v userId shared
      let owners := (v.membersOf shared).countP fun m => m.role = .owner
      v.join shared userId (if owners ≠ 0 then .member else .owner) v.now : Except Workspaces.Refusal World) = .ok after →
      Owned after := by
    intro v shared before done
    obtain ⟨roomy, made, joined⟩ := bind_eq_ok.mp done
    obtain ⟨left, _⟩ := makeRoomToJoin_owned before made
    dsimp only at joined
    split at joined
    · next some' =>
      obtain ⟨m, listed, _⟩ := List.countP_pos_iff.mp (Nat.pos_of_ne_zero some')
      obtain ⟨there, here⟩ := List.mem_filter.mp listed
      simp only [decide_eq_true_eq] at here
      exact join_staffed left (here ▸ left m there) joined
    · exact join_owner left joined
  unfold joinSharedWorkspaceFrom at done
  cases found : w.sharedWorkspace with
  | none =>
    simp only [found] at done
    exact placed (v := (w.addWorkspace defaultWorkspaceName defaultWorkspaceSlug).1) owned done
  | some workspace =>
    simp only [found] at done
    split at done
    · cases done
      exact owned
    · exact placed owned done

section Invitations
variable {characters : Characters} {sha256 : Bytes → Bytes}

theorem createWorkspace_owned {name : Text} {ownerId : Int} (owned : Owned w)
    (done : createWorkspace characters w name ownerId = .ok after) : Owned after := by
  obtain ⟨clean, _, done⟩ := bind_eq_ok.mp done
  obtain ⟨joined, made, done⟩ := bind_eq_ok.mp done
  have before : Owned (w.addWorkspace clean (slugFor characters w clean)).1 := owned
  have together : Owned joined := join_owner before made
  cases done
  exact together

theorem usable_inviter {token : Text} {invitation : Invitation}
    (found : usable sha256 w token = .ok invitation) : ∃ m ∈ w.members.rows, m.workspaceId = invitation.workspaceId := by
  unfold usable at found
  split at found
  · split at found
    · cases found
    · split at found
      · cases found
      · next entitled =>
        cases found
        cases inviter : w.membership invitation.workspaceId invitation.inviterId with
        | none => simp [inviter, inviterStillEntitled] at entitled
        | some member =>
          obtain ⟨listed, here, _⟩ := membership_some inviter
          exact ⟨member, listed, here⟩
  · cases found

theorem addVaultMember_members {vault : VaultRow} {email : Text} {role : MemberRole} {invitationId : Nat}
    (done : addVaultMember characters w vault email role actorId invitationId = .ok after) :
    after.members = w.members := by
  unfold addVaultMember at done
  split at done
  · cases done
  · split at done
    · split at done
      · cases done
      · split at done
        · cases done
        · cases done
          rfl
    · cases done

theorem accept_owned {invitation : Invitation} {user : User} (owned : Owned w)
    (inviter : ∃ m ∈ w.members.rows, m.workspaceId = invitation.workspaceId)
    (done : accept characters w invitation user = .ok after) : Owned after := by
  unfold accept at done
  split at done
  · cases done
  · split at done
    · cases done
    · obtain ⟨roomy, made, done⟩ := bind_eq_ok.mp done
      obtain ⟨joined, placed, done⟩ := bind_eq_ok.mp done
      obtain ⟨vaults, _, done⟩ := bind_eq_ok.mp done
      obtain ⟨left, kept⟩ := makeRoomToJoin_owned owned made
      obtain ⟨m, listed, here⟩ := inviter
      have together : Owned joined := join_staffed left (here ▸ left m (kept m listed here)) placed
      have steady : ∀ {vaults : List VaultRow} {v : World}, Owned v → vaults.foldlM (fun w vault =>
          if vault.members.any fun m => m.userId = user.id then .ok w
          else
            let role := ((invitation.grants.find? fun g => g.vaultId = vault.id).map (·.role)).getD .viewer
            (addVaultMember characters w vault user.email role invitation.inviterId invitation.id).mapError
              Refusal.vaultRefused) v = .ok after → Owned after := by
        intro vaults
        induction vaults with
        | nil =>
          intro v before done
          cases done
          exact before
        | cons vault rest ih =>
          intro v before done
          rw [List.foldlM_cons] at done
          obtain ⟨between, one, others⟩ := bind_eq_ok.mp done
          split at one
          · cases one
            exact ih before others
          · have same := addVaultMember_members (mapError_eq_ok.mp one)
            refine ih ?_ others
            unfold Owned
            rw [same]
            exact before
      exact steady (v := (joined.markAccepted invitation user.id).logged _ _ _ _) together done

theorem acceptInvitation_owned {token : Text} {user : User} (owned : Owned w)
    (done : acceptInvitation characters sha256 w token user = .ok after) : Owned after := by
  obtain ⟨invitation, found, done⟩ := bind_eq_ok.mp done
  exact accept_owned owned (usable_inviter found) done

theorem registerUser_rows {email displayName : Text} {place bootstrapAdmin : Bool} {user : User}
    (done : registerUser characters w email displayName place bootstrapAdmin = .ok (after, user)) :
    ∃ v : World, v.members = w.members ∧ v.workspaces = w.workspaces ∧
      (if place then joinSharedWorkspace v user.id else .ok v) = .ok after := by
  unfold registerUser at done
  dsimp only at done
  split at done
  · cases done
  · split at done
    · cases done
    · cases place with
      | false =>
        obtain ⟨rfl, rfl⟩ := Prod.mk.inj (pure_eq_ok.mp done)
        exact ⟨_, by rfl, by rfl, if_neg Bool.false_ne_true⟩
      | true =>
        obtain ⟨placed, joined, done⟩ := bind_eq_ok.mp done
        obtain ⟨rfl, rfl⟩ := Prod.mk.inj (pure_eq_ok.mp done)
        exact ⟨_, by rfl, by rfl, joined⟩

theorem registerThroughInvitation_owned {token displayName : Text} (owned : Owned w)
    (done : registerThroughInvitation characters sha256 w token displayName = .ok after) : Owned after := by
  obtain ⟨invitation, found, done⟩ := bind_eq_ok.mp done
  split at done
  · cases done
  · obtain ⟨⟨registered, user⟩, made, done⟩ := bind_eq_ok.mp done
    obtain ⟨v, members, _, same⟩ := registerUser_rows (mapError_eq_ok.mp made)
    have unplaced : v = registered := Except.ok.inj same
    subst unplaced
    have rows : v.members.rows = w.members.rows := congrArg MemberTable.rows members
    have before : Owned v := by
      unfold Owned
      rw [rows]
      exact owned
    obtain ⟨m, listed, here⟩ := usable_inviter found
    exact accept_owned before ⟨m, rows ▸ listed, here⟩ done

/-! ## Runs -/

-- A step that puts an account into the shared workspace finds somebody there.
def KeepsOwners (w : World) : Event → Prop
  | .joinSharedWorkspace _ | .registerUser _ _ => Peopled w
  | _ => True

theorem operate_owned {event : Event} (owned : Owned w) (condition : KeepsOwners w event)
    (done : operate characters sha256 w event = .ok after) : Owned after := by
  cases event with
  | createWorkspace name ownerId => exact createWorkspace_owned owned done
  | ensureDefaultWorkspace => exact ensureDefaultWorkspace_owned owned done
  | registerUser email displayName =>
    obtain ⟨⟨registered, user⟩, made, rfl⟩ := map_eq_ok.mp done
    obtain ⟨v, members, workspaces, joined⟩ := registerUser_rows made
    have rows : v.members.rows = w.members.rows := congrArg MemberTable.rows members
    have before : Owned v := by
      unfold Owned
      rw [rows]
      exact owned
    have peopled : Peopled v := by
      intro workspace found
      rw [rows]
      exact condition workspace (by rw [← found, World.sharedWorkspace, World.sharedWorkspace, workspaces])
    exact joinSharedWorkspace_owned before peopled joined
  | joinSharedWorkspace userId => exact joinSharedWorkspace_owned owned condition done
  | joinSharedWorkspaceFrom userId => exact joinSharedWorkspaceFrom_owned owned done
  | acceptInvitation token user => exact acceptInvitation_owned owned done
  | registerThroughInvitation token displayName => exact registerThroughInvitation_owned owned done
  | changeRole workspaceId userId role actorId => exact changeRole_owned owned done
  | removeMember workspaceId userId actorId => exact removeMember_owned owned done
  | suspendMember workspaceId userId actorId => exact suspendMember_owned owned done
  | reinstateMember workspaceId userId actorId => exact reinstateMember_owned owned done
  | leaveWorkspace workspaceId userId => exact leaveWorkspace_owned owned done
  | elsewhere rows =>
    cases done
    exact owned

theorem step_owned (w : World) (event : Event) (owned : Owned w) (condition : KeepsOwners w event) :
    Owned (step characters sha256 w event) := by
  unfold step
  split
  · next after done => exact operate_owned owned condition done
  · exact owned

theorem workspaces_keep_an_owner (events : List Event)
    (guarded : Guarded (step characters sha256) KeepsOwners World.empty events) :
    Owned (run (step characters sha256) World.empty events) :=
  run_invariant step_owned World.empty events led_nil guarded

end Invitations

section Sample

instance : Decidable (Owned w) :=
  inferInstanceAs (Decidable (∀ m ∈ w.members.rows, ∃ l ∈ w.members.rows,
    l.workspaceId = m.workspaceId ∧ l.role = .owner ∧ l.active = true))

instance : Decidable (Peopled w) :=
  decidable_of_iff (∀ workspace ∈ w.sharedWorkspace, ∃ m ∈ w.members.rows, m.workspaceId = workspace.id) Iff.rfl

instance (event : Event) : Decidable (KeepsOwners w event) := by
  cases event <;> unfold KeepsOwners <;> infer_instance

def latinCharacters : Characters := ⟨fun _ => "Ll", id⟩

def ann : User := ⟨1, "ann@q.org", true, 0⟩
def bea : User := ⟨2, "bea@q.org", false, 0⟩

def betaInvitation : Invitation where
  id := 1
  workspaceId := 2
  email := "ann@q.org"
  role := .member
  grants := []
  inviterId := 2
  tokenHash := asciiBytes "QVAULT-INVITATION-TOKEN-v1|" ++ List.replicate 32 0
  expiresAt := 604800
  acceptedAt := none
  acceptedById := none
  revokedAt := none

-- Ann owns the shared workspace alone, and moves to Bea's by accepting her invitation.
def annMoves : List Event :=
  [.registerUser "ann@q.org" "Ann", .elsewhere ⟨[ann, bea], [], [], [1, 2], 0⟩, .createWorkspace "Beta" 2,
    .elsewhere ⟨[ann, bea], [betaInvitation], [], [1, 2], 0⟩,
    .acceptInvitation (List.replicate 43 (codePoint 'A')) ann]

theorem workspaces_keep_an_owner_annMoves : Owned (run (step latinCharacters id) World.empty annMoves) :=
  workspaces_keep_an_owner annMoves (by decide)

theorem shared_workspace_without_owner :
    ¬ Owned (run (step latinCharacters id) World.empty (annMoves ++ [.registerUser "cam@q.org" "Cam"])) := by
  decide

end Sample

end QVault.Proof.Workspaces
