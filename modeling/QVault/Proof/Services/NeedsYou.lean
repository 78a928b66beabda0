import QVault.Services.NeedsYou
import QVault.Proof.Services.VaultPeople
import QVault.Proof.Services.Inbox

/-!
# The lists ask for what the gate accepts

The needs-you set, a row's own mark and the vote gate are three readings of one rule.
-/

namespace QVault.Proof.NeedsYou
open QVault.Python QVault.Services QVault.Workspaces QVault.Proof.Workspaces

variable {w : World} {v : VaultRow} {userId now : Int} {db : Database} {p : Proposal}

/-! ## Standing -/

theorem goodStanding_iff {workspaceId : Nat} :
    membershipStanding ((w.membership workspaceId userId).map (·.toWorkspaceMember)) = none ↔
      ∃ m ∈ w.members.rows, m.workspaceId = workspaceId ∧ m.userId = userId ∧ m.active = true ∧ m.role ≠ .auditor := by
  constructor
  · intro good
    cases found : w.membership workspaceId userId with
    | none =>
      rw [found] at good
      cases good
    | some m =>
      obtain ⟨listed, here, who⟩ := membership_some found
      rw [found] at good
      simp only [membershipStanding, Option.map_some] at good
      split at good
      · cases good
      · rename_i active
        split at good
        · cases good
        · rename_i role
          exact ⟨m, listed, here, who, by simpa using active, role⟩
  · rintro ⟨m, listed, here, who, active, role⟩
    have found : w.membership workspaceId userId = some m := by
      unfold World.membership MemberTable.find
      have key : m.key = (workspaceId, userId) := Prod.ext here who
      cases first : w.members.rows.find? fun m => decide (m.key = (workspaceId, userId)) with
      | none =>
        have absent := List.find?_eq_none.mp first m listed
        simp [key] at absent
      | some other =>
        have same : other.key = (workspaceId, userId) := by simpa using List.find?_some first
        rw [row_unique (List.mem_of_find?_eq_some first) listed (same.trans key.symm)]
    simp [found, membershipStanding, active, role]

theorem mem_standingWorkspaceIds {workspaceId : Nat} :
    workspaceId ∈ standingWorkspaceIds w userId ↔
      ∃ m ∈ w.members.rows, m.workspaceId = workspaceId ∧ m.userId = userId ∧ m.active = true ∧ m.role ≠ .auditor := by
  simp only [standingWorkspaceIds, List.mem_map, List.mem_filter, Bool.and_eq_true, decide_eq_true_eq]
  constructor
  · rintro ⟨m, ⟨listed, ⟨who, active⟩, role⟩, here⟩
    exact ⟨m, listed, here, who, active, role⟩
  · rintro ⟨m, listed, here, who, active, role⟩
    exact ⟨m, ⟨listed, ⟨who, active⟩, role⟩, here⟩

theorem mem_inGoodStanding {ids : List Int} :
    userId ∈ inGoodStanding w v ids ↔ userId ∈ ids ∧ signingStanding w v userId = none := by
  unfold inGoodStanding signingStanding
  cases w.homeWorkspaceId v with
  | none =>
    by_cases none' : w.workspaces.isEmpty <;> simp [none']
  | some home =>
    simp only [goodStanding_iff, List.mem_map, List.mem_filter, Bool.and_eq_true, decide_eq_true_eq,
      List.contains_iff_mem]
    constructor
    · rintro ⟨m, ⟨listed, ⟨⟨here, among⟩, active⟩, role⟩, who⟩
      exact ⟨who ▸ among, m, listed, here, who, active, role⟩
    · rintro ⟨among, m, listed, here, who, active, role⟩
      exact ⟨m, ⟨listed, ⟨⟨here, who ▸ among⟩, active⟩, role⟩, who⟩

theorem mem_signerMembers : userId ∈ v.signerMembers.map (·.userId) ↔ signsIn v userId = true := by
  simp only [VaultRow.signerMembers, signsIn, List.mem_map, List.mem_filter, List.any_eq_true, Bool.and_eq_true,
    decide_eq_true_eq]
  constructor
  · rintro ⟨m, ⟨listed, signs⟩, who⟩
    exact ⟨m, listed, who, signs⟩
  · rintro ⟨m, listed, who, signs⟩
    exact ⟨m, ⟨listed, signs⟩, who⟩

theorem mem_currentSignerIds :
    userId ∈ currentSignerIds w v ↔ signsIn v userId = true ∧ signingStanding w v userId = none := by
  rw [currentSignerIds, mem_inGoodStanding, mem_signerMembers]

theorem mem_signingVaultIds {vaultId : Int} : vaultId ∈ signingVaultIds w userId ↔
    ∃ v ∈ w.vaults, v.id = vaultId ∧ signsIn v userId = true ∧ signingStanding w v userId = none := by
  simp only [signingVaultIds, List.mem_map, List.mem_filter]
  constructor
  · rintro ⟨v, ⟨⟨listed, signs⟩, good⟩, id⟩
    refine ⟨v, listed, id, signs, ?_⟩
    unfold signingStanding World.homeWorkspaceId
    cases home : w.ownersWorkspaceId v.ownerId with
    | none =>
      simp only [home, Bool.and_eq_true] at good
      simp [good.2]
    | some workspaceId =>
      simp only [home, List.contains_iff_mem] at good
      exact goodStanding_iff.mpr (mem_standingWorkspaceIds.mp good)
  · rintro ⟨v, listed, id, signs, good⟩
    refine ⟨v, ⟨⟨listed, signs⟩, ?_⟩, id⟩
    unfold signingStanding World.homeWorkspaceId at good
    cases home : w.ownersWorkspaceId v.ownerId with
    | none =>
      simp only [home, ite_eq_left_iff, reduceCtorEq, imp_false, Bool.not_eq_true, Bool.not_eq_false] at good
      simp only [Bool.and_eq_true, List.any_eq_true, List.mem_filter]
      exact ⟨⟨v, ⟨listed, signs⟩, by simp [home]⟩, by simpa using good⟩
    | some workspaceId =>
      simp only [home] at good
      exact List.contains_iff_mem.mpr (mem_standingWorkspaceIds.mpr (goodStanding_iff.mp good))

/-! ## The gate's reading -/

theorem vaultRow_some {vaultId : Int} : db.vaultRow vaultId = some v ↔ v ∈ db.world.vaults ∧ v.id = vaultId := by
  constructor
  · intro found
    exact ⟨List.mem_of_find?_eq_some found, by simpa using List.find?_some found⟩
  · rintro ⟨listed, id⟩
    unfold Database.vaultRow
    cases first : db.world.vaults.find? fun v => decide (v.id = vaultId) with
    | none =>
      have absent := List.find?_eq_none.mp first v listed
      simp [id] at absent
    | some other =>
      have same : other.id = vaultId := by simpa using List.find?_some first
      rw [List.inj_on_of_nodup_map db.vaultKeys (List.mem_of_find?_eq_some first) listed (same.trans id.symm)]

theorem directory_vault {vaultId : Int} (found : db.vaultRow vaultId = some v) :
    (db.directory.vault vaultId).members = v.members ∧
      (db.directory.vault vaultId).homeWorkspaceId = (db.world.homeWorkspaceId v).map Int.ofNat := by
  unfold Database.directory
  simp only
  split
  · rename_i other this
    obtain rfl : other = v := Option.some.inj (this.symm.trans found)
    exact ⟨rfl, rfl⟩
  · rename_i this
    rw [this] at found
    cases found

theorem directory_missing {vaultId : Int} (none' : db.vaultRow vaultId = none) :
    (db.directory.vault vaultId).members = [] := by
  unfold Database.directory
  simp only
  split
  · rename_i other this
    rw [this] at none'
    cases none'
  · rfl

theorem directory_allows (vaultId : Int) : db.directory.vaultAllowsRequester vaultId = db.allowsRequester vaultId := by
  unfold Directory.vaultAllowsRequester Database.allowsRequester Database.directory
  simp only
  split <;> rfl

theorem directory_approver {vaultId : Int} (found : db.vaultRow vaultId = some v) :
    db.directory.isCurrentApprover vaultId userId = signsIn v userId := by
  have distinct := db.vaultMembers v (vaultRow_some.mp found).1
  unfold Directory.isCurrentApprover Vault.memberFor
  rw [(directory_vault found).1]
  unfold signsIn
  rw [Bool.eq_iff_iff, Option.any_eq_true, List.any_eq_true]
  constructor
  · rintro ⟨m, first, signs⟩
    have who : m.userId = userId := by simpa using List.find?_some first
    exact ⟨m, List.mem_of_find?_eq_some first, by simp [who, signs]⟩
  · rintro ⟨m, listed, here⟩
    simp only [Bool.and_eq_true, decide_eq_true_eq] at here
    refine ⟨m, ?_, here.2⟩
    cases first : v.members.find? fun m => decide (m.userId = userId) with
    | none =>
      have absent := List.find?_eq_none.mp first m listed
      simp [here.1] at absent
    | some other =>
      have same : other.userId = userId := by simpa using List.find?_some first
      rw [List.inj_on_of_nodup_map distinct (List.mem_of_find?_eq_some first) listed (same.trans here.1.symm)]

theorem directory_standing {vaultId : Int} (found : db.vaultRow vaultId = some v) :
    db.directory.signingStanding vaultId userId = signingStanding db.world v userId := by
  unfold Directory.signingStanding signingStanding
  rw [(directory_vault found).2]
  cases db.world.homeWorkspaceId v with
  | none =>
    simp only [Option.map_none, Database.directory]
    by_cases none' : db.world.workspaces.isEmpty = true
    · simp [none']
    · simp [none']
  | some home => rfl

theorem signsNow_iff {vaultId : Int} :
    db.directory.signsNow vaultId userId = true ↔ vaultId ∈ signingVaultIds db.world userId := by
  rw [mem_signingVaultIds, Directory.signsNow]
  constructor
  · intro both
    rw [Bool.and_eq_true] at both
    cases found : db.vaultRow vaultId with
    | none =>
      have none' := directory_missing found
      simp [Directory.isCurrentApprover, Vault.memberFor, none'] at both
    | some v =>
      rw [directory_approver found, directory_standing found, Option.isNone_iff_eq_none] at both
      obtain ⟨listed, id⟩ := vaultRow_some.mp found
      exact ⟨v, listed, id, both⟩
  · rintro ⟨v, listed, id, signs, good⟩
    have found := vaultRow_some.mpr ⟨listed, id⟩
    rw [directory_approver found, directory_standing found, signs, good]
    rfl

theorem mem_signersNow {vaultId : Int} :
    userId ∈ db.signersNow vaultId ↔ vaultId ∈ signingVaultIds db.world userId := by
  rw [mem_signingVaultIds]
  unfold Database.signersNow
  cases found : db.vaultRow vaultId with
  | none =>
    simp only [Option.elim_none, List.not_mem_nil, false_iff, not_exists, not_and]
    intro v listed id
    rw [vaultRow_some.mpr ⟨listed, id⟩] at found
    cases found
  | some v =>
    rw [Option.elim_some, mem_currentSignerIds]
    obtain ⟨listed, id⟩ := vaultRow_some.mp found
    refine ⟨fun both => ⟨v, listed, id, both⟩, ?_⟩
    rintro ⟨other, there, id', both⟩
    rw [List.inj_on_of_nodup_map db.vaultKeys listed there (id.trans id'.symm)]
    exact both

theorem requesterMayApprove_eq :
    p.requesterMayApprove db.directory = requesterMayApprove p (db.allowsRequester p.vaultId) := by
  unfold Proposal.requesterMayApprove requesterMayApprove
  rw [directory_allows]

theorem hasVoted_eq : (p.signatures.map (·.signerId)).contains userId = p.hasVoted userId := by
  rw [Bool.eq_iff_iff, List.contains_iff_mem, Proposal.hasVoted, List.any_eq_true]
  simp

theorem still_eq : (outlook p (p.votes .approve).length (p.signatures.map (·.signerId))
      (eligibleIds p (db.signersNow p.vaultId) (db.allowsRequester p.vaultId))).still = p.still db.directory := by
  unfold outlook eligibleIds Proposal.still
  rw [List.filter_filter]
  refine List.filter_congr fun id _ => ?_
  have signs : (db.signersNow p.vaultId).contains id = db.directory.signsNow p.vaultId id := by
    rw [Bool.eq_iff_iff, List.contains_iff_mem, mem_signersNow, signsNow_iff]
  rw [hasVoted_eq, signs, requesterMayApprove_eq, Bool.and_comm]

theorem cannotPass_eq : db.cannotPass p = p.cannotPass db.directory := by
  unfold Database.cannotPass Proposal.cannotPass Outlook.reachable
  rw [still_eq]
  by_cases isOpen : p.status = .open
  · have needed : (outlook p (p.votes .approve).length (p.signatures.map (·.signerId))
        (eligibleIds p (db.signersNow p.vaultId) (db.allowsRequester p.vaultId))).needed =
        max (p.requiredM - (p.votes .approve).length) 0 := rfl
    rw [Bool.eq_iff_iff, needed]
    simp only [isOpen, decide_true, Bool.true_and, Bool.not_eq_true', decide_eq_false_iff_not, decide_eq_true_eq, not_le]
  · simp [isOpen]

/-! ## One rule -/

-- Whether an approval of the decision is wanted of somebody
def Wanted (db : Database) (p : Proposal) (userId : Int) : Prop :=
  p.status = .open ∧ userId ∈ p.authorizedSigners ∧ p.vaultId ∈ signingVaultIds db.world userId ∧
    ¬ (userId = p.creatorId ∧ p.requesterMayApprove db.directory = false) ∧ p.hasVoted userId = false ∧
    p.cannotPass db.directory = false

theorem accepted_iff {clock : Clock} (notPast : pastDeadline p clock = false) :
    db.approvalAccepted p userId clock = true ↔ Wanted db p userId := by
  unfold Database.approvalAccepted Wanted
  rw [notPast, ← signsNow_iff, Directory.signsNow, Bool.and_eq_true]
  unfold gateRefusal
  by_cases isOpen : p.status = .open
  · by_cases listed : userId ∈ p.authorizedSigners
    · by_cases approver : db.directory.isCurrentApprover p.vaultId userId = true
      · cases standing : db.directory.signingStanding p.vaultId userId with
        | some reason => simp [isOpen, listed, approver]
        | none =>
          by_cases own : userId = p.creatorId ∧ p.requesterMayApprove db.directory = false
          · obtain ⟨rfl, barred⟩ := own
            simp [isOpen, listed, approver, barred]
          · cases voted : p.hasVoted userId with
            | true => simp [isOpen, listed, approver, own]
            | false =>
              cases stuck : p.cannotPass db.directory with
              | true => simp [isOpen, listed, approver, own]
              | false => simp [isOpen, listed, approver, own, reasonRefusal, noteOf]
      · simp [isOpen, listed, approver]
    · simp [isOpen, listed]
  · simp [isOpen]

theorem pending_notPast {clock : Clock} (pending : ∀ deadline ∈ p.expiresAt, clock.instant < deadline) :
    pastDeadline p clock = false := by
  unfold pastDeadline
  cases expires : p.expiresAt with
  | none => simp
  | some deadline => simp [(pending deadline expires).le]

theorem blocked_iff : ownDecisionBlocked p (db.allowsRequester p.vaultId) userId = true ↔
    userId = p.creatorId ∧ p.requesterMayApprove db.directory = false := by
  unfold ownDecisionBlocked
  rw [← requesterMayApprove_eq, Bool.and_eq_true, decide_eq_true_eq, Bool.not_eq_true']
  exact and_congr_left fun _ => ⟨Eq.symm, Eq.symm⟩

theorem liveOpen_iff (pending : ∀ deadline ∈ p.expiresAt, now < deadline) :
    Database.liveOpen p now = true ↔ p.status = .open := by
  unfold Database.liveOpen
  cases expires : p.expiresAt with
  | none => simp
  | some deadline => simp [pending deadline expires]

theorem effectiveStatus_open_iff {directory : Directory} (pending : ∀ deadline ∈ p.expiresAt, now < deadline) :
    effectiveStatus directory p now = .open ↔ p.status = .open := by
  unfold effectiveStatus
  cases expires : p.expiresAt with
  | none => simp
  | some deadline => simp [not_le.mpr (pending deadline expires)]

theorem needsMe_iff (pending : ∀ deadline ∈ p.expiresAt, now < deadline) :
    db.needsMe p userId (signingVaultIds db.world userId) now = true ↔ Wanted db p userId := by
  have passable : ∀ isOpen : p.status = .open, (outlook p (p.votes .approve).length (p.signatures.map (·.signerId))
      (eligibleIds p (db.signersNow p.vaultId) (db.allowsRequester p.vaultId))).reachable = true ↔
        p.cannotPass db.directory = false := by
    intro isOpen
    rw [← cannotPass_eq, Database.cannotPass]
    simp [isOpen]
  unfold Database.needsMe Wanted
  simp only [Bool.and_eq_true, decide_eq_true_eq, effectiveStatus_open_iff pending, List.contains_iff_mem,
    Bool.not_eq_true', hasVoted_eq]
  by_cases isOpen : p.status = .open
  · rw [passable isOpen, ← blocked_iff, Bool.not_eq_true]
    constructor
    · rintro ⟨⟨⟨⟨-, listed, free⟩, signs⟩, unvoted⟩, reachable⟩
      exact ⟨isOpen, listed, signs, free, unvoted, reachable⟩
    · rintro ⟨-, listed, signs, free, unvoted, reachable⟩
      exact ⟨⟨⟨⟨isOpen, listed, free⟩, signs⟩, unvoted⟩, reachable⟩
  · simp [isOpen]

theorem snapshotAuthorisedIds_iff (stored : p ∈ db.proposals) (pending : ∀ deadline ∈ p.expiresAt, now < deadline) :
    p.id ∈ db.snapshotAuthorisedIds userId now ↔ Wanted db p userId := by
  have one : ∀ other ∈ db.proposals, other.id = p.id → other = p :=
    fun other listed same => List.inj_on_of_nodup_map db.proposalKeys listed stored same
  unfold Database.snapshotAuthorisedIds Wanted
  simp only [List.mem_map, List.mem_filter, Bool.and_eq_true, Bool.not_eq_true', List.contains_iff_mem]
  constructor
  · rintro ⟨other, ⟨⟨⟨listed, ⟨signs, live⟩, unvoted⟩, among, free⟩, passable⟩, id⟩
    obtain rfl := one other listed id
    refine ⟨(liveOpen_iff pending).mp live, among, signs, ?_, unvoted, cannotPass_eq ▸ passable⟩
    rw [← blocked_iff]
    intro blocked
    have own : other.creatorId = userId := (blocked_iff.mp blocked).1.symm
    rw [blocked, decide_eq_true own] at free
    cases free
  · rintro ⟨isOpen, among, signs, free, unvoted, passable⟩
    refine ⟨p, ⟨⟨⟨stored, ⟨signs, (liveOpen_iff pending).mpr isOpen⟩, unvoted⟩, among, ?_⟩, cannotPass_eq ▸ passable⟩, rfl⟩
    rw [← blocked_iff, Bool.not_eq_true] at free
    simp [free]

-- The set, the row's mark and the gate are the same, and so are three readings of who signs where.
theorem lists_ask_what_gate_accepts (db : Database) (userId : Int) (clock : Clock) :
    (∀ p ∈ db.proposals, (∀ deadline ∈ p.expiresAt, clock.instant < deadline) →
      (p.id ∈ db.snapshotAuthorisedIds userId clock.instant ↔
        db.needsMe p userId (signingVaultIds db.world userId) clock.instant = true) ∧
      (db.needsMe p userId (signingVaultIds db.world userId) clock.instant = true ↔
        db.approvalAccepted p userId clock = true)) ∧
    (∀ vaultId, vaultId ∈ signingVaultIds db.world userId ↔ ∃ v ∈ db.world.vaults, v.id = vaultId ∧
      signsIn v userId = true ∧ signingStanding db.world v userId = none) ∧
    ∀ vaultId, vaultId ∈ signingVaultIds db.world userId ↔ ∃ v ∈ db.world.vaults, v.id = vaultId ∧
      userId ∈ currentSignerIds db.world v := by
  refine ⟨fun p stored pending => ⟨?_, ?_⟩, fun vaultId => mem_signingVaultIds, fun vaultId => ?_⟩
  · rw [snapshotAuthorisedIds_iff stored pending, needsMe_iff pending]
  · rw [needsMe_iff pending, accepted_iff (pending_notPast pending)]
  · simp only [mem_signingVaultIds, mem_currentSignerIds]

end QVault.Proof.NeedsYou
