import QVault.Proof.Services.Requests

/-!
# Authority when a vote lands

The gate and the write ask the same of a voter but for one case: a vault in no workspace.
-/

namespace QVault.Proof.Services
open QVault.Services QVault.Python QVault.Crypto QVault.Chain Results

/-! ## Who may vote now -/

-- An active member of the vault's workspace who is no auditor, or there is no workspace at all
def WorksAt (directory : Directory) (vaultId userId : Int) : Prop :=
  match (directory.vault vaultId).homeWorkspaceId with
  | some workspaceId => ∃ member, directory.membership workspaceId userId = some member ∧
      member.active ∧ member.role ≠ .auditor
  | none => directory.anyWorkspace = false

structure Lawful (directory : Directory) (p : Proposal) (signerId : Int) : Prop where
  isOpen : p.status = .open
  asked : signerId ∈ p.authorizedSigners
  approver : ∃ member, (directory.vault p.vaultId).memberFor signerId = some member ∧ member.role.signs
  works : WorksAt directory p.vaultId signerId
  separate : signerId = p.creatorId → p.frozenRule ∧ directory.vaultAllowsRequester p.vaultId

-- The vault's owner has a workspace, or nobody has.
def homed (directory : Directory) (vaultId : Int) : Bool :=
  (directory.vault vaultId).homeWorkspaceId.isSome || !directory.anyWorkspace

variable {directory : Directory} {p : Proposal} {signerId : Int}

theorem isCurrentApprover_iff (vaultId : Int) : directory.isCurrentApprover vaultId signerId ↔
    ∃ member, (directory.vault vaultId).memberFor signerId = some member ∧ member.role.signs := by
  unfold Directory.isCurrentApprover
  rw [Option.any_eq_true]

theorem membershipStanding_none (member : Option WorkspaceMember) : membershipStanding member = none ↔
    ∃ found, member = some found ∧ found.active ∧ found.role ≠ .auditor := by
  cases member with
  | none => simp [membershipStanding]
  | some found => cases active : found.active <;> simp [membershipStanding, active]

-- The gate's question about the workspace
theorem signingStanding_none (vaultId : Int) :
    directory.signingStanding vaultId signerId = none ↔ WorksAt directory vaultId signerId := by
  unfold Directory.signingStanding WorksAt
  cases (directory.vault vaultId).homeWorkspaceId with
  | none => simp
  | some workspaceId => exact membershipStanding_none _

-- The write's, which a vault in no workspace always passes
theorem stillStanding_none (vaultId : Int) :
    ((directory.vault vaultId).homeWorkspaceId.bind fun workspaceId =>
      membershipStanding (directory.membership workspaceId signerId)) = none ↔
    (homed directory vaultId → WorksAt directory vaultId signerId) := by
  unfold homed WorksAt
  cases (directory.vault vaultId).homeWorkspaceId with
  | none => simp
  | some workspaceId => simpa using membershipStanding_none (directory.membership workspaceId signerId)

theorem worksAt_homed {vaultId : Int} (works : WorksAt directory vaultId signerId) : homed directory vaultId := by
  unfold WorksAt at works
  unfold homed
  cases home : (directory.vault vaultId).homeWorkspaceId with
  | none => simpa [home] using works
  | some workspaceId => simp

theorem stillEntitled_none (entitled : stillEntitled directory p signerId = none) :
    directory.isCurrentApprover p.vaultId signerId ∧
      (homed directory p.vaultId → WorksAt directory p.vaultId signerId) ∧
      (signerId = p.creatorId → p.frozenRule ∧ directory.vaultAllowsRequester p.vaultId) := by
  unfold stillEntitled at entitled
  split at entitled
  · cases entitled
  · rename_i approver
    dsimp only at entitled
    split at entitled
    · cases entitled
    · rename_i standing
      split at entitled
      · cases entitled
      · rename_i separate
        refine ⟨by simpa using approver, (stillStanding_none p.vaultId).mp standing, ?_⟩
        intro own
        simpa [own] using separate

theorem stillEntitled_alike {object : Proposal} (alike : Alike object p) :
    stillEntitled directory object signerId = stillEntitled directory p signerId := by
  rw [alike]
  rfl

theorem writeRefusal_entitled {row : Proposal} {cast : Cast} {problem : Option Text}
    (free : writeRefusal directory row cast problem = none) :
    stillEntitled directory cast.proposal cast.signerId = none := by
  unfold writeRefusal at free
  split at free
  · cases free
  · split at free
    · cases free
    · rename_i entitled
      exact entitled

/-! ## Votes that land -/

variable {config : PaymentConfig} {desk : Desk}

-- A vote that is written is lawful but for the workspace, and lawful where the vault has one.
theorem landed_lawful {cast : Cast} {treasury : Option TreasuryRecord} {signature executionSignature : Bytes}
    {clock : Clock} {books : Books} (ready : Ready desk.books.board (.vote cast))
    (found : desk.books.board.proposals[cast.proposal.id]? = some p)
    (written : writeVote config desk.books cast treasury signature executionSignature clock = .ok books) :
    Lawful desk.books.board.directory p cast.signerId ↔ homed desk.books.board.directory p.vaultId := by
  obtain ⟨row, -, there, alike, -, -, asked, -⟩ := ready
  rw [found, Option.some.injEq] at there
  rw [← there] at alike asked
  obtain ⟨board, rows, -, recorded, -, -⟩ := writeVote_ok written
  obtain ⟨row', message, found', -, -, free, -⟩ := recordVote_ok recorded
  rw [found, Option.some.injEq] at found'
  rw [← found'] at free
  obtain ⟨isOpen, -⟩ := writeRefusal_none free
  have entitled := writeRefusal_entitled free
  rw [stillEntitled_alike alike] at entitled
  obtain ⟨approver, works, separate⟩ := stillEntitled_none entitled
  constructor
  · intro lawful
    exact worksAt_homed lawful.works
  · intro home
    exact ⟨isOpen, asked, (isCurrentApprover_iff p.vaultId).mp approver, works home, separate⟩

theorem pending_ready (directory : Directory) (now : Int) (events : List DeskEvent) {request : Nat}
    {r : Request} (pending : (deskAfter config directory now events).requests[request]? = some r) :
    Ready (deskAfter config directory now events).books.board r.pending := by
  have sound := deskAfter_sound config directory now events
  refine sound.ready r.pending (List.mem_map.mpr ⟨r, ?_, rfl⟩)
  exact List.mem_iff_getElem?.mpr ⟨request, pending⟩

-- What a step that writes a vote leaves
def leftBy (config : PaymentConfig) (desk : Desk) (event : DeskEvent) : Books := (deskStep config desk event).books

-- In every run, whoever is given a vote may cast it at that moment, exactly where the vault's owner
-- has a workspace or nobody has; and a vote that may not be cast leaves nothing behind it.
theorem votes_land_lawfully (config : PaymentConfig) (directory : Directory) (now : Int) (events : List DeskEvent)
    (event : DeskEvent) (desk : Desk) (reached : desk = deskAfter config directory now events) :
    (∀ (i : Nat) (p q : Proposal) (s : Signature), desk.books.board.proposals[i]? = some p →
      (leftBy config desk event).board.proposals[i]? = some q → s ∈ q.signatures → s ∉ p.signatures →
      (Lawful desk.books.board.directory p s.signerId ↔ homed desk.books.board.directory p.vaultId)) ∧
    (∀ (request : Nat) (signature executionSignature : Bytes) (clock : Clock) (cast : Cast)
      (treasury : Option TreasuryRecord) (p : Proposal),
      event = .recordVote request signature executionSignature clock →
      desk.requests[request]? = some ⟨.vote cast, treasury⟩ →
      desk.books.board.proposals[cast.proposal.id]? = some p → homed desk.books.board.directory p.vaultId →
      ¬ Lawful desk.books.board.directory p cast.signerId → leftBy config desk event = desk.books) := by
  constructor
  · intro i p q s found there cast fresh
    obtain ⟨request, signature, executionSignature, clock, vote, treasury, books, -, pending, written, here, same⟩ :=
      new_vote found there cast fresh
    rw [reached] at pending
    have ready := pending_ready directory now events pending
    rw [← reached] at ready
    have signer : s.signerId = vote.signerId := by rw [same]; rfl
    rw [signer]
    exact landed_lawful ready (by rw [here, found]) written
  · intro request signature executionSignature clock cast treasury p writes pending found home unlawful
    have pending' := pending
    rw [reached] at pending'
    have ready := pending_ready directory now events pending'
    rw [← reached] at ready
    unfold leftBy
    rw [writes]
    simp only [deskStep, pending]
    cases written : writeVote config desk.books cast treasury signature executionSignature (clock.at desk.now) with
    | error _ => rfl
    | ok books => exact absurd ((landed_lawful ready found written).mpr home) unlawful

section Sample

def deskConfig : PaymentConfig where
  toVoteConfig := voteConfig
  keccak256 _ := 0
  onchainExecutionEnabled := false

-- The three approvers as members of a workspace, which is the vault's as long as its owner has one
def staffed (home : Option Int) : Directory where
  vault _ := { (threeApprovers true).vault 1 with homeWorkspaceId := home }
  membership _ _ := some ⟨.member, true⟩
  anyWorkspace := true

def rentVote (signerId : Nat) (vote : Vote) : Bytes :=
  match voteSigningBytes rentHash (.str vote.text) (.int signerId) with
  | .ok message => voteHash (UInt8.ofNat signerId :: message)
  | .error _ => []

def deskKey (userId : Nat) : DeskEvent :=
  .addKey ⟨some userId, true, "ML-DSA-65", [UInt8.ofNat userId], .password⟩

def openRentVote (signerId : Nat) : DeskEvent :=
  .openCast ⟨0, signerId, "approve", .null, .password⟩ none rentClock

def writeRentVote (request signerId : Nat) : DeskEvent :=
  .recordVote request (rentVote signerId .approve) [] rentClock

-- The second approver's vote has passed its gate when the directory changes.
def rentVoteOpen (changed : Directory) : List DeskEvent :=
  [deskKey 1, deskKey 2, deskKey 3, .plain (.createProposal rentDraft rfl rentClock), openRentVote 2,
    .plain (.directory changed)]

def rentVoteDesk (changed : Directory) : Desk := deskAfter deskConfig (staffed (some 1)) 0 (rentVoteOpen changed)

theorem rentVoteDesk_eq (changed : Directory) :
    rentVoteDesk changed = deskAfter deskConfig (staffed (some 1)) 0 (rentVoteOpen changed) := rfl

theorem votes_land_lawfully_unchanged :
    ((leftBy deskConfig (rentVoteDesk (staffed (some 1))) (writeRentVote 0 2)).board.proposals.map
      fun q => q.signatures.map (·.signerId)) = [[2]] ∧
    (∀ (i : Nat) (p q : Proposal) (s : Signature),
      (rentVoteDesk (staffed (some 1))).books.board.proposals[i]? = some p →
      (leftBy deskConfig (rentVoteDesk (staffed (some 1))) (writeRentVote 0 2)).board.proposals[i]? = some q →
      s ∈ q.signatures → s ∉ p.signatures →
      (Lawful (rentVoteDesk (staffed (some 1))).books.board.directory p s.signerId ↔
        homed (rentVoteDesk (staffed (some 1))).books.board.directory p.vaultId)) :=
  ⟨by decide +kernel,
    (votes_land_lawfully deskConfig (staffed (some 1)) 0 (rentVoteOpen (staffed (some 1))) (writeRentVote 0 2)
      (rentVoteDesk (staffed (some 1))) (rentVoteDesk_eq _)).1⟩

-- A board of one decision that has gained its first vote
theorem only_vote {before after : Board} {keyId : Nat} (unvoted : ballots before = [[]])
    (voted : (ballots after).map (fun votes => votes.map (·.keyId)) = [[keyId]]) :
    ∃ p q s, before.proposals = [p] ∧ after.proposals[0]? = some q ∧ s ∈ q.signatures ∧ s ∉ p.signatures ∧
      s.keyId = keyId := by
  obtain ⟨p, one, none⟩ := List.map_eq_singleton_iff.mp unvoted
  obtain ⟨votes, same, keys⟩ := List.map_eq_singleton_iff.mp voted
  obtain ⟨q, there, signatures⟩ := List.map_eq_singleton_iff.mp same
  obtain ⟨s, only, key⟩ := List.map_eq_singleton_iff.mp keys
  exact ⟨p, q, s, one, by rw [there]; rfl, by simp [signatures, only], by simp [none], key⟩

-- The owner is suspended and removed from the workspace before the vote is written.
theorem homeless_vote_lands :
    ¬ ∀ (i : Nat) (p q : Proposal) (s : Signature), (rentVoteDesk (staffed none)).books.board.proposals[i]? = some p →
      (leftBy deskConfig (rentVoteDesk (staffed none)) (writeRentVote 0 2)).board.proposals[i]? = some q →
      s ∈ q.signatures → s ∉ p.signatures → Lawful (rentVoteDesk (staffed none)).books.board.directory p s.signerId := by
  intro claim
  have unvoted : ballots (rentVoteDesk (staffed none)).books.board = [[]] := by decide +kernel
  have voted : (ballots (leftBy deskConfig (rentVoteDesk (staffed none)) (writeRentVote 0 2)).board).map
      (fun votes => votes.map (·.keyId)) = [[1]] := by decide +kernel
  obtain ⟨p, q, s, one, there, cast, fresh, -⟩ := only_vote unvoted voted
  have works := (claim 0 p q s (by rw [one]; rfl) there cast fresh).works
  have directory : (rentVoteDesk (staffed none)).books.board.directory = staffed none := rfl
  rw [directory] at works
  cases works

end Sample

end QVault.Proof.Services
