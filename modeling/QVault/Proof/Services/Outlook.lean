import QVault.Services.Shortfall
import QVault.Proof.Services.NeedsYou
import QVault.Proof.Services.VoteOutcome
import QVault.Proof.Services.DecisionLifecycle

/-!
# When a decision can no longer pass

Who is left to approve a decision, who decides it, and what stops the others.
-/

namespace QVault.Proof.Outlook
open QVault.Python QVault.Services QVault.Workspaces QVault.Proof.Services QVault.Proof.NeedsYou

variable {db : Database} {directory : Directory} {p : Proposal} {userId : Int}

/-! ## Who decides -/

-- A decision as raising it and voting on it leave it: its N is its frozen set, with at most one vote of each.
structure Counted (p : Proposal) : Prop where
  signers : p.authorizedSigners.Nodup
  counted : p.requiredN = p.authorizedSigners.length
  voters : (p.signatures.map (·.signerId)).Nodup
  authorised : ∀ s ∈ p.signatures, s.signerId ∈ p.authorizedSigners

theorem counted_of_recorded {config : VoteConfig} {board : Board} (recorded : Recorded config board p) : Counted p :=
  ⟨recorded.signers, recorded.counted, recorded.voters, recorded.authorised⟩

def voters (p : Proposal) : List Int := p.signatures.map (·.signerId)

-- The people its rule lets vote on it
def deciders (p : Proposal) (directory : Directory) : List Int :=
  if p.requesterExcluded directory = true then p.authorizedSigners.erase p.creatorId else p.authorizedSigners

theorem hasVoted_iff : p.hasVoted userId = true ↔ userId ∈ voters p := by
  rw [← hasVoted_eq, List.contains_iff_mem]
  rfl

theorem excluded_iff : p.requesterExcluded directory = true ↔
    p.creatorId ∈ p.authorizedSigners ∧ p.requesterMayApprove directory = false ∧ p.creatorId ∉ voters p := by
  rw [← hasVoted_iff]
  simp [Proposal.requesterExcluded, and_assoc]

theorem mem_still : userId ∈ p.still directory ↔ userId ∈ p.authorizedSigners ∧ directory.signsNow p.vaultId userId = true ∧
    (p.requesterMayApprove directory = true ∨ userId ≠ p.creatorId) ∧ userId ∉ voters p := by
  rw [← hasVoted_iff]
  simp [Proposal.still, and_assoc]

theorem mem_deciders (counted : Counted p) : userId ∈ deciders p directory ↔
    userId ∈ p.authorizedSigners ∧ ¬(p.requesterExcluded directory = true ∧ userId = p.creatorId) := by
  unfold deciders
  split
  · rename_i excluded
    rw [counted.signers.mem_erase_iff]
    simp [excluded, and_comm]
  · rename_i included
    simp [included]

theorem deciders_length (counted : Counted p) : ((deciders p directory).length : Int) = p.decidingN directory := by
  unfold deciders Proposal.decidingN
  rw [counted.counted]
  split
  · rename_i excluded
    have listed := (excluded_iff.mp excluded).1
    have positive := List.length_pos_of_mem listed
    rw [List.length_erase_of_mem listed]
    omega
  · omega

theorem still_voters_nodup (counted : Counted p) : (p.still directory ++ voters p).Nodup := by
  apply List.Nodup.append _ counted.voters
  · intro id still voted
    exact (mem_still.mp still).2.2.2 voted
  · exact (List.nodup_dedup _).filter _

theorem still_voters_deciders (counted : Counted p) : p.still directory ++ voters p ⊆ deciders p directory := by
  intro id member
  rw [mem_deciders counted]
  obtain still | voted := List.mem_append.mp member
  · obtain ⟨listed, -, free, -⟩ := mem_still.mp still
    refine ⟨listed, ?_⟩
    rintro ⟨excluded, rfl⟩
    have barred := (excluded_iff.mp excluded).2.1
    simp [barred] at free
  · obtain ⟨s, stored, rfl⟩ := List.mem_map.mp voted
    refine ⟨counted.authorised s stored, ?_⟩
    rintro ⟨excluded, same⟩
    exact (excluded_iff.mp excluded).2.2 (same ▸ voted)

-- Where everyone of the frozen set can sign, whoever decides it has voted or is still to.
theorem deciders_still_voters (counted : Counted p) (standing : ∀ id ∈ p.authorizedSigners, directory.signsNow p.vaultId id = true) :
    deciders p directory ⊆ p.still directory ++ voters p := by
  intro id decides
  obtain ⟨listed, included⟩ := (mem_deciders counted).mp decides
  by_cases voted : id ∈ voters p
  · exact List.mem_append_right _ voted
  · apply List.mem_append_left
    refine mem_still.mpr ⟨listed, standing id listed, ?_, voted⟩
    by_contra barred
    rw [not_or, Bool.not_eq_true, not_not] at barred
    obtain ⟨barred, rfl⟩ := barred
    exact included ⟨excluded_iff.mpr ⟨listed, barred, voted⟩, rfl⟩

theorem still_le (counted : Counted p) :
    ((p.still directory).length : Int) + p.signatures.length ≤ p.decidingN directory := by
  have nodup : (p.still directory ++ voters p).Nodup := still_voters_nodup counted
  have lengths := (nodup.subperm (still_voters_deciders counted)).length_le
  rw [List.length_append, voters, List.length_map] at lengths
  have decides : ((deciders p directory).length : Int) = p.decidingN directory := deciders_length counted
  omega

theorem still_eq_of_standing (counted : Counted p) (standing : ∀ id ∈ p.authorizedSigners, directory.signsNow p.vaultId id = true) :
    ((p.still directory).length : Int) + p.signatures.length = p.decidingN directory := by
  have nodup : (deciders p directory).Nodup := by
    unfold deciders
    split
    · exact counted.signers.erase _
    · exact counted.signers
  have lengths := (nodup.subperm (deciders_still_voters counted standing)).length_le
  rw [List.length_append, voters, List.length_map] at lengths
  have decides : ((deciders p directory).length : Int) = p.decidingN directory := deciders_length counted
  have most : ((p.still directory).length : Int) + p.signatures.length ≤ p.decidingN directory := still_le counted
  omega

theorem votes_total (p : Proposal) : (p.votes .approve).length + (p.votes .reject).length = p.signatures.length := by
  unfold Proposal.votes
  induction p.signatures with
  | nil => rfl
  | cons s rest ih =>
    cases vote : s.decision <;> simp [vote] <;> omega

/-! ## Out of reach -/

theorem cannotPass_iff (isOpen : p.status = .open) (short : ((p.votes .approve).length : Int) < p.requiredM) :
    p.cannotPass directory = true ↔ ((p.still directory).length : Int) + (p.votes .approve).length < p.requiredM := by
  unfold Proposal.cannotPass
  simp only [isOpen, decide_true, Bool.true_and, decide_eq_true_eq]
  omega

theorem rejectionCloses_iff (rejections : Nat) :
    p.rejectionCloses directory rejections = true ↔ p.decidingN directory - p.requiredM < rejections := by
  unfold Proposal.rejectionCloses
  rw [decide_eq_true_eq]

theorem cannotPass_of_standing (counted : Counted p) (isOpen : p.status = .open)
    (short : ((p.votes .approve).length : Int) < p.requiredM)
    (standing : ∀ id ∈ p.authorizedSigners, directory.signsNow p.vaultId id = true) :
    p.cannotPass directory = true ↔ p.rejectionCloses directory (p.votes .reject).length = true := by
  rw [cannotPass_iff isOpen short, rejectionCloses_iff]
  have lengths := still_eq_of_standing counted standing
  have total := votes_total p
  omega

/-! ## Approvals the gate accepts -/

-- What a vote leaves, every vote stored being one that counts
def afterVote (directory : Directory) (p : Proposal) (vote : Signature) : Proposal :=
  closed (voted p vote) (outcomeOf (voted p vote) directory (countsOf (voted p vote)))

-- Some sequence of approvals, each of them accepted by the gate, ends with the decision approved.
inductive CanBeApproved (db : Database) (clock : Clock) : Proposal → Prop
  | approved {p : Proposal} (ended : p.status = .approved) : CanBeApproved db clock p
  | approval {p : Proposal} (vote : Signature) (approves : vote.decision = .approve)
      (accepted : db.approvalAccepted p vote.signerId clock = true)
      (rest : CanBeApproved db clock (afterVote db.directory p vote)) : CanBeApproved db clock p

theorem counted_voted {vote : Signature} (counted : Counted p) (listed : vote.signerId ∈ p.authorizedSigners)
    (unvoted : vote.signerId ∉ voters p) : Counted (voted p vote) where
  signers := counted.signers
  counted := counted.counted
  voters := by
    rw [voted, List.map_append, List.map_singleton, List.nodup_append]
    refine ⟨counted.voters, List.nodup_singleton _, ?_⟩
    rintro id there other new rfl
    exact unvoted (List.mem_singleton.mp new ▸ there)
  authorised := by
    intro s stored
    obtain old | new := List.mem_append.mp stored
    · exact counted.authorised s old
    · rw [List.mem_singleton.mp new]
      exact listed

theorem voted_hasVoted (vote : Signature) : (voted p vote).hasVoted userId = (p.hasVoted userId || vote.signerId = userId) := by
  simp [Proposal.hasVoted, voted]

theorem still_voted {vote : Signature} (waiting : vote.signerId ∈ p.still directory) :
    ((voted p vote).still directory).length + 1 = (p.still directory).length := by
  have nodup : (p.still directory).Nodup := (List.nodup_dedup _).filter _
  have erased : (voted p vote).still directory = (p.still directory).erase vote.signerId := by
    rw [nodup.erase_eq_filter]
    unfold Proposal.still
    rw [List.filter_filter]
    refine List.filter_congr fun id _ => ?_
    rw [voted_hasVoted]
    change (directory.signsNow p.vaultId id && (p.requesterMayApprove directory || id != p.creatorId) &&
      !(p.hasVoted id || decide (vote.signerId = id))) = _
    by_cases same : vote.signerId = id
    · simp [same]
    · simp [same, Ne.symm same]
  rw [erased, List.length_erase_of_mem waiting]
  exact Nat.sub_add_cancel (List.length_pos_of_mem waiting)

theorem accepted_of_still {clock : Clock} (isOpen : p.status = .open) (notPast : pastDeadline p clock = false)
    (waiting : userId ∈ p.still db.directory) (passable : p.cannotPass db.directory = false) :
    db.approvalAccepted p userId clock = true := by
  obtain ⟨listed, signs, free, unvoted⟩ := mem_still.mp waiting
  refine (accepted_iff notPast).mpr ⟨isOpen, listed, signsNow_iff.mp signs, ?_, ?_, passable⟩
  · rintro ⟨own, barred⟩
    obtain may | other := free
    · rw [barred] at may
      cases may
    · exact other own
  · rw [← Bool.not_eq_true, hasVoted_iff]
    exact unvoted

def approvalOf (userId : Int) : Signature := ⟨userId, 0, [], [], .approve, [], [], none⟩

theorem approvals_voted (p : Proposal) (userId : Int) :
    ((voted p (approvalOf userId)).votes .approve).length = (p.votes .approve).length + 1 := votes_voted _ _

theorem rejections_voted (p : Proposal) (userId : Int) :
    ((voted p (approvalOf userId)).votes .reject).length = (p.votes .reject).length := votes_voted _ _

-- One approval of somebody still able to give one decides it, or leaves it as able to pass as before.
theorem afterVote_approval (counted : Counted p) (isOpen : p.status = .open)
    (short : ((p.votes .approve).length : Int) < p.requiredM) (waiting : userId ∈ p.still db.directory)
    (passable : p.cannotPass db.directory = false) :
    (afterVote db.directory p (approvalOf userId)).status = .approved ∨
      afterVote db.directory p (approvalOf userId) = voted p (approvalOf userId) ∧
      (((voted p (approvalOf userId)).votes .approve).length : Int) < p.requiredM ∧
      (voted p (approvalOf userId)).cannotPass db.directory = false := by
  obtain ⟨listed, -, -, unvoted⟩ := mem_still.mp waiting
  have counted' : Counted (voted p (approvalOf userId)) := counted_voted counted listed unvoted
  have approvals := approvals_voted p userId
  have rejections := rejections_voted p userId
  have left : ((voted p (approvalOf userId)).still db.directory).length + 1 = (p.still db.directory).length :=
    still_voted waiting
  have enough : p.requiredM ≤ ((p.still db.directory).length : Int) + (p.votes .approve).length := by
    rw [← not_lt, ← cannotPass_iff isOpen short, passable]
    exact Bool.false_ne_true
  by_cases reached : p.requiredM ≤ ((voted p (approvalOf userId)).votes .approve).length
  · refine .inl (if_pos reached)
  · refine .inr ⟨?_, not_le.mp reached, ?_⟩
    · have most : (((voted p (approvalOf userId)).still db.directory).length : Int) +
          (voted p (approvalOf userId)).signatures.length ≤ (voted p (approvalOf userId)).decidingN db.directory :=
        still_le counted'
      have total := votes_total (voted p (approvalOf userId))
      have goesOn : ¬ (voted p (approvalOf userId)).rejectionCloses db.directory
          ((voted p (approvalOf userId)).votes .reject).length = true := by
        rw [rejectionCloses_iff]
        change ¬ _ - p.requiredM < _
        omega
      have outcome : outcomeOf (voted p (approvalOf userId)) db.directory (countsOf (voted p (approvalOf userId))) = .open := by
        rw [outcomeOf, countsOf, if_neg goesOn]
        exact if_neg reached
      rw [afterVote, outcome, closed, ← isOpen]
      rfl
    · rw [← Bool.not_eq_true, cannotPass_iff (p := voted p (approvalOf userId)) isOpen (not_le.mp reached)]
      change ¬ _ < p.requiredM
      omega

theorem someone_waits (isOpen : p.status = .open) (short : ((p.votes .approve).length : Int) < p.requiredM)
    (passable : p.cannotPass directory = false) : ∃ userId, userId ∈ p.still directory := by
  apply List.exists_mem_of_length_pos
  by_contra nobody
  have stuck : p.cannotPass directory = true := (cannotPass_iff isOpen short).mpr (by omega)
  rw [passable] at stuck
  cases stuck

-- The induction is on the approvals that are missing.
theorem canBeApproved {clock : Clock} {needed : Nat} (counted : Counted p) (isOpen : p.status = .open)
    (notPast : pastDeadline p clock = false) (short : p.requiredM = (p.votes .approve).length + (needed + 1 : Nat))
    (passable : p.cannotPass db.directory = false) : CanBeApproved db clock p := by
  induction needed generalizing p with
  | zero =>
    have few : ((p.votes .approve).length : Int) < p.requiredM := by omega
    obtain ⟨userId, waiting⟩ := someone_waits isOpen few passable
    refine .approval (approvalOf userId) rfl (accepted_of_still isOpen notPast waiting passable) ?_
    obtain decided | ⟨-, still, -⟩ := afterVote_approval counted isOpen few waiting passable
    · exact .approved decided
    · have approvals := approvals_voted p userId
      omega
  | succ needed ih =>
    have few : ((p.votes .approve).length : Int) < p.requiredM := by omega
    obtain ⟨userId, waiting⟩ := someone_waits isOpen few passable
    obtain ⟨listed, -, -, unvoted⟩ := mem_still.mp waiting
    refine .approval (approvalOf userId) rfl (accepted_of_still isOpen notPast waiting passable) ?_
    obtain decided | ⟨left, -, passable'⟩ := afterVote_approval counted isOpen few waiting passable
    · exact .approved decided
    · rw [left]
      refine ih (counted_voted counted listed unvoted) isOpen notPast ?_ passable'
      have approvals := approvals_voted p userId
      change p.requiredM = _
      omega

theorem wanted_of_accepted {clock : Clock} (accepted : db.approvalAccepted p userId clock = true) : Wanted db p userId := by
  have notPast : pastDeadline p clock = false := by
    unfold Database.approvalAccepted at accepted
    rw [Bool.and_eq_true] at accepted
    simpa using accepted.1
  exact (accepted_iff notPast).mp accepted

theorem cannotPass_exact {clock : Clock} (counted : Counted p) (isOpen : p.status = .open) (notPast : pastDeadline p clock = false) :
    db.cannotPass p = false ↔ p.requiredM ≤ (p.votes .approve).length ∨ CanBeApproved db clock p := by
  rw [cannotPass_eq]
  constructor
  · intro passable
    by_cases reached : p.requiredM ≤ (p.votes .approve).length
    · exact .inl reached
    · have missing : p.requiredM =
          (p.votes .approve).length + ((p.requiredM - (p.votes .approve).length - 1).toNat + 1 : Nat) := by omega
      exact .inr (canBeApproved counted isOpen notPast missing passable)
  · rintro (reached | possible)
    · unfold Proposal.cannotPass
      simp only [isOpen, decide_true, Bool.true_and, decide_eq_false_iff_not, not_lt]
      omega
    · cases possible with
      | approved ended =>
        rw [isOpen] at ended
        cases ended
      | approval vote approves accepted rest => exact (wanted_of_accepted accepted).2.2.2.2.2

/-! ## Everyone's place -/

inductive Place
  | approved | still | rejected | demoted | removed | suspended | auditor | requester

def In (db : Database) (p : Proposal) (userId : Int) : Place → Prop
  | .approved => userId ∈ p.authorizedSigners ∧ votedAs p userId = some .approve
  | .still => userId ∈ (db.storedOutlook p).still
  | .rejected => userId ∈ (db.shortfall p).rejected
  | .demoted => userId ∈ (db.shortfall p).demoted
  | .removed => userId ∈ (db.shortfall p).removed
  | .suspended => userId ∈ (db.shortfall p).suspended
  | .auditor => userId ∈ (db.shortfall p).auditors
  | .requester => (db.shortfall p).requester = some userId

def placeOfStop : Stop → Place
  | .removed => .removed
  | .demoted => .demoted
  | .requester => .requester
  | .auditor => .auditor
  | .suspended => .suspended

theorem votedAs_isSome : (votedAs p userId).isSome = p.hasVoted userId := by
  rw [votedAs, Option.isSome_map, Bool.eq_iff_iff, List.find?_isSome, Proposal.hasVoted, List.any_eq_true]
  simp

theorem mem_stoppedBy {stop : Stop} : userId ∈ db.stoppedBy p stop ↔
    userId ∈ p.authorizedSigners ∧ votedAs p userId ≠ some .approve ∧ userId ∉ db.eligibleNow p ∧ db.stopOf p userId = stop := by
  simp only [Database.stoppedBy, Database.stopped, List.mem_filter, List.mem_insertionSort, List.mem_dedup, Bool.not_eq_true',
    Bool.or_eq_false_iff, decide_eq_false_iff_not, List.contains_eq_mem, decide_eq_true_eq, and_assoc]

theorem mem_eligible_listed (eligible : userId ∈ db.eligibleNow p) : userId ∈ p.authorizedSigners := by
  simp only [Database.eligibleNow, eligibleIds, List.mem_filter, List.mem_dedup] at eligible
  exact eligible.1

theorem mem_rejected : userId ∈ (db.shortfall p).rejected ↔ userId ∈ db.eligibleNow p ∧ votedAs p userId = some .reject := by
  simp [Database.shortfall]

theorem mem_storedStill : userId ∈ (db.storedOutlook p).still ↔ userId ∈ db.eligibleNow p ∧ votedAs p userId = none := by
  rw [← Option.not_isSome_iff_eq_none, votedAs_isSome, ← hasVoted_eq]
  simp [Database.storedOutlook, outlook]

theorem stopOf_requester (stop : db.stopOf p userId = .requester) : userId = p.creatorId := by
  rw [Database.stopOf] at stop
  split at stop
  · cases stop
  · split at stop
    · cases stop
    · split at stop
      · rename_i own
        exact own.1
      · split at stop <;> cases stop

theorem requester_iff : (db.shortfall p).requester = some userId ↔ userId ∈ db.stoppedBy p .requester := by
  change (db.stoppedBy p .requester).getLast? = some userId ↔ _
  constructor
  · exact List.mem_of_getLast?
  · intro member
    obtain ⟨last, found⟩ := Option.isSome_iff_exists.mp (List.getLast?_isSome.mpr (List.ne_nil_of_mem member))
    have own := stopOf_requester (mem_stoppedBy.mp member).2.2.2
    have own' := stopOf_requester (mem_stoppedBy.mp (List.mem_of_getLast? found)).2.2.2
    rw [found, own, own']

theorem in_placeOfStop {stop : Stop} : In db p userId (placeOfStop stop) ↔ userId ∈ db.stoppedBy p stop := by
  cases stop with
  | requester => exact requester_iff
  | removed => rfl
  | demoted => rfl
  | auditor => rfl
  | suspended => rfl

-- The one place of somebody in the frozen set
def placeOf (db : Database) (p : Proposal) (userId : Int) : Place :=
  match votedAs p userId with
  | some .approve => .approved
  | some .reject => if userId ∈ db.eligibleNow p then .rejected else placeOfStop (db.stopOf p userId)
  | none => if userId ∈ db.eligibleNow p then .still else placeOfStop (db.stopOf p userId)

theorem in_placeOf (listed : userId ∈ p.authorizedSigners) : In db p userId (placeOf db p userId) := by
  unfold placeOf
  split
  · rename_i approved
    exact ⟨listed, approved⟩
  · rename_i rejected
    split
    · rename_i eligible
      exact mem_rejected.mpr ⟨eligible, rejected⟩
    · rename_i ineligible
      exact in_placeOfStop.mpr (mem_stoppedBy.mpr ⟨listed, by simp [rejected], ineligible, rfl⟩)
  · rename_i unvoted
    split
    · rename_i eligible
      exact mem_storedStill.mpr ⟨eligible, unvoted⟩
    · rename_i ineligible
      exact in_placeOfStop.mpr (mem_stoppedBy.mpr ⟨listed, by simp [unvoted], ineligible, rfl⟩)

theorem placeOf_stopped {stop : Stop} (member : userId ∈ db.stoppedBy p stop) :
    userId ∈ p.authorizedSigners ∧ placeOf db p userId = placeOfStop stop := by
  obtain ⟨listed, unapproved, ineligible, rfl⟩ := mem_stoppedBy.mp member
  refine ⟨listed, ?_⟩
  unfold placeOf
  split
  · rename_i approved
    exact absurd approved unapproved
  · rw [if_neg ineligible]
  · rw [if_neg ineligible]

theorem placeOf_of_in {place : Place} (member : In db p userId place) :
    userId ∈ p.authorizedSigners ∧ placeOf db p userId = place := by
  cases place with
  | approved =>
    refine ⟨member.1, ?_⟩
    rw [placeOf, member.2]
  | still =>
    obtain ⟨eligible, unvoted⟩ := mem_storedStill.mp member
    refine ⟨mem_eligible_listed eligible, ?_⟩
    rw [placeOf, unvoted]
    exact if_pos eligible
  | rejected =>
    obtain ⟨eligible, rejected⟩ := mem_rejected.mp member
    refine ⟨mem_eligible_listed eligible, ?_⟩
    rw [placeOf, rejected]
    exact if_pos eligible
  | demoted =>
    have stopped : userId ∈ db.stoppedBy p .demoted := member
    exact placeOf_stopped stopped
  | removed =>
    have stopped : userId ∈ db.stoppedBy p .removed := member
    exact placeOf_stopped stopped
  | suspended =>
    have stopped : userId ∈ db.stoppedBy p .suspended := member
    exact placeOf_stopped stopped
  | auditor =>
    have stopped : userId ∈ db.stoppedBy p .auditor := member
    exact placeOf_stopped stopped
  | requester =>
    have stopped : userId ∈ db.stoppedBy p .requester := requester_iff.mp member
    exact placeOf_stopped stopped

/-! ## The whole -/

theorem outlook_exact :
    (∀ (db : Database) (clock : Clock) (p : Proposal), Counted p → p.status = .open → pastDeadline p clock = false →
      (db.cannotPass p = false ↔ p.requiredM ≤ (p.votes .approve).length ∨ CanBeApproved db clock p)) ∧
    (∀ (db : Database) (p : Proposal), Counted p → p.status = .open → ((p.votes .approve).length : Int) < p.requiredM →
      (∀ id ∈ p.authorizedSigners, p.vaultId ∈ signingVaultIds db.world id) →
      (db.cannotPass p = true ↔ p.rejectionCloses db.directory (p.votes .reject).length = true)) ∧
    (∀ (db : Database) (p : Proposal) (userId : Int),
      (userId ∈ p.authorizedSigners ↔ ∃ place, In db p userId place) ∧
      ∀ place place', In db p userId place → In db p userId place' → place = place') ∧
    ∀ (config : VoteConfig) (directory : Directory) (events : List BoardEvent),
      ∀ p ∈ (boardAfter config directory events).proposals, Counted p := by
  refine ⟨?_, ?_, ?_, ?_⟩
  · intro db clock p counted isOpen notPast
    exact cannotPass_exact counted isOpen notPast
  · intro db p counted isOpen short standing
    rw [cannotPass_eq]
    exact cannotPass_of_standing counted isOpen short fun id listed => signsNow_iff.mpr (standing id listed)
  · intro db p userId
    refine ⟨⟨fun listed => ⟨_, in_placeOf listed⟩, ?_⟩, ?_⟩
    · rintro ⟨place, member⟩
      exact (placeOf_of_in member).1
    · intro place place' member member'
      exact (placeOf_of_in member).2.symm.trans (placeOf_of_in member').2
  · intro config directory events p member
    obtain ⟨i, found⟩ := List.mem_iff_getElem?.mp member
    exact counted_of_recorded ((run_sound events (sound_start directory)).inOrder.orderly.rows i p found).2

/-! ## What the condition leaves out -/

-- A vault of two approvers, in no workspace
def twoApprovers : Database where
  world := { World.empty with vaults := [⟨1, 1, [⟨1, .owner⟩, ⟨2, .signer⟩]⟩] }
  vaultKeys := by decide
  vaultMembers := by decide
  threshold _ := 1
  positive _ := le_rfl
  rule _ := none
  proposals := []
  proposalKeys := by decide

def rentOpen : Proposal := ⟨0, [], 1, 1, [], [], none, none, [], [], [1, 2], [], 1, 2, none, none, .open, []⟩

def lateClock : Clock := ⟨1, [], fun _ => []⟩

theorem not_canBeApproved {clock : Clock} (unapproved : p.status ≠ .approved)
    (refused : ∀ vote : Signature, vote.decision = .approve → db.approvalAccepted p vote.signerId clock = true →
      ¬ CanBeApproved db clock (afterVote db.directory p vote)) : ¬ CanBeApproved db clock p := by
  rintro (ended | ⟨vote, approves, accepted, rest⟩)
  · exact unapproved ended
  · exact refused vote approves accepted rest

-- Past its deadline, with the approvals it needs already stored, or with an N that is not its frozen set's, an open
-- decision is none of those that can no longer pass, and no approval that is accepted gets it approved.
theorem outlook_inexact :
    (¬ ∀ (db : Database) (clock : Clock) (p : Proposal), Counted p → p.status = .open →
      (db.cannotPass p = false ↔ p.requiredM ≤ (p.votes .approve).length ∨ CanBeApproved db clock p)) ∧
    (¬ ∀ (db : Database) (clock : Clock) (p : Proposal), Counted p → p.status = .open → pastDeadline p clock = false →
      (db.cannotPass p = false ↔ CanBeApproved db clock p)) ∧
    ¬ ∀ (db : Database) (clock : Clock) (p : Proposal), p.status = .open → pastDeadline p clock = false →
      (db.cannotPass p = false ↔ p.requiredM ≤ (p.votes .approve).length ∨ CanBeApproved db clock p) := by
  refine ⟨?_, ?_, ?_⟩
  · intro exact
    have passable : twoApprovers.cannotPass { rentOpen with expiresAt := some 0 } = false := by decide
    obtain reached | possible := (exact twoApprovers lateClock _ ⟨by decide, rfl, by decide, by decide⟩ rfl).mp passable
    · exact absurd reached (by decide)
    · refine not_canBeApproved (by decide) ?_ possible
      intro vote approves accepted
      have past : pastDeadline { rentOpen with expiresAt := some 0 } lateClock = true := by decide
      rw [Database.approvalAccepted, past] at accepted
      cases accepted
  · intro exact
    have passable : twoApprovers.cannotPass { rentOpen with signatures := [approvalOf 1, approvalOf 2] } = false := by decide
    refine not_canBeApproved (by decide) ?_
      ((exact twoApprovers lateClock _ ⟨by decide, rfl, by decide, by decide⟩ rfl (by decide)).mp passable)
    intro vote approves accepted
    obtain ⟨-, listed, -, -, unvoted, -⟩ := wanted_of_accepted accepted
    have cast : ∀ id ∈ [1, 2], Proposal.hasVoted { rentOpen with signatures := [approvalOf 1, approvalOf 2] } id = true := by decide
    rw [cast _ listed] at unvoted
    cases unvoted
  · intro exact
    have passable : twoApprovers.cannotPass { rentOpen with requiredM := 2, requiredN := 1 } = false := by decide
    obtain reached | possible := (exact twoApprovers lateClock _ rfl (by decide)).mp passable
    · exact absurd reached (by decide)
    · refine not_canBeApproved (by decide) ?_ possible
      intro vote approves accepted
      -- One approval short of two, with an N of 1, is a rejection.
      have rejected : (afterVote twoApprovers.directory { rentOpen with requiredM := 2, requiredN := 1 } vote).status = .rejected := by
        have approvals := votes_voted (p := { rentOpen with requiredM := 2, requiredN := 1 }) vote .approve
        rw [if_pos approves] at approvals
        change outcomeOf _ _ (countsOf _) = .rejected
        rw [outcomeOf, if_neg, if_pos]
        · rw [rejectionCloses_iff, Proposal.decidingN]
          change 1 - _ - 2 < _
          split <;> omega
        · rw [countsOf, approvals]
          exact not_le.mpr (show (1 : Int) < 2 by norm_num)
      refine not_canBeApproved (by rw [rejected]; decide) ?_
      intro other _ accepted' _
      have still := (wanted_of_accepted accepted').1
      rw [rejected] at still
      cases still

theorem outlook_exact_sample :
    twoApprovers.cannotPass rentOpen = false ↔
      (1 : Int) ≤ 0 ∨ CanBeApproved twoApprovers lateClock rentOpen :=
  outlook_exact.1 twoApprovers lateClock rentOpen ⟨by decide, rfl, by decide, by decide⟩ rfl rfl

end QVault.Proof.Outlook
