import QVault.Mobile.Consequence
import QVault.Proof.Services.VoteOutcome

/-!
# When the phone says what the server will do

The phone counts rejections against a decision's N, and the server against those of its N who may vote.
The two differ by one when the person who raised a decision is kept from voting on it, and the phone
reads a decision as open at the instant of its deadline.
-/

namespace QVault.Proof.Mobile
open QVault.Mobile QVault.Services QVault.Python QVault.Proof.Services

variable {config : VoteConfig} {board after : Board} {p q : Proposal}

/-! ## The state of a decision -/

theorem statusText_open (status : Status) : utf16 status.text = js "open" ↔ status = .open := by
  cases status <;> decide

theorem statusText_injective {first second : Status} (same : utf16 first.text = utf16 second.text) :
    first = second := by
  revert same
  cases first <;> cases second <;> decide

-- When the phone shows a decision's state as the server does: it is closed, has no deadline or is before
-- it, or is past it and its rejections are not the ones that close it for its voters alone.
def StateForetold (directory : Directory) (p : Proposal) (now : Int) : Prop :=
  p.status ≠ .open ∨ ∀ deadline, p.expiresAt = some deadline → 1000 * now < deadline ∨
    (deadline < 1000 * now ∧
      ¬ (p.requesterExcluded directory = true ∧ ((p.votes .reject).length : Int) = p.requiredN - p.requiredM))

theorem rejectionCloses_iff (directory : Directory) (rejections : Nat) :
    p.rejectionCloses directory rejections = true ↔
      p.requiredN - (if p.requesterExcluded directory = true then 1 else 0) - p.requiredM < rejections := by
  unfold Proposal.rejectionCloses Proposal.decidingN
  rw [decide_eq_true_eq]

theorem effectiveStatus_past {directory : Directory} {deadline now : Int} (isOpen : p.status = .open)
    (expires : p.expiresAt = some deadline) (past : deadline ≤ now)
    (short : ((p.votes .approve).length : Int) < p.requiredM) :
    effectiveStatus directory p now = if p.requiredN - p.requiredM < (p.votes .reject).length ∨
      p.rejectionCloses directory (p.votes .reject).length = true then .rejected else .expired := by
  unfold effectiveStatus
  have isPast : p.status = .open ∧ (p.expiresAt.any fun deadline => deadline ≤ now) = true := by
    simp [isOpen, expires, past]
  rw [if_pos isPast]
  simp only [if_neg (show ¬ p.requiredM ≤ ((p.votes .approve).length : Int) by omega)]
  congr 1
  simp only [rejectionCloses_iff, eq_iff_iff]
  by_cases excluded : p.requesterExcluded directory = true
  · simp only [if_pos excluded]
    constructor
    · rintro (beyond | ⟨-, closes⟩)
      · exact .inl beyond
      · exact .inr closes
    · rintro (beyond | closes)
      · exact .inl beyond
      · exact .inr ⟨by omega, closes⟩
  · simp only [if_neg excluded]
    omega

theorem decisionStatus_past {facts : StatusFacts} {deadline now : Int} (isOpen : facts.status = js "open")
    (expires : facts.expiresAt = some deadline) (past : deadline / 1000 < now)
    (short : facts.approvals < facts.requiredM) :
    decisionStatus facts now =
      utf16 (if facts.requiredN - facts.requiredM < facts.rejections then Status.rejected else .expired).text := by
  unfold decisionStatus
  rw [if_neg (not_not.mpr isOpen), expires]
  simp only [parseInstant, Option.map_some]
  rw [if_neg (by omega), if_neg (by omega)]
  split <;> rfl

-- Past its deadline, a decision is rejected to one side and expired to the other.
theorem pastStatus_iff {M N : Int} {rejections : Nat} {excluded : Prop} [Decidable excluded] :
    utf16 (if N - M < rejections then Status.rejected else .expired).text =
      utf16 (if N - M < rejections ∨ N - (if excluded then 1 else 0) - M < rejections then
        Status.rejected else .expired).text ↔ ¬ (excluded ∧ (rejections : Int) = N - M) := by
  by_cases beyond : N - M < rejections
  · rw [if_pos beyond, if_pos (.inl beyond)]
    refine iff_of_true rfl ?_
    rintro ⟨-, last⟩
    omega
  · rw [if_neg beyond]
    by_cases barred : excluded
    · rw [if_pos barred]
      by_cases last : (rejections : Int) = N - M
      · rw [if_pos (.inr (by omega))]
        exact iff_of_false (fun equal => nomatch statusText_injective equal) (not_not.mpr ⟨barred, last⟩)
      · rw [if_neg (by omega)]
        exact iff_of_true rfl fun both => last both.2
    · rw [if_neg barred, sub_zero, if_neg (by simp [beyond])]
      exact iff_of_true rfl fun both => barred both.1

theorem decisionStatus_unexpired {facts : StatusFacts} {now : Int} (isOpen : facts.status = js "open")
    (before : ∀ deadline, facts.expiresAt = some deadline → 1000 * now ≤ deadline) :
    decisionStatus facts now = utf16 (Status.text .open) := by
  unfold decisionStatus
  rw [if_neg (not_not.mpr isOpen)]
  cases expires : facts.expiresAt with
  | none => rfl
  | some deadline =>
    have early := before deadline expires
    simp only [parseInstant, Option.map_some]
    rw [if_pos (by omega)]
    rfl

theorem effectiveStatus_unexpired {directory : Directory} {now : Int} (isOpen : p.status = .open)
    (before : ∀ deadline, p.expiresAt = some deadline → now < deadline) :
    effectiveStatus directory p now = .open := by
  unfold effectiveStatus
  rw [if_neg, isOpen]
  rintro ⟨-, past⟩
  cases expires : p.expiresAt with
  | none => simp [expires] at past
  | some deadline =>
    have early := before deadline expires
    simp only [expires, Option.any_some, decide_eq_true_eq] at past
    omega

theorem decisionStatus_iff {now : Int} (counts : tally config board p = countsOf p)
    (undecided : Undecided config board p) :
    decisionStatus (statusFacts (proposalSummary config board p)) now =
      utf16 (effectiveStatus board.directory p (1000 * now)).text ↔ StateForetold board.directory p now := by
  by_cases isOpen : p.status = .open
  · have shown : (statusFacts (proposalSummary config board p)).status = js "open" := by
      change utf16 p.status.text = _
      rw [isOpen]
      rfl
    have short : ((p.votes .approve).length : Int) < p.requiredM := by
      have few := undecided isOpen
      rwa [counts] at few
    by_cases before : ∀ deadline, p.expiresAt = some deadline → 1000 * now < deadline
    · rw [decisionStatus_unexpired shown fun deadline expires => (before deadline expires).le,
        effectiveStatus_unexpired isOpen before]
      simp only [true_iff]
      exact .inr fun deadline expires => .inl (before deadline expires)
    · push Not at before
      obtain ⟨deadline, expires, past⟩ := before
      rw [effectiveStatus_past isOpen expires past short]
      have foretold : StateForetold board.directory p now ↔ deadline < 1000 * now ∧
          ¬ (p.requesterExcluded board.directory = true ∧
            ((p.votes .reject).length : Int) = p.requiredN - p.requiredM) := by
        unfold StateForetold
        simp only [isOpen, ne_eq, not_true_eq_false, false_or, expires, Option.some.injEq, forall_eq']
        constructor
        · rintro (early | late)
          · omega
          · exact late
        · exact .inr
      rw [foretold]
      rcases past.eq_or_lt with same | late
      · rw [decisionStatus_unexpired shown fun other expires' => by
          change p.expiresAt = some other at expires'
          rw [expires, Option.some.injEq] at expires'
          omega]
        constructor
        · intro equal
          have open' := statusText_injective equal
          split at open' <;> cases open'
        · rintro ⟨strict, -⟩
          omega
      · have rejections : (statusFacts (proposalSummary config board p)).rejections = (p.votes .reject).length := by
          change ((tally config board p).2 : Int) = _
          rw [counts]
          rfl
        have approvals : (statusFacts (proposalSummary config board p)).approvals = (p.votes .approve).length := by
          change ((tally config board p).1 : Int) = _
          rw [counts]
          rfl
        rw [decisionStatus_past shown expires (by omega) (by rw [approvals]; exact short), rejections]
        simp only [late, true_and, rejectionCloses_iff]
        exact pastStatus_iff
  · have shown : (statusFacts (proposalSummary config board p)).status ≠ js "open" := by
      change utf16 p.status.text ≠ _
      exact fun same => isOpen ((statusText_open _).mp same)
    unfold decisionStatus effectiveStatus
    rw [if_pos shown, if_neg fun both => isOpen both.1]
    exact ⟨fun _ => .inl isOpen, fun _ => rfl⟩

/-! ## What a signature does -/

def outcomeStatus : RuleOutcome → Status
  | .approved => .approved
  | .rejected => .rejected
  | .open => .open

-- What the sheet says of a rejection is what it does: it ends the decision, or it takes `k` more.
structure RejectionForetold (sentence : RejectSentence) (directory : Directory) (q : Proposal) : Prop where
  ends : sentence = .ends ↔ q.status = .rejected
  needs : ∀ k left pastPayBy, sentence = .needs k left pastPayBy → ∃ least : ℕ, k = least ∧
    IsLeast {more : ℕ | q.rejectionCloses directory ((q.votes .reject).length + more) = true} least

theorem requesterExcluded_voted {directory : Directory} {vote : Signature}
    (requester : vote.signerId = p.creatorId → p.requesterMayApprove directory = true) :
    (voted p vote).requesterExcluded directory = p.requesterExcluded directory := by
  unfold Proposal.requesterExcluded
  have may : (voted p vote).requesterMayApprove directory = p.requesterMayApprove directory := rfl
  rw [may]
  by_cases own : vote.signerId = p.creatorId
  · rw [requester own]
    simp
  · have same : (voted p vote).hasVoted p.creatorId = p.hasVoted p.creatorId := by
      simp [Proposal.hasVoted, voted, own]
    change (_ && _ && !(voted p vote).hasVoted p.creatorId) = _
    rw [same]
    rfl

-- A vote that was let through and written, and what it left
structure VoteLeft (board : Board) (p : Proposal) (vote : Signature) (q : Proposal) : Prop where
  isOpen : p.status = .open
  short : ((p.votes .approve).length : Int) < p.requiredM
  excluded : (voted p vote).requesterExcluded board.directory = p.requesterExcluded board.directory
  left : q = closed (voted p vote) (outcomeOf (voted p vote) board.directory (countsOf (voted p vote)))

variable {vote : Signature}

theorem VoteLeft.status (left : VoteLeft board p vote q) :
    q.status = outcomeOf (voted p vote) board.directory (countsOf (voted p vote)) := by
  rw [left.left]
  rfl

theorem outcomeOf_rejected {directory : Directory} {votes : Nat × Nat} :
    outcomeOf p directory votes = .rejected ↔
      (votes.1 : Int) < p.requiredM ∧ p.rejectionCloses directory votes.2 = true := by
  unfold outcomeOf
  by_cases reached : p.requiredM ≤ (votes.1 : Int)
  · simp [reached]
  · rw [if_neg reached]
    by_cases closes : p.rejectionCloses directory votes.2 = true <;> simp [closes] <;> omega

theorem outcomeOf_approved {directory : Directory} {votes : Nat × Nat} :
    outcomeOf p directory votes = .approved ↔ p.requiredM ≤ (votes.1 : Int) := by
  unfold outcomeOf
  by_cases reached : p.requiredM ≤ (votes.1 : Int)
  · simp [reached]
  · rw [if_neg reached]
    split <;> simp [reached]

theorem approveConsequence_completes (input : ApproveInput) :
    (approveConsequence input).completes = true ↔ input.M ≤ input.approvals + 1 := by
  unfold approveConsequence
  by_cases last : input.M ≤ input.approvals + 1 <;>
    cases input.isPayment <;> cases input.pastPayBy <;> simp [last, ApproveSentence.completes]

theorem VoteLeft.approval (left : VoteLeft board p vote q) (approves : vote.decision = .approve) :
    q.status = .approved ↔ p.requiredM ≤ ((p.votes .approve).length : Int) + 1 := by
  rw [left.status, outcomeOf_approved]
  change p.requiredM ≤ (((voted p vote).votes .approve).length : Int) ↔ _
  rw [votes_voted, if_pos approves]
  push_cast
  rfl

theorem VoteLeft.rejection (left : VoteLeft board p vote q) (rejects : vote.decision = .reject) :
    q.status = .rejected ↔ p.requiredN - (if p.requesterExcluded board.directory = true then 1 else 0) - p.requiredM <
      ((p.votes .reject).length : Int) + 1 := by
  have approvals : ((voted p vote).votes .approve).length = (p.votes .approve).length := by
    rw [votes_voted, rejects]
    rfl
  have short := left.short
  rw [left.status, outcomeOf_rejected, rejectionCloses_iff, left.excluded]
  change (((voted p vote).votes .approve).length : Int) < p.requiredM ∧
    p.requiredN - _ - p.requiredM < (((voted p vote).votes .reject).length : Int) ↔ _
  rw [approvals, votes_voted, if_pos rejects]
  push_cast
  exact ⟨fun both => both.2, fun closes => ⟨short, closes⟩⟩

theorem VoteLeft.closes (left : VoteLeft board p vote q) (stillOpen : q.status = .open) (rejections : Nat) :
    q.rejectionCloses board.directory rejections = true ↔
      p.requiredN - (if p.requesterExcluded board.directory = true then 1 else 0) - p.requiredM < rejections := by
  have same : q = voted p vote := by
    have outcome := left.status.symm.trans stillOpen
    have kept : (voted p vote).status = .open := left.isOpen
    rw [left.left, outcome, closed, ← kept]
  rw [rejectionCloses_iff, same, left.excluded]
  rfl

theorem VoteLeft.rejected_open (left : VoteLeft board p vote q) (rejects : vote.decision = .reject)
    (unended : q.status ≠ .rejected) : q.status = .open := by
  have unapproved : q.status ≠ .approved := by
    rw [left.status, ne_eq, outcomeOf_approved]
    change ¬ p.requiredM ≤ (((voted p vote).votes .approve).length : Int)
    rw [votes_voted, rejects]
    have short := left.short
    simpa using short
  rw [left.status] at unended unapproved ⊢
  unfold outcomeOf at unended unapproved ⊢
  split
  · rename_i reached
    exact absurd (if_pos reached) unapproved
  · rename_i few
    rw [if_neg few] at unended
    split
    · rename_i closes
      exact absurd (if_pos closes) unended
    · rfl

theorem VoteLeft.rejection_iff (left : VoteLeft board p vote q) (rejects : vote.decision = .reject)
    (pastPayBy : Bool) :
    RejectionForetold (rejectConsequence
        ⟨p.requiredM, p.requiredN, (p.votes .approve).length, (p.votes .reject).length, pastPayBy⟩)
      board.directory q ↔
      (p.requesterExcluded board.directory = true →
        p.requiredN - p.requiredM < ((p.votes .reject).length : Int) + 1) := by
  have counted : (q.votes .reject).length = (p.votes .reject).length + 1 := by
    have same : q.votes .reject = (voted p vote).votes .reject := by
      rw [left.left]
      rfl
    rw [same, votes_voted, if_pos rejects]
  have ended := left.rejection rejects
  simp only [rejectConsequence]
  by_cases ends : p.requiredN - p.requiredM < ((p.votes .reject).length : Int) + 1
  · rw [if_pos ends]
    refine iff_of_true ⟨iff_of_true rfl ?_, fun k left past impossible => nomatch impossible⟩ fun _ => ends
    rw [ended]
    split <;> omega
  · rw [if_neg ends]
    by_cases excluded : p.requesterExcluded board.directory = true
    · refine iff_of_false ?_ fun closes => ends (closes excluded)
      rintro ⟨told, needs⟩
      have unended : q.status ≠ .rejected := fun rejected => nomatch told.mpr rejected
      have closes := left.closes (left.rejected_open rejects unended)
      rw [ne_eq, ended, if_pos excluded] at unended
      obtain ⟨least, known, -, smallest⟩ := needs _ _ _ rfl
      have fewer : least - 1 ∈ {more : ℕ | q.rejectionCloses board.directory ((q.votes .reject).length + more) = true} := by
        rw [Set.mem_ofPred_eq, closes, if_pos excluded, counted]
        omega
      have beaten := smallest fewer
      omega
    · refine iff_of_true ?_ fun impossible => absurd impossible excluded
      rw [if_neg excluded, sub_zero] at ended
      have unended : q.status ≠ .rejected := fun rejected => ends (ended.mp rejected)
      have closes := left.closes (left.rejected_open rejects unended)
      refine ⟨iff_of_false (fun impossible => nomatch impossible) unended, ?_⟩
      rintro k remaining past told
      cases told
      refine ⟨(p.requiredN - p.requiredM - (p.votes .reject).length).toNat, by omega, ?_, ?_⟩
      · rw [Set.mem_ofPred_eq, closes, if_neg excluded, counted]
        omega
      · intro more reaching
        rw [Set.mem_ofPred_eq, closes, if_neg excluded, counted] at reaching
        omega

-- The outcome the phone reads off the counts that come back
theorem VoteLeft.rule_iff (left : VoteLeft board p vote q) :
    outcomeStatus (ruleOutcome p.requiredM p.requiredN (q.votes .approve).length (q.votes .reject).length) = q.status ↔
      p.requiredM ≤ ((q.votes .approve).length : Int) ∨
        ¬ (p.requesterExcluded board.directory = true ∧
          ((q.votes .reject).length : Int) = p.requiredN - p.requiredM) := by
  have same (decision : Vote) : q.votes decision = (voted p vote).votes decision := by
    rw [left.left]
    rfl
  rw [left.status]
  unfold ruleOutcome outcomeOf
  simp only [rejectionCloses_iff, left.excluded, same]
  change _ = (if p.requiredM ≤ (((voted p vote).votes .approve).length : Int) then Status.approved else
    if p.requiredN - _ - p.requiredM < (((voted p vote).votes .reject).length : Int) then Status.rejected
    else .open) ↔ _
  by_cases reached : p.requiredM ≤ (((voted p vote).votes .approve).length : Int)
  · rw [if_pos reached, if_pos reached]
    exact iff_of_true rfl (.inl reached)
  · rw [if_neg reached, if_neg reached]
    simp only [reached, false_or]
    by_cases beyond : p.requiredN - p.requiredM < (((voted p vote).votes .reject).length : Int)
    · rw [if_pos beyond, if_pos (by split <;> omega)]
      exact iff_of_true rfl fun both => by omega
    · rw [if_neg beyond]
      by_cases excluded : p.requesterExcluded board.directory = true
      · rw [if_pos excluded]
        by_cases last : (((voted p vote).votes .reject).length : Int) = p.requiredN - p.requiredM
        · rw [if_pos (by omega)]
          exact iff_of_false (fun equal => nomatch equal) (not_not.mpr ⟨excluded, last⟩)
        · rw [if_neg (by omega)]
          exact iff_of_true rfl fun both => last both.2
      · rw [if_neg excluded, sub_zero, if_neg beyond]
        exact iff_of_true rfl fun both => excluded both.1

/-! ## Every decision of a run -/

variable {ballot : Ballot} {digest : Except Text Bytes} {gate write : Clock} {mid : Board} {cast : Cast}
  {signature executionSignature : Bytes} {problem : Option Text}

theorem bound_counts {office : Office} (bound : Bound config office) (found : office.board.proposals[p.id]? = some p) :
    tally config office.board p = countsOf p :=
  tally_bound (bound.sound.inOrder.orderly.rows _ p found).2 (bound.bound p (List.mem_iff_getElem?.mpr ⟨_, found⟩))

theorem voteLeft_of_recorded {office : Office} (bound : Bound config office)
    (found : office.board.proposals[ballot.proposalId]? = some p)
    (opened : openCast config office.board ballot digest gate = .ok (mid, .ok cast))
    (recorded : recordVote config mid cast signature executionSignature problem write = .ok after)
    (there : after.proposals[p.id]? = some q) :
    VoteLeft office.board p (cast.signature signature) q ∧ tally config after q = countsOf q := by
  have inOrder := bound.sound.inOrder
  have passed := openCast_opened inOrder found opened
  have gated : Settled config False office.board mid ∧
      ∀ other, Except.ok cast = Except.ok other → Ready mid (.vote other) := openCast_settled inOrder opened
  have ready := gated.2 cast rfl
  have outcome := recordVote_outcome bound passed ready recorded
  rw [there, Option.some.injEq] at outcome
  have settled : Settled config False mid after :=
    recordVote_settled gated.1.orderly gated.1.undecided ready False.elim recorded
  obtain ⟨stored, unchanged, -, isOpen, requester⟩ := passed
  have short := inOrder.undecided p (List.mem_iff_getElem?.mpr ⟨_, found⟩) isOpen
  rw [bound_counts bound stored] at short
  refine ⟨⟨isOpen, short, requesterExcluded_voted requester, outcome⟩, ?_⟩
  subst unchanged
  have grew : Grew office.board after := recordVote_grew recorded
  obtain ⟨p', stored', alike⟩ := grew.rows _ q there
  rw [stored, Option.some.injEq] at stored'
  subst stored'
  obtain ⟨more, grown⟩ := grew.entries
  refine tally_bound (settled.orderly.rows _ q there).2 ?_
  rw [bindingOk_grown alike (inOrder.orderly.rows _ p stored).2.opened grown]
  exact bound.bound p (List.mem_iff_getElem?.mpr ⟨_, stored⟩)

-- The sentences of a signature against the state `q` it left: `facts` is what the phone had before it,
-- and `later` what came back.
structure SignatureForetold (directory : Directory) (p q : Proposal) (decision : Vote) (facts later : StatusFacts) :
    Prop where
  approval : decision = .approve → ∀ isPayment amount pastPayBy,
    (approveConsequence (approveInput facts isPayment amount pastPayBy)).completes = true ↔ q.status = .approved
  rejection : decision = .reject → ∀ pastPayBy,
    RejectionForetold (rejectConsequence (rejectInput facts pastPayBy)) directory q ↔
      (p.requesterExcluded directory = true → facts.requiredN - facts.requiredM < facts.rejections + 1)
  outcome : outcomeStatus (ruleOutcome facts.requiredM facts.requiredN later.approvals later.rejections) = q.status ↔
    facts.requiredM ≤ later.approvals ∨
      ¬ (p.requesterExcluded directory = true ∧ later.rejections = facts.requiredN - facts.requiredM)

theorem phone_foretells_iff (config : VoteConfig) (directory : Directory) (events : List BoardEvent)
    (start : Directory.Fits directory) (fits : ∀ event ∈ events, fitsColumns event) (p : Proposal)
    (member : p ∈ (boardAfter config directory events).proposals) :
    (∀ now, decisionStatus (statusFacts (proposalSummary config (boardAfter config directory events) p)) now =
        utf16 (effectiveStatus (boardAfter config directory events).directory p (1000 * now)).text ↔
      StateForetold (boardAfter config directory events).directory p now) ∧
    ∀ (ballot : Ballot) (digest : Except Text Bytes) (gate : Clock) (mid : Board) (cast : Cast)
      (signature executionSignature : Bytes) (problem : Option Text) (write : Clock) (after : Board) (q : Proposal),
      ballot.proposalId = p.id →
      openCast config (boardAfter config directory events) ballot digest gate = .ok (mid, .ok cast) →
      recordVote config mid cast signature executionSignature problem write = .ok after →
      after.proposals[p.id]? = some q →
      SignatureForetold (boardAfter config directory events).directory p q cast.vote
        (statusFacts (proposalSummary config (boardAfter config directory events) p))
        (statusFacts (proposalSummary config after q)) := by
  have bound : Bound config (Runs.run (boardStep config) (Office.start directory) events) := run_bound start fits
  obtain ⟨i, here⟩ := List.mem_iff_getElem?.mp member
  have placed := (bound.sound.inOrder.orderly.rows i p here).1
  have found : (boardAfter config directory events).proposals[p.id]? = some p := by rw [placed, here]
  have counts : tally config (boardAfter config directory events) p = countsOf p := bound_counts bound found
  have approvals : (statusFacts (proposalSummary config (boardAfter config directory events) p)).approvals =
      (p.votes .approve).length := congrArg (fun votes : Nat × Nat => (votes.1 : Int)) counts
  have rejections : (statusFacts (proposalSummary config (boardAfter config directory events) p)).rejections =
      (p.votes .reject).length := congrArg (fun votes : Nat × Nat => (votes.2 : Int)) counts
  refine ⟨fun now => decisionStatus_iff counts (bound.sound.inOrder.undecided p member), ?_⟩
  intro ballot digest gate mid cast signature executionSignature problem write after q this opened recorded there
  obtain ⟨left, counts'⟩ := voteLeft_of_recorded bound (by rw [this]; exact found) opened recorded there
  have approvals' : (statusFacts (proposalSummary config after q)).approvals = (q.votes .approve).length :=
    congrArg (fun votes : Nat × Nat => (votes.1 : Int)) counts'
  have rejections' : (statusFacts (proposalSummary config after q)).rejections = (q.votes .reject).length :=
    congrArg (fun votes : Nat × Nat => (votes.2 : Int)) counts'
  constructor
  · intro approves isPayment amount pastPayBy
    rw [approveConsequence_completes, left.approval approves, approveInput, approvals]
    rfl
  · intro rejects pastPayBy
    rw [rejectInput, approvals, rejections]
    exact left.rejection_iff rejects pastPayBy
  · rw [approvals', rejections']
    exact left.rule_iff

section Sample

-- A decision that its vault's rule keeps its requester out of, two others being enough to decide it
def unvoted : Board := boardAfter voteConfig (threeApprovers false) rentRaised

def unvotedFacts (p : Proposal) : StatusFacts := statusFacts (proposalSummary voteConfig unvoted p)

theorem threeApprovers_fits (rule : Bool) : Directory.Fits (threeApprovers rule) := by
  intro vaultId
  change 3 < 2 ^ 63
  norm_num

theorem rentRaised_fits : ∀ event ∈ rentRaised, fitsColumns event := by
  have column : InColumn 1 := by norm_num [InColumn]
  simp only [rentRaised, List.forall_mem_cons, List.not_mem_nil, false_implies, implies_true, and_true]
  exact ⟨trivial, trivial, trivial, column⟩

theorem phone_foretells_iff_rent :
    ∃ p, unvoted.proposals = [p] ∧
      decisionStatus (unvotedFacts p) 5 = utf16 (effectiveStatus unvoted.directory p 5000).text := by
  have untimed : unvoted.proposals.map (·.expiresAt) = [none] := by decide +kernel
  obtain ⟨p, one, never⟩ := List.map_eq_singleton_iff.mp untimed
  have member : p ∈ (boardAfter voteConfig (threeApprovers false) rentRaised).proposals := by
    change p ∈ unvoted.proposals
    rw [one]
    exact List.mem_singleton_self p
  have foretold := (phone_foretells_iff voteConfig (threeApprovers false) rentRaised (threeApprovers_fits false)
    rentRaised_fits p member).1 5
  refine ⟨p, one, foretold.mpr (.inr fun deadline expires => ?_)⟩
  rw [never] at expires
  cases expires

def dueRaised : List BoardEvent := [.createProposal { rentDraft with deadline := some 3000 } rentClock]

-- One rejection leaves too few to approve it and ends it, when the phone has said that one more is
-- needed; and the phone has a decision open at its deadline that the server has expired.
theorem rejection_not_foretold :
    (unvoted.proposals.map fun p => rejectConsequence (rejectInput (unvotedFacts p) false)) = [.needs 1 2 false] ∧
    (boardAfter voteConfig (threeApprovers false)
      (rentRaised ++ [openRent 2 "reject" "Too early", writeRent 0 2 .reject])).proposals.map (·.status) =
        [.rejected] ∧
    (boardAfter voteConfig (threeApprovers true) dueRaised).proposals.map (fun p =>
      (decisionStatus (statusFacts (proposalSummary voteConfig (boardAfter voteConfig (threeApprovers true) dueRaised)
        p)) 3, effectiveStatus (threeApprovers true) p 3000)) = [(js "open", .expired)] := by
  refine ⟨?_, ?_, ?_⟩
  all_goals decide +kernel

end Sample

end QVault.Proof.Mobile
