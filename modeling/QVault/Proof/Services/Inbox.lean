import QVault.Services.Inbox
import QVault.Proof.Services.VoteOutcome

/-!
# What a list shows of a decision

The status a screen shows, beside the one that looking at the decision's expiry would leave it in.
-/

namespace QVault.Proof.Services
open QVault.Services QVault.Python QVault.Crypto Results

variable {config : VoteConfig} {board after : Board} {p q : Proposal} {directory : Directory} {clock : Clock}

/-! ## After the deadline -/

-- The rule, for a decision that is to stay open no longer
def finalOutcome (p : Proposal) (directory : Directory) (votes : Nat × Nat) : Status :=
  if p.requiredM ≤ votes.1 then .approved else if p.rejectionCloses directory votes.2 then .rejected else .expired

theorem refreshExpiry_outcome (stored : board.proposals[p.id]? = some p)
    (made : refreshExpiry config board p clock = .ok after) :
    after.directory = board.directory ∧ after.proposals[p.id]? = some
      (if pastDeadline p clock then closed p (finalOutcome p board.directory (tally config board p)) else p) := by
  have closing {status : Status} {details : List (Text × Json)} (ended : status ≠ .open)
      (made : closeAs config board p status details none (clock.stamp 0) = .ok after) :
      after.directory = board.directory ∧ after.proposals[p.id]? = some (closed p status) := by
    obtain ⟨more, change, -⟩ := closeAs_change stored (alike_refl p) ended made
    exact ⟨change.directory, change.storedAfter⟩
  unfold refreshExpiry at made
  by_cases past : pastDeadline p clock
  · rw [if_pos past] at made ⊢
    have isOpen : p.status = .open := by
      simp only [pastDeadline, Bool.and_eq_true, decide_eq_true_eq] at past
      exact past.1
    unfold finalizeIfDecided verdict at made
    rw [if_neg (by simp [isOpen])] at made
    unfold finalOutcome
    by_cases reached : p.requiredM ≤ (tally config board p).1
    · simp only [if_pos reached] at made ⊢
      exact closing (by simp) made
    · simp only [if_neg reached] at made ⊢
      by_cases unreachable : p.rejectionCloses board.directory (tally config board p).2
      · simp only [if_pos unreachable] at made ⊢
        exact closing (by simp) made
      · simp only [if_neg unreachable] at made ⊢
        exact closing (by simp) made
  · rw [if_neg past] at made ⊢
    cases made
    exact ⟨rfl, stored⟩

-- One fewer voter is the most that can change.
theorem rejects_iff (rejections : Nat) :
    (p.requiredN - p.requiredM < rejections ∨
        (p.requiredN - 1 - p.requiredM < rejections ∧ p.rejectionCloses directory rejections)) ↔
      p.rejectionCloses directory rejections := by
  unfold Proposal.rejectionCloses Proposal.decidingN
  split <;> simp only [decide_eq_true_eq] <;> omega

theorem effectiveStatus_eq (now : Int) :
    effectiveStatus directory p now =
      if p.status = .open ∧ p.expiresAt.any fun deadline => deadline ≤ now then finalOutcome p directory (countsOf p)
      else p.status := by
  unfold effectiveStatus finalOutcome countsOf
  simp only [rejects_iff]

/-! ## The gate -/

theorem reasonRefusal_not_closed {vote : Vote} {reason : Json} {status : Status} :
    reasonRefusal vote reason ≠ some (.closed status) := by
  unfold reasonRefusal
  split
  · split
    · simp
    · split <;> simp
  · split
    · simp
    · split <;> simp
  · simp

theorem gateRefusal_closed {signerId : Int} {vote : Vote} {reason : Json} :
    (∃ status, gateRefusal directory p signerId vote reason = some (.closed status)) ↔ p.status ≠ .open := by
  unfold gateRefusal
  by_cases isOpen : p.status = .open
  · rw [if_neg (not_not.mpr isOpen)]
    simp only [isOpen, ne_eq, not_true_eq_false, iff_false, not_exists]
    intro status
    split
    · simp
    · split
      · simp
      · split
        · simp
        · split
          · simp
          · split
            · simp
            · split
              · simp
              · exact reasonRefusal_not_closed
  · rw [if_pos isOpen]
    simp [isOpen]

-- The screen agrees with the expiry and with the gate, except at the instant of the deadline.
theorem effectiveStatus_agrees_iff (stored : board.proposals[p.id]? = some p)
    (verified : ∀ s ∈ p.signatures, verifySignature config board p s) (bound : bindingOk config board p)
    (made : refreshExpiry config board p clock = .ok after) :
    ((∃ q, after.proposals[p.id]? = some q ∧ effectiveStatus board.directory p clock.instant = q.status) ∧
      (effectiveStatus board.directory p clock.instant = .open ↔
        ∀ q, after.proposals[p.id]? = some q → ∀ signerId vote reason,
          ¬ ∃ status, gateRefusal after.directory q signerId vote reason = some (.closed status))) ↔
      ¬ (p.status = .open ∧ p.expiresAt = some clock.instant) := by
  obtain ⟨-, row⟩ := refreshExpiry_outcome stored made
  have : Nonempty Vote := ⟨.approve⟩
  have counts : tally config board p = countsOf p := by
    rw [tally_eq verified (signatureRows_eq stored), bound]
    rfl
  rw [counts] at row
  simp only [row, Option.some.injEq, exists_eq_left', forall_eq', gateRefusal_closed, not_not, effectiveStatus_eq]
  by_cases isOpen : p.status = .open
  · cases expires : p.expiresAt with
    | none => simp [isOpen, expires, pastDeadline]
    | some deadline =>
      have ended : finalOutcome p board.directory (countsOf p) ≠ .open := by
        unfold finalOutcome
        split
        · simp
        · split <;> simp
      rcases lt_trichotomy deadline clock.instant with past | same | pending
      · have due : deadline ≤ clock.instant := past.le
        simp [isOpen, expires, pastDeadline, past, due, closed, past.ne]
      · have late : ¬ deadline < clock.instant := same.not_lt
        simp [isOpen, expires, pastDeadline, same, ended]
      · have due : ¬ deadline ≤ clock.instant := not_le.mpr pending
        have late : ¬ deadline < clock.instant := pending.not_gt
        simp [isOpen, expires, pastDeadline, due, late, pending.ne']
  · simp [isOpen, pastDeadline]

section Sample

def rentDue : Board :=
  boardAfter voteConfig (threeApprovers true) [.createProposal { rentDraft with deadline := some 3000 } rentClock]

def rentClockAt (instant : Int) : Clock := { rentClock with instant }

set_option maxRecDepth 20000 in
theorem effectiveStatus_agrees_before_due :
    ∃ p, rentDue.proposals = [p] ∧ ∃ q, rentDue.proposals[p.id]? = some q ∧
      effectiveStatus rentDue.directory p 2000 = q.status := by
  have facts : rentDue.proposals.map (fun p => (p.id, p.signatures, p.expiresAt, pastDeadline p (rentClockAt 2000),
      bindingOk voteConfig rentDue p)) = [(0, [], some 3000, false, true)] := by decide
  obtain ⟨p, one, is⟩ := List.map_eq_singleton_iff.mp facts
  simp only [Prod.mk.injEq] at is
  obtain ⟨id, unsigned, deadline, pending, bound⟩ := is
  refine ⟨p, one, ?_⟩
  have stored : rentDue.proposals[p.id]? = some p := by simp [one, id]
  have verified : ∀ s ∈ p.signatures, verifySignature voteConfig rentDue p s := by simp [unsigned]
  have made : refreshExpiry voteConfig rentDue p (rentClockAt 2000) = .ok rentDue := by simp [refreshExpiry, pending]
  have agrees := effectiveStatus_agrees_iff stored verified bound made
  refine (agrees.mpr ?_).1
  rintro ⟨-, due⟩
  rw [deadline] at due
  cases due

-- At the deadline a list shows as expired the decision that looking at its expiry leaves open.
set_option maxRecDepth 20000 in
theorem shown_expired_left_open :
    rentDue.proposals.map (fun p => (effectiveStatus rentDue.directory p 3000,
      ((refreshExpiry voteConfig rentDue p (rentClockAt 3000)).toOption.map fun after => after.proposals.map (·.status)))) =
      [(.expired, some [.open])] := by
  decide

end Sample

end QVault.Proof.Services
