import QVault.Proof.Services.Decisions

/-!
# The decision state machine over whole runs

Each operation leaves a board that may be committed: every decision still undecided or closed for
good. A vote is the one step whose requests can hold an older list of votes than the table.
-/

namespace QVault.Proof.Services
open QVault.Services QVault.Python QVault.Crypto QVault.Transparency Results

variable {config : VoteConfig} {fair : Prop} {start board after : Board} {p : Proposal}

/-! ## Verdicts -/

theorem tally_alike {object : Proposal} (alike : Alike object p) : tally config board object = tally config board p := by
  rw [alike]
  rfl

theorem verdict_none (isOpen : p.status = .open) (undecided : verdict config board p = none) :
    (tally config board p).1 < p.requiredM := by
  unfold verdict at undecided
  rw [if_neg (by simp [isOpen])] at undecided
  by_contra reached
  rw [if_pos (by omega)] at undecided
  cases undecided

theorem verdict_approved {approvals : Nat} (decided : verdict config board p = some (.approved approvals)) :
    p.status = .open ∧ p.requiredM ≤ (tally config board p).1 := by
  unfold verdict at decided
  split at decided
  · cases decided
  · rename_i isOpen
    refine ⟨not_not.mp isOpen, ?_⟩
    by_contra short
    rw [if_neg short] at decided
    split at decided <;> cases decided

theorem verdict_rejected {rejections : Nat} {excluded : Bool}
    (decided : verdict config board p = some (.rejected rejections excluded)) :
    p.status = .open ∧ ¬ p.requiredM ≤ (tally config board p).1 ∧
      p.decidingN board.directory - p.requiredM < (tally config board p).2 := by
  unfold verdict at decided
  split at decided
  · cases decided
  · rename_i isOpen
    by_cases reached : p.requiredM ≤ (tally config board p).1
    · rw [if_pos reached] at decided
      cases decided
    · rw [if_neg reached] at decided
      split at decided
      · rename_i unreachable
        simp only [Proposal.rejectionCloses, decide_eq_true_eq] at unreachable
        exact ⟨not_not.mp isOpen, reached, unreachable⟩
      · cases decided

theorem decidingN_alike {object : Proposal} (alike : Alike object p)
    (excluded : object.requesterExcluded board.directory = p.requesterExcluded board.directory) :
    object.decidingN board.directory = p.decidingN board.directory := by
  have sameN : object.requiredN = p.requiredN := by rw [alike]
  unfold Proposal.decidingN
  rw [excluded, sameN]

-- The object decides as its row does, but for who is counted as a voter.
theorem finalize_settled {object : Proposal} {actorId : Option Int} {timestamp : Text}
    (orderly : Orderly config board)
    (others : ∀ r ∈ board.proposals, r.id ≠ p.id → Undecided config board r)
    (follows : Follows config fair start board) (keys : KeysKept start.keys board.keys)
    (stored : board.proposals[p.id]? = some p) (isOpen : p.status = .open) (alike : Alike object p)
    (objectOpen : object.status = .open)
    (excluded : fair → object.requesterExcluded board.directory = p.requesterExcluded board.directory)
    (made : finalizeIfDecided config board object actorId timestamp = .ok after) :
    Settled config fair start after := by
  have sameM : object.requiredM = p.requiredM := by rw [alike]
  have sameTally : tally config board object = tally config board p := tally_alike alike
  unfold finalizeIfDecided at made
  cases decided : verdict config board object with
  | none =>
    rw [decided] at made
    cases made
    refine ⟨orderly, ?_, follows, keys⟩
    intro r member
    by_cases same : r.id = p.id
    · obtain ⟨i, found⟩ := List.mem_iff_getElem?.mp member
      have placed := (orderly.rows i r found).1
      rw [← placed, same, stored, Option.some.injEq] at found
      have undecided := verdict_none objectOpen decided
      rw [sameTally, sameM, found] at undecided
      exact fun _ => undecided
    · exact others r member same
  | some verdict =>
    rw [decided] at made
    cases verdict with
    | approved approvals =>
      have reached := (verdict_approved decided).2
      rw [sameTally, sameM] at reached
      exact close_settled orderly others follows keys stored alike isOpen (by simp) (by simp [reached])
        (by simp) made
    | rejected rejections flag =>
      obtain ⟨-, short, unreachable⟩ := verdict_rejected decided
      rw [sameTally, sameM] at short unreachable
      refine close_settled orderly others follows keys stored alike isOpen (by simp) (by simp [short]) ?_ made
      intro counted _
      rw [← decidingN_alike alike (excluded counted)]
      exact unreachable

theorem Settled.finalize {actorId : Option Int} {timestamp : Text} (settled : Settled config fair start board)
    (stored : board.proposals[p.id]? = some p)
    (made : finalizeIfDecided config board p actorId timestamp = .ok after) :
    Settled config fair start after := by
  by_cases isOpen : p.status = .open
  · exact finalize_settled settled.orderly (fun r member _ => settled.undecided r member) settled.follows
      settled.keys stored isOpen (alike_refl p) isOpen (fun _ => rfl) made
  · unfold finalizeIfDecided verdict at made
    rw [if_pos isOpen] at made
    cases made
    exact settled

theorem Settled.close {object : Proposal} {status : Status} {details : List (Text × Json)}
    {actorId : Option Int} {timestamp : Text} (settled : Settled config fair start board)
    (stored : board.proposals[p.id]? = some p) (alike : Alike object p) (isOpen : p.status = .open)
    (ended : status = .expired ∨ status = .withdrawn)
    (made : closeAs config board object status details actorId timestamp = .ok after) :
    Settled config fair start after := by
  have undecided := settled.undecided p (List.mem_iff_getElem?.mpr ⟨p.id, stored⟩) isOpen
  have others : ∀ r ∈ board.proposals, r.id ≠ p.id → Undecided config board r :=
    fun r member _ => settled.undecided r member
  rcases ended with rfl | rfl
  · exact close_settled settled.orderly others settled.follows settled.keys stored alike isOpen
      (by simp) (by simp [undecided]) (by simp) made
  · exact close_settled settled.orderly others settled.follows settled.keys stored alike isOpen
      (by simp) (by simp [undecided]) (by simp) made

theorem Settled.refreshExpiry {clock : Clock} (settled : Settled config fair start board)
    (stored : board.proposals[p.id]? = some p)
    (made : refreshExpiry config board p clock = .ok after) : Settled config fair start after := by
  unfold Services.refreshExpiry at made
  split at made
  · rename_i past
    have isOpen : p.status = .open := by
      simp only [pastDeadline, Bool.and_eq_true, decide_eq_true_eq] at past
      exact past.1
    split at made
    · exact settled.finalize stored made
    · exact settled.close stored (alike_refl p) isOpen (.inl rfl) made
  · cases made
    exact settled

/-! ## The sweep -/

theorem Settled.finalizeOne {timestamp : Text} {id : Nat} (settled : Settled config fair start board) :
    Settled config fair start (finalizeOne config timestamp board id) := by
  unfold Services.finalizeOne
  cases found : board.proposals[id]? with
  | none => exact settled
  | some p =>
    have placed := (settled.orderly.rows id p found).1
    simp only
    split
    · split
      · rename_i decided made
        exact settled.finalize (by rw [placed, found]) made
      · exact settled
    · exact settled

theorem Settled.finalizeStalled {clock : Clock} (settled : Settled config fair start board) :
    Settled config fair start (finalizeStalled config board clock) := by
  unfold Services.finalizeStalled
  generalize board.proposals.filter _ = stalled
  induction stalled generalizing board with
  | nil => exact settled
  | cons p rest ih => exact ih settled.finalizeOne

-- A decision that its votes decide has enough of them to be looked at.
theorem worthDeciding_of_verdict (recorded : Recorded config board p)
    (decided : (verdict config board p).isSome) : worthDeciding board.directory p := by
  have approvals : (p.votes .approve).length ≤ p.signatures.length := List.length_filter_le _ _
  have rejections : (p.votes .reject).length ≤ p.signatures.length := List.length_filter_le _ _
  have valid : (tally config board p).1 ≤ p.signatures.length ∧ (tally config board p).2 ≤ p.signatures.length := by
    rw [recorded.tally_eq]
    unfold countedVotes
    split
    · exact ⟨approvals, rejections⟩
    · exact ⟨Nat.zero_le _, Nat.zero_le _⟩
  unfold worthDeciding
  rw [decide_eq_true_eq]
  cases found : verdict config board p with
  | none => simp [found] at decided
  | some verdict =>
    cases verdict with
    | approved count =>
      have reached := (verdict_approved found).2
      exact (min_le_left _ _).trans (reached.trans (by exact_mod_cast valid.1))
    | rejected count flag =>
      have bound := (verdict_rejected found).2.2
      refine (min_le_right _ _).trans ?_
      have := valid.2
      omega

/-! ## Votes -/

-- What the gate established, and nothing since has undone
def Ready (board : Board) : Pending → Prop
  | .vote cast => ∃ row key, board.proposals[cast.proposal.id]? = some row ∧ Alike cast.proposal row ∧
      cast.proposal.status = .open ∧ (∀ s ∈ cast.proposal.signatures, s ∈ row.signatures) ∧
      cast.signerId ∈ row.authorizedSigners ∧ board.keys[cast.keyId]? = some key ∧
      key.ownerId = some cast.signerId ∧ key.publicKey = cast.key.publicKey ∧ key.algId = cast.key.algId
  | .withdrawal proposal _ => ∃ row, board.proposals[proposal.id]? = some row ∧ Alike proposal row

theorem Settled.ready {request : Pending} (settled : Settled config fair board after)
    (ready : Ready board request) : Ready after request := by
  cases request with
  | vote cast =>
    obtain ⟨row, key, found, alike, isOpen, votes, authorised, keyFound, owner, publicKey, algId⟩ := ready
    obtain ⟨later, there, same, more, -⟩ := settled.follows.kept _ row found
    obtain ⟨laterKey, keyThere, owner', publicKey', algId'⟩ := settled.keys _ key keyFound
    have back : Alike row later := by
      unfold Alike
      rw [same]
    have signers : later.authorizedSigners = row.authorizedSigners := by rw [same]
    refine ⟨later, laterKey, there, alike_trans alike back, isOpen, fun s member => more s (votes s member), ?_,
      keyThere, owner'.trans owner, publicKey'.trans publicKey, algId'.trans algId⟩
    rw [signers]
    exact authorised
  | withdrawal proposal actorId =>
    obtain ⟨row, found, alike⟩ := ready
    obtain ⟨later, there, same, -⟩ := settled.follows.kept _ row found
    refine ⟨later, there, alike_trans alike ?_⟩
    unfold Alike
    rw [same]

theorem writeRefusal_none {directory : Directory} {row : Proposal} {cast : Cast} {problem : Option Text}
    (free : writeRefusal directory row cast problem = none) :
    row.status = .open ∧ row.hasVoted cast.signerId = false := by
  unfold writeRefusal at free
  split at free
  · cases free
  · rename_i isOpen
    refine ⟨not_not.mp isOpen, ?_⟩
    split at free
    · cases free
    · split at free
      · cases free
      · split at free
        · cases free
        · rename_i fresh
          simpa using fresh

theorem recordVote_ok {cast : Cast} {signature executionSignature : Bytes} {problem : Option Text}
    {clock : Clock} (made : recordVote config board cast signature executionSignature problem clock = .ok after) :
    ∃ row message, board.proposals[cast.proposal.id]? = some row ∧
      voteSigningBytes cast.proposal.payloadHash (.str cast.vote.text) (.int cast.signerId) = .ok message ∧
      config.registry.verify (.str cast.key.algId) cast.key.publicKey message signature = true ∧
      writeRefusal board.directory row cast problem = none ∧
      storeVote config board cast signature executionSignature clock = .ok after := by
  unfold recordVote at made
  split at made
  · rename_i verify row registered found
    split at made
    · cases made
    · split at made
      · cases made
      · rename_i message signed
        split at made
        · cases made
        · rename_i verified
          split at made
          · cases made
          · rename_i free
            refine ⟨row, message, found, signed, ?_, free, mapError_eq_ok.mp made⟩
            simp only [CryptoRegistry.verify, registered]
            simpa using verified
  · cases made

theorem voted_recorded {vote : Signature} {more : List LedgerEntry}
    (change : Change board after p (voted p vote) more) (recorded : Recorded config board p)
    (isOpen : p.status = .open) (fresh : p.hasVoted vote.signerId = false)
    (authorised : vote.signerId ∈ p.authorizedSigners)
    (verified : verifySignature config after (voted p vote) vote)
    (quiet : ∀ e ∈ more, ¬ closes p.proposalUuid e) : Recorded config after (voted p vote) where
  signers := recorded.signers
  counted := recorded.counted
  positive := recorded.positive
  voters := by
    have distinct : vote.signerId ∉ p.signatures.map (·.signerId) := by
      intro member
      obtain ⟨s, inside, same⟩ := List.mem_map.mp member
      simp only [Proposal.hasVoted, List.any_eq_false, decide_eq_true_eq] at fresh
      exact fresh s inside same
    simp only [voted, List.map_append, List.map_cons, List.map_nil]
    exact List.Nodup.append recorded.voters (List.nodup_singleton _)
      (List.disjoint_singleton.mpr distinct)
  authorised := by
    intro s member
    rcases List.mem_append.mp member with old | new
    · exact recorded.authorised s old
    · rw [List.mem_singleton.mp new]
      exact authorised
  verified := by
    intro s member
    rcases List.mem_append.mp member with old | new
    · exact verifySignature_kept change.keys rfl (recorded.verified s old)
    · rw [List.mem_singleton.mp new]
      exact verified
  stored := change.storedAfter
  opened := by
    obtain ⟨e, member, opening⟩ := recorded.opened
    exact ⟨e, by simp [change.grown, member], opening⟩
  closings := by
    rw [change.grown, closings_append]
    change closings board.ledger.entries p.proposalUuid ++ closings more p.proposalUuid = closingsOf p.status
    rw [recorded.closings, closings_eq_nil quiet, List.append_nil]
  outcome := by
    intro ended
    exact absurd isOpen ended

-- A request that knows of the requester's vote whenever it matters counts the same voters as the
-- table does.
theorem requesterExcluded_loaded {object : Proposal} {directory : Directory} {vote : Signature}
    (alike : Alike object p) (objectOpen : object.status = .open) (isOpen : p.status = .open)
    (votes : ∀ s ∈ object.signatures, s ∈ p.signatures)
    (current : p.requesterMayApprove directory = false → p.hasVoted p.creatorId →
      object.hasVoted p.creatorId) :
    (voted object vote).requesterExcluded directory = (voted p vote).requesterExcluded directory := by
  have creator : object.creatorId = p.creatorId := by rw [alike]
  have signers : object.authorizedSigners = p.authorizedSigners := by rw [alike]
  have rule : object.requesterCanApprove = p.requesterCanApprove := by rw [alike]
  have vault : object.vaultId = p.vaultId := by rw [alike]
  unfold Proposal.requesterExcluded Proposal.requesterMayApprove Proposal.frozenRule Proposal.hasVoted voted
  simp only [objectOpen, isOpen, creator, signers, rule, vault, if_true, List.any_append]
  cases may : p.requesterMayApprove directory with
  | true =>
    simp only [Proposal.requesterMayApprove, Proposal.frozenRule, isOpen, if_true] at may
    simp [may]
  | false =>
    have same : object.hasVoted p.creatorId = p.hasVoted p.creatorId := by
      rw [Bool.eq_iff_iff]
      constructor
      · intro cast
        obtain ⟨s, member, signer⟩ := List.any_eq_true.mp cast
        exact List.any_eq_true.mpr ⟨s, votes s member, signer⟩
      · exact current may
    unfold Proposal.hasVoted at same
    rw [same]

theorem recordVote_settled {cast : Cast} {signature executionSignature : Bytes} {problem : Option Text}
    {clock : Clock} (orderly : Orderly config board)
    (undecided : ∀ r ∈ board.proposals, Undecided config board r) (ready : Ready board (.vote cast))
    (current : fair → ∀ row, board.proposals[cast.proposal.id]? = some row →
      row.requesterMayApprove board.directory = false → row.hasVoted row.creatorId →
      cast.proposal.hasVoted row.creatorId)
    (made : recordVote config board cast signature executionSignature problem clock = .ok after) :
    Settled config fair board after := by
  obtain ⟨row, message, found, signed, verified, free, stored⟩ := recordVote_ok made
  obtain ⟨row', key, found', alike, objectOpen, votes, authorised, keyFound, owner, publicKey, algId⟩ := ready
  rw [found, Option.some.injEq] at found'
  rw [← found'] at alike votes authorised
  obtain ⟨isOpen, fresh⟩ := writeRefusal_none free
  have sameId : cast.proposal.id = row.id := by rw [alike]
  have sameUuid : cast.proposal.proposalUuid = row.proposalUuid := by rw [alike]
  have sameHash : cast.proposal.payloadHash = row.payloadHash := by rw [alike]
  have storedRow : board.proposals[row.id]? = some row := by rw [← sameId, found]
  unfold storeVote at stored
  obtain ⟨ledger, appended, finalized⟩ := bind_eq_ok.mp stored
  obtain ⟨first, e, entries, genesis, eventType, -, refId⟩ := append_ok appended
  -- the board with the vote in it, before the tally
  generalize middle : Board.mk _ _ ledger _ = mid at finalized
  have change : Change board mid row (voted row (cast.signature signature)) (first ++ [e]) := by
    refine ⟨storedRow, ?_, rfl, fun s member => List.mem_append_left _ member, ?_, ?_, ?_, ?_⟩
    · intro i
      rw [← middle, sameId]
      exact rows_update storedRow (fun r => voted r (cast.signature signature)) i
    · rw [← middle]
      rfl
    · rw [← middle]
      exact keysKept_refl _
    · rw [← middle]
      exact entries
    · intro other member decision
      rcases List.mem_append.mp member with old | new
      · rw [genesis other old] at decision
        exact absurd decision genesis_not_decision
      · rw [List.mem_singleton.mp new, refId, ← sameUuid]
        rfl
  have quiet : ∀ other ∈ first ++ [e], ¬ closes row.proposalUuid other := by
    intro other member
    rcases List.mem_append.mp member with old | new
    · exact not_closes_of_other (by rw [genesis other old]; exact genesis_not_decision)
    · rw [List.mem_singleton.mp new]
      have kind : e.eventType = text "proposal_signed" := eventType
      have unlisted : text "proposal_signed" ∉ closingEvents := by decide
      simp [closes, kind, unlisted]
  have keyMid : mid.keys[cast.keyId]? = some key := by rw [← middle]; exact keyFound
  have newVerified : verifySignature config mid (voted row (cast.signature signature)) (cast.signature signature) := by
    unfold verifySignature
    rw [sameHash] at signed
    simp only [Cast.signature, keyMid, owner, publicKey, algId, sameHash, voted, signed, verified, beq_self_eq_true,
      Bool.and_self]
  have recorded := voted_recorded change (orderly.rows row.id row storedRow).2 isOpen fresh authorised newVerified quiet
  have midOrderly : Orderly config mid := change.orderly orderly recorded
  have sameVoters (counted : fair) :
      (voted cast.proposal (cast.signature signature)).requesterExcluded mid.directory =
        (voted row (cast.signature signature)).requesterExcluded mid.directory := by
    rw [change.directory]
    exact requesterExcluded_loaded alike objectOpen isOpen votes (current counted row found)
  have sameDecision : Alike (voted cast.proposal (cast.signature signature))
      (voted row (cast.signature signature)) := by
    unfold Alike voted
    rw [alike]
  refine finalize_settled midOrderly ?_ ?_ change.keys change.storedAfter isOpen sameDecision objectOpen
    sameVoters finalized
  · intro r member other isOpen'
    obtain ⟨i, there⟩ := List.mem_iff_getElem?.mp member
    have placed := (midOrderly.rows i r there).1
    have elsewhere : i ≠ row.id := by rw [← placed]; exact other
    rw [change.rows, if_neg elsewhere] at there
    rw [(change.others orderly elsewhere there).2]
    exact undecided r (List.mem_iff_getElem?.mpr ⟨i, there⟩) isOpen'
  · exact (follows_refl board).change orderly change isOpen fun _ rejected => by
      change row.status = .rejected at rejected
      rw [isOpen] at rejected
      cases rejected

end QVault.Proof.Services
