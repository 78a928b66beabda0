import QVault.Proof.Services.Binding

/-!
# What a vote leaves a decision as

A vote that nothing comes between is counted with the votes its decision had, and the decision is left as
those votes and the people who may vote on it say.
-/

namespace QVault.Proof.Services
open QVault.Services QVault.Python QVault.Crypto QVault.Transparency Results

variable {config : VoteConfig} {board mid after : Board} {p : Proposal}

-- What the rule makes of approvals and rejections
def outcomeOf (p : Proposal) (directory : Directory) (votes : Nat × Nat) : Status :=
  if p.requiredM ≤ votes.1 then .approved else if p.rejectionCloses directory votes.2 then .rejected else .open

def countsOf (p : Proposal) : Nat × Nat := ((p.votes .approve).length, (p.votes .reject).length)

theorem votes_voted (vote : Signature) (decision : Vote) :
    ((voted p vote).votes decision).length =
      (p.votes decision).length + if vote.decision = decision then 1 else 0 := by
  simp only [Proposal.votes, voted, List.filter_append, List.length_append]
  by_cases same : vote.decision = decision <;> simp [same]

theorem tally_bound (recorded : Recorded config board p) (bound : bindingOk config board p) :
    tally config board p = countsOf p := by
  rw [recorded.tally_eq, bound]
  rfl

theorem finalizeIfDecided_outcome {actorId : Option Int} {timestamp : Text} (stored : board.proposals[p.id]? = some p)
    (isOpen : p.status = .open) (made : finalizeIfDecided config board p actorId timestamp = .ok after) :
    after.proposals[p.id]? = some (closed p (outcomeOf p board.directory (tally config board p))) := by
  have closing {status : Status} {details : List (Text × Json)} (ended : status ≠ .open)
      (made : closeAs config board p status details actorId timestamp = .ok after) :
      after.proposals[p.id]? = some (closed p status) := by
    obtain ⟨more, change, -⟩ := closeAs_change stored (alike_refl p) ended made
    exact change.storedAfter
  unfold finalizeIfDecided verdict at made
  rw [if_neg (by simp [isOpen])] at made
  unfold outcomeOf
  by_cases reached : p.requiredM ≤ (tally config board p).1
  · simp only [if_pos reached] at made ⊢
    exact closing (by simp) made
  · simp only [if_neg reached] at made ⊢
    by_cases unreachable : p.rejectionCloses board.directory (tally config board p).2
    · simp only [if_pos unreachable] at made ⊢
      exact closing (by simp) made
    · simp only [if_neg unreachable] at made ⊢
      cases made
      rw [stored, closed, ← isOpen]

/-! ## The gate -/

theorem gateRefusal_requester {directory : Directory} {signerId : Int} {vote : Vote} {reason : Json}
    (free : gateRefusal directory p signerId vote reason = none) (own : signerId = p.creatorId) :
    p.requesterMayApprove directory = true := by
  by_contra barred
  unfold gateRefusal at free
  split at free
  · cases free
  · split at free
    · cases free
    · split at free
      · cases free
      · split at free
        · cases free
        · rw [if_pos ⟨own, by simpa using barred⟩] at free
          cases free

structure Opened (board mid : Board) (p : Proposal) (cast : Cast) : Prop where
  stored : board.proposals[p.id]? = some p
  unchanged : mid = board
  object : cast.proposal = p
  isOpen : p.status = .open
  requester : cast.signerId = p.creatorId → p.requesterMayApprove board.directory = true

theorem openCast_opened {ballot : Ballot} {digest : Except Text Bytes} {clock : Clock} {cast : Cast}
    (inOrder : InOrder config board) (found : board.proposals[ballot.proposalId]? = some p)
    (made : openCast config board ballot digest clock = .ok (mid, .ok cast)) : Opened board mid p cast := by
  have placed := (inOrder.orderly.rows _ p found).1
  unfold openCast at made
  rw [found] at made
  split at made
  · rename_i vote loaded known same
    cases same
    obtain ⟨refreshed, expiry, made⟩ := bind_eq_ok.mp made
    split at made
    · cases made
    · rename_i proposal there
      split at made
      · cases made
      · rename_i free
        obtain ⟨rfl, given⟩ := Prod.mk.inj (pure_eq_ok.mp made)
        obtain ⟨isOpen, -⟩ := gateRefusal_none free
        obtain ⟨rfl, rfl, -⟩ := refreshExpiry_open (by rw [placed, found]) expiry (by rw [placed, there]) isOpen
        obtain ⟨object, signer, -⟩ := castAfterGate_ok given
        exact ⟨by rw [placed, found], rfl, object, isOpen, fun own => gateRefusal_requester free (by rw [← signer, own])⟩
  · cases made

/-! ## The write -/

theorem cast_verified {cast : Cast} {key : Key} {signature message : Bytes}
    (hash : cast.proposal.payloadHash = p.payloadHash) (found : board.keys[cast.keyId]? = some key)
    (owner : key.ownerId = some cast.signerId) (publicKey : key.publicKey = cast.key.publicKey)
    (algId : key.algId = cast.key.algId)
    (signed : voteSigningBytes cast.proposal.payloadHash (.str cast.vote.text) (.int cast.signerId) = .ok message)
    (verified : config.registry.verify (.str cast.key.algId) cast.key.publicKey message signature = true) :
    verifySignature config board p (cast.signature signature) := by
  rw [hash] at signed
  unfold verifySignature
  simp only [Cast.signature, found, owner, publicKey, algId, hash, signed, verified, beq_self_eq_true, Bool.and_self]

theorem tally_voted {cast : Cast} {signature : Bytes} {more : List LedgerEntry} (recorded : Recorded config board p)
    (bound : bindingOk config board p) (keys : KeysKept board.keys after.keys)
    (grown : after.ledger.entries = board.ledger.entries ++ more)
    (stored : after.proposals[p.id]? = some (voted p (cast.signature signature)))
    (verified : verifySignature config after (voted p (cast.signature signature)) (cast.signature signature)) :
    tally config after (voted p (cast.signature signature)) = countsOf (voted p (cast.signature signature)) := by
  have all : ∀ s ∈ (voted p (cast.signature signature)).signatures,
      verifySignature config after (voted p (cast.signature signature)) s := by
    intro s member
    rcases List.mem_append.mp member with old | new
    · exact verifySignature_kept keys rfl (recorded.verified s old)
    · rw [List.mem_singleton.mp new]
      exact verified
  have alike : Alike (voted p (cast.signature signature)) p := rfl
  have kept : bindingOk config after (voted p (cast.signature signature)) = bindingOk config board p :=
    bindingOk_grown alike recorded.opened grown
  rw [tally_eq all (signatureRows_eq stored), kept, bound]
  rfl

theorem recordVote_outcome {office : Office} {cast : Cast} {signature executionSignature : Bytes}
    {problem : Option Text} {clock : Clock} (bound : Bound config office) (opened : Opened office.board mid p cast)
    (ready : Ready mid (.vote cast))
    (made : recordVote config mid cast signature executionSignature problem clock = .ok after) :
    after.proposals[p.id]? = some (closed (voted p (cast.signature signature))
      (outcomeOf (voted p (cast.signature signature)) office.board.directory
        (countsOf (voted p (cast.signature signature))))) := by
  obtain ⟨there, unchanged, object, isOpen, -⟩ := opened
  subst unchanged object
  obtain ⟨row, message, -, signed, verified, -, stored⟩ := recordVote_ok made
  obtain ⟨row', key, -, -, -, -, -, keyFound, owner, publicKey, algId⟩ := ready
  unfold storeVote at stored
  obtain ⟨ledger, appended, finalized⟩ := bind_eq_ok.mp stored
  obtain ⟨first, e, entries, -⟩ := append_ok appended
  obtain ⟨-, recorded⟩ := bound.sound.inOrder.orderly.rows _ _ there
  have intact := bound.bound _ (List.mem_iff_getElem?.mpr ⟨_, there⟩)
  -- the board with the vote in it, before the tally
  generalize middle : Board.mk _ _ ledger _ = counted at finalized
  have written : counted.proposals[cast.proposal.id]? = some (voted cast.proposal (cast.signature signature)) := by
    rw [← middle]
    exact (rows_update there (fun row => voted row (cast.signature signature)) _).trans (if_pos rfl)
  have keys : counted.keys = office.board.keys := by rw [← middle]; rfl
  have grown : counted.ledger.entries = office.board.ledger.entries ++ (first ++ [e]) := by rw [← middle, entries]
  have counts := tally_voted recorded intact (keys ▸ keysKept_refl _) grown written
    (cast_verified rfl (keys ▸ keyFound) owner publicKey algId signed verified)
  have stillOpen : (voted cast.proposal (cast.signature signature)).status = .open := isOpen
  have outcome := finalizeIfDecided_outcome written stillOpen finalized
  have directory : counted.directory = office.board.directory := by rw [← middle]; rfl
  rwa [counts, directory] at outcome

end QVault.Proof.Services
