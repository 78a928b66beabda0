import QVault.Proof.Services.DecisionLifecycle
import QVault.Services.PaymentRun

/-!
# Requests and the votes they leave

Every run of the desk is one of the office. A decision gains a vote by the write of a request that a
gate has let through, and by nothing else.
-/

namespace QVault.Proof.Services
open QVault.Services QVault.Python QVault.Crypto QVault.Chain Results

section Board
variable {config : VoteConfig} {board after : Board} {p : Proposal}

/-! ## The votes on each decision -/

def ballots (board : Board) : List (List Signature) := board.proposals.map (·.signatures)

-- What closing a decision leaves alone
structure VotesKept (board after : Board) : Prop where
  ballots : ballots after = ballots board
  keys : after.keys = board.keys

theorem votesKept_refl (board : Board) : VotesKept board board := ⟨rfl, rfl⟩

theorem VotesKept.trans {mid : Board} (first : VotesKept board mid) (second : VotesKept mid after) :
    VotesKept board after := ⟨second.ballots.trans first.ballots, second.keys.trans first.keys⟩

theorem ballots_update (board : Board) (id : Nat) (change : Proposal → Proposal)
    (same : ∀ p, (change p).signatures = p.signatures) : ballots (board.update id change) = ballots board := by
  unfold ballots Board.update
  apply List.ext_getElem?
  intro i
  simp only [List.getElem?_map, List.getElem?_modify]
  cases board.proposals[i]? with
  | none => rfl
  | some p => by_cases here : id = i <;> simp [here, same]

theorem closeAs_kept {status : Status} {details : List (Text × Json)} {actorId : Option Int} {timestamp : Text}
    (made : closeAs config board p status details actorId timestamp = .ok after) : VotesKept board after := by
  unfold closeAs at made
  obtain ⟨ledger, -, made⟩ := bind_eq_ok.mp made
  cases pure_eq_ok.mp made
  refine ⟨?_, rfl⟩
  apply ballots_update
  intro row
  rfl

theorem finalize_kept {actorId : Option Int} {timestamp : Text}
    (made : finalizeIfDecided config board p actorId timestamp = .ok after) : VotesKept board after := by
  unfold finalizeIfDecided at made
  split at made
  · cases made
    exact votesKept_refl board
  · exact closeAs_kept made
  · exact closeAs_kept made

theorem refreshExpiry_kept {clock : Clock} (made : refreshExpiry config board p clock = .ok after) :
    VotesKept board after := by
  unfold refreshExpiry at made
  split at made
  · split at made
    · exact finalize_kept made
    · exact closeAs_kept made
  · cases made
    exact votesKept_refl board

theorem finalizeOne_kept (timestamp : Text) (board : Board) (id : Nat) :
    VotesKept board (finalizeOne config timestamp board id) := by
  unfold finalizeOne
  split
  · exact votesKept_refl board
  · split
    · split
      · rename_i made
        exact finalize_kept made
      · exact votesKept_refl board
    · exact votesKept_refl board

theorem finalizeStalled_kept (board : Board) (clock : Clock) :
    VotesKept board (finalizeStalled config board clock) := by
  unfold finalizeStalled
  generalize board.proposals.filter _ = stalled
  induction stalled generalizing board with
  | nil => exact votesKept_refl board
  | cons p rest ih => exact (finalizeOne_kept _ board p.id).trans (ih _)

theorem openCast_kept {ballot : Ballot} {digest : Except Text Bytes} {clock : Clock}
    {answer : Except Refusal Cast} (made : openCast config board ballot digest clock = .ok (after, answer)) :
    VotesKept board after := by
  unfold openCast at made
  split at made
  · obtain ⟨refreshed, expiry, made⟩ := bind_eq_ok.mp made
    have same := refreshExpiry_kept expiry
    split at made
    · cases pure_eq_ok.mp made
      exact same
    · split at made
      · cases pure_eq_ok.mp made
        exact same
      · cases pure_eq_ok.mp made
        exact same
  · cases made
    exact votesKept_refl board

theorem openWithdrawal_kept {actorId : Int} {clock : Clock} {answer : Option Refusal}
    (made : openWithdrawal config board p actorId clock = .ok (after, answer)) : VotesKept board after := by
  unfold openWithdrawal at made
  split at made
  · cases made
    exact votesKept_refl board
  · obtain ⟨refreshed, expiry, made⟩ := bind_eq_ok.mp made
    have same := refreshExpiry_kept expiry
    split at made
    · cases pure_eq_ok.mp made
      exact same
    · cases pure_eq_ok.mp made
      exact same

theorem writeWithdrawal_kept {actorId : Int} {clock : Clock}
    (made : writeWithdrawal config board p actorId clock = .ok after) : VotesKept board after := by
  unfold writeWithdrawal at made
  split at made
  · cases made
  · split at made
    · cases made
    · exact closeAs_kept (mapError_eq_ok.mp made)

theorem createProposal_ballots {draft : Draft} {clock : Clock}
    (made : createProposal config board draft clock = .ok after) :
    ballots after = ballots board ++ [[]] ∧ after.keys = board.keys := by
  obtain ⟨actionText, signed, ledger, -, -, -, -, -, rfl⟩ := createProposal_ok made
  refine ⟨?_, rfl⟩
  unfold ballots
  rw [List.map_append]
  rfl

theorem recordVote_ballots {cast : Cast} {signature executionSignature : Bytes} {problem : Option Text}
    {clock : Clock} (made : recordVote config board cast signature executionSignature problem clock = .ok after) :
    ballots after = (ballots board).modify cast.proposal.id (· ++ [cast.signature signature]) ∧
      after.keys = board.keys := by
  obtain ⟨-, -, -, -, -, -, stored⟩ := recordVote_ok made
  unfold storeVote at stored
  obtain ⟨ledger, -, finalized⟩ := bind_eq_ok.mp stored
  have kept := finalize_kept finalized
  refine ⟨?_, kept.keys⟩
  rw [kept.ballots]
  unfold ballots Board.update
  apply List.ext_getElem?
  intro i
  simp only [List.getElem?_map, List.getElem?_modify]
  cases board.proposals[i]? with
  | none => rfl
  | some p => by_cases here : cast.proposal.id = i <;> simp [here, voted]

end Board

/-! ## The desk and its office -/

variable {config : PaymentConfig} {desk : Desk}

-- A desk without its treasuries, its clock and its execution signatures
def office (desk : Desk) : Office := ⟨desk.books.board, desk.requests.map (·.pending)⟩

theorem writeVote_ok {books after : Books} {cast : Cast} {loaded : Option TreasuryRecord}
    {signature executionSignature : Bytes} {clock : Clock}
    (made : writeVote config books cast loaded signature executionSignature clock = .ok after) :
    ∃ board rows, executionRows config books cast loaded executionSignature = .ok rows ∧
      recordVote config.toVoteConfig books.board cast signature executionSignature none clock = .ok board ∧
      (rows ≠ [] → alreadyStored books cast = false) ∧
      after = { books with board, executions := books.executions ++ rows } := by
  unfold writeVote at made
  cases checked : executionRows config books cast loaded executionSignature with
  | error problem =>
    rw [checked] at made
    dsimp only at made
    split at made
    · rename_i impossible
      cases impossible
    · cases made
    · cases made
  | ok rows =>
    rw [checked] at made
    dsimp only at made
    split at made
    · rename_i board _ recorded same
      cases same
      split at made
      · cases made
      · rename_i free
        cases made
        refine ⟨board, rows, rfl, recorded, ?_, rfl⟩
        intro stored
        simpa [stored] using free
    · cases made
    · rename_i impossible
      cases impossible

-- A refused write is that of an office whose treasury check fails.
theorem recordVote_refused {board : Board} {cast : Cast} {digest : Bytes} (paying : cast.digest = some digest)
    (signature executionSignature : Bytes) (problem : Text) (clock : Clock) :
    ∃ error, recordVote config.toVoteConfig board cast signature executionSignature (some problem) clock =
      .error error := by
  unfold recordVote
  split
  · rename_i verify row _ _
    split
    · exact ⟨_, rfl⟩
    · split
      · exact ⟨_, rfl⟩
      · split
        · exact ⟨_, rfl⟩
        · have refused : (writeRefusal board.directory row cast (some problem)).isSome := by
            unfold writeRefusal
            rw [paying]
            split
            · rfl
            · split
              · rfl
              · rfl
          obtain ⟨refusal, known⟩ := Option.isSome_iff_exists.mp refused
          rw [known]
          exact ⟨_, rfl⟩
  · exact ⟨_, rfl⟩

theorem plain_step (event : PlainEvent) (desk : Desk) :
    boardStep config.toVoteConfig (office desk) (event.board desk.now) =
      ⟨(boardStep config.toVoteConfig ⟨desk.books.board, []⟩ (event.board desk.now)).board,
        desk.requests.map (·.pending)⟩ := by
  cases event with
  | createProposal draft unpaid clock =>
    simp only [PlainEvent.board, boardStep, office]
    cases createProposal config.toVoteConfig desk.books.board draft (clock.at desk.now) <;> rfl
  | refreshExpiry proposalId clock =>
    simp only [PlainEvent.board, boardStep, office]
    cases desk.books.board.proposals[proposalId]? with
    | none => rfl
    | some proposal =>
      simp only
      cases refreshExpiry config.toVoteConfig desk.books.board proposal (clock.at desk.now) <;> rfl
  | finalizeStalled clock => rfl
  | directory changed => rfl
  | append other timestamp =>
    simp only [PlainEvent.board, boardStep, office]
    cases append config.sha256 desk.books.board.ledger timestamp other.event <;> rfl

theorem modify_eq_self {α : Type} {l : List α} {i : Nat} {f : α → α} (missing : l[i]? = none) :
    l.modify i f = l := by
  apply List.ext_getElem?
  intro j
  rw [List.getElem?_modify]
  by_cases here : i = j
  · rw [← here, missing]
    rfl
  · simp [here]

theorem modify_congr {α : Type} {l : List α} {i : Nat} {a : α} {f g : α → α} (found : l[i]? = some a)
    (same : f a = g a) : l.modify i f = l.modify i g := by
  apply List.ext_getElem?
  intro j
  rw [List.getElem?_modify, List.getElem?_modify]
  by_cases here : i = j
  · rw [← here, found]
    simp [same]
  · simp [here]

variable (config) in
-- A step of the desk is a step of its office, or leaves it as it was.
theorem deskStep_office (desk : Desk) (event : DeskEvent) :
    office (deskStep config desk event) = office desk ∨
      ∃ boardEvent, office (deskStep config desk event) = boardStep config.toVoteConfig (office desk) boardEvent := by
  cases event with
  | plain event => exact .inr ⟨event.board desk.now, (plain_step event desk).symm⟩
  | raisePayment draft submitted payment clock =>
    simp only [deskStep]
    split
    · exact .inl rfl
    · rename_i action deadline _
      refine .inr ⟨.createProposal { draft with content := .payment action, deadline := some deadline }
        (clock.at desk.now), ?_⟩
      simp only [boardStep, office]
      split
      · rename_i refused
        rw [refused]
        rfl
      · rename_i raised
        rw [raised]
        rfl
  | openCast ballot onchain clock =>
    refine .inr ⟨.openCast ballot (desk.ballotDigest config ballot onchain) (clock.at desk.now), ?_⟩
    simp only [deskStep, boardStep, office]
    cases made : Services.openCast config.toVoteConfig desk.books.board ballot (desk.ballotDigest config ballot onchain)
        (clock.at desk.now) with
    | error problem => rfl
    | ok opened =>
      obtain ⟨board, refusal | cast⟩ := opened
      · rfl
      · simp [Desk.hold, Desk.withBoard, Office.hold]
  | recordVote request signature executionSignature clock =>
    simp only [deskStep]
    split
    · rename_i cast treasury found
      have pending : (office desk).pending[request]? = some (.vote cast) := by
        simp [office, found]
      cases written : writeVote config desk.books cast treasury signature executionSignature
          (clock.at desk.now) with
      | ok books =>
        obtain ⟨board, rows, -, recorded, -, rfl⟩ := writeVote_ok written
        refine .inr ⟨.recordVote request signature executionSignature none (clock.at desk.now), ?_⟩
        have recorded' : recordVote config.toVoteConfig (office desk).board cast signature executionSignature none
          (clock.at desk.now) = .ok board := recorded
        simp only [boardStep, pending, recorded', Office.commit]
        simp [office, Desk.commit, Desk.drop, Office.drop, List.eraseIdx_map]
      | error error =>
        obtain ⟨boardEvent, refused⟩ : ∃ problem error', recordVote config.toVoteConfig (office desk).board cast
            signature executionSignature problem (clock.at desk.now) = .error error' := by
          cases paying : cast.digest with
          | some digest => exact ⟨some [], recordVote_refused paying _ _ _ _⟩
          | none =>
            refine ⟨none, error, ?_⟩
            unfold writeVote executionRows at written
            rw [paying] at written
            dsimp only at written
            split at written
            · rename_i impossible
              cases impossible
              simp at written
            · rename_i same
              cases written
              exact same
            · cases written
              rename_i impossible
              cases impossible
        obtain ⟨error', refused⟩ := refused
        refine .inr ⟨.recordVote request signature executionSignature boardEvent (clock.at desk.now), ?_⟩
        simp only [boardStep, pending, refused, Office.commit]
        simp [office, Desk.commit, Desk.drop, Office.drop, List.eraseIdx_map]
    · exact .inl rfl
  | openWithdrawal proposalId actorId clock =>
    refine .inr ⟨.openWithdrawal proposalId actorId (clock.at desk.now), ?_⟩
    simp only [deskStep, boardStep, office]
    cases found : desk.books.board.proposals[proposalId]? with
    | none => rfl
    | some proposal =>
      dsimp only
      cases made : Services.openWithdrawal config.toVoteConfig desk.books.board proposal actorId (clock.at desk.now) with
      | error problem => rfl
      | ok opened =>
        obtain ⟨board, _ | refusal⟩ := opened
        · simp [Desk.hold, Desk.withBoard, Office.hold]
        · rfl
  | writeWithdrawal request clock =>
    simp only [deskStep]
    split
    · rename_i proposal actorId treasury found
      have pending : (office desk).pending[request]? = some (.withdrawal proposal actorId) := by
        simp [office, found]
      refine .inr ⟨.writeWithdrawal request (clock.at desk.now), ?_⟩
      simp only [boardStep, pending]
      split
      · rename_i refused
        have refused' : writeWithdrawal config.toVoteConfig (office desk).board proposal actorId
          (clock.at desk.now) = _ := refused
        rw [refused']
        simp [office, Desk.drop, Office.drop, Office.commit, List.eraseIdx_map]
      · rename_i written
        have written' : writeWithdrawal config.toVoteConfig (office desk).board proposal actorId
          (clock.at desk.now) = _ := written
        rw [written']
        simp [office, Desk.drop, Desk.withBoard, Office.drop, Office.commit, List.eraseIdx_map]
    · exact .inl rfl
  | addKey new => exact .inr ⟨.addKey new.key, rfl⟩
  | retireKey keyId lost =>
    cases found : desk.books.board.keys[keyId]? with
    | none =>
      refine .inl ?_
      simp only [deskStep, office, Desk.withBoard, modify_eq_self found]
    | some key =>
      refine .inr ⟨.changeKey keyId .retired false (key.retire lost).wrapDomain, ?_⟩
      have same : desk.books.board.keys.modify keyId (·.retire lost) = desk.books.board.keys.modify keyId
          fun k => { k with status := .retired, canSign := false, wrapDomain := (key.retire lost).wrapDomain } :=
        modify_congr found rfl
      simp only [deskStep, boardStep, office, Desk.withBoard, same]
  | tick elapsed => exact .inl rfl
  | link vaultId chainId address signers =>
    simp only [deskStep]
    split
    · split
      · exact .inl rfl
      · exact .inl rfl
    · exact .inl rfl
  | unlink treasury => exact .inl rfl
  | requestReconfiguration treasury => exact .inl rfl
  | endReconfiguration treasury => exact .inl rfl
  | applyReconfiguration treasury thresholdM signers =>
    simp only [deskStep]
    split
    · exact .inl rfl
    · exact .inl rfl

/-! ## Where requests and votes come from -/

variable (config) in
theorem deskStep_requests (desk : Desk) (event : DeskEvent) :
    (deskStep config desk event).requests.Sublist desk.requests ∨
      ∃ r, (deskStep config desk event).requests = desk.requests ++ [r] ∧
        ∀ cast treasury, r = ⟨.vote cast, treasury⟩ → ∃ ballot onchain clock board,
          event = .openCast ballot onchain clock ∧ treasury = desk.loads cast.proposal ∧
          openCast config.toVoteConfig desk.books.board ballot (desk.ballotDigest config ballot onchain)
            (clock.at desk.now) = .ok (board, .ok cast) ∧
          (deskStep config desk event).books.board = board := by
  have kept : desk.requests.Sublist desk.requests := List.Sublist.refl _
  have dropped (request : Nat) : (desk.drop request).requests.Sublist desk.requests := List.eraseIdx_sublist _ _
  cases event with
  | plain event => exact .inl kept
  | raisePayment draft submitted payment clock =>
    simp only [deskStep]
    split
    · exact .inl kept
    · split
      · exact .inl kept
      · exact .inl kept
  | openCast ballot onchain clock =>
    simp only [deskStep]
    split
    · exact .inl kept
    · exact .inl kept
    · rename_i board cast made
      refine .inr ⟨_, rfl, ?_⟩
      intro cast' treasury same
      cases same
      exact ⟨ballot, onchain, clock, board, rfl, rfl, made, rfl⟩
  | recordVote request signature executionSignature clock =>
    simp only [deskStep]
    split
    · refine .inl ?_
      unfold Desk.commit
      split
      · exact dropped request
      · exact dropped request
    · exact .inl kept
  | openWithdrawal proposalId actorId clock =>
    simp only [deskStep]
    split
    · exact .inl kept
    · split
      · exact .inl kept
      · exact .inl kept
      · refine .inr ⟨_, rfl, ?_⟩
        intro cast treasury same
        cases same
  | writeWithdrawal request clock =>
    simp only [deskStep]
    split
    · split
      · exact .inl (dropped request)
      · exact .inl (dropped request)
    · exact .inl kept
  | addKey _ | retireKey _ _ | tick _ | unlink _ | requestReconfiguration _ | endReconfiguration _ =>
    exact .inl kept
  | link vaultId chainId address signers =>
    simp only [deskStep]
    split
    · split
      · exact .inl kept
      · exact .inl kept
    · exact .inl kept
  | applyReconfiguration treasury thresholdM signers =>
    simp only [deskStep]
    split
    · exact .inl kept
    · exact .inl kept

def changesKeys : DeskEvent → Bool
  | .addKey _ | .retireKey _ _ => true
  | _ => false

-- Everything a step can write
inductive Wrote (config : PaymentConfig) (desk : Desk) : DeskEvent → Books → Prop
  | quiet {event : DeskEvent} {board : Board} (other : changesKeys event = false)
      (kept : VotesKept desk.books.board board) : Wrote config desk event { desk.books with board }
  | raised {draft : Draft} {unpaid : draft.content.action = none} {clock : Clock} {board : Board}
      (made : createProposal config.toVoteConfig desk.books.board draft (clock.at desk.now) = .ok board) :
      Wrote config desk (.plain (.createProposal draft unpaid clock)) { desk.books with board }
  | payment {draft : Draft} {submitted : Text} {payment : PaymentRequest} {clock : Clock} {action : StoredAction}
      {deadline : Int} {board : Board}
      (payable : paymentAction config desk.books draft submitted payment desk.now = .ok (action, deadline))
      (made : createProposal config.toVoteConfig desk.books.board
        { draft with content := .payment action, deadline := some deadline } (clock.at desk.now) = .ok board) :
      Wrote config desk (.raisePayment draft submitted payment clock) { desk.books with board }
  | voted {request : Nat} {signature executionSignature : Bytes} {clock : Clock} {cast : Cast}
      {treasury : Option TreasuryRecord} {books : Books}
      (pending : desk.requests[request]? = some ⟨.vote cast, treasury⟩)
      (written : writeVote config desk.books cast treasury signature executionSignature (clock.at desk.now) =
        .ok books) : Wrote config desk (.recordVote request signature executionSignature clock) books
  | keyAdded {new : NewKey} : Wrote config desk (.addKey new)
      { desk.books with board := { desk.books.board with keys := desk.books.board.keys ++ [new.key] } }
  | keyRetired {keyId : Nat} {lost : Bool} : Wrote config desk (.retireKey keyId lost)
      { desk.books with board := { desk.books.board with keys := desk.books.board.keys.modify keyId (·.retire lost) } }
  | treasuries {event : DeskEvent} {treasuries : List TreasuryRecord} (other : changesKeys event = false) :
      Wrote config desk event { desk.books with treasuries }

theorem nothing_wrote {event : DeskEvent} (other : changesKeys event = false) : Wrote config desk event desk.books :=
  .quiet other (votesKept_refl desk.books.board)

variable (config) in
theorem deskStep_wrote (desk : Desk) (event : DeskEvent) :
    Wrote config desk event (deskStep config desk event).books := by
  cases event with
  | plain event =>
    cases event with
    | createProposal draft unpaid clock =>
      simp only [deskStep, PlainEvent.board, boardStep]
      cases made : createProposal config.toVoteConfig desk.books.board draft (clock.at desk.now) with
      | error _ => exact nothing_wrote rfl
      | ok board => exact .raised made
    | refreshExpiry proposalId clock =>
      simp only [deskStep, PlainEvent.board, boardStep]
      split
      · exact nothing_wrote rfl
      · rename_i proposal _
        cases made : refreshExpiry config.toVoteConfig desk.books.board proposal (clock.at desk.now) with
        | error _ => exact nothing_wrote rfl
        | ok board => exact .quiet rfl (refreshExpiry_kept made)
    | finalizeStalled clock => exact .quiet rfl (finalizeStalled_kept desk.books.board _)
    | directory changed => exact .quiet rfl ⟨rfl, rfl⟩
    | append other timestamp =>
      simp only [deskStep, PlainEvent.board, boardStep]
      cases append config.sha256 desk.books.board.ledger timestamp other.event with
      | error _ => exact nothing_wrote rfl
      | ok ledger => exact .quiet rfl ⟨rfl, rfl⟩
  | raisePayment draft submitted payment clock =>
    simp only [deskStep]
    split
    · exact nothing_wrote rfl
    · rename_i payable
      split
      · exact nothing_wrote rfl
      · rename_i made
        exact .payment payable made
  | openCast ballot onchain clock =>
    simp only [deskStep]
    split
    · exact nothing_wrote rfl
    · rename_i made
      exact .quiet rfl (openCast_kept made)
    · rename_i made
      exact .quiet rfl (openCast_kept made)
  | recordVote request signature executionSignature clock =>
    simp only [deskStep]
    split
    · rename_i cast treasury found
      cases written : writeVote config desk.books cast treasury signature executionSignature
          (clock.at desk.now) with
      | error _ => exact nothing_wrote rfl
      | ok books => exact .voted found written
    · exact nothing_wrote rfl
  | openWithdrawal proposalId actorId clock =>
    simp only [deskStep]
    split
    · exact nothing_wrote rfl
    · split
      · exact nothing_wrote rfl
      · rename_i made
        exact .quiet rfl (openWithdrawal_kept made)
      · rename_i made
        exact .quiet rfl (openWithdrawal_kept made)
  | writeWithdrawal request clock =>
    simp only [deskStep]
    split
    · split
      · exact nothing_wrote rfl
      · rename_i made
        exact .quiet rfl (writeWithdrawal_kept made)
    · exact nothing_wrote rfl
  | addKey new => exact .keyAdded
  | retireKey keyId lost => exact .keyRetired
  | tick elapsed => exact nothing_wrote rfl
  | link vaultId chainId address signers =>
    simp only [deskStep]
    split
    · split
      · exact .treasuries rfl
      · exact nothing_wrote rfl
    · exact nothing_wrote rfl
  | unlink treasury => exact .treasuries rfl
  | requestReconfiguration treasury => exact .treasuries rfl
  | endReconfiguration treasury => exact .treasuries rfl
  | applyReconfiguration treasury thresholdM signers =>
    simp only [deskStep]
    split
    · exact .treasuries rfl
    · exact nothing_wrote rfl

-- A vote that a step adds to a decision was written by it.
theorem new_vote {event : DeskEvent} {i : Nat} {p q : Proposal} {s : Signature}
    (found : desk.books.board.proposals[i]? = some p)
    (there : (deskStep config desk event).books.board.proposals[i]? = some q)
    (cast : s ∈ q.signatures) (fresh : s ∉ p.signatures) :
    ∃ request signature executionSignature clock cast treasury books,
      event = .recordVote request signature executionSignature clock ∧
      desk.requests[request]? = some ⟨.vote cast, treasury⟩ ∧
      writeVote config desk.books cast treasury signature executionSignature (clock.at desk.now) = .ok books ∧
      cast.proposal.id = i ∧ s = cast.signature signature := by
  have wrote := deskStep_wrote config desk event
  generalize (deskStep config desk event).books = books at wrote there
  have before : (ballots desk.books.board)[i]? = some p.signatures := by simp [ballots, found]
  have after : (ballots books.board)[i]? = some q.signatures := by simp [ballots, there]
  have unchanged {α : Prop} (same : (ballots books.board)[i]? = (ballots desk.books.board)[i]?) : α := by
    rw [same, before, Option.some.injEq] at after
    exact absurd (after ▸ cast) fresh
  have grown (made : ballots books.board = ballots desk.books.board ++ [[]]) :
      (ballots books.board)[i]? = (ballots desk.books.board)[i]? := by
    rw [made, List.getElem?_append_left (List.getElem?_eq_some_iff.mp before).1]
  cases wrote with
  | quiet other kept => exact unchanged (by rw [kept.ballots])
  | raised made => exact unchanged (grown (createProposal_ballots made).1)
  | payment payable made => exact unchanged (grown (createProposal_ballots made).1)
  | keyAdded => exact unchanged rfl
  | keyRetired => exact unchanged rfl
  | treasuries other => exact unchanged rfl
  | @voted request signature executionSignature clock vote treasury books pending written =>
    obtain ⟨board, rows, -, recorded, -, rfl⟩ := writeVote_ok written
    refine ⟨request, signature, executionSignature, clock, vote, treasury, _, rfl, pending, written, ?_⟩
    rw [(recordVote_ballots recorded).1, List.getElem?_modify, before] at after
    by_cases here : vote.proposal.id = i
    · simp only [here, if_true, Option.map_eq_map, Option.map_some, Option.some.injEq] at after
      rw [← after] at cast
      rcases List.mem_append.mp cast with old | new
      · exact absurd old fresh
      · exact ⟨here, List.mem_singleton.mp new⟩
    · simp only [here, if_false, Option.map_eq_map, Option.map_some, id_eq, Option.some.injEq] at after
      exact absurd (after ▸ cast) fresh

-- Keys are added and retired by the steps that do so, and by no other.
theorem deskStep_keys {event : DeskEvent} (other : changesKeys event = false) :
    (deskStep config desk event).books.board.keys = desk.books.board.keys := by
  have wrote := deskStep_wrote config desk event
  generalize (deskStep config desk event).books = books at wrote
  cases wrote with
  | quiet _ kept => exact kept.keys
  | raised made => exact (createProposal_ballots made).2
  | payment payable made => exact (createProposal_ballots made).2
  | voted pending written =>
    obtain ⟨board, rows, -, recorded, -, rfl⟩ := writeVote_ok written
    exact (recordVote_ballots recorded).2
  | keyAdded => cases other
  | keyRetired => cases other
  | treasuries _ => rfl

/-! ## Runs of the desk -/

def deskAfter (config : PaymentConfig) (directory : Directory) (now : Int) (events : List DeskEvent) : Desk :=
  Runs.run (deskStep config) (Desk.start directory now) events

theorem deskAfter_append (directory : Directory) (now : Int) (first second : List DeskEvent) :
    deskAfter config directory now (first ++ second) =
      Runs.run (deskStep config) (deskAfter config directory now first) second :=
  Runs.run_append _ first second

theorem deskStep_sound (event : DeskEvent) (sound : Sound config.toVoteConfig (office desk)) :
    Sound config.toVoteConfig (office (deskStep config desk event)) := by
  rcases deskStep_office config desk event with same | ⟨boardEvent, step⟩
  · rw [same]
    exact sound
  · rw [step]
    exact boardStep_sound boardEvent sound

variable (config) in
theorem deskAfter_sound (directory : Directory) (now : Int) (events : List DeskEvent) :
    Sound config.toVoteConfig (office (deskAfter config directory now events)) := by
  induction events using List.reverseRecOn with
  | nil => exact sound_start directory
  | append_singleton events event ih =>
    rw [deskAfter_append]
    exact deskStep_sound event ih

-- A request that is under way was let through by a gate, at some step of the run.
theorem request_opened (directory : Directory) (now : Int) (events : List DeskEvent) (r : Request)
    (pending : r ∈ (deskAfter config directory now events).requests) :
    ∃ before gate between, events = before ++ gate :: between ∧
      (deskAfter config directory now (before ++ [gate])).requests =
        (deskAfter config directory now before).requests ++ [r] := by
  induction events using List.reverseRecOn with
  | nil => cases pending
  | append_singleton events event ih =>
    have grown := deskStep_requests config (deskAfter config directory now events) event
    rw [deskAfter_append] at pending
    have earlier (member : r ∈ (deskAfter config directory now events).requests) :
        ∃ before gate between, events ++ [event] = before ++ gate :: between ∧
          (deskAfter config directory now (before ++ [gate])).requests =
            (deskAfter config directory now before).requests ++ [r] := by
      obtain ⟨before, gate, between, rfl, opened⟩ := ih member
      exact ⟨before, gate, between ++ [event], by simp, opened⟩
    rcases grown with old | ⟨r', appended, -⟩
    · exact earlier (old.mem pending)
    · change r ∈ (deskStep config _ event).requests at pending
      rw [appended] at pending
      rcases List.mem_append.mp pending with old | new
      · exact earlier old
      · refine ⟨events, event, [], rfl, ?_⟩
        rw [List.mem_singleton.mp new, deskAfter_append]
        exact appended

end QVault.Proof.Services
