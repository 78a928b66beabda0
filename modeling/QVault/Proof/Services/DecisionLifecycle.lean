import QVault.Proof.Services.DecisionRun

/-!
# From raising a decision to its end

The invariant of the office, kept by every step, and what it says of whole runs.
-/

namespace QVault.Proof.Services
open QVault.Services QVault.Python QVault.Crypto QVault.Transparency Results

variable {config : VoteConfig} {fair : Prop} {board after : Board} {p q : Proposal}

structure InOrder (config : VoteConfig) (board : Board) : Prop where
  orderly : Orderly config board
  undecided : ∀ r ∈ board.proposals, Undecided config board r

theorem InOrder.settled (inOrder : InOrder config board) : Settled config fair board board where
  orderly := inOrder.orderly
  undecided := inOrder.undecided
  follows := follows_refl board
  keys := keysKept_refl board.keys

theorem Settled.inOrder {start : Board} (settled : Settled config fair start board) : InOrder config board :=
  ⟨settled.orderly, settled.undecided⟩

/-! ## The gate -/

theorem gateRefusal_none {directory : Directory} {signerId : Int} {vote : Vote} {reason : Json}
    (free : gateRefusal directory p signerId vote reason = none) :
    p.status = .open ∧ signerId ∈ p.authorizedSigners := by
  unfold gateRefusal at free
  split at free
  · cases free
  · rename_i isOpen
    split at free
    · cases free
    · rename_i listed
      exact ⟨not_not.mp isOpen, by simpa using listed⟩

theorem activeSigningKey_some {keys : List Key} {signerId : Int} {keyId : Nat} {key : Key}
    (found : activeSigningKey keys signerId = some (keyId, key)) :
    keys[keyId]? = some key ∧ key.ownerId = some signerId := by
  unfold activeSigningKey at found
  obtain ⟨entry, picked, same⟩ := Option.map_eq_some_iff.mp found
  cases same
  have matching := List.find?_some picked
  have member := List.mem_reverse.mp (List.mem_of_find?_eq_some picked)
  simp only [Bool.and_eq_true, decide_eq_true_eq] at matching
  exact ⟨List.mem_zipIdx_iff_getElem?.mp member, matching.1.1.1⟩

theorem votingKey_ok {keys : List Key} {signerId : Int} {custody : Custody} {keyId : Nat} {key : Key}
    (found : votingKey config keys signerId custody = .ok (keyId, key)) :
    keys[keyId]? = some key ∧ key.ownerId = some signerId := by
  cases custody with
  | password =>
    simp only [votingKey] at found
    cases active : activeSigningKey keys signerId with
    | none => simp [active] at found
    | some pair =>
      simp only [active, Option.elim_some, Except.ok.injEq] at found
      rw [found] at active
      exact activeSigningKey_some active
  | device named execution =>
    simp only [votingKey] at found
    split at found
    · cases found
    · rename_i held there
      split at found
      · cases found
      · rename_i allowed
        cases found
        refine ⟨there, ?_⟩
        unfold deviceKeyRefusal at allowed
        by_contra other
        rw [if_pos other] at allowed
        cases allowed

theorem castAfterGate_ok {ballot : Ballot} {vote : Vote} {digest : Except Text Bytes} {cast : Cast}
    (made : castAfterGate config board p ballot vote digest = .ok cast) :
    cast.proposal = p ∧ cast.signerId = ballot.signerId ∧
      ∃ key, board.keys[cast.keyId]? = some key ∧ key.ownerId = some cast.signerId ∧ key = cast.key := by
  unfold castAfterGate at made
  obtain ⟨⟨keyId, key⟩, chosen, made⟩ := bind_eq_ok.mp made
  obtain ⟨digest, -, made⟩ := bind_eq_ok.mp made
  cases pure_eq_ok.mp made
  obtain ⟨found, owner⟩ := votingKey_ok chosen
  exact ⟨rfl, rfl, key, found, owner, rfl⟩

-- A decision that is open after its expiry has been looked at is not past its deadline.
theorem refreshExpiry_open {clock : Clock} (stored : board.proposals[p.id]? = some p)
    (made : refreshExpiry config board p clock = .ok after) (there : after.proposals[p.id]? = some q)
    (isOpen : q.status = .open) :
    after = board ∧ q = p ∧ ∀ deadline, p.expiresAt = some deadline → clock.instant ≤ deadline := by
  have closing {status : Status} {details : List (Text × Json)} {actorId : Option Int} {timestamp : Text}
      (ended : status ≠ .open)
      (made : closeAs config board p status details actorId timestamp = .ok after) : False := by
    obtain ⟨more, change, -⟩ := closeAs_change stored (alike_refl p) ended made
    rw [change.rows, if_pos rfl, Option.some.injEq] at there
    rw [← there] at isOpen
    exact ended isOpen
  unfold refreshExpiry at made
  split at made
  · split at made
    · rename_i verdict decided
      unfold finalizeIfDecided at made
      rw [decided] at made
      cases verdict with
      | approved approvals => exact (closing (by simp) made).elim
      | rejected rejections excluded => exact (closing (by simp) made).elim
    · exact (closing (by simp) made).elim
  · rename_i pending
    cases made
    rw [stored, Option.some.injEq] at there
    rw [← there] at isOpen
    refine ⟨rfl, there.symm, ?_⟩
    intro deadline expires
    simpa [pastDeadline, isOpen, expires] using pending

theorem openCast_settled {ballot : Ballot} {digest : Except Text Bytes} {clock : Clock}
    {answer : Except Refusal Cast} (inOrder : InOrder config board)
    (made : openCast config board ballot digest clock = .ok (after, answer)) :
    Settled config fair board after ∧ ∀ cast, answer = .ok cast → Ready after (.vote cast) := by
  unfold openCast at made
  split at made
  · rename_i vote loaded known found
    obtain ⟨refreshed, expiry, made⟩ := bind_eq_ok.mp made
    have placed := (inOrder.orderly.rows _ loaded found).1
    have settled : Settled config fair board refreshed :=
      inOrder.settled.refreshExpiry (by rw [placed, found]) expiry
    split at made
    · cases pure_eq_ok.mp made
      exact ⟨settled, fun cast impossible => nomatch impossible⟩
    · rename_i proposal there
      have placed' := (settled.orderly.rows _ proposal there).1
      split at made
      · cases pure_eq_ok.mp made
        exact ⟨settled, fun cast impossible => nomatch impossible⟩
      · rename_i free
        cases pure_eq_ok.mp made
        refine ⟨settled, ?_⟩
        intro cast given
        obtain ⟨isOpen, authorised⟩ := gateRefusal_none free
        obtain ⟨sameProposal, sameSigner, key, keyFound, owner, sameKey⟩ := castAfterGate_ok given
        refine ⟨proposal, key, ?_, ?_, ?_, ?_, ?_, keyFound, owner, ?_, ?_⟩
        · rw [sameProposal, placed', there]
        · rw [sameProposal]
          exact alike_refl proposal
        · rw [sameProposal, isOpen]
        · rw [sameProposal]
          exact fun _ member => member
        · rw [sameSigner]
          exact authorised
        · rw [sameKey]
        · rw [sameKey]
  · cases made
    exact ⟨inOrder.settled, fun cast impossible => nomatch impossible⟩

/-! ## Withdrawing -/

theorem openWithdrawal_settled {actorId : Int} {clock : Clock} {answer : Option Refusal}
    (inOrder : InOrder config board) (stored : board.proposals[p.id]? = some p)
    (made : openWithdrawal config board p actorId clock = .ok (after, answer)) :
    Settled config fair board after ∧ Ready after (.withdrawal p actorId) := by
  have here : Ready board (.withdrawal p actorId) := ⟨p, stored, alike_refl p⟩
  unfold openWithdrawal at made
  split at made
  · cases made
    exact ⟨inOrder.settled, here⟩
  · obtain ⟨refreshed, expiry, made⟩ := bind_eq_ok.mp made
    have settled : Settled config fair board refreshed := inOrder.settled.refreshExpiry stored expiry
    split at made
    · cases pure_eq_ok.mp made
      exact ⟨settled, settled.ready here⟩
    · cases pure_eq_ok.mp made
      exact ⟨settled, settled.ready here⟩

theorem writeWithdrawal_settled {actorId : Int} {clock : Clock} (inOrder : InOrder config board)
    (ready : Ready board (.withdrawal p actorId))
    (made : writeWithdrawal config board p actorId clock = .ok after) : Settled config fair board after := by
  obtain ⟨row, found, alike⟩ := ready
  unfold writeWithdrawal at made
  rw [found] at made
  simp only at made
  split at made
  · cases made
  · rename_i isOpen
    have sameId : p.id = row.id := by rw [alike]
    exact inOrder.settled.close (by rw [← sameId, found]) alike (not_not.mp isOpen) (.inr rfl)
      (mapError_eq_ok.mp made)

/-! ## Steps that leave every decision alone -/

theorem quiet_settled {more : List LedgerEntry} (inOrder : InOrder config board)
    (same : after.proposals = board.proposals) (keys : KeysKept board.keys after.keys)
    (grown : after.ledger.entries = board.ledger.entries ++ more)
    (other : ∀ e ∈ more, e.eventType ∉ decisionEvents) : Settled config fair board after := by
  have row {i : Nat} {r : Proposal} (found : board.proposals[i]? = some r) :
      r.id = i ∧ Recorded config after r ∧ tally config after r = tally config board r := by
    obtain ⟨placed, recorded⟩ := inOrder.orderly.rows i r found
    refine ⟨placed, recorded.kept keys grown ?_ (by rw [same, placed, found])⟩
    exact fun e member => not_closes_of_other (other e member)
  constructor
  · constructor
    · intro i r found
      rw [same] at found
      exact ⟨(row found).1, (row found).2.1⟩
    · rw [same]
      exact inOrder.orderly.uuids
    · intro e member decision
      rw [grown] at member
      rw [same]
      rcases List.mem_append.mp member with old | new
      · exact inOrder.orderly.known e old decision
      · exact absurd decision (other e new)
  · intro r member isOpen
    rw [same] at member
    obtain ⟨i, found⟩ := List.mem_iff_getElem?.mp member
    rw [(row found).2.2]
    exact inOrder.undecided r member isOpen
  · constructor
    · intro i r found
      exact ⟨r, by rw [same, found], alike_refl r, fun _ cast => cast, fun _ => rfl⟩
    · intro _ i r found _
      exact .inl (by rw [← same, found])
  · exact keys

/-! ## Raising a decision -/

theorem announce_ok {ledger grown : Ledger} {file : Option FileMeta} {clock : Clock}
    (made : announce config ledger p file clock = .ok grown) :
    ∃ more, grown.entries = ledger.entries ++ more ∧
      (∀ e ∈ more, e.eventType ∉ closingEvents) ∧
      (∀ e ∈ more, e.eventType ∈ decisionEvents → e.refId = some p.proposalUuid) ∧
      ∃ e ∈ more, opens p.proposalUuid e := by
  unfold announce at made
  obtain ⟨filed, fileMade, made⟩ := bind_eq_ok.mp made
  obtain ⟨first, e, entries, genesis, eventType, refType, refId⟩ := append_ok made
  have created : e.eventType = text "proposal_created" := eventType
  have opening : opens p.proposalUuid e := by
    have refType' : e.refType = some (text "proposal") := refType
    have refId' : e.refId = some p.proposalUuid := refId
    simp [opens, created, refType', refId']
  have unlisted : text "genesis" ∉ closingEvents ∧ text "proposal_created" ∉ closingEvents := by decide
  obtain ⟨before, filedEntries, ordinary⟩ :
      ∃ before, filed.entries = ledger.entries ++ before ∧ ∀ e ∈ before, e.eventType ∉ decisionEvents := by
    cases file with
    | none =>
      cases fileMade
      exact ⟨[], by simp, by simp⟩
    | some file =>
      obtain ⟨first, e, entries, genesis, eventType, -, -⟩ := append_ok fileMade
      refine ⟨first ++ [e], entries, ?_⟩
      intro other member
      rcases List.mem_append.mp member with old | new
      · rw [genesis other old]
        exact genesis_not_decision
      · rw [List.mem_singleton.mp new, eventType]
        exact file_not_decision
  refine ⟨before ++ (first ++ [e]), by rw [entries, filedEntries, List.append_assoc], ?_, ?_,
    e, by simp, opening⟩
  · intro other member
    simp only [List.mem_append, List.mem_singleton] at member
    rcases member with old | old | new
    · exact fun closing => ordinary other old (closingEvents_subset _ closing)
    · rw [genesis other old]
      exact unlisted.1
    · rw [new, created]
      exact unlisted.2
  · intro other member decision
    simp only [List.mem_append, List.mem_singleton] at member
    rcases member with old | old | new
    · exact absurd decision (ordinary other old)
    · rw [genesis other old] at decision
      exact absurd decision genesis_not_decision
    · rw [new, refId]
      rfl

theorem signerIds_nodup (vault : Vault) : vault.signerIds.Nodup := by
  unfold Vault.signerIds
  rw [(List.perm_insertionSort _ _).nodup_iff]
  exact vault.distinct.sublist (List.filter_sublist.map _)

theorem createProposal_ok {draft : Draft} {clock : Clock}
    (made : createProposal config board draft clock = .ok after) :
    ∃ actionText signed ledger, raiseRefusal board.directory draft = none ∧
      draft.content.actionText = some actionText ∧
      signingBytesFor (draft.proposal board.directory board.proposals.length actionText) = .ok signed ∧
      (∀ r ∈ board.proposals, r.proposalUuid ≠ draft.proposalUuid) ∧
      let proposal := { draft.proposal board.directory board.proposals.length actionText with
        payloadHash := sha256Hex config.sha256 signed }
      announce config board.ledger proposal draft.file clock = .ok ledger ∧
        after = { board with ledger, proposals := board.proposals ++ [proposal] } := by
  unfold createProposal at made
  split at made
  · cases made
  · cases made
  · rename_i actionText free described
    obtain ⟨signed, signable, made⟩ := bind_eq_ok.mp made
    split at made
    · cases made
    · rename_i fresh
      obtain ⟨ledger, announced, made⟩ := bind_eq_ok.mp made
      cases pure_eq_ok.mp made
      refine ⟨actionText, signed, ledger, free, described, mapError_eq_ok.mp signable, ?_,
        mapError_eq_ok.mp announced, rfl⟩
      simpa using fresh

theorem raised_recorded {more : List LedgerEntry} (unvoted : p.signatures = []) (isOpen : p.status = .open)
    (signers : p.authorizedSigners.Nodup) (count : p.requiredN = p.authorizedSigners.length)
    (positive : 1 ≤ p.requiredM) (stored : after.proposals[p.id]? = some p)
    (opened : ∃ e ∈ after.ledger.entries, opens p.proposalUuid e)
    (grown : after.ledger.entries = board.ledger.entries ++ more)
    (unclosed : ∀ e ∈ board.ledger.entries ++ more, ¬ closes p.proposalUuid e) :
    Recorded config after p where
  signers
  counted := count
  positive
  voters := by simp [unvoted]
  authorised := by simp [unvoted]
  verified := by simp [unvoted]
  stored
  opened
  closings := by rw [grown, closings_eq_nil unclosed, isOpen]; rfl
  outcome ended := absurd isOpen ended

theorem createProposal_settled {draft : Draft} {clock : Clock} (inOrder : InOrder config board)
    (made : createProposal config board draft clock = .ok after) : Settled config fair board after := by
  obtain ⟨actionText, signed, ledger, -, -, -, fresh, announced, rfl⟩ := createProposal_ok made
  generalize raised : ({ draft.proposal board.directory board.proposals.length actionText with
    payloadHash := sha256Hex config.sha256 signed } : Proposal) = p at announced
  have unvoted : p.signatures = [] := by rw [← raised]; rfl
  have isOpen : p.status = .open := by rw [← raised]; rfl
  have uuid : p.proposalUuid = draft.proposalUuid := by rw [← raised]; rfl
  have placed : p.id = board.proposals.length := by rw [← raised]; rfl
  have signers : p.authorizedSigners = (board.directory.vault draft.vaultId).signerIds := by rw [← raised]; rfl
  have count : p.requiredN = p.authorizedSigners.length := by rw [← raised]; rfl
  have threshold : p.requiredM = (board.directory.vault draft.vaultId).thresholdM := by rw [← raised]; rfl
  obtain ⟨more, grown, ordinary, own, e, member, opening⟩ := announce_ok announced
  have quiet (uuid : Text) : ∀ e ∈ more, ¬ closes uuid e := by
    intro e member closing
    simp only [closes, Bool.and_eq_true, List.contains_iff_mem] at closing
    exact ordinary e member closing.1
  have old {i : Nat} {r : Proposal} (found : board.proposals[i]? = some r) :
      (board.proposals ++ [p])[i]? = some r := by
    rw [List.getElem?_append_left (List.getElem?_eq_some_iff.mp found).1, found]
  have stored : (board.proposals ++ [p])[p.id]? = some p := by simp [placed]
  have located {i : Nat} {r : Proposal} (found : (board.proposals ++ [p])[i]? = some r) :
      board.proposals[i]? = some r ∨ i = p.id ∧ r = p := by
    rcases lt_or_ge i board.proposals.length with inside | beyond
    · rw [List.getElem?_append_left inside] at found
      exact .inl found
    · rw [List.getElem?_append_right beyond, List.getElem?_singleton] at found
      split at found
      · rename_i last
        exact .inr ⟨by omega, by simpa using found.symm⟩
      · cases found
  have kept {i : Nat} {r : Proposal} (found : board.proposals[i]? = some r) :
      r.id = i ∧ Recorded config { board with ledger, proposals := board.proposals ++ [p] } r ∧
        tally config { board with ledger, proposals := board.proposals ++ [p] } r = tally config board r := by
    obtain ⟨here, recorded⟩ := inOrder.orderly.rows i r found
    exact ⟨here, recorded.kept (keysKept_refl _) grown (quiet _) (by rw [here]; exact old found)⟩
  have unclosed : ∀ e ∈ board.ledger.entries ++ more, ¬ closes p.proposalUuid e := by
    intro e member closing
    rcases List.mem_append.mp member with before | new
    · simp only [closes, Bool.and_eq_true, List.contains_iff_mem, decide_eq_true_eq] at closing
      obtain ⟨r, there, reference⟩ := inOrder.orderly.known e before (closingEvents_subset _ closing.1)
      rw [closing.2, Option.some.injEq, uuid] at reference
      exact fresh r there reference.symm
    · exact quiet _ e new closing
  have recorded : Recorded config { board with ledger, proposals := board.proposals ++ [p] } p := by
    refine raised_recorded unvoted isOpen (signers ▸ signerIds_nodup _) count ?_ stored ?_ grown unclosed
    · rw [threshold]
      exact (board.directory.vault draft.vaultId).positive
    · exact ⟨e, by simp [grown, member], opening⟩
  constructor
  · constructor
    · intro i r found
      rcases located found with before | ⟨rfl, rfl⟩
      · exact ⟨(kept before).1, (kept before).2.1⟩
      · exact ⟨rfl, recorded⟩
    · intro i j r s foundI foundJ same
      rcases located foundI with beforeI | ⟨rfl, rfl⟩
      · rcases located foundJ with beforeJ | ⟨rfl, rfl⟩
        · exact inOrder.orderly.uuids i j r s beforeI beforeJ same
        · exact absurd (same.trans uuid) (fresh r (List.mem_iff_getElem?.mpr ⟨i, beforeI⟩))
      · rcases located foundJ with beforeJ | ⟨rfl, rfl⟩
        · exact absurd (same.symm.trans uuid) (fresh s (List.mem_iff_getElem?.mpr ⟨j, beforeJ⟩))
        · rfl
    · intro other inside decision
      change other ∈ ledger.entries at inside
      rw [grown] at inside
      rcases List.mem_append.mp inside with before | new
      · obtain ⟨r, there, reference⟩ := inOrder.orderly.known other before decision
        exact ⟨r, List.mem_append_left _ there, reference⟩
      · exact ⟨p, by simp, own other new decision⟩
  · intro r there stillOpen
    obtain ⟨i, found⟩ := List.mem_iff_getElem?.mp there
    rcases located found with before | ⟨rfl, rfl⟩
    · rw [(kept before).2.2]
      exact inOrder.undecided r (List.mem_iff_getElem?.mpr ⟨i, before⟩) stillOpen
    · have none : (tally config { board with ledger, proposals := board.proposals ++ [r] } r).1 = 0 := by
        rw [recorded.tally_eq]
        unfold countedVotes Proposal.votes
        rw [unvoted]
        simp
      have positive := recorded.positive
      rw [none]
      omega
  · constructor
    · intro i r found
      exact ⟨r, old found, alike_refl r, fun _ cast => cast, fun _ => rfl⟩
    · intro _ i r found ended
      rcases located found with before | ⟨rfl, rfl⟩
      · exact .inl before
      · rw [isOpen] at ended
        cases ended
  · exact keysKept_refl _

/-! ## Runs -/

-- A vote is not written on a list of votes older than the requester's own, in a vault whose rule
-- now keeps the requester from voting.
def countsRequester (office : Office) : BoardEvent → Bool
  | .recordVote request _ _ _ _ =>
    match office.pending[request]? with
    | some (.vote cast) =>
      match office.board.proposals[cast.proposal.id]? with
      | some row =>
        row.requesterMayApprove office.board.directory || !row.hasVoted row.creatorId ||
          cast.proposal.hasVoted row.creatorId
      | none => true
    | _ => true
  | _ => true

theorem countsRequester_recordVote {office : Office} {request : Nat} {signature executionSignature : Bytes}
    {problem : Option Text} {clock : Clock} {cast : Cast} {row : Proposal}
    (current : countsRequester office (.recordVote request signature executionSignature problem clock))
    (pending : office.pending[request]? = some (.vote cast))
    (found : office.board.proposals[cast.proposal.id]? = some row)
    (barred : row.requesterMayApprove office.board.directory = false) (cast' : row.hasVoted row.creatorId) :
    cast.proposal.hasVoted row.creatorId := by
  simpa [countsRequester, pending, found, barred, cast'] using current

structure Sound (config : VoteConfig) (office : Office) : Prop where
  inOrder : InOrder config office.board
  ready : ∀ request ∈ office.pending, Ready office.board request

theorem sound_start (directory : Directory) : Sound config (Office.start directory) where
  inOrder := by
    refine ⟨⟨?_, ?_, ?_⟩, ?_⟩
    all_goals simp [Office.start, Ledger.empty]
  ready := by simp [Office.start]

-- What a step leaves: the invariant, and every decision as it was or one step further.
structure Stepped (config : VoteConfig) (fair : Prop) (before after : Office) : Prop where
  sound : Sound config after
  follows : Follows config fair before.board after.board

theorem stepped_same {office : Office} (sound : Sound config office) : Stepped config fair office office :=
  ⟨sound, follows_refl office.board⟩

theorem stepped_settled {office : Office} {requests : List Pending} (sound : Sound config office)
    (settled : Settled config fair office.board after)
    (ready : ∀ request ∈ requests, request ∈ office.pending ∨ Ready after request) :
    Stepped config fair office ⟨after, requests⟩ := by
  refine ⟨⟨settled.inOrder, ?_⟩, settled.follows⟩
  intro request member
  rcases ready request member with held | new
  · exact settled.ready (sound.ready request held)
  · exact new

theorem stepped_hold {office : Office} {request : Pending} (sound : Sound config office)
    (settled : Settled config fair office.board after) (ready : Ready after request) :
    Stepped config fair office (Office.hold { office with board := after } request) := by
  refine stepped_settled sound settled ?_
  intro other member
  rcases List.mem_append.mp member with held | new
  · exact .inl held
  · rw [List.mem_singleton.mp new]
    exact .inr ready

theorem stepped_commit {ε : Type} {office : Office} {requests : List Pending} {result : Except ε Board}
    (sound : Sound config office) (subset : ∀ request ∈ requests, request ∈ office.pending)
    (settled : ∀ board, result = .ok board → Settled config fair office.board board) :
    Stepped config fair office (Office.commit ⟨office.board, requests⟩ result) := by
  cases result with
  | error _ =>
    exact stepped_settled sound sound.inOrder.settled fun request member => .inl (subset request member)
  | ok board =>
    exact stepped_settled sound (settled board rfl) fun request member => .inl (subset request member)

theorem mem_of_eraseIdx {requests : List Pending} {request : Pending} {n : Nat}
    (member : request ∈ requests.eraseIdx n) : request ∈ requests :=
  (List.eraseIdx_sublist requests n).mem member

theorem boardStep_stepped {office : Office} (event : BoardEvent) (sound : Sound config office)
    (current : fair → countsRequester office event) :
    Stepped config fair office (boardStep config office event) := by
  cases event with
  | createProposal draft clock =>
    exact stepped_commit sound (fun _ member => member) fun board => createProposal_settled sound.inOrder
  | openCast ballot digest clock =>
    simp only [boardStep]
    split
    · exact stepped_same sound
    · rename_i board refusal made
      exact stepped_settled sound (openCast_settled sound.inOrder made).1 fun _ member => .inl member
    · rename_i board cast made
      obtain ⟨settled, ready⟩ := openCast_settled sound.inOrder made
      exact stepped_hold sound settled (ready cast rfl)
  | recordVote request signature executionSignature problem clock =>
    simp only [boardStep]
    split
    · rename_i cast found
      have ready := sound.ready _ (List.mem_iff_getElem?.mpr ⟨request, found⟩)
      refine stepped_commit sound (fun _ => mem_of_eraseIdx) ?_
      intro board made
      exact recordVote_settled sound.inOrder.orderly sound.inOrder.undecided ready
        (fun counted row there => countsRequester_recordVote (current counted) found there) made
    · exact stepped_same sound
  | openWithdrawal proposalId actorId clock =>
    simp only [boardStep]
    split
    · exact stepped_same sound
    · rename_i proposal found
      have placed := (sound.inOrder.orderly.rows proposalId proposal found).1
      have stored : office.board.proposals[proposal.id]? = some proposal := by rw [placed, found]
      split
      · exact stepped_same sound
      · rename_i board refusal made
        exact stepped_settled sound (openWithdrawal_settled sound.inOrder stored made).1
          fun _ member => .inl member
      · rename_i board made
        obtain ⟨settled, ready⟩ := openWithdrawal_settled sound.inOrder stored made
        exact stepped_hold sound settled ready
  | writeWithdrawal request clock =>
    simp only [boardStep]
    split
    · rename_i proposal actorId found
      have ready := sound.ready _ (List.mem_iff_getElem?.mpr ⟨request, found⟩)
      exact stepped_commit sound (fun _ => mem_of_eraseIdx) fun board =>
        writeWithdrawal_settled sound.inOrder ready
    · exact stepped_same sound
  | refreshExpiry proposalId clock =>
    simp only [boardStep]
    split
    · exact stepped_same sound
    · rename_i proposal found
      have placed := (sound.inOrder.orderly.rows proposalId proposal found).1
      exact stepped_commit sound (fun _ member => member) fun board =>
        sound.inOrder.settled.refreshExpiry (by rw [placed, found])
  | finalizeStalled clock =>
    exact stepped_settled sound sound.inOrder.settled.finalizeStalled fun _ member => .inl member
  | directory directory =>
    refine stepped_settled sound ?_ fun _ member => .inl member
    exact quiet_settled sound.inOrder rfl (keysKept_refl _) (List.append_nil _).symm (by simp)
  | addKey key =>
    refine stepped_settled sound ?_ fun _ member => .inl member
    exact quiet_settled sound.inOrder rfl (keysKept_add _ key) (List.append_nil _).symm (by simp)
  | changeKey keyId status canSign wrapDomain =>
    refine stepped_settled sound ?_ fun _ member => .inl member
    exact quiet_settled sound.inOrder rfl (keysKept_change _ keyId status canSign wrapDomain)
      (List.append_nil _).symm (by simp)
  | append other timestamp =>
    refine stepped_commit sound (fun _ member => member) ?_
    intro board made
    obtain ⟨ledger, appended, rfl⟩ := map_eq_ok.mp made
    obtain ⟨first, e, entries, genesis, eventType, -, -⟩ := append_ok appended
    refine quiet_settled sound.inOrder rfl (keysKept_refl _) entries ?_
    intro entry member
    rcases List.mem_append.mp member with old | new
    · rw [genesis entry old]
      exact genesis_not_decision
    · rw [List.mem_singleton.mp new, eventType]
      exact other.other

theorem boardStep_sound {office : Office} (event : BoardEvent) (sound : Sound config office) :
    Sound config (boardStep config office event) :=
  (boardStep_stepped event sound False.elim).sound

theorem run_sound {office : Office} (events : List BoardEvent) (sound : Sound config office) :
    Sound config (Runs.run (boardStep config) office events) := by
  induction events generalizing office with
  | nil => exact sound
  | cons event rest ih => exact ih (boardStep_sound event sound)

-- A decision that a run has closed stays as it is.
theorem run_kept {office : Office} (events : List BoardEvent) (sound : Sound config office)
    (guarded : Runs.Guarded (boardStep config) (countsRequester · ·) office events) (i : Nat) (p : Proposal)
    (found : office.board.proposals[i]? = some p) :
    ∃ q, (Runs.run (boardStep config) office events).board.proposals[i]? = some q ∧ Alike q p ∧
      (∀ s ∈ p.signatures, s ∈ q.signatures) ∧ (p.status ≠ .open → q = p) := by
  induction events generalizing office p with
  | nil => exact ⟨p, found, alike_refl p, fun _ member => member, fun _ => rfl⟩
  | cons event rest ih =>
    have stepped : Stepped config True office _ := boardStep_stepped event sound fun _ => guarded.1
    obtain ⟨mid, there, alike, votes, frozen⟩ := stepped.follows.kept i p found
    obtain ⟨last, here, alike', votes', frozen'⟩ := ih stepped.sound guarded.2 mid there
    refine ⟨last, here, alike_trans alike' alike, fun s member => votes' s (votes s member), ?_⟩
    intro ended
    have same := frozen ended
    rw [same] at frozen'
    exact frozen' ended

-- How a decision stands in a state of a run
structure WellDecided (config : VoteConfig) (board : Board) (p : Proposal) : Prop where
  oneVoteEach : (p.signatures.map (·.signerId)).Nodup
  verified : ∀ s ∈ p.signatures, verifySignature config board p s
  approved : p.status = .approved ↔ p.requiredM ≤ (tally config board p).1
  oneEnding : closings board.ledger.entries p.proposalUuid = closingsOf p.status
  swept : (verdict config board p).isSome → worthDeciding board.directory p

theorem InOrder.wellDecided (inOrder : InOrder config board) (member : p ∈ board.proposals) :
    WellDecided config board p := by
  obtain ⟨i, found⟩ := List.mem_iff_getElem?.mp member
  have recorded := (inOrder.orderly.rows i p found).2
  refine ⟨recorded.voters, recorded.verified, ?_, recorded.closings, worthDeciding_of_verdict recorded⟩
  by_cases isOpen : p.status = .open
  · have undecided := inOrder.undecided p member isOpen
    simp [isOpen, undecided]
  · exact recorded.outcome isOpen

def boardAfter (config : VoteConfig) (directory : Directory) (events : List BoardEvent) : Board :=
  (Runs.run (boardStep config) (Office.start directory) events).board

section Sample

-- Thirty-one zeros and a byte that depends on the data
def voteHash (data : Bytes) : Bytes :=
  List.replicate 31 0 ++ [data.foldl (fun sum b => 31 * sum + b) 7]

def voteConfig : VoteConfig where
  sha256 := voteHash
  registry := ⟨fun algId =>
    if algId = text "ML-DSA-65" then
      some fun publicKey message signature => signature == voteHash (publicKey ++ message)
    else none⟩
  signatureSize _ := 32

-- Three approvers, of whom two decide; `rule` says whether the one who raises a decision may approve it.
def threeApprovers (rule : Bool) : Directory where
  vault _ := ⟨[⟨1, .owner⟩, ⟨2, .signer⟩, ⟨3, .signer⟩], by decide, 2, by decide, some rule, none⟩
  membership _ _ := none
  anyWorkspace := false

def rentDraft : Draft where
  vaultId := 1
  creatorId := 1
  title := "Rent"
  content := .general "Pay the rent"
  file := none
  deadline := none
  proposalUuid := "d-1"
  nonce := [1, 2]
  createdAtIso := "2026-10-01T09:00:00+00:00"

def rentClock : Clock := ⟨0, "2026-10-01T09:00:00+00:00", fun _ => "2026-10-01T09:00:00+00:00"⟩

def rentHash : Text :=
  match signingBytesFor (rentDraft.proposal (threeApprovers true) 0 "Pay the rent") with
  | .ok signed => sha256Hex voteHash signed
  | .error _ => []

def approverKey (userId : Nat) : Key :=
  ⟨some userId, true, "ML-DSA-65", [UInt8.ofNat userId], .password, .active, true⟩

def openRent (signerId : Nat) (decision reason : Text) : BoardEvent :=
  .openCast ⟨0, signerId, decision, .str reason, .password⟩ (.error []) rentClock

def writeRent (request signerId : Nat) (vote : Vote) : BoardEvent :=
  match voteSigningBytes rentHash (.str vote.text) (.int signerId) with
  | .ok message => .recordVote request (voteHash (UInt8.ofNat signerId :: message)) [] none rentClock
  | .error _ => .finalizeStalled rentClock

def rentRaised : List BoardEvent :=
  [.addKey (approverKey 1), .addKey (approverKey 2), .addKey (approverKey 3),
    .createProposal rentDraft rentClock]

-- Two approvals pass their gates together, and the requester's withdrawal is tried after both.
def rentApproved : List BoardEvent :=
  rentRaised ++ [openRent 2 "approve" "", openRent 3 "approve" "", .openWithdrawal 0 1 rentClock,
    writeRent 0 2 .approve, writeRent 0 3 .approve, .writeWithdrawal 0 rentClock]

-- The second approver's rejection passes its gate, the requester approves, the vault's rule then
-- keeps the requester out, and the rejection is written with the list of votes it had loaded.
def rentRejected : List BoardEvent :=
  rentRaised ++ [openRent 2 "reject" "Too early", openRent 1 "approve" "", writeRent 1 1 .approve,
    .directory (threeApprovers false)]

end Sample

end QVault.Proof.Services
