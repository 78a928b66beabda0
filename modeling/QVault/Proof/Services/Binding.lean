import QVault.Proof.Services.DecisionLifecycle
import QVault.Proof.Python.Loads

/-!
# The entry that opened a decision

The ledger says a decision's hash from the moment it is raised, and nothing is taken from the ledger, so
the signed inputs of every decision keep matching it.
-/

namespace QVault.Proof.Services
open QVault.Services QVault.Python QVault.Crypto QVault.Transparency QVault.Proof.Canonical Results

variable {config : VoteConfig} {board middle after : Board} {p q : Proposal}

/-! ## Entries are only added -/

structure Grew (before after : Board) : Prop where
  directory : after.directory = before.directory
  entries : ∃ more, after.ledger.entries = before.ledger.entries ++ more
  rows : ∀ (i : Nat) (q : Proposal), after.proposals[i]? = some q → ∃ p, before.proposals[i]? = some p ∧ Alike q p

theorem grew_refl (board : Board) : Grew board board where
  directory := rfl
  entries := ⟨[], (List.append_nil _).symm⟩
  rows _ q found := ⟨q, found, alike_refl q⟩

theorem Grew.trans (first : Grew board middle) (second : Grew middle after) : Grew board after where
  directory := second.directory.trans first.directory
  entries := by
    obtain ⟨early, grown⟩ := first.entries
    obtain ⟨late, grown'⟩ := second.entries
    exact ⟨early ++ late, by rw [grown', grown, List.append_assoc]⟩
  rows i q found := by
    obtain ⟨r, there, alike⟩ := second.rows i q found
    obtain ⟨p, here, alike'⟩ := first.rows i r there
    exact ⟨p, here, alike_trans alike alike'⟩

theorem grew_update {id : Nat} {change : Proposal → Proposal} {ledger : Ledger} {more : List LedgerEntry}
    (alike : ∀ row, Alike (change row) row) (grown : ledger.entries = board.ledger.entries ++ more) :
    Grew board { board.update id change with ledger } where
  directory := rfl
  entries := ⟨more, grown⟩
  rows i q found := by
    simp only [Board.update, List.getElem?_modify] at found
    obtain ⟨p, here, same⟩ := Option.map_eq_some_iff.mp found
    refine ⟨p, here, ?_⟩
    rw [← same]
    split
    · exact alike p
    · exact alike_refl p

theorem append_grown {sha256 : Bytes → Bytes} {ledger grown : Ledger} {timestamp : Text} {event : LedgerEvent}
    (appended : append sha256 ledger timestamp event = .ok grown) :
    ∃ more, grown.entries = ledger.entries ++ more := by
  obtain ⟨first, e, entries, -⟩ := append_ok appended
  exact ⟨first ++ [e], entries⟩

theorem closeAs_grew {status : Status} {details : List (Text × Json)} {actorId : Option Int} {timestamp : Text}
    (made : closeAs config board p status details actorId timestamp = .ok after) : Grew board after := by
  unfold closeAs at made
  obtain ⟨ledger, appended, made⟩ := bind_eq_ok.mp made
  cases pure_eq_ok.mp made
  obtain ⟨more, grown⟩ := append_grown appended
  exact grew_update (fun row => rfl) grown

theorem finalizeIfDecided_grew {actorId : Option Int} {timestamp : Text}
    (made : finalizeIfDecided config board p actorId timestamp = .ok after) : Grew board after := by
  unfold finalizeIfDecided at made
  split at made
  · cases made
    exact grew_refl board
  · exact closeAs_grew made
  · exact closeAs_grew made

theorem refreshExpiry_grew {clock : Clock} (made : refreshExpiry config board p clock = .ok after) :
    Grew board after := by
  unfold refreshExpiry at made
  split at made
  · split at made
    · exact finalizeIfDecided_grew made
    · exact closeAs_grew made
  · cases made
    exact grew_refl board

theorem finalizeOne_grew (timestamp : Text) (board : Board) (id : Nat) :
    Grew board (finalizeOne config timestamp board id) := by
  unfold finalizeOne
  split
  · exact grew_refl board
  · split
    · split
      · rename_i decided made
        exact finalizeIfDecided_grew made
      · exact grew_refl board
    · exact grew_refl board

theorem finalizeStalled_grew (board : Board) (clock : Clock) : Grew board (finalizeStalled config board clock) := by
  unfold finalizeStalled
  generalize board.proposals.filter _ = stalled
  induction stalled generalizing board with
  | nil => exact grew_refl board
  | cons p rest ih => exact (finalizeOne_grew _ board p.id).trans (ih _)

theorem openCast_grew {ballot : Ballot} {digest : Except Text Bytes} {clock : Clock} {answer : Except Refusal Cast}
    (made : openCast config board ballot digest clock = .ok (after, answer)) : Grew board after := by
  unfold openCast at made
  split at made
  · obtain ⟨refreshed, expiry, made⟩ := bind_eq_ok.mp made
    have grew : Grew board refreshed := refreshExpiry_grew expiry
    split at made
    · cases pure_eq_ok.mp made
      exact grew
    · split at made
      · cases pure_eq_ok.mp made
        exact grew
      · cases pure_eq_ok.mp made
        exact grew
  · cases made
    exact grew_refl board

theorem storeVote_grew {cast : Cast} {signature executionSignature : Bytes} {clock : Clock}
    (made : storeVote config board cast signature executionSignature clock = .ok after) : Grew board after := by
  unfold storeVote at made
  obtain ⟨ledger, appended, made⟩ := bind_eq_ok.mp made
  obtain ⟨more, grown⟩ := append_grown appended
  have grew : Grew board { board.update cast.proposal.id fun row => voted row (cast.signature signature) with ledger } :=
    grew_update (fun row => rfl) grown
  exact grew.trans (finalizeIfDecided_grew made)

theorem recordVote_grew {cast : Cast} {signature executionSignature : Bytes} {problem : Option Text} {clock : Clock}
    (made : recordVote config board cast signature executionSignature problem clock = .ok after) :
    Grew board after := by
  obtain ⟨row, message, -, -, -, -, stored⟩ := recordVote_ok made
  exact storeVote_grew stored

theorem openWithdrawal_grew {actorId : Int} {clock : Clock} {answer : Option Refusal}
    (made : openWithdrawal config board p actorId clock = .ok (after, answer)) : Grew board after := by
  unfold openWithdrawal at made
  split at made
  · cases made
    exact grew_refl board
  · obtain ⟨refreshed, expiry, made⟩ := bind_eq_ok.mp made
    split at made
    · cases pure_eq_ok.mp made
      exact refreshExpiry_grew expiry
    · cases pure_eq_ok.mp made
      exact refreshExpiry_grew expiry

theorem writeWithdrawal_grew {actorId : Int} {clock : Clock}
    (made : writeWithdrawal config board p actorId clock = .ok after) : Grew board after := by
  unfold writeWithdrawal at made
  split at made
  · cases made
  · split at made
    · cases made
    · exact closeAs_grew (mapError_eq_ok.mp made)

theorem commit_grew {ε : Type} {office : Office} {requests : List Pending} {result : Except ε Board}
    (made : ∀ after, result = .ok after → Grew office.board after) :
    Grew office.board (Office.commit ⟨office.board, requests⟩ result).board := by
  cases result with
  | error _ => exact grew_refl _
  | ok after => exact made after rfl

-- Every step but the raising of a decision and a change of the people and their roles
theorem boardStep_grew {office : Office} {event : BoardEvent}
    (raises : ∀ draft clock, event ≠ .createProposal draft clock) (moves : ∀ directory, event ≠ .directory directory) :
    Grew office.board (boardStep config office event).board := by
  cases event with
  | createProposal draft clock => exact absurd rfl (raises draft clock)
  | openCast ballot digest clock =>
    simp only [boardStep]
    split
    · exact grew_refl _
    · rename_i made
      exact openCast_grew made
    · rename_i made
      exact openCast_grew made
  | recordVote request signature executionSignature problem clock =>
    simp only [boardStep]
    split
    · exact commit_grew fun _ => recordVote_grew
    · exact grew_refl _
  | openWithdrawal proposalId actorId clock =>
    simp only [boardStep]
    split
    · exact grew_refl _
    · split
      · exact grew_refl _
      · rename_i made
        exact openWithdrawal_grew made
      · rename_i made
        exact openWithdrawal_grew made
  | writeWithdrawal request clock =>
    simp only [boardStep]
    split
    · exact commit_grew fun _ => writeWithdrawal_grew
    · exact grew_refl _
  | refreshExpiry proposalId clock =>
    simp only [boardStep]
    split
    · exact grew_refl _
    · exact commit_grew fun _ => refreshExpiry_grew
  | finalizeStalled clock => exact finalizeStalled_grew _ clock
  | directory directory => exact absurd rfl (moves directory)
  | addKey key => exact ⟨rfl, ⟨[], (List.append_nil _).symm⟩, fun _ q found => ⟨q, found, alike_refl q⟩⟩
  | changeKey keyId status canSign wrapDomain =>
    exact ⟨rfl, ⟨[], (List.append_nil _).symm⟩, fun _ q found => ⟨q, found, alike_refl q⟩⟩
  | append other timestamp =>
    refine commit_grew fun board made => ?_
    obtain ⟨ledger, appended, rfl⟩ := map_eq_ok.mp made
    exact ⟨rfl, append_grown appended, fun _ q found => ⟨q, found, alike_refl q⟩⟩

/-! ## What the entry says -/

theorem lookup_of_mem {fields : List (Text × Json)} (distinct : (fields.map Prod.fst).Nodup) {key : Text} {value : Json}
    (listed : (key, value) ∈ fields) : Json.lookup key fields = some value := by
  induction fields with
  | nil => cases listed
  | cons f rest ih =>
    obtain ⟨k, v⟩ := f
    rw [List.map_cons, List.nodup_cons] at distinct
    cases listed with
    | head => rw [Json.lookup, if_pos rfl]
    | tail _ later =>
      have other : k ≠ key := fun same => distinct.1 (same ▸ List.mem_map.mpr ⟨_, later, rfl⟩)
      rw [Json.lookup, if_neg other, ih distinct.2 later]

theorem get_normal {fields : List (Text × Json)} (distinct : (fields.map Prod.fst).Nodup) {key : Text} {value : Json}
    (listed : (key, value) ∈ fields) :
    ∃ read, normal (.dict fields) = .dict read ∧ Json.get read key = normal value := by
  refine ⟨_, normal_dict fields, ?_⟩
  have sorted : (((sortFields fields).map fun f => (f.1, normal f.2)).map Prod.fst).Nodup := by
    rw [List.map_map]
    exact ((List.perm_insertionSort _ fields).map Prod.fst).nodup_iff.mpr distinct
  rw [Json.get, lookup_of_mem sorted (List.mem_map.mpr ⟨_, mem_sortFields.mpr listed, rfl⟩), Option.getD_some]

theorem sealEntry_payload {sha256 : Bytes → Bytes} {seq : Int} {prevHash timestamp : Text} {event : LedgerEvent}
    {e : LedgerEntry} (made : sealEntry sha256 seq prevHash timestamp event = .ok e) :
    e.payloadJson = event.payload.dumps .canonical := by
  unfold sealEntry at made
  obtain ⟨payload, -, made⟩ := bind_eq_ok.mp made
  obtain ⟨hash, -, made⟩ := bind_eq_ok.mp made
  cases pure_eq_ok.mp made
  rfl

-- An integer of a column
def InColumn (n : Int) : Prop := n.natAbs < 2 ^ 63

theorem readable_column {n : Int} (column : InColumn n) : Readable (.int n) := by
  refine .int ?_
  unfold natText
  split
  · decide
  · rw [List.length_map, List.length_reverse]
    have digits : (Nat.digits 10 n.natAbs).length ≤ 19 := by
      rw [Nat.digits_length_le_iff (by norm_num)]
      exact lt_of_lt_of_le column (by norm_num)
    exact digits.trans (by decide)

def createdPayload (p : Proposal) (hasFile : Bool) : List (Text × Json) :=
  (text "proposal_uuid", .str p.proposalUuid) :: (text "vault_id", .int p.vaultId) :: createdDetails p hasFile

theorem createdPayload_names (p : Proposal) (hasFile : Bool) :
    ((createdPayload p hasFile).map Prod.fst).Nodup := by
  have names : ∀ paid : Bool, ([text "proposal_uuid", text "vault_id", text "title", text "M", text "N",
      text "payload_hash", text "has_file"] ++ if paid then [text "has_action"] else []).Nodup := by
    decide
  have listed := names p.action.isSome
  unfold createdPayload createdDetails
  cases paid : p.action.isSome with
  | false => simpa [paid] using listed
  | true => simpa [paid] using listed

theorem createdPayload_readable {hasFile : Bool} (vault : InColumn p.vaultId) (threshold : InColumn p.requiredM)
    (count : InColumn p.requiredN) : Readable (.dict (createdPayload p hasFile)) := by
  refine .dict (createdPayload_names p hasFile) ?_
  intro f listed
  simp only [createdPayload, createdDetails, List.mem_cons, List.mem_append, List.not_mem_nil, or_false] at listed
  rcases listed with rfl | rfl | (rfl | rfl | rfl | rfl | rfl) | flag
  · exact .str _
  · exact readable_column vault
  · exact .str _
  · exact readable_column threshold
  · exact readable_column count
  · exact .str _
  · exact .bool _
  · split at flag
    · rw [List.mem_singleton.mp flag]
      exact .bool _
    · cases flag

theorem announceFile_ordinary {ledger filed : Ledger} {timestamp : Text} {file : Option FileMeta}
    (made : announceFile config ledger p timestamp file = .ok filed) :
    ∃ before, filed.entries = ledger.entries ++ before ∧ ∀ e ∈ before, e.eventType ∉ decisionEvents := by
  cases file with
  | none =>
    cases made
    exact ⟨[], by simp, by simp⟩
  | some file =>
    obtain ⟨first, e, entries, genesis, eventType, -, -⟩ := append_ok made
    refine ⟨first ++ [e], entries, ?_⟩
    intro other member
    rcases List.mem_append.mp member with old | new
    · rw [genesis other old]
      exact genesis_not_decision
    · rw [List.mem_singleton.mp new, eventType]
      exact file_not_decision

-- The entry of a decision is the first that opens it, and says its hash.
theorem creationLedgerHash_announced {ledger grown : Ledger} {file : Option FileMeta} {clock : Clock}
    (unknown : ∀ e ∈ ledger.entries, ¬ opens p.proposalUuid e) (vault : InColumn p.vaultId)
    (threshold : InColumn p.requiredM) (count : InColumn p.requiredN)
    (made : announce config ledger p file clock = .ok grown) :
    creationLedgerHash grown p.proposalUuid = .str p.payloadHash := by
  unfold announce at made
  obtain ⟨filed, fileMade, made⟩ := bind_eq_ok.mp made
  obtain ⟨before, filedEntries, ordinary⟩ := announceFile_ordinary fileMade
  obtain ⟨first, e, entries, genesis, seq, prevHash, sealed⟩ := append_sealed made
  obtain ⟨eventType, refType, refId⟩ := sealEntry_ok sealed
  have opening : opens p.proposalUuid e := by
    have eventType' : e.eventType = text "proposal_created" := eventType
    have refType' : e.refType = some (text "proposal") := refType
    have refId' : e.refId = some p.proposalUuid := refId
    simp [opens, eventType', refType', refId']
  have earlier : ∀ other ∈ ledger.entries ++ before ++ first, ¬ opens p.proposalUuid other := by
    intro other member opened
    have kind : other.eventType = text "proposal_created" := by
      simp only [opens, Bool.and_eq_true, decide_eq_true_eq] at opened
      exact opened.1.1
    simp only [List.mem_append] at member
    rcases member with (old | old) | old
    · exact unknown other old opened
    · exact ordinary other old (kind ▸ by decide)
    · rw [genesis other old] at kind
      exact absurd kind (by decide)
  have found : grown.entries.find? (opens p.proposalUuid) = some e := by
    rw [entries, filedEntries, ← List.append_assoc, List.find?_append, List.find?_eq_none.mpr earlier, Option.none_or,
      List.find?_singleton, if_pos opening]
  have written : e.payloadJson = (Json.dict (createdPayload p file.isSome)).dumps .canonical :=
    sealEntry_payload sealed
  have listed : (text "payload_hash", .str p.payloadHash) ∈ createdPayload p file.isSome := by
    simp [createdPayload, createdDetails]
  obtain ⟨read, normalised, hash⟩ := get_normal (createdPayload_names p file.isSome) listed
  have loaded : Json.loads e.payloadJson = .ok (.dict read) := by
    rw [written, loads_dumps (createdPayload_readable vault threshold count), normalised]
  unfold opens at found
  unfold creationLedgerHash
  simp only [found, loaded, hash]
  rfl

/-! ## Every decision of a run -/

def Directory.Fits (directory : Directory) : Prop :=
  ∀ vaultId, (directory.vault vaultId).members.length < 2 ^ 63

-- Ids and counts as the tables of a database hold them
def fitsColumns : BoardEvent → Prop
  | .createProposal draft _ => InColumn draft.vaultId
  | .directory directory => Directory.Fits directory
  | _ => True

structure Bound (config : VoteConfig) (office : Office) : Prop where
  sound : Sound config office
  fits : Directory.Fits office.board.directory
  bound : ∀ p ∈ office.board.proposals, bindingOk config office.board p

theorem raiseRefusal_none {directory : Directory} {draft : Draft} (free : raiseRefusal directory draft = none) :
    (directory.vault draft.vaultId).thresholdM ≤ (directory.vault draft.vaultId).signerIds.length := by
  unfold raiseRefusal at free
  split at free
  · cases free
  · simp only at free
    split at free
    · cases free
    · omega

theorem paymentIntact_raised {draft : Draft} (directory : Directory) (id : Nat) {actionText : Text}
    (described : draft.content.actionText = some actionText) :
    paymentIntact (draft.proposal directory id actionText) = true := by
  unfold paymentIntact Draft.proposal
  cases content : draft.content with
  | general _ | typed _ => simp [Content.action]
  | payment action =>
    rw [content] at described
    have written : paymentText action.canonical = some actionText := described
    have same : StoredAction.canonical { action with treasury := some (action.treasuryAddress, action.chainId) } =
        action.canonical := rfl
    simp [Content.action, same, written]

theorem createProposal_bound {draft : Draft} {clock : Clock} (inOrder : InOrder config board)
    (fits : Directory.Fits board.directory) (vault : InColumn draft.vaultId)
    (bound : ∀ p ∈ board.proposals, bindingOk config board p)
    (made : createProposal config board draft clock = .ok after) : ∀ p ∈ after.proposals, bindingOk config after p := by
  obtain ⟨actionText, signed, ledger, free, described, signable, fresh, announced, rfl⟩ := createProposal_ok made
  generalize raised : ({ draft.proposal board.directory board.proposals.length actionText with
    payloadHash := sha256Hex config.sha256 signed } : Proposal) = p at announced
  obtain ⟨more, grown, -⟩ := announce_ok announced
  have uuid : p.proposalUuid = draft.proposalUuid := by rw [← raised]; rfl
  have enough := raiseRefusal_none free
  have positive := (board.directory.vault draft.vaultId).positive
  have few : (board.directory.vault draft.vaultId).signerIds.length < 2 ^ 63 := by
    have signing : (board.directory.vault draft.vaultId).signerIds.length ≤
        (board.directory.vault draft.vaultId).members.length := by
      rw [Vault.signerIds, List.length_insertionSort, List.length_map]
      exact List.length_filter_le _ _
    exact lt_of_le_of_lt signing (fits draft.vaultId)
  have threshold : InColumn p.requiredM := by
    rw [← raised]
    change (board.directory.vault draft.vaultId).thresholdM.natAbs < 2 ^ 63
    omega
  have count : InColumn p.requiredN := by
    rw [← raised]
    change ((board.directory.vault draft.vaultId).signerIds.length : Int).natAbs < 2 ^ 63
    omega
  have unknown : ∀ e ∈ board.ledger.entries, ¬ opens p.proposalUuid e := by
    intro e member opening
    simp only [opens, Bool.and_eq_true, decide_eq_true_eq] at opening
    obtain ⟨r, there, reference⟩ := inOrder.orderly.known e member (opening.1.1 ▸ by decide)
    rw [opening.2, Option.some.injEq, uuid] at reference
    exact fresh r there reference.symm
  have said : creationLedgerHash ledger p.proposalUuid = .str p.payloadHash :=
    creationLedgerHash_announced unknown (by rw [← raised]; exact vault) threshold count announced
  intro r member
  rcases List.mem_append.mp member with old | new
  · obtain ⟨i, found⟩ := List.mem_iff_getElem?.mp old
    rw [bindingOk_grown (alike_refl r) (inOrder.orderly.rows i r found).2.opened grown]
    exact bound r old
  · rw [List.mem_singleton.mp new]
    have signs : signingBytesFor p = .ok signed := by rw [← raised]; exact signable
    have hash : p.payloadHash = sha256Hex config.sha256 signed := by rw [← raised]
    have intact : paymentIntact p = true := by
      rw [← raised]
      exact paymentIntact_raised board.directory board.proposals.length described
    unfold bindingOk
    simp only [signs, said, intact, hash, beq_self_eq_true, Bool.true_and, Json.eq]

variable (config) in
theorem boardStep_bound {office : Office} {event : BoardEvent} (bound : Bound config office)
    (fits : fitsColumns event) : Bound config (boardStep config office event) := by
  have sound := boardStep_sound event bound.sound
  by_cases raises : ∃ draft clock, event = .createProposal draft clock
  · obtain ⟨draft, clock, rfl⟩ := raises
    cases made : createProposal config office.board draft clock with
    | error refusal =>
      simp only [boardStep, made, Office.commit]
      exact bound
    | ok after =>
      simp only [boardStep, made, Office.commit] at sound ⊢
      have same : after.directory = office.board.directory := by
        obtain ⟨actionText, signed, ledger, -, -, -, -, -, rfl⟩ := createProposal_ok made
        rfl
      exact ⟨sound, by rw [same]; exact bound.fits,
        createProposal_bound bound.sound.inOrder bound.fits fits bound.bound made⟩
  · by_cases moves : ∃ directory, event = .directory directory
    · obtain ⟨directory, rfl⟩ := moves
      exact ⟨sound, fits, bound.bound⟩
    · have grew : Grew office.board (boardStep config office event).board :=
        boardStep_grew (fun draft clock same => raises ⟨draft, clock, same⟩) fun directory same =>
          moves ⟨directory, same⟩
      refine ⟨sound, by rw [grew.directory]; exact bound.fits, ?_⟩
      intro q member
      obtain ⟨i, found⟩ := List.mem_iff_getElem?.mp member
      obtain ⟨p, there, alike⟩ := grew.rows i q found
      obtain ⟨more, grown⟩ := grew.entries
      rw [bindingOk_grown alike (bound.sound.inOrder.orderly.rows i p there).2.opened grown]
      exact bound.bound p (List.mem_iff_getElem?.mpr ⟨i, there⟩)

theorem run_bound {directory : Directory} {events : List BoardEvent} (start : Directory.Fits directory)
    (fits : ∀ event ∈ events, fitsColumns event) :
    Bound config (Runs.run (boardStep config) (Office.start directory) events) := by
  have run {office : Office} (bound : Bound config office) : Bound config (Runs.run (boardStep config) office events) := by
    induction events generalizing office with
    | nil => exact bound
    | cons event rest ih =>
      exact ih (fun later listed => fits later (List.mem_cons_of_mem _ listed))
        (boardStep_bound config bound (fits event List.mem_cons_self))
  exact run ⟨sound_start directory, start, by simp [Office.start]⟩

end QVault.Proof.Services
