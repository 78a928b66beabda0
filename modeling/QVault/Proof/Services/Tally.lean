import QVault.Services.ApprovalRun
import QVault.Lib.Results

/-!
# What the votes of a decision count for

A decision's row keeps its votes, and every one of them verifies for good: the keys it was made with
keep their owner and their public key, and the ledger entry that opened the decision stays the first.
-/

namespace QVault.Proof.Services
open QVault.Services QVault.Python QVault.Crypto QVault.Transparency Results

/-! ## Entries -/

theorem sealEntry_ok {sha256 : Bytes → Bytes} {seq : Int} {prevHash timestamp : Text}
    {event : LedgerEvent} {e : LedgerEntry}
    (made : sealEntry sha256 seq prevHash timestamp event = .ok e) :
    e.eventType = event.eventType ∧ e.refType = event.refType ∧ e.refId = event.refId := by
  unfold sealEntry at made
  obtain ⟨payload, -, made⟩ := bind_eq_ok.mp made
  obtain ⟨hash, -, made⟩ := bind_eq_ok.mp made
  cases pure_eq_ok.mp made
  exact ⟨rfl, rfl, rfl⟩

theorem appendTo_sealed {sha256 : Bytes → Bytes} {ledger after : Ledger} {head : LedgerEntry}
    {last : ledger.last = some head} {timestamp : Text} {event : LedgerEvent}
    (appended : appendTo sha256 ledger head last timestamp event = .ok after) :
    ∃ e, after.entries = ledger.entries ++ [e] ∧
      sealEntry sha256 (head.seq + 1) head.entryHash timestamp event = .ok e := by
  unfold appendTo at appended
  split at appended
  · cases appended
  · rename_i e made
    cases appended
    exact ⟨e, rfl, made⟩

-- One entry for the event, after the genesis entry when the table was empty.
theorem append_sealed {sha256 : Bytes → Bytes} {ledger after : Ledger} {timestamp : Text} {event : LedgerEvent}
    (appended : append sha256 ledger timestamp event = .ok after) :
    ∃ first e, after.entries = ledger.entries ++ (first ++ [e]) ∧
      (∀ g ∈ first, g.eventType = text "genesis") ∧
      ∃ seq prevHash, sealEntry sha256 seq prevHash timestamp event = .ok e := by
  unfold append at appended
  split at appended
  · obtain ⟨e, entries, made⟩ := appendTo_sealed appended
    exact ⟨[], e, entries, by simp, _, _, made⟩
  · split at appended
    · cases appended
    · rename_i g opened
      obtain ⟨e, entries, made⟩ := appendTo_sealed appended
      refine ⟨[g], e, ?_, ?_, _, _, made⟩
      · simp [entries, Ledger.push]
      · intro other member
        rw [List.mem_singleton.mp member, (sealEntry_ok opened).1]
        rfl

theorem append_ok {sha256 : Bytes → Bytes} {ledger after : Ledger} {timestamp : Text} {event : LedgerEvent}
    (appended : append sha256 ledger timestamp event = .ok after) :
    ∃ first e, after.entries = ledger.entries ++ (first ++ [e]) ∧
      (∀ g ∈ first, g.eventType = text "genesis") ∧
      e.eventType = event.eventType ∧ e.refType = event.refType ∧ e.refId = event.refId := by
  obtain ⟨first, e, entries, genesis, seq, prevHash, made⟩ := append_sealed appended
  exact ⟨first, e, entries, genesis, sealEntry_ok made⟩

def closingEvents : List Text :=
  ["proposal_approved", "proposal_rejected", "proposal_expired", "proposal_withdrawn"]

def closes (proposalUuid : Text) (e : LedgerEntry) : Bool :=
  closingEvents.contains e.eventType && e.refId = some proposalUuid

-- The `event_type`s of the entries that say how a decision ended
def closings (entries : List LedgerEntry) (proposalUuid : Text) : List Text :=
  (entries.filter (closes proposalUuid)).map (·.eventType)

def closingsOf : Status → List Text
  | .open => []
  | status => [status.event]

theorem closings_append (before more : List LedgerEntry) (proposalUuid : Text) :
    closings (before ++ more) proposalUuid = closings before proposalUuid ++ closings more proposalUuid := by
  simp [closings]

theorem closings_eq_nil {entries : List LedgerEntry} {proposalUuid : Text}
    (none : ∀ e ∈ entries, ¬ closes proposalUuid e) : closings entries proposalUuid = [] := by
  simp only [closings, List.map_eq_nil_iff, List.filter_eq_nil_iff]
  exact none

theorem closingEvents_subset : ∀ eventType ∈ closingEvents, eventType ∈ decisionEvents := by
  decide

theorem genesis_not_decision : text "genesis" ∉ decisionEvents := by decide

theorem file_not_decision : text "file_encrypted" ∉ decisionEvents := by decide

theorem not_closes_of_other {proposalUuid : Text} {e : LedgerEntry} (other : e.eventType ∉ decisionEvents) :
    ¬ closes proposalUuid e := by
  intro closing
  simp only [closes, Bool.and_eq_true, List.contains_iff_mem] at closing
  exact other (closingEvents_subset _ closing.1)

theorem not_closes_of_ref {proposalUuid : Text} {e : LedgerEntry} (other : e.refId ≠ some proposalUuid) :
    ¬ closes proposalUuid e := by
  simp [closes, other]

def opens (proposalUuid : Text) (e : LedgerEntry) : Bool :=
  e.eventType = text "proposal_created" && e.refType = some (text "proposal") && e.refId = some proposalUuid

-- The entry that opened a decision is the first of its kind, so later ones do not matter.
theorem creationLedgerHash_grown {before after : Ledger} {proposalUuid : Text} {more : List LedgerEntry}
    (opened : ∃ e ∈ before.entries, opens proposalUuid e) (grown : after.entries = before.entries ++ more) :
    creationLedgerHash after proposalUuid = creationLedgerHash before proposalUuid := by
  unfold creationLedgerHash
  rw [grown, List.find?_append]
  cases found : before.entries.find? _ with
  | some e => rfl
  | none =>
    obtain ⟨e, member, opening⟩ := opened
    exact absurd opening (List.find?_eq_none.mp found e member)

/-! ## Keys and votes -/

-- Keys are added and retired, and keep who they belong to.
def KeysKept (before after : List Key) : Prop :=
  ∀ (keyId : Nat) (key : Key), before[keyId]? = some key → ∃ later : Key, after[keyId]? = some later ∧
    later.ownerId = key.ownerId ∧ later.publicKey = key.publicKey ∧ later.algId = key.algId

theorem keysKept_refl (keys : List Key) : KeysKept keys keys :=
  fun _ key found => ⟨key, found, rfl, rfl, rfl⟩

theorem keysKept_add (keys : List Key) (key : Key) : KeysKept keys (keys ++ [key]) := by
  intro keyId old found
  refine ⟨old, ?_, rfl, rfl, rfl⟩
  rw [List.getElem?_append_left (List.getElem?_eq_some_iff.mp found).1, found]

theorem keysKept_change (keys : List Key) (changed : Nat) (status : KeyStatus) (canSign : Bool)
    (wrapDomain : WrapDomain) :
    KeysKept keys (keys.modify changed fun key => { key with status, canSign, wrapDomain }) := by
  intro keyId old found
  rw [List.getElem?_modify, found]
  by_cases same : changed = keyId
  · exact ⟨_, rfl, by simp [same], by simp [same], by simp [same]⟩
  · exact ⟨_, rfl, by simp [same], by simp [same], by simp [same]⟩

-- Two rows or objects of one decision, at different times
def Alike (a b : Proposal) : Prop := a = { b with status := a.status, signatures := a.signatures }

theorem alike_refl (p : Proposal) : Alike p p := rfl

theorem alike_trans {a b c : Proposal} (ab : Alike a b) (bc : Alike b c) : Alike a c := by
  unfold Alike at *
  rw [ab, bc]

variable {config : VoteConfig} {board after : Board} {p q : Proposal}

theorem verifySignature_kept {s : Signature} (kept : KeysKept board.keys after.keys)
    (same : q.payloadHash = p.payloadHash) (verified : verifySignature config board p s) :
    verifySignature config after q s := by
  unfold verifySignature at verified ⊢
  cases found : board.keys[s.keyId]? with
  | none => simp [found] at verified
  | some key =>
    obtain ⟨later, there, owner, publicKey, algId⟩ := kept s.keyId key found
    simp only [found] at verified
    simpa only [there, owner, publicKey, algId, same] using verified

-- What holds of the row of a decision from the moment it is raised
structure Recorded (config : VoteConfig) (board : Board) (p : Proposal) : Prop where
  signers : p.authorizedSigners.Nodup
  counted : p.requiredN = p.authorizedSigners.length
  positive : 1 ≤ p.requiredM
  voters : (p.signatures.map (·.signerId)).Nodup
  authorised : ∀ s ∈ p.signatures, s.signerId ∈ p.authorizedSigners
  verified : ∀ s ∈ p.signatures, verifySignature config board p s
  stored : board.proposals[p.id]? = some p
  opened : ∃ e ∈ board.ledger.entries, opens p.proposalUuid e
  closings : closings board.ledger.entries p.proposalUuid = closingsOf p.status
  outcome : p.status ≠ .open → (p.status = .approved ↔ p.requiredM ≤ (tally config board p).1)

def countedVotes (bound : Bool) (p : Proposal) : Nat × Nat :=
  if bound then ((p.votes .approve).length, (p.votes .reject).length) else (0, 0)

theorem tally_eq (verified : ∀ s ∈ p.signatures, verifySignature config board p s)
    (stored : board.signatureRows p.id = p.signatures) :
    tally config board p = countedVotes (bindingOk config board p) p := by
  have votes (vote : Vote) : verifiedVotes config board p vote = p.votes vote := by
    unfold verifiedVotes Proposal.votes
    rw [stored]
    apply List.filter_congr
    intro s member
    simp [verified s member]
  unfold tally countedVotes
  rw [votes .approve, votes .reject]

theorem signatureRows_eq (stored : board.proposals[p.id]? = some p) :
    board.signatureRows p.id = p.signatures := by
  simp [Board.signatureRows, stored]

theorem Recorded.tally_eq (recorded : Recorded config board p) :
    tally config board p = countedVotes (bindingOk config board p) p :=
  Services.tally_eq recorded.verified (signatureRows_eq recorded.stored)

theorem bindingOk_grown {more : List LedgerEntry} (alike : Alike q p)
    (opened : ∃ e ∈ board.ledger.entries, opens p.proposalUuid e)
    (grown : after.ledger.entries = board.ledger.entries ++ more) :
    bindingOk config after q = bindingOk config board p := by
  rw [alike]
  have same : creationLedgerHash after.ledger p.proposalUuid = creationLedgerHash board.ledger p.proposalUuid :=
    creationLedgerHash_grown opened grown
  unfold bindingOk
  simp only [same]
  rfl

-- The votes of a row that a step leaves alone count as they did.
theorem Recorded.kept {more : List LedgerEntry} (recorded : Recorded config board p)
    (keys : KeysKept board.keys after.keys) (grown : after.ledger.entries = board.ledger.entries ++ more)
    (others : ∀ e ∈ more, ¬ closes p.proposalUuid e) (stored : after.proposals[p.id]? = some p) :
    Recorded config after p ∧ tally config after p = tally config board p := by
  have verified : ∀ s ∈ p.signatures, verifySignature config after p s :=
    fun s member => verifySignature_kept keys rfl (recorded.verified s member)
  have same : tally config after p = tally config board p := by
    rw [Services.tally_eq verified (signatureRows_eq stored), recorded.tally_eq,
      bindingOk_grown (alike_refl p) recorded.opened grown]
  refine ⟨{ recorded with verified, stored, opened := ?_, closings := ?_, outcome := ?_ }, same⟩
  · obtain ⟨e, member, opening⟩ := recorded.opened
    exact ⟨e, by simp [grown, member], opening⟩
  · rw [grown, closings_append, closings_eq_nil others, List.append_nil, recorded.closings]
  · rw [same]
    exact recorded.outcome

end QVault.Proof.Services
