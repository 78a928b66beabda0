import QVault.Proof.Services.Tally
import QVault.Lib.Runs

/-!
# Closing a decision

Every step changes the row of at most one decision, and a row changes by gaining a vote or by being
closed.
-/

namespace QVault.Proof.Services
open QVault.Services QVault.Python QVault.Crypto QVault.Transparency Results

variable {config : VoteConfig} {board after : Board} {p q : Proposal}

structure Orderly (config : VoteConfig) (board : Board) : Prop where
  rows : ∀ (i : Nat) (p : Proposal), board.proposals[i]? = some p → p.id = i ∧ Recorded config board p
  uuids : ∀ (i j : Nat) (p q : Proposal), board.proposals[i]? = some p → board.proposals[j]? = some q →
    p.proposalUuid = q.proposalUuid → i = j
  known : ∀ e ∈ board.ledger.entries, e.eventType ∈ decisionEvents →
    ∃ p ∈ board.proposals, e.refId = some p.proposalUuid

def Undecided (config : VoteConfig) (board : Board) (p : Proposal) : Prop :=
  p.status = .open → (tally config board p).1 < p.requiredM

/-! ## One row changes -/

structure Change (board after : Board) (p q : Proposal) (more : List LedgerEntry) : Prop where
  stored : board.proposals[p.id]? = some p
  rows : ∀ i, after.proposals[i]? = if i = p.id then some q else board.proposals[i]?
  alike : Alike q p
  votes : ∀ s ∈ p.signatures, s ∈ q.signatures
  directory : after.directory = board.directory
  keys : KeysKept board.keys after.keys
  grown : after.ledger.entries = board.ledger.entries ++ more
  own : ∀ e ∈ more, e.eventType ∈ decisionEvents → e.refId = some p.proposalUuid

variable {more : List LedgerEntry}

theorem Change.id (change : Change board after p q more) : q.id = p.id := by
  rw [change.alike]

theorem Change.uuid (change : Change board after p q more) : q.proposalUuid = p.proposalUuid := by
  rw [change.alike]

theorem Change.storedAfter (change : Change board after p q more) : after.proposals[q.id]? = some q := by
  rw [change.rows, change.id, if_pos rfl]

theorem Change.others (change : Change board after p q more) (orderly : Orderly config board) {i : Nat}
    {r : Proposal} (other : i ≠ p.id) (found : board.proposals[i]? = some r) :
    Recorded config after r ∧ tally config after r = tally config board r := by
  obtain ⟨placed, recorded⟩ := orderly.rows i r found
  refine recorded.kept change.keys change.grown ?_ (by rw [change.rows, placed, if_neg other, found])
  intro e member closing
  have decision : e.eventType ∈ decisionEvents := by
    simp only [closes, Bool.and_eq_true, List.contains_iff_mem] at closing
    exact closingEvents_subset _ closing.1
  have reference : e.refId = some r.proposalUuid := by
    simp only [closes, Bool.and_eq_true, decide_eq_true_eq] at closing
    exact closing.2
  rw [change.own e member decision, Option.some.injEq] at reference
  exact other (orderly.uuids i p.id r p found change.stored reference.symm)

theorem Change.orderly (change : Change board after p q more) (orderly : Orderly config board)
    (recorded : Recorded config after q) : Orderly config after := by
  have uuidAt {i : Nat} {r : Proposal} (found : after.proposals[i]? = some r) :
      ∃ r', board.proposals[i]? = some r' ∧ r'.proposalUuid = r.proposalUuid := by
    rw [change.rows] at found
    split at found
    · rename_i same
      cases found
      exact ⟨p, by rw [same, change.stored], change.uuid.symm⟩
    · exact ⟨r, found, rfl⟩
  constructor
  · intro i r found
    have original := found
    rw [change.rows] at found
    split at found
    · rename_i same
      cases found
      exact ⟨by rw [change.id, same], recorded⟩
    · rename_i other
      exact ⟨(orderly.rows i r found).1, (change.others orderly other found).1⟩
  · intro i j r s foundI foundJ same
    obtain ⟨r', thereI, uuidI⟩ := uuidAt foundI
    obtain ⟨s', thereJ, uuidJ⟩ := uuidAt foundJ
    exact orderly.uuids i j r' s' thereI thereJ (by rw [uuidI, uuidJ, same])
  · intro e member decision
    rw [change.grown] at member
    rcases List.mem_append.mp member with old | new
    · obtain ⟨r, there, reference⟩ := orderly.known e old decision
      obtain ⟨i, found⟩ := List.mem_iff_getElem?.mp there
      by_cases same : i = p.id
      · refine ⟨q, List.mem_iff_getElem?.mpr ⟨q.id, change.storedAfter⟩, ?_⟩
        rw [same, change.stored, Option.some.injEq] at found
        rw [reference, change.uuid, found]
      · exact ⟨r, List.mem_iff_getElem?.mpr ⟨i, by rw [change.rows, if_neg same, found]⟩, reference⟩
    · refine ⟨q, List.mem_iff_getElem?.mpr ⟨q.id, change.storedAfter⟩, ?_⟩
      rw [change.own e new decision, change.uuid]

/-! ## What closing does -/

def closed (p : Proposal) (status : Status) : Proposal := { p with status }

theorem rows_update (found : board.proposals[p.id]? = some p) (change : Proposal → Proposal) (i : Nat) :
    (board.update p.id change).proposals[i]? = if i = p.id then some (change p) else board.proposals[i]? := by
  unfold Board.update
  rw [List.getElem?_modify]
  by_cases same : i = p.id
  · simp [same, found]
  · simp [same, Ne.symm same]

theorem closeAs_change {object : Proposal} {status : Status} {details : List (Text × Json)}
    {actorId : Option Int} {timestamp : Text} (stored : board.proposals[p.id]? = some p)
    (alike : Alike object p) (ended : status ≠ .open)
    (made : closeAs config board object status details actorId timestamp = .ok after) :
    ∃ more, Change board after p (closed p status) more ∧
      closings more p.proposalUuid = closingsOf status := by
  have sameId : object.id = p.id := by rw [alike]
  have sameUuid : object.proposalUuid = p.proposalUuid := by rw [alike]
  unfold closeAs at made
  obtain ⟨ledger, appended, made⟩ := bind_eq_ok.mp made
  cases pure_eq_ok.mp made
  obtain ⟨first, e, entries, genesis, eventType, -, refId⟩ := append_ok appended
  have named : e.refId = some p.proposalUuid := by rw [refId, ← sameUuid]; rfl
  have kind : e.eventType = status.event := eventType
  refine ⟨first ++ [e], ⟨stored, ?_, rfl, fun _ member => member, rfl, keysKept_refl _, entries, ?_⟩, ?_⟩
  · intro i
    rw [sameId]
    exact rows_update stored (fun row => { row with status }) i
  · intro other member decision
    rcases List.mem_append.mp member with old | new
    · rw [genesis other old] at decision
      exact absurd decision genesis_not_decision
    · rw [List.mem_singleton.mp new, named]
  · have before : closings first p.proposalUuid = [] := by
      apply closings_eq_nil
      intro g member
      exact not_closes_of_other (by rw [genesis g member]; exact genesis_not_decision)
    have this : closes p.proposalUuid e = true := by
      have listed : status.event ∈ closingEvents := by
        cases status with
        | «open» => exact absurd rfl ended
        | approved | rejected | expired | withdrawn => decide
      simp [closes, kind, named, listed]
    rw [closings_append, before]
    cases status with
    | «open» => exact absurd rfl ended
    | approved | rejected | expired | withdrawn => simp [closings, this, closingsOf, kind]

theorem closed_recorded {status : Status} (change : Change board after p (closed p status) more)
    (recorded : Recorded config board p) (isOpen : p.status = .open)
    (entries : closings more p.proposalUuid = closingsOf status)
    (outcome : status = .approved ↔ p.requiredM ≤ (tally config board p).1) :
    Recorded config after (closed p status) ∧
      tally config after (closed p status) = tally config board p := by
  have verified : ∀ s ∈ (closed p status).signatures, verifySignature config after (closed p status) s :=
    fun s member => verifySignature_kept change.keys rfl (recorded.verified s member)
  have same : tally config after (closed p status) = tally config board p := by
    rw [tally_eq verified (signatureRows_eq change.storedAfter), recorded.tally_eq,
      bindingOk_grown change.alike recorded.opened change.grown]
    rfl
  refine ⟨{ signers := recorded.signers, counted := recorded.counted, positive := recorded.positive,
            voters := recorded.voters, authorised := recorded.authorised, verified,
            stored := change.storedAfter, opened := ?_, closings := ?_, outcome := ?_ }, same⟩
  · obtain ⟨e, member, opening⟩ := recorded.opened
    exact ⟨e, by simp [change.grown, member], opening⟩
  · have before := recorded.closings
    rw [isOpen] at before
    rw [change.grown, closings_append]
    change closings board.ledger.entries p.proposalUuid ++ closings more p.proposalUuid = closingsOf status
    rw [before, entries]
    rfl
  · intro _
    rw [same]
    exact outcome

/-! ## Who had not rejected it -/

def voters (p : Proposal) (directory : Directory) : List Int :=
  p.authorizedSigners.filter fun id => !(p.requesterExcluded directory && id == p.creatorId)

def notRejecting (p : Proposal) (directory : Directory) : List Int :=
  (voters p directory).filter fun id => !(p.votes .reject).any fun s => s.signerId = id

theorem voters_length {directory : Directory} (distinct : p.authorizedSigners.Nodup)
    (count : p.requiredN = p.authorizedSigners.length) :
    ((voters p directory).length : Int) = p.decidingN directory := by
  unfold voters Proposal.decidingN
  cases excluded : p.requesterExcluded directory with
  | false => simp [count]
  | true =>
    have member : p.creatorId ∈ p.authorizedSigners := by
      simp only [Proposal.requesterExcluded, Bool.and_eq_true, List.contains_iff_mem] at excluded
      exact excluded.1.1
    have erased : p.authorizedSigners.filter (fun id => !(true && id == p.creatorId)) =
        p.authorizedSigners.erase p.creatorId := by
      rw [distinct.erase_eq_filter]
      apply List.filter_congr
      intro id _
      simp [bne]
    rw [erased, List.length_erase_of_mem member, count]
    have positive : 0 < p.authorizedSigners.length := List.length_pos_of_mem member
    simp only [if_true]
    omega

theorem filter_notIn_length {chosen all : List Int} (distinctChosen : chosen.Nodup) (distinct : all.Nodup)
    (subset : chosen ⊆ all) :
    (all.filter fun id => !chosen.contains id).length + chosen.length = all.length := by
  have picked : (all.filter fun id => chosen.contains id).Perm chosen := by
    rw [List.perm_ext_iff_of_nodup (distinct.filter _) distinctChosen]
    intro id
    simp only [List.mem_filter, List.contains_iff_mem]
    exact ⟨fun both => both.2, fun member => ⟨subset member, member⟩⟩
  rw [← picked.length_eq, Nat.add_comm]
  exact (List.length_eq_length_filter_add _).symm

theorem notRejecting_length {directory : Directory} (recorded : Recorded config board p) :
    ((notRejecting p directory).length : Int) + (p.votes .reject).length = p.decidingN directory := by
  have rejecting : ((p.votes .reject).map (·.signerId)).Nodup :=
    recorded.voters.sublist (List.filter_sublist.map _)
  have subset : (p.votes .reject).map (·.signerId) ⊆ voters p directory := by
    intro id member
    obtain ⟨s, inside, rfl⟩ := List.mem_map.mp member
    have cast : s ∈ p.signatures := List.mem_of_mem_filter inside
    refine List.mem_filter.mpr ⟨recorded.authorised s cast, ?_⟩
    cases excluded : p.requesterExcluded directory with
    | false => rfl
    | true =>
      simp only [Proposal.requesterExcluded, Bool.and_eq_true, Bool.not_eq_true', Proposal.hasVoted,
        List.any_eq_false, decide_eq_true_eq] at excluded
      simpa using excluded.2 s cast
  have total : ((voters p directory).filter
      fun id => !((p.votes .reject).map (·.signerId)).contains id).length +
      ((p.votes .reject).map (·.signerId)).length = (voters p directory).length :=
    filter_notIn_length rejecting (recorded.signers.filter _) subset
  have same : notRejecting p directory =
      (voters p directory).filter fun id => !((p.votes .reject).map (·.signerId)).contains id := by
    unfold notRejecting
    apply List.filter_congr
    intro id _
    congr 1
    rw [Bool.eq_iff_iff, List.any_eq_true, List.contains_iff_mem, List.mem_map]
    simp only [decide_eq_true_eq]
  rw [List.length_map] at total
  rw [same, ← voters_length recorded.signers recorded.counted, ← total, Nat.cast_add]

-- How a decision stands that was closed as rejected
structure RejectedFairly (config : VoteConfig) (board : Board) (q : Proposal) : Prop where
  bound : (closed q .open).decidingN board.directory - q.requiredM < (tally config board q).2
  unreachable : ((notRejecting (closed q .open) board.directory).length : Int) < q.requiredM

theorem tally_rejections_le (recorded : Recorded config board p) :
    (tally config board p).2 ≤ (p.votes .reject).length := by
  rw [recorded.tally_eq]
  unfold countedVotes
  split
  · exact le_rfl
  · exact Nat.zero_le _

/-! ## Steps of a whole board -/

-- `fair` says that every vote of the run is counted on the votes its table holds.
structure Follows (config : VoteConfig) (fair : Prop) (before after : Board) : Prop where
  kept : ∀ (i : Nat) (p : Proposal), before.proposals[i]? = some p → ∃ q, after.proposals[i]? = some q ∧
    Alike q p ∧ (∀ s ∈ p.signatures, s ∈ q.signatures) ∧ (p.status ≠ .open → q = p)
  rejected : fair → ∀ (i : Nat) (q : Proposal), after.proposals[i]? = some q → q.status = .rejected →
    before.proposals[i]? = some q ∨ RejectedFairly config after q

variable {fair : Prop}

theorem follows_refl (board : Board) : Follows config fair board board where
  kept _ p found := ⟨p, found, alike_refl p, fun _ member => member, fun _ => rfl⟩
  rejected _ _ _ found _ := .inl found

theorem Follows.change {start : Board} (follows : Follows config fair start board)
    (orderly : Orderly config board) (change : Change board after p q more) (isOpen : p.status = .open)
    (fairly : fair → q.status = .rejected → RejectedFairly config after q) :
    Follows config fair start after := by
  constructor
  · intro i r found
    obtain ⟨r', there, alike, votes, frozen⟩ := follows.kept i r found
    by_cases same : i = p.id
    · rw [same, change.stored, Option.some.injEq] at there
      rw [← there] at alike votes frozen
      refine ⟨q, by rw [change.rows, if_pos same], alike_trans change.alike alike, ?_, ?_⟩
      · intro s member
        exact change.votes s (votes s member)
      · intro ended
        exact absurd (frozen ended ▸ isOpen) ended
    · exact ⟨r', by rw [change.rows, if_neg same, there], alike, votes, frozen⟩
  · intro counted i r found ended
    rw [change.rows] at found
    split at found
    · cases found
      exact .inr (fairly counted ended)
    · rename_i other
      rcases follows.rejected counted i r found ended with before | already
      · exact .inl before
      · have same := (change.others orderly other found).2
        refine .inr ⟨?_, ?_⟩
        · rw [same, change.directory]
          exact already.bound
        · rw [change.directory]
          exact already.unreachable

-- A board that a call may commit
structure Settled (config : VoteConfig) (fair : Prop) (start board : Board) : Prop where
  orderly : Orderly config board
  undecided : ∀ r ∈ board.proposals, Undecided config board r
  follows : Follows config fair start board
  keys : KeysKept start.keys board.keys

theorem keysKept_trans {a b c : List Key} (ab : KeysKept a b) (bc : KeysKept b c) : KeysKept a c := by
  intro keyId key found
  obtain ⟨mid, there, owner, publicKey, algId⟩ := ab keyId key found
  obtain ⟨last, here, owner', publicKey', algId'⟩ := bc keyId mid there
  exact ⟨last, here, owner'.trans owner, publicKey'.trans publicKey, algId'.trans algId⟩

theorem Change.undecided (change : Change board after p q more) (orderly : Orderly config board)
    (others : ∀ r ∈ board.proposals, r.id ≠ p.id → Undecided config board r)
    (changed : Undecided config after q) : ∀ r ∈ after.proposals, Undecided config after r := by
  intro r member
  obtain ⟨i, found⟩ := List.mem_iff_getElem?.mp member
  rw [change.rows] at found
  split at found
  · cases found
    exact changed
  · rename_i other
    intro isOpen
    rw [(change.others orderly other found).2]
    have placed := (orderly.rows i r found).1
    exact others r (List.mem_iff_getElem?.mpr ⟨i, found⟩) (by rw [placed]; exact other) isOpen

theorem close_settled {start : Board} {object : Proposal} {status : Status} {details : List (Text × Json)}
    {actorId : Option Int} {timestamp : Text} (orderly : Orderly config board)
    (others : ∀ r ∈ board.proposals, r.id ≠ p.id → Undecided config board r)
    (follows : Follows config fair start board) (keys : KeysKept start.keys board.keys)
    (stored : board.proposals[p.id]? = some p) (alike : Alike object p) (isOpen : p.status = .open)
    (ended : status ≠ .open) (outcome : status = .approved ↔ p.requiredM ≤ (tally config board p).1)
    (exceeded : fair → status = .rejected →
      p.decidingN board.directory - p.requiredM < (tally config board p).2)
    (made : closeAs config board object status details actorId timestamp = .ok after) :
    Settled config fair start after := by
  obtain ⟨more, change, entries⟩ := closeAs_change stored alike ended made
  have recorded := (orderly.rows p.id p stored).2
  obtain ⟨recordedAfter, same⟩ := closed_recorded change recorded isOpen entries outcome
  have reopened : closed (closed p status) .open = p := by
    unfold closed
    rw [← isOpen]
  have unreachable (counted : fair) (rejected : status = .rejected) :
      RejectedFairly config after (closed p status) := by
    have bound := exceeded counted rejected
    have total : ((notRejecting p board.directory).length : Int) + (p.votes .reject).length =
      p.decidingN board.directory := notRejecting_length recorded
    have valid := tally_rejections_le recorded
    refine ⟨?_, ?_⟩
    · rw [same, reopened, change.directory]
      exact bound
    · rw [reopened, change.directory]
      change _ < p.requiredM
      omega
  exact {
    orderly := change.orderly orderly recordedAfter
    undecided := change.undecided orderly others fun still => absurd still ended
    follows := follows.change orderly change isOpen unreachable
    keys := keysKept_trans keys change.keys }

end QVault.Proof.Services
