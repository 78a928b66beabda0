import QVault.Proof.Services.Authority

/-!
# Deadlines and keys between a gate and its write

The gate checks a vote's key and the decision's deadline, and the write does not. A vote is in time
exactly when neither ran out in between.
-/

namespace QVault.Proof.Services
open QVault.Services QVault.Python QVault.Crypto QVault.Chain Results

variable {config : PaymentConfig} {desk : Desk}

-- A vote that is cast before its decision's deadline, with a key its signer can still sign with
structure Timely (desk : Desk) (p : Proposal) (s : Signature) : Prop where
  deadline : ∀ deadline, p.expiresAt = some deadline → desk.now ≤ deadline
  key : ∃ key, desk.books.board.keys[s.keyId]? = some key ∧ key.ownerId = some s.signerId ∧
    key.status = .active ∧ key.canSign

/-! ## Time -/

def duration : DeskEvent → Int
  | .tick elapsed => elapsed
  | _ => 0

def elapsed (events : List DeskEvent) : Int := (events.map duration).sum

theorem deskStep_now (desk : Desk) (event : DeskEvent) :
    (deskStep config desk event).now = desk.now + duration event := by
  have same {next : Desk} (kept : next.now = desk.now) : next.now = desk.now + 0 := by rw [kept, add_zero]
  cases event with
  | plain _ | addKey _ | retireKey _ _ | unlink _ | requestReconfiguration _ | endReconfiguration _ =>
    exact same rfl
  | raisePayment draft submitted payment clock =>
    refine same ?_
    simp only [deskStep]
    split
    · rfl
    · split <;> rfl
  | openCast ballot onchain clock =>
    refine same ?_
    simp only [deskStep]
    split <;> rfl
  | recordVote request signature executionSignature clock =>
    refine same ?_
    simp only [deskStep]
    split
    · unfold Desk.commit
      split <;> rfl
    · rfl
  | openWithdrawal proposalId actorId clock =>
    refine same ?_
    simp only [deskStep]
    split
    · rfl
    · split <;> rfl
  | writeWithdrawal request clock =>
    refine same ?_
    simp only [deskStep]
    split
    · split <;> rfl
    · rfl
  | tick elapsed => rfl
  | link vaultId chainId address signers =>
    refine same ?_
    simp only [deskStep]
    split
    · split <;> rfl
    · rfl
  | applyReconfiguration treasury thresholdM signers =>
    refine same ?_
    simp only [deskStep]
    split <;> rfl

variable (config) in
theorem run_now (desk : Desk) (events : List DeskEvent) :
    (Runs.run (deskStep config) desk events).now = desk.now + elapsed events := by
  induction events generalizing desk with
  | nil => exact (add_zero _).symm
  | cons event rest ih =>
    rw [Runs.run_cons, ih, deskStep_now, add_assoc]
    rfl

/-! ## Keys -/

-- A signing key that is active can sign.
def KeysSound (keys : List Key) : Prop := ∀ key ∈ keys, key.signing → key.status = .active → key.canSign

theorem deskStep_keysSound {event : DeskEvent} (sound : KeysSound desk.books.board.keys) :
    KeysSound (deskStep config desk event).books.board.keys := by
  by_cases other : changesKeys event = false
  · rw [deskStep_keys other]
    exact sound
  · cases event with
    | addKey new =>
      intro key member signing active
      rcases List.mem_append.mp member with old | fresh
      · exact sound key old signing active
      · rw [List.mem_singleton.mp fresh] at signing ⊢
        exact signing
    | retireKey keyId lost =>
      intro key member signing active
      obtain ⟨i, found⟩ := List.mem_iff_getElem?.mp member
      change (desk.books.board.keys.modify keyId (·.retire lost))[i]? = some key at found
      rw [List.getElem?_modify] at found
      obtain ⟨old, there, same⟩ := Option.map_eq_some_iff.mp found
      split at same
      · rw [← same] at active
        cases active
      · rw [← same] at signing active ⊢
        exact sound old (List.mem_iff_getElem?.mpr ⟨i, there⟩) signing active
    | _ => exact absurd rfl other

variable (config) in
theorem deskAfter_keysSound (directory : Directory) (now : Int) (events : List DeskEvent) :
    KeysSound (deskAfter config directory now events).books.board.keys := by
  induction events using List.reverseRecOn with
  | nil => exact fun key member => absurd member List.not_mem_nil
  | append_singleton events event ih =>
    rw [deskAfter_append]
    exact deskStep_keysSound ih

variable (config) in
-- What one step makes of a key: nothing, unless it retires this one.
theorem deskStep_key (event : DeskEvent) {keyId : Nat} {key : Key}
    (found : desk.books.board.keys[keyId]? = some key) :
    ∃ later, (deskStep config desk event).books.board.keys[keyId]? = some later ∧ later.ownerId = key.ownerId ∧
      ((∀ lost, event ≠ .retireKey keyId lost) → later = key) ∧
      ((∃ lost, event = .retireKey keyId lost) → later.status = .retired) := by
  by_cases other : changesKeys event = false
  · refine ⟨key, by rw [deskStep_keys other, found], rfl, fun _ => rfl, ?_⟩
    rintro ⟨lost, rfl⟩
    cases other
  · cases event with
    | addKey new =>
      refine ⟨key, ?_, rfl, fun _ => rfl, ?_⟩
      · change (desk.books.board.keys ++ [new.key])[keyId]? = some key
        rw [List.getElem?_append_left (List.getElem?_eq_some_iff.mp found).1, found]
      · rintro ⟨lost, impossible⟩
        cases impossible
    | retireKey retired lost =>
      have there : (deskStep config desk (.retireKey retired lost)).books.board.keys[keyId]? =
          some (if retired = keyId then key.retire lost else key) := by
        change (desk.books.board.keys.modify retired (·.retire lost))[keyId]? = _
        rw [List.getElem?_modify, found]
        by_cases this : retired = keyId <;> simp [this]
      refine ⟨_, there, ?_, ?_, ?_⟩
      · split <;> rfl
      · intro kept
        rw [if_neg]
        intro this
        exact kept lost (by rw [this])
      · rintro ⟨lost', same⟩
        cases same
        simp [Key.retire]
    | _ => exact absurd rfl other

variable (config) in
-- An active key stays so exactly as long as no step retires it.
theorem run_key {keyId : Nat} {key : Key} (events : List DeskEvent)
    (found : desk.books.board.keys[keyId]? = some key) :
    ∃ later, (Runs.run (deskStep config) desk events).books.board.keys[keyId]? = some later ∧
      later.ownerId = key.ownerId ∧
      ((∀ lost, .retireKey keyId lost ∉ events) → later = key) ∧
      ((∃ lost, .retireKey keyId lost ∈ events) → later.status = .retired) := by
  induction events using List.reverseRecOn with
  | nil => exact ⟨key, found, rfl, fun _ => rfl, fun ⟨lost, member⟩ => absurd member List.not_mem_nil⟩
  | append_singleton events event ih =>
    obtain ⟨mid, there, owner, kept, retired⟩ := ih
    obtain ⟨later, here, owner', kept', retired'⟩ := deskStep_key config event there
    rw [Runs.run_append]
    refine ⟨later, here, owner'.trans owner, ?_, ?_⟩
    · intro untouched
      have before : ∀ lost, .retireKey keyId lost ∉ events :=
        fun lost member => untouched lost (List.mem_append_left _ member)
      have this : ∀ lost, event ≠ .retireKey keyId lost :=
        fun lost same => untouched lost (by simp [same])
      rw [kept' this, kept before]
    · rintro ⟨lost, member⟩
      by_cases this : ∃ lost, event = .retireKey keyId lost
      · exact retired' this
      · have old : .retireKey keyId lost ∈ events := by
          rcases List.mem_append.mp member with old | new
          · exact old
          · exact absurd ⟨lost, (List.mem_singleton.mp new).symm⟩ this
        rw [kept' fun lost same => this ⟨lost, same⟩]
        exact retired ⟨lost, old⟩

/-! ## The gate -/

section Gate
variable {config : VoteConfig} {board after : Board} {p q : Proposal}

theorem votingKey_live {keys : List Key} {signerId : Int} {custody : Custody} {keyId : Nat} {key : Key}
    (sound : KeysSound keys) (found : votingKey config keys signerId custody = .ok (keyId, key)) :
    key.status = .active ∧ key.canSign := by
  cases custody with
  | password =>
    simp only [votingKey] at found
    cases active : activeSigningKey keys signerId with
    | none => simp [active] at found
    | some pair =>
      simp only [active, Option.elim_some, Except.ok.injEq] at found
      rw [found] at active
      have member : key ∈ keys := List.mem_iff_getElem?.mpr ⟨keyId, (activeSigningKey_some active).1⟩
      unfold activeSigningKey at active
      obtain ⟨entry, picked, same⟩ := Option.map_eq_some_iff.mp active
      cases same
      have matching := List.find?_some picked
      simp only [Bool.and_eq_true, decide_eq_true_eq] at matching
      exact ⟨matching.1.2, sound _ member matching.1.1.2 matching.1.2⟩
  | device named execution =>
    simp only [votingKey] at found
    split at found
    · cases found
    · split at found
      · cases found
      · rename_i allowed
        cases found
        unfold deviceKeyRefusal at allowed
        by_cases live : key.status ≠ .active ∨ !key.canSign
        · simp only [if_pos live] at allowed
          split_ifs at allowed
        · simpa using live

theorem openCast_timely {ballot : Ballot} {digest : Except Text Bytes} {clock : Clock} {cast : Cast}
    (inOrder : InOrder config board) (sound : KeysSound board.keys)
    (made : openCast config board ballot digest clock = .ok (after, .ok cast)) :
    (∀ deadline, cast.proposal.expiresAt = some deadline → clock.instant ≤ deadline) ∧
      after.keys[cast.keyId]? = some cast.key ∧ cast.key.ownerId = some cast.signerId ∧
      cast.key.status = .active ∧ cast.key.canSign := by
  have sameKeys := (openCast_kept made).keys
  unfold openCast at made
  split at made
  · rename_i vote loaded known found
    obtain ⟨refreshed, expiry, made⟩ := bind_eq_ok.mp made
    have placed := (inOrder.orderly.rows _ loaded found).1
    split at made
    · cases made
    · rename_i proposal there
      split at made
      · cases made
      · rename_i free
        obtain ⟨rfl, given⟩ := Prod.mk.inj (pure_eq_ok.mp made)
        obtain ⟨isOpen, -⟩ := gateRefusal_none free
        obtain ⟨-, same, unexpired⟩ := refreshExpiry_open (by rw [placed, found]) expiry (by rw [placed, there]) isOpen
        unfold castAfterGate at given
        obtain ⟨⟨keyId, key⟩, chosen, given⟩ := bind_eq_ok.mp given
        obtain ⟨digest, -, given⟩ := bind_eq_ok.mp given
        cases pure_eq_ok.mp given
        have refreshedSound : KeysSound refreshed.keys := by rw [sameKeys]; exact sound
        refine ⟨?_, (votingKey_ok chosen).1, (votingKey_ok chosen).2, votingKey_live refreshedSound chosen⟩
        rw [same]
        exact unexpired
  · cases made

end Gate

/-! ## Between the gate and the write -/

-- No step between the gate and the write retires the vote's key or passes the decision's deadline.
structure Undisturbed (keyId : Nat) (p : Proposal) (gate : Int) (between : List DeskEvent) : Prop where
  keyKept : ∀ lost, .retireKey keyId lost ∉ between
  inTime : ∀ deadline, p.expiresAt = some deadline → gate + elapsed between ≤ deadline

-- A vote a gate let through is in time later exactly if nothing disturbed it.
theorem timely_iff {start : Desk} {between : List DeskEvent} {keyId : Nat} {key : Key} {p : Proposal}
    {s : Signature} (known : s.keyId = keyId) (found : start.books.board.keys[keyId]? = some key)
    (owner : key.ownerId = some s.signerId) (active : key.status = .active) (canSign : key.canSign) :
    Timely (Runs.run (deskStep config) start between) p s ↔ Undisturbed keyId p start.now between := by
  obtain ⟨later, there, sameOwner, kept, retired⟩ := run_key config between found
  have now := run_now config start between
  constructor
  · rintro ⟨deadline, key', found', -, active', -⟩
    rw [known, there, Option.some.injEq] at found'
    constructor
    · intro lost member
      rw [← found', retired ⟨lost, member⟩] at active'
      cases active'
    · intro instant expires
      rw [← now]
      exact deadline instant expires
  · rintro ⟨untouched, inTime⟩
    constructor
    · intro instant expires
      rw [now]
      exact inTime instant expires
    · exact ⟨later, by rw [known, there], by rw [sameOwner, owner], by rw [kept untouched, active],
        by rw [kept untouched, canSign]⟩

-- The gate that let a request through, and how the vote stood there
theorem opened_timely (directory : Directory) (now : Int) {before : List DeskEvent} {gate : DeskEvent} {cast : Cast}
    {treasury : Option TreasuryRecord}
    (opened : (deskAfter config directory now (before ++ [gate])).requests =
      (deskAfter config directory now before).requests ++ [⟨.vote cast, treasury⟩]) :
    ∃ key, (deskAfter config directory now (before ++ [gate])).books.board.keys[cast.keyId]? = some key ∧
      key.ownerId = some cast.signerId ∧ key.status = .active ∧ key.canSign ∧
      (deskAfter config directory now (before ++ [gate])).now = (deskAfter config directory now before).now := by
  have sound := deskAfter_sound config directory now before
  have keys := deskAfter_keysSound config directory now before
  rw [deskAfter_append] at opened ⊢
  generalize deskAfter config directory now before = desk at opened sound keys ⊢
  change (deskStep config desk gate).requests = _ at opened
  rcases deskStep_requests config desk gate with old | ⟨r, appended, gated⟩
  · have shorter := old.length_le
    rw [opened, List.length_append, List.length_singleton] at shorter
    omega
  · rw [appended] at opened
    have same : r = ⟨.vote cast, treasury⟩ := by simpa using opened
    obtain ⟨ballot, onchain, clock, board, rfl, -, made, stepped⟩ := gated cast treasury same
    obtain ⟨-, found, owner, active, canSign⟩ := openCast_timely sound.inOrder keys made
    refine ⟨cast.key, ?_, owner, active, canSign, ?_⟩
    · change (deskStep config desk (.openCast ballot onchain clock)).books.board.keys[cast.keyId]? = _
      rw [stepped, found]
    · change (deskStep config desk (.openCast ballot onchain clock)).now = desk.now
      rw [deskStep_now]
      exact add_zero _

-- Each vote that a run writes passed a gate, and is in time exactly if nothing disturbed it since.
theorem votes_timely_iff (config : PaymentConfig) (directory : Directory) (now : Int) (events : List DeskEvent)
    (event : DeskEvent) (desk : Desk) (reached : desk = deskAfter config directory now events) :
    ∀ (i : Nat) (p q : Proposal) (s : Signature), desk.books.board.proposals[i]? = some p →
      (leftBy config desk event).board.proposals[i]? = some q → s ∈ q.signatures → s ∉ p.signatures →
      ∃ before gate between cast treasury, events = before ++ gate :: between ∧
        (deskAfter config directory now (before ++ [gate])).requests =
          (deskAfter config directory now before).requests ++ [⟨.vote cast, treasury⟩] ∧
        cast.proposal.id = i ∧ cast.signerId = s.signerId ∧ cast.keyId = s.keyId ∧
        (Timely desk p s ↔ Undisturbed s.keyId p (deskAfter config directory now before).now between) := by
  intro i p q s found there written fresh
  obtain ⟨request, signature, executionSignature, clock, cast, treasury, books, -, pending, -, here, same⟩ :=
    new_vote found there written fresh
  have signer : s.signerId = cast.signerId := by rw [same]; rfl
  have keyId : s.keyId = cast.keyId := by rw [same]; rfl
  have member := List.mem_iff_getElem?.mpr ⟨request, pending⟩
  rw [reached] at member
  obtain ⟨before, gate, between, rfl, opened⟩ := request_opened directory now events _ member
  obtain ⟨key, known, owner, active, canSign, sameTime⟩ := opened_timely directory now opened
  refine ⟨before, gate, between, cast, treasury, rfl, opened, here, signer.symm, keyId.symm, ?_⟩
  have last : desk = Runs.run (deskStep config) (deskAfter config directory now (before ++ [gate])) between := by
    rw [reached, ← deskAfter_append, List.append_assoc]
    rfl
  rw [last, ← sameTime]
  exact timely_iff rfl (by rw [keyId, known]) (by rw [owner, signer]) active canSign

section Sample

-- The second approver's vote has passed its gate; the decision is open for a hundred seconds.
def datedVoteOpen (between : List DeskEvent) : List DeskEvent :=
  [deskKey 1, deskKey 2, deskKey 3, .plain (.createProposal { rentDraft with deadline := some 100 } rfl rentClock),
    openRentVote 2] ++ between

def datedDesk (between : List DeskEvent) : Desk :=
  deskAfter deskConfig (staffed (some 1)) 0 (datedVoteOpen between)

theorem datedDesk_eq (between : List DeskEvent) :
    datedDesk between = deskAfter deskConfig (staffed (some 1)) 0 (datedVoteOpen between) := rfl

theorem votes_timely_iff_undisturbed :
    (ballots (leftBy deskConfig (datedDesk [.tick 100, .retireKey 2 false]) (writeRentVote 0 2)).board).map
      (fun votes => votes.map (·.signerId)) = [[2]] ∧
    ∀ (i : Nat) (p q : Proposal) (s : Signature),
      (datedDesk [.tick 100, .retireKey 2 false]).books.board.proposals[i]? = some p →
      (leftBy deskConfig (datedDesk [.tick 100, .retireKey 2 false]) (writeRentVote 0 2)).board.proposals[i]? = some q →
      s ∈ q.signatures → s ∉ p.signatures →
      ∃ before gate between cast treasury, datedVoteOpen [.tick 100, .retireKey 2 false] = before ++ gate :: between ∧
        (deskAfter deskConfig (staffed (some 1)) 0 (before ++ [gate])).requests =
          (deskAfter deskConfig (staffed (some 1)) 0 before).requests ++ [⟨.vote cast, treasury⟩] ∧
        cast.proposal.id = i ∧ cast.signerId = s.signerId ∧ cast.keyId = s.keyId ∧
        (Timely (datedDesk [.tick 100, .retireKey 2 false]) p s ↔
          Undisturbed s.keyId p (deskAfter deskConfig (staffed (some 1)) 0 before).now between) :=
  ⟨by decide +kernel,
    votes_timely_iff deskConfig (staffed (some 1)) 0 (datedVoteOpen [.tick 100, .retireKey 2 false])
      (writeRentVote 0 2) _ (datedDesk_eq _)⟩

-- The approver's key is retired, or the deadline passes, before the vote is written.
theorem late_votes_land :
    (¬ ∀ (i : Nat) (p q : Proposal) (s : Signature),
      (datedDesk [.retireKey 1 false]).books.board.proposals[i]? = some p →
      (leftBy deskConfig (datedDesk [.retireKey 1 false]) (writeRentVote 0 2)).board.proposals[i]? = some q →
      s ∈ q.signatures → s ∉ p.signatures → Timely (datedDesk [.retireKey 1 false]) p s) ∧
    ¬ ∀ (i : Nat) (p q : Proposal) (s : Signature),
      (datedDesk [.tick 101]).books.board.proposals[i]? = some p →
      (leftBy deskConfig (datedDesk [.tick 101]) (writeRentVote 0 2)).board.proposals[i]? = some q →
      s ∈ q.signatures → s ∉ p.signatures → Timely (datedDesk [.tick 101]) p s := by
  constructor
  · intro claim
    have unvoted : ballots (datedDesk [.retireKey 1 false]).books.board = [[]] := by decide +kernel
    have voted : (ballots (leftBy deskConfig (datedDesk [.retireKey 1 false]) (writeRentVote 0 2)).board).map
        (fun votes => votes.map (·.keyId)) = [[1]] := by decide +kernel
    obtain ⟨p, q, s, one, there, cast, fresh, keyId⟩ := only_vote unvoted voted
    obtain ⟨key, found, -, active, -⟩ := (claim 0 p q s (by rw [one]; rfl) there cast fresh).key
    have retired : (datedDesk [.retireKey 1 false]).books.board.keys[1]?.map (·.status) = some .retired := by
      decide +kernel
    rw [keyId] at found
    rw [found, Option.map_some, active] at retired
    cases retired
  · intro claim
    have unvoted : ballots (datedDesk [.tick 101]).books.board = [[]] := by decide +kernel
    have voted : (ballots (leftBy deskConfig (datedDesk [.tick 101]) (writeRentVote 0 2)).board).map
        (fun votes => votes.map (·.keyId)) = [[1]] := by decide +kernel
    obtain ⟨p, q, s, one, there, cast, fresh, -⟩ := only_vote unvoted voted
    have dated : (datedDesk [.tick 101]).books.board.proposals.map (·.expiresAt) = [some 100] := by decide +kernel
    rw [one, List.map_singleton, List.singleton_inj] at dated
    have inTime := (claim 0 p q s (by rw [one]; rfl) there cast fresh).deadline 100 dated
    have late : (datedDesk [.tick 101]).now = 101 := by decide +kernel
    omega

end Sample

end QVault.Proof.Services
