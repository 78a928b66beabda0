import QVault.Services.Anchors
import QVault.Proof.Services.LedgerHistory
import QVault.Lib.Runs

/-!
# What the newest anchor commits to

An anchor signs the hash of a head, and that hash determines every row below it when the head links down to
the last anchored row. `maybe_anchor` looks at the anchored row and not at the rows between.
-/

namespace QVault.Proof.Anchors
open QVault.Python QVault.Services QVault.Crypto QVault.Proof.LedgerHistory Results

variable {config : AnchorConfig} {archive after : Archive} {history later : ArchiveHistory}

/-! ## The newest anchor -/

theorem latestAnchor_congr {first second : Archive} (same : first.anchors = second.anchors) :
    first.latestAnchor = second.latestAnchor := by
  unfold Archive.latestAnchor
  rw [same]

theorem latestAnchor_snoc {anchor : LedgerAnchor} (added : after.anchors = archive.anchors ++ [anchor]) :
    after.latestAnchor = laterAnchor archive.latestAnchor anchor := by
  unfold Archive.latestAnchor
  rw [added, List.foldl_append]
  rfl

theorem ensureSystemKey_kept {seed keyId : Nat} {key : KeyRow}
    (made : archive.ensureSystemKey config seed = .ok (keyId, key, after)) :
    after.ledger = archive.ledger ∧ after.anchors = archive.anchors := by
  unfold Archive.ensureSystemKey at made
  split at made
  · cases made
    exact ⟨rfl, rfl⟩
  · split at made
    · cases made
    · cases made
      exact ⟨rfl, rfl⟩

theorem anchorHead_ok {head : LedgerEntry} {seed : Nat} (made : anchorHead config archive head seed = .ok after) :
    after.ledger = archive.ledger ∧ ∃ anchor : LedgerAnchor, after.anchors = archive.anchors ++ [anchor] ∧
      anchor.seq = head.seq ∧ anchor.headHash = head.entryHash := by
  unfold anchorHead at made
  obtain ⟨⟨keyId, key, keyed⟩, found, made⟩ := bind_eq_ok.mp made
  obtain ⟨sameLedger, sameAnchors⟩ := ensureSystemKey_kept found
  simp only at made
  split at made
  · cases made
  · rename_i provider known
    obtain ⟨message, -, made⟩ := bind_eq_ok.mp made
    split at made
    · cases made
    · cases pure_eq_ok.mp made
      refine ⟨sameLedger, ⟨head.seq, head.entryHash, key.algId, keyId, provider.sign key.secretKey message⟩, ?_, rfl, rfl⟩
      rw [sameAnchors]

/-! ## A step -/

-- The head that a step signs, over the rows it leaves
structure Signing (before after : Archive) (head : LedgerEntry) : Prop where
  last : after.ledger.last = some head
  newer : ∀ anchor, before.latestAnchor = some anchor → anchor.seq < head.seq
  newest : ∃ anchor, after.latestAnchor = some anchor ∧ anchor.seq = head.seq ∧ anchor.headHash = head.entryHash
  longer : after.anchors.length ≠ before.anchors.length

theorem signing_of_anchorHead {signed : Archive} {head : LedgerEntry} {seed : Nat} (last : signed.ledger.last = some head)
    (same : signed.anchors = archive.anchors)
    (newer : ∀ anchor, archive.latestAnchor = some anchor → anchor.seq < head.seq)
    (made : anchorHead config signed head seed = .ok after) : Signing archive after head := by
  obtain ⟨ledger, anchor, anchors, seq, hash⟩ := anchorHead_ok made
  refine ⟨by rw [ledger, last], newer, ⟨anchor, ?_, seq, hash⟩, ?_⟩
  · rw [latestAnchor_snoc anchors, latestAnchor_congr same]
    cases found : archive.latestAnchor with
    | none => rfl
    | some old =>
      have below := newer old found
      simp only [laterAnchor]
      rw [if_pos (by omega)]
  · rw [anchors, same]
    simp

variable (config) in
def Linked (archive : Archive) : Prop :=
  verifyFrom config.sha256 ((archive.latestAnchor.map (·.headHash)).getD (genesisPrevHex config.sha256)) archive.added =
    .ok (true, none)

variable (config) in
-- When a step signs a head, the rows above the last anchored one link down to it.
def Descends (history : ArchiveHistory) (event : ArchiveEvent) : Prop :=
  ∀ archive ∈ signsOver config history.archive event, Linked config archive

instance (archive : Archive) : Decidable (Linked config archive) := by
  unfold Linked
  infer_instance

instance (history : ArchiveHistory) (event : ArchiveEvent) : Decidable (Descends config history event) :=
  decidable_of_iff ((signsOver config history.archive event).all fun archive => Linked config archive) (by
    unfold Descends
    cases signsOver config history.archive event <;> simp)

-- What a step makes of the newest anchor and what it covers
inductive Stepped (config : AnchorConfig) (history later : ArchiveHistory) : Prop
  | kept (anchors : later.archive.anchors = history.archive.anchors) (covered : later.covered = history.covered)
  | signed {archive : Archive} {head : LedgerEntry} (signing : Signing history.archive later.archive head)
      (last : archive.ledger.last = some head) (same : archive.anchors = history.archive.anchors)
      (linked : Linked config archive) (covered : later.covered = history.covered ++ archive.added)

theorem added_congr {first second : Archive} (anchors : first.anchors = second.anchors)
    (ledger : first.ledger = second.ledger) : first.added = second.added := by
  unfold Archive.added
  rw [latestAnchor_congr anchors, ledger]

theorem after_signed {signed : Archive} {head : LedgerEntry} {seed : Nat} (last : signed.ledger.last = some head)
    (same : signed.anchors = history.archive.anchors)
    (newer : ∀ anchor, history.archive.latestAnchor = some anchor → anchor.seq < head.seq)
    (linked : Linked config signed) (made : anchorHead config signed head seed = .ok after) :
    Stepped config history (history.after (.ok after)) := by
  have signing := signing_of_anchorHead last same newer made
  have ledger := (anchorHead_ok made).1
  have new : history.after (.ok after) =
      ⟨after, history.covered ++ { history.archive with ledger := after.ledger }.added⟩ := if_neg signing.longer
  have rows : { history.archive with ledger := after.ledger }.added = signed.added := added_congr same.symm ledger
  rw [new, rows]
  exact .signed signing last same linked rfl

theorem after_kept (same : after.anchors = history.archive.anchors) :
    Stepped config history (history.after (.ok after)) := by
  have unsigned : history.after (.ok after) = { history with archive := after } := if_pos (by rw [same])
  rw [unsigned]
  exact .kept same rfl

theorem ensureGenesis_kept {timestamp : Text} (made : ensureGenesis config archive timestamp = .ok after) :
    after.anchors = archive.anchors := by
  unfold ensureGenesis at made
  split at made
  · cases made
    rfl
  · obtain ⟨first, -, made⟩ := map_eq_ok.mp made
    cases made
    rfl

theorem archiveStep_stepped {event : ArchiveEvent} (descends : Descends config history event) :
    Stepped config history (archiveStep config history event) := by
  cases event with
  | append timestamp event =>
    simp only [archiveStep]
    split <;> exact .kept rfl rfl
  | edit ledger => exact .kept rfl rfl
  | maybeAnchor seed =>
    simp only [archiveStep]
    cases made : maybeAnchor config history.archive seed with
    | error _ => exact .kept rfl rfl
    | ok after =>
      unfold maybeAnchor at made
      split at made
      · cases made
        exact after_kept rfl
      · rename_i head last
        split at made
        · rename_i extending
          have signs : signsOver config history.archive (.maybeAnchor seed) = some history.archive := by
            simp only [signsOver, last, Option.any_some, extending, if_true]
          refine after_signed last rfl ?_ (descends _ signs) made
          intro anchor newest
          simp only [Archive.extends, newest, Bool.and_eq_true, decide_eq_true_eq] at extending
          exact extending.1
        · cases made
          exact after_kept rfl
  | bootstrap timestamp seed =>
    simp only [archiveStep]
    cases made : bootstrap config history.archive timestamp seed with
    | error _ => exact .kept rfl rfl
    | ok after =>
      unfold bootstrap at made
      obtain ⟨seeded, opened, made⟩ := bind_eq_ok.mp made
      have same := ensureGenesis_kept opened
      split at made
      · rename_i head none last
        have signs : signsOver config history.archive (.bootstrap timestamp seed) = some seeded := by
          simp only [signsOver, opened, none, Option.isNone_none, if_true]
        refine after_signed last same ?_ (descends _ signs) made
        intro anchor newest
        rw [← latestAnchor_congr same, none] at newest
        cases newest
      · cases pure_eq_ok.mp made
        exact after_kept same

/-! ## What is covered -/

variable (config) in
structure Committed (history : ArchiveHistory) : Prop where
  chained : Chained config.sha256 (genesisPrevHex config.sha256) history.covered
  hash : headHash (genesisPrevHex config.sha256) history.covered =
    (history.archive.latestAnchor.map (·.headHash)).getD (genesisPrevHex config.sha256)
  below : ∀ e ∈ history.covered, ∃ anchor, history.archive.latestAnchor = some anchor ∧ e.seq ≤ anchor.seq

theorem chained_append {sha256 : Bytes → Bytes} {prev : Text} {first second : List LedgerEntry}
    (chained : Chained sha256 prev first) (more : Chained sha256 (headHash prev first) second) :
    Chained sha256 prev (first ++ second) := by
  induction first generalizing prev with
  | nil => exact more
  | cons e rest ih =>
    rw [headHash_cons] at more
    exact ⟨chained.1, ih chained.2 more⟩

theorem added_mem {e : LedgerEntry} {head : LedgerEntry} (last : archive.ledger.last = some head) (listed : e ∈ archive.added) :
    e.seq ≤ head.seq ∧ ∀ anchor, archive.latestAnchor = some anchor → anchor.seq < e.seq := by
  unfold Archive.added at listed
  cases newest : archive.latestAnchor with
  | none =>
    rw [newest] at listed
    exact ⟨Ledger.seq_le_last listed last, by simp⟩
  | some anchor =>
    rw [newest] at listed
    obtain ⟨member, above⟩ := List.mem_filter.mp listed
    refine ⟨Ledger.seq_le_last member last, ?_⟩
    intro other same
    cases same
    simpa using above

-- The rows a step adds end in the head it signs.
theorem added_last {head : LedgerEntry} (last : archive.ledger.last = some head)
    (newer : ∀ anchor, archive.latestAnchor = some anchor → anchor.seq < head.seq) :
    archive.added.getLast? = some head := by
  unfold Archive.added
  cases newest : archive.latestAnchor with
  | none => exact last
  | some anchor =>
    obtain ⟨before, split⟩ := List.getLast?_eq_some_iff.mp last
    have above := newer anchor newest
    simp [split, List.filter_append, above]

theorem Committed.step (committed : Committed config history) (stepped : Stepped config history later) :
    Committed config later := by
  obtain ⟨chained, hash, below⟩ := committed
  cases stepped with
  | kept anchors covered =>
    constructor
    · rw [covered]
      exact chained
    · rw [covered, latestAnchor_congr anchors]
      exact hash
    · rw [covered, latestAnchor_congr anchors]
      exact below
  | @signed archive head signing last same linked covered =>
    obtain ⟨anchor, newest, seq, headed⟩ := signing.newest
    have before := latestAnchor_congr same
    rw [Linked, before, ← hash] at linked
    have more : Chained config.sha256 (headHash (genesisPrevHex config.sha256) history.covered) archive.added := by
      rcases verifyFrom_ok linked with ⟨_, _, links⟩ | ⟨no, _⟩
      · exact links
      · cases no
    have newer : ∀ old, archive.latestAnchor = some old → old.seq < head.seq := by
      rw [before]
      exact signing.newer
    constructor
    · rw [covered]
      exact chained_append chained more
    · have final : (history.covered ++ archive.added).getLast? = some head := by
        rw [List.getLast?_append, added_last last newer]
        rfl
      rw [covered, newest, headHash, final, Option.map_some, Option.getD_some, Option.map_some, Option.getD_some, headed]
    · intro e listed
      rw [covered] at listed
      refine ⟨anchor, newest, ?_⟩
      rcases List.mem_append.mp listed with old | new
      · obtain ⟨earlier, found, bounded⟩ := below e old
        have above := signing.newer earlier found
        omega
      · rw [seq]
        exact (added_mem last new).1

theorem committed_start : Committed config .start where
  chained := trivial
  hash := rfl
  below := by simp [ArchiveHistory.start]

-- What an anchor covers is what any later anchor covers up to it.
structure Covers (history later : ArchiveHistory) : Prop where
  extended : ∃ more, later.covered = history.covered ++ more ∧
    ∀ anchor, history.archive.latestAnchor = some anchor → ∀ e ∈ more, anchor.seq < e.seq
  newest : ∀ anchor, history.archive.latestAnchor = some anchor →
    ∃ last, later.archive.latestAnchor = some last ∧ anchor.seq ≤ last.seq

theorem covers_refl (history : ArchiveHistory) : Covers history history where
  extended := ⟨[], (List.append_nil _).symm, by simp⟩
  newest anchor found := ⟨anchor, found, le_rfl⟩

theorem Covers.step {last : ArchiveHistory} (covers : Covers history later) (stepped : Stepped config later last) :
    Covers history last := by
  obtain ⟨⟨more, extended, above⟩, newest⟩ := covers
  cases stepped with
  | kept anchors covered =>
    constructor
    · exact ⟨more, by rw [covered, extended], above⟩
    · rw [latestAnchor_congr anchors]
      exact newest
  | @signed archive head signing headed same linked covered =>
    obtain ⟨fresh, found, seq, -⟩ := signing.newest
    constructor
    · refine ⟨more ++ archive.added, by rw [covered, extended, List.append_assoc], ?_⟩
      intro anchor first e listed
      rcases List.mem_append.mp listed with old | new
      · exact above anchor first e old
      · obtain ⟨recent, there, bounded⟩ := newest anchor first
        have later := (added_mem headed new).2 recent (by rw [latestAnchor_congr same, there])
        omega
    · intro anchor first
      obtain ⟨recent, there, bounded⟩ := newest anchor first
      have later := signing.newer recent there
      exact ⟨fresh, found, by omega⟩

variable (config) in
theorem run_covers (events : List ArchiveEvent) (committed : Committed config history)
    (guarded : Runs.Guarded (archiveStep config) (Descends config) history events) :
    Committed config (Runs.run (archiveStep config) history events) ∧
      Covers history (Runs.run (archiveStep config) history events) := by
  induction events using List.reverseRecOn with
  | nil => exact ⟨committed, covers_refl history⟩
  | append_singleton events event ih =>
    obtain ⟨before, last⟩ := (Runs.guarded_append history events [event]).mp guarded
    obtain ⟨held, covers⟩ := ih before
    have stepped := archiveStep_stepped last.1
    rw [Runs.run_append]
    exact ⟨held.step stepped, covers.step stepped⟩

/-! ## The report -/

theorem verifyLedger_ok {report : LedgerReport} (checked : verifyLedger config archive = .ok report)
    (ok : report.ok = true) : Chained config.sha256 (genesisPrevHex config.sha256) archive.ledger.entries ∧
      ∃ anchor head, archive.latestAnchor = some anchor ∧ archive.ledger.last = some head ∧
        anchor.headHash = head.entryHash := by
  unfold verifyLedger at checked
  obtain ⟨⟨chainOk, chainBreakSeq⟩, chain, checked⟩ := bind_eq_ok.mp checked
  obtain ⟨anchorOk, -, checked⟩ := bind_eq_ok.mp checked
  cases pure_eq_ok.mp checked
  simp only [Bool.and_eq_true] at ok
  obtain ⟨⟨⟨intact, -⟩, -⟩, covering⟩ := ok
  constructor
  · rcases verifyFrom_ok chain with ⟨_, _, links⟩ | ⟨no, _⟩
    · exact links
    · rw [intact] at no
      cases no
  · unfold coversHead at covering
    split at covering
    · rename_i anchor head newest last
      simp only [Bool.and_eq_true, beq_iff_eq] at covering
      exact ⟨anchor, head, newest, last, covering.2⟩
    · cases covering

def archiveAfter (config : AnchorConfig) (events : List ArchiveEvent) : ArchiveHistory :=
  Runs.run (archiveStep config) .start events

-- After any steps, the check passes only if the rows an anchor covered are there.
theorem anchored_history_visible (config : AnchorConfig) (collisionFree : Function.Injective config.sha256)
    (events more : List ArchiveEvent) (guarded : Runs.Guarded (archiveStep config) (Descends config) .start (events ++ more))
    (anchor : LedgerAnchor) (newest : (archiveAfter config events).archive.latestAnchor = some anchor)
    (report : LedgerReport) (checked : verifyLedger config (archiveAfter config (events ++ more)).archive = .ok report)
    (ok : report.ok = true) :
    ((archiveAfter config (events ++ more)).archive.ledger.entries.filter fun row => row.seq ≤ anchor.seq) =
      (archiveAfter config events).covered := by
  obtain ⟨first, second⟩ := (Runs.guarded_append _ events more).mp guarded
  obtain ⟨committed, -⟩ := run_covers config events committed_start first
  obtain ⟨committed', covers⟩ := run_covers config more committed second
  have joined : archiveAfter config (events ++ more) =
      Runs.run (archiveStep config) (Runs.run (archiveStep config) .start events) more := Runs.run_append _ events more
  rw [← joined] at committed' covers
  obtain ⟨chained, last, head, latest, headed, signed⟩ := verifyLedger_ok checked ok
  have same : (archiveAfter config (events ++ more)).archive.ledger.entries = (archiveAfter config (events ++ more)).covered := by
    refine chained_unique collisionFree chained committed'.chained ?_
    rw [committed'.hash, latest, headHash]
    change ((archiveAfter config (events ++ more)).archive.ledger.last.map _).getD _ = _
    rw [headed, Option.map_some, Option.map_some, Option.getD_some, Option.getD_some, signed]
  obtain ⟨added, extended, above⟩ := covers.extended
  rw [same, extended, List.filter_append]
  have kept : ((archiveAfter config events).covered.filter fun row => decide (row.seq ≤ anchor.seq)) =
      (archiveAfter config events).covered := by
    refine List.filter_eq_self.mpr fun e listed => ?_
    obtain ⟨found, latest', bounded⟩ := committed.below e listed
    change (archiveAfter config events).archive.latestAnchor = some found at latest'
    rw [newest, Option.some.injEq] at latest'
    rw [latest', decide_eq_true_eq]
    exact bounded
  have none : (added.filter fun row => decide (row.seq ≤ anchor.seq)) = [] := by
    refine List.filter_eq_nil_iff.mpr fun e listed => ?_
    have beyond := above anchor newest e listed
    simp only [decide_eq_true_eq]
    omega
  exact (congrArg₂ (· ++ ·) kept none).trans (List.append_nil _)

section Sample

-- With the bytes as their own hash, and a signature that is the key and the message
def plainProvider : SignatureProvider where
  keygen _ := ([7], [7])
  sign secret message := secret ++ message
  verify publicKey message signature := signature == publicKey ++ message

def plainConfig : AnchorConfig where
  sha256 := id
  activeSignatureAlg := "ML-DSA-65"
  provider algId := if algId = text "ML-DSA-65" then some plainProvider else none
  mac := id

def loginEvent (name : Text) : LedgerEvent := ⟨"login", .dict [], name, none, none, none, none⟩

-- The table as it is, and another history of the same length
def rewritten : Ledger :=
  match genesis id "b" with
  | .ok first =>
    match append id (insertRow Ledger.empty first) "c" (loginEvent "eve") with
    | .ok ledger => ledger
    | .error _ => Ledger.empty
  | .error _ => Ledger.empty

def spliced (ledger : Ledger) : Ledger :=
  match rewritten.last with
  | some row => insertRow ledger row
  | none => ledger

def opening : List ArchiveEvent := [.bootstrap "a" 0]

def genuine : Ledger := (archiveAfter plainConfig opening).archive.ledger

-- The second row of another history is put above the anchored row and anchored, and the first row of that
-- history then takes the anchored row's place.
def spliceRun : List ArchiveEvent := [.edit (spliced genuine), .maybeAnchor 0, .edit rewritten]

def growing : List ArchiveEvent := [.append "c" (loginEvent "bob"), .maybeAnchor 0]

theorem anchored_history_visible_growing :
    ((archiveAfter plainConfig (opening ++ growing)).archive.ledger.entries.filter fun row => row.seq ≤ 0) =
      (archiveAfter plainConfig opening).covered := by
  have ran : (archiveAfter plainConfig opening).archive.latestAnchor.map (·.seq) = some 0 ∧
      (verifyLedger plainConfig (archiveAfter plainConfig (opening ++ growing)).archive).map (·.ok) = .ok true ∧
      Runs.Guarded (archiveStep plainConfig) (Descends plainConfig) .start (opening ++ growing) := by
    decide +kernel
  obtain ⟨anchor, newest, zero⟩ := Option.map_eq_some_iff.mp ran.1
  obtain ⟨report, checked, ok⟩ := map_eq_ok.mp ran.2.1
  have visible := anchored_history_visible plainConfig Function.injective_id opening growing ran.2.2 anchor newest
    report checked ok
  rwa [zero] at visible

theorem splice_not_visible :
    (verifyLedger plainConfig (archiveAfter plainConfig (opening ++ spliceRun)).archive).map (·.ok) = .ok true ∧
    (archiveAfter plainConfig (opening ++ spliceRun.take 2)).archive.latestAnchor.map (·.seq) = some 1 ∧
    (archiveAfter plainConfig (opening ++ spliceRun.take 2)).archive.ledger.entries.map (·.timestamp) =
      [text "a", text "c"] ∧
    (archiveAfter plainConfig (opening ++ spliceRun)).archive.ledger.entries.map (·.timestamp) =
      [text "b", text "c"] := by
  decide +kernel

end Sample

end QVault.Proof.Anchors
