import QVault.Proof.Services.Leaves
import QVault.Proof.Python.Text
import QVault.Proof.Merkle.Consistency
import QVault.Services.LogRun
import QVault.Lib.Runs
import QVault.Lib.FreeHash

/-!
# Signed checkpoints extend one another

`maybe_checkpoint` proves that the last signed tree is a prefix of the one it signs. An export that
finds no checkpoint for its entries signs without that proof.
-/

namespace QVault.Proof.Services
open QVault.Services QVault.Transparency QVault.Proof.Merkle QVault.Proof.Codecs QVault.Python Runs Results

variable (config : LogConfig) (pin : WitnessPin)

-- The root signed in `a` is the root of the first leaves of the tree signed in `b`.
def Grows (a b : Signed) : Prop :=
  a.checkpoint.treeSize ≤ b.checkpoint.treeSize ∧
    a.checkpoint.rootHash = hexText (config.tree.root (b.leaves.take a.checkpoint.treeSize.toNat))

structure OneTree (history : LogHistory) : Prop where
  sizes : ∀ s ∈ history.signed, s.checkpoint.treeSize = s.leaves.length
  roots : ∀ s ∈ history.signed, s.checkpoint.rootHash = hexText (config.tree.root s.leaves)
  grows : history.signed.Pairwise (Grows config)

-- The first leaves still have the root that was signed last.
def unrewritten (log : Log) : Bool :=
  match log.latestCheckpoint with
  | none => true
  | some last =>
    last.rootHash == hexText (config.tree.root
      ((leafHashes config.tree log.ledger log.leafCache).1.take last.treeSize.toNat))

-- An export that has to sign a checkpoint finds the signed history as it was.
def ExportUnrewritten (history : LogHistory) : LogEvent → Prop
  | .exportBundle proposalUuid signerIds _ _ =>
    ∀ highest, (entriesFor history.log.ledger proposalUuid signerIds).getLast? = some highest →
      history.log.checkpointCovering config.sha256 pin highest.seq = none → unrewritten config history.log
  | _ => True

/-! ## The newest checkpoint -/

theorem newest_increasing (rows : List LogCheckpoint) (first : LogCheckpoint)
    (increasing : (first :: rows).Pairwise fun a b => a.treeSize < b.treeSize) :
    rows.foldl laterCheckpoint (some first) = (first :: rows).getLast? := by
  induction rows generalizing first with
  | nil => rfl
  | cons second rest ih =>
    rw [List.pairwise_cons] at increasing
    have larger := increasing.1 second List.mem_cons_self
    have chosen : laterCheckpoint (some first) second = some second := by
      simp [laterCheckpoint, LogCheckpoint.before, larger]
    rw [List.foldl_cons, chosen, ih second increasing.2, List.getLast?_cons_cons]

theorem newestCheckpoint_increasing {rows : List LogCheckpoint}
    (increasing : rows.Pairwise fun a b => a.treeSize < b.treeSize) :
    newestCheckpoint rows = rows.getLast? := by
  cases rows with
  | nil => rfl
  | cons first rest => exact newest_increasing rest first increasing

theorem newest_isSome (rows : List LogCheckpoint) (first : LogCheckpoint) :
    ∃ found, rows.foldl laterCheckpoint (some first) = some found := by
  induction rows generalizing first with
  | nil => exact ⟨first, rfl⟩
  | cons second rest ih =>
    rw [List.foldl_cons]
    unfold laterCheckpoint
    split
    · exact ih second
    · split <;> exact ih _

theorem newestCheckpoint_eq_none {rows : List LogCheckpoint} (nothing : newestCheckpoint rows = none) :
    rows = [] := by
  cases rows with
  | nil => rfl
  | cons first rest =>
    obtain ⟨found, chosen⟩ := newest_isSome rest first
    have some_ : newestCheckpoint (first :: rest) = some found := chosen
    rw [nothing] at some_
    cases some_

theorem covering_none {log : Log} {seq : Int}
    (uncovered : log.checkpointCovering config.sha256 pin seq = none) :
    ∀ checkpoint ∈ log.checkpoints, checkpoint.treeSize ≤ seq := by
  unfold Log.checkpointCovering at uncovered
  simp only at uncovered
  split at uncovered
  · cases uncovered
  · have empty := newestCheckpoint_eq_none uncovered
    rw [List.filter_eq_nil_iff] at empty
    intro checkpoint member
    simpa using empty checkpoint member

/-! ## What a signing call leaves behind -/

structure SignedOver (log : Log) (called : Log × Outcome) (checkpoint : LogCheckpoint)
    (leaves : List Bytes) : Prop where
  read : leafHashes config.tree log.ledger log.leafCache = (leaves, .ok ())
  head : ∃ head, log.ledger.last = some head ∧ (leaves.length : Int) = head.seq + 1
  nonempty : leaves ≠ []
  size : checkpoint.treeSize = leaves.length
  root : checkpoint.rootHash = hexText (config.tree.root leaves)
  stored : called.1.checkpoints = log.checkpoints ++ [checkpoint]

def SignsOrKeeps (log : Log) (called : Log × Outcome) : Prop :=
  (∃ checkpoint leaves, called.2 = .signed checkpoint leaves ∧
    SignedOver config log called checkpoint leaves) ∨
  ((∀ checkpoint leaves, called.2 ≠ .signed checkpoint leaves) ∧
    called.1.checkpoints = log.checkpoints)

variable {config}

theorem ensureSystemKey_checkpoints {log log' : Log} {seed : Nat} {key : SystemKey}
    (ensured : ensureSystemKey config log seed = .ok (key, log')) : log'.checkpoints = log.checkpoints := by
  unfold ensureSystemKey at ensured
  split at ensured
  · simp only [Except.ok.injEq, Prod.mk.injEq] at ensured
    rw [ensured.2]
  · split at ensured
    · cases ensured
    · simp only [Except.ok.injEq, Prod.mk.injEq] at ensured
      rw [← ensured.2]

theorem signCheckpoint_ok {log log' : Log} {leaves : List Bytes} {head : LedgerEntry} {timestamp : Text}
    {seed : Nat} {checkpoint : LogCheckpoint}
    (signed : signCheckpoint config log leaves head timestamp seed = .ok (checkpoint, log')) :
    checkpoint.treeSize = leaves.length ∧ checkpoint.rootHash = hexText (config.tree.root leaves) ∧
      log'.checkpoints = log.checkpoints ++ [checkpoint] := by
  unfold signCheckpoint at signed
  obtain ⟨⟨key, ensured⟩, made, signed⟩ := bind_eq_ok.mp signed
  have kept := ensureSystemKey_checkpoints made
  simp only at signed
  split at signed
  · cases signed
  · obtain ⟨message, -, signed⟩ := bind_eq_ok.mp signed
    split at signed
    · cases signed
    · have result := pure_eq_ok.mp signed
      rw [Prod.mk.injEq] at result
      rw [← result.2, ← result.1, ← kept]
      exact ⟨rfl, rfl, rfl⟩

variable (config) in
theorem createCheckpoint_cases (log : Log) (timestamp : Text) (seed : Nat) :
    SignsOrKeeps config log (createCheckpoint config log timestamp seed) := by
  cases read : leafHashes config.tree log.ledger log.leafCache with
  | mk leaves outcome =>
    have sign_ (head : LedgerEntry) (last : log.ledger.last = some head)
        (whole : (leaves.length : Int) = head.seq + 1) (nonempty : leaves ≠ []) (ok : outcome = .ok ()) :
        SignsOrKeeps config log
          (createCheckpoint.sign timestamp seed config { log with leafCache := leaves } leaves head) := by
      unfold createCheckpoint.sign
      cases made : signCheckpoint config { log with leafCache := leaves } leaves head timestamp seed with
      | error error => exact .inr ⟨by simp, rfl⟩
      | ok result =>
        obtain ⟨checkpoint, after⟩ := result
        obtain ⟨size, root, stored⟩ := signCheckpoint_ok made
        exact .inl ⟨checkpoint, leaves, rfl, by rw [read, ok], ⟨head, last, whole⟩, nonempty, size, root,
          stored⟩
    unfold createCheckpoint
    rw [read]
    simp only
    cases outcome with
    | error error => exact .inr ⟨by simp, rfl⟩
    | ok done =>
      simp only
      cases last : log.ledger.last with
      | none => exact .inr ⟨by simp, rfl⟩
      | some head =>
        simp only
        split
        · exact .inr ⟨by simp, rfl⟩
        · next whole =>
          split
          · exact .inr ⟨by simp, rfl⟩
          · next nonempty =>
            have signed_ := sign_ head last (not_not.mp whole) nonempty rfl
            split
            · split
              · split <;> exact .inr ⟨by simp, rfl⟩
              · exact signed_
            · exact signed_

theorem consistentWith_true (collisionFree : Function.Injective2 config.tree.children) {leaves : List Bytes}
    {last : LogCheckpoint} (pos : 1 ≤ last.treeSize) {root : Bytes} (stored : last.rootHash = hexText root)
    (proven : consistentWith config.tree leaves last = .ok true) :
    last.rootHash = hexText (config.tree.root (leaves.take last.treeSize.toNat)) := by
  obtain ⟨m, size⟩ := Int.eq_ofNat_of_zero_le (show 0 ≤ last.treeSize by omega)
  unfold consistentWith at proven
  rw [stored, fromHex_hexText] at proven
  cases generated : consistencyProof config.tree.children config.tree.empty leaves last.treeSize with
  | error error => simp [generated] at proven
  | ok proof =>
    simp only [generated, Except.ok.injEq] at proven
    rw [size] at proven
    have sound := verifyConsistency_sound collisionFree (by omega) proven
    rw [stored, sound.2.1, size, Int.toNat_natCast]
    rfl

-- `maybe_checkpoint` reads the leaves again in `create_checkpoint`, and reads the same ones.
theorem maybeCheckpoint_cases (config : LogConfig) (log : Log) (timestamp : Text) (seed : Nat) :
    ((∃ checkpoint leaves, (maybeCheckpoint config log timestamp seed).2 = .signed checkpoint leaves ∧
      SignedOver config log (maybeCheckpoint config log timestamp seed) checkpoint leaves ∧
      ∀ last, log.latestCheckpoint = some last →
        last.treeSize < leaves.length ∧ consistentWith config.tree leaves last = .ok true) ∨
    ((∀ checkpoint leaves, (maybeCheckpoint config log timestamp seed).2 ≠ .signed checkpoint leaves) ∧
      (maybeCheckpoint config log timestamp seed).1.checkpoints = log.checkpoints)) := by
  cases read : leafHashes config.tree log.ledger log.leafCache with
  | mk leaves outcome =>
    have created (ok : outcome = .ok ()) (guard : ∀ last, log.latestCheckpoint = some last →
          last.treeSize < leaves.length ∧ consistentWith config.tree leaves last = .ok true) :
        let called := createCheckpoint config { log with leafCache := leaves } timestamp seed
        (∃ checkpoint leaves, called.2 = .signed checkpoint leaves ∧
          SignedOver config log called checkpoint leaves ∧
          ∀ last, log.latestCheckpoint = some last →
            last.treeSize < leaves.length ∧ consistentWith config.tree leaves last = .ok true) ∨
        ((∀ checkpoint leaves, called.2 ≠ .signed checkpoint leaves) ∧
          called.1.checkpoints = log.checkpoints) := by
      rw [ok] at read
      rcases createCheckpoint_cases config { log with leafCache := leaves } timestamp seed with
        ⟨checkpoint, leaves', signed, signedOver⟩ | kept
      · have same : leaves' = leaves := by
          have again := signedOver.read
          rw [leafHashes_again config.tree log.ledger read, Prod.mk.injEq] at again
          exact again.1.symm
        subst same
        exact .inl ⟨checkpoint, leaves', signed, ⟨read, signedOver.head,
          signedOver.nonempty, signedOver.size, signedOver.root, signedOver.stored⟩, guard⟩
      · exact .inr kept
    unfold maybeCheckpoint
    rw [read]
    simp only
    split
    · exact .inr ⟨by simp, rfl⟩
    · exact .inr ⟨by simp, rfl⟩
    · next ok =>
      split
      · exact .inr ⟨by simp, rfl⟩
      · split
        · next none_ =>
          apply created rfl
          intro last some_
          rw [Log.latestCheckpoint] at none_ some_
          simp [none_] at some_
        · next last some_ =>
          split
          · exact .inr ⟨by simp, rfl⟩
          · next grown =>
            split
            · exact .inr ⟨by simp, rfl⟩
            · exact .inr ⟨by simp, rfl⟩
            · next consistent =>
              apply created rfl
              intro other same
              rw [Log.latestCheckpoint] at some_ same
              simp only at some_
              rw [some_, Option.some.injEq] at same
              rw [← same]
              exact ⟨not_le.mp grown, consistent⟩

/-! ## The invariant of a run -/

structure LogInvariant (config : LogConfig) (history : LogHistory) : Prop where
  rows : history.log.checkpoints = history.signed.map Signed.checkpoint
  one : OneTree config history
  positive : ∀ s ∈ history.signed, 1 ≤ s.checkpoint.treeSize
  increasing : history.signed.Pairwise fun a b => a.checkpoint.treeSize < b.checkpoint.treeSize

theorem latest_signed {history : LogHistory} (inv : LogInvariant config history) :
    history.log.latestCheckpoint = history.signed.getLast?.map Signed.checkpoint := by
  rw [Log.latestCheckpoint, inv.rows, newestCheckpoint_increasing, List.getLast?_map]
  rw [List.pairwise_map]
  exact inv.increasing

theorem logInvariant_sign (collisionFree : Function.Injective2 config.tree.children) {history : LogHistory}
    (inv : LogInvariant config history) {called : Log × Outcome} {checkpoint : LogCheckpoint}
    {leaves : List Bytes} (signedOver : SignedOver config history.log called checkpoint leaves)
    (extends_ : ∀ last, history.signed.getLast? = some last →
      last.checkpoint.treeSize < leaves.length ∧
      last.checkpoint.rootHash = hexText (config.tree.root (leaves.take last.checkpoint.treeSize.toNat))) :
    LogInvariant config ⟨called.1, history.signed ++ [⟨checkpoint, leaves⟩]⟩ := by
  have new (b : Signed) (member : b ∈ [(⟨checkpoint, leaves⟩ : Signed)]) : b = ⟨checkpoint, leaves⟩ :=
    List.mem_singleton.mp member
  have below : ∀ a ∈ history.signed, a.checkpoint.treeSize < leaves.length ∧
      a.checkpoint.rootHash = hexText (config.tree.root (leaves.take a.checkpoint.treeSize.toNat)) := by
    intro a member
    cases final : history.signed.getLast? with
    | none =>
      rw [List.getLast?_eq_none_iff] at final
      simp [final] at member
    | some last =>
      obtain ⟨smaller, signedRoot⟩ := extends_ last final
      obtain ⟨before, split⟩ := List.getLast?_eq_some_iff.mp final
      rw [split] at member
      rcases List.mem_append.mp member with earlier | latest
      · have listed : last ∈ history.signed := by simp [split]
        have ordered := inv.increasing
        have grows := inv.one.grows
        rw [split, List.pairwise_append] at ordered grows
        have less := ordered.2.2 a earlier last List.mem_cons_self
        have grown := grows.2.2 a earlier last List.mem_cons_self
        have sizeLast := inv.one.sizes last listed
        -- The last signed tree is the beginning of this one, since their roots are the same.
        have same : last.leaves = leaves.take last.checkpoint.treeSize.toNat := by
          refine merkleRoot_injective config.tree.empty collisionFree ?_ ?_
          · rw [List.length_take]
            omega
          · have roots := inv.one.roots last listed
            rw [signedRoot] at roots
            exact (hexText_injective roots).symm
        refine ⟨by omega, ?_⟩
        rw [grown.2, same, List.take_take, min_eq_left (by omega)]
      · rw [List.mem_singleton.mp latest]
        exact ⟨smaller, signedRoot⟩
  refine ⟨?_, ⟨?_, ?_, ?_⟩, ?_, ?_⟩
  · rw [signedOver.stored, inv.rows, List.map_append]
    rfl
  · intro s member
    rcases List.mem_append.mp member with old | added
    · exact inv.one.sizes s old
    · rw [new s added]
      exact signedOver.size
  · intro s member
    rcases List.mem_append.mp member with old | added
    · exact inv.one.roots s old
    · rw [new s added]
      exact signedOver.root
  · rw [List.pairwise_append]
    refine ⟨inv.one.grows, List.pairwise_singleton _ _, ?_⟩
    intro a member b added
    rw [new b added]
    refine ⟨?_, (below a member).2⟩
    rw [signedOver.size]
    exact (below a member).1.le
  · intro s member
    rcases List.mem_append.mp member with old | added
    · exact inv.positive s old
    · have some_ := List.length_pos_iff.mpr signedOver.nonempty
      rw [new s added, signedOver.size]
      omega
  · rw [List.pairwise_append]
    refine ⟨inv.increasing, List.pairwise_singleton _ _, ?_⟩
    intro a member b added
    rw [new b added, signedOver.size]
    exact (below a member).1

theorem logInvariant_keep {history : LogHistory} (inv : LogInvariant config history) {log : Log}
    (same : log.checkpoints = history.log.checkpoints) : LogInvariant config ⟨log, history.signed⟩ :=
  ⟨same.trans inv.rows, ⟨inv.one.sizes, inv.one.roots, inv.one.grows⟩, inv.positive, inv.increasing⟩

theorem logInvariant_start : LogInvariant config .start :=
  ⟨rfl, ⟨by simp [LogHistory.start], by simp [LogHistory.start], List.Pairwise.nil⟩,
    by simp [LogHistory.start], List.Pairwise.nil⟩

theorem logInvariant_called (collisionFree : Function.Injective2 config.tree.children) {history : LogHistory}
    (inv : LogInvariant config history) {called : Log × Outcome}
    (signs : SignsOrKeeps config history.log called)
    (extends_ : ∀ checkpoint leaves, SignedOver config history.log called checkpoint leaves →
      ∀ last, history.signed.getLast? = some last → last.checkpoint.treeSize < leaves.length ∧
        last.checkpoint.rootHash = hexText (config.tree.root (leaves.take last.checkpoint.treeSize.toNat))) :
    LogInvariant config (history.after called) := by
  rcases signs with ⟨checkpoint, leaves, signed, signedOver⟩ | ⟨unsigned, same⟩
  · rw [LogHistory.after, signed]
    exact logInvariant_sign collisionFree inv signedOver (extends_ checkpoint leaves signedOver)
  · unfold LogHistory.after
    split
    · next signed => exact absurd signed (unsigned _ _)
    · exact logInvariant_keep inv same

theorem maybeCheckpoint_extends (collisionFree : Function.Injective2 config.tree.children)
    {history : LogHistory} (inv : LogInvariant config history) (timestamp : Text) (seed : Nat) :
    LogInvariant config (history.after (maybeCheckpoint config history.log timestamp seed)) := by
  rcases maybeCheckpoint_cases config history.log timestamp seed with
    ⟨checkpoint, leaves, signed, signedOver, guard⟩ | kept
  · rw [LogHistory.after, signed]
    apply logInvariant_sign collisionFree inv signedOver
    intro last final
    have latest := latest_signed inv
    rw [final, Option.map_some] at latest
    have listed := List.mem_of_getLast? final
    obtain ⟨grown, consistent⟩ := guard last.checkpoint latest
    exact ⟨grown, consistentWith_true collisionFree (inv.positive last listed) (inv.one.roots last listed)
      consistent⟩
  · exact logInvariant_called collisionFree inv (.inr kept) (by
      intro checkpoint leaves signedOver
      have longer := congrArg List.length signedOver.stored
      rw [kept.2, List.length_append, List.length_singleton] at longer
      omega)

theorem entriesFor_mem {ledger : Ledger} {proposalUuid : Text} {signerIds : List Int} {e : LedgerEntry}
    (found : (entriesFor ledger proposalUuid signerIds).getLast? = some e) : e ∈ ledger.entries :=
  (List.mem_filter.mp (List.mem_of_getLast? found)).1

variable {pin}

theorem bundleCheckpoint_extends (collisionFree : Function.Injective2 config.tree.children)
    {history : LogHistory} (inv : LogInvariant config history) (proposalUuid : Text) (signerIds : List Int)
    (timestamp : Text) (seed : Nat)
    (kept : ExportUnrewritten config pin history (.exportBundle proposalUuid signerIds timestamp seed)) :
    LogInvariant config
      (history.after (bundleCheckpoint config pin history.log proposalUuid signerIds timestamp seed)) := by
  unfold bundleCheckpoint
  cases found : (entriesFor history.log.ledger proposalUuid signerIds).getLast? with
  | none => exact logInvariant_keep inv rfl
  | some highest =>
    cases covered : history.log.checkpointCovering config.sha256 pin highest.seq with
    | some checkpoint =>
      simp only [covered]
      exact logInvariant_keep inv rfl
    | none =>
      simp only [covered]
      apply logInvariant_called collisionFree inv (createCheckpoint_cases config history.log timestamp seed)
      intro checkpoint leaves signedOver last final
      have latest := latest_signed inv
      rw [final, Option.map_some] at latest
      have listed : last.checkpoint ∈ history.log.checkpoints := by
        rw [inv.rows]
        exact List.mem_map_of_mem (List.mem_of_getLast? final)
      have small := covering_none config pin covered last.checkpoint listed
      obtain ⟨head, lastRow, whole⟩ := signedOver.head
      have inLedger := Ledger.seq_le_last (entriesFor_mem found) lastRow
      have same := kept highest found covered
      simp only [unrewritten, latest, signedOver.read, beq_iff_eq] at same
      exact ⟨by omega, same⟩

theorem logInvariant_step (collisionFree : Function.Injective2 config.tree.children) (history : LogHistory)
    (event : LogEvent) (inv : LogInvariant config history)
    (kept : ExportUnrewritten config pin history event) : LogInvariant config (logStep config pin history event) := by
  cases event with
  | append timestamp event =>
    rw [logStep]
    split
    · exact inv
    · exact logInvariant_keep inv rfl
  | rewrite ledger => exact logInvariant_keep inv rfl
  | cosign cosignatures => exact logInvariant_keep inv rfl
  | maybeCheckpoint timestamp seed => exact maybeCheckpoint_extends collisionFree inv timestamp seed
  | exportBundle proposalUuid signerIds timestamp seed =>
    exact bundleCheckpoint_extends collisionFree inv proposalUuid signerIds timestamp seed kept

section Sample

-- Thirty-two bytes that depend on every byte of the data.
def checksum (data : Bytes) : Bytes :=
  let sum := data.foldl (fun sum b => (257 * sum + b.toNat + 1) % 2 ^ 256) 0
  (List.range 32).map fun i => UInt8.ofNat (sum / 256 ^ i)

def sampleProvider : SignatureProvider where
  keygen seed := ([1, UInt8.ofNat seed], [1, UInt8.ofNat seed])
  sign secretKey message := secretKey ++ message
  verify publicKey message signature := signature == publicKey ++ message

def sampleConfig : LogConfig where
  sha256 := checksum
  tree := ⟨fun data => data, FreeHash.pairBytes, []⟩
  origin := "log.example"
  activeSignatureAlg := "ML-DSA-65"
  provider algId := if algId = text "ML-DSA-65" then some sampleProvider else none

def sampleEvent (payload : String) : LedgerEvent :=
  ⟨"proposal_signed", .dict [("note", payload)], "user:1", some 1, none, some (text "proposal"),
    some (text "p-1")⟩

def honestLog : List LogEvent :=
  [.append "t0" (sampleEvent "one"), .maybeCheckpoint "t1" 0, .append "t2" (sampleEvent "two"),
    .exportBundle "p-1" [1] "t3" 0]

def rewritten (ledger : Ledger) : Ledger where
  entries := ledger.entries.map fun e => { e with entryHash := "ff" }
  ordered := by
    rw [List.pairwise_map]
    exact ledger.ordered

def signedHistory : LogHistory :=
  run (logStep sampleConfig .unset) .start [.append "t0" (sampleEvent "one"), .maybeCheckpoint "t1" 0]

def launderedLog : List LogEvent :=
  [.append "t0" (sampleEvent "one"), .maybeCheckpoint "t1" 0, .rewrite (rewritten signedHistory.log.ledger),
    .append "t2" (sampleEvent "two"), .exportBundle "p-1" [1] "t3" 0]

theorem grows_of_oneTree {history : LogHistory} (one : OneTree sampleConfig history) :
    (match history.signed with
      | [a, b] => a.checkpoint.rootHash ==
          hexText (sampleConfig.tree.root (b.leaves.take a.checkpoint.treeSize.toNat))
      | _ => true) = true := by
  split
  · next a b both =>
    have grows := one.grows
    rw [both, List.pairwise_cons] at grows
    rw [beq_iff_eq]
    exact (grows.1 b List.mem_cons_self).2
  · rfl

end Sample

end QVault.Proof.Services
