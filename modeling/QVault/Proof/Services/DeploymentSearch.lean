import QVault.Services.DeploymentSearch

/-!
# What the search for a deployment finds
-/

namespace QVault.Proof.Services.DeploymentSearch
open QVault.Services.DeploymentSearch QVault.Python QVault.Chain Programs Bisection

variable {createAddress : Address → Nat → Address} {deployer address : Address} {chain : DeployerChain createAddress deployer}
  {α : Type} {moment : Moment} {latest nonce : Nat}

theorem around_refl (moment : Moment) : chain.around.later moment moment := ⟨Nat.le_refl _, rfl⟩

theorem around_trans {first second third : Moment} (one : chain.around.later first second)
    (two : chain.around.later second third) : chain.around.later first third :=
  ⟨one.1.trans two.1, two.2.trans one.2⟩

/-! ## What an answer says -/

-- The program ends with what the chain holds, and has been told the same latest block.
def Yields (chain : DeployerChain createAddress deployer) (moment : Moment) (truth : α) :
    Moment → Unit → Except RpcError α → Prop :=
  fun after _ result => chain.around.later moment after ∧ result = .ok truth

theorem blockNumber_told (moment : Moment) : Safe chain.around
    (fun after _ result => ∃ latest, result = .ok latest ∧ after.latest = some latest ∧ latest ≤ after.head) blockNumber moment () := by
  intro now since
  refine ⟨trivial, ?_⟩
  rintro answer rfl
  exact ⟨now.head, rfl, rfl, Nat.le_refl _⟩

theorem transactionCount_yields (told : moment.latest = some latest) {block : Int} (from_first : 0 ≤ block) (to_latest : block ≤ latest) :
    Safe chain.around (Yields chain moment (chain.count block.toNat)) (transactionCount deployer block) moment () := by
  intro now since
  refine ⟨⟨rfl, from_first, latest, since.2.trans told, to_latest⟩, ?_⟩
  rintro answer rfl
  exact ⟨since, rfl⟩

theorem blockTransactions_yields (told : moment.latest = some latest) {block : Int} (from_first : 0 ≤ block) (to_latest : block ≤ latest) :
    Safe chain.around (Yields chain moment (chain.transactions block.toNat)) (blockTransactions block) moment () := by
  intro now since
  refine ⟨⟨from_first, latest, since.2.trans told, to_latest⟩, ?_⟩
  rintro answer rfl
  exact ⟨since, rfl⟩

theorem transaction_yields (txHash : Bytes) :
    Safe chain.around (Yields chain moment (chain.info txHash)) (transaction txHash) moment () := by
  intro now since
  refine ⟨trivial, ?_⟩
  rintro answer rfl
  exact ⟨since, rfl⟩

theorem receipt_yields (txHash : Bytes) :
    Safe chain.around (Yields chain moment (chain.receipt txHash)) (receipt txHash) moment () := by
  intro now since
  refine ⟨trivial, ?_⟩
  rintro answer rfl
  exact ⟨since, rfl⟩

-- What comes after an answer may take it to be what the chain holds.
theorem safe_after {β : Type} {program : Search α} {rest : α → Search β} {truth : α} {goal : Moment → Unit → Except RpcError β → Prop}
    (first : Safe chain.around (Yields chain moment truth) program moment ())
    (then_ : ∀ after, chain.around.later moment after → Safe chain.around goal (rest truth) after ()) :
    Safe chain.around goal (program >>= rest) moment () := by
  refine safe_bind first ?_ ?_
  · rintro after _ a ⟨since, same⟩
    cases Except.ok.inj same
    exact then_ after since
  · rintro _ _ _ ⟨-, wrong⟩
    cases wrong

/-! ## The block -/

-- The block the search ends at is the first whose closing count passes the nonce.
def Passes (chain : DeployerChain createAddress deployer) (nonce : Nat) (block : Int) : Prop :=
  0 ≤ block ∧ nonce < chain.count block.toNat

theorem passes_told (told : moment.latest = some latest) {middle : Int} (lower : -1 < middle) (under : middle < latest) :
    Tells chain.around (do return decide (nonce < (← transactionCount deployer middle))) (Passes chain nonce middle) moment := by
  intro now memory since
  have told' : now.latest = some latest := since.2.trans told
  refine safe_after (transactionCount_yields told' (by omega) (by omega)) ?_
  intro after more
  refine ⟨more, _, rfl, ?_⟩
  rw [decide_eq_true_iff]
  exact ⟨fun passed => ⟨by omega, passed⟩, And.right⟩

-- At the first such block the deployer's transaction of this nonce is included.
theorem included_at {found : Int} (before : ¬ Passes chain nonce (found - 1)) (here : Passes chain nonce found) :
    ∃ txHash ∈ chain.transactions found.toNat, chain.info txHash = some ⟨deployer, nonce⟩ := by
  obtain ⟨block, early, txHash, listed, info⟩ := (chain.counted nonce _).mp here.2
  obtain later | same := Nat.lt_or_eq_of_le early
  · refine absurd ⟨by omega, (chain.counted nonce _).mpr ⟨block, ?_, txHash, listed, info⟩⟩ before
    omega
  · exact ⟨txHash, same ▸ listed, info⟩

/-! ## The transaction -/

-- Whether a transaction is the deployer's of this nonce and created this address
def creating (chain : DeployerChain createAddress deployer) (nonce : Nat) (address : Address) (txHash : Bytes) : Bool :=
  chain.info txHash = some ⟨deployer, nonce⟩ ∧ (chain.receipt txHash).bind (·.contractAddress) = some address

theorem creationAmong_yields (txHashes : List Bytes) : Safe chain.around
    (Yields chain moment (txHashes.find? (creating chain nonce address))) (creationAmong deployer address nonce txHashes) moment () := by
  induction txHashes generalizing moment with
  | nil => exact ⟨around_refl _, rfl⟩
  | cons txHash rest ih =>
    -- What the rest yields, where this transaction is passed over
    have passed : ∀ after, chain.around.later moment after → creating chain nonce address txHash = false →
        Safe chain.around (Yields chain moment ((txHash :: rest).find? (creating chain nonce address)))
          (creationAmong deployer address nonce rest) after () := by
      intro after since other
      rw [List.find?_cons_of_neg (by simp [other])]
      exact safe_mono (fun later _ _ found => ⟨around_trans since found.1, found.2⟩) ih
    refine safe_after (transaction_yields txHash) fun after since => ?_
    cases seen : chain.info txHash with
    | none => exact passed after since (by simp [creating, seen])
    | some info =>
      dsimp only
      split
      · rename_i another
        refine passed after since ?_
        rw [creating, seen, decide_eq_false_iff_not]
        rintro ⟨same, -⟩
        cases same
        simp at another
      · rename_i own
        have own' : info = ⟨deployer, nonce⟩ := by
          obtain ⟨sender, position⟩ := not_or.mp own
          cases info
          simp_all
        refine safe_after (receipt_yields txHash) fun later more => ?_
        cases written : chain.receipt txHash with
        | none => exact passed later (around_trans since more) (by simp [creating, written])
        | some found =>
          dsimp only
          split
          · rename_i created
            rw [List.find?_cons_of_pos (by simp [creating, seen, own', written, created])]
            exact ⟨around_trans since more, rfl⟩
          · rename_i elsewhere
            exact passed later (around_trans since more) (by simp [creating, written, elsewhere])

/-! ## The search -/

theorem nonceOf_some {count : Nat} (found : nonceOf createAddress deployer address count = some nonce) :
    nonce < count ∧ createAddress deployer nonce = address := by
  have below := List.mem_of_find?_eq_some found
  exact ⟨List.mem_range.mp below, by simpa using List.find?_some found⟩

theorem nonceOf_none {count : Nat} (missing : nonceOf createAddress deployer address count = none) (below : nonce < count) :
    createAddress deployer nonce ≠ address := by
  have passed := List.find?_eq_none.mp missing nonce (List.mem_range.mpr below)
  simpa using passed

-- What was created is found: the block is the one that includes its transaction, and no other of the block's
-- transactions is taken for it.
theorem created_found {txHash : Bytes} {block : Nat} (created : chain.Created address txHash block) {found : Int}
    (before : ¬ Passes chain nonce (found - 1)) (here : Passes chain nonce found) (named : chain.info txHash = some ⟨deployer, nonce⟩) :
    found = block ∧ (chain.transactions found.toNat).find? (creating chain nonce address) = some txHash := by
  obtain ⟨other, listed, info⟩ := included_at before here
  obtain ⟨same, rfl⟩ := chain.once listed created.1 info named
  obtain ⟨written, receipt, address'⟩ := created.2.2
  have place : found = block := by
    have := here.1
    omega
  have isCreation : creating chain nonce address other = true := by simp [creating, named, receipt, address']
  cases first : (chain.transactions found.toNat).find? (creating chain nonce address) with
  | none => exact absurd isCreation (List.find?_eq_none.mp first other listed)
  | some choice =>
    have chosen := List.find?_some first
    simp only [creating, decide_eq_true_eq] at chosen
    obtain ⟨-, rfl⟩ := chain.once (List.mem_of_find?_eq_some first) listed chosen.1 info
    exact ⟨place, rfl⟩

-- What `deployment_of` returns, by the latest block it was told
def Answered (chain : DeployerChain createAddress deployer) (address : Address) (latest : Nat) (result : Option (Text × Int)) : Prop :=
  (∀ txHash block, block ≤ latest → chain.Created address txHash block →
    result = some (text "0x" ++ hexText txHash, (block : Int))) ∧
  ((∀ nonce < chain.count latest, createAddress deployer nonce ≠ address) → result = none)

theorem deployment_found (chain : DeployerChain createAddress deployer)
    (distinct : Set.InjOn (createAddress deployer) {nonce | ∃ block, nonce < chain.count block}) (address : Address) (moment : Moment) : Safe chain.around
      (fun after _ result => ∃ latest, after.latest = some latest ∧ latest ≤ after.head ∧
        ∃ found, result = .ok found ∧ Answered chain address latest found)
      (deploymentOf createAddress deployer address) moment () := by
  refine safe_bind (blockNumber_told moment) ?_ ?_
  · -- From here on the latest block is the one the program was told.
    rintro start _ latest ⟨_, same, told, reached⟩
    cases Except.ok.inj same
    refine safe_after (transactionCount_yields told (Int.natCast_nonneg _) (Int.le_refl _)) fun counted since_count => ?_
    rw [Int.toNat_natCast]
    have finish : ∀ {after : Moment} {found : Option (Text × Int)}, chain.around.later start after →
        Answered chain address latest found → ∃ latest, after.latest = some latest ∧ latest ≤ after.head ∧
          ∃ found', (Except.ok found : Except RpcError _) = .ok found' ∧ Answered chain address latest found' :=
      fun later right => ⟨latest, later.2.trans told, reached.trans later.1, _, rfl, right⟩
    cases searched : nonceOf createAddress deployer address (chain.count latest) with
    | none =>
      refine finish since_count ⟨fun txHash block early created => ?_, fun _ => rfl⟩
      obtain ⟨listed, ⟨nonce, info⟩, written, receipt, made⟩ := created
      have below : nonce < chain.count latest := (chain.counted nonce latest).mpr ⟨block, early, txHash, listed, info⟩
      exact absurd (chain.creates listed info receipt made).symm (nonceOf_none searched below)
    | some nonce =>
      obtain ⟨below, named⟩ := nonceOf_some searched
      refine safe_bind (safe_bisect (Passes chain nonce) around_refl around_trans
        (fun middle lower under => passes_told (since_count.2.trans told) lower under) (by omega)
        (fun negative => absurd negative.1 (by decide)) ⟨Int.natCast_nonneg _, by simpa using below⟩) ?_ ?_
      · rintro searched' _ high ⟨since_search, _, same, low', high', before, here⟩
        cases Except.ok.inj same
        have since_told := around_trans since_count since_search
        refine safe_after (blockTransactions_yields (since_told.2.trans told) (by omega) high') fun listed since_list => ?_
        refine safe_after (creationAmong_yields _) fun looked since_look => ?_
        refine finish (around_trans since_told (around_trans since_list since_look)) ⟨fun txHash block early created => ?_, fun never => ?_⟩
        · obtain ⟨nonce', info⟩ := created.2.1
          obtain ⟨written, receipt, made⟩ := created.2.2
          have used : nonce' < chain.count latest := (chain.counted nonce' latest).mpr ⟨block, early, txHash, created.1, info⟩
          cases distinct ⟨latest, below⟩ ⟨latest, used⟩ (named.trans (chain.creates created.1 info receipt made))
          obtain ⟨place, first⟩ := created_found created before here info
          rw [first, place]
          rfl
        · exact absurd named (never nonce below)
      · rintro _ _ _ ⟨-, _, wrong, -⟩
        cases wrong
  · rintro _ _ _ ⟨_, wrong, -⟩
    cases wrong

-- A chain whose fourth block includes the deployer's only transaction, which created the address 42
def sampleChain : DeployerChain (fun _ nonce => BitVec.ofNat 160 (42 + nonce)) 1 where
  transactions block := if block = 3 then [[7]] else []
  info txHash := if txHash = [7] then some ⟨1, 0⟩ else none
  receipt txHash := if txHash = [7] then some ⟨true, 3, some 42⟩ else none
  count block := if 3 ≤ block then 1 else 0
  grows := by
    intro block block' early
    dsimp only
    split_ifs <;> omega
  counted := by
    intro nonce block
    by_cases reached : 3 ≤ block
    · simp only [reached, if_true, Nat.lt_one_iff]
      constructor
      · rintro rfl
        exact ⟨3, reached, [7], by simp, by simp⟩
      · rintro ⟨included, -, txHash, -, info⟩
        split_ifs at info
        · cases info
          rfl
    · simp only [reached, if_false, Nat.not_lt_zero, false_iff]
      rintro ⟨included, early, txHash, listed, -⟩
      have : included ≠ 3 := by omega
      simp [this] at listed
  once := by
    intro nonce block block' txHash txHash' listed listed' _ _
    split_ifs at listed listed' <;> simp_all
  creates := by
    intro nonce block txHash found address _ info receipt created
    split_ifs at info receipt
    cases info
    cases receipt
    cases created
    rfl

theorem deployment_found_sample : sampleChain.Created 42 [7] 3 ∧ Safe sampleChain.around
    (fun after _ result => ∃ latest, after.latest = some latest ∧ latest ≤ after.head ∧
      ∃ found, result = .ok found ∧ Answered sampleChain 42 latest found)
    (deploymentOf (fun _ nonce => BitVec.ofNat 160 (42 + nonce)) 1 42) ⟨8, none⟩ () := by
  have one : ∀ nonce block, nonce < sampleChain.count block → nonce = 0 := by
    intro nonce block below
    simp only [sampleChain] at below
    split_ifs at below <;> omega
  refine ⟨⟨by simp [sampleChain], ⟨0, by simp [sampleChain]⟩, ⟨true, 3, some 42⟩, by simp [sampleChain], rfl⟩, ?_⟩
  refine deployment_found sampleChain ?_ 42 ⟨8, none⟩
  rintro nonce ⟨block, below⟩ nonce' ⟨block', below'⟩ _
  rw [one nonce block below, one nonce' block' below']

end QVault.Proof.Services.DeploymentSearch
