import QVault.Chain.RelayerRun
import Mathlib.Tactic

/-!
# What the relayer's methods rely on and keep

The chain moves on between any two questions. Each method meets a specification that says what holds
of its result whatever happened meanwhile.
-/

namespace QVault.Proof.Chain
open QVault.Chain QVault.Python Programs

/-! ## How the chain moves on -/

-- Newest first: each has the nonce after those below it, in a block not below theirs.
def Chained (firstNonce : Nat) : List Inclusion → Prop
  | [] => True
  | i :: rest => i.tx.nonce = firstNonce + rest.length ∧ (∀ j ∈ rest, j.block ≤ i.block) ∧ Chained firstNonce rest

structure ChainLawful (c : ChainState) : Prop where
  chained : Chained c.firstNonce c.included
  signedFirst : ∀ i ∈ c.included, c.Signed i.tx
  blocks : ∀ i ∈ c.included, 1 ≤ i.block ∧ i.block ≤ c.head
  inTurn : ∀ s ∈ c.signed, s.tx.nonce ≤ s.nextNonce ∧ s.nextNonce ≤ c.nextNonce

structure Grows (before after : ChainState) : Prop where
  firstNonce : after.firstNonce = before.firstNonce
  head : before.head ≤ after.head
  nextNonce : before.nextNonce ≤ after.nextNonce
  signed : ∀ s ∈ before.signed, s ∈ after.signed
  included : ∀ i ∈ before.included, i ∈ after.included
  newer : ∀ i ∈ after.included,
    i ∈ before.included ∨ before.nextNonce ≤ i.tx.nonce ∧ i.tx.nonce < after.nextNonce

theorem grows_refl (c : ChainState) : Grows c c :=
  ⟨rfl, le_refl _, le_refl _, fun _ listed => listed, fun _ listed => listed, fun _ listed => .inl listed⟩

theorem Grows.trans {first second third : ChainState} (early : Grows first second) (late : Grows second third) :
    Grows first third where
  firstNonce := late.firstNonce.trans early.firstNonce
  head := early.head.trans late.head
  nextNonce := early.nextNonce.trans late.nextNonce
  signed s listed := late.signed s (early.signed s listed)
  included i listed := late.included i (early.included i listed)
  newer i listed := by
    cases late.newer i listed with
    | inl before =>
      cases early.newer i before with
      | inl first => exact .inl first
      | inr between => exact .inr ⟨between.1, between.2.trans_le late.nextNonce⟩
    | inr between => exact .inr ⟨early.nextNonce.trans between.1, between.2⟩

section Facts
variable {c before after : ChainState} {tx : PreparedTransaction}

theorem Grows.keepsSigned (grows : Grows before after) (signed : before.Signed tx) : after.Signed tx := by
  obtain ⟨s, listed, rfl⟩ := List.mem_map.mp signed
  exact List.mem_map.mpr ⟨s, grows.signed s listed, rfl⟩

theorem Grows.keepsIncluded (grows : Grows before after) (included : before.Included tx) : after.Included tx := by
  obtain ⟨i, listed, rfl⟩ := List.mem_map.mp included
  exact List.mem_map.mpr ⟨i, grows.included i listed, rfl⟩

theorem Grows.stillOut (grows : Grows before after) (used : tx.nonce < before.nextNonce)
    (out : ¬before.Included tx) : ¬after.Included tx := by
  intro included
  obtain ⟨i, listed, rfl⟩ := List.mem_map.mp included
  cases grows.newer i listed with
  | inl old => exact out (List.mem_map.mpr ⟨i, old, rfl⟩)
  | inr above => omega

theorem chained_nonce {firstNonce : Nat} {included : List Inclusion} (chained : Chained firstNonce included) :
    ∀ i ∈ included, i.tx.nonce < firstNonce + included.length := by
  induction included with
  | nil => exact fun i none => (nomatch none)
  | cons newest rest ih =>
    obtain ⟨nonce, -, below⟩ := chained
    intro i listed
    rw [List.length_cons]
    cases listed with
    | head => omega
    | tail _ earlier =>
      have := ih below i earlier
      omega

theorem ChainLawful.nonce_lt (lawful : ChainLawful c) (included : c.Included tx) : tx.nonce < c.nextNonce := by
  obtain ⟨i, listed, rfl⟩ := List.mem_map.mp included
  exact chained_nonce lawful.chained i listed

theorem ChainLawful.nonce_le (lawful : ChainLawful c) (signed : c.Signed tx) : tx.nonce ≤ c.nextNonce := by
  obtain ⟨s, listed, rfl⟩ := List.mem_map.mp signed
  obtain ⟨first, second⟩ := lawful.inTurn s listed
  exact first.trans second

-- A block's count is above only the nonces that were included up to it.
theorem chained_countAt {firstNonce block : Nat} {included : List Inclusion} (chained : Chained firstNonce included) :
    ∀ i ∈ included, i.tx.nonce < firstNonce + (included.filter fun j => j.block ≤ block).length → i.block ≤ block := by
  induction included with
  | nil => exact fun i none => (nomatch none)
  | cons newest rest ih =>
    obtain ⟨nonce, blocks, below⟩ := chained
    intro i listed counted
    by_contra above
    have newestAbove : ¬newest.block ≤ block := by
      cases listed with
      | head => exact above
      | tail _ earlier =>
        have := blocks i earlier
        omega
    rw [List.filter_cons_of_neg (by simpa using newestAbove)] at counted
    cases listed with
    | head =>
      have short := List.length_filter_le (fun j : Inclusion => decide (j.block ≤ block)) rest
      omega
    | tail _ earlier => exact above (ih below i earlier counted)

/-! ## Steps of the chain -/

theorem includeTx_nextNonce_le (block : Nat) : c.nextNonce ≤ (c.includeTx block tx).nextNonce := by
  unfold ChainState.includeTx
  split
  · simp [ChainState.nextNonce]
  · exact le_refl _

theorem includeTx_grows (block : Nat) : Grows c (c.includeTx block tx) := by
  refine ⟨?_, ?_, includeTx_nextNonce_le block, ?_, ?_, ?_⟩ <;> unfold ChainState.includeTx <;> split
  · rfl
  · rfl
  · exact le_refl _
  · exact le_refl _
  · exact fun s listed => listed
  · exact fun s listed => listed
  · exact fun i listed => List.mem_cons_of_mem _ listed
  · exact fun i listed => listed
  · rename_i turn
    intro i listed
    cases listed with
    | head => exact .inr ⟨turn.2.ge, by simp [ChainState.nextNonce, turn.2]⟩
    | tail _ earlier => exact .inl earlier
  · exact fun i listed => .inl listed

theorem includeTx_lawful (lawful : ChainLawful c) (someBlock : 1 ≤ c.head) :
    ChainLawful (c.includeTx c.head tx) := by
  have grows : Grows c (c.includeTx c.head tx) := includeTx_grows c.head
  have inTurn : ∀ s ∈ c.signed, s.tx.nonce ≤ s.nextNonce ∧ s.nextNonce ≤ (c.includeTx c.head tx).nextNonce := by
    intro s listed
    obtain ⟨first, second⟩ := lawful.inTurn s listed
    exact ⟨first, second.trans grows.nextNonce⟩
  unfold ChainState.includeTx at inTurn ⊢
  split
  · rename_i turn
    rw [if_pos turn] at inTurn
    refine ⟨⟨turn.2, fun j earlier => (lawful.blocks j earlier).2, lawful.chained⟩, ?_, ?_, inTurn⟩
    · intro i listed
      cases listed with
      | head => exact turn.1
      | tail _ earlier => exact lawful.signedFirst i earlier
    · intro i listed
      cases listed with
      | head => exact ⟨someBlock, le_refl _⟩
      | tail _ earlier => exact lawful.blocks i earlier
  · exact lawful

theorem includeTx_head (block : Nat) : (c.includeTx block tx).head = c.head := by
  unfold ChainState.includeTx
  split <;> rfl

theorem addBlock_kept (lawful : ChainLawful c) (txs : List PreparedTransaction) :
    Grows c (c.addBlock txs) ∧ ChainLawful (c.addBlock txs) := by
  have opened : Grows c { c with head := c.head + 1 } ∧ ChainLawful { c with head := c.head + 1 } := by
    refine ⟨⟨rfl, Nat.le_succ _, le_refl _, fun _ listed => listed, fun _ listed => listed,
      fun _ listed => .inl listed⟩, lawful.chained, lawful.signedFirst, ?_, lawful.inTurn⟩
    intro i listed
    obtain ⟨some, low⟩ := lawful.blocks i listed
    exact ⟨some, low.trans (Nat.le_succ _)⟩
  have folded : ∀ d : ChainState, 1 ≤ d.head → Grows c d → ChainLawful d →
      Grows c (txs.foldl (fun c tx => c.includeTx c.head tx) d) ∧
        ChainLawful (txs.foldl (fun c tx => c.includeTx c.head tx) d) := by
    induction txs with
    | nil => exact fun d _ grows lawful => ⟨grows, lawful⟩
    | cons tx rest ih =>
      intro d someBlock grows lawful
      rw [List.foldl_cons]
      refine ih _ ?_ (grows.trans (includeTx_grows d.head)) (includeTx_lawful lawful someBlock)
      rw [includeTx_head]
      exact someBlock
  exact folded _ (Nat.succ_pos _) opened.1 opened.2

theorem sign_kept (lawful : ChainLawful c) (inTurn : tx.nonce ≤ c.nextNonce) :
    Grows c (c.sign tx) ∧ ChainLawful (c.sign tx) := by
  refine ⟨⟨rfl, le_refl _, le_refl _, fun s listed => List.mem_cons_of_mem _ listed, fun i listed => listed,
    fun i listed => .inl listed⟩, lawful.chained, ?_, lawful.blocks, ?_⟩
  · intro i listed
    exact List.mem_cons_of_mem _ (lawful.signedFirst i listed)
  · intro s listed
    cases listed with
    | head => exact ⟨inTurn, le_refl _⟩
    | tail _ earlier => exact lawful.inTurn s earlier

theorem sign_signed : (c.sign tx).Signed tx := List.mem_cons_self

end Facts

/-! ## Specifications -/

section Rules
variable (covered : Prop)

-- A transaction is only signed at a nonce that is not above the next one.
def aroundRelayer : Surroundings Query Reply ChainState where
  later before after := Grows before after ∧ ChainLawful after
  answers c query reply := c.Honest query reply ∧ (covered → c.Timely query reply)
  effect := ChainState.effect
  demand c query := match query with
    | .sign tx => tx.nonce ≤ c.nextNonce
    | _ => True

variable {M α β : Type} (fit : ChainState → M → Prop)

-- What holds when a method is over: the memory is fit, and the fact holds of what it returned.
def Kept (start : ChainState) (fact : ChainState → α → Prop) (c : ChainState) (memory : M)
    (result : Except RelayerError α) : Prop :=
  Grows start c ∧ ChainLawful c ∧ fit c memory ∧ ∀ a, result = .ok a → fact c a

def Meets (program : Asking M α) (given : ChainState → Prop) (fact : ChainState → α → Prop) : Prop :=
  ∀ c memory, ChainLawful c → fit c memory → given c →
    Safe (aroundRelayer covered) (Kept fit c fact) program c memory

-- true from then on
def Steady (given : ChainState → Prop) : Prop :=
  ∀ before after, Grows before after → ChainLawful after → given before → given after

variable {covered fit} {given : ChainState → Prop} {fact middle goal : ChainState → α → Prop}
  {program : Asking M α}

theorem meets_pure {a : α} (holds : ∀ c, ChainLawful c → given c → fact c a) :
    Meets covered fit (pure a : Asking M α) given fact := by
  intro c memory lawful ok known
  refine ⟨grows_refl c, lawful, ok, ?_⟩
  intro b same
  cases same
  exact holds c lawful known

theorem meets_raise {e : RelayerError} : Meets covered fit (raise e : Asking M α) given fact :=
  fun c _ lawful ok _ => ⟨grows_refl c, lawful, ok, fun _ none => nomatch none⟩

theorem meets_orRaise {result : Except RelayerError α}
    (holds : ∀ c a, ChainLawful c → given c → result = .ok a → fact c a) :
    Meets covered fit (orRaise result : Asking M α) given fact :=
  fun c _ lawful ok known => ⟨grows_refl c, lawful, ok, fun a same => holds c a lawful known same⟩

theorem Meets.weaken {given' : ChainState → Prop} (meets : Meets covered fit program given fact)
    (strong : ∀ c, given' c → given c) (weak : ∀ c a, ChainLawful c → fact c a → goal c a) :
    Meets covered fit program given' goal := by
  intro c memory lawful ok known
  refine safe_mono ?_ (meets c memory lawful ok (strong c known))
  rintro now m result ⟨grows, lawful', ok', holds⟩
  exact ⟨grows, lawful', ok', fun a same => weak now a lawful' (holds a same)⟩

theorem Meets.bind {rest : α → Asking M β} {after : ChainState → β → Prop} (first : Meets covered fit program given fact)
    (second : ∀ a, Meets covered fit (rest a) (fun c => fact c a) after) :
    Meets covered fit (program >>= rest) given after := by
  intro c memory lawful ok known
  refine safe_bind (first c memory lawful ok known) ?_ ?_
  · rintro now m a ⟨grows, lawful', ok', holds⟩
    refine safe_mono ?_ (second a now m lawful' ok' (holds a rfl))
    rintro late m' result ⟨grows', rest⟩
    exact ⟨grows.trans grows', rest⟩
  · rintro now m e ⟨grows, lawful', ok', -⟩
    exact ⟨grows, lawful', ok', fun a none => nomatch none⟩

-- What was known before, and stays true, is still known after.
theorem Meets.frame (steady : Steady given) (meets : Meets covered fit program given fact) :
    Meets covered fit program given (fun c a => given c ∧ fact c a) := by
  intro c memory lawful ok known
  refine safe_mono ?_ (meets c memory lawful ok known)
  rintro now m result ⟨grows, lawful', ok', holds⟩
  exact ⟨grows, lawful', ok', fun a same => ⟨steady c now grows lawful' known, holds a same⟩⟩

theorem Meets.andThen {rest : α → Asking M β} {after : ChainState → β → Prop} (steady : Steady given)
    (first : Meets covered fit program given fact)
    (second : ∀ a, Meets covered fit (rest a) (fun c => given c ∧ fact c a) after) :
    Meets covered fit (program >>= rest) given after :=
  (first.frame steady).bind second

theorem Meets.map {f : α → β} (meets : Meets covered fit program given fact) :
    Meets covered fit (f <$> program) given (fun _ _ => True) :=
  meets.bind fun _ => meets_pure fun _ _ _ => trivial

def signs : Query → Bool
  | .sign _ => true
  | _ => false

theorem effect_quiet {query : Query} (quiet : signs query = false) (c : ChainState) (reply : Reply query) :
    c.effect query reply = c := by
  cases query <;> first | rfl | cases quiet

theorem demand_quiet {query : Query} (quiet : signs query = false) (c : ChainState) :
    (aroundRelayer covered).demand c query := by
  cases query <;> trivial

theorem meets_asked (remembers : ∀ memory, Steady fun c => fit c memory) (query : Query)
    (quiet : signs query = false) :
    Meets covered fit (asked query) given
      (fun c reply => c.Honest query reply ∧ (covered → c.Timely query reply)) := by
  intro c memory lawful ok known now since
  refine ⟨demand_quiet quiet now, ?_⟩
  intro reply right
  have same : (aroundRelayer covered).effect now query reply = now := effect_quiet quiet now reply
  rw [same]
  refine ⟨since.1, since.2, remembers memory c now since.1 since.2 ok, ?_⟩
  intro a given
  cases given
  exact right

theorem meets_signed (remembers : ∀ memory, Steady fun c => fit c memory) {tx : PreparedTransaction} :
    Meets covered fit (asked (.sign tx)) (fun c => tx.nonce ≤ c.nextNonce) (fun c _ => c.Signed tx) := by
  intro c memory lawful ok inTurn now since
  have still : tx.nonce ≤ now.nextNonce := inTurn.trans since.1.nextNonce
  refine ⟨still, ?_⟩
  intro reply _
  obtain ⟨grows, lawful'⟩ := sign_kept since.2 still
  have both := since.1.trans grows
  exact ⟨both, lawful', remembers memory c _ both lawful' ok, fun _ _ => sign_signed⟩

theorem meets_answered {reply : Except RpcError α} (holds : ∀ c a, given c → reply = .ok a → fact c a) :
    Meets covered fit (answered reply : Asking M α) given fact := by
  apply meets_orRaise
  intro c a _ known same
  cases reply with
  | error e => cases same
  | ok b =>
    cases same
    exact holds c a known rfl

end Rules

end QVault.Proof.Chain
