import QVault.Proof.Chain.Relayer

/-!
# What each method of the relayer does

A status is a verdict on the transaction, a nonce is never above the account's next one, and what is
remembered was signed.
-/

namespace QVault.Proof.Chain
open QVault.Chain QVault.Python Programs

variable {covered : Prop} {account : Account} {fees : FeePolicy} {tx : PreparedTransaction}

theorem Steady.and {first second : ChainState → Prop} (left : Steady first) (right : Steady second) :
    Steady fun c => first c ∧ second c :=
  fun _ _ grows lawful holds => ⟨left _ _ grows lawful holds.1, right _ _ grows lawful holds.2⟩

theorem steady_true : Steady fun _ => True := fun _ _ _ _ _ => trivial

theorem steady_signed (tx : PreparedTransaction) : Steady fun c => c.Signed tx :=
  fun _ _ grows _ signed => grows.keepsSigned signed

theorem steady_reached (nonce : Nat) : Steady fun c => nonce ≤ c.nextNonce :=
  fun _ _ grows _ reached => reached.trans grows.nextNonce

/-! ## Following -/

section Following
variable {M : Type} {fit : ChainState → M → Prop} {given : ChainState → Prop}

def Found (covered : Prop) (tx : PreparedTransaction) (c : ChainState) : Option Receipt → Prop
  | some _ => c.Included tx
  | none => covered → ∀ i ∈ c.included, i.tx = tx → c.head < i.block + supersededAfterBlocks

theorem receipt_meets (remembers : ∀ memory, Steady fun c => fit c memory) :
    Meets covered fit (asked (.receipt tx) >>= answered) given (Found covered tx) := by
  apply Meets.bind (meets_asked remembers (.receipt tx) rfl)
  intro reply
  apply meets_answered
  rintro c found ⟨honest, timely⟩ rfl
  cases found with
  | none => exact timely
  | some receipt => exact honest

theorem receiptOf_meets (remembers : ∀ memory, Steady fun c => fit c memory) :
    Meets covered fit (receiptOf account tx) given (Found covered tx) := by
  apply Meets.bind (receipt_meets remembers)
  intro found
  cases found with
  | none => exact meets_pure fun c _ known => known
  | some receipt =>
    simp only
    split
    · exact meets_raise
    · exact meets_pure fun c _ known => known

-- `superseded` is final, and where the margin covers the lag it is not about something included.
def Verdict (covered : Prop) (tx : PreparedTransaction) (c : ChainState) : TxStatus → Prop
  | .mined _ => c.Included tx
  | .superseded => tx.nonce < c.nextNonce ∧ (covered → ¬c.Included tx)
  | .pending | .unknown => True

theorem steady_verdict (verdict : TxStatus) : Steady fun c => Verdict covered tx c verdict := by
  intro before after grows _ holds
  cases verdict with
  | mined receipt => exact grows.keepsIncluded holds
  | superseded =>
    refine ⟨holds.1.trans_le grows.nextNonce, ?_⟩
    intro margin
    exact grows.stillOut holds.1 (holds.2 margin)
  | pending => trivial
  | unknown => trivial

-- What a block's count tells of the nonces below it
def Used (covered : Prop) (block count : Nat) (c : ChainState) : Prop :=
  count ≤ c.nextNonce ∧ (covered → ∀ i ∈ c.included, i.tx.nonce < count → i.block ≤ block)

theorem steady_used (block count : Nat) : Steady (Used covered block count) := by
  rintro before after grows - ⟨reached, below⟩
  refine ⟨reached.trans grows.nextNonce, ?_⟩
  intro margin i listed counted
  cases grows.newer i listed with
  | inl old => exact below margin i old counted
  | inr above => omega

theorem superseded_of {c : ChainState} {block count : Nat} (lawful : ChainLawful c)
    (reached : covered → block ≤ c.head) (used : Used covered (block - supersededAfterBlocks) count c)
    (below : tx.nonce < count) (lost : Found covered tx c none) : Verdict covered tx c .superseded := by
  refine ⟨below.trans_le used.1, ?_⟩
  intro margin included
  obtain ⟨i, listed, rfl⟩ := List.mem_map.mp included
  have deep := used.2 margin i listed below
  have shallow := lost margin i listed rfl
  have known := reached margin
  have first := (lawful.blocks i listed).1
  unfold supersededAfterBlocks at deep shallow
  omega

-- a question whose answer is not relied on
theorem meets_any {α : Type} (remembers : ∀ memory, Steady fun c => fit c memory) (query : Query)
    (quiet : signs query = false) {rest : Reply query → Asking M α}
    (raises : ∀ reply, Meets covered fit (rest reply) (fun _ => True) fun _ _ => True) :
    Meets covered fit (asked query >>= rest) given fun _ _ => True :=
  (meets_asked remembers query quiet).bind fun reply =>
    (raises reply).weaken (fun _ _ => trivial) fun _ _ _ _ => trivial

theorem meets_known (remembers : ∀ memory, Steady fun c => fit c memory) :
    Meets covered fit (asked (.transaction tx) >>= answered) given fun _ _ => True :=
  meets_any remembers _ rfl fun _ => meets_answered fun _ _ _ _ => trivial

theorem count_meets (remembers : ∀ memory, Steady fun c => fit c memory) (block : Nat) :
    Meets covered fit (asked (.transactionCount (.number block)) >>= answered) given
      (fun c count => Used covered block count c) := by
  have counted : Meets covered fit (asked (.transactionCount (.number block)) >>= answered) given
      (fun c count => count ≤ c.nextNonce ∧ (covered → count ≤ c.countAt block)) := by
    apply Meets.bind (meets_asked remembers (.transactionCount (.number block)) rfl)
    intro reply
    apply meets_answered
    rintro c count right rfl
    exact right
  refine counted.weaken (fun c known => known) ?_
  rintro c count lawful ⟨reached, counts⟩
  refine ⟨reached, ?_⟩
  intro margin i listed below
  exact chained_countAt lawful.chained i listed (below.trans_le (counts margin))

theorem head_meets (remembers : ∀ memory, Steady fun c => fit c memory) :
    Meets covered fit (asked .blockNumber >>= answered) given (fun c block => covered → block ≤ c.head) := by
  apply Meets.bind (meets_asked remembers .blockNumber rfl)
  intro reply
  apply meets_answered
  rintro c block ⟨-, timely⟩ rfl
  exact timely

theorem status_meets (remembers : ∀ memory, Steady fun c => fit c memory) :
    Meets covered fit (status account tx) given (Verdict covered tx) := by
  apply Meets.bind (receiptOf_meets remembers)
  intro found
  cases found with
  | some receipt => exact meets_pure fun c _ known => known
  | none =>
    apply Meets.bind (meets_known remembers)
    intro known
    split
    · exact meets_pure fun c _ _ => trivial
    · apply Meets.bind (head_meets remembers)
      intro block
      have steadyHead : Steady fun c => covered → block ≤ c.head :=
        fun before after grows _ below margin => (below margin).trans grows.head
      apply Meets.andThen steadyHead (count_meets remembers (block - supersededAfterBlocks))
      intro count
      split
      · rename_i below
        apply Meets.andThen (steadyHead.and (steady_used (block - supersededAfterBlocks) count))
          (receiptOf_meets remembers)
        intro again
        cases again with
        | some receipt => exact meets_pure fun c _ known => known.2
        | none => exact meets_pure fun c lawful known => superseded_of lawful known.1.1 known.1.2 below known.2
      · exact meets_pure fun c _ _ => trivial

end Following

/-! ## Preparing -/

section Preparing
variable {given : ChainState → Prop}

-- What a process remembers having sent, it signed.
def MemoryFit (c : ChainState) (memory : Memory) : Prop := ∀ sent, memory.lastSent = some sent → c.Signed sent

theorem memoryFit_steady (memory : Memory) : Steady fun c => MemoryFit c memory :=
  fun _ _ grows _ fit sent isLast => grows.keepsSigned (fit sent isLast)

-- methods that keep what they remember and of whose result nothing is needed
abbrev Harmless {α : Type} (covered : Prop) (program : Relaying α) : Prop :=
  Meets covered MemoryFit program (fun _ => True) fun _ _ => True

theorem Meets.harmless {α : Type} {program : Relaying α} {fact : ChainState → α → Prop}
    (meets : Meets covered MemoryFit program (fun _ => True) fact) : Harmless covered program :=
  meets.weaken (fun _ known => known) fun _ _ _ _ => trivial

theorem harmless_pure {α : Type} {a : α} : Harmless covered (pure a : Relaying α) := meets_pure fun _ _ _ => trivial

theorem harmless_raise {α : Type} {e : RelayerError} : Harmless covered (raise e : Relaying α) := meets_raise

theorem harmless_orRaise {α : Type} {result : Except RelayerError α} :
    Harmless covered (orRaise result : Relaying α) := meets_orRaise fun _ _ _ _ _ => trivial

theorem Meets.thenHarmless {α β : Type} {program : Relaying α} {rest : α → Relaying β}
    (first : Harmless covered program) (second : ∀ a, Harmless covered (rest a)) :
    Harmless covered (program >>= rest) :=
  first.bind second

theorem getMemory_meets : Meets covered MemoryFit getMemory given fun c memory => MemoryFit c memory :=
  fun c _ lawful fit _ => ⟨grows_refl c, lawful, fit, fun a same => by cases same; exact fit⟩

theorem setMemory_meets {memory : Memory} (fit : ∀ c, given c → MemoryFit c memory) :
    Meets covered MemoryFit (setMemory memory) given fun _ _ => True :=
  fun c _ lawful _ known => ⟨grows_refl c, lawful, fit c known, fun _ _ => trivial⟩

theorem asked_harmless (query : Query) (quiet : signs query = false) : Harmless covered (asked query) :=
  (meets_asked memoryFit_steady query quiet).harmless

theorem answered_harmless {α : Type} {reply : Except RpcError α} : Harmless covered (answered reply : Relaying α) :=
  meets_answered fun _ _ _ _ => trivial

theorem checkOurs_meets : Meets covered MemoryFit (checkOurs account tx) given fun c _ => c.Signed tx := by
  unfold checkOurs
  split
  · exact meets_raise
  · apply Meets.bind (meets_asked memoryFit_steady (.recover tx) rfl)
    intro genuine
    split
    · rename_i isGenuine
      exact meets_pure fun c _ known => known.1 isGenuine
    · exact meets_raise

theorem checkReplaced_meets (replacing : Option PreparedTransaction) :
    Meets covered MemoryFit (checkReplaced account replacing) given
      fun c _ => ∀ replaced, replacing = some replaced → c.Signed replaced := by
  cases replacing with
  | none => exact meets_pure fun c _ _ replaced none => nomatch none
  | some tx =>
    refine checkOurs_meets.weaken (fun c known => known) ?_
    rintro c - - signed replaced same
    cases same
    exact signed

theorem checkChain_harmless : Harmless covered (checkChain account) := by
  have remembered : Meets covered MemoryFit getMemory (fun _ => True) fun c memory => MemoryFit c memory :=
    getMemory_meets
  apply remembered.bind
  intro memory
  split
  · exact meets_pure fun _ _ _ => trivial
  · have nodeChain : Meets covered MemoryFit (asked .chainId >>= answered) (fun c => MemoryFit c memory)
        fun _ _ => True :=
      meets_any memoryFit_steady _ rfl fun _ => answered_harmless
    apply nodeChain.andThen (memoryFit_steady memory)
    intro chain
    split
    · exact meets_raise
    · exact setMemory_meets fun c known => known.1

theorem confirmed_meets : Meets covered MemoryFit (asked (.transactionCount .latest) >>= answered) given
    fun c count => count ≤ c.nextNonce := by
  apply Meets.bind (meets_asked memoryFit_steady (.transactionCount .latest) rfl)
  intro reply
  apply meets_answered
  rintro c count ⟨honest, -⟩ rfl
  exact honest

theorem afterLast_meets (confirmed : Nat) : Meets covered MemoryFit (afterLast account confirmed tx)
    (fun c => confirmed ≤ c.nextNonce) fun c nonce => nonce ≤ c.nextNonce := by
  apply Meets.andThen (steady_reached confirmed) (status_meets memoryFit_steady)
  intro state
  cases state with
  | mined receipt => exact meets_pure fun c lawful known => lawful.nonce_lt known.2
  | pending => exact meets_raise
  | unknown => exact meets_pure fun c _ known => known.1
  | superseded => exact meets_pure fun c _ known => known.1

-- Whichever of its three sources the nonce has, it is not above the account's next one.
theorem chooseNonce_meets (replacing : Option PreparedTransaction) :
    Meets covered MemoryFit (chooseNonce account replacing)
      (fun c => ∀ replaced, replacing = some replaced → c.Signed replaced) fun c nonce => nonce ≤ c.nextNonce := by
  have steady : Steady fun c => ∀ replaced, replacing = some replaced → c.Signed replaced :=
    fun _ _ grows _ known replaced same => grows.keepsSigned (known replaced same)
  apply Meets.andThen steady confirmed_meets
  intro confirmed
  cases replacing with
  | some replaced =>
    simp only
    split
    · exact meets_raise
    · exact meets_pure fun c lawful known => lawful.nonce_le (known.1 replaced rfl)
  | none =>
    have pendingCount : Meets covered MemoryFit (asked (.transactionCount .pending) >>= answered)
        (fun c => confirmed ≤ c.nextNonce) fun _ _ => True :=
      meets_any memoryFit_steady _ rfl fun _ => answered_harmless
    refine Meets.weaken ?_ (fun c known => known.2) fun _ _ _ holds => holds
    apply pendingCount.andThen (steady_reached confirmed)
    intro pending
    split
    · exact meets_raise
    · refine Meets.weaken ?_ (fun c known => known.1) fun _ _ _ holds => holds
      apply Meets.andThen (steady_reached confirmed) getMemory_meets
      intro memory
      cases memory.lastSent with
      | none => exact meets_pure fun c _ known => known.1
      | some last =>
        simp only
        split
        · exact (afterLast_meets confirmed).weaken (fun c known => known.1) fun _ _ _ holds => holds
        · exact meets_pure fun c _ known => known.1

theorem replay_harmless (recipient : Option Address) (data : Bytes) (valueWei gasLimit : Nat) :
    Harmless covered (replay account recipient data valueWei gasLimit) := by
  apply (asked_harmless _ rfl).thenHarmless
  intro reply
  apply harmless_orRaise.thenHarmless
  intro result
  split
  · exact harmless_raise
  · exact harmless_pure

theorem estimate_harmless (recipient : Option Address) (data : Bytes) (valueWei : Nat) (gasLimit : Option Nat) :
    Harmless covered (estimate account fees recipient data valueWei gasLimit) := by
  cases gasLimit with
  | some gasLimit => exact harmless_pure
  | none =>
    apply (asked_harmless _ rfl).thenHarmless
    intro reply
    apply harmless_orRaise.thenHarmless
    intro estimated
    split
    · exact harmless_raise
    · exact harmless_pure

theorem simulate_harmless (recipient : Option Address) (data : Bytes) (valueWei : Nat) (gasLimit : Option Nat) :
    Harmless covered (simulate account fees recipient data valueWei gasLimit) := by
  apply (estimate_harmless recipient data valueWei gasLimit).thenHarmless
  intro gas
  apply (replay_harmless recipient data valueWei gas).thenHarmless
  exact fun _ => harmless_pure

theorem feesFor_harmless (replacing : Option PreparedTransaction) : Harmless covered (feesFor fees replacing) := by
  have baseFee : Harmless covered (asked .baseFee >>= answered) :=
    (asked_harmless _ rfl).thenHarmless fun _ => answered_harmless
  apply baseFee.thenHarmless
  intro fee
  split
  · exact harmless_raise
  · apply (asked_harmless _ rfl).thenHarmless
    intro reply
    apply harmless_orRaise.thenHarmless
    intro suggested
    cases replacing with
    | none => exact harmless_pure
    | some replaced =>
      simp only
      split
      · exact harmless_raise
      · exact harmless_pure

theorem checkBalance_harmless (required : Nat) : Harmless covered (checkBalance required) := by
  have balance : Harmless covered (asked .balance >>= answered) :=
    (asked_harmless _ rfl).thenHarmless fun _ => answered_harmless
  apply balance.thenHarmless
  intro held
  split
  · exact harmless_raise
  · exact harmless_pure

theorem Harmless.keeping {α : Type} {program : Relaying α} (harmless : Harmless covered program) (steady : Steady given) :
    Meets covered MemoryFit program given fun c _ => given c := by
  have kept : Meets covered MemoryFit program given fun _ _ => True :=
    harmless.weaken (fun _ _ => trivial) fun _ _ _ known => known
  exact (kept.frame steady).weaken (fun _ known => known) fun _ _ _ known => known.1

theorem prepare_meets (recipient : Option Address) (data : Bytes) (valueWei : Int) (gasLimit : Option Int)
    (replacing : Option PreparedTransaction) :
    Meets covered MemoryFit (prepare account fees recipient data valueWei gasLimit replacing) (fun _ => True)
      fun c prepared => c.Signed prepared := by
  apply harmless_orRaise.bind
  intro valueWei
  apply harmless_orRaise.bind
  intro gasLimit
  apply (checkReplaced_meets replacing).bind
  intro _
  have steady : Steady fun c => ∀ replaced, replacing = some replaced → c.Signed replaced :=
    fun _ _ grows _ known replaced same => grows.keepsSigned (known replaced same)
  apply (checkChain_harmless.keeping steady).bind
  intro _
  apply (chooseNonce_meets replacing).bind
  intro nonce
  apply ((simulate_harmless recipient data valueWei gasLimit).keeping (steady_reached nonce)).bind
  intro gas
  apply ((feesFor_harmless replacing).keeping (steady_reached nonce)).bind
  intro offered
  apply ((checkBalance_harmless _).keeping (steady_reached nonce)).bind
  intro _
  apply (meets_signed memoryFit_steady).bind
  exact fun _ => meets_pure fun c _ signed => signed

theorem prepareDeployment_meets (initCode : Bytes) (valueWei : Int) (gasLimit : Option Int)
    (replacing : Option PreparedTransaction) :
    Meets covered MemoryFit (prepareDeployment account fees initCode valueWei gasLimit replacing) (fun _ => True)
      fun c prepared => c.Signed prepared := by
  unfold prepareDeployment
  split
  · exact meets_raise
  · exact prepare_meets none initCode valueWei gasLimit replacing

end Preparing

/-! ## Sending -/

theorem remember_meets : Meets covered MemoryFit (remember tx) (fun c => c.Signed tx) fun _ _ => True := by
  apply Meets.andThen (steady_signed tx) getMemory_meets
  intro memory
  have replaced : ∀ c : ChainState, c.Signed tx ∧ MemoryFit c memory →
      MemoryFit c { memory with lastSent := some tx } := by
    intro c known sent same
    cases same
    exact known.1
  cases memory.lastSent with
  | none => exact setMemory_meets replaced
  | some last =>
    simp only
    split
    · exact setMemory_meets replaced
    · exact meets_pure fun _ _ _ => trivial

theorem rememberUnknown_meets :
    Meets covered MemoryFit (rememberUnknown tx) (fun c => c.Signed tx) fun _ _ => True :=
  remember_meets.bind fun _ => meets_raise

theorem rememberSent_meets :
    Meets covered MemoryFit (rememberSent account tx) (fun c => c.Signed tx) fun _ _ => True :=
  remember_meets.bind fun _ => meets_pure fun _ _ _ => trivial

theorem send_meets : Meets covered MemoryFit (send account tx) (fun c => c.Signed tx) fun _ _ => True := by
  apply ((asked_harmless _ rfl).keeping (steady_signed tx)).bind
  intro reply
  cases reply with
  | error e =>
    cases e with
    | unavailable => exact rememberUnknown_meets
    | response raw revertData =>
      simp only
      split
      · exact rememberSent_meets
      · split
        · apply ((asked_harmless _ rfl).keeping (steady_signed tx)).bind
          intro receipt
          split
          · exact meets_pure fun _ _ _ => trivial
          · exact meets_raise
          · exact meets_raise
        · split
          · exact meets_raise
          · exact rememberUnknown_meets
  | ok returned =>
    simp only
    split
    · exact rememberUnknown_meets
    · exact rememberSent_meets

theorem broadcast_harmless : Harmless covered (broadcast account tx) := by
  apply checkOurs_meets.bind
  intro _
  apply Meets.andThen (steady_signed tx) (status_meets memoryFit_steady)
  intro state
  cases state with
  | mined receipt => exact meets_pure fun _ _ _ => trivial
  | pending => exact meets_pure fun _ _ _ => trivial
  | superseded => exact meets_raise
  | unknown =>
    refine Meets.weaken ?_ (fun c known => known.1) fun _ _ _ holds => holds
    apply ((replay_harmless _ _ _ _).keeping (steady_signed tx)).bind
    exact fun _ => send_meets

theorem sendPrepared_meets {program : Relaying PreparedTransaction}
    (prepared : Meets covered MemoryFit program (fun _ => True) fun c tx => c.Signed tx) :
    Harmless covered (do
      let tx ← program
      storeFirst tx
      let _ ← send account tx
      pure tx) := by
  apply prepared.bind
  intro tx
  have stored : Harmless covered (storeFirst tx) := by
    apply (asked_harmless _ rfl).thenHarmless
    intro went
    split
    · exact harmless_pure
    · exact harmless_raise
  apply (stored.keeping (steady_signed tx)).bind
  intro _
  apply send_meets.bind
  exact fun _ => harmless_pure

theorem operate_harmless (operation : Operation) : Harmless covered (operate account fees operation) := by
  cases operation with
  | prepareCall recipient data valueWei gasLimit replacing => exact (prepare_meets _ _ _ _ _).map
  | prepareDeployment initCode valueWei gasLimit replacing => exact (prepareDeployment_meets _ _ _ _).map
  | sendCall recipient data valueWei gasLimit => exact (sendPrepared_meets (prepare_meets _ _ _ _ _)).map
  | deploy initCode valueWei gasLimit => exact (sendPrepared_meets (prepareDeployment_meets _ _ _ _)).map
  | broadcast prepared => exact broadcast_harmless.map

end QVault.Proof.Chain
