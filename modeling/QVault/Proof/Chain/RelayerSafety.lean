import QVault.Proof.Chain.RelayerMethods

/-!
# At most one transaction in flight can land

What every run of relayer processes keeps, whatever the node answers within its bounds.
-/

namespace QVault.Proof.Chain
open QVault.Chain QVault.Python Programs

variable {covered : Prop} {account : Account}

/-! ## The invariant -/

-- An operation leaves a memory that is fit; a status is a verdict.
def HolderSound (covered : Prop) (c : ChainState) (memory : Memory) (program : Relaying Result) : Prop :=
  ∃ start, Safe (aroundRelayer covered) (Kept MemoryFit start fun _ _ => True) program c memory

def FollowerSound (covered : Prop) (c : ChainState) (tx : PreparedTransaction) (program : Asking Unit TxStatus) :
    Prop :=
  ∃ start, Safe (aroundRelayer covered) (Kept (fun _ _ => True) start (Verdict covered tx)) program c ()

structure ProcessSound (covered : Prop) (c : ChainState) (state : Process) : Prop where
  memory : state.holder = none → MemoryFit c state.memory
  holder : ∀ operation program, state.holder = some (operation, program) → HolderSound covered c state.memory program
  following : ∀ f ∈ state.following, FollowerSound covered c f.1 f.2

structure FleetSound (covered : Prop) (fleet : Fleet) : Prop where
  lawful : ChainLawful fleet.chain
  processes : ∀ p state, fleet.processes p = some state → ProcessSound covered fleet.chain state
  superseded : ∀ tx ∈ fleet.superseded, Verdict covered tx fleet.chain .superseded

section Later
variable {before after : ChainState}

theorem kept_steady {M α : Type} {fit : ChainState → M → Prop} {start : ChainState} {fact : ChainState → α → Prop}
    {memory : M} {result : Except RelayerError α} (remembers : ∀ memory, Steady fun c => fit c memory)
    (steady : ∀ a, Steady fun c => fact c a) (since : (aroundRelayer covered).later before after)
    (kept : Kept fit start fact before memory result) : Kept fit start fact after memory result := by
  obtain ⟨grows, lawful⟩ := since
  obtain ⟨grew, -, ok, holds⟩ := kept
  exact ⟨grew.trans grows, lawful, remembers memory _ _ grows lawful ok,
    fun a same => steady a _ _ grows lawful (holds a same)⟩

theorem later_trans {first second third : ChainState} (early : (aroundRelayer covered).later first second)
    (late : (aroundRelayer covered).later second third) : (aroundRelayer covered).later first third :=
  ⟨early.1.trans late.1, late.2⟩

theorem HolderSound.later {memory : Memory} {program : Relaying Result}
    (sound : HolderSound covered before memory program) (since : (aroundRelayer covered).later before after) :
    HolderSound covered after memory program := by
  obtain ⟨start, safe⟩ := sound
  refine ⟨start, safe_later later_trans ?_ safe since⟩
  intro _ _ _ _ moved kept
  exact kept_steady memoryFit_steady (fun _ => steady_true) moved kept

theorem FollowerSound.later {tx : PreparedTransaction} {program : Asking Unit TxStatus}
    (sound : FollowerSound covered before tx program) (since : (aroundRelayer covered).later before after) :
    FollowerSound covered after tx program := by
  obtain ⟨start, safe⟩ := sound
  refine ⟨start, safe_later later_trans ?_ safe since⟩
  intro _ _ _ _ moved kept
  exact kept_steady (fun _ => steady_true) steady_verdict moved kept

theorem ProcessSound.later {state : Process} (sound : ProcessSound covered before state)
    (since : (aroundRelayer covered).later before after) : ProcessSound covered after state where
  memory idle := memoryFit_steady _ _ _ since.1 since.2 (sound.memory idle)
  holder operation program holds := (sound.holder operation program holds).later since
  following f listed := (sound.following f listed).later since

end Later

/-! ## Steps -/

section Steps
variable {fleet : Fleet} {process : Nat} {state state' : Process}

theorem FleetSound.moved {chain : ChainState} {superseded : List PreparedTransaction} (sound : FleetSound covered fleet)
    (grows : Grows fleet.chain chain) (lawful : ChainLawful chain)
    (found : ∀ tx ∈ superseded, tx ∈ fleet.superseded ∨ Verdict covered tx chain .superseded) :
    FleetSound covered { fleet with chain, superseded } where
  lawful := lawful
  processes p state running := (sound.processes p state running).later ⟨grows, lawful⟩
  superseded tx listed := by
    cases found tx listed with
    | inl earlier => exact steady_verdict _ _ _ grows lawful (sound.superseded tx earlier)
    | inr now => exact now

theorem FleetSound.set (sound : FleetSound covered fleet) (ok : ProcessSound covered fleet.chain state') :
    FleetSound covered (fleet.set process state') where
  lawful := sound.lawful
  processes p state running := by
    simp only [Fleet.set] at running
    split at running
    · cases running
      exact ok
    · exact sound.processes p state running
  superseded := sound.superseded

-- One step of a program, and what it does to the chain
theorem asked_step {M α : Type} {post : ChainState → M → Except RelayerError α → Prop} {program : Asking M α}
    {memory : M} {c : ChainState} {answers : (query : Query) → Reply query} (lawful : ChainLawful c)
    (safe : Safe (aroundRelayer covered) post program c memory)
    (right : ∀ query, c.Honest query (answers query) ∧ (covered → c.Timely query (answers query))) :
    Grows c (c.asked answers program) ∧ ChainLawful (c.asked answers program) ∧
      Safe (aroundRelayer covered) post (program.step answers memory).1 (c.asked answers program)
        (program.step answers memory).2 := by
  have still : (aroundRelayer covered).later c c := ⟨grows_refl c, lawful⟩
  have stepped : Safe (aroundRelayer covered) post (program.step answers memory).1 (c.asked answers program)
      (program.step answers memory).2 := by
    have := safe_step still safe fun query _ => right query
    cases program <;> exact this
  have effect : Grows c (c.asked answers program) ∧ ChainLawful (c.asked answers program) := by
    cases program with
    | ask query next =>
      have demanded := (safe c still).1
      cases query with
      | sign tx => exact sign_kept lawful demanded
      | _ => exact ⟨grows_refl c, lawful⟩
    | _ => exact ⟨grows_refl c, lawful⟩
  exact ⟨effect.1, effect.2, stepped⟩

theorem verdict_of_found {chain : ChainState} {tx : PreparedTransaction} {program : Asking Unit TxStatus}
    (sound : FollowerSound covered chain tx program) (found : foundSuperseded program = true) :
    Verdict covered tx chain .superseded := by
  obtain ⟨start, safe⟩ := sound
  cases program with
  | done result =>
    cases result with
    | error e => cases found
    | ok verdict =>
      obtain ⟨-, -, -, holds⟩ := safe
      cases verdict with
      | superseded => exact holds _ rfl
      | _ => cases found
  | _ => cases found

theorem fit_of_finished {chain : ChainState} {memory : Memory} {program : Relaying Result}
    (sound : HolderSound covered chain memory program) (ended : finished program = true) : MemoryFit chain memory := by
  obtain ⟨start, safe⟩ := sound
  cases program with
  | done result => exact safe.2.2.1
  | _ => cases ended

theorem advanceHolder_sound {answers : (query : Query) → Reply query} (sound : FleetSound covered fleet)
    (running : fleet.processes process = some state)
    (right : ∀ query, fleet.chain.Honest query (answers query) ∧ (covered → fleet.chain.Timely query (answers query))) :
    FleetSound covered (advanceHolder fleet process state answers) := by
  have own := sound.processes process state running
  unfold advanceHolder
  split
  · exact sound
  · rename_i operation program held
    obtain ⟨start, safe⟩ := own.holder operation program held
    obtain ⟨grows, lawful, stepped⟩ := asked_step sound.lawful safe right
    have moved : FleetSound covered { fleet with chain := fleet.chain.asked answers program } :=
      sound.moved grows lawful fun tx listed => .inl listed
    have later : ProcessSound covered (fleet.chain.asked answers program) state := own.later ⟨grows, lawful⟩
    apply moved.set
    refine ⟨?_, ?_, later.following⟩
    · intro idle
      simp only at idle
      split at idle
      · rename_i ended
        exact fit_of_finished ⟨start, stepped⟩ ended
      · cases idle
    · intro operation' program' holds
      simp only at holds
      split at holds
      · cases holds
      · cases holds
        exact ⟨start, stepped⟩

theorem advanceFollower_sound {index : Nat} {answers : (query : Query) → Reply query} (sound : FleetSound covered fleet)
    (running : fleet.processes process = some state)
    (right : ∀ query, fleet.chain.Honest query (answers query) ∧ (covered → fleet.chain.Timely query (answers query))) :
    FleetSound covered (advanceFollower fleet process index state answers) := by
  have own := sound.processes process state running
  unfold advanceFollower
  split
  · exact sound
  · rename_i tx program listed
    obtain ⟨start, safe⟩ := own.following _ (List.mem_of_getElem? listed)
    obtain ⟨grows, lawful, stepped⟩ := asked_step sound.lawful safe right
    have follower : FollowerSound covered (fleet.chain.asked answers program) tx (program.step answers ()).1 :=
      ⟨start, stepped⟩
    have later : ProcessSound covered (fleet.chain.asked answers program) state := own.later ⟨grows, lawful⟩
    have moved : FleetSound covered { fleet with
        chain := fleet.chain.asked answers program,
        superseded := if foundSuperseded (program.step answers ()).1 then tx :: fleet.superseded
          else fleet.superseded } := by
      apply sound.moved grows lawful
      intro other among
      split at among
      · rename_i found
        cases among with
        | head => exact .inr (verdict_of_found follower found)
        | tail _ earlier => exact .inl earlier
      · exact .inl among
    apply moved.set
    refine ⟨later.memory, later.holder, ?_⟩
    intro f among
    simp only at among
    split at among
    · exact later.following f (List.mem_of_mem_eraseIdx among)
    · cases List.mem_or_eq_of_mem_set among with
      | inl other => exact later.following f other
      | inr new =>
        rw [new]
        exact follower

theorem fleetStep_sound (sound : FleetSound covered fleet) (event : FleetEvent)
    (right : Answered covered fleet event) : FleetSound covered (fleetStep account fleet event) := by
  cases event with
  | boot process fees =>
    apply sound.set
    exact ⟨fun _ sent none => (nomatch none), fun _ _ none => (nomatch none), fun _ none => (nomatch none)⟩
  | call process operation =>
    simp only [fleetStep]
    split
    · rename_i fees memory following running
      have own := sound.processes process _ running
      apply sound.set
      refine ⟨fun none => (nomatch none), ?_, own.following⟩
      intro operation' program holds
      cases holds
      exact ⟨fleet.chain, operate_harmless operation _ _ sound.lawful (own.memory rfl) trivial⟩
    · exact sound
  | follow process prepared =>
    simp only [fleetStep]
    split
    · rename_i state running
      have own := sound.processes process _ running
      apply sound.set
      refine ⟨own.memory, own.holder, ?_⟩
      intro f among
      cases among with
      | head =>
        have followed : Meets covered (fun _ (_ : Unit) => True) (status account prepared) (fun _ => True)
            (Verdict covered prepared) :=
          status_meets fun _ => steady_true
        exact ⟨fleet.chain, followed _ _ sound.lawful trivial trivial⟩
      | tail _ earlier => exact own.following f earlier
    · exact sound
  | advance process answers =>
    simp only [fleetStep]
    split
    · rename_i state running
      exact advanceHolder_sound sound running right
    · exact sound
  | advanceFollowing process index answers =>
    simp only [fleetStep]
    split
    · rename_i state running
      exact advanceFollower_sound sound running right
    · exact sound
  | block txs =>
    obtain ⟨grows, lawful⟩ := addBlock_kept sound.lawful txs
    exact sound.moved grows lawful fun tx listed => .inl listed

end Steps

theorem fleet_start_sound (firstNonce head : Nat) : FleetSound covered (Fleet.start firstNonce head) where
  lawful := ⟨trivial, fun _ none => (nomatch none), fun _ none => (nomatch none), fun _ none => (nomatch none)⟩
  processes _ _ none := nomatch none
  superseded _ none := nomatch none

/-! ## Which transactions can land -/

-- Whatever anyone does from here on
def CanLand (account : Account) (fleet : Fleet) (tx : PreparedTransaction) : Prop :=
  ¬fleet.chain.Included tx ∧ ∃ events, (fleetRun account fleet events).chain.Included tx

structure OneInFlight (covered : Prop) (account : Account) (fleet : Fleet) : Prop where
  inTurn : ∀ s ∈ fleet.chain.signed, s.tx.nonce ≤ s.nextNonce
  oneNonce : ∀ tx, fleet.chain.Signed tx → CanLand account fleet tx → tx.nonce = fleet.chain.nextNonce
  exclusive : ∀ event tx other, ¬fleet.chain.Included tx → (fleetStep account fleet event).chain.Included tx →
    fleet.chain.Signed other → ¬CanLand account (fleetStep account fleet event) other
  superseded : ∀ tx ∈ fleet.superseded, ¬CanLand account fleet tx ∧
    (covered → ∀ events, ¬(fleetRun account fleet events).chain.Included tx)

theorem asked_grows {M α : Type} (c : ChainState) (answers : (query : Query) → Reply query) (program : Asking M α) :
    Grows c (c.asked answers program) := by
  cases program with
  | ask query next =>
    cases query with
    | sign tx =>
      exact ⟨rfl, le_refl _, le_refl _, fun s listed => List.mem_cons_of_mem _ listed, fun i listed => listed,
        fun i listed => .inl listed⟩
    | _ => exact grows_refl c
  | _ => exact grows_refl c

theorem addBlock_grows (c : ChainState) (txs : List PreparedTransaction) : Grows c (c.addBlock txs) := by
  have folded : ∀ d : ChainState, Grows d (txs.foldl (fun c tx => c.includeTx c.head tx) d) := by
    induction txs with
    | nil => exact grows_refl
    | cons tx rest ih => exact fun d => (includeTx_grows d.head).trans (ih _)
  have opened : Grows c { c with head := c.head + 1 } :=
    ⟨rfl, Nat.le_succ _, le_refl _, fun _ listed => listed, fun _ listed => listed, fun _ listed => .inl listed⟩
  exact opened.trans (folded _)

theorem fleetStep_grows (fleet : Fleet) (event : FleetEvent) :
    Grows fleet.chain (fleetStep account fleet event).chain := by
  cases event with
  | boot process fees => exact grows_refl _
  | call process operation =>
    simp only [fleetStep]
    split <;> exact grows_refl _
  | follow process prepared =>
    simp only [fleetStep]
    split <;> exact grows_refl _
  | advance process answers =>
    simp only [fleetStep]
    split
    · unfold advanceHolder
      split
      · exact grows_refl _
      · exact asked_grows _ _ _
    · exact grows_refl _
  | advanceFollowing process index answers =>
    simp only [fleetStep]
    split
    · unfold advanceFollower
      split
      · exact grows_refl _
      · exact asked_grows _ _ _
    · exact grows_refl _
  | block txs => exact addBlock_grows _ txs

theorem fleetRun_grows (fleet : Fleet) (events : List FleetEvent) :
    Grows fleet.chain (fleetRun account fleet events).chain := by
  induction events generalizing fleet with
  | nil => exact grows_refl _
  | cons event rest ih => exact (fleetStep_grows fleet event).trans (ih _)

theorem CanLand.nextNonce_le {fleet : Fleet} {tx : PreparedTransaction} (can : CanLand account fleet tx) :
    fleet.chain.nextNonce ≤ tx.nonce := by
  obtain ⟨out, events, landed⟩ := can
  obtain ⟨i, listed, rfl⟩ := List.mem_map.mp landed
  cases (fleetRun_grows fleet events).newer i listed with
  | inl old => exact absurd (List.mem_map.mpr ⟨i, old, rfl⟩) out
  | inr between => exact between.1

theorem FleetSound.oneInFlight {fleet : Fleet} (sound : FleetSound covered fleet) :
    OneInFlight covered account fleet where
  inTurn s listed := (sound.lawful.inTurn s listed).1
  oneNonce tx signed can := le_antisymm (sound.lawful.nonce_le signed) can.nextNonce_le
  exclusive event tx other out landed signed can := by
    have grows : Grows fleet.chain (fleetStep account fleet event).chain := fleetStep_grows fleet event
    have next := can.nextNonce_le
    have low := sound.lawful.nonce_le signed
    obtain ⟨i, listed, rfl⟩ := List.mem_map.mp landed
    cases grows.newer i listed with
    | inl old => exact out (List.mem_map.mpr ⟨i, old, rfl⟩)
    | inr between => omega
  superseded tx listed := by
    obtain ⟨used, never⟩ := sound.superseded tx listed
    constructor
    · intro can
      exact absurd can.nextNonce_le (not_le.mpr used)
    · intro margin events
      exact (fleetRun_grows fleet events).stillOut used (never margin)

theorem one_in_flight (account : Account) (covered : Prop) (firstNonce head : Nat) (events : List FleetEvent)
    (answered : Runs.Guarded (fleetStep account) (Answered covered) (Fleet.start firstNonce head) events) :
    OneInFlight covered account (fleetRun account (Fleet.start firstNonce head) events) := by
  apply FleetSound.oneInFlight
  apply Runs.run_invariant _ _ _ (fleet_start_sound firstNonce head) answered
  exact fun fleet event sound right => fleetStep_sound sound event right

/-! ### A run -/

section Sample

def plainAccount : Account where
  address := 1
  chainId := 11155111
  txHash _ := []
  createAddress _ _ := 2
  normalised t := t

def plainFees : FeePolicy where
  maxBaseFeeWei := 2
  minPriorityFeeWei := 1
  maxPriorityFeeWei := 1
  maxFeePerGasWei := 5
  baseFeeMultiplier := 2
  gasMarginPercent := 20
  priorities := by decide
  multiplier := by decide
  covers := by decide

-- A node that has seen nothing of the account yet, and answers no question about receipts
def laggingNode : (query : Query) → Reply query
  | .receipt _ => .error .unavailable
  | .transaction _ => .ok false
  | .call _ => .ok [1]
  | .sendRaw _ => .ok []
  | .recover _ => false
  | .onPrepared _ => true
  | .sign _ => ()
  | .chainId => .ok 11155111
  | .transactionCount _ => .ok 0
  | .blockNumber => .ok 0
  | .estimateGas _ => .ok 21000
  | .baseFee => .ok 1
  | .maxPriorityFee => .ok 1
  | .balance => .ok 1000000

theorem laggingNode_answered (c : ChainState) (query : Query) :
    c.Honest query (laggingNode query) ∧ (True → c.Timely query (laggingNode query)) := by
  cases query with
  | transactionCount block => cases block <;> exact ⟨by simp [laggingNode, ChainState.Honest], fun _ => by
      simp [laggingNode, ChainState.Timely]⟩
  | blockNumber => exact ⟨trivial, fun _ => Nat.zero_le _⟩
  | recover tx => exact ⟨fun none => (nomatch none), fun _ => trivial⟩
  | _ => exact ⟨trivial, fun _ => trivial⟩

def plainCall : FleetEvent := .call 0 (.sendCall 3 [] 0 none)
def plainTx : PreparedTransaction := ⟨11155111, 1, 0, some 3, 0, [], 25200, 3, 1⟩

-- Signed, sent and included
def plainRun : List FleetEvent :=
  [.boot 0 plainFees, plainCall] ++ List.replicate 17 (.advance 0 laggingNode) ++ [.block [plainTx]]

theorem plainRun_answered : Runs.Guarded (fleetStep plainAccount) (Answered True) (Fleet.start 0 0) plainRun := by
  apply Runs.guarded_of_forall
  intro event listed fleet
  simp only [plainRun, plainCall, List.mem_append, List.mem_cons, List.mem_replicate, List.not_mem_nil, or_false] at listed
  obtain ((rfl | rfl) | ⟨-, rfl⟩) | rfl := listed
  · trivial
  · trivial
  · exact laggingNode_answered fleet.chain
  · trivial

theorem one_in_flight_plain : (fleetRun plainAccount (Fleet.start 0 0) plainRun).chain.nextNonce = 1 ∧
    OneInFlight True plainAccount (fleetRun plainAccount (Fleet.start 0 0) plainRun) := by
  refine ⟨by decide, one_in_flight plainAccount True 0 0 plainRun plainRun_answered⟩

end Sample

end QVault.Proof.Chain
