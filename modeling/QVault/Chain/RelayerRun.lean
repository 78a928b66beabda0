import QVault.Chain.Relayer
import QVault.Lib.Runs

/-!
# Relayer processes and the chain

Any number of processes sign for one account, start and stop, and ask a node that may lag, refuse
or forget. Blocks include what was signed, in the order of its nonces.
-/

namespace QVault.Chain
open Python Programs

/-! ## The chain -/

structure Inclusion where
  tx : PreparedTransaction
  block : Nat

structure Signing where
  tx : PreparedTransaction
  -- the account's next nonce when it was signed
  nextNonce : Nat

-- The account as the chain has it, newest first, and everything signed for it
structure ChainState where
  firstNonce : Nat
  head : Nat
  included : List Inclusion
  signed : List Signing

namespace ChainState

def nextNonce (c : ChainState) : Nat := c.firstNonce + c.included.length

-- the count a block leaves behind
def countAt (c : ChainState) (block : Nat) : Nat :=
  c.firstNonce + (c.included.filter fun i => i.block ≤ block).length

def Signed (c : ChainState) (tx : PreparedTransaction) : Prop := tx ∈ c.signed.map (·.tx)

def Included (c : ChainState) (tx : PreparedTransaction) : Prop := tx ∈ c.included.map (·.tx)

instance (c : ChainState) (tx : PreparedTransaction) : Decidable (c.Signed tx) :=
  inferInstanceAs (Decidable (tx ∈ _))

-- A transaction is only valid at the account's next nonce.
def includeTx (c : ChainState) (block : Nat) (tx : PreparedTransaction) : ChainState :=
  if c.Signed tx ∧ tx.nonce = c.nextNonce then { c with included := ⟨tx, block⟩ :: c.included } else c

def addBlock (c : ChainState) (txs : List PreparedTransaction) : ChainState :=
  txs.foldl (fun c tx => c.includeTx c.head tx) { c with head := c.head + 1 }

def sign (c : ChainState) (tx : PreparedTransaction) : ChainState :=
  { c with signed := ⟨tx, c.nextNonce⟩ :: c.signed }

-- what a question does to the chain and to the record of what was signed
def effect (c : ChainState) : (query : Query) → Reply query → ChainState
  | .sign tx, _ => c.sign tx
  | _, _ => c

/-! ### What a node may answer -/

-- No count above the true one, no receipt of what was not included. Only this account signs for it.
def Honest (c : ChainState) : (query : Query) → Reply query → Prop
  | .transactionCount .latest, .ok count => count ≤ c.nextNonce
  | .transactionCount (.number _), .ok count => count ≤ c.nextNonce
  | .receipt tx, .ok (some _) => c.Included tx
  | .recover tx, genuine => genuine = true → c.Signed tx
  | _, _ => True

-- The margin covers the lag: what is that deep in the chain has its receipt, and a block's count is
-- not above what the block left.
def Timely (c : ChainState) : (query : Query) → Reply query → Prop
  | .blockNumber, .ok block => block ≤ c.head
  | .transactionCount (.number block), .ok count => count ≤ c.countAt block
  | .receipt tx, .ok none => ∀ i ∈ c.included, i.tx = tx → c.head < i.block + supersededAfterBlocks
  | _, _ => True

end ChainState

/-! ## The processes -/

inductive Operation
  | prepareCall (recipient : Address) (data : Bytes) (valueWei : Int) (gasLimit : Option Int)
      (replacing : Option PreparedTransaction)
  | prepareDeployment (initCode : Bytes) (valueWei : Int) (gasLimit : Option Int)
      (replacing : Option PreparedTransaction)
  | sendCall (recipient : Address) (data : Bytes) (valueWei : Int) (gasLimit : Option Int)
  | deploy (initCode : Bytes) (valueWei : Int) (gasLimit : Option Int)
  | broadcast (prepared : PreparedTransaction)

inductive Result
  | prepared (tx : PreparedTransaction)
  | sent (txHash : Bytes)

section Fleet
variable (account : Account)

def operate (fees : FeePolicy) : Operation → Relaying Result
  | .prepareCall recipient data valueWei gasLimit replacing =>
    Result.prepared <$> prepareCall account fees recipient data valueWei gasLimit replacing
  | .prepareDeployment initCode valueWei gasLimit replacing =>
    Result.prepared <$> prepareDeployment account fees initCode valueWei gasLimit replacing
  | .sendCall recipient data valueWei gasLimit =>
    Result.prepared <$> sendCall account fees recipient data valueWei gasLimit
  | .deploy initCode valueWei gasLimit => Result.prepared <$> deploy account fees initCode valueWei gasLimit
  | .broadcast prepared => Result.sent <$> broadcast account prepared

-- One `Relayer`: what it remembers, the operation that holds its lock, and the transactions other
-- threads are following, which takes no lock.
structure Process where
  fees : FeePolicy
  memory : Memory
  holder : Option (Operation × Relaying Result)
  following : List (PreparedTransaction × Asking Unit TxStatus)

def Process.start (fees : FeePolicy) : Process := ⟨fees, ⟨false, none⟩, none, []⟩

structure Fleet where
  chain : ChainState
  processes : Nat → Option Process
  -- what was found superseded, by `status`
  superseded : List PreparedTransaction

inductive FleetEvent
  | boot (process : Nat) (fees : FeePolicy)
  | call (process : Nat) (operation : Operation)
  | follow (process : Nat) (prepared : PreparedTransaction)
  -- one step of what a process is doing, with what is answered if it asks
  | advance (process : Nat) (answers : (query : Query) → Reply query)
  | advanceFollowing (process index : Nat) (answers : (query : Query) → Reply query)
  | block (txs : List PreparedTransaction)

def Fleet.set (fleet : Fleet) (process : Nat) (state : Process) : Fleet :=
  { fleet with processes := fun p => if p = process then some state else fleet.processes p }

def finished {M α : Type} : Asking M α → Bool
  | .done _ => true
  | _ => false

def foundSuperseded : Asking Unit TxStatus → Bool
  | .done (.ok .superseded) => true
  | _ => false

-- what one step of a program does to the chain
def ChainState.asked (c : ChainState) {M α : Type} (answers : (query : Query) → Reply query)
    (program : Asking M α) : ChainState :=
  match program.question with
  | some query => c.effect query (answers query)
  | none => c

def advanceHolder (fleet : Fleet) (process : Nat) (state : Process) (answers : (query : Query) → Reply query) : Fleet :=
  match state.holder with
  | none => fleet
  | some (operation, program) =>
    let stepped := program.step answers state.memory
    let holder := if finished stepped.1 then none else some (operation, stepped.1)
    { fleet with chain := fleet.chain.asked answers program }.set process { state with memory := stepped.2, holder }

def advanceFollower (fleet : Fleet) (process index : Nat) (state : Process)
    (answers : (query : Query) → Reply query) : Fleet :=
  match state.following[index]? with
  | none => fleet
  | some (tx, program) =>
    let stepped := (program.step answers ()).1
    let following := if finished stepped then state.following.eraseIdx index
      else state.following.set index (tx, stepped)
    let superseded := if foundSuperseded stepped then tx :: fleet.superseded else fleet.superseded
    { fleet with chain := fleet.chain.asked answers program, superseded }.set process { state with following }

def fleetStep (fleet : Fleet) : FleetEvent → Fleet
  | .boot process fees => fleet.set process (.start fees)
  | .call process operation =>
    match fleet.processes process with
    | some ⟨fees, memory, none, following⟩ =>
      fleet.set process ⟨fees, memory, some (operation, operate account fees operation), following⟩
    | _ => fleet
  | .follow process prepared =>
    match fleet.processes process with
    | some state =>
      fleet.set process { state with following := (prepared, status account prepared) :: state.following }
    | none => fleet
  | .advance process answers =>
    match fleet.processes process with
    | some state => advanceHolder fleet process state answers
    | none => fleet
  | .advanceFollowing process index answers =>
    match fleet.processes process with
    | some state => advanceFollower fleet process index state answers
    | none => fleet
  | .block txs => { fleet with chain := fleet.chain.addBlock txs }

-- The answers given are honest ones, and timely where the margin is assumed to cover the lag.
def Answered (covered : Prop) (fleet : Fleet) : FleetEvent → Prop
  | .advance _ answers | .advanceFollowing _ _ answers =>
    ∀ query, fleet.chain.Honest query (answers query) ∧ (covered → fleet.chain.Timely query (answers query))
  | _ => True

def Fleet.start (firstNonce head : Nat) : Fleet := ⟨⟨firstNonce, head, [], []⟩, fun _ => none, []⟩

def fleetRun (fleet : Fleet) (events : List FleetEvent) : Fleet := Runs.run (fleetStep account) fleet events

end Fleet

end QVault.Chain
