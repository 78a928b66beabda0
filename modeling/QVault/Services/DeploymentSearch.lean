import QVault.Lib.Bisection
import QVault.Chain.Relayer

/-!
# Finding a treasury's deployment

`deployment_of` of `qvault/services/treasury_service.py`: a program that asks the node for counts, blocks,
transactions and receipts.
-/

namespace QVault.Services.DeploymentSearch
open Python Chain Programs Bisection

structure TransactionInfo where
  sender : Address
  nonce : Nat
deriving DecidableEq

inductive Query
  | blockNumber
  | transactionCount (account : Address) (block : Int)
  | blockTransactions (block : Int)
  | transaction (txHash : Bytes)
  | receipt (txHash : Bytes)

abbrev Reply : Query → Type
  | .blockNumber | .transactionCount _ _ => Except RpcError Nat
  | .blockTransactions _ => Except RpcError (List Bytes)
  | .transaction _ => Except RpcError (Option TransactionInfo)
  | .receipt _ => Except RpcError (Option Receipt)

abbrev Search (α : Type) := Program Query Reply Unit RpcError α

def blockNumber : Search Nat := question .blockNumber >>= orRaise
def transactionCount (account : Address) (block : Int) : Search Nat := question (.transactionCount account block) >>= orRaise
def blockTransactions (block : Int) : Search (List Bytes) := question (.blockTransactions block) >>= orRaise
def transaction (txHash : Bytes) : Search (Option TransactionInfo) := question (.transaction txHash) >>= orRaise
def receipt (txHash : Bytes) : Search (Option Receipt) := question (.receipt txHash) >>= orRaise

-- The deployer's transaction of this nonce, among a block's, that created this address
def creationAmong (deployer address : Address) (nonce : Nat) : List Bytes → Search (Option Bytes)
  | [] => return none
  | txHash :: rest => do
    match ← transaction txHash with
    | none => creationAmong deployer address nonce rest
    | some info =>
      if info.sender ≠ deployer ∨ info.nonce ≠ nonce then creationAmong deployer address nonce rest
      else
        match ← receipt txHash with
        | some found =>
          if found.contractAddress = some address then return some txHash else creationAmong deployer address nonce rest
        | none => creationAmong deployer address nonce rest

def nonceOf (createAddress : Address → Nat → Address) (deployer address : Address) (count : Nat) : Option Nat :=
  (List.range count).find? fun nonce => createAddress deployer nonce = address

def deploymentOf (createAddress : Address → Nat → Address) (deployer address : Address) : Search (Option (Text × Int)) := do
  let latest ← blockNumber
  let count ← transactionCount deployer latest
  match nonceOf createAddress deployer address count with
  | none => return none
  | some nonce =>
    let high ← bisect (fun block => do return decide (nonce < (← transactionCount deployer block))) (-1) latest
    let created ← creationAmong deployer address nonce (← blockTransactions high)
    return created.map fun txHash => (text "0x" ++ hexText txHash, high)

/-! ## The chain it reads -/

-- What the deployer's nonces are on a chain: a block's closing count passes a nonce from the block on that
-- includes the transaction with that nonce, which is one transaction, in one block.
structure DeployerChain (createAddress : Address → Nat → Address) (deployer : Address) where
  transactions : Nat → List Bytes
  info : Bytes → Option TransactionInfo
  receipt : Bytes → Option Receipt
  count : Nat → Nat
  grows : Monotone count
  counted : ∀ nonce block, nonce < count block ↔
    ∃ included ≤ block, ∃ txHash ∈ transactions included, info txHash = some ⟨deployer, nonce⟩
  once : ∀ {nonce block block' txHash txHash'}, txHash ∈ transactions block → txHash' ∈ transactions block' →
    info txHash = some ⟨deployer, nonce⟩ → info txHash' = some ⟨deployer, nonce⟩ → block = block' ∧ txHash = txHash'
  creates : ∀ {nonce block txHash found address}, txHash ∈ transactions block → info txHash = some ⟨deployer, nonce⟩ →
    receipt txHash = some found → found.contractAddress = some address → address = createAddress deployer nonce

variable {createAddress : Address → Nat → Address} {deployer : Address}

-- The deployer's transaction of this block created this address.
def DeployerChain.Created (chain : DeployerChain createAddress deployer) (address : Address) (txHash : Bytes) (block : Nat) : Prop :=
  txHash ∈ chain.transactions block ∧ (∃ nonce, chain.info txHash = some ⟨deployer, nonce⟩) ∧
    ∃ found, chain.receipt txHash = some found ∧ found.contractAddress = some address

-- The chain's head, and the one that the program was told
structure Moment where
  head : Nat
  latest : Option Nat

-- The head moves on while the program runs; what is below it stays. The program asks about the deployer, and
-- for blocks from the first to the latest it was told.
def DeployerChain.around (chain : DeployerChain createAddress deployer) : Surroundings Query Reply Moment where
  later before after := before.head ≤ after.head ∧ after.latest = before.latest
  answers moment
    | .blockNumber, answer => answer = .ok moment.head
    | .transactionCount _ block, answer => answer = .ok (chain.count block.toNat)
    | .blockTransactions block, answer => answer = .ok (chain.transactions block.toNat)
    | .transaction txHash, answer => answer = .ok (chain.info txHash)
    | .receipt txHash, answer => answer = .ok (chain.receipt txHash)
  effect moment
    | .blockNumber, _ => { moment with latest := some moment.head }
    | _, _ => moment
  demand moment
    | .transactionCount account block => account = deployer ∧ 0 ≤ block ∧ ∃ latest, moment.latest = some latest ∧ block ≤ latest
    | .blockTransactions block => 0 ≤ block ∧ ∃ latest, moment.latest = some latest ∧ block ≤ latest
    | _ => True

end QVault.Services.DeploymentSearch
