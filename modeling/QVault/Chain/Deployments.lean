import QVault.Chain.Action
import QVault.Lib.OrderedDict

/-!
# The deployment record

`merge_contracts`, `merge_treasury`, `configurations` and `mark_treasury_unlinked` of `qvault/chain/deployments.py`, on a
record as `load_record` returns it, its entries with the types `record_entry` gives them. A copy through JSON is the
value itself; what these functions only compare is a value of any type whose equality is decided.
-/

namespace QVault.Chain.Deployments

open QVault.Python (Text)
open QVault.Chain

variable {V : Type} [DecidableEq V]

/-! ## The record -/

structure Configuration (V : Type) where
  threshold : Option V
  signers : List V
deriving DecidableEq

-- An item of an entry's `configurations`
structure Later (V : Type) where
  configNonce : Int
  threshold : Option V
  signers : Option (List V)

-- `others` are the keys that are stored and not looked at.
structure TreasuryEntry (V : Type) where
  vaultId : Option V
  verifier : Option V
  deploymentTx : Option V
  threshold : Option V
  signers : Option (List V)
  configNonce : Option Int
  configurations : Option (List (Later V))
  status : Option String
  unlinkedAt : Option String
  others : List (String × V)

structure ContractEntry (V : Type) where
  address : Option V
  deploymentTx : Option V
  runtimeKeccak256 : Option V
  others : List (String × V)

structure Record (V : Type) where
  contracts : OrderedDict String (ContractEntry V)
  treasuries : OrderedDict Text (TreasuryEntry V)

def emptyRecord : Record V := ⟨OrderedDict.empty, OrderedDict.empty⟩

inductive DeploymentError (V : Type)
  | contract (name key : String) (recorded offered : Option V)
  | identity (address : Text) (key : String)
  | wrongNonce (address : Text)
  | configuration (address : Text) (nonce : Int)
  | notRecorded (address : Text)
  -- the ChainValueError of `checksum_address`
  | chainValue (value : Text)

-- The text of a DeploymentError; `shown` and `written` are how a value and an address are printed.
def DeploymentError.message (shown : Option V → String) (written : Text → String) : DeploymentError V → Option String
  | .contract name key recorded offered =>
    some s!"{name} is already recorded with {key} {shown recorded}; a record is never overwritten, so {shown offered} was not recorded"
  | .identity address key => some s!"treasury {written address} is already recorded with a different {key}; a record is never overwritten"
  | .wrongNonce address => some s!"treasury {written address}: config_nonce must be a non-negative integer"
  | .configuration address nonce =>
    some s!"treasury {written address} is already recorded at configuration {nonce} with different signers or threshold; a record is never overwritten"
  | .notRecorded address => some s!"treasury {written address} is not recorded"
  | .chainValue _ => none

/-! ## Contracts -/

def contractKeys (entry : ContractEntry V) : List (String × Option V) :=
  [("address", entry.address), ("deployment_tx", entry.deploymentTx), ("runtime_keccak256", entry.runtimeKeccak256)]

-- The first key at which the two differ, with both values
def firstDifference (recorded offered : List (String × Option V)) : Option (String × Option V × Option V) :=
  (recorded.zip offered).findSome? fun pair => if pair.1.2 ≠ pair.2.2 then some (pair.1.1, pair.1.2, pair.2.2) else none

def mergeContract (state : Record V × List String) (named : String × ContractEntry V) :
    Except (DeploymentError V) (Record V × List String) :=
  match state.1.contracts.get named.1 with
  | none => .ok ({ state.1 with contracts := state.1.contracts.put named.1 named.2 }, state.2 ++ [named.1])
  | some existing =>
    match firstDifference (contractKeys existing) (contractKeys named.2) with
    | some (key, recorded, offered) => .error (.contract named.1 key recorded offered)
    | none => .ok state

def mergeContracts (record : Record V) (entries : OrderedDict String (ContractEntry V)) :
    Except (DeploymentError V) (Record V × List String) :=
  entries.entries.foldlM mergeContract (record, [])

/-! ## Treasuries -/

-- TREASURY_IDENTITY_KEYS
def identityKeys (entry : TreasuryEntry V) : List (String × Option V) :=
  [("vault_id", entry.vaultId), ("verifier", entry.verifier), ("deployment_tx", entry.deploymentTx)]

def offered (entry : TreasuryEntry V) : Configuration V := ⟨entry.threshold, entry.signers.getD []⟩

def TreasuryEntry.nonceOf (entry : TreasuryEntry V) : Int := entry.configNonce.getD 0

def Later.configuration (later : Later V) : Configuration V := ⟨later.threshold, later.signers.getD []⟩

def configurations (entry : TreasuryEntry V) : OrderedDict Int (Configuration V) :=
  (entry.configurations.getD []).foldl (fun known later => known.put later.configNonce later.configuration)
    (OrderedDict.empty.put entry.nonceOf (offered entry))

def byNonce (first second : Later V) : Bool := first.configNonce ≤ second.configNonce

def withConfiguration (existing : TreasuryEntry V) (nonce : Int) (configuration : Configuration V) : TreasuryEntry V :=
  let later : Later V := ⟨nonce, configuration.threshold, some configuration.signers⟩
  { existing with configurations := some ((existing.configurations.getD [] ++ [later]).mergeSort byNonce) }

variable (keccak256 : List UInt8 → BitVec 256)

def mergeTreasury (record : Record V) (address : Text) (entry : TreasuryEntry V) :
    Except (DeploymentError V) (Record V × Bool) :=
  match checksumAddress keccak256 address with
  | none => .error (.chainValue address)
  | some address =>
    match record.treasuries.get address with
    | none => .ok ({ record with treasuries := record.treasuries.put address entry }, true)
    | some existing =>
      match firstDifference (identityKeys existing) (identityKeys entry) with
      | some (key, _, _) => .error (.identity address key)
      | none =>
        let nonce := entry.nonceOf
        if nonce < 0 then .error (.wrongNonce address)
        else
          match (configurations existing).get nonce with
          | some known => if known ≠ offered entry then .error (.configuration address nonce) else .ok (record, false)
          | none =>
            .ok ({ record with treasuries := record.treasuries.put address (withConfiguration existing nonce (offered entry)) }, true)

-- The one change ever made to a recorded treasury
def markTreasuryUnlinked (record : Record V) (address : Text) (moment : String) : Except (DeploymentError V) (Record V) :=
  match checksumAddress keccak256 address with
  | none => .error (.chainValue address)
  | some address =>
    match record.treasuries.get address with
    | none => .error (.notRecorded address)
    | some entry =>
      if entry.status = some "linked" then
        let entry := { entry with status := some "unlinked", unlinkedAt := some moment }
        .ok { record with treasuries := record.treasuries.put address entry }
      else .ok record

/-! ## A record over time -/

inductive Call (V : Type)
  | mergeTreasury (address : Text) (entry : TreasuryEntry V)
  | mergeContracts (entries : OrderedDict String (ContractEntry V))
  | markUnlinked (address : Text) (moment : String)

def Call.apply (record : Record V) : Call V → Except (DeploymentError V) (Record V)
  | .mergeTreasury address entry => (Deployments.mergeTreasury keccak256 record address entry).map Prod.fst
  | .mergeContracts entries => (Deployments.mergeContracts record entries).map Prod.fst
  | .markUnlinked address moment => markTreasuryUnlinked keccak256 record address moment

-- A refused call leaves the record that was given to it.
def after (record : Record V) (call : Call V) : Record V :=
  match call.apply keccak256 record with
  | .ok record => record
  | .error _ => record

def run (record : Record V) (calls : List (Call V)) : Record V := calls.foldl (after keccak256) record

end QVault.Chain.Deployments
