import QVault.Python.Loads

/-!
# The witness's storage

`witness/store.py`: the pinned log keys, the co-signed history and the refusals. SQLite hands out
row ids in increasing order; the times a row was written at are not read by any decision.
-/

namespace QVault.Witness
open Python

structure OriginRow where
  origin : Text
  logAlgId : Text
  logPublicKey : Bytes
  deriving DecidableEq

structure CheckpointRow where
  id : Nat
  origin : Text
  treeSize : Int
  rootHash : Text
  statementJson : Text
  cosignature : Bytes
  deriving DecidableEq

-- `ORDER BY tree_size DESC, id DESC`: whether `a` comes before `b`
def CheckpointRow.before (a b : CheckpointRow) : Bool :=
  b.treeSize < a.treeSize || (a.treeSize == b.treeSize && b.id < a.id)

inductive ViolationKind
  | keyChanged | badSignature | shrank | fork | inconsistent
  deriving DecidableEq, Repr

structure ViolationRow where
  origin : Text
  kind : ViolationKind
  offeredJson : Text

structure WitnessStore where
  origins : List OriginRow
  checkpoints : List CheckpointRow
  violations : List ViolationRow

namespace WitnessStore

def empty : WitnessStore := ⟨[], [], []⟩

def knownLog (store : WitnessStore) (origin : Text) : Option OriginRow :=
  store.origins.find? fun row => row.origin = origin

-- `INSERT OR IGNORE`, `origin` being the primary key
def pinLog (store : WitnessStore) (origin algId : Text) (publicKey : Bytes) : WitnessStore :=
  match store.knownLog origin with
  | some _ => store
  | none => { store with origins := store.origins ++ [⟨origin, algId, publicKey⟩] }

def later (best : Option CheckpointRow) (row : CheckpointRow) : Option CheckpointRow :=
  match best with
  | none => some row
  | some found => if row.before found then some row else some found

def latest (store : WitnessStore) (origin : Text) : Option CheckpointRow :=
  (store.checkpoints.filter fun row => row.origin = origin).foldl later none

def nextId (store : WitnessStore) : Nat :=
  store.checkpoints.foldl (fun n row => max n (row.id + 1)) 1

def record (store : WitnessStore) (origin : Text) (treeSize : Int) (rootHash : Text) (statement : Json)
    (cosignature : Bytes) : WitnessStore :=
  { store with
    checkpoints := store.checkpoints ++
      [⟨store.nextId, origin, treeSize, rootHash, statement.dumps .standard, cosignature⟩] }

def recordViolation (store : WitnessStore) (origin : Text) (kind : ViolationKind) (offered : Json) :
    WitnessStore :=
  { store with violations := store.violations ++ [⟨origin, kind, offered.dumps .standard⟩] }

def history (store : WitnessStore) (origin : Text) : List CheckpointRow :=
  store.checkpoints.filter fun row => row.origin = origin

end WitnessStore

end QVault.Witness
