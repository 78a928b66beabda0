import QVault.Services.Checkpoint

/-!
# One process and its leaf cache

The rows of the ledger as the process's session sees them, which a rollback takes back, and the leaves
it has cached. `leaf_hashes` caches what it sees.
-/

namespace QVault.Services
open Python Crypto

structure LeafProcess where
  committed : Ledger
  rows : Ledger
  cache : List Bytes

def LeafProcess.start : LeafProcess := ⟨Ledger.empty, Ledger.empty, []⟩

-- What a call of `leaf_hashes` returns
def leafAnswer (tree : TreeHash) (ledger : Ledger) (cache : List Bytes) : Except LogError (List Bytes) :=
  let (leaves, read) := leafHashes tree ledger cache
  read.map fun _ => leaves

-- `edit` is whatever somebody with the database open does to its rows.
inductive LeafEvent
  | append (timestamp : Text) (event : LedgerEvent)
  | commit
  | rollback
  | edit (rows : Ledger)
  | leafHashes
  | resetLeafCache

def leafStep (sha256 : Bytes → Bytes) (tree : TreeHash) (s : LeafProcess) : LeafEvent → LeafProcess
  | .append timestamp event =>
    match append sha256 s.rows timestamp event with
    | .error _ => s
    | .ok rows => { s with rows }
  | .commit => { s with committed := s.rows }
  | .rollback => { s with rows := s.committed }
  | .edit rows => { s with committed := rows, rows }
  | .leafHashes => { s with cache := (leafHashes tree s.rows s.cache).1 }
  | .resetLeafCache => { s with cache := [] }

-- The leaf of every stored entry, whose sequence numbers are 0, 1, ...
def storedLeaves (tree : TreeHash) (ledger : Ledger) : Option (List Bytes) :=
  if ledger.entries.map (·.seq) = (List.range ledger.entries.length).map Int.ofNat then
    ledger.entries.mapM fun e => (entryLeaf tree e.entryHash).toOption
  else none

end QVault.Services
