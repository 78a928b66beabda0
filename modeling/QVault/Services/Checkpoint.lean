import QVault.Services.Ledger
import QVault.Transparency.Merkle

/-!
# Signed tree heads over the ledger

`qvault/services/checkpoint_service.py`: the leaf cache, the checkpoints and the co-signatures kept
beside them. A query that fails part of the way leaves the cache as far as it got.
-/

namespace QVault.Services
open Python Crypto Transparency

structure TreeHash where
  leaf : Bytes → Bytes
  children : Bytes → Bytes → Bytes
  empty : Bytes

def TreeHash.ofSha256 (sha256 : Bytes → Bytes) : TreeHash where
  leaf := leafHash sha256
  children := hashChildren sha256
  empty := sha256 []

def TreeHash.root (tree : TreeHash) (leaves : List Bytes) : Bytes :=
  merkleRoot tree.children tree.empty leaves

structure WitnessCosignature where
  id : Nat
  checkpointId : Nat
  witnessName : Text
  algId : Text
  publicKey : Bytes
  signature : Bytes

structure LogCheckpoint where
  id : Nat
  origin : Text
  treeSize : Int
  rootHash : Text
  headSeq : Int
  headHash : Text
  timestamp : Text
  algId : Text
  publicKey : Bytes
  signature : Bytes

def LogCheckpoint.statement (checkpoint : LogCheckpoint) : Json :=
  checkpointStatement checkpoint.origin checkpoint.treeSize checkpoint.rootHash checkpoint.headSeq
    checkpoint.headHash checkpoint.timestamp

structure SystemKey where
  algId : Text
  publicKey : Bytes
  secretKey : Bytes

structure Log where
  ledger : Ledger
  leafCache : List Bytes
  checkpoints : List LogCheckpoint
  cosignatures : List WitnessCosignature
  systemKey : Option SystemKey

def Log.empty : Log := ⟨Ledger.empty, [], [], [], none⟩

structure SignatureProvider where
  keygen : Nat → Bytes × Bytes
  sign : Bytes → Bytes → Bytes
  verify : Bytes → Bytes → Bytes → Bool

structure LogConfig where
  sha256 : Bytes → Bytes
  tree : TreeHash
  origin : Text
  activeSignatureAlg : Text
  provider : Text → Option SignatureProvider

inductive LogError
  | gap (expected : Nat) (found : Int)
  | emptyLedger
  | sizeMismatch (leaves : Nat) (headSeq : Int)
  | secondRoot
  | selfVerification
  | noEntries
  | notCovered
  | unknownAlgorithm
  | raised (error : PyError)

/-! ## Leaves -/

def entryLeaf (tree : TreeHash) (entryHash : Text) : Except LogError Bytes :=
  match fromHex entryHash with
  | .ok data => .ok (tree.leaf data)
  | .error error => .error (.raised error)

-- `if tip is None or entry_leaf_hash(tip) != cache[-1]: cache.clear()`
def validCache (tree : TreeHash) (ledger : Ledger) (cache : List Bytes) : Except LogError (List Bytes) :=
  match cache.getLast? with
  | none => .ok []
  | some newest =>
    match ledger.atSeq (cache.length - 1) with
    | none => .ok []
    | some tip => (entryLeaf tree tip.entryHash).map fun leaf => if leaf = newest then cache else []

def extendLeaves (tree : TreeHash) : List LedgerEntry → List Bytes → List Bytes × Except LogError Unit
  | [], cache => (cache, .ok ())
  | row :: rows, cache =>
    if row.seq ≠ cache.length then (cache, .error (.gap cache.length row.seq))
    else match entryLeaf tree row.entryHash with
      | .error error => (cache, .error error)
      | .ok leaf => extendLeaves tree rows (cache ++ [leaf])

-- `leaf_hashes`: the cache it leaves behind, which is also what it returns.
def leafHashes (tree : TreeHash) (ledger : Ledger) (cache : List Bytes) :
    List Bytes × Except LogError Unit :=
  match validCache tree ledger cache with
  | .error error => (cache, .error error)
  | .ok cache => extendLeaves tree (ledger.entries.filter fun row => (cache.length : Int) ≤ row.seq) cache

/-! ## Checkpoints -/

-- `ORDER BY tree_size DESC, id DESC`
def LogCheckpoint.before (a b : LogCheckpoint) : Bool :=
  b.treeSize < a.treeSize || (a.treeSize == b.treeSize && b.id < a.id)

def laterCheckpoint (best : Option LogCheckpoint) (row : LogCheckpoint) : Option LogCheckpoint :=
  match best with
  | none => some row
  | some found => if row.before found then some row else some found

def newestCheckpoint (rows : List LogCheckpoint) : Option LogCheckpoint := rows.foldl laterCheckpoint none

def Log.latestCheckpoint (log : Log) : Option LogCheckpoint := newestCheckpoint log.checkpoints

def Log.nextCheckpointId (log : Log) : Nat := log.checkpoints.foldl (fun n row => max n (row.id + 1)) 1

-- `ensure_system_key`, `seed` being the randomness of a key that has to be made
def ensureSystemKey (config : LogConfig) (log : Log) (seed : Nat) : Except LogError (SystemKey × Log) :=
  match log.systemKey with
  | some key => .ok (key, log)
  | none =>
    match config.provider config.activeSignatureAlg with
    | none => .error .unknownAlgorithm
    | some provider =>
      let pair := provider.keygen seed
      let key : SystemKey := ⟨config.activeSignatureAlg, pair.1, pair.2⟩
      .ok (key, { log with systemKey := some key })

-- Sign the statement over `leaves` and `head`, and store it.
def signCheckpoint (config : LogConfig) (log : Log) (leaves : List Bytes) (head : LedgerEntry)
    (timestamp : Text) (seed : Nat) : Except LogError (LogCheckpoint × Log) := do
  let root := hexText (config.tree.root leaves)
  let statement := checkpointStatement config.origin leaves.length root head.seq head.entryHash timestamp
  let (key, log) ← ensureSystemKey config log seed
  match config.provider key.algId with
  | none => throw .unknownAlgorithm
  | some provider =>
    let message ← (checkpointBytes statement).mapError .raised
    let signature := provider.sign key.secretKey message
    if !provider.verify key.publicKey message signature then throw .selfVerification
    else
      let checkpoint : LogCheckpoint :=
        ⟨log.nextCheckpointId, config.origin, leaves.length, root, head.seq, head.entryHash, timestamp,
          key.algId, key.publicKey, signature⟩
      return (checkpoint, { log with checkpoints := log.checkpoints ++ [checkpoint] })

-- What a call did: the state it left, and the checkpoint with the leaves it was signed over if it
-- signed one, or else the stored checkpoint it returned.
inductive Outcome
  | signed (checkpoint : LogCheckpoint) (leaves : List Bytes)
  | existing (checkpoint : LogCheckpoint)
  | nothing
  | raised (error : LogError)

def createCheckpoint (config : LogConfig) (log : Log) (timestamp : Text) (seed : Nat) : Log × Outcome :=
  let (leaves, read) := leafHashes config.tree log.ledger log.leafCache
  let log := { log with leafCache := leaves }
  match read with
  | .error error => (log, .raised error)
  | .ok () =>
    match log.ledger.last with
    | none => (log, .raised .emptyLedger)
    | some head =>
      if (leaves.length : Int) ≠ head.seq + 1 then
        (log, .raised (.sizeMismatch leaves.length head.seq))
      -- the demonstration step reads `leaves[0]`
      else if leaves = [] then (log, .raised (.raised .indexError))
      else
        match log.latestCheckpoint with
        | some existing =>
          if existing.treeSize = leaves.length then
            if existing.rootHash ≠ hexText (config.tree.root leaves) then (log, .raised .secondRoot)
            else (log, .existing existing)
          else sign config log leaves head
        | none => sign config log leaves head
where
  sign (config : LogConfig) (log : Log) (leaves : List Bytes) (head : LedgerEntry) : Log × Outcome :=
    match signCheckpoint config log leaves head timestamp seed with
    | .error error => (log, .raised error)
    | .ok (checkpoint, log) => (log, .signed checkpoint leaves)

-- `verify_consistency` against the last signed root, with the proof made from the present leaves
def consistentWith (tree : TreeHash) (leaves : List Bytes) (last : LogCheckpoint) : Except LogError Bool :=
  match consistencyProof tree.children tree.empty leaves last.treeSize, fromHex last.rootHash with
  | .ok proof, .ok oldRoot =>
    .ok (verifyConsistency tree.children last.treeSize oldRoot leaves.length (tree.root leaves) proof)
  | _, _ => .error (.raised .valueError)

def maybeCheckpoint (config : LogConfig) (log : Log) (timestamp : Text) (seed : Nat) : Log × Outcome :=
  let (leaves, read) := leafHashes config.tree log.ledger log.leafCache
  let log := { log with leafCache := leaves }
  match read with
  | .error (.raised error) => (log, .raised (.raised error))
  | .error _ => (log, .nothing)
  | .ok () =>
    if leaves = [] then (log, .nothing)
    else match log.latestCheckpoint with
      | none => createCheckpoint config log timestamp seed
      | some last =>
        if (leaves.length : Int) ≤ last.treeSize then (log, .nothing)
        else match consistentWith config.tree leaves last with
          | .error error => (log, .raised error)
          | .ok false => (log, .nothing)
          | .ok true => createCheckpoint config log timestamp seed

/-! ## The witness's co-signatures -/

inductive WitnessPin
  | unset
  | pinned (value : Text)
  | invalid

def keyFingerprint (sha256 : Bytes → Bytes) (publicKey : Bytes) : Text := (sha256Hex sha256 publicKey).take 16

def WitnessPin.accepts (pin : WitnessPin) (fingerprint : Text) : Bool :=
  match pin with
  | .unset => true
  | .pinned value => fingerprint == value
  | .invalid => false

def Log.trustedCosignatures (sha256 : Bytes → Bytes) (pin : WitnessPin) (log : Log)
    (checkpoint : LogCheckpoint) : List WitnessCosignature :=
  log.cosignatures.filter fun c =>
    c.checkpointId == checkpoint.id && pin.accepts (keyFingerprint sha256 c.publicKey)

def oldestCheckpoint (rows : List LogCheckpoint) : Option LogCheckpoint :=
  rows.foldl (fun best row =>
    match best with
    | none => some row
    | some found => if found.before row then some row else some found) none

-- `checkpoint_covering`: the oldest witnessed one, failing that the newest.
def Log.checkpointCovering (sha256 : Bytes → Bytes) (pin : WitnessPin) (log : Log) (seq : Int) :
    Option LogCheckpoint :=
  let covering := log.checkpoints.filter fun c => seq < c.treeSize
  match oldestCheckpoint (covering.filter fun c => !(log.trustedCosignatures sha256 pin c).isEmpty) with
  | some witnessed => some witnessed
  | none => newestCheckpoint covering

end QVault.Services
