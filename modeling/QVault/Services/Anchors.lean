import QVault.Services.Checkpoint

/-!
# Anchors of the ledger's head

The SYSTEM key's signatures over the head (`anchor_head`, `maybe_anchor`, `verify_ledger` of
`qvault/services/ledger_service.py`), and the table over time: appends, anchors, and somebody editing
the ledger's rows behind both.
-/

namespace QVault.Services
open Python Crypto

structure LedgerAnchor where
  seq : Int
  headHash : Text
  algId : Text
  keyId : Nat
  signature : Bytes

-- A row of the keys' table. A public key is bound to the master key by its MAC.
structure KeyRow where
  ownerId : Option Int
  signing : Bool
  masterWrapped : Bool
  active : Bool
  algId : Text
  publicKey : Bytes
  publicKeyMac : Option Bytes
  secretKey : Bytes

def KeyRow.ofSystem (key : KeyRow) : Bool := key.signing && key.masterWrapped && key.ownerId.isNone

structure AnchorConfig where
  sha256 : Bytes → Bytes
  activeSignatureAlg : Text
  provider : Text → Option SignatureProvider
  mac : Bytes → Bytes

structure Archive where
  ledger : Ledger
  anchors : List LedgerAnchor
  keys : List KeyRow

def Archive.empty : Archive := ⟨Ledger.empty, [], []⟩

inductive AnchorError
  | unknownAlgorithm
  | unverified (seq : Int)
  | raised (error : PyError)

section Anchors
variable (config : AnchorConfig)

-- `ensure_system_key`, with the position of the key's row
def Archive.ensureSystemKey (archive : Archive) (seed : Nat) : Except AnchorError (Nat × KeyRow × Archive) :=
  match archive.keys.zipIdx.find? fun k => k.1.ofSystem && k.1.active with
  | some (key, id) => .ok (id, key, archive)
  | none =>
    match config.provider config.activeSignatureAlg with
    | none => .error .unknownAlgorithm
    | some provider =>
      let pair := provider.keygen seed
      let key : KeyRow :=
        { ownerId := none, signing := true, masterWrapped := true, active := true,
          algId := config.activeSignatureAlg, publicKey := pair.1, publicKeyMac := some (config.mac pair.1),
          secretKey := pair.2 }
      .ok (archive.keys.length, key, { archive with keys := archive.keys ++ [key] })

-- `ORDER BY seq DESC, id DESC`
def laterAnchor (best : Option LedgerAnchor) (row : LedgerAnchor) : Option LedgerAnchor :=
  match best with
  | some found => if found.seq ≤ row.seq then some row else some found
  | none => some row

def Archive.latestAnchor (archive : Archive) : Option LedgerAnchor := archive.anchors.foldl laterAnchor none

-- `anchor_head` over a table that has a head
def anchorHead (archive : Archive) (head : LedgerEntry) (seed : Nat) : Except AnchorError Archive := do
  let (keyId, key, archive) ← archive.ensureSystemKey config seed
  match config.provider key.algId with
  | none => throw .unknownAlgorithm
  | some provider =>
    let message ← (anchorMessage head.seq head.entryHash).mapError .raised
    let signature := provider.sign key.secretKey message
    if !provider.verify key.publicKey message signature then throw (.unverified head.seq)
    else
      return { archive with anchors := archive.anchors ++ [⟨head.seq, head.entryHash, key.algId, keyId, signature⟩] }

-- Whether `maybe_anchor` goes on to sign over `head`
def Archive.extends (archive : Archive) (head : LedgerEntry) : Bool :=
  match archive.latestAnchor with
  | none => true
  | some last =>
    last.seq < head.seq && (archive.ledger.atSeq last.seq).any fun row => row.entryHash = last.headHash

def maybeAnchor (archive : Archive) (seed : Nat) : Except AnchorError Archive :=
  match archive.ledger.last with
  | none => .ok archive
  | some head => if archive.extends head then anchorHead config archive head seed else .ok archive

-- A row goes where its `seq` puts it.
def insertRow (ledger : Ledger) (e : LedgerEntry) : Ledger where
  entries := (ledger.entries.filter fun row => row.seq < e.seq) ++ e ::
    ledger.entries.filter fun row => e.seq < row.seq
  ordered := by
    rw [List.pairwise_append, List.pairwise_cons]
    refine ⟨ledger.ordered.filter _, ⟨?_, ledger.ordered.filter _⟩, ?_⟩
    · intro later member
      simpa using (List.mem_filter.mp member).2
    · intro earlier member later among
      have below : earlier.seq < e.seq := by simpa using (List.mem_filter.mp member).2
      rcases List.mem_cons.mp among with rfl | above
      · exact below
      · have beyond : e.seq < later.seq := by simpa using (List.mem_filter.mp above).2
        omega

-- `ensure_genesis`
def ensureGenesis (archive : Archive) (timestamp : Text) : Except AnchorError Archive :=
  match archive.ledger.atSeq 0 with
  | some _ => .ok archive
  | none =>
    ((genesis config.sha256 timestamp).mapError .raised).map fun first =>
      { archive with ledger := insertRow archive.ledger first }

-- The part of `seed_initial_data` that makes the first entry and the first anchor
def bootstrap (archive : Archive) (timestamp : Text) (seed : Nat) : Except AnchorError Archive := do
  let archive ← ensureGenesis config archive timestamp
  match archive.latestAnchor, archive.ledger.last with
  | none, some head => anchorHead config archive head seed
  | _, _ => return archive

/-! ## Checking -/

def verifyAnchor (archive : Archive) (anchor : LedgerAnchor) : Except PyError Bool :=
  match archive.keys[anchor.keyId]? with
  | none => .ok false
  | some key =>
    if !key.ofSystem || key.publicKeyMac != some (config.mac key.publicKey) then .ok false
    else match config.provider anchor.algId with
      | none => .error .keyError
      | some provider =>
        (anchorMessage anchor.seq anchor.headHash).map fun message =>
          provider.verify key.publicKey message anchor.signature

structure LedgerReport where
  ok : Bool
  chainOk : Bool
  chainBreakSeq : Option Int
  headSeq : Option Int
  anchorPresent : Bool
  anchorOk : Bool
  anchorCoversHead : Bool
  anchorSeq : Option Int

def coversHead (anchor : Option LedgerAnchor) (head : Option LedgerEntry) : Bool :=
  match anchor, head with
  | some anchor, some head => anchor.seq == head.seq && anchor.headHash == head.entryHash
  | _, _ => false

def anchorVerifies (archive : Archive) : Option LedgerAnchor → Except PyError Bool
  | none => .ok false
  | some anchor => verifyAnchor config archive anchor

def verifyLedger (archive : Archive) : Except PyError LedgerReport := do
  let (chainOk, chainBreakSeq) ← verifyChain config.sha256 archive.ledger.entries
  let head := archive.ledger.last
  let anchor := archive.latestAnchor
  let anchorOk ← anchorVerifies config archive anchor
  let anchorCoversHead := coversHead anchor head
  return { ok := chainOk && anchor.isSome && anchorOk && anchorCoversHead, chainOk, chainBreakSeq,
           headSeq := head.map (·.seq), anchorPresent := anchor.isSome, anchorOk, anchorCoversHead,
           anchorSeq := anchor.map (·.seq) }

end Anchors

/-! ## Runs -/

-- The rows above the newest anchor, all of them when there is none
def Archive.added (archive : Archive) : List LedgerEntry :=
  match archive.latestAnchor with
  | none => archive.ledger.entries
  | some last => archive.ledger.entries.filter fun row => last.seq < row.seq

-- `covered` remembers what the newest anchor covers: what the one before covered, and the rows added
-- above it when this one was signed.
structure ArchiveHistory where
  archive : Archive
  covered : List LedgerEntry

def ArchiveHistory.start : ArchiveHistory := ⟨Archive.empty, []⟩

inductive ArchiveEvent
  | bootstrap (timestamp : Text) (seed : Nat)
  | append (timestamp : Text) (event : LedgerEvent)
  | maybeAnchor (seed : Nat)
  | edit (ledger : Ledger)

def ArchiveHistory.after (history : ArchiveHistory) (result : Except AnchorError Archive) : ArchiveHistory :=
  match result with
  | .error _ => history
  | .ok archive =>
    if archive.anchors.length = history.archive.anchors.length then { history with archive }
    else ⟨archive, history.covered ++ { history.archive with ledger := archive.ledger }.added⟩

def archiveStep (config : AnchorConfig) (history : ArchiveHistory) : ArchiveEvent → ArchiveHistory
  | .bootstrap timestamp seed => history.after (bootstrap config history.archive timestamp seed)
  | .append timestamp event =>
    match append config.sha256 history.archive.ledger timestamp event with
    | .error _ => history
    | .ok ledger => { history with archive := { history.archive with ledger } }
  | .maybeAnchor seed => history.after (maybeAnchor config history.archive seed)
  | .edit ledger => { history with archive := { history.archive with ledger } }

-- The archive that a step signs the head of, if it signs
def signsOver (config : AnchorConfig) (archive : Archive) : ArchiveEvent → Option Archive
  | .maybeAnchor _ => if archive.ledger.last.any archive.extends then some archive else none
  | .bootstrap timestamp _ =>
    match ensureGenesis config archive timestamp with
    | .ok archive => if archive.latestAnchor.isNone then some archive else none
    | .error _ => none
  | _ => none

end QVault.Services
