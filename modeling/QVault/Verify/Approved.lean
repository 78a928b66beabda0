import QVault.Verify.Core

/-!
# What an approved decision rests on

Said of a bundle without its verifier: the signatures, the log entries and the signed head that
must be in it.
-/

namespace QVault.Verify
open Python Crypto Transparency Services

def field (value : Json) (key : Text) : Json :=
  match value with
  | .dict fields => Json.get fields key
  | _ => .null

-- The decision of a bundle, with 1.0 read as 1
def decisionOf (bundle : Json) : Json :=
  match integralNumbers (field bundle "decision") with
  | .ok decision => decision
  | .error _ => .null

def logOf (bundle : Json) : Json := field bundle "log"

def checkpointOf (bundle : Json) : Json := field (logOf bundle) "checkpoint"

-- H, from the decision's own fields
def PayloadHash (tools : Tools) (bundle : Json) (payloadHash : Text) : Prop :=
  ∃ decision signers, decisionOf bundle = .dict decision ∧ Json.get decision "authorized_signers" = .list signers ∧
    recomputeHash tools decision (Json.get decision "action") signers = .ok payloadHash

def numberValue : Json.Number → Option Rat
  | .int n => some n
  | .float x => if x.isFinite then some x.toRat else none

def exactValue (value : Json) : Option Rat := value.number?.bind numberValue

/-! ## Votes -/

-- A signature of the bundle by `signerId` over the approving vote
def Approves (tools : Tools) (bundle : Json) (payloadHash : Text) (signerId : Json) (signature : Bytes) : Prop :=
  ∃ signatures entry publicKey message,
    field bundle "signatures" = .list signatures ∧ entry ∈ signatures ∧
    field entry "signer_id" = signerId ∧ field entry "decision" = .str "approve" ∧
    readB64 (field entry "public_key_b64") = .ok publicKey ∧ readB64 (field entry "signature_b64") = .ok signature ∧
    voteSigningBytes payloadHash (.str "approve") signerId = .ok message ∧
    tools.registry.verify (field entry "alg_id") publicKey message signature = true

/-! ## Log entries -/

-- The entry's payload and the entry itself hash to what it says.
def Recomputes (tools : Tools) (raw : Fields) (entryHash : Text) : Prop :=
  ∃ payloadText payload fields,
    Json.get raw "payload_json" = .str payloadText ∧ encodeUtf8 payloadText = .ok payload ∧
    Json.get raw "payload_hash" = .str (sha256Hex tools.sha256 payload) ∧
    readEntryFields raw (Json.get raw "seq") (Json.get raw "payload_hash") = .ok fields ∧
    Transparency.entryHash tools.sha256 fields = .ok entryHash ∧ Json.get raw "entry_hash" = .str entryHash

-- `verify_inclusion` places the entry at its `seq` in the checkpoint's tree.
def Placed (tools : Tools) (checkpoint : Json) (raw : Fields) (entryHash : Text) : Prop :=
  ∃ index leaf proof root,
    (Json.get raw "seq").same index = true ∧ entryLeafHash tools.sha256 entryHash = .ok leaf ∧
    readProof raw = some proof ∧ readHex32 (field checkpoint "root_hash") = .ok root ∧
    verifyInclusionOf tools.sha256 leaf index (field checkpoint "tree_size") proof root = .ok true

def InLog (tools : Tools) (bundle : Json) (raw : Fields) : Prop :=
  ∃ entries entryHash, field (logOf bundle) "entries" = .list entries ∧ .dict raw ∈ entries ∧
    Recomputes tools raw entryHash ∧ Placed tools (checkpointOf bundle) raw entryHash

def PayloadOf (raw : Fields) (payload : Json) : Prop :=
  ∃ t, Json.get raw "payload_json" = .str t ∧ Json.loads t = .ok payload

def RecordsVote (tools : Tools) (bundle signerId : Json) (signature : Bytes) : Prop :=
  ∃ raw payload, InLog tools bundle raw ∧ Json.get raw "event_type" = .str "proposal_signed" ∧
    (Json.get raw "ref_id").eq (field (decisionOf bundle) "proposal_uuid") = true ∧ PayloadOf raw payload ∧
    signerId.same (field payload "signer_id") = true ∧ field payload "decision" = .str "approve" ∧
    field payload "signature_sha256" = .str (sha256Hex tools.sha256 signature)

def RecordsCreation (tools : Tools) (bundle : Json) (payloadHash : Text) : Prop :=
  ∃ raw payload, InLog tools bundle raw ∧ Json.get raw "event_type" = .str "proposal_created" ∧
    PayloadOf raw payload ∧ field payload "payload_hash" = .str payloadHash

/-! ## The signed head -/

-- An absent `head_seq` reads as 0.
def headSeqValue (checkpoint : Json) : Option Rat :=
  match field checkpoint "head_seq" with
  | .null => some 0
  | value => exactValue value

structure SignedHead (tools : Tools) (bundle : Json) : Prop where
  size : ∃ headSeq, headSeqValue (checkpointOf bundle) = some headSeq ∧
    exactValue (field (checkpointOf bundle) "tree_size") = some (headSeq + 1)
  signed : ∃ signed message, readKeyed (field (logOf bundle) "checkpoint_signature") = .ok signed ∧
    checkpointBytes (checkpointOf bundle) = .ok message ∧
    tools.registry.verify signed.algId signed.publicKey message signed.signature = true

-- Adding 1 to the checkpoint's `head_seq` is exact: a float of 2 ^ 53 or more would round.
def headSeqExact (checkpoint : Json) : Bool :=
  match field checkpoint "head_seq" with
  | .null | .bool _ | .int _ => true
  | .float x => x.isFinite && numberValue (.float (x.add (Binary64.round false 1))) == some (x.toRat + 1)
  | _ => false

/-! ## An approved decision -/

structure Approved (tools : Tools) (bundle : Json) (payloadHash : Text) : Prop where
  recomputed : PayloadHash tools bundle payloadHash
  approvals : ∃ (m : Int) (signers : List Json) (approvals : List (Json × Bytes)),
    (field (decisionOf bundle) "required_m").int? = some m ∧
    field (decisionOf bundle) "authorized_signers" = .list signers ∧
    m ≤ approvals.length ∧ (approvals.map fun a => exactValue a.1).Nodup ∧
    ∀ a ∈ approvals, contains signers a.1 = true ∧ Approves tools bundle payloadHash a.1 a.2 ∧
      RecordsVote tools bundle a.1 a.2
  created : RecordsCreation tools bundle payloadHash
  head : SignedHead tools bundle

end QVault.Verify
