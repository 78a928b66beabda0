import QVault.Crypto

/-!
# The bytes that are hashed and signed

`qvault/transparency/statement.py`, and the two SHA-256 prefixes of `merkle.py`.
-/

namespace QVault.Transparency
open Python Crypto

def entryDs : Bytes := asciiBytes "QVAULT-LEDGER-v1|"
def checkpointDs : Bytes := asciiBytes "QVAULT-CHECKPOINT-v1|"
def witnessDs : Bytes := asciiBytes "QVAULT-WITNESS-v1|"

def leafHash (sha256 : Bytes → Bytes) (data : Bytes) : Bytes := sha256 (0x00 :: data)

def hashChildren (sha256 : Bytes → Bytes) (left right : Bytes) : Bytes :=
  sha256 (0x01 :: (left ++ right))

structure EntryFields where
  seq : Json
  timestamp : Json
  actor : Json
  actorId : Json
  eventType : Json
  vaultId : Json
  refType : Json
  refId : Json
  payloadHash : Json
  prevHash : Json

def EntryFields.toJson (e : EntryFields) : Json :=
  .dict [("seq", e.seq), ("timestamp", e.timestamp), ("actor", e.actor), ("actor_id", e.actorId),
    ("event_type", e.eventType), ("vault_id", e.vaultId), ("ref_type", e.refType), ("ref_id", e.refId),
    ("payload_hash", e.payloadHash), ("prev_hash", e.prevHash)]

def entryHash (sha256 : Bytes → Bytes) (e : EntryFields) : Except PyError Text := do
  return sha256Hex sha256 (entryDs ++ (← canonicalJson e.toJson))

def entryLeafHash (sha256 : Bytes → Bytes) (entryHashHex : Text) : Except PyError Bytes := do
  return leafHash sha256 (← fromHex entryHashHex)

def checkpointStatement (origin : Text) (treeSize : Int) (rootHash : Text) (headSeq : Int)
    (headHash timestamp : Text) : Json :=
  .dict [("origin", .str origin), ("tree_size", .int treeSize), ("root_hash", .str rootHash),
    ("head_seq", .int headSeq), ("head_hash", .str headHash), ("timestamp", .str timestamp)]

def checkpointBytes (statement : Json) : Except PyError Bytes := do
  return checkpointDs ++ (← canonicalJson statement)

def witnessBytes (witness : Json) (statement : Json) : Except PyError Bytes := do
  return witnessDs ++ (← canonicalJson (.dict [("witness", witness), ("checkpoint", statement)]))

end QVault.Transparency
