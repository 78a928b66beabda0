import QVault.Transparency.Statement
import Mathlib.Tactic

/-!
# The audit ledger

`qvault/services/ledger_service.py` and the table it writes. `seq` is unique in the table and every
query orders by it, so the table is its rows in the order of `seq`.
-/

namespace QVault.Services
open Python Crypto Transparency

structure LedgerEntry where
  seq : Int
  timestamp : Text
  eventType : Text
  actor : Text
  actorId : Option Int
  vaultId : Option Int
  refType : Option Text
  refId : Option Text
  payloadJson : Text
  payloadHash : Text
  prevHash : Text
  entryHash : Text
  deriving DecidableEq

structure Ledger where
  entries : List LedgerEntry
  ordered : entries.Pairwise fun a b => a.seq < b.seq

def optionInt : Option Int → Json
  | some n => .int n
  | none => .null

def optionText : Option Text → Json
  | some s => .str s
  | none => .null

-- the arguments `append` and `ensure_genesis` give to `compute_entry_hash`
def LedgerEntry.fields (e : LedgerEntry) : EntryFields where
  seq := .int e.seq
  timestamp := .str e.timestamp
  actor := .str e.actor
  actorId := optionInt e.actorId
  eventType := .str e.eventType
  vaultId := optionInt e.vaultId
  refType := optionText e.refType
  refId := optionText e.refId
  payloadHash := .str e.payloadHash
  prevHash := .str e.prevHash

namespace Ledger

def empty : Ledger := ⟨[], List.Pairwise.nil⟩

-- `_last_entry`
def last (ledger : Ledger) : Option LedgerEntry := ledger.entries.getLast?

def atSeq (ledger : Ledger) (seq : Int) : Option LedgerEntry := ledger.entries.find? fun e => e.seq = seq

theorem seq_le_last {ledger : Ledger} {e head : LedgerEntry} (member : e ∈ ledger.entries)
    (last : ledger.last = some head) : e.seq ≤ head.seq := by
  obtain ⟨before, split⟩ := List.getLast?_eq_some_iff.mp last
  have ordered := ledger.ordered
  rw [split, List.pairwise_append] at ordered
  rw [split] at member
  rcases List.mem_append.mp member with inside | final
  · exact (ordered.2.2 e inside head List.mem_cons_self).le
  · rw [List.mem_singleton.mp final]

-- A row after the last one keeps the table in order.
def push (ledger : Ledger) (e : LedgerEntry) (after : ∀ head, ledger.last = some head → head.seq < e.seq) :
    Ledger where
  entries := ledger.entries ++ [e]
  ordered := by
    rw [List.pairwise_append]
    refine ⟨ledger.ordered, List.pairwise_singleton _ _, ?_⟩
    intro a member b new
    rw [List.mem_singleton.mp new]
    cases last : ledger.last with
    | none =>
      rw [Ledger.last, List.getLast?_eq_none_iff] at last
      simp [last] at member
    | some head => exact lt_of_le_of_lt (seq_le_last member last) (after head last)

end Ledger

structure LedgerEvent where
  eventType : Text
  payload : Json
  actor : Text
  actorId : Option Int
  vaultId : Option Int
  refType : Option Text
  refId : Option Text

section Append
variable (sha256 : Bytes → Bytes)

def genesisPrevHex : Text := sha256Hex sha256 (asciiBytes "QVAULT-LEDGER-GENESIS-v1")

-- The row for an event, given the sequence number and the hash it is chained to.
def sealEntry (seq : Int) (prevHash timestamp : Text) (event : LedgerEvent) : Except PyError LedgerEntry := do
  let payloadBytes ← canonicalJson event.payload
  let unsealed : LedgerEntry :=
    { seq, timestamp, eventType := event.eventType, actor := event.actor, actorId := event.actorId,
      vaultId := event.vaultId, refType := event.refType, refId := event.refId,
      payloadJson := event.payload.dumps .canonical, payloadHash := sha256Hex sha256 payloadBytes,
      prevHash, entryHash := [] }
  return { unsealed with entryHash := ← entryHash sha256 unsealed.fields }

def genesisEvent : LedgerEvent :=
  ⟨"genesis", .dict [("note", "QVAULT ledger genesis")], "SYSTEM", none, none, none, none⟩

theorem sealEntry_seq {seq : Int} {prevHash timestamp : Text} {event : LedgerEvent} {e : LedgerEntry}
    (made : sealEntry sha256 seq prevHash timestamp event = .ok e) : e.seq = seq := by
  unfold sealEntry at made
  cases payload : canonicalJson event.payload with
  | error error => simp [payload, bind, Except.bind] at made
  | ok bytes =>
    simp only [payload, bind, Except.bind] at made
    split at made
    · cases made
    · simp only [pure, Except.pure, Except.ok.injEq] at made
      rw [← made]

-- Chain one more event to the head of a ledger that has one.
def appendTo (ledger : Ledger) (head : LedgerEntry) (last : ledger.last = some head) (timestamp : Text)
    (event : LedgerEvent) : Except PyError Ledger :=
  match made : sealEntry sha256 (head.seq + 1) head.entryHash timestamp event with
  | .error error => .error error
  | .ok e => .ok (ledger.push e (by
      intro other same
      rw [last, Option.some.injEq] at same
      rw [sealEntry_seq sha256 made, same]
      omega))

-- `ensure_genesis` on an empty table
def genesis (timestamp : Text) : Except PyError LedgerEntry :=
  sealEntry sha256 0 (genesisPrevHex sha256) timestamp genesisEvent

def append (ledger : Ledger) (timestamp : Text) (event : LedgerEvent) : Except PyError Ledger :=
  match last : ledger.last with
  | some head => appendTo sha256 ledger head last timestamp event
  | none =>
    match genesis sha256 timestamp with
    | .error error => .error error
    | .ok first =>
      appendTo sha256 (ledger.push first (by simp [last])) first (by simp [Ledger.last, Ledger.push]) timestamp
        event

/-! ## Checking the table -/

-- The loop of `verify_chain`
def verifyFrom (expectedPrev : Text) : List LedgerEntry → Except PyError (Bool × Option Int)
  | [] => .ok (true, none)
  | e :: rest => do
    if e.prevHash ≠ expectedPrev then return (false, some e.seq)
    else
      let recomputed ← entryHash sha256 e.fields
      if recomputed ≠ e.entryHash then return (false, some e.seq)
      else
        let payload ← encodeUtf8 e.payloadJson
        if sha256Hex sha256 payload ≠ e.payloadHash then return (false, some e.seq)
        else verifyFrom e.entryHash rest

def verifyChain (entries : List LedgerEntry) : Except PyError (Bool × Option Int) :=
  verifyFrom sha256 (genesisPrevHex sha256) entries

end Append

-- `ANCHOR_DS`
def anchorDs : Bytes := asciiBytes "QVAULT-LEDGER-ANCHOR-v1|"

def anchorMessage (seq : Int) (headHash : Text) : Except PyError Bytes := do
  return anchorDs ++ (← canonicalJson (.dict [("seq", .int seq), ("head_hash", .str headHash)]))

end QVault.Services
