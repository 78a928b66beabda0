import QVault.Proof.Services.Statements

/-!
# The head of the ledger determines its history

Two tables that `verify_chain` accepts and that end in one entry hash are one table, by induction
from their ends; and where it rejects a table it names the first broken row.
-/

namespace QVault.Proof.LedgerHistory
open QVault.Python QVault.Services QVault.Transparency QVault.Crypto Results QVault.Proof.Canonical
open QVault.Proof.Statements QVault.Proof.Codecs

variable {sha256 : Bytes → Bytes}

variable (sha256) in
structure Intact (prev : Text) (e : LedgerEntry) : Prop where
  link : e.prevHash = prev
  hash : entryHash sha256 e.fields = .ok e.entryHash
  payload : (encodeUtf8 e.payloadJson).map (sha256Hex sha256) = .ok e.payloadHash

-- What `verify_chain` finds wrong with a row
variable (sha256) in
inductive Broken (prev : Text) (e : LedgerEntry) : Prop
  | link (differs : e.prevHash ≠ prev)
  | hash {recomputed : Text} (made : entryHash sha256 e.fields = .ok recomputed) (differs : recomputed ≠ e.entryHash)
  | payload {bytes : Bytes} (encoded : encodeUtf8 e.payloadJson = .ok bytes)
      (differs : sha256Hex sha256 bytes ≠ e.payloadHash)

variable (sha256) in
def Chained (prev : Text) : List LedgerEntry → Prop
  | [] => True
  | e :: rest => Intact sha256 prev e ∧ Chained e.entryHash rest

-- `prev` is what the first row is chained to.
def headHash (prev : Text) (rows : List LedgerEntry) : Text := (rows.getLast?.map (·.entryHash)).getD prev

theorem headHash_cons (prev : Text) (e : LedgerEntry) (rows : List LedgerEntry) :
    headHash prev (e :: rows) = headHash e.entryHash rows := by
  unfold headHash
  rw [List.getLast?_cons]
  cases rows.getLast? <;> rfl

theorem chained_concat {prev : Text} {rows : List LedgerEntry} {e : LedgerEntry}
    (chained : Chained sha256 prev (rows ++ [e])) : Chained sha256 prev rows ∧ Intact sha256 (headHash prev rows) e := by
  induction rows generalizing prev with
  | nil => exact ⟨trivial, chained.1⟩
  | cons first rest ih =>
    obtain ⟨later, last⟩ := ih chained.2
    rw [headHash_cons]
    exact ⟨⟨chained.1, later⟩, last⟩

/-! ## The loop -/

theorem verifyFrom_ok {prev : Text} {rows : List LedgerEntry} {intact : Bool} {seq : Option Int}
    (checked : verifyFrom sha256 prev rows = .ok (intact, seq)) :
    (intact = true ∧ seq = none ∧ Chained sha256 prev rows) ∨
      (intact = false ∧ ∃ before e after, rows = before ++ e :: after ∧ seq = some e.seq ∧
        Chained sha256 prev before ∧ Broken sha256 (headHash prev before) e) := by
  induction rows generalizing prev with
  | nil =>
    cases checked
    exact .inl ⟨rfl, rfl, trivial⟩
  | cons e rest ih =>
    have here : ∀ {result : Except PyError (Bool × Option Int)}, result = .ok (false, some e.seq) →
        result = .ok (intact, seq) → Broken sha256 prev e →
        (intact = false ∧ ∃ before e' after, e :: rest = before ++ e' :: after ∧ seq = some e'.seq ∧
          Chained sha256 prev before ∧ Broken sha256 (headHash prev before) e') := by
      intro result found same broken
      cases found.symm.trans same
      exact ⟨rfl, [], e, rest, rfl, rfl, trivial, broken⟩
    unfold verifyFrom at checked
    split at checked
    · next differs => exact .inr (here rfl checked (.link differs))
    · next link =>
      obtain ⟨recomputed, made, checked⟩ := bind_eq_ok.mp checked
      split at checked
      · next differs => exact .inr (here rfl checked (.hash made differs))
      · next hash =>
        obtain ⟨payload, encoded, checked⟩ := bind_eq_ok.mp checked
        split at checked
        · next differs => exact .inr (here rfl checked (.payload encoded differs))
        · next bound =>
          have whole : Intact sha256 prev e :=
            ⟨not_not.mp link, by rw [made, not_not.mp hash], by rw [encoded]; exact congrArg Except.ok (not_not.mp bound)⟩
          rcases ih checked with ⟨yes, none, later⟩ | ⟨no, before, e', after, cut, at', earlier, broken⟩
          · exact .inl ⟨yes, none, whole, later⟩
          · refine .inr ⟨no, e :: before, e', after, by rw [cut]; rfl, at', ⟨whole, earlier⟩, ?_⟩
            rw [headHash_cons]
            exact broken

/-! ## Rows with one hash -/

def hashedFields (e : LedgerEntry) : HashedFields :=
  ⟨e.seq, e.timestamp, e.actor, e.actorId, e.eventType, e.vaultId, e.refType, e.refId, e.payloadHash, e.prevHash⟩

theorem entryHash_fields {e : LedgerEntry} {hash : Text} (made : entryHash sha256 e.fields = .ok hash) :
    ∃ bytes, (Statement.ledgerEntry (hashedFields e)).bytes = .ok bytes ∧ hash = sha256Hex sha256 bytes := by
  have same : entryHash sha256 e.fields = _ := entryHash_eq sha256 (hashedFields e)
  rw [same] at made
  obtain ⟨bytes, stated, hashed⟩ := map_eq_ok.mp made
  exact ⟨bytes, stated, hashed.symm⟩

section CollisionFree
variable (collisionFree : Function.Injective sha256)
include collisionFree

theorem sha256Hex_injective : Function.Injective (sha256Hex sha256) :=
  fun _ _ same => collisionFree (hexText_injective same)

theorem intact_unique {prev prev' : Text} {e e' : LedgerEntry} (intact : Intact sha256 prev e)
    (intact' : Intact sha256 prev' e') (same : e.entryHash = e'.entryHash) : e = e' := by
  obtain ⟨bytes, stated, hashed⟩ := entryHash_fields intact.hash
  obtain ⟨bytes', stated', hashed'⟩ := entryHash_fields intact'.hash
  have preimage : bytes = bytes' := sha256Hex_injective collisionFree (hashed.symm.trans (same.trans hashed'))
  have sorted : (Statement.ledgerEntry (hashedFields e)).sorted = (Statement.ledgerEntry (hashedFields e')).sorted :=
    bytes_determine stated (preimage ▸ stated')
  have fields : hashedFields e = hashedFields e' := Statement.ledgerEntry.inj sorted
  have payloadHash : e.payloadHash = e'.payloadHash := congrArg HashedFields.payloadHash fields
  obtain ⟨payload, encoded, bound⟩ := map_eq_ok.mp intact.payload
  obtain ⟨payload', encoded', bound'⟩ := map_eq_ok.mp intact'.payload
  have stored : payload = payload' := sha256Hex_injective collisionFree (bound.trans (payloadHash.trans bound'.symm))
  have payloadJson : e.payloadJson = e'.payloadJson := encodeUtf8_injective encoded (stored ▸ encoded')
  cases e
  cases e'
  simp_all [hashedFields]

-- No row hashes to what the first row is chained to.
theorem not_genesis {prev : Text} {e : LedgerEntry} (intact : Intact sha256 prev e) :
    e.entryHash ≠ genesisPrevHex sha256 := by
  intro same
  obtain ⟨bytes, stated, hashed⟩ := entryHash_fields intact.hash
  have preimage := sha256Hex_injective collisionFree (hashed.symm.trans same)
  obtain ⟨body, _, cut⟩ := bytes_ok stated
  have starts : Domain.ledgerEntry.tag <+: asciiBytes "QVAULT-LEDGER-GENESIS-v1" := by
    rw [← preimage, cut]
    exact List.prefix_append _ _
  have tested := List.isPrefixOf_iff_prefix.mpr starts
  exact absurd tested (by decide)

theorem chained_unique {rows rows' : List LedgerEntry} (chained : Chained sha256 (genesisPrevHex sha256) rows)
    (chained' : Chained sha256 (genesisPrevHex sha256) rows')
    (same : headHash (genesisPrevHex sha256) rows = headHash (genesisPrevHex sha256) rows') : rows = rows' := by
  induction rows using List.reverseRecOn generalizing rows' with
  | nil =>
    induction rows' using List.reverseRecOn with
    | nil => rfl
    | append_singleton before' e' _ =>
      obtain ⟨_, last'⟩ := chained_concat chained'
      exact absurd (by simpa [headHash] using same.symm) (not_genesis collisionFree last')
  | append_singleton before e ih =>
    obtain ⟨earlier, last⟩ := chained_concat chained
    induction rows' using List.reverseRecOn with
    | nil => exact absurd (by simpa [headHash] using same) (not_genesis collisionFree last)
    | append_singleton before' e' _ =>
      obtain ⟨earlier', last'⟩ := chained_concat chained'
      have row : e = e' := intact_unique collisionFree last last' (by simpa [headHash] using same)
      subst row
      rw [ih earlier earlier' (last.link.symm.trans last'.link)]

theorem ledger_head_determines_history :
    (∀ rows rows' : List LedgerEntry, rows ≠ [] → rows' ≠ [] → verifyChain sha256 rows = .ok (true, none) →
      verifyChain sha256 rows' = .ok (true, none) →
      rows.getLast?.map (·.entryHash) = rows'.getLast?.map (·.entryHash) → rows = rows') ∧
    ∀ rows seq, verifyChain sha256 rows = .ok (false, seq) → ∃ before e after, rows = before ++ e :: after ∧
      seq = some e.seq ∧ Chained sha256 (genesisPrevHex sha256) before ∧
      Broken sha256 (headHash (genesisPrevHex sha256) before) e := by
  constructor
  · intro rows rows' _ _ passed passed' same
    have chained : ∀ {rows}, verifyChain sha256 rows = .ok (true, none) →
        Chained sha256 (genesisPrevHex sha256) rows := by
      intro rows passed
      rcases verifyFrom_ok passed with ⟨_, _, chained⟩ | ⟨no, _⟩
      · exact chained
      · cases no
    exact chained_unique collisionFree (chained passed) (chained passed') (by rw [headHash, same]; rfl)
  · intro rows seq failed
    rcases verifyFrom_ok failed with ⟨yes, _⟩ | ⟨_, found⟩
    · cases yes
    · exact found

end CollisionFree

section Sample

-- With the bytes as their own hash
def sampleLedger : List LedgerEntry :=
  match genesis id "2026-01-01T00:00:00.000Z" with
  | .ok first => [first]
  | .error _ => []

def alteredLedger : List LedgerEntry := sampleLedger.map fun e => { e with payloadJson := "{}" }

set_option maxRecDepth 20000 in
theorem ledger_head_determines_history_altered :
    (∃ before e after, alteredLedger = before ++ e :: after ∧ some 0 = some e.seq ∧
      Chained id (genesisPrevHex id) before ∧ Broken id (headHash (genesisPrevHex id) before) e) ∧
    sampleLedger = sampleLedger.map fun e => { e with actorId := none } := by
  obtain ⟨same, found⟩ := ledger_head_determines_history Function.injective_id
  refine ⟨found alteredLedger (some 0) (by decide), ?_⟩
  exact same _ _ (by decide) (by decide) (by decide) (by decide) (by decide)

end Sample

end QVault.Proof.LedgerHistory
