import QVault.Proof.Verify.Entries

/-!
# An accepted approved decision was approved, in the log

The stages of `verify_bundle` put together.
-/

namespace QVault.Proof.Verify
open QVault.Verify QVault.Python QVault.Crypto QVault.Transparency QVault.Services Results

variable {tools : Tools} {opened : Opened} {voted : Voted}

/-! ## The size of the tree -/

theorem exactValue_of_equalsNumber {value : Json} {n : Json.Number} (equal : equalsNumber value n = true) :
    exactValue value = numberValue n := by
  unfold equalsNumber at equal
  unfold exactValue
  cases number : value.number? with
  | none => simp [number] at equal
  | some m =>
    simp only [number, Option.map_some, Option.getD_some] at equal
    exact numberValue_of_eq equal

theorem zero_add_one {x : Binary64} (zero : x.isZero = true) :
    x.isFinite = true ∧ x.toRat = 0 ∧ numberValue (.float (x.add (Binary64.round false 1))) = some 1 := by
  have one : numberValue (.float (Binary64.round false 1)) = some 1 ∧ (Binary64.round false 1).toRat = 1 ∧
      (Binary64.round false 1).isFinite = true ∧ (Binary64.round false 1).isZero = false ∧
      (Binary64.round false 1).isNan = false := by decide +kernel
  simp only [Binary64.isZero, Bool.and_eq_true, beq_iff_eq] at zero
  have value : x.toRat = 0 := by simp [Binary64.toRat, zero.2]
  refine ⟨zero.1, value, ?_⟩
  have sum : x.add (Binary64.round false 1) = Binary64.round false 1 := by
    have positive : decide ((1 : Rat) < 0) = false := by decide
    simp [Binary64.add, Binary64.isNan, zero.1, one.2.1, one.2.2.1, one.2.2.2.1, value, positive]
  rw [sum, one.1]

theorem plusOne_exact {checkpoint : Fields} {next : Json.Number}
    (stepped : plusOne (headSeqOrZero checkpoint) = .ok next) :
    (∃ headSeq, headSeqValue (.dict checkpoint) = some headSeq ∧ numberValue next = some (headSeq + 1)) ↔
      headSeqExact (.dict checkpoint) = true := by
  unfold headSeqOrZero at stepped
  unfold headSeqValue headSeqExact
  simp only [field]
  cases given : Json.get checkpoint "head_seq" with
  | null =>
    simp only [given, Json.truthy, Bool.false_eq_true, if_false, plusOne, Json.number?, Except.ok.injEq] at stepped
    subst stepped
    simp [numberValue]
  | bool b =>
    cases b <;> simp only [given, Json.truthy, Bool.false_eq_true, if_false, if_true, plusOne, Json.number?,
      Except.ok.injEq] at stepped
    · subst stepped
      simp [numberValue, exactValue, Json.number?]
    · subst stepped
      have two : (2 : Rat) = 1 + 1 := by norm_num
      simp [numberValue, exactValue, Json.number?, two]
  | int n =>
    have sum : .int (n + 1) = next := by
      by_cases zero : n = 0
      · subst zero
        simpa [given, Json.truthy, plusOne, Json.number?] using stepped
      · simpa [given, Json.truthy, zero, plusOne, Json.number?] using stepped
    subst sum
    simp [numberValue, exactValue, Json.number?]
  | float x =>
    cases zero : x.isZero with
    | true =>
      obtain ⟨finite, value, sum⟩ := zero_add_one zero
      simp only [given, Json.truthy, zero, Bool.not_true, Bool.false_eq_true, if_false, plusOne, Json.number?,
        Except.ok.injEq] at stepped
      subst stepped
      have one : numberValue (.int 1) = some 1 := by simp [numberValue]
      simp [finite, value, sum, one, exactValue, Json.number?, numberValue.eq_2]
    | false =>
      simp only [given, Json.truthy, zero, Bool.not_false, if_true, plusOne, Json.number?, Except.ok.injEq] at stepped
      subst stepped
      cases finite : x.isFinite with
      | true => simp [exactValue, Json.number?, numberValue, finite]
      | false => simp [exactValue, Json.number?, numberValue, finite]
  | str s =>
    simp [exactValue, Json.number?]
  | list items =>
    simp [exactValue, Json.number?]
  | dict fields =>
    simp [exactValue, Json.number?]

theorem verifyKeyed_true {signed : KeyedSignature} {message : Except PyError Bytes}
    (valid : verifyKeyed tools signed message = .ok true) :
    ∃ bytes, message = .ok bytes ∧ tools.registry.verify signed.algId signed.publicKey bytes signed.signature = true := by
  unfold verifyKeyed at valid
  simp only [bind_eq_ok, raising_eq_ok] at valid
  obtain ⟨known, -, valid⟩ := valid
  split at valid
  · cases valid
  · simp only [bind_eq_ok, raising_eq_ok, pure_eq_ok] at valid
    exact valid

theorem checkCheckpoint_passes {log checkpoint : Fields} {logSha : Option Text}
    (passed : Passes (checkCheckpoint tools log checkpoint) logSha) :
    (∃ next, plusOne (headSeqOrZero checkpoint) = .ok next ∧
      equalsNumber (Json.get checkpoint "tree_size") next = true) ∧
    ∃ signed message, readKeyed (Json.get log "checkpoint_signature") = .ok signed ∧
      checkpointBytes (.dict checkpoint) = .ok message ∧
      tools.registry.verify signed.algId signed.publicKey message signed.signature = true := by
  unfold checkCheckpoint at passed
  simp only [passes_bind, passes_step] at passed
  obtain ⟨next, stepped, passed⟩ := passed
  split at passed
  · simp [passes_bind] at passed
  · rename_i equal
    simp only [passes_bind, passes_step, passes_add, need_eq_ok] at passed
    obtain ⟨value, ⟨_, here, present⟩, signed, readable, _, valid, -, rfl, -⟩ := passed
    cases here
    obtain ⟨message, encoded, valid⟩ := verifyKeyed_true valid
    refine ⟨⟨next, stepped, by simpa using equal⟩, signed, message, ?_, encoded, valid⟩
    rw [get_of_lookup present]
    exact readable

/-! ## The bundle -/

structure Accepted (tools : Tools) (fields : Fields) (opened : Opened) (voted : Voted)
    (entries : List (Json × Fields)) (log checkpoint : Fields) : Prop where
  reads : Reads fields opened
  votes : CastVotes tools opened voted
  isLog : opened.log = .dict log
  read : ReadEntries tools (.dict log) entries
  bound : BoundVotes tools opened voted entries
  isCheckpoint : Json.get log "checkpoint" = .dict checkpoint
  included : ∃ root, readHex32 (Json.get checkpoint "root_hash") = .ok root ∧
    ∀ e ∈ entries, includedEntry tools (Json.get checkpoint "tree_size") root e = .ok true
  grown : ∃ next, plusOne (headSeqOrZero checkpoint) = .ok next ∧
    equalsNumber (Json.get checkpoint "tree_size") next = true
  signed : ∃ signed message, readKeyed (Json.get log "checkpoint_signature") = .ok signed ∧
    checkpointBytes (.dict checkpoint) = .ok message ∧
    tools.registry.verify signed.algId signed.publicKey message signed.signature = true

theorem verifyBundle_ok {bundle : Json} {expectLog expectWitness : Option Json}
    (accepted : (verifyBundle tools bundle expectLog expectWitness).ok = true) :
    ∃ fields opened voted entries log checkpoint,
      bundle = .dict fields ∧ Accepted tools fields opened voted entries log checkpoint := by
  obtain ⟨_, passed⟩ := report_ok accepted
  unfold verifyInto at passed
  simp only [passes_bind, passes_step, asDict_eq_ok] at passed
  obtain ⟨fields, rfl, format, -, -, -, opened, read, voted, votes, entries, readEntries, payloads, bound, -, -,
    checkpoint, placed, log, isLog, logSha, signed, -⟩ := passed
  rw [isLog] at readEntries placed
  obtain ⟨isCheckpoint, included⟩ := checkInclusion_passes placed
  obtain ⟨grown, signed⟩ := checkCheckpoint_passes signed
  exact ⟨fields, opened, voted, entries, log, checkpoint, rfl, readBundle_ok read, checkVotes_passes votes, isLog,
    checkEntries_passes readEntries, checkBinding_passes bound, isCheckpoint, included, grown, signed⟩

section Bundle
variable {fields log checkpoint : Fields} {entries : List (Json × Fields)}

theorem Accepted.logOf (accepted : Accepted tools fields opened voted entries log checkpoint) :
    Verify.logOf (.dict fields) = .dict log := by
  rw [Verify.logOf, field, accepted.reads.log, accepted.isLog]

theorem Accepted.checkpointOf (accepted : Accepted tools fields opened voted entries log checkpoint) :
    Verify.checkpointOf (.dict fields) = .dict checkpoint := by
  rw [Verify.checkpointOf, accepted.logOf]
  exact accepted.isCheckpoint

theorem Accepted.inLog (accepted : Accepted tools fields opened voted entries log checkpoint)
    {e : Json × Fields} (there : e ∈ entries) : InLog tools (.dict fields) e.2 := by
  obtain ⟨items, isList, listed⟩ := accepted.read.listed
  obtain ⟨entryHash, recomputes⟩ := accepted.read.recomputes e there
  obtain ⟨root, readRoot, included⟩ := accepted.included
  obtain ⟨entryHash', leaf, proof, present, hashed, readable, placed⟩ := includedEntry_true (included e there)
  refine ⟨items, entryHash, ?_, listed e there, recomputes, ?_⟩
  · rw [accepted.logOf]
    exact isList
  · obtain ⟨_, _, _, -, -, -, -, -, hashPresent⟩ := recomputes
    cases hashPresent.symm.trans present
    rw [accepted.checkpointOf]
    exact ⟨e.1, leaf, proof, root, accepted.read.bySeq e there, hashed, readable, readRoot, placed⟩

theorem Accepted.approves (accepted : Accepted tools fields opened voted entries log checkpoint)
    {s : Verified} (there : s ∈ voted.verified) (vote : s.decision = .str "approve") :
    Approves tools (.dict fields) voted.payloadHash s.signerId s.signature ∧
      RecordsVote tools (.dict fields) s.signerId s.signature := by
  constructor
  · obtain ⟨entry, listed, readable⟩ := accepted.votes.signed s there
    obtain ⟨publicKey, message, signer, decision, key, signature, signed, valid⟩ := readSignature_some readable
    rw [vote] at decision signed
    exact ⟨opened.signatures, entry, publicKey, message, accepted.reads.signatures, listed, signer, decision, key,
      signature, signed, valid⟩
  · obtain ⟨e, inEntries, payload, isSigned, refers, isPayload, signer, decision, signature⟩ :=
      accepted.bound.signed s there
    rw [vote, same_str] at decision
    refine ⟨e.2, payload, accepted.inLog inEntries, isSigned, ?_, isPayload, signer, decision, signature⟩
    rw [accepted.reads.decision]
    exact refers

theorem Accepted.created (accepted : Accepted tools fields opened voted entries log checkpoint) :
    RecordsCreation tools (.dict fields) voted.payloadHash := by
  obtain ⟨e, inEntries, payload, isCreated, isPayload, hash⟩ := accepted.bound.created
  exact ⟨e.2, payload, accepted.inLog inEntries, isCreated, isPayload, hash⟩

theorem Accepted.head (accepted : Accepted tools fields opened voted entries log checkpoint) :
    SignedHead tools (.dict fields) ↔ headSeqExact (Verify.checkpointOf (.dict fields)) = true := by
  obtain ⟨next, stepped, equal⟩ := accepted.grown
  rw [accepted.checkpointOf, ← plusOne_exact stepped, ← exactValue_of_equalsNumber equal]
  constructor
  · intro head
    simpa [accepted.checkpointOf, field] using head.size
  · intro size
    constructor
    · rw [accepted.checkpointOf]
      exact size
    · rw [accepted.checkpointOf, accepted.logOf]
      exact accepted.signed

theorem int_of_number {value : Json} {n : Json.Number} (integral : ∀ x, value ≠ .float x)
    (number : Verify.number value = .ok n) : ∃ m, value.int? = some m ∧ n = .int m := by
  cases value with
  | bool b =>
    cases number
    exact ⟨_, rfl, rfl⟩
  | int m =>
    cases number
    exact ⟨m, rfl, rfl⟩
  | float x => exact absurd rfl (integral x)
  | _ => cases number

theorem Accepted.threshold (accepted : Accepted tools fields opened voted entries log checkpoint)
    (approved : Json.get opened.decision "status" = .str "approved") :
    ∃ m, (Json.get opened.decision "required_m").int? = some m ∧
      m ≤ countVotes voted.signers voted.verified "approve" := by
  have met := accepted.votes.threshold
  unfold Verify.threshold at met
  simp only [approved, eq_str.mpr, if_true, bind_eq_ok, pure_eq_ok] at met
  obtain ⟨n, isNumber, met⟩ := met
  have integral : ∀ x, Json.get opened.decision "required_m" ≠ .float x := by
    intro x
    cases present : Json.lookup "required_m" opened.decision with
    | none => simp [Json.get, present]
    | some value =>
      rw [get_of_lookup present]
      exact accepted.reads.integral _ value present x
  obtain ⟨m, isInt, rfl⟩ := int_of_number integral isNumber
  refine ⟨m, isInt, ?_⟩
  simpa [Json.Number.lt] using met

theorem Accepted.approved (accepted : Accepted tools fields opened voted entries log checkpoint)
    (approved : Json.get opened.decision "status" = .str "approved")
    (head : SignedHead tools (.dict fields)) : Approved tools (.dict fields) voted.payloadHash := by
  refine ⟨⟨opened.decision, voted.signers, accepted.reads.decision, accepted.votes.signers, ?_⟩, ?_,
    accepted.created, head⟩
  · rw [← accepted.reads.action]
    exact accepted.votes.hash
  · obtain ⟨m, required, enough⟩ := accepted.threshold approved
    let approvals := voted.verified.filter fun s =>
      s.decision.eq (.str "approve") && contains voted.signers s.signerId
    refine ⟨m, voted.signers, approvals.map fun s => (s.signerId, s.signature), ?_, ?_, ?_, ?_, ?_⟩
    · rw [accepted.reads.decision]
      exact required
    · rw [accepted.reads.decision]
      exact accepted.votes.signers
    · simpa [approvals, countVotes] using enough
    · rw [List.map_map]
      have distinct := exactValue_nodup accepted.votes.noRepeats fun s there => by
        obtain ⟨signer, listed, same⟩ := List.any_eq_true.mp (accepted.votes.listed s there)
        exact exactValue_of_same (accepted.votes.ints signer listed) same
      exact distinct.sublist (List.filter_sublist.map _)
    · intro a there
      obtain ⟨s, kept, rfl⟩ := List.mem_map.mp there
      simp only [approvals, List.mem_filter, Bool.and_eq_true, eq_str] at kept
      obtain ⟨inVerified, vote, listed⟩ := kept
      exact ⟨listed, accepted.approves inVerified vote⟩

end Bundle

theorem approved_bundle_sound (tools : Tools) (bundle : Json) (expectLog expectWitness : Option Json)
    (accepted : (verifyBundle tools bundle expectLog expectWitness).ok = true)
    (approved : field (decisionOf bundle) "status" = .str "approved") :
    (∃ payloadHash, Approved tools bundle payloadHash) ↔ headSeqExact (checkpointOf bundle) = true := by
  obtain ⟨fields, opened, voted, entries, log, checkpoint, rfl, stages⟩ := verifyBundle_ok accepted
  rw [stages.reads.decision] at approved
  rw [← stages.head]
  constructor
  · rintro ⟨payloadHash, holds⟩
    exact holds.head
  · intro head
    exact ⟨voted.payloadHash, stages.approved approved head⟩

/-! ## A head that is not the size it says -/

section Sample

-- No two inputs have one digest: `top` is the only one whose digest is the sample's root.
def sampleHash (top x : Bytes) : Bytes := if x = top then List.replicate 32 0 else 1 :: x

def sampleAlg : Text := "ML-DSA-65"

def sampleTools (top : Bytes) : Tools where
  sha256 := sampleHash top
  keccak256 := sampleHash top
  registry := ⟨fun algId => if algId = sampleAlg then some fun _ _ _ => true else none⟩

def sampleProposal : ProposalFields where
  vaultId := .int 1
  proposalUuid := "u"
  actionText := "Pay"
  fileSha256 := .null
  requiredM := .int 1
  requiredN := .int 1
  authorizedSigners := [.int 1]
  nonceHex := "00"
  createdAtIso := "t"
  action := .null

def okOr {ε α : Type} (default : α) (x : Except ε α) : α := x.toOption.getD default

def sampleHashHex : Text := sha256Hex (sampleHash []) (okOr [] (proposalSigningBytes sampleProposal))

def sampleDecision : Json := .dict
  [("vault_id", sampleProposal.vaultId), ("proposal_uuid", sampleProposal.proposalUuid),
    ("action_text", sampleProposal.actionText), ("required_m", sampleProposal.requiredM),
    ("required_n", sampleProposal.requiredN), ("authorized_signers", .list sampleProposal.authorizedSigners),
    ("nonce_hex", sampleProposal.nonceHex), ("created_at_iso", sampleProposal.createdAtIso),
    ("payload_hash", .str sampleHashHex), ("status", "approved")]

def keyed : Fields :=
  [("alg_id", .str sampleAlg), ("public_key_b64", "AQ=="), ("signature_b64", "Ag==")]

def sampleSignature : Json :=
  .dict ([(text "signer_id", Json.int 1), (text "decision", "approve"), (text "signer_email", "a")] ++ keyed)

def sampleEvents : List (String × Json) :=
  [("proposal_created", .dict [("payload_hash", .str sampleHashHex)]),
    ("user_registered", .dict [("user_id", .int 1), ("email", "a")]),
    ("proposal_signed", .dict [("signer_id", .int 1), ("decision", "approve"),
      ("signature_sha256", .str (sha256Hex (sampleHash []) [2]))])]

def sampleFields (seq : Nat) (event : String × Json) : EntryFields where
  seq := .int seq
  timestamp := "t"
  actor := "a"
  actorId := .int 1
  eventType := event.1
  vaultId := .null
  refType := .null
  refId := "u"
  payloadHash := .str (sha256Hex (sampleHash []) (okOr [] (canonicalJson event.2)))
  prevHash := ""

def sampleLeaf (seq : Nat) (event : String × Json) : Bytes :=
  okOr [] ((entryHash (sampleHash []) (sampleFields seq event)).bind (entryLeafHash (sampleHash [])))

def sampleLeaves : List Bytes := (sampleEvents.zipIdx).map fun e => sampleLeaf e.2 e.1

def sampleNode (left right : Bytes) : Bytes := hashChildren (sampleHash []) left right

-- A tree of `2 ^ (levels + 2)` leaves, of which the first three are entries and the others empty.
def sampleProof (levels seq : Nat) : List Bytes :=
  match sampleLeaves with
  | [a, b, c] =>
    (match seq with
      | 0 => [b, sampleNode c []]
      | 1 => [a, sampleNode c []]
      | _ => [[], sampleNode a b]) ++ List.replicate levels []
  | _ => []

def sampleTop (levels : Nat) : Bytes :=
  match sampleLeaves with
  | [a, b, c] => List.replicate (2 * levels) 1 ++ 1 :: (sampleNode a b ++ sampleNode c [])
  | _ => []

def sampleEntry (levels seq : Nat) (event : String × Json) : Json :=
  let fields := sampleFields seq event
  .dict [("seq", fields.seq), ("timestamp", fields.timestamp), ("actor", fields.actor),
    ("actor_id", fields.actorId), ("event_type", fields.eventType), ("ref_id", fields.refId),
    ("payload_hash", fields.payloadHash), ("prev_hash", fields.prevHash),
    ("payload_json", .str (event.2.dumps .canonical)),
    ("entry_hash", .str (okOr [] (entryHash (sampleHash []) fields))),
    ("inclusion_proof", .list ((sampleProof levels seq).map fun b => .str (hexText b)))]

def sampleBundle (levels : Nat) (headSeq : Json) : Json := .dict
  [("format", .str bundleFormat), ("decision", sampleDecision), ("signatures", .list [sampleSignature]),
    ("log", .dict [("entries", .list ((sampleEvents.zipIdx).map fun e => sampleEntry levels e.2 e.1)),
      ("checkpoint", .dict [("tree_size", .int (2 ^ (levels + 2))), ("head_seq", headSeq),
        ("root_hash", .str (hexText (List.replicate 32 0)))]),
      ("checkpoint_signature", .dict keyed)])]

theorem sampleHash_injective (top : Bytes) : Function.Injective (sampleHash top) := by
  intro x y same
  unfold sampleHash at same
  split_ifs at same with left right right
  · rw [left, right]
  · cases same
  · cases same
  · cases same
    rfl

-- 2.0 ** 53, to which adding 1 rounds back
def roundingHeadSeq : Json := .float ⟨0x4340000000000000⟩

-- Both are evaluated here, one after the other.
theorem sampleBundles_ok :
    (verifyBundle (sampleTools (sampleTop 0)) (sampleBundle 0 (.int 3)) none none).ok = true ∧
      (verifyBundle (sampleTools (sampleTop 51)) (sampleBundle 51 roundingHeadSeq) none none).ok = true := by
  constructor
  · decide +kernel
  · decide +kernel

theorem approved_bundle_sound_honest :
    (verifyBundle (sampleTools (sampleTop 0)) (sampleBundle 0 (.int 3)) none none).ok = true ∧
      ((∃ payloadHash, Approved (sampleTools (sampleTop 0)) (sampleBundle 0 (.int 3)) payloadHash) ↔
        headSeqExact (checkpointOf (sampleBundle 0 (.int 3))) = true) := by
  have accepted := sampleBundles_ok.1
  exact ⟨accepted, approved_bundle_sound _ _ none none accepted rfl⟩

theorem rounded_head_accepted :
    Function.Injective (sampleTools (sampleTop 51)).sha256 ∧
      (verifyBundle (sampleTools (sampleTop 51)) (sampleBundle 51 roundingHeadSeq) none none).ok = true ∧
      field (decisionOf (sampleBundle 51 roundingHeadSeq)) "status" = .str "approved" ∧
      ¬∃ payloadHash, Approved (sampleTools (sampleTop 51)) (sampleBundle 51 roundingHeadSeq) payloadHash := by
  refine ⟨sampleHash_injective _, sampleBundles_ok.2, rfl, ?_⟩
  rintro ⟨payloadHash, approved⟩
  obtain ⟨headSeq, isHead, isSize⟩ := approved.head.size
  have head : headSeqValue (checkpointOf (sampleBundle 51 roundingHeadSeq)) = some (2 ^ 53) := by decide +kernel
  have size : exactValue (field (checkpointOf (sampleBundle 51 roundingHeadSeq)) "tree_size") = some (2 ^ 53) := by
    decide +kernel
  rw [head, Option.some.injEq] at isHead
  rw [size, ← isHead] at isSize
  norm_num at isSize

end Sample

end QVault.Proof.Verify
