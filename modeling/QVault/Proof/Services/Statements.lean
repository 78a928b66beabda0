import QVault.Proof.Python.Canonical
import QVault.Services.Ledger
import QVault.Services.Signing

/-!
# The statements that are signed and hashed

Their bytes determine the kind of statement and every field of it. `Statement` gathers the
statements of `signing.py`, `statement.py` and `ledger_service.py` with the types their callers pass.
-/

namespace QVault.Proof.Statements
open QVault.Python QVault.Services QVault.Transparency PrefixCode Results QVault.Proof.Canonical

/-! ## Statements -/

-- A payment's dict, in any shape and without floats
structure Action where
  fields : List (Text × Json)
  plain : Plain (.dict fields)

structure DecisionFields where
  vaultId : Int
  proposalUuid : Text
  actionText : Text
  fileSha256 : Option Text
  requiredM : Int
  requiredN : Int
  authorizedSigners : List Int
  nonceHex : Text
  createdAtIso : Text
  action : Option Action

def actionJson : Option Action → Json
  | none => .null
  | some action => .dict action.fields

def DecisionFields.toProposal (f : DecisionFields) : ProposalFields where
  vaultId := .int f.vaultId
  proposalUuid := .str f.proposalUuid
  actionText := .str f.actionText
  fileSha256 := optionText f.fileSha256
  requiredM := .int f.requiredM
  requiredN := .int f.requiredN
  authorizedSigners := f.authorizedSigners.map .int
  nonceHex := .str f.nonceHex
  createdAtIso := .str f.createdAtIso
  action := actionJson f.action

structure HashedFields where
  seq : Int
  timestamp : Text
  actor : Text
  actorId : Option Int
  eventType : Text
  vaultId : Option Int
  refType : Option Text
  refId : Option Text
  payloadHash : Text
  prevHash : Text

def HashedFields.toEntry (f : HashedFields) : EntryFields where
  seq := .int f.seq
  timestamp := .str f.timestamp
  actor := .str f.actor
  actorId := optionInt f.actorId
  eventType := .str f.eventType
  vaultId := optionInt f.vaultId
  refType := optionText f.refType
  refId := optionText f.refId
  payloadHash := .str f.payloadHash
  prevHash := .str f.prevHash

structure CheckpointFields where
  origin : Text
  treeSize : Int
  rootHash : Text
  headSeq : Int
  headHash : Text
  timestamp : Text

def CheckpointFields.statement (f : CheckpointFields) : Json :=
  checkpointStatement f.origin f.treeSize f.rootHash f.headSeq f.headHash f.timestamp

inductive Statement
  | proposal (fields : DecisionFields)
  | vote (proposalPayloadHash decision : Text) (signerId : Int)
  | deviceEnrolment (fields : EnrolmentFields)
  | devicePairing (fields : PairingFields)
  | recovery (fields : RecoveryFields)
  | ledgerEntry (fields : HashedFields)
  | checkpoint (fields : CheckpointFields)
  | cosignature (witness : Text) (fields : CheckpointFields)
  | ledgerAnchor (seq : Int) (headHash : Text)

-- What is signed, and for a ledger entry what is hashed
def Statement.bytes : Statement → Except PyError Bytes
  | .proposal f => proposalSigningBytes f.toProposal
  | .vote payloadHash decision signerId => voteSigningBytes payloadHash (.str decision) (.int signerId)
  | .deviceEnrolment f => deviceEnrolmentBytes f
  | .devicePairing f => devicePairingBytes f
  | .recovery f => recoverySigningBytes f
  | .ledgerEntry f => do return entryDs ++ (← canonicalJson f.toEntry.toJson)
  | .checkpoint f => checkpointBytes f.statement
  | .cosignature witness f => witnessBytes (.str witness) f.statement
  | .ledgerAnchor seq headHash => anchorMessage seq headHash

theorem entryHash_eq (sha256 : Bytes → Bytes) (f : HashedFields) :
    entryHash sha256 f.toEntry = (Statement.bytes (.ledgerEntry f)).map (Crypto.sha256Hex sha256) := by
  simp only [entryHash, Statement.bytes]
  cases encoded : canonicalJson f.toEntry.toJson with
  | error error => rfl
  | ok body => rfl

/-! ## Equal statements -/

def Action.sorted (action : Action) : Action where
  fields := (sortFields action.fields).map fun f => (f.1, normal f.2)
  plain := normal_dict action.fields ▸ plain_normal action.plain

-- Signer lists and dicts in one order: statements are compared in this form.
def Statement.sorted : Statement → Statement
  | .proposal f => .proposal
    { f with
      authorizedSigners := f.authorizedSigners.insertionSort (· ≤ ·)
      action := f.action.map Action.sorted }
  | other => other

/-! ## Domains -/

inductive Domain
  | proposal | vote | deviceEnrolment | devicePairing | recovery | ledgerEntry | checkpoint | cosignature
  | ledgerAnchor
  deriving DecidableEq

def Domain.tag : Domain → Bytes
  | .proposal => proposalDs ++ asciiBytes "|"
  | .vote => voteDs ++ asciiBytes "|"
  | .deviceEnrolment => deviceEnrolDs ++ asciiBytes "|"
  | .devicePairing => devicePairDs ++ asciiBytes "|"
  | .recovery => recoveryDs ++ asciiBytes "|"
  | .ledgerEntry => entryDs
  | .checkpoint => checkpointDs
  | .cosignature => witnessDs
  | .ledgerAnchor => anchorDs

def domains : List Domain :=
  [.proposal, .vote, .deviceEnrolment, .devicePairing, .recovery, .ledgerEntry, .checkpoint, .cosignature,
    .ledgerAnchor]

theorem mem_domains (d : Domain) : d ∈ domains := by
  cases d <;> decide

theorem tag_starts {d d' : Domain} (starts : d.tag <+: d'.tag) : d = d' := by
  have tested : ∀ d ∈ domains, ∀ d' ∈ domains, d.tag.isPrefixOf d'.tag = true → d = d' := by decide
  have isStart := List.isPrefixOf_iff_prefix.mpr starts
  exact tested d (mem_domains d) d' (mem_domains d') isStart

theorem tag_cut {d d' : Domain} {r s : Bytes} (same : d.tag ++ r = d'.tag ++ s) : d = d' ∧ r = s := by
  have domain : d = d' := by
    rcases List.prefix_or_prefix_of_prefix (List.prefix_append d.tag r) (same ▸ List.prefix_append d'.tag s) with
      starts | starts
    · exact tag_starts starts
    · exact (tag_starts starts).symm
  subst domain
  exact ⟨rfl, List.append_cancel_left same⟩

def Statement.domain : Statement → Domain
  | .proposal _ => .proposal
  | .vote .. => .vote
  | .deviceEnrolment _ => .deviceEnrolment
  | .devicePairing _ => .devicePairing
  | .recovery _ => .recovery
  | .ledgerEntry _ => .ledgerEntry
  | .checkpoint _ => .checkpoint
  | .cosignature .. => .cosignature
  | .ledgerAnchor .. => .ledgerAnchor

def Statement.body : Statement → Json
  | .proposal f => f.toProposal.toJson
  | .vote payloadHash decision signerId => .dict [("proposal_payload_hash", .str payloadHash),
      ("decision", .str decision), ("signer_id", .int signerId)]
  | .deviceEnrolment f => f.toJson
  | .devicePairing f => f.toJson
  | .recovery f => f.toJson
  | .ledgerEntry f => f.toEntry.toJson
  | .checkpoint f => f.statement
  | .cosignature witness f => .dict [("witness", .str witness), ("checkpoint", f.statement)]
  | .ledgerAnchor seq headHash => .dict [("seq", .int seq), ("head_hash", .str headHash)]

theorem bytes_ok {s : Statement} {bytes : Bytes} (made : s.bytes = .ok bytes) :
    ∃ body, canonicalJson s.body = .ok body ∧ bytes = s.domain.tag ++ body := by
  have tagged : ∀ {tag : Bytes} {x : Json}, (do return tag ++ (← canonicalJson x) : Except PyError Bytes) = .ok bytes →
      ∃ body, canonicalJson x = .ok body ∧ bytes = tag ++ body := by
    intro tag x made
    obtain ⟨body, encoded, rest⟩ := bind_eq_ok.mp made
    exact ⟨body, encoded, (pure_eq_ok.mp rest).symm⟩
  cases s with
  | proposal f => exact tagged made
  | vote payloadHash decision signerId =>
    simp only [Statement.bytes, voteSigningBytes] at made
    split at made
    · cases made
    · exact tagged made
  | deviceEnrolment f => exact tagged made
  | devicePairing f => exact tagged made
  | recovery f =>
    simp only [Statement.bytes, recoverySigningBytes] at made
    split at made
    · cases made
    · split at made
      · cases made
      · exact tagged made
  | ledgerEntry f => exact tagged made
  | checkpoint f => exact tagged made
  | cosignature witness f => exact tagged made
  | ledgerAnchor seq headHash => exact tagged made

/-! ## Bodies -/

theorem plain_fields {fields : List (Text × Json)} (each : ∀ x ∈ fields.map Prod.snd, Plain x) :
    Plain (.dict fields) :=
  .dict fun f listed => each f.2 (List.mem_map_of_mem listed)

theorem plain_optionInt (n : Option Int) : Plain (optionInt n) := by
  cases n with
  | none => exact .null
  | some n => exact .int n

theorem plain_optionText (t : Option Text) : Plain (optionText t) := by
  cases t with
  | none => exact .null
  | some t => exact .str t

theorem plain_actionJson (action : Option Action) : Plain (actionJson action) := by
  cases action with
  | none => exact .null
  | some action => exact action.plain

@[simp] theorem normal_optionInt (n : Option Int) : normal (optionInt n) = optionInt n := by
  cases n <;> rfl

@[simp] theorem normal_optionText (t : Option Text) : normal (optionText t) = optionText t := by
  cases t <;> rfl

theorem optionInt_injective : Function.Injective optionInt := by
  intro m n same
  cases m <;> cases n <;> cases same <;> rfl

theorem optionText_injective : Function.Injective optionText := by
  intro s t same
  cases s <;> cases t <;> cases same <;> rfl

theorem sortSigners_ints (signers : List Int) :
    sortSigners (signers.map .int) = (signers.insertionSort (· ≤ ·)).map .int := by
  refine (List.map_insertionSort (r := (· ≤ ·)) (s := fun a b : Json => a.int?.getD 0 ≤ b.int?.getD 0) Json.int signers
    ?_).symm
  intro a _ b _
  exact Iff.rfl

theorem normal_ints (signers : List Int) : normal (.list (signers.map .int)) = .list (signers.map .int) := by
  rw [normal, normalItems_eq, List.map_map]
  rfl

theorem plain_policy (f : DecisionFields) : Plain f.toProposal.policy := by
  have signers : Plain (.list (sortSigners (f.authorizedSigners.map .int))) := by
    apply Plain.list
    intro x listed
    rw [sortSigners_ints] at listed
    obtain ⟨n, _, rfl⟩ := List.mem_map.mp listed
    exact .int n
  apply plain_fields
  simp only [List.map_cons, List.map_nil, List.forall_mem_cons]
  exact ⟨.int _, .int _, signers, fun x none => (nomatch none)⟩

theorem toProposal_json (f : DecisionFields) :
    f.toProposal.toJson = .dict ([(text "vault_id", .int f.vaultId), (text "proposal_id", .str f.proposalUuid),
      (text "action_text", .str f.actionText), (text "file_sha256", optionText f.fileSha256),
      (text "policy", f.toProposal.policy), (text "nonce", .str f.nonceHex), (text "created_at", .str f.createdAtIso)] ++
        match f.action with
        | none => []
        | some action => [(text "action", .dict action.fields)]) := by
  cases action : f.action with
  | none => simp only [ProposalFields.toJson, DecisionFields.toProposal, action, actionJson, List.append_nil]
  | some action' => simp only [ProposalFields.toJson, DecisionFields.toProposal, action, actionJson]

theorem plain_checkpoint (f : CheckpointFields) : Plain f.statement := by
  apply plain_fields
  simp only [List.map_cons, List.map_nil, List.forall_mem_cons]
  exact ⟨.str _, .int _, .str _, .int _, .str _, .str _, fun x none => (nomatch none)⟩

theorem plain_body (s : Statement) : Plain s.body := by
  cases s with
  | proposal f =>
    simp only [Statement.body, toProposal_json]
    apply plain_fields
    rw [List.map_append, List.forall_mem_append]
    constructor
    · simp only [List.map_cons, List.map_nil, List.forall_mem_cons]
      exact ⟨.int _, .str _, .str _, plain_optionText _, plain_policy f, .str _, .str _, fun x none => (nomatch none)⟩
    · cases f.action with
      | none => exact fun x none => (nomatch none)
      | some action =>
        intro x listed
        rw [List.mem_singleton.mp listed]
        exact action.plain
  | vote payloadHash decision signerId =>
    apply plain_fields
    simp only [List.map_cons, List.map_nil, List.forall_mem_cons]
    exact ⟨.str _, .str _, .int _, fun x none => (nomatch none)⟩
  | deviceEnrolment f =>
    apply plain_fields
    simp only [List.map_cons, List.map_nil, List.forall_mem_cons]
    exact ⟨.int _, .str _, .str _, .str _, fun x none => (nomatch none)⟩
  | devicePairing f =>
    apply plain_fields
    simp only [List.map_cons, List.map_nil, List.forall_mem_cons]
    exact ⟨.int _, .str _, .str _, .str _, .str _, fun x none => (nomatch none)⟩
  | recovery f =>
    apply plain_fields
    simp only [List.map_cons, List.map_nil, List.forall_mem_cons]
    exact ⟨.str _, .str _, .int _, .int _, .int _, .str _, .str _, fun x none => (nomatch none)⟩
  | ledgerEntry f =>
    apply plain_fields
    simp only [List.map_cons, List.map_nil, List.forall_mem_cons]
    exact ⟨.int _, .str _, .str _, plain_optionInt _, .str _, plain_optionInt _, plain_optionText _, plain_optionText _,
      .str _, .str _, fun x none => (nomatch none)⟩
  | checkpoint f => exact plain_checkpoint f
  | cosignature witness f =>
    apply plain_fields
    simp only [List.map_cons, List.map_nil, List.forall_mem_cons]
    exact ⟨.str _, plain_checkpoint f, fun x none => (nomatch none)⟩
  | ledgerAnchor seq headHash =>
    apply plain_fields
    simp only [List.map_cons, List.map_nil, List.forall_mem_cons]
    exact ⟨.int _, .str _, fun x none => (nomatch none)⟩

/-! ## Equal bodies -/

theorem enrolment_eq {f g : EnrolmentFields} (same : normal f.toJson = normal g.toJson) : f = g := by
  have values := record_eq (by rfl) (by simp only [List.map_cons, List.map_nil]; decide) same
  simp only [List.map_cons, List.map_nil, normal_int, normal_str, List.cons.injEq, Json.int.injEq, Json.str.injEq] at values
  obtain ⟨userId, algId, publicKey, challenge, _⟩ := values
  cases f
  cases g
  simp_all

theorem pairing_eq {f g : PairingFields} (same : normal f.toJson = normal g.toJson) : f = g := by
  have values := record_eq (by rfl) (by simp only [List.map_cons, List.map_nil]; decide) same
  simp only [List.map_cons, List.map_nil, normal_int, normal_str, List.cons.injEq, Json.int.injEq, Json.str.injEq] at values
  obtain ⟨userId, pairing, algId, publicKey, digest, _⟩ := values
  cases f
  cases g
  simp_all

theorem recovery_eq {f g : RecoveryFields} (same : normal f.toJson = normal g.toJson) : f = g := by
  have values := record_eq (by rfl) (by simp only [List.map_cons, List.map_nil]; decide) same
  simp only [List.map_cons, List.map_nil, normal_int, normal_str, List.cons.injEq, Json.int.injEq, Json.str.injEq] at values
  obtain ⟨purpose, request, userId, deviceId, keyId, deployment, expires, _⟩ := values
  cases f
  cases g
  simp_all

theorem entry_eq {f g : HashedFields} (same : normal f.toEntry.toJson = normal g.toEntry.toJson) : f = g := by
  have values := record_eq (by rfl) (by simp only [List.map_cons, List.map_nil]; decide) same
  simp only [HashedFields.toEntry, List.map_cons, List.map_nil, normal_int, normal_str, normal_optionInt,
    normal_optionText, List.cons.injEq, Json.int.injEq, Json.str.injEq, optionInt_injective.eq_iff,
    optionText_injective.eq_iff] at values
  obtain ⟨seq, timestamp, actor, actorId, eventType, vaultId, refType, refId, payload, prev, _⟩ := values
  cases f
  cases g
  simp_all

theorem checkpoint_eq {f g : CheckpointFields} (same : normal f.statement = normal g.statement) : f = g := by
  have values := record_eq (by rfl) (by simp only [List.map_cons, List.map_nil]; decide) same
  simp only [List.map_cons, List.map_nil, normal_int, normal_str, List.cons.injEq, Json.int.injEq, Json.str.injEq] at values
  obtain ⟨origin, treeSize, root, headSeq, head, timestamp, _⟩ := values
  cases f
  cases g
  simp_all

theorem policy_eq {f g : DecisionFields} (same : normal f.toProposal.policy = normal g.toProposal.policy) :
    f.requiredM = g.requiredM ∧ f.requiredN = g.requiredN ∧
      f.authorizedSigners.insertionSort (· ≤ ·) = g.authorizedSigners.insertionSort (· ≤ ·) := by
  have values := record_eq (by rfl) (by simp only [List.map_cons, List.map_nil]; decide) same
  simp only [DecisionFields.toProposal, sortSigners_ints, normal_ints, List.map_cons, List.map_nil, normal_int,
    List.cons.injEq, Json.int.injEq, Json.list.injEq] at values
  obtain ⟨requiredM, requiredN, signers, _⟩ := values
  have ints : Function.Injective Json.int := fun m n same => Json.int.inj same
  exact ⟨requiredM, requiredN, ints.list_map signers⟩

theorem action_eq {action action' : Action} (same : normal (.dict action.fields) = normal (.dict action'.fields)) :
    action.sorted = action'.sorted := by
  rw [normal_dict, normal_dict] at same
  unfold Action.sorted
  congr 1
  exact Json.dict.inj same

theorem decision_eq {f g : DecisionFields} (same : normal f.toProposal.toJson = normal g.toProposal.toJson) :
    (Statement.proposal f).sorted = (Statement.proposal g).sorted := by
  rw [toProposal_json, toProposal_json] at same
  have lengths := (fields_perm same).length_eq
  -- Both carry a payment or neither does, so the keys are the same.
  cases paid : f.action with
  | none =>
    cases paid' : g.action with
    | some action' => simp [paid, paid'] at lengths
    | none =>
      simp only [paid, paid'] at same
      have values := record_eq (by rfl)
        (by simp only [List.map_cons, List.map_nil, List.append_nil]; decide) same
      simp only [List.append_nil, List.map_cons, List.map_nil, normal_int, normal_str, normal_optionText,
        List.cons.injEq, Json.int.injEq, Json.str.injEq, optionText_injective.eq_iff] at values
      obtain ⟨vaultId, proposalUuid, actionText, file, policy, nonce, created, _⟩ := values
      obtain ⟨requiredM, requiredN, signers⟩ := policy_eq policy
      simp_all [Statement.sorted]
  | some action =>
    cases paid' : g.action with
    | none => simp [paid, paid'] at lengths
    | some action' =>
      simp only [paid, paid'] at same
      have values := record_eq (by rfl)
        (by simp only [List.map_cons, List.map_nil, List.cons_append, List.nil_append]; decide) same
      simp only [List.cons_append, List.nil_append, List.map_cons, List.map_nil, normal_int, normal_str,
        normal_optionText, List.cons.injEq, Json.int.injEq, Json.str.injEq, optionText_injective.eq_iff] at values
      obtain ⟨vaultId, proposalUuid, actionText, file, policy, nonce, created, payment, _⟩ := values
      obtain ⟨requiredM, requiredN, signers⟩ := policy_eq policy
      have actions := action_eq payment
      simp_all [Statement.sorted]

theorem body_eq {s t : Statement} (domain : s.domain = t.domain) (same : normal s.body = normal t.body) :
    s.sorted = t.sorted := by
  cases s with
  | proposal f =>
    cases t <;> cases domain
    exact decision_eq same
  | vote payloadHash decision signerId =>
    cases t <;> cases domain
    have values := record_eq (by rfl) (by simp only [List.map_cons, List.map_nil]; decide) same
    simp only [List.map_cons, List.map_nil, normal_int, normal_str, List.cons.injEq, Json.int.injEq, Json.str.injEq]
      at values
    obtain ⟨rfl, rfl, rfl, _⟩ := values
    rfl
  | deviceEnrolment f =>
    cases t <;> cases domain
    exact congrArg Statement.deviceEnrolment (enrolment_eq same)
  | devicePairing f =>
    cases t <;> cases domain
    exact congrArg Statement.devicePairing (pairing_eq same)
  | recovery f =>
    cases t <;> cases domain
    exact congrArg Statement.recovery (recovery_eq same)
  | ledgerEntry f =>
    cases t <;> cases domain
    exact congrArg Statement.ledgerEntry (entry_eq same)
  | checkpoint f =>
    cases t <;> cases domain
    exact congrArg Statement.checkpoint (checkpoint_eq same)
  | cosignature witness f =>
    cases t <;> cases domain
    have values := record_eq (by rfl) (by simp only [List.map_cons, List.map_nil]; decide) same
    simp only [List.map_cons, List.map_nil, normal_str, List.cons.injEq, Json.str.injEq] at values
    obtain ⟨rfl, statement, _⟩ := values
    exact congrArg (Statement.cosignature witness) (checkpoint_eq statement)
  | ledgerAnchor seq headHash =>
    cases t <;> cases domain
    have values := record_eq (by rfl) (by simp only [List.map_cons, List.map_nil]; decide) same
    simp only [List.map_cons, List.map_nil, normal_int, normal_str, List.cons.injEq, Json.int.injEq, Json.str.injEq]
      at values
    obtain ⟨rfl, rfl, _⟩ := values
    rfl

theorem bytes_determine {s t : Statement} {bytes : Bytes} (first : s.bytes = .ok bytes) (second : t.bytes = .ok bytes) :
    s.sorted = t.sorted := by
  obtain ⟨body, encoded, cut⟩ := bytes_ok first
  obtain ⟨body', encoded', cut'⟩ := bytes_ok second
  obtain ⟨domain, rfl⟩ := tag_cut (cut.symm.trans cut')
  exact body_eq domain (canonicalJson_injective (plain_body s) (plain_body t) encoded encoded')

theorem recovery_bytes_determine {f g : RecoveryFields} {bytes : Bytes} (first : recoverySigningBytes f = .ok bytes)
    (second : recoverySigningBytes g = .ok bytes) : f = g := by
  have same : Statement.sorted (.recovery f) = Statement.sorted (.recovery g) :=
    bytes_determine (s := .recovery f) (t := .recovery g) first second
  simpa [Statement.sorted] using same

theorem sorted_domain (s : Statement) : s.sorted.domain = s.domain := by
  cases s <;> rfl

-- Equal bytes come from one statement, so a signature bound to its message serves one statement.
theorem signed_statements_injective {s t : Statement} {bytes bytes' : Bytes} (first : s.bytes = .ok bytes)
    (second : t.bytes = .ok bytes') :
    (bytes = bytes' → s.domain = t.domain ∧ s.sorted = t.sorted) ∧
      ∀ (registry : Crypto.CryptoRegistry) (algId : Json) (publicKey : Bytes) (sign : Bytes → Bytes),
        (∀ m m', registry.verify algId publicKey m' (sign m) = true → m' = m) →
        registry.verify algId publicKey bytes' (sign bytes) = true → s.domain = t.domain ∧ s.sorted = t.sorted := by
  have determined : bytes = bytes' → s.domain = t.domain ∧ s.sorted = t.sorted := by
    intro same
    have sorted := bytes_determine first (same ▸ second)
    exact ⟨by rw [← sorted_domain s, sorted, sorted_domain], sorted⟩
  refine ⟨determined, ?_⟩
  intro registry algId publicKey sign binds verified
  exact determined (binds bytes bytes' verified).symm

section Sample

def sampleDecision (signers : List Int) : Statement :=
  .proposal ⟨3, "p-1", "Pay the rent", none, 1, 2, signers, "00", "2026-01-01T00:00:00Z", none⟩

def sampleBytes : Bytes := (sampleDecision [1, 2]).bytes.toOption.getD []

-- A scheme whose signature is the message
def plainRegistry : Crypto.CryptoRegistry := ⟨fun _ => some fun _ message signature => message == signature⟩

set_option maxRecDepth 20000 in
theorem signed_statements_injective_reordered :
    (sampleDecision [2, 1]).sorted = (sampleDecision [1, 2]).sorted ∧
      (sampleDecision [2, 1]).domain = (sampleDecision [1, 2]).domain := by
  have first : (sampleDecision [2, 1]).bytes = .ok sampleBytes := by decide
  have second : (sampleDecision [1, 2]).bytes = .ok sampleBytes := by decide
  obtain ⟨determined, unforged⟩ := signed_statements_injective first second
  have verified := unforged plainRegistry (.str "plain") [] id (fun m m' same => by simpa [plainRegistry, Crypto.CryptoRegistry.verify] using same)
    (by decide)
  exact ⟨(determined rfl).2, verified.1⟩

end Sample

end QVault.Proof.Statements
