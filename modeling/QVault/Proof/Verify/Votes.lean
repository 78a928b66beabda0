import QVault.Verify.Approved
import QVault.Proof.Verify.Passes

/-!
# The decision and its signatures

What the first four steps of `verify_bundle` leave behind when they pass.
-/

namespace QVault.Proof.Verify
open QVault.Verify QVault.Python QVault.Crypto QVault.Transparency QVault.Services Results

variable {tools : Tools} {opened : Opened} {voted : Voted}

/-! ## Python's equality -/

theorem same_refl {value : Json} (hashable : value.hashable = true) : value.same value = true := by
  cases value with
  | null => rfl
  | bool b => simp [Json.same, Json.eq, Json.numberEq, Json.number?, Json.Number.eq]
  | int n => simp [Json.same, Json.eq, Json.numberEq, Json.number?, Json.Number.eq]
  | float x =>
    simp only [Json.same, Json.bothNan, Bool.and_self, Json.eq, Json.numberEq, Json.number?, Json.Number.eq,
      Binary64.eq]
    cases nan : x.isNan <;> simp
  | str s => simp [Json.same, Json.bothNan, Json.eq]
  | list items => cases hashable
  | dict fields => cases hashable

theorem same_str {value : Json} {s : Text} : (Json.str s).same value = true ↔ value = .str s := by
  cases value with
  | str t => simpa [Json.same, Json.bothNan, Json.eq] using eq_comm
  | _ => simp [Json.same, Json.bothNan, Json.eq]

theorem eq_of_numberValue {m n : Json.Number} {q : Rat} (left : numberValue m = some q)
    (right : numberValue n = some q) : m.eq n = true := by
  cases m with
  | int a =>
    cases n with
    | int b =>
      simp only [numberValue, Option.some.injEq] at left right
      simpa [Json.Number.eq] using Int.cast_injective (left.trans right.symm)
    | float y => simp_all [numberValue, Json.Number.eq]
  | float x =>
    cases n with
    | int b => simp_all [numberValue, Json.Number.eq]
    | float y => simp_all [numberValue, Json.Number.eq, Binary64.eq]

theorem numberValue_of_eq {m n : Json.Number} (equal : m.eq n = true) : numberValue m = numberValue n := by
  cases m with
  | int a =>
    cases n with
    | int b => simp_all [numberValue, Json.Number.eq]
    | float y => simp_all [numberValue, Json.Number.eq]
  | float x =>
    cases n with
    | int b => simp_all [numberValue, Json.Number.eq]
    | float y =>
      simp only [Json.Number.eq, Binary64.eq] at equal
      split at equal
      · simp_all [numberValue]
      · simp only [Bool.and_eq_true, beq_iff_eq] at equal
        have one : x = y := by
          cases x
          cases y
          simpa using equal.2
        rw [one]

theorem same_of_exactValue {a b : Json} {q : Rat} (left : exactValue a = some q) (right : exactValue b = some q) :
    a.same b = true := by
  obtain ⟨m, numberA, valueA⟩ := Option.bind_eq_some_iff.mp left
  obtain ⟨n, numberB, valueB⟩ := Option.bind_eq_some_iff.mp right
  have equal : Json.numberEq a b = true := by
    simp only [Json.numberEq, numberA, numberB]
    exact eq_of_numberValue valueA valueB
  cases a with
  | bool _ | int _ | float _ => simp [Json.same, Json.eq, equal]
  | _ => cases numberA

theorem exactValue_of_same {value signer : Json} (int : signer.int?.isSome = true)
    (same : value.same signer = true) : (exactValue value).isSome = true := by
  cases signer with
  | bool _ | int _ =>
    cases value with
    | float x =>
      simp only [Json.same, Json.bothNan, Bool.false_or, Json.eq, Json.numberEq, Json.number?, Json.Number.eq,
        Bool.and_eq_true] at same
      simp [exactValue, numberValue, Json.number?, same.1]
    | bool _ | int _ => simp [exactValue, numberValue, Json.number?]
    | _ => simp [Json.same, Json.bothNan, Json.eq] at same
  | _ => simp [Json.int?] at int

/-! ## The numbers of a decision -/

theorem integralNumbers_not_float {value result : Json} (read : integralNumbers value = .ok result) (x : Binary64) :
    result ≠ .float x := by
  cases value with
  | float y =>
    simp only [integralNumbers] at read
    split at read <;> cases read
    simp
  | list items =>
    simp only [integralNumbers, map_eq_ok] at read
    obtain ⟨_, -, rfl⟩ := read
    simp
  | dict fields =>
    simp only [integralNumbers, map_eq_ok] at read
    obtain ⟨_, -, rfl⟩ := read
    simp
  | _ =>
    cases read
    simp

theorem integralFields_lookup {fields results : Fields} (read : integralFields fields = .ok results) {key : Text}
    {result : Json} (present : Json.lookup key results = some result) :
    ∃ value, integralNumbers value = .ok result := by
  induction fields generalizing results with
  | nil =>
    cases read
    cases present
  | cons first rest ih =>
    obtain ⟨k, v⟩ := first
    simp only [integralFields, bind_eq_ok, pure_eq_ok] at read
    obtain ⟨value, readFirst, others, readRest, rfl⟩ := read
    simp only [Json.lookup] at present
    split at present
    · cases present
      exact ⟨v, readFirst⟩
    · exact ih readRest present

structure Reads (fields : Fields) (opened : Opened) : Prop where
  decision : decisionOf (.dict fields) = .dict opened.decision
  integral : ∀ key value, Json.lookup key opened.decision = some value → ∀ x, value ≠ .float x
  action : opened.action = Json.get opened.decision "action"
  signatures : Json.get fields "signatures" = .list opened.signatures
  log : Json.get fields "log" = opened.log

theorem readBundle_ok {fields : Fields} {format : Text} (read : readBundle fields format = .ok opened) :
    Reads fields opened := by
  unfold readBundle at read
  simp only [bind_eq_ok, pure_eq_ok, need_eq_ok, asDict_eq_ok, asList_eq_ok] at read
  obtain ⟨given, ⟨_, here, present⟩, decision, rfl, value, normal, decision', rfl, action, checked,
    signatures, ⟨_, here', signaturesPresent⟩, log, ⟨_, here'', logPresent⟩, items, rfl, rfl⟩ := read
  cases here
  cases here'
  cases here''
  have fieldsRead : integralFields decision = .ok decision' := by
    simpa [integralNumbers, map_eq_ok] using normal
  refine ⟨?_, ?_, ?_, get_of_lookup signaturesPresent, get_of_lookup logPresent⟩
  · simp [decisionOf, field, get_of_lookup present, normal]
  · intro key value found
    obtain ⟨source, readValue⟩ := integralFields_lookup fieldsRead found
    exact integralNumbers_not_float readValue
  · unfold checkAction at checked
    split at checked
    · simp only [map_eq_ok] at checked
      obtain ⟨_, -, rfl⟩ := checked
      rfl
    · split at checked <;> cases checked
      rfl

/-! ## The signatures -/

structure CastVotes (tools : Tools) (opened : Opened) (voted : Voted) : Prop where
  signers : Json.get opened.decision "authorized_signers" = .list voted.signers
  ints : ∀ s ∈ voted.signers, s.int?.isSome = true
  hash : recomputeHash tools opened.decision opened.action voted.signers = .ok voted.payloadHash
  signed : ∀ s ∈ voted.verified, ∃ entry ∈ opened.signatures,
    readSignature tools voted.payloadHash entry = .ok (some s)
  listed : ∀ s ∈ voted.verified, contains voted.signers s.signerId = true
  noRepeats : noRepeats [] voted.verified = true
  threshold : threshold opened voted.signers voted.verified = .ok true

theorem readSigners_ok {decision : Fields} {signers : List Json} (read : readSigners decision = .ok signers) :
    Json.get decision "authorized_signers" = .list signers ∧ ∀ s ∈ signers, s.int?.isSome = true := by
  unfold readSigners at read
  simp only [bind_eq_ok, need_eq_ok, asList_eq_ok] at read
  obtain ⟨claimed, ⟨_, here, present⟩, items, rfl, read⟩ := read
  cases here
  split at read
  · rename_i ints
    cases pure_eq_ok.mp read
    exact ⟨get_of_lookup present, List.all_eq_true.mp ints⟩
  · cases read

theorem authorisation_true {signers : List Json} {verified : List Verified}
    (passed : authorisation signers verified = .ok true) :
    (∀ s ∈ verified, contains signers s.signerId = true) ∧ noRepeats [] verified = true := by
  unfold authorisation at passed
  simp only [bind_eq_ok, pure_eq_ok] at passed
  obtain ⟨_, -, held⟩ := passed
  simpa [Bool.and_eq_true, List.all_eq_true] using held

theorem checkVotes_passes (passed : Passes (checkVotes tools opened) voted) : CastVotes tools opened voted := by
  unfold checkVotes at passed
  simp only [passes_bind, passes_step, passes_add, passes_pure] at passed
  obtain ⟨signers, readSigners, payloadHash, hash, claimed, -, -, -, read, signatures, -, -, authorised,
    authorisation, -, rfl, met, threshold, -, rfl, rfl⟩ := passed
  obtain ⟨listedSigners, ints⟩ := readSigners_ok readSigners
  obtain ⟨listed, noRepeats⟩ := authorisation_true authorisation
  refine ⟨listedSigners, ints, hash, ?_, listed, noRepeats, threshold⟩
  intro s there
  obtain ⟨result, there, same⟩ := List.mem_filterMap.mp there
  cases result with
  | none => cases same
  | some s' =>
    cases same
    exact mapM_ok_mem signatures there

theorem readSignature_some {payloadHash : Text} {entry : Json} {s : Verified}
    (read : readSignature tools payloadHash entry = .ok (some s)) :
    ∃ publicKey message, field entry "signer_id" = s.signerId ∧ field entry "decision" = s.decision ∧
      readB64 (field entry "public_key_b64") = .ok publicKey ∧
      readB64 (field entry "signature_b64") = .ok s.signature ∧
      voteSigningBytes payloadHash s.decision s.signerId = .ok message ∧
      tools.registry.verify (field entry "alg_id") publicKey message s.signature = true := by
  unfold readSignature at read
  simp only [bind_eq_ok, need_eq_ok] at read
  obtain ⟨signerId, ⟨fields, rfl, signerPresent⟩, vote, ⟨_, here, votePresent⟩, algId, ⟨_, here', algPresent⟩,
    key, ⟨_, here'', keyPresent⟩, publicKey, readKey, sig, ⟨_, here''', sigPresent⟩, signature, readSig,
    known, -, read⟩ := read
  cases here
  cases here'
  cases here''
  cases here'''
  split at read
  · cases read
  · simp only [bind_eq_ok, pure_eq_ok, raising_eq_ok] at read
    obtain ⟨message, signed, email, -, read⟩ := read
    split at read
    · rename_i valid
      cases read
      simp only [field, get_of_lookup signerPresent, get_of_lookup votePresent, get_of_lookup algPresent,
        get_of_lookup keyPresent, get_of_lookup sigPresent]
      exact ⟨publicKey, message, trivial, trivial, readKey, readSig, signed, valid⟩
    · cases read

theorem noRepeats_pairwise {seen : List Json} {verified : List Verified}
    (distinct : noRepeats seen verified = true) :
    (∀ s ∈ verified, contains seen s.signerId = false) ∧
      verified.Pairwise fun a b => b.signerId.same a.signerId = false := by
  induction verified generalizing seen with
  | nil => exact ⟨fun s there => (nomatch there), .nil⟩
  | cons first rest ih =>
    simp only [noRepeats, Bool.and_eq_true, Bool.not_eq_true'] at distinct
    obtain ⟨fresh, distinct⟩ := distinct
    obtain ⟨unseen, apart⟩ := ih distinct
    have parted : ∀ s ∈ rest, s.signerId.same first.signerId = false ∧ contains seen s.signerId = false := by
      intro s there
      simpa [contains] using unseen s there
    refine ⟨?_, .cons (fun s there => (parted s there).1) apart⟩
    intro s there
    cases there with
    | head => exact fresh
    | tail _ later => exact (parted s later).2

theorem exactValue_nodup {verified : List Verified} (distinct : noRepeats [] verified = true)
    (valued : ∀ s ∈ verified, (exactValue s.signerId).isSome = true) :
    (verified.map fun s => exactValue s.signerId).Nodup := by
  apply List.pairwise_map.mpr
  refine List.Pairwise.imp_of_mem ?_ (noRepeats_pairwise distinct).2
  intro a b thereA thereB apart equal
  obtain ⟨q, valueA⟩ := Option.isSome_iff_exists.mp (valued a thereA)
  rw [same_of_exactValue (equal ▸ valueA) valueA] at apart
  cases apart

end QVault.Proof.Verify
