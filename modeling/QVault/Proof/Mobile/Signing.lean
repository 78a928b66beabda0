import QVault.Mobile.Signing
import QVault.Services.Answers
import QVault.Proof.Mobile.Canonical
import QVault.Proof.Services.Statements

/-!
# Phone and server sign the same bytes

Each statement of the phone is the server's, for fields that JSON can carry exactly.
-/

namespace QVault.Proof.Mobile
open QVault.Python QVault.Services QVault.Mobile QVault.Proof.Codecs QVault.Proof.Canonical
  QVault.Proof.Statements

/-! ## ASCII -/

def Ascii (t : Text) : Prop := ∀ c ∈ t, c.val < 128

def unit (c : CodePoint) : CodeUnit := Fin.ofNat _ c.val

theorem utf16_ascii {t : Text} (ascii : Ascii t) : utf16 t = t.map unit := by
  induction t with
  | nil => rfl
  | cons c t ih =>
    have small := ascii c List.mem_cons_self
    rw [utf16_cons, ih fun d listed => ascii d (List.mem_cons_of_mem _ listed), units, if_pos (by omega)]
    rfl

theorem ascii_of_utf16 {t : Text} (small : ∀ u ∈ utf16 t, u.val < 128) : Ascii t := by
  intro c listed
  have bound := c.isLt
  by_contra large
  have among : ∃ u ∈ units c, 128 ≤ u.val := by
    unfold units
    split
    · refine ⟨_, List.mem_singleton_self _, ?_⟩
      simp only [Fin.val_ofNat]
      omega
    · refine ⟨_, List.mem_cons_self, ?_⟩
      simp only [Fin.val_ofNat]
      omega
  obtain ⟨u, isUnit, large⟩ := among
  have under := small u (List.mem_flatMap.mpr ⟨c, listed, isUnit⟩)
  omega

theorem clean_of_ascii {t : Text} (ascii : Ascii t) : Clean t := by
  intro c listed
  have small := ascii c listed
  simp only [isSurrogate, Bool.and_eq_false_iff, decide_eq_false_iff_not]
  omega

theorem ascii_of_all {t : Text} (all : (t.all fun c => c.val < 128) = true) : Ascii t := by
  intro c listed
  simpa using List.all_eq_true.mp all c listed

/-! ## Under a tag -/

def signed (ds : Bytes) (body : Json) : Bytes :=
  ds ++ asciiBytes "|" ++ (body.dumps .canonical).flatMap Python.utf8CodePoint

theorem domainSeparated_parsed {tag : String} {ds : Bytes} {body : Json} (exact' : Exact body)
    (isTag : utf8Encode (js tag) = ds) :
    domainSeparated tag (parsed body) = .ok (signed ds body) := by
  have bar : utf8Encode (js "|") = asciiBytes "|" := by decide
  rw [domainSeparated, canonicalJson_parsed exact', isTag, bar]
  rfl

theorem enrolment_same (f : EnrolmentFields) (exact' : Exact f.toJson) :
    ∃ bytes, Mobile.deviceEnrolmentBytes (parsed (.int f.userId)) (utf16 f.algId) (utf16 f.publicKeyB64)
      (utf16 f.challenge) = .ok bytes ∧ Services.deviceEnrolmentBytes f = .ok bytes := by
  refine ⟨_, domainSeparated_parsed exact' (by decide : _ = deviceEnrolDs), ?_⟩
  rw [Services.deviceEnrolmentBytes, canonicalJson_server exact']
  rfl

theorem pairing_same (f : PairingFields) (exact' : Exact f.toJson) :
    ∃ bytes, Mobile.devicePairingBytes (parsed (.int f.userId)) (utf16 f.pairingUuid) (utf16 f.algId)
      (utf16 f.publicKeyB64) (utf16 f.pendingTokenDigest) = .ok bytes ∧ Services.devicePairingBytes f = .ok bytes := by
  refine ⟨_, domainSeparated_parsed exact' (by decide : _ = devicePairDs), ?_⟩
  rw [Services.devicePairingBytes, canonicalJson_server exact']
  rfl

/-! ## Votes -/

theorem utf16_eq_js {t : Text} (clean : Clean t) (s : String) (cleanText : Clean (text s)) :
    utf16 t = js s ↔ t = text s :=
  ⟨utf16_injective clean cleanText, fun same => same ▸ rfl⟩

theorem isDecision_str (t : Text) : isDecision (.str t) = true ↔ t = text "approve" ∨ t = text "reject" := by
  simp [isDecision, Json.eq]

def voteJson (hash decision : Text) (signerId : Int) : Json :=
  .dict [("proposal_payload_hash", .str hash), ("decision", .str decision), ("signer_id", .int signerId)]

theorem vote_same (hash decision : Text) (signerId : Int) (exact' : Exact (voteJson hash decision signerId)) :
    (Mobile.voteSigningBytes (utf16 hash) (utf16 decision) (parsed (.int signerId))).toOption =
      (Services.voteSigningBytes hash (.str decision) (.int signerId)).toOption := by
  have clean : Clean decision := by
    cases exact' with
    | dict keys each =>
      cases each _ (List.mem_cons_of_mem _ List.mem_cons_self) with
      | str clean => exact clean
  have approve := utf16_eq_js clean "approve" (clean_text_of _ (by decide))
  have reject := utf16_eq_js clean "reject" (clean_text_of _ (by decide))
  by_cases isVote : decision = text "approve" ∨ decision = text "reject"
  · have counted : isDecision (.str decision) = true := (isDecision_str decision).mpr isVote
    have phone : Mobile.voteSigningBytes (utf16 hash) (utf16 decision) (parsed (.int signerId)) =
        .ok (signed voteDs (voteJson hash decision signerId)) := by
      rw [Mobile.voteSigningBytes, if_neg (by rw [Ne, Ne, approve, reject]; tauto)]
      exact domainSeparated_parsed exact' (by decide : _ = voteDs)
    have server : Services.voteSigningBytes hash (.str decision) (.int signerId) =
        .ok (signed voteDs (voteJson hash decision signerId)) := by
      unfold Services.voteSigningBytes
      rw [counted]
      exact congrArg (Except.map fun body => voteDs ++ asciiBytes "|" ++ body) (canonicalJson_server exact')
    rw [phone, server]
    rfl
  · have refused : isDecision (.str decision) = false :=
      Bool.eq_false_iff.mpr fun counted => isVote ((isDecision_str decision).mp counted)
    rw [Mobile.voteSigningBytes, if_pos (by rw [Ne, Ne, approve, reject]; tauto), Services.voteSigningBytes, refused]
    rfl

/-! ## Recovery -/

theorem unit_val {c : CodePoint} (small : c.val < 128) : (unit c).val = c.val := by
  simp only [unit, Fin.val_ofNat]
  omega

theorem unit_eq {c d : CodePoint} (left : c.val < 128) (right : d.val < 128) : unit c = unit d ↔ c = d := by
  rw [Fin.ext_iff, Fin.ext_iff, unit_val left, unit_val right]

theorem matched_small {n : Nat} {pattern t : List (Fin n)} (digit : Fin n → Bool) (hole : Fin n → Bool)
    (fixed : ∀ p ∈ pattern, p.val < 128) (digits : ∀ c, digit c = true → c.val < 128)
    (length : t.length = pattern.length)
    (fits : ((t.zip pattern).all fun (c, p) => if hole p then digit c else c == p) = true) : ∀ c ∈ t, c.val < 128 := by
  induction t generalizing pattern with
  | nil => exact fun c none => (nomatch none)
  | cons c t ih =>
    cases pattern with
    | nil => cases length
    | cons p pattern =>
      simp only [List.zip_cons_cons, List.all_cons, Bool.and_eq_true] at fits
      obtain ⟨first, later⟩ := fits
      have rest := ih (fun q listed => fixed q (List.mem_cons_of_mem _ listed)) (Nat.succ.inj length) later
      intro d listed
      rcases List.mem_cons.mp listed with rfl | among
      · split at first
        · exact digits _ first
        · rw [beq_iff_eq.mp first]
          exact fixed p List.mem_cons_self
      · exact rest d among

theorem isDigitUnit_unit {c : CodePoint} (small : c.val < 128) : isDigitUnit (unit c) = isAsciiDigit c := by
  rw [isDigitUnit, isAsciiDigit, unit_val small]

theorem matched_unit {pattern t : Text} (fixed : Ascii pattern) (ascii : Ascii t) :
    (((t.map unit).zip (pattern.map unit)).all fun (u, p) => if [p] = js "d" then isDigitUnit u else u == p) =
      (t.zip pattern).all fun (c, p) => if p = codePoint 'd' then isAsciiDigit c else c == p := by
  induction t generalizing pattern with
  | nil => rfl
  | cons c t ih =>
    cases pattern with
    | nil => rfl
    | cons p pattern =>
      have cSmall := ascii c List.mem_cons_self
      have pSmall := fixed p List.mem_cons_self
      have hole : [unit p] = js "d" ↔ p = codePoint 'd' := by
        rw [show js "d" = [unit (codePoint 'd')] from by decide, List.singleton_inj]
        exact unit_eq pSmall (by decide)
      have alike : (unit c == unit p) = (c == p) := by
        rw [Bool.eq_iff_iff, beq_iff_eq, beq_iff_eq, unit_eq cSmall pSmall]
      simp only [List.map_cons, List.zip_cons_cons, List.all_cons, hole, isDigitUnit_unit cSmall, alike]
      rw [ih (fun q listed => fixed q (List.mem_cons_of_mem _ listed))
        fun d listed => ascii d (List.mem_cons_of_mem _ listed)]

theorem isWholeSecondUtc_utf16 (t : Text) : Mobile.isWholeSecondUtc (utf16 t) = Services.isWholeSecondUtc t := by
  have fixed : Ascii (text "dddd-dd-ddTdd:dd:ddZ") := ascii_of_all (by decide)
  by_cases ascii : Ascii t
  · unfold Mobile.isWholeSecondUtc Services.isWholeSecondUtc
    have pattern : js "dddd-dd-ddTdd:dd:ddZ" = (text "dddd-dd-ddTdd:dd:ddZ").map unit := utf16_ascii fixed
    simp only [pattern, utf16_ascii ascii, List.length_map, matched_unit fixed ascii]
  · have phone : Mobile.isWholeSecondUtc (utf16 t) = false := by
      rw [Bool.eq_false_iff]
      intro fits
      unfold Mobile.isWholeSecondUtc at fits
      simp only [Bool.and_eq_true, beq_iff_eq] at fits
      have fixedUnits : ((js "dddd-dd-ddTdd:dd:ddZ").all fun u => u.val < 128) = true := by decide
      exact ascii (ascii_of_utf16 (matched_small isDigitUnit (fun p => [p] = js "d")
        (by simpa using List.all_eq_true.mp fixedUnits)
        (by
          intro u digit
          simp only [isDigitUnit, Bool.and_eq_true, decide_eq_true_eq] at digit
          omega) fits.1 (by simpa using fits.2)))
    have server : Services.isWholeSecondUtc t = false := by
      rw [Bool.eq_false_iff]
      intro fits
      unfold Services.isWholeSecondUtc at fits
      simp only [Bool.and_eq_true, beq_iff_eq] at fits
      exact ascii (matched_small isAsciiDigit (fun p => p = codePoint 'd') fixed
        (by
          intro c digit
          simp only [isAsciiDigit, Bool.and_eq_true, decide_eq_true_eq] at digit
          omega) fits.1 (by simpa using fits.2))
    rw [phone, server]

theorem exact_field {fields : List (Text × Json)} {f : Text × Json} (exact' : Exact (.dict fields))
    (listed : f ∈ fields) : Exact f.2 := by
  cases exact' with
  | dict keys each => exact each f listed

theorem exact_str {s : Text} (exact' : Exact (.str s)) : Clean s := by
  cases exact' with
  | str clean => exact clean

theorem exact_int {n : Int} (exact' : Exact (.int n)) : n.natAbs ≤ JsNumber.maxSafe := by
  cases exact' with
  | int safe => exact safe

theorem mem_recoveryPurposes (t : Text) : t ∈ recoveryPurposes ↔ t = text "web_reset" ∨ t = text "kit_confirm" := by
  simp [recoveryPurposes]

theorem recovery_same (f : RecoveryFields) (exact' : Exact f.toJson) :
    (Mobile.recoverySigningBytes (parsed f.toJson)).toOption = (Services.recoverySigningBytes f).toOption := by
  have purpose : (parsed f.toJson).get "purpose" = .ok (.string (utf16 f.purpose)) := rfl
  have expires : (parsed f.toJson).own "expires_at" = .string (utf16 f.expiresAt) := rfl
  have body : recoveryBody (parsed f.toJson) = parsed f.toJson := rfl
  have clean : Clean f.purpose := exact_str (exact_field exact' List.mem_cons_self)
  have webReset := utf16_eq_js clean "web_reset" (clean_text_of _ (by decide))
  have kitConfirm := utf16_eq_js clean "kit_confirm" (clean_text_of _ (by decide))
  have unknown : (!(JsValue.string (utf16 f.purpose)).same (.string (js "web_reset")) &&
      !(JsValue.string (utf16 f.purpose)).same (.string (js "kit_confirm"))) = decide (f.purpose ∉ recoveryPurposes) := by
    rw [Bool.eq_iff_iff]
    simp [JsValue.same, mem_recoveryPurposes, webReset, kitConfirm]
  unfold Mobile.recoverySigningBytes Services.recoverySigningBytes
  rw [purpose, expires, body, domainSeparated_parsed exact' (by decide : _ = recoveryDs), canonicalJson_server exact']
  simp only [bind, Except.bind, unknown, JsValue.toText, isWholeSecondUtc_utf16, decide_eq_true_eq]
  by_cases known : f.purpose ∈ recoveryPurposes
  · simp only [known, not_true_eq_false, if_false]
    cases Services.isWholeSecondUtc f.expiresAt <;> rfl
  · rw [if_pos known, if_pos known]
    rfl

/-! ## Decisions -/

theorem parsed_ints {signers : List Int} (safe : ∀ n ∈ signers, n.natAbs ≤ JsNumber.maxSafe) :
    parsedItems (signers.map .int) = signers.map fun n : Int => JsValue.number (.finite (n : Rat)) := by
  rw [parsedItems_eq, List.map_map]
  refine List.map_congr_left fun n listed => ?_
  simp [parsed, readInt_safe (safe n listed), JsNumber.ofInt]

theorem mapM_finite (signers : List Int) :
    (signers.map fun n : Int => JsValue.number (.finite (n : Rat))).mapM finite? =
      some (signers.map fun n : Int => (n : Rat)) := by
  induction signers with
  | nil => rfl
  | cons n rest ih => simp [finite?, ih]

theorem sortSigners_parsed (engineSort : List JsValue → Except JsError (List JsValue)) {signers : List Int}
    (safe : ∀ n ∈ signers, n.natAbs ≤ JsNumber.maxSafe) :
    Mobile.sortSigners engineSort (parsed (.list (signers.map .int))) =
      .ok (parsedItems ((signers.insertionSort (· ≤ ·)).map .int)) := by
  have ordered : (signers.map fun n : Int => (n : Rat)).insertionSort (· ≤ ·) =
      (signers.insertionSort (· ≤ ·)).map fun n : Int => (n : Rat) := by
    refine (List.map_insertionSort (r := (· ≤ ·)) (s := (· ≤ ·)) (fun n : Int => (n : Rat)) signers ?_).symm
    intro a _ b _
    exact Int.cast_le.symm
  have safeOrdered : ∀ n ∈ signers.insertionSort (· ≤ ·), n.natAbs ≤ JsNumber.maxSafe :=
    fun n listed => safe n ((List.perm_insertionSort _ _).mem_iff.mp listed)
  rw [parsed, Mobile.sortSigners]
  simp only [bind, Except.bind, parsed_ints safe, mapM_finite, ordered, parsed_ints safeOrdered, List.map_map]
  rfl

theorem signingInputs_eq (p : Proposal) : p.signingInputs = p.fields.toJson := by
  have policy : p.signingPolicy (p.authorizedSigners.insertionSort (· ≤ ·)) = p.fields.policy :=
    congrArg (fun signers => Json.dict [(text "M", .int p.requiredM), (text "N", .int p.requiredN),
      (text "signers", .list signers)]) (sortSigners_ints p.authorizedSigners).symm
  unfold Proposal.signingInputs Proposal.signingInputsIn ProposalFields.toJson
  rw [policy]
  cases action : p.action with
  | none => simp only [Proposal.fields, action]
  | some stored => simp only [Proposal.fields, action, StoredAction.canonical]

theorem exact_policy {f : ProposalFields} (exact' : Exact f.toJson) : Exact f.policy := by
  unfold ProposalFields.toJson at exact'
  have fields : ∀ fields : List (Text × Json), (text "policy", f.policy) ∈ fields → Exact (.dict fields) →
      Exact f.policy := fun fields listed exact'' => exact_field exact'' listed
  split at exact'
  · exact fields _ (by simp) exact'
  · exact fields _ (by simp) exact'

theorem safe_signers {p : Proposal} (exact' : Exact p.fields.toJson) :
    ∀ n ∈ p.authorizedSigners, n.natAbs ≤ JsNumber.maxSafe := by
  intro n listed
  have policy : Exact p.fields.policy := exact_policy exact'
  have signers := exact_field policy (List.mem_cons_of_mem _ (List.mem_cons_of_mem _ List.mem_cons_self))
  cases signers with
  | list each =>
    refine exact_int (each (.int n) ?_)
    exact (List.perm_insertionSort _ _).mem_iff.mpr (List.mem_map_of_mem listed)

section Proposals
variable (engineSort : List JsValue → Except JsError (List JsValue))

theorem policyBody_parsed (p : Proposal) {signers : List Int} (safe : ∀ n ∈ signers, n.natAbs ≤ JsNumber.maxSafe) :
    policyBody engineSort (parsed (p.signingPolicy signers)) =
      .ok (parsed (p.signingPolicy (signers.insertionSort (· ≤ ·)))) :=
  congrArg (Except.map fun ordered => JsValue.object [(js "M", parsed (.int p.requiredM)),
    (js "N", parsed (.int p.requiredN)), (js "signers", .array ordered)]) (sortSigners_parsed engineSort safe)

-- Whatever order the signers come in, the phone's body is the server's.
theorem proposalBody_parsed {p : Proposal} {signers : List Int} (perm : signers.Perm p.authorizedSigners)
    (safe : ∀ n ∈ p.authorizedSigners, n.natAbs ≤ JsNumber.maxSafe) :
    proposalBody engineSort (parsed (p.signingInputsIn signers)) = .ok (parsed p.signingInputs) := by
  have policy := policyBody_parsed engineSort p fun n listed => safe n (perm.mem_iff.mp listed)
  have ordered : signers.insertionSort (· ≤ ·) = p.authorizedSigners.insertionSort (· ≤ ·) :=
    ((List.perm_insertionSort _ _).trans (perm.trans (List.perm_insertionSort _ _).symm)).eq_of_pairwise'
      (List.pairwise_insertionSort _ _) (List.pairwise_insertionSort _ _)
  rw [ordered] at policy
  let body (policy : JsValue) : List (JsString × JsValue) :=
    [(js "vault_id", parsed (.int p.vaultId)), (js "proposal_id", parsed (.str p.proposalUuid)),
      (js "action_text", parsed (.str p.actionText)), (js "file_sha256", parsed (optionText p.fileSha256)),
      (js "policy", policy), (js "nonce", parsed (.str (hexText p.nonce))),
      (js "created_at", parsed (.str p.createdAtIso))]
  unfold Proposal.signingInputs Proposal.signingInputsIn
  cases action : p.action with
  | none => exact congrArg (Except.map fun policy => JsValue.object (body policy)) policy
  | some stored =>
    exact congrArg (Except.map fun policy => JsValue.object (body policy ++ [(js "action", parsed stored.canonical)]))
      policy

theorem proposal_same {p : Proposal} {signers : List Int} (perm : signers.Perm p.authorizedSigners)
    (exact' : Exact p.fields.toJson) :
    ∃ bytes, Mobile.proposalSigningBytes engineSort (parsed (p.signingInputsIn signers)) = .ok bytes ∧
      signingBytesFor p = .ok bytes := by
  refine ⟨signed proposalDs p.fields.toJson, ?_, ?_⟩
  · rw [Mobile.proposalSigningBytes, proposalBody_parsed engineSort perm (safe_signers exact'), signingInputs_eq]
    exact domainSeparated_parsed exact' (by decide)
  · rw [signingBytesFor, Services.proposalSigningBytes, canonicalJson_server exact']
    rfl

end Proposals

theorem phone_signs_the_same_bytes (engineSort : List JsValue → Except JsError (List JsValue)) :
    (∀ value, Exact value → ∃ bytes, Mobile.canonicalJson (parsed value) = .ok bytes ∧
      Python.canonicalJson value = .ok bytes) ∧
    (∀ (p : Proposal) (signers : List Int), signers.Perm p.authorizedSigners → Exact p.fields.toJson →
      ∃ bytes, Mobile.proposalSigningBytes engineSort (parsed (p.signingInputsIn signers)) = .ok bytes ∧
        signingBytesFor p = .ok bytes) ∧
    (∀ hash decision signerId, Exact (voteJson hash decision signerId) →
      (Mobile.voteSigningBytes (utf16 hash) (utf16 decision) (parsed (.int signerId))).toOption =
        (Services.voteSigningBytes hash (.str decision) (.int signerId)).toOption) ∧
    (∀ f : EnrolmentFields, Exact f.toJson →
      ∃ bytes, Mobile.deviceEnrolmentBytes (parsed (.int f.userId)) (utf16 f.algId) (utf16 f.publicKeyB64)
        (utf16 f.challenge) = .ok bytes ∧ Services.deviceEnrolmentBytes f = .ok bytes) ∧
    (∀ f : PairingFields, Exact f.toJson →
      ∃ bytes, Mobile.devicePairingBytes (parsed (.int f.userId)) (utf16 f.pairingUuid) (utf16 f.algId)
        (utf16 f.publicKeyB64) (utf16 f.pendingTokenDigest) = .ok bytes ∧
        Services.devicePairingBytes f = .ok bytes) ∧
    ∀ f : RecoveryFields, Exact f.toJson →
      (Mobile.recoverySigningBytes (parsed f.toJson)).toOption = (Services.recoverySigningBytes f).toOption :=
  ⟨fun _ exact' => ⟨_, canonicalJson_parsed exact', canonicalJson_server exact'⟩,
    fun _ _ perm exact' => proposal_same engineSort perm exact', vote_same, enrolment_same, pairing_same,
    recovery_same⟩

/-! ## A decision, a vote and a phone -/

theorem clean_of_all {t : Text} (all : (t.all fun c => !isSurrogate c) = true) : Clean t := by
  intro c listed
  simpa using List.all_eq_true.mp all c listed

theorem exact_dict {fields : List (Text × Json)} (keys : ((fields.map Prod.fst).flatten.all fun c => c.val < 128) = true)
    (each : ∀ x ∈ fields.map Prod.snd, Exact x) : Exact (.dict fields) := by
  refine .dict (fun f listed => clean_of_ascii fun c among => ?_) fun f listed => each _ (List.mem_map_of_mem listed)
  exact ascii_of_all keys c (List.mem_flatten.mpr ⟨f.1, List.mem_map_of_mem listed, among⟩)

theorem exact_str_of_all {t : Text} (all : (t.all fun c => !isSurrogate c) = true) : Exact (.str t) :=
  .str (clean_of_all all)

def samplePayment : StoredAction :=
  ⟨"eth_transfer", 11155111, "0xTreasury", "0xRecipient", "1000", "0x", 100000, 1800000000, 4,
    some ("0xTreasury", 11155111)⟩

def sampleProposal : Proposal :=
  ⟨1, "uuid-1", 7, 3, "Rent", text "Pay “Ann” " ++ [0x1F600], none, some samplePayment, [1, 2, 255],
    "2026-01-01T00:00:00", [9, 3, 5], "", 2, 3, none, none, .open, []⟩

def sampleEnrolment : EnrolmentFields := ⟨5, "ml-dsa-65", "AAAA", "nonce"⟩
def samplePairing : PairingFields := ⟨5, "uuid-2", "ml-dsa-65", "AAAA", "digest"⟩
def sampleRecovery : RecoveryFields := ⟨"web_reset", "uuid-3", 5, 8, 13, "deployment", "2026-01-01T00:00:00Z"⟩

theorem exact_sample : Exact sampleProposal.fields.toJson := by
  have policy : Exact sampleProposal.fields.policy := by
    apply exact_dict (by decide)
    simp only [List.map_cons, List.map_nil, List.forall_mem_cons]
    refine ⟨.int (by decide), .int (by decide), .list ?_, fun x none => (nomatch none)⟩
    intro x listed
    have among := (List.perm_insertionSort _ _).mem_iff.mp listed
    simp only [sampleProposal, Proposal.fields, List.map_cons, List.map_nil, List.mem_cons, List.not_mem_nil,
      or_false] at among
    rcases among with rfl | rfl | rfl <;> exact .int (by decide)
  have payment : Exact samplePayment.canonical := by
    apply exact_dict (by decide)
    simp only [List.map_cons, List.map_nil, List.forall_mem_cons]
    exact ⟨exact_str_of_all (by decide), .int (by decide), exact_str_of_all (by decide), exact_str_of_all (by decide),
      exact_str_of_all (by decide), exact_str_of_all (by decide), .int (by decide), .int (by decide),
      .int (by decide), fun x none => (nomatch none)⟩
  apply exact_dict (by decide)
  simp only [List.cons_append, List.nil_append, List.map_cons, List.map_nil, List.forall_mem_cons]
  exact ⟨.int (by decide), exact_str_of_all (by decide), exact_str_of_all (by decide), .null, policy,
    exact_str_of_all (by decide), exact_str_of_all (by decide), payment, fun x none => (nomatch none)⟩

theorem phone_signs_the_same_bytes_sample :
    (∃ bytes, Mobile.canonicalJson (parsed sampleProposal.fields.toJson) = .ok bytes ∧
      Python.canonicalJson sampleProposal.fields.toJson = .ok bytes) ∧
    (∃ bytes, Mobile.proposalSigningBytes (fun _ => .error .typeError) (parsed (sampleProposal.signingInputsIn [9, 3, 5])) =
      .ok bytes ∧ signingBytesFor sampleProposal = .ok bytes) ∧
    (Mobile.voteSigningBytes (utf16 "hash") (utf16 "approve") (parsed (.int 5))).toOption =
      (Services.voteSigningBytes "hash" (.str "approve") (.int 5)).toOption ∧
    (∃ bytes, Mobile.deviceEnrolmentBytes (parsed (.int 5)) (utf16 "ml-dsa-65") (utf16 "AAAA") (utf16 "nonce") =
      .ok bytes ∧ Services.deviceEnrolmentBytes sampleEnrolment = .ok bytes) ∧
    (∃ bytes, Mobile.devicePairingBytes (parsed (.int 5)) (utf16 "uuid-2") (utf16 "ml-dsa-65") (utf16 "AAAA")
      (utf16 "digest") = .ok bytes ∧ Services.devicePairingBytes samplePairing = .ok bytes) ∧
    (Mobile.recoverySigningBytes (parsed sampleRecovery.toJson)).toOption =
      (Services.recoverySigningBytes sampleRecovery).toOption := by
  obtain ⟨json, proposals, votes, enrolments, pairings, recoveries⟩ :=
    phone_signs_the_same_bytes fun _ => .error .typeError
  refine ⟨json _ exact_sample, proposals _ _ (.refl _) exact_sample, votes _ _ _ ?_, enrolments sampleEnrolment ?_,
    pairings samplePairing ?_, recoveries sampleRecovery ?_⟩
  all_goals
    apply exact_dict (by decide)
    simp only [List.map_cons, List.map_nil, List.forall_mem_cons]
  · exact ⟨exact_str_of_all (by decide), exact_str_of_all (by decide), .int (by decide), fun x none => (nomatch none)⟩
  · exact ⟨.int (by decide), exact_str_of_all (by decide), exact_str_of_all (by decide), exact_str_of_all (by decide),
      fun x none => (nomatch none)⟩
  · exact ⟨.int (by decide), exact_str_of_all (by decide), exact_str_of_all (by decide), exact_str_of_all (by decide),
      exact_str_of_all (by decide), fun x none => (nomatch none)⟩
  · exact ⟨exact_str_of_all (by decide), exact_str_of_all (by decide), .int (by decide), .int (by decide),
      .int (by decide), exact_str_of_all (by decide), exact_str_of_all (by decide), fun x none => (nomatch none)⟩

end QVault.Proof.Mobile
