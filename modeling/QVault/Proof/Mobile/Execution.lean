import QVault.Mobile.Execution
import QVault.Proof.Mobile.Signing
import QVault.Proof.Chain.Digests
import QVault.Proof.Chain.TreasurySafety

/-!
# The phone's digests are the treasury's

The phone, the server, the contract and the offline verifier hash one message for one transfer, and
the first three one message for one change of signers.
-/

namespace QVault.Proof.Mobile
open QVault.Python QVault.Services QVault.Chain QVault.Mobile QVault.Proof.Codecs QVault.Proof.Chain

/-! ## Fields of an object -/

theorem utf16_eq_ascii {s : Text} {key : String} (ascii : Ascii (text key)) : utf16 s = js key ↔ s = text key := by
  refine ⟨fun same => ?_, fun same => same ▸ rfl⟩
  have small : ∀ u ∈ utf16 s, u.val < 128 := by
    intro u listed
    rw [same, js, utf16_ascii ascii] at listed
    obtain ⟨c, isChar, rfl⟩ := List.mem_map.mp listed
    rw [unit_val (ascii c isChar)]
    exact ascii c isChar
  exact utf16_injective (clean_of_ascii (ascii_of_utf16 small)) (clean_of_ascii ascii) same

theorem lookup_parsed {fields : List (Text × Json)} {key : String} (ascii : Ascii (text key)) :
    JsValue.lookup (js key) (parsedFields fields) = (Json.lookup (text key) fields).map parsed := by
  induction fields with
  | nil => rfl
  | cons f rest ih =>
    obtain ⟨name, value⟩ := f
    rw [parsedFields, JsValue.lookup, Json.lookup]
    by_cases here : name = text key
    · rw [if_pos ((utf16_eq_ascii ascii).mpr here), if_pos here]
      rfl
    · rw [if_neg fun same => here ((utf16_eq_ascii ascii).mp same), if_neg here, ih]

theorem own_parsed {fields : List (Text × Json)} {key : String} {value : Json} (ascii : Ascii (text key))
    (found : Json.get fields (text key) = value) (present : value ≠ .null) :
    (parsed (.dict fields)).own key = parsed value := by
  rw [parsed, JsValue.own, lookup_parsed ascii]
  unfold Json.get at found
  cases there : Json.lookup (text key) fields with
  | none =>
    rw [there] at found
    exact absurd found.symm present
  | some other =>
    rw [there] at found
    rw [Option.getD_some] at found
    rw [found]
    rfl

/-! ## Words -/

theorem word_ok {value : Int} {max : Nat} (what : JsString) (low : 0 ≤ value) (high : value ≤ max)
    (fits : max < 2 ^ 256) : word value max what = .ok (abiWord (BitVec.ofInt 256 value)) := by
  have below : value < 2 ^ 256 := lt_of_le_of_lt high (by exact_mod_cast fits)
  rw [word, if_neg (by omega), abiWord_ofInt low below]

theorem integer_safe {value : Int} {max : Nat} (what : JsString) (low : 0 ≤ value) (safe : value ≤ maxSafeInteger)
    (high : value ≤ max) (fits : max < 2 ^ 256) :
    integer (parsed (.int value)) max what = .ok (abiWord (BitVec.ofInt 256 value)) := by
  have isSafe : value.natAbs ≤ JsNumber.maxSafe := by
    unfold maxSafeInteger at safe
    unfold JsNumber.maxSafe
    omega
  rw [parsed, readInt_safe isSafe, integer, safe_int isSafe]
  exact word_ok what low high fits

theorem isDigitUnit_small {c : CodePoint} (ascii : Ascii [c]) : isDigitUnit (unit c) = isAsciiDigit c :=
  isDigitUnit_unit (ascii c List.mem_cons_self)

theorem decimalValue_unit {value : Text} (ascii : Ascii value) (start : Nat) :
    (value.map unit).foldl (fun n u => 10 * n + (u.val - 48)) start =
      value.foldl (fun n c => 10 * n + (c.val - 48)) start := by
  induction value generalizing start with
  | nil => rfl
  | cons c rest ih =>
    rw [List.map_cons, List.foldl_cons, List.foldl_cons, unit_val (ascii c List.mem_cons_self)]
    exact ih (fun d listed => ascii d (List.mem_cons_of_mem _ listed)) _

theorem ascii_of_digits {value : Text} (digits : value.all isAsciiDigit = true) : Ascii value := by
  intro c listed
  have digit := List.all_eq_true.mp digits c listed
  simp only [isAsciiDigit, Bool.and_eq_true, decide_eq_true_eq] at digit
  omega

theorem isDecimal_utf16 {value : Text} (decimal : Chain.isDecimal value = true) :
    Mobile.isDecimal (utf16 value) = true ∧ Mobile.decimalValue (utf16 value) = Services.decimalValue value := by
  simp only [Chain.isDecimal, Bool.and_eq_true, decide_eq_true_eq, Bool.or_eq_true, beq_iff_eq, bne_iff_ne] at decimal
  obtain ⟨⟨nonempty, digits⟩, form⟩ := decimal
  have ascii := ascii_of_digits digits
  rw [utf16_ascii ascii]
  refine ⟨?_, decimalValue_unit ascii 0⟩
  cases value with
  | nil => simp at nonempty
  | cons c rest =>
    have units : ((c :: rest).map unit).all isDigitUnit = true := by
      rw [List.all_map, List.all_eq_true]
      intro d listed
      rw [Function.comp_apply, isDigitUnit_unit (ascii d listed)]
      exact List.all_eq_true.mp digits d listed
    rcases form with zero | leading
    · rw [zero]
      decide
    · have first : some (unit c) ≠ (js "0").head? := by
        intro same
        have zero : unit c = unit (digitChar 0) := Option.some.inj same
        exact leading (congrArg some ((unit_eq (ascii c List.mem_cons_self) (by decide)).mp zero))
      simp only [Mobile.isDecimal, units, Bool.or_eq_true, Bool.and_eq_true, bne_iff_ne]
      exact .inr ⟨⟨rfl, trivial⟩, first⟩

theorem integer_decimal {value : Text} {max : Nat} (what : JsString) (decimal : Chain.isDecimal value = true)
    (high : Services.decimalValue value ≤ max) (fits : max < 2 ^ 256) :
    integer (parsed (.str value)) max what = .ok (abiWord (BitVec.ofInt 256 (Services.decimalValue value))) := by
  obtain ⟨isDecimal, same⟩ := isDecimal_utf16 decimal
  rw [parsed, integer]
  simp only [isDecimal, same]
  exact word_ok what (by omega) (by exact_mod_cast high) fits

/-! ## Hexadecimal -/

theorem hexUnit_unit {c : CodePoint} (small : c.val < 128) : hexUnit (unit c) = hexValue c := by
  unfold hexUnit hexValue
  rw [unit_val small]

theorem hexUnit_lowerUnit {c : CodePoint} (digit : isHexDigit c = true) : hexUnit (lowerUnit (unit c)) = hexValue c := by
  obtain ⟨d, _, _, _, small⟩ := hexValue_digit digit
  have all : ∀ c : Fin 128, hexUnit (lowerUnit (Fin.ofNat _ c.val)) = hexUnit (Fin.ofNat _ c.val) := by decide
  rw [← hexUnit_unit small]
  exact all ⟨c.val, small⟩

theorem fromHex_units {t : Text} (hex : ∀ c ∈ t, isHexDigit c = true) (even : t.length % 2 = 0) :
    Mobile.fromHex (toLowerCase (t.map unit)) = .ok (hexBytes t) := by
  induction t using hexBytes.induct with
  | case1 high low rest ih =>
    have first := hexUnit_lowerUnit (hex high List.mem_cons_self)
    have second := hexUnit_lowerUnit (hex low (List.mem_cons_of_mem _ List.mem_cons_self))
    have later := ih (fun c listed => hex c (List.mem_cons_of_mem _ (List.mem_cons_of_mem _ listed)))
      (by simp only [List.length_cons] at even; omega)
    simp only [toLowerCase, List.map_cons] at later ⊢
    rw [Mobile.fromHex, later, first, second]
    rfl
  | case2 t noPair =>
    cases t with
    | nil => rfl
    | cons c rest =>
      cases rest with
      | nil => simp at even
      | cons d rest => exact absurd rfl (noPair c d rest)

theorem isHexUnit_unit {c : CodePoint} (digit : isHexDigit c = true) : isHexUnit (unit c) = true := by
  obtain ⟨d, value, _, _, small⟩ := hexValue_digit digit
  rw [isHexUnit, hexUnit_unit small, value]
  rfl

theorem ascii_of_hex {t : Text} (hex : ∀ c ∈ t, isHexDigit c = true) : Ascii t := by
  intro c listed
  obtain ⟨d, _, _, _, small⟩ := hexValue_digit (hex c listed)
  exact small

theorem utf16_marked {t : Text} (hex : ∀ c ∈ t, isHexDigit c = true) :
    utf16 (text "0x" ++ t) = js "0x" ++ t.map unit := by
  rw [utf16_append, utf16_ascii (ascii_of_hex hex)]
  rfl

theorem all_units {t : Text} (hex : ∀ c ∈ t, isHexDigit c = true) : (t.map unit).all isHexUnit = true := by
  rw [List.all_map, List.all_eq_true]
  exact fun c listed => isHexUnit_unit (hex c listed)

theorem address_parsed {value : Text} (what : JsString) (isAddress : IsAddress value) :
    address (parsed (.str value)) what = .ok (abiWord ((addressBits value).setWidth 256)) := by
  have marked : value = text "0x" ++ value.drop 2 := by
    conv_lhs => rw [← List.take_append_drop 2 value, isAddress.mark]
  have units : utf16 value = js "0x" ++ (value.drop 2).map unit := by
    conv_lhs => rw [marked]
    exact utf16_marked isAddress.hex
  have digits : (js "0x" ++ (value.drop 2).map unit).drop 2 = (value.drop 2).map unit := rfl
  have mark : (js "0x" ++ (value.drop 2).map unit).take 2 = js "0x" := rfl
  rw [parsed, address, units]
  simp only [JsValue.toText, bind, Except.bind, mark, digits, List.length_map, isAddress.length, all_units isAddress.hex,
    beq_self_eq_true, Bool.and_self, Bool.not_true, Bool.false_eq_true, if_false]
  rw [fromHex_units isAddress.hex (by rw [isAddress.length]), abiWord_address isAddress]
  rfl

theorem isLowerHexUnit_unit {c : CodePoint} (small : c.val < 128) : isLowerHexUnit (unit c) = Verify.isLowerHex c := by
  rw [isLowerHexUnit, Verify.isLowerHex, unit_val small]

theorem all_lower {payloadHash : Text} (isHash : IsHash payloadHash) :
    (payloadHash.map unit).all isLowerHexUnit = payloadHash.all Verify.isLowerHex := by
  rw [List.all_map, Bool.eq_iff_iff, List.all_eq_true, List.all_eq_true]
  refine forall₂_congr fun c listed => ?_
  rw [Function.comp_apply, isLowerHexUnit_unit (ascii_of_hex isHash.hex c listed)]

theorem hash_unmarked_units {payloadHash : Text} (isHash : IsHash payloadHash) :
    (payloadHash.map unit).take 2 ≠ js "0x" := by
  intro marked
  have among : unit (codePoint 'x') ∈ payloadHash.map unit :=
    List.mem_of_mem_take (marked ▸ (by decide) : unit (codePoint 'x') ∈ (payloadHash.map unit).take 2)
  obtain ⟨c, listed, same⟩ := List.mem_map.mp among
  have digit := isHexUnit_unit (isHash.hex c listed)
  rw [same] at digit
  exact absurd digit (by decide)

theorem toLowerCase_lower {payloadHash : Text} (isHash : IsHash payloadHash)
    (lower : payloadHash.all Verify.isLowerHex = true) : toLowerCase (payloadHash.map unit) = payloadHash.map unit := by
  rw [toLowerCase, List.map_map]
  refine List.map_congr_left fun c listed => ?_
  have digit := List.all_eq_true.mp lower c listed
  have value := unit_val (ascii_of_hex isHash.hex c listed)
  simp only [Verify.isLowerHex, Bool.or_eq_true, Bool.and_eq_true, decide_eq_true_eq] at digit
  rw [Function.comp_apply, lowerUnit, if_neg (by rw [value]; omega)]

theorem bytes32_lower {payloadHash : Text} (what : JsString) (isHash : IsHash payloadHash)
    (lower : payloadHash.all Verify.isLowerHex = true) :
    bytes32 (utf16 payloadHash) what = .ok (hexBytes payloadHash) := by
  rw [bytes32, utf16_ascii (ascii_of_hex isHash.hex), if_neg (hash_unmarked_units isHash), all_lower isHash, lower,
    List.length_map, isHash.length, ← toLowerCase_lower isHash lower]
  exact fromHex_units isHash.hex (by rw [isHash.length])

theorem bytes32_capital {payloadHash : Text} (what : JsString) (isHash : IsHash payloadHash)
    (capital : payloadHash.all Verify.isLowerHex = false) :
    bytes32 (utf16 payloadHash) what = fail (what ++ js " is not 32 bytes of lower-case hex") := by
  rw [bytes32, utf16_ascii (ascii_of_hex isHash.hex), if_neg (hash_unmarked_units isHash), all_lower isHash, capital,
    Bool.and_false]
  rfl

/-! ## Execution digests -/

section Execution
variable {keccak256 : Bytes → Word} {payloadHash : Text} {fields : List (Text × Json)} {transfer : EthTransfer}

-- What the phone reads of a transfer that `parse` accepts
structure Read (action : JsValue) (transfer : EthTransfer) (shown : Text) : Prop where
  kind : action.get "kind" = .ok (.string (js "eth_transfer"))
  data : action.own "data" = .string (js "0x")
  treasury : action.own "treasury" = parsed (.str transfer.treasury)
  recipient : action.own "to" = parsed (.str transfer.recipient)
  valueWei : action.own "value_wei" = parsed (.str shown)
  chainId : action.own "chain_id" = parsed (.int transfer.chainId)
  callGas : action.own "call_gas" = parsed (.int transfer.callGas)
  validUntil : action.own "valid_until" = parsed (.int transfer.validUntil)
  configNonce : action.own "config_nonce" = parsed (.int transfer.configNonce)

theorem read_parsed {shown : Text} (accepted : Parsed keccak256 fields transfer)
    (written : Json.get fields "value_wei" = .str shown) : Read (parsed (.dict fields)) transfer shown where
  kind := congrArg Except.ok (own_parsed (ascii_of_all (by decide)) accepted.kind (by simp))
  data := own_parsed (ascii_of_all (by decide)) accepted.data (by simp)
  treasury := own_parsed (ascii_of_all (by decide)) accepted.treasury (by simp)
  recipient := own_parsed (ascii_of_all (by decide)) accepted.recipient (by simp)
  valueWei := own_parsed (ascii_of_all (by decide)) written (by simp)
  chainId := own_parsed (ascii_of_all (by decide)) accepted.chainId (by simp)
  callGas := own_parsed (ascii_of_all (by decide)) accepted.callGas (by simp)
  validUntil := own_parsed (ascii_of_all (by decide)) accepted.validUntil (by simp)
  configNonce := own_parsed (ascii_of_all (by decide)) accepted.configNonce (by simp)

theorem phone_kind : (!(JsValue.string (js "eth_transfer")).same (.string (js "eth_transfer")) ||
    !(JsValue.string (js "0x")).same (.string (js "0x"))) = false := by decide

theorem phone_digest (accepted : Parsed keccak256 fields transfer) (isHash : IsHash payloadHash)
    (lower : payloadHash.all Verify.isLowerHex = true) :
    Mobile.executionDigest (fun b => abiWord (keccak256 b)) (utf16 payloadHash) (parsed (.dict fields)) =
      .ok (transferDigest keccak256 transfer payloadHash) := by
  obtain ⟨chain, value, gas, deadline, nonce⟩ := accepted.range
  obtain ⟨shown, written, decimal, amount⟩ := accepted.value
  have small : Services.decimalValue shown < 2 ^ 256 := by
    have bound := amount ▸ value.2
    exact_mod_cast bound
  obtain ⟨kind, data, treasury, recipient, valueWei, chainId, callGas, validUntil, configNonce⟩ :=
    read_parsed accepted written
  have fits : Services.decimalValue shown ≤ Mobile.uint256Max := by
    unfold Mobile.uint256Max
    omega
  have tag : utf8Encode (js "QVAULT-TREASURY-v1:EXECUTE") = asciiBytes "QVAULT-TREASURY-v1:EXECUTE" := by decide
  unfold Mobile.executionDigest
  rw [kind, data, treasury, recipient, valueWei, chainId, callGas, validUntil, configNonce,
    integer_safe _ (by omega) (by rw [chain]; decide) (by rw [chain]; decide) (by decide),
    address_parsed _ (checksumAddress_isAddress accepted.treasuryForm),
    integer_safe _ nonce.1 nonce.2 (le_trans nonce.2 (by decide)) (by decide),
    bytes32_lower _ isHash lower, address_parsed _ (checksumAddress_isAddress accepted.recipientForm),
    integer_decimal _ decimal fits (by decide),
    integer_safe _ (by omega) gas.2 (le_trans gas.2 (by decide)) (by decide),
    integer_safe _ (by omega) deadline.2 (le_trans deadline.2 (by decide)) (by decide)]
  simp only [ok_bind, phone_kind, Bool.false_eq_true, if_false]
  unfold transferDigest EthTransfer.message Mobile.executeTag
  simp only [List.flatMap_cons, List.flatMap_nil, hashWord, abiWord_wordOf (hash_length isHash), amount, tag,
    List.append_assoc, List.append_nil]
  rfl

theorem phone_refuses (accepted : Parsed keccak256 fields transfer) (isHash : IsHash payloadHash)
    (capital : payloadHash.all Verify.isLowerHex = false) :
    Mobile.executionDigest (fun b => abiWord (keccak256 b)) (utf16 payloadHash) (parsed (.dict fields)) =
      fail (js "payload hash is not 32 bytes of lower-case hex") := by
  obtain ⟨chain, _, _, _, nonce⟩ := accepted.range
  obtain ⟨shown, written, _, _⟩ := accepted.value
  obtain ⟨kind, data, treasury, _, _, chainId, _, _, configNonce⟩ := read_parsed accepted written
  unfold Mobile.executionDigest
  rw [kind, data, treasury, chainId, configNonce,
    integer_safe _ (by omega) (by rw [chain]; decide) (by rw [chain]; decide) (by decide),
    address_parsed _ (checksumAddress_isAddress accepted.treasuryForm),
    integer_safe _ nonce.1 nonce.2 (le_trans nonce.2 (by decide)) (by decide), bytes32_capital _ isHash capital]
  simp only [ok_bind, phone_kind, Bool.false_eq_true, if_false]
  rfl

end Execution

/-! ## Changes of signers -/

theorem padded_eq (item : Bytes) :
    padded item = item ++ List.replicate ((32 - item.length % 32) % 32) 0 := by
  rw [padded, show (item.length + 31) / 32 * 32 - item.length = (32 - item.length % 32) % 32 by omega]

def offsetsFrom : List Bytes → Nat → List Bytes
  | [], _ => []
  | item :: rest, position => abiWord (BitVec.ofNat 256 position) :: offsetsFrom rest (position + (abiBytes item).length)

theorem word_nat {n max : Nat} (what : JsString) (high : n ≤ max) (fits : max < 2 ^ 256) :
    word (n : Int) max what = .ok (abiWord (BitVec.ofNat 256 n)) := by
  rw [word_ok what (by omega) (by exact_mod_cast high) fits, BitVec.ofInt_natCast]

theorem encodeItems_ok {items : List Bytes} {position : Nat}
    (fits : position + ((items.map abiBytes).map List.length).sum ≤ Mobile.uint256Max) :
    encodeItems items position = .ok (offsetsFrom items position, items.map abiBytes) := by
  induction items generalizing position with
  | nil => rfl
  | cons item rest ih =>
    simp only [List.map_cons, List.sum_cons] at fits
    have body : abiWord (BitVec.ofNat 256 item.length) ++ padded item = abiBytes item := by
      rw [padded_eq, abiBytes, List.append_assoc]
    have short : item.length ≤ (abiBytes item).length := by
      rw [abiBytes, List.length_append, List.length_append]
      omega
    rw [encodeItems, word_nat _ (by omega) (by decide), word_nat _ (by omega) (by decide)]
    simp only [bind, Except.bind, body]
    rw [ih (by omega)]
    rfl

theorem offsetsFrom_eq (items : List Bytes) (position : Nat) :
    (offsetsFrom items position).flatten = ((List.range items.length).map fun i =>
      position + (((items.map abiBytes).take i).map List.length).sum).flatMap fun o => abiWord (BitVec.ofNat 256 o) := by
  induction items generalizing position with
  | nil => rfl
  | cons item rest ih =>
    rw [offsetsFrom, List.flatten_cons, ih, List.length_cons, List.range_succ_eq_map, List.map_cons, List.flatMap_cons,
      List.map_map]
    simp only [List.map_cons, List.take_zero, List.map_nil, List.sum_nil, Nat.add_zero]
    congr 2
    refine List.map_congr_left fun i _ => ?_
    simp only [Function.comp_apply, Nat.succ_eq_add_one, List.take_succ_cons, List.map_cons, List.sum_cons]
    omega

theorem encodeBytesArray_ok {items : List Bytes}
    (fits : 32 * items.length + ((items.map abiBytes).map List.length).sum ≤ Mobile.uint256Max) :
    encodeBytesArray items = .ok (abiBytesArray items) := by
  have head : word 32 Mobile.uint256Max (js "offset") = .ok (abiWord (BitVec.ofNat 256 32)) :=
    word_nat (n := 32) _ (by decide) (by decide)
  rw [encodeBytesArray, encodeItems_ok fits, head, word_nat _ (by omega) (by decide)]
  simp only [bind, Except.bind, offsetsFrom_eq]
  rfl

theorem hexText_digits (bytes : Bytes) : ∀ c ∈ hexText bytes, isHexDigit c = true := by
  intro c listed
  obtain ⟨b, _, among⟩ := List.mem_flatMap.mp listed
  have byte := b.toNat_lt
  simp only [List.mem_cons, List.not_mem_nil, or_false] at among
  unfold isHexDigit
  rcases among with rfl | rfl
  · rw [hexValue_digitChar (by omega)]
    rfl
  · rw [hexValue_digitChar (by omega)]
    rfl

theorem hexBytes_hexText (bytes : Bytes) : hexBytes (hexText bytes) = bytes := by
  have read := fromHex_hexBytes (hexText_digits bytes) (by rw [hexText_length]; omega)
  rw [fromHex_hexText] at read
  exact (Except.ok.inj read).symm

theorem identity_parsed {signer : Bytes} (what : JsString) (length : signer.length = 124) :
    identity (parsed (.str (text "0x" ++ hexText signer))) what = .ok signer := by
  have hex := hexText_digits signer
  have digits : (js "0x" ++ (hexText signer).map unit).drop 2 = (hexText signer).map unit := rfl
  have mark : (js "0x" ++ (hexText signer).map unit).take 2 = js "0x" := rfl
  have long : (js "0x" ++ (hexText signer).map unit).length = 2 + 2 * identityBytes := by
    rw [List.length_append, List.length_map, hexText_length, length]
    rfl
  rw [parsed, identity, utf16_marked hex]
  simp only [JsValue.toText, bind, Except.bind, mark, digits, all_units hex, long, beq_self_eq_true, Bool.and_self,
    if_true]
  rw [fromHex_units hex (by rw [hexText_length]; omega), hexBytes_hexText]

theorem identities_parsed {signers : List Bytes} (what : String) (lengths : ∀ b ∈ signers, b.length = 124) :
    identities (parsed (.list (signers.map fun b => .str (text "0x" ++ hexText b)))) what = .ok signers := by
  have each : ∀ start, ((parsedItems (signers.map fun b => .str (text "0x" ++ hexText b))).zipIdx start).mapM
      (fun (x : JsValue × Nat) => identity x.1 (js what ++ utf16 (natText (x.2 + 1)))) = .ok signers := by
    intro start
    induction signers generalizing start with
    | nil => rfl
    | cons b rest ih =>
      rw [List.map_cons, parsedItems, List.zipIdx_cons, List.mapM_cons, identity_parsed _ (lengths b List.mem_cons_self),
        ih (fun c listed => lengths c (List.mem_cons_of_mem _ listed))]
      rfl
  exact each 0

theorem abiBytes_length {signer : Bytes} (length : signer.length = 124) : (abiBytes signer).length = 160 := by
  rw [abiBytes, List.length_append, List.length_append, abiWord_length, List.length_replicate, length]

theorem identities_fit {signers : List Bytes} (short : signers.length < 2 ^ 32) (lengths : ∀ b ∈ signers, b.length = 124) :
    32 * signers.length + ((signers.map abiBytes).map List.length).sum ≤ Mobile.uint256Max := by
  have total : ((signers.map abiBytes).map List.length).sum = 160 * signers.length := by
    clear short
    induction signers with
    | nil => rfl
    | cons b rest ih =>
      rw [List.map_cons, List.map_cons, List.sum_cons, ih fun c listed => lengths c (List.mem_cons_of_mem _ listed),
        abiBytes_length (lengths b List.mem_cons_self), List.length_cons]
      omega
  have room : 192 * 2 ^ 32 ≤ Mobile.uint256Max := by decide
  rw [total]
  omega

-- What both sides take: identities of 124 bytes, fewer than an array can hold, and safe integers
structure Change where
  chainId : Int
  treasury : Text
  configNonce : Int
  add : List Bytes
  remove : List Bytes
  threshold : Int
  validUntil : Int

structure Change.Fits (change : Change) : Prop where
  chainId : 0 ≤ change.chainId ∧ change.chainId ≤ maxSafeInteger
  configNonce : 0 ≤ change.configNonce ∧ change.configNonce ≤ maxSafeInteger
  validUntil : 0 ≤ change.validUntil ∧ change.validUntil ≤ maxSafeInteger
  add : change.add.length < 2 ^ 32 ∧ ∀ b ∈ change.add, b.length = 124
  remove : change.remove.length < 2 ^ 32 ∧ ∀ b ∈ change.remove, b.length = 124

def Change.inputs (change : Change) : Json :=
  reconfigurationInputs change.chainId change.treasury change.configNonce change.add change.remove change.threshold
    change.validUntil

def Change.digest (keccak256 : Bytes → Word) (change : Change) : Option Bytes :=
  Digest.reconfigureDigest keccak256 change.chainId change.treasury change.configNonce change.add change.remove
    change.threshold change.validUntil

def Change.args (change : Change) : ReconfigureArgs :=
  ⟨change.add, change.remove, BitVec.ofInt 64 change.threshold, BitVec.ofInt 64 change.validUntil⟩

section Reconfiguration
variable {keccak256 : Bytes → Word} {change : Change}

theorem server_reconfigure {checksummed : Text} (fits : change.Fits)
    (form : checksumAddress keccak256 change.treasury = some checksummed)
    (threshold : 1 ≤ change.threshold ∧ change.threshold ≤ 8) : ∃ digest, change.digest keccak256 = some digest := by
  obtain ⟨chain, nonce, deadline, _, _⟩ := fits
  have limit : (Chain.maxThreshold.toNat : Int) = 8 := by decide
  unfold Change.digest Digest.reconfigureDigest Digest.reconfigureDigestUnchecked checkAddress
  rw [limit, if_neg (not_not.mpr threshold), checkUint_some chain.1 (safe_below_word chain.2), form,
    checkUint_some nonce.1 (safe_below_word nonce.2), checkUint_some (by omega) (by omega),
    checkUint_some deadline.1 (safe_below deadline.2)]
  exact ⟨_, rfl⟩

theorem isThreshold_parsed {threshold : Int} (safe : threshold.natAbs ≤ JsNumber.maxSafe) :
    isThreshold (parsed (.int threshold)) = decide (1 ≤ threshold ∧ threshold ≤ 8) := by
  have isSafe := safe_int safe
  rw [parsed, readInt_safe safe]
  unfold JsNumber.ofInt at isSafe ⊢
  have whole : (threshold : Rat).num = threshold := Rat.num_intCast threshold
  simp only [isThreshold, isSafe, whole, Bool.true_and, Bool.decide_and]
  rfl

theorem phone_reconfigure {S : Type} {env : Deployment S} {checksummed : Text} (fits : change.Fits)
    (form : checksumAddress keccak256 change.treasury = some checksummed)
    (threshold : 1 ≤ change.threshold ∧ change.threshold ≤ 8)
    (deployed : DeployedFor keccak256 env change.chainId change.treasury) :
    Mobile.reconfigureDigest (fun b => abiWord (keccak256 b)) (parsed change.inputs) =
      .ok (abiWord (Chain.reconfigureDigest env (BitVec.ofInt 256 change.configNonce) change.args)) := by
  obtain ⟨chain, nonce, deadline, add, remove⟩ := fits
  obtain ⟨hash, chainIs, self⟩ := deployed
  have thresholdIs : (parsed change.inputs).get "threshold" = .ok (parsed (.int change.threshold)) := rfl
  have addIs : (parsed change.inputs).own "add" =
      parsed (.list (change.add.map fun b => .str (text "0x" ++ hexText b))) := rfl
  have removeIs : (parsed change.inputs).own "remove" =
      parsed (.list (change.remove.map fun b => .str (text "0x" ++ hexText b))) := rfl
  have chainField : (parsed change.inputs).own "chain_id" = parsed (.int change.chainId) := rfl
  have treasuryField : (parsed change.inputs).own "treasury" = parsed (.str change.treasury) := rfl
  have nonceField : (parsed change.inputs).own "config_nonce" = parsed (.int change.configNonce) := rfl
  have untilField : (parsed change.inputs).own "valid_until" = parsed (.int change.validUntil) := rfl
  have isThreshold' : isThreshold (parsed (.int change.threshold)) = true := by
    rw [isThreshold_parsed (by unfold JsNumber.maxSafe; omega)]
    exact decide_eq_true threshold
  have tag : utf8Encode (js "QVAULT-TREASURY-v1:RECONFIGURE") = asciiBytes "QVAULT-TREASURY-v1:RECONFIGURE" := by decide
  have thresholdSafe : change.threshold ≤ maxSafeInteger := le_trans threshold.2 (by decide)
  have thresholdWord : integer (parsed (.int change.threshold)) Mobile.uint64Max (js "threshold") = .ok _ :=
    integer_safe _ (by omega) thresholdSafe (le_trans thresholdSafe (by decide)) (by decide)
  unfold Mobile.reconfigureDigest
  rw [thresholdIs, addIs, removeIs, chainField, treasuryField, nonceField, untilField, identities_parsed _ add.2,
    identities_parsed _ remove.2, integer_safe _ chain.1 chain.2 (le_trans chain.2 (by decide)) (by decide),
    address_parsed _ (checksumAddress_isAddress form),
    integer_safe _ nonce.1 nonce.2 (le_trans nonce.2 (by decide)) (by decide),
    integer_safe _ deadline.1 deadline.2 (le_trans deadline.2 (by decide)) (by decide)]
  simp only [ok_bind, isThreshold', Bool.not_true, Bool.false_eq_true, if_false,
    encodeBytesArray_ok (identities_fit add.1 add.2), encodeBytesArray_ok (identities_fit remove.1 remove.2),
    thresholdWord]
  unfold Chain.reconfigureDigest Chain.reconfigureTag Mobile.reconfigureTag Change.args
  simp only [List.flatMap_cons, List.flatMap_nil, tag, hash, chainIs, self, setWidth_ofInt (by omega : 0 ≤ change.threshold)
    (safe_below thresholdSafe), setWidth_ofInt deadline.1 (safe_below deadline.2), List.append_assoc, List.append_nil]
  rfl

theorem phone_refuses_threshold (safe : change.threshold.natAbs ≤ JsNumber.maxSafe)
    (outside : ¬ (1 ≤ change.threshold ∧ change.threshold ≤ 8)) :
    Mobile.reconfigureDigest (fun b => abiWord (keccak256 b)) (parsed change.inputs) =
      fail (js "threshold must be between 1 and 8") := by
  have thresholdIs : (parsed change.inputs).get "threshold" = .ok (parsed (.int change.threshold)) := rfl
  have refused : isThreshold (parsed (.int change.threshold)) = false := by
    rw [isThreshold_parsed safe]
    exact decide_eq_false outside
  unfold Mobile.reconfigureDigest
  rw [thresholdIs]
  simp only [bind, Except.bind, refused]
  rfl

theorem server_refuses_threshold (outside : ¬ (1 ≤ change.threshold ∧ change.threshold ≤ 8)) :
    change.digest keccak256 = none := by
  have limit : (Chain.maxThreshold.toNat : Int) = 8 := by decide
  rw [Change.digest, Digest.reconfigureDigest, limit, if_pos outside]

end Reconfiguration

/-! ## One message for everybody -/

section Agreement
variable {S : Type}

/-- The four encoders agree, and a digest binds what it is of. -/
theorem digests_agree (keccak256 : Bytes → Word) :
    (∀ (action : Json) (transfer : EthTransfer) (payloadHash : Text) (env : Deployment S),
      parse keccak256 action = some transfer → IsHash payloadHash →
      DeployedFor keccak256 env transfer.chainId transfer.treasury →
      ∃ digest, transfer.digest keccak256 payloadHash = some digest ∧
        abiWord (Chain.executionDigest env (BitVec.ofInt 256 transfer.configNonce) (transferArgs transfer payloadHash)) =
          digest ∧
        (payloadHash.all Verify.isLowerHex = true →
          Verify.executionDigest (fun b => abiWord (keccak256 b)) action payloadHash = .ok digest ∧
          Mobile.executionDigest (fun b => abiWord (keccak256 b)) (utf16 payloadHash) (parsed action) = .ok digest) ∧
        (payloadHash.all Verify.isLowerHex = false →
          Verify.executionDigest (fun b => abiWord (keccak256 b)) action payloadHash = .error .valueError ∧
          Mobile.executionDigest (fun b => abiWord (keccak256 b)) (utf16 payloadHash) (parsed action) =
            fail (js "payload hash is not 32 bytes of lower-case hex"))) ∧
    (∀ (change : Change) (env : Deployment S), DeployedFor keccak256 env change.chainId change.treasury →
      (∀ digest, change.digest keccak256 = some digest →
        abiWord (Chain.reconfigureDigest env (BitVec.ofInt 256 change.configNonce) change.args) = digest) ∧
      (change.Fits → (checksumAddress keccak256 change.treasury).isSome = true →
        1 ≤ change.threshold ∧ change.threshold ≤ 8 →
        ∃ digest, change.digest keccak256 = some digest ∧
          Mobile.reconfigureDigest (fun b => abiWord (keccak256 b)) (parsed change.inputs) = .ok digest) ∧
      (change.threshold.natAbs ≤ JsNumber.maxSafe → ¬ (1 ≤ change.threshold ∧ change.threshold ≤ 8) →
        change.digest keccak256 = none ∧
          Mobile.reconfigureDigest (fun b => abiWord (keccak256 b)) (parsed change.inputs) =
            fail (js "threshold must be between 1 and 8"))) ∧
    (∀ (env env' : Deployment S) (nonce nonce' : Word) (args args' : ExecuteArgs),
      env.keccak256 = keccak256 → env'.keccak256 = keccak256 →
      Set.InjOn keccak256 {executionMessage env nonce args, executionMessage env' nonce' args', args.data, args'.data} →
      Chain.executionDigest env nonce args = Chain.executionDigest env' nonce' args' →
      env.chainId = env'.chainId ∧ env.self = env'.self ∧ nonce = nonce' ∧ args = args') ∧
    (∀ (action action' : Json) (transfer transfer' : EthTransfer) (payloadHash payloadHash' : Text),
      parse keccak256 action = some transfer → parse keccak256 action' = some transfer' →
      IsHash payloadHash → IsHash payloadHash' →
      payloadHash.all Verify.isLowerHex = true → payloadHash'.all Verify.isLowerHex = true →
      Set.InjOn keccak256 {transfer.message keccak256 (hashWord payloadHash),
        transfer'.message keccak256 (hashWord payloadHash')} →
      transfer.digest keccak256 payloadHash = transfer'.digest keccak256 payloadHash' →
      transfer = transfer' ∧ payloadHash = payloadHash') ∧
    (∀ (env env' : Deployment S) (nonce nonce' : Word) (args : ExecuteArgs) (change : ReconfigureArgs),
      env.keccak256 = keccak256 → env'.keccak256 = keccak256 →
      Set.InjOn keccak256 {executionMessage env nonce args, reconfigureMessage env' nonce' change} →
      Chain.executionDigest env nonce args ≠ Chain.reconfigureDigest env' nonce' change) := by
  refine ⟨?transfers, ?changes, ?binds, ?transfersBind, ?apart⟩
  case transfers =>
    intro action transfer payloadHash env taken isHash deployed
    obtain ⟨fields, rfl, accepted⟩ := parse_some taken
    refine ⟨_, server_digest accepted isHash, contract_digest accepted.range deployed, fun lower => ?_, fun capital => ?_⟩
    · exact ⟨verifier_digest accepted isHash lower, phone_digest accepted isHash lower⟩
    · exact ⟨verifier_refuses accepted capital, phone_refuses accepted isHash capital⟩
  case changes =>
    intro change env deployed
    refine ⟨fun digest made => (reconfigure_contract deployed made).symm, fun fits valid threshold => ?_,
      fun safe outside => ⟨server_refuses_threshold outside, phone_refuses_threshold safe outside⟩⟩
    obtain ⟨checksummed, form⟩ := Option.isSome_iff_exists.mp valid
    obtain ⟨digest, made⟩ := server_reconfigure fits form threshold
    refine ⟨digest, made, ?_⟩
    rw [phone_reconfigure fits form threshold deployed]
    exact congrArg Except.ok (reconfigure_contract deployed made).symm
  case binds =>
    intro env env' nonce nonce' args args' hash hash' collisionFree same
    exact executionDigest_binds hash hash' collisionFree same
  case transfersBind =>
    intro action action' transfer transfer' payloadHash payloadHash' taken taken' isHash isHash' lower lower'
      collisionFree same
    obtain ⟨fields, rfl, accepted⟩ := parse_some taken
    obtain ⟨fields', rfl, accepted'⟩ := parse_some taken'
    rw [server_digest accepted isHash, server_digest accepted' isHash'] at same
    exact transferDigest_binds accepted accepted' isHash isHash' lower lower' collisionFree (Option.some.inj same)
  case apart =>
    intro env env' nonce nonce' args change hash hash' collisionFree
    exact executionDigest_ne_reconfigureDigest hash hash' collisionFree

end Agreement

/-! ### A transfer that is accepted -/

-- A checksum under which every address is written in lower case
def lengthHash (bytes : Bytes) : Word := BitVec.ofNat 256 bytes.length

def treasuryText : Text := text "0x" ++ List.replicate 40 (digitChar 1)
def recipientText : Text := text "0x" ++ List.replicate 40 (digitChar 2)

def sampleFields : List (Text × Json) :=
  [("kind", .str "eth_transfer"), ("chain_id", .int 11155111), ("treasury", .str treasuryText),
    ("to", .str recipientText), ("value_wei", .str "1000"), ("data", .str "0x"), ("call_gas", .int 21000),
    ("valid_until", .int 1800000000), ("config_nonce", .int 0)]

def sampleTransfer : EthTransfer := ⟨11155111, treasuryText, recipientText, 1000, 21000, 1800000000, 0⟩

theorem parse_sample : parse lengthHash (.dict sampleFields) = some sampleTransfer := rfl

def sampleDeployment : Deployment Multisig :=
  { smallEnv with keccak256 := lengthHash, self := addressBits treasuryText, chainId := BitVec.ofInt 256 11155111 }

theorem sample_deployed : DeployedFor lengthHash sampleDeployment sampleTransfer.chainId sampleTransfer.treasury :=
  ⟨rfl, rfl, rfl⟩

theorem isHash_replicate {c : CodePoint} (digit : isHexDigit c = true) : IsHash (List.replicate 64 c) where
  length := List.length_replicate
  hex d listed := by rwa [List.eq_of_mem_replicate listed]

theorem digests_agree_sample : ∃ digest, sampleTransfer.digest lengthHash (List.replicate 64 (digitChar 3)) = some digest ∧
    Mobile.executionDigest (fun b => abiWord (lengthHash b)) (utf16 (List.replicate 64 (digitChar 3)))
      (parsed (.dict sampleFields)) = .ok digest := by
  obtain ⟨digest, server, -, agree, -⟩ := (digests_agree lengthHash).1 _ _ (List.replicate 64 (digitChar 3)) sampleDeployment
    parse_sample (isHash_replicate (by decide)) sample_deployed
  exact ⟨digest, server, (agree (by decide)).2⟩

-- The server reads a payload hash in capitals, and neither the verifier nor the phone does.
theorem capital_hash_refused : ¬ ∀ (keccak256 : Bytes → Word) (action : Json) (transfer : EthTransfer) (payloadHash : Text),
    parse keccak256 action = some transfer → IsHash payloadHash →
    ∃ digest, transfer.digest keccak256 payloadHash = some digest ∧
      Verify.executionDigest (fun b => abiWord (keccak256 b)) action payloadHash = .ok digest := by
  intro agree
  obtain ⟨digest, -, verified⟩ := agree lengthHash _ _ (List.replicate 64 (codePoint 'A')) parse_sample
    (isHash_replicate (by decide))
  obtain ⟨fields, isDict, accepted⟩ := parse_some parse_sample
  have refused := verifier_refuses accepted (by decide : (List.replicate 64 (codePoint 'A')).all Verify.isLowerHex = false)
  rw [isDict, refused] at verified
  cases verified

end QVault.Proof.Mobile
