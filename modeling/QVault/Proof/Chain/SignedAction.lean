import QVault.Chain.SignedAction
import QVault.Proof.Mobile.Execution
import QVault.Proof.Services.Binding

/-!
# Parsing a payment undoes writing it

What `parse` accepts is the object that the action it returns would be signed as, and an action that is
built is parsed back.
-/

namespace QVault.Proof.Chain
open QVault.Python QVault.Services QVault.Chain QVault.Proof.Codecs QVault.Proof.Canonical QVault.Proof.Mobile

/-! ## Decimal texts -/

theorem decimalValue_natText (n : Nat) : decimalValue (natText n) = n := digitsValue_natText n

theorem asciiDigits_natText (n : Nat) : (natText n).all isAsciiDigit = true :=
  List.all_eq_true.mpr (natText_digits n)

theorem isDecimal_natText {n : Nat} : isDecimal (natText n) = true := by
  have nonempty : 0 < (natText n).length := List.length_pos_of_ne_nil (natText_ne_nil n)
  unfold isDecimal
  by_cases zero : n = 0
  · rw [zero]
    decide
  · have leading : (natText n).head? ≠ some (digitChar 0) := natText_leading zero
    simp [nonempty, asciiDigits_natText, leading]

-- The digits of a decimal text, the last first
theorem decimalValue_eq {digits : Text} (isDigits : digits.all isAsciiDigit = true) :
    decimalValue digits = Nat.ofDigits 10 (digits.reverse.map fun c => c.val - 48) := by
  have folded : ∀ reversed : Text, reversed.foldr (fun c n => 10 * n + (c.val - 48)) 0 =
      Nat.ofDigits 10 (reversed.map fun c => c.val - 48) := by
    intro reversed
    induction reversed with
    | nil => rfl
    | cons c rest ih =>
      rw [List.foldr_cons, List.map_cons, Nat.ofDigits_cons, ih]
      omega
  rw [← folded, List.foldr_reverse]
  rfl

theorem natText_decimalValue {value : Text} (decimal : isDecimal value = true) : natText (decimalValue value) = value := by
  simp only [isDecimal, Bool.and_eq_true, decide_eq_true_eq, Bool.or_eq_true, beq_iff_eq, bne_iff_ne] at decimal
  obtain ⟨⟨nonempty, digits⟩, rfl | leading⟩ := decimal
  · decide
  · have range : ∀ c ∈ value, 48 ≤ c.val ∧ c.val ≤ 57 := by
      intro c listed
      simpa [isAsciiDigit] using List.all_eq_true.mp digits c listed
    let reversed := value.reverse.map fun c => c.val - 48
    have small : ∀ d ∈ reversed, d < 10 := by
      intro d listed
      obtain ⟨c, isChar, rfl⟩ := List.mem_map.mp listed
      have bounds := range c (List.mem_reverse.mp isChar)
      omega
    have last : ∀ some' : reversed ≠ [], reversed.getLast some' ≠ 0 := by
      intro some'
      cases value with
      | nil => simp at nonempty
      | cons c rest =>
        have bounds := range c List.mem_cons_self
        have notZero : c.val ≠ 48 := fun same => leading (congrArg some (Fin.ext same : c = digitChar 0))
        have isLast : reversed.getLast some' = c.val - 48 := by
          simp [reversed]
        omega
    have read : Nat.digits 10 (decimalValue value) = reversed := by
      rw [decimalValue_eq digits]
      exact Nat.digits_ofDigits 10 (by norm_num) reversed small last
    have positive : decimalValue value ≠ 0 := by
      intro zero
      rw [zero, Nat.digits_zero] at read
      have empty : value.reverse = [] := List.map_eq_nil_iff.mp read.symm
      rw [List.reverse_eq_nil_iff.mp empty] at nonempty
      exact absurd nonempty (by decide)
    have undone : reversed.reverse = value.map fun c => c.val - 48 := by simp [reversed]
    rw [natText, if_neg positive, read, undone, List.map_map]
    conv_rhs => rw [← List.map_id value]
    refine List.map_congr_left fun c listed => Fin.ext ?_
    have bounds := range c listed
    rw [Function.comp_apply, digitChar_val (by omega), if_pos (by omega), id]
    omega

theorem intText_value {n : Int} (positive : 1 ≤ n) : intText n = natText n.toNat := by
  cases n with
  | ofNat n => rfl
  | negSucc n => omega

/-! ## Reading what is written -/

section Actions
variable {keccak256 : Bytes → Word}

theorem parse_keys {fields : List (Text × Json)} {transfer : EthTransfer}
    (accepted : parse keccak256 (.dict fields) = some transfer) (key : Text) :
    key ∈ fields.map Prod.fst ↔ key ∈ actionKeys := by
  unfold parse at accepted
  simp only at accepted
  split_ifs at accepted with keys
  simp only [Bool.not_eq_true', Bool.not_eq_false, Bool.and_eq_true, List.all_eq_true, decide_eq_true_eq] at keys
  exact ⟨keys.1 key, keys.2 key⟩

theorem lookup_none {fields : List (Text × Json)} {key : Text} (absent : key ∉ fields.map Prod.fst) :
    Json.lookup key fields = none := by
  induction fields with
  | nil => rfl
  | cons f rest ih =>
    obtain ⟨k, v⟩ := f
    rw [List.map_cons, List.mem_cons, not_or] at absent
    rw [Json.lookup, if_neg (Ne.symm absent.1), ih absent.2]

theorem lookup_get {fields : List (Text × Json)} {key : Text} {value : Json} (found : Json.get fields key = value)
    (present : value ≠ .null) : Json.lookup key fields = some value := by
  unfold Json.get at found
  cases there : Json.lookup key fields with
  | none =>
    rw [there] at found
    exact absurd found.symm present
  | some other =>
    rw [there] at found
    exact congrArg some found

theorem mem_of_lookup {fields : List (Text × Json)} {key : Text} {value : Json}
    (found : Json.lookup key fields = some value) : (key, value) ∈ fields := by
  induction fields with
  | nil => cases found
  | cons f rest ih =>
    obtain ⟨k, v⟩ := f
    rw [Json.lookup] at found
    split_ifs at found with here
    · cases found
      exact here ▸ List.mem_cons_self
    · exact List.mem_cons_of_mem _ (ih found)

theorem value_written {fields : List (Text × Json)} {transfer : EthTransfer} (parsed : Parsed keccak256 fields transfer) :
    Json.get fields "value_wei" = .str (intText transfer.valueWei) := by
  obtain ⟨value, written, decimal, amount⟩ := parsed.value
  rw [written, intText_value parsed.range.value.1, amount, Int.toNat_natCast, natText_decimalValue decimal]

theorem canonicalKeys (transfer : EthTransfer) : transfer.canonicalFields.map Prod.fst = actionKeys := rfl

theorem actionKeys_nodup : actionKeys.Nodup := by decide

theorem parse_lookup {fields : List (Text × Json)} {transfer : EthTransfer}
    (accepted : parse keccak256 (.dict fields) = some transfer) (key : Text) :
    Json.lookup key fields = Json.lookup key transfer.canonicalFields := by
  obtain ⟨_, isDict, parsed⟩ := parse_some accepted
  cases isDict
  by_cases among : key ∈ actionKeys
  · have distinct : (transfer.canonicalFields.map Prod.fst).Nodup := actionKeys_nodup
    have each : ∀ f ∈ transfer.canonicalFields, Json.lookup f.1 fields = some f.2 := by
      unfold EthTransfer.canonicalFields
      simp only [List.forall_mem_cons, List.not_mem_nil, false_imp_iff, implies_true, and_true]
      exact ⟨lookup_get parsed.kind (by simp), lookup_get parsed.chainId (by simp), lookup_get parsed.treasury (by simp),
        lookup_get parsed.recipient (by simp), lookup_get (value_written parsed) (by simp),
        lookup_get parsed.data (by simp), lookup_get parsed.callGas (by simp), lookup_get parsed.validUntil (by simp),
        lookup_get parsed.configNonce (by simp)⟩
    rw [← canonicalKeys transfer] at among
    obtain ⟨⟨name, value⟩, listed, rfl⟩ := List.mem_map.mp among
    rw [each _ listed, Services.lookup_of_mem distinct listed]
  · rw [lookup_none (mt (parse_keys accepted key).mp among), lookup_none (canonicalKeys transfer ▸ among)]

theorem perm_of_lookup {fields fields' : List (Text × Json)} (distinct : (fields.map Prod.fst).Nodup)
    (distinct' : (fields'.map Prod.fst).Nodup) (same : ∀ key, Json.lookup key fields = Json.lookup key fields') :
    fields.Perm fields' := by
  refine (List.perm_ext_iff_of_nodup (List.Nodup.of_map _ distinct) (List.Nodup.of_map _ distinct')).mpr ?_
  rintro ⟨key, value⟩
  constructor
  · intro listed
    exact mem_of_lookup (same key ▸ Services.lookup_of_mem distinct listed)
  · intro listed
    exact mem_of_lookup ((same key).symm ▸ Services.lookup_of_mem distinct' listed)

/-! ## Writing what is read -/

theorem upperDigit_hex {d : Nat} (small : d < 16) : isHexDigit (upperDigit d) = true := by
  have all : ∀ d < 16, isHexDigit (upperDigit d) = true := by decide
  exact all d small

theorem digitChar_hex {d : Nat} (small : d < 16) : isHexDigit (digitChar d) = true := by
  have all : ∀ d < 16, isHexDigit (digitChar d) = true := by decide
  exact all d small

theorem checksumDigits_hex {digits : Text} (hex : ∀ c ∈ digits, isHexDigit c = true) :
    ∀ c ∈ checksumDigits keccak256 digits, isHexDigit c = true := by
  intro c listed
  unfold checksumDigits at listed
  simp only at listed
  obtain ⟨i, inside, rfl⟩ := List.mem_iff_getElem.mp listed
  have isDigit : i < digits.length := by
    rw [List.length_zipWith] at inside
    omega
  have small := nibble_small (hex digits[i] (List.getElem_mem isDigit))
  rw [List.getElem_zipWith]
  split
  · exact upperDigit_hex small
  · exact digitChar_hex small

theorem checksumDigits_length {digits : Text} (short : digits.length ≤ 64) :
    (checksumDigits keccak256 digits).length = digits.length := by
  unfold checksumDigits
  simp only
  rw [List.length_zipWith, hexText_length, abiWord_length]
  omega

-- An address in its checksummed form is a valid address, and that is its form.
theorem checksumAddress_idempotent {value checksummed : Text}
    (valid : checksumAddress keccak256 value = some checksummed) :
    checksumAddress keccak256 checksummed = some checksummed := by
  have isAddress := checksumAddress_isAddress valid
  have short : (value.drop 2).length ≤ 64 := by rw [isAddress.length]; decide
  have nibbles : (checksumDigits keccak256 (value.drop 2)).map nibble = (value.drop 2).map nibble :=
    nibbles_checksumDigits short isAddress.hex
  rw [checksumAddress_form valid]
  generalize shape : checksumDigits keccak256 (value.drop 2) = digits at nibbles
  have again : checksumDigits keccak256 digits = digits := by
    rw [checksumDigits_congr nibbles, shape]
  have length : digits.length = 40 := by
    rw [← shape, checksumDigits_length short, isAddress.length]
  have hex : digits.all isHexDigit = true := by
    rw [← shape]
    exact List.all_eq_true.mpr (checksumDigits_hex isAddress.hex)
  have after : (text "0x" ++ digits).drop 2 = digits := rfl
  have mark : (text "0x" ++ digits).take 2 = text "0x" := rfl
  unfold checksumAddress
  simp only [after, mark, length, hex, again]
  simp

theorem anyAddress_some {value : Json} {what address : Text} (found : anyAddress keccak256 value what = some address) :
    addressField keccak256 (.str address) what = some address := by
  cases value with
  | str given =>
    simp only [anyAddress, actionAddress] at found
    cases valid : checksumAddress keccak256 given with
    | none => simp [valid, Except.toOption] at found
    | some checksummed =>
      simp only [valid, Bool.false_and, Bool.false_eq_true, if_false] at found
      split_ifs at found with zero
      · simp [Except.toOption] at found
      · simp only [Except.toOption, Option.some.injEq] at found
        subst found
        have form := checksumAddress_idempotent valid
        simp [addressField, actionAddress, form, zero, Except.toOption]
  | _ => cases found

theorem parse_canonicalFields {transfer : EthTransfer} (positive : 1 ≤ transfer.valueWei)
    (treasury : addressField keccak256 (.str transfer.treasury) "treasury" = some transfer.treasury)
    (recipient : addressField keccak256 (.str transfer.recipient) "recipient" = some transfer.recipient)
    (checked : checkTransfer transfer = .ok transfer) : parse keccak256 transfer.canonical = some transfer := by
  have amount : (decimalValue (natText transfer.valueWei.toNat) : Int) = transfer.valueWei := by
    rw [decimalValue_natText]
    omega
  have keys : ((transfer.canonicalFields.map Prod.fst).all (· ∈ actionKeys) &&
      actionKeys.all (· ∈ transfer.canonicalFields.map Prod.fst)) = true := by
    rw [canonicalKeys]
    decide
  have kind : (Json.get transfer.canonicalFields "kind").eq "eth_transfer" = true := by
    have found : Json.get transfer.canonicalFields "kind" = .str "eth_transfer" := rfl
    exact Verify.eq_str.mpr found
  have data : (Json.get transfer.canonicalFields "data").eq "0x" = true := by
    have found : Json.get transfer.canonicalFields "data" = .str "0x" := rfl
    exact Verify.eq_str.mpr found
  have value : Json.get transfer.canonicalFields "value_wei" = .str (natText transfer.valueWei.toNat) :=
    congrArg Json.str (intText_value positive)
  have isTreasury : Json.get transfer.canonicalFields "treasury" = .str transfer.treasury := rfl
  have isRecipient : Json.get transfer.canonicalFields "to" = .str transfer.recipient := rfl
  have chainId : Json.get transfer.canonicalFields "chain_id" = .int transfer.chainId := rfl
  have callGas : Json.get transfer.canonicalFields "call_gas" = .int transfer.callGas := rfl
  have validUntil : Json.get transfer.canonicalFields "valid_until" = .int transfer.validUntil := rfl
  have configNonce : Json.get transfer.canonicalFields "config_nonce" = .int transfer.configNonce := rfl
  unfold EthTransfer.canonical parse
  simp only [keys, kind, data, value, isTreasury, isRecipient, chainId, callGas, validUntil, configNonce, isDecimal_natText,
    treasury, recipient, integerField, Bool.not_true, Bool.false_eq_true, if_false, amount, Option.bind_eq_bind,
    Option.bind_some, checked, Except.toOption]

theorem build_some {chainId treasury recipient valueWei configNonce : Json} {deadline : DateTime} {transfer : EthTransfer}
    (built : build keccak256 chainId treasury recipient valueWei deadline configNonce = some transfer) :
    addressField keccak256 (.str transfer.treasury) "treasury" = some transfer.treasury ∧
      addressField keccak256 (.str transfer.recipient) "recipient" = some transfer.recipient ∧
      checkTransfer transfer = .ok transfer ∧ InRange transfer := by
  obtain ⟨offset, -, built⟩ := Option.bind_eq_some_iff.mp built
  obtain ⟨last, -, built⟩ := Option.bind_eq_some_iff.mp built
  obtain ⟨treasury', treasuryFound, built⟩ := Option.bind_eq_some_iff.mp built
  obtain ⟨recipient', recipientFound, built⟩ := Option.bind_eq_some_iff.mp built
  obtain ⟨chainId', -, built⟩ := Option.bind_eq_some_iff.mp built
  obtain ⟨valueWei', -, built⟩ := Option.bind_eq_some_iff.mp built
  obtain ⟨configNonce', -, built⟩ := Option.bind_eq_some_iff.mp built
  cases checked : checkTransfer ⟨chainId', treasury', recipient', valueWei', ethTransferCallGas,
      timestamp last.clock offset, configNonce'⟩ with
  | error e => simp [checked, Except.toOption] at built
  | ok found =>
    obtain ⟨rfl, range⟩ := checkTransfer_ok checked
    simp only [checked, Except.toOption, Option.some.injEq] at built
    subst built
    exact ⟨anyAddress_some treasuryFound, anyAddress_some recipientFound, checked, range⟩

-- Each side undoes the other, and one action has one object.
theorem parse_undoes_canonical (keccak256 : Bytes → Word) :
    (∀ (o : Json) (action : EthTransfer), parse keccak256 o = some action → ∃ fields, o = .dict fields ∧
      (∀ key, Json.lookup key fields = Json.lookup key action.canonicalFields) ∧
      ((fields.map Prod.fst).Nodup → fields.Perm action.canonicalFields)) ∧
    (∀ (chainId treasury recipient valueWei configNonce : Json) (deadline : DateTime) (action : EthTransfer),
      build keccak256 chainId treasury recipient valueWei deadline configNonce = some action →
      parse keccak256 action.canonical = some action) := by
  constructor
  · intro o action accepted
    obtain ⟨fields, rfl, -⟩ := parse_some accepted
    exact ⟨fields, rfl, parse_lookup accepted, fun distinct =>
      perm_of_lookup distinct actionKeys_nodup (parse_lookup accepted)⟩
  · intro chainId treasury recipient valueWei configNonce deadline action built
    obtain ⟨treasuryForm, recipientForm, checked, range⟩ := build_some built
    exact parse_canonicalFields range.value.1 treasuryForm recipientForm checked

-- A payment to an address in lower case, with a deadline of 2027
theorem parse_undoes_canonical_sample :
    (∃ action, build lengthHash (.int 11155111) (.str treasuryText) (.str recipientText) (.int 1000)
      ⟨1798761600 * 10 ^ 6, some 0⟩ (.int 3) = some action ∧ parse lengthHash action.canonical = some action) ∧
    ∃ fields, Json.dict sampleFields = .dict fields ∧ fields.Perm sampleTransfer.canonicalFields := by
  have seconds : timestamp (1798761600 * 10 ^ 6 + executionWindow * 10 ^ 6) 0 = 1799020800 := by decide +kernel
  have last : (⟨1798761600 * 10 ^ 6, some 0⟩ : DateTime).add (executionWindow * 10 ^ 6) =
      some ⟨1798761600 * 10 ^ 6 + executionWindow * 10 ^ 6, some 0⟩ := if_pos (by decide)
  have built : build lengthHash (.int 11155111) (.str treasuryText) (.str recipientText) (.int 1000)
      ⟨1798761600 * 10 ^ 6, some 0⟩ (.int 3) =
        some ⟨11155111, treasuryText, recipientText, 1000, 100000, 1799020800, 3⟩ := by
    rw [build, Option.bind_eq_bind, Option.bind_some, last, Option.bind_eq_bind, Option.bind_some, seconds]
    rfl
  obtain ⟨fields, isDict, -, same⟩ := (parse_undoes_canonical lengthHash).1 _ _ parse_sample
  cases isDict
  exact ⟨⟨_, built, (parse_undoes_canonical lengthHash).2 _ _ _ _ _ _ _ built⟩, sampleFields, rfl, same (by decide)⟩

end Actions

end QVault.Proof.Chain
