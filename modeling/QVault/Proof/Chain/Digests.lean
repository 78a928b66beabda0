import QVault.Chain.Digest
import QVault.Verify.Execution
import QVault.Proof.Chain.Abi
import QVault.Proof.Python.Text
import QVault.Proof.Verify.Passes

/-!
# The digests of server, contract and offline verifier

A transfer that `parse` accepts has one execution digest, whoever computes it.
-/

namespace QVault.Proof.Chain
open QVault.Python QVault.Services QVault.Chain QVault.Proof.Codecs QVault.Proof.Verify Results

-- Rewriting with this keeps the kernel from unfolding what is bound.
theorem ok_bind {ε α β : Type} (a : α) (f : α → Except ε β) : (Except.ok a >>= f) = f a := rfl

/-! ## Bytes and words -/

theorem wordOf_lt (bytes : Bytes) : wordOf bytes < 256 ^ bytes.length := by
  induction bytes with
  | nil => simp [wordOf]
  | cons b rest ih =>
    have byte := b.toNat_lt
    rw [wordOf_cons, List.length_cons, pow_succ]
    nlinarith

theorem wordOf_injective {a b : Bytes} (lengths : a.length = b.length) (same : wordOf a = wordOf b) : a = b := by
  induction a generalizing b with
  | nil => exact (List.eq_nil_of_length_eq_zero lengths.symm).symm
  | cons x a ih =>
    cases b with
    | nil => cases lengths
    | cons y b =>
      have tails : a.length = b.length := Nat.succ.inj lengths
      rw [wordOf_cons, wordOf_cons, ← tails] at same
      have belowA := wordOf_lt a
      have belowB := tails ▸ wordOf_lt b
      have heads : x.toNat = y.toNat := by
        have left := congrArg (· / 256 ^ a.length) same
        simpa [Nat.mul_add_div, Nat.mul_comm _ (256 ^ a.length), Nat.div_eq_of_lt belowA, Nat.div_eq_of_lt belowB]
          using left
      rw [UInt8.toNat.inj heads, ih tails (by rw [heads] at same; exact Nat.add_left_cancel same)]

theorem digits_wordOf {bytes : Bytes} {n : Nat} (length : bytes.length = n) :
    (List.range n).reverse.map (fun i => UInt8.ofNat (wordOf bytes / 256 ^ i)) = bytes := by
  apply wordOf_injective
  · simp [length]
  · rw [wordOf_digits, Nat.mod_eq_of_lt (length ▸ wordOf_lt bytes)]

theorem abiWord_ofNat {n : Nat} (small : n < 2 ^ 256) :
    abiWord (BitVec.ofNat 256 n) = (List.range 32).reverse.map fun i => UInt8.ofNat (n / 256 ^ i) := by
  rw [abiWord, BitVec.toNat_ofNat, Nat.mod_eq_of_lt small]

theorem abiWord_wordOf {bytes : Bytes} (length : bytes.length = 32) :
    abiWord (BitVec.ofNat 256 (wordOf bytes)) = bytes := by
  have small : wordOf bytes < 2 ^ 256 := by
    have below := wordOf_lt bytes
    rw [length] at below
    exact lt_of_lt_of_eq below (by norm_num)
  rw [abiWord_ofNat small, digits_wordOf length]

theorem wordOf_zeros (n : Nat) (bytes : Bytes) : wordOf (List.replicate n 0 ++ bytes) = wordOf bytes := by
  induction n with
  | zero => rfl
  | succ n ih =>
    rw [List.replicate_succ, List.cons_append, wordOf_cons, ih]
    simp

theorem checkUint_some {width : Nat} {value : Int} (low : 0 ≤ value) (high : value < 2 ^ width) :
    checkUint width value = some (BitVec.ofInt 256 value) := if_pos ⟨low, high⟩

theorem checkUint_eq_some {width : Nat} {value : Int} {found : Word} (checked : checkUint width value = some found) :
    (0 ≤ value ∧ value < 2 ^ width) ∧ found = BitVec.ofInt 256 value := by
  unfold checkUint at checked
  split_ifs at checked with range
  exact ⟨range, (Option.some.inj checked).symm⟩

theorem abiWord_ofInt {value : Int} (low : 0 ≤ value) (high : value < 2 ^ 256) :
    abiWord (BitVec.ofInt 256 value) = (List.range 32).reverse.map fun i => UInt8.ofNat (value.toNat / 256 ^ i) := by
  obtain ⟨n, rfl⟩ := Int.eq_ofNat_of_zero_le low
  rw [BitVec.ofInt_natCast, abiWord_ofNat (by exact_mod_cast high)]
  rfl

theorem setWidth_ofInt {value : Int} (low : 0 ≤ value) (high : value < 2 ^ 64) :
    (BitVec.ofInt 64 value).setWidth 256 = BitVec.ofInt 256 value := by
  obtain ⟨n, rfl⟩ := Int.eq_ofNat_of_zero_le low
  have small : n < 2 ^ 64 := by exact_mod_cast high
  apply BitVec.eq_of_toNat_eq
  rw [BitVec.toNat_setWidth, BitVec.ofInt_natCast, BitVec.ofInt_natCast, BitVec.toNat_ofNat, BitVec.toNat_ofNat,
    Nat.mod_eq_of_lt small]

/-! ## Hexadecimal digits -/

def hexBytes : Text → Bytes
  | high :: low :: rest => UInt8.ofNat (16 * (hexValue high).getD 0 + (hexValue low).getD 0) :: hexBytes rest
  | _ => []

theorem hexValue_digit {c : CodePoint} (digit : isHexDigit c = true) :
    ∃ d, hexValue c = some d ∧ d < 16 ∧ isSpace c = false ∧ c.val < 128 := by
  unfold isHexDigit hexValue at digit
  unfold hexValue isSpace
  split_ifs at digit ⊢
  · refine ⟨_, rfl, by omega, ?_, by omega⟩
    simp only [Bool.or_eq_false_iff, beq_eq_false_iff_ne, Bool.and_eq_false_iff, decide_eq_false_iff_not]
    omega
  · refine ⟨_, rfl, by omega, ?_, by omega⟩
    simp only [Bool.or_eq_false_iff, beq_eq_false_iff_ne, Bool.and_eq_false_iff, decide_eq_false_iff_not]
    omega
  · refine ⟨_, rfl, by omega, ?_, by omega⟩
    simp only [Bool.or_eq_false_iff, beq_eq_false_iff_ne, Bool.and_eq_false_iff, decide_eq_false_iff_not]
    omega
  · cases digit

theorem fromHex_hexBytes {t : Text} (hex : ∀ c ∈ t, isHexDigit c = true) (even : t.length % 2 = 0) :
    fromHex t = .ok (hexBytes t) := by
  induction t using hexBytes.induct with
  | case1 high low rest ih =>
    obtain ⟨h, isHigh, _, notSpace, _⟩ := hexValue_digit (hex high List.mem_cons_self)
    obtain ⟨l, isLow, _, _, _⟩ := hexValue_digit (hex low (List.mem_cons_of_mem _ List.mem_cons_self))
    have later := ih (fun c listed => hex c (List.mem_cons_of_mem _ (List.mem_cons_of_mem _ listed)))
      (by simp only [List.length_cons] at even; omega)
    rw [fromHex.eq_def]
    simp [notSpace, isHigh, isLow, later, hexBytes, Except.map]
  | case2 t noPair =>
    cases t with
    | nil => rfl
    | cons c rest =>
      cases rest with
      | nil => simp at even
      | cons d rest => exact absurd rfl (noPair c d rest)

theorem hexBytes_length {t : Text} (even : t.length % 2 = 0) : (hexBytes t).length = t.length / 2 := by
  induction t using hexBytes.induct with
  | case1 high low rest ih =>
    simp only [List.length_cons] at even
    rw [hexBytes, List.length_cons, ih (by omega), List.length_cons, List.length_cons]
    omega
  | case2 t noPair =>
    cases t with
    | nil => rfl
    | cons c rest =>
      cases rest with
      | nil => simp at even
      | cons d rest => exact absurd rfl (noPair c d rest)

theorem foldl_hex {t : Text} (hex : ∀ c ∈ t, isHexDigit c = true) (even : t.length % 2 = 0) (start : Nat) :
    t.foldl (fun n c => 16 * n + (hexValue c).getD 0) start = start * 16 ^ t.length + wordOf (hexBytes t) := by
  induction t using hexBytes.induct generalizing start with
  | case1 high low rest ih =>
    obtain ⟨h, isHigh, small, _⟩ := hexValue_digit (hex high List.mem_cons_self)
    obtain ⟨l, isLow, small', _⟩ := hexValue_digit (hex low (List.mem_cons_of_mem _ List.mem_cons_self))
    have evenRest : rest.length % 2 = 0 := by
      simp only [List.length_cons] at even
      omega
    have power : 256 ^ (rest.length / 2) = 16 ^ rest.length := by
      rw [show (256 : Nat) = 16 ^ 2 from rfl, ← pow_mul]
      congr 1
      omega
    rw [List.foldl_cons, List.foldl_cons,
      ih (fun c listed => hex c (List.mem_cons_of_mem _ (List.mem_cons_of_mem _ listed))) evenRest, hexBytes,
      wordOf_cons, hexBytes_length evenRest, power, isHigh, isLow]
    simp only [Option.getD_some, List.length_cons, UInt8.toNat_ofNat']
    rw [Nat.mod_eq_of_lt (by omega)]
    ring
  | case2 t noPair =>
    cases t with
    | nil => simp [hexBytes, wordOf]
    | cons c rest =>
      cases rest with
      | nil => simp at even
      | cons d rest => exact absurd rfl (noPair c d rest)

/-! ## Addresses -/

structure IsAddress (value : Text) : Prop where
  mark : value.take 2 = text "0x"
  length : (value.drop 2).length = 40
  hex : ∀ c ∈ value.drop 2, isHexDigit c = true

section Addresses
variable {keccak256 : Bytes → Word}

theorem checksumAddress_isAddress {value checksummed : Text} (valid : checksumAddress keccak256 value = some checksummed) :
    IsAddress value := by
  unfold checksumAddress at valid
  by_cases shape : value.take 2 ≠ text "0x" ∨ (value.drop 2).length ≠ 40 ∨ !(value.drop 2).all isHexDigit
  · rw [if_pos shape] at valid
    cases valid
  · simp only [not_or, not_not, Bool.not_eq_true', Bool.not_eq_true, Bool.not_eq_false] at shape
    exact ⟨shape.1, shape.2.1, List.all_eq_true.mp shape.2.2⟩

theorem addressBits_eq {value : Text} (isAddress : IsAddress value) :
    addressBits value = BitVec.ofNat 160 (wordOf (hexBytes (value.drop 2))) := by
  rw [addressBits, foldl_hex isAddress.hex (by rw [isAddress.length]), Nat.zero_mul, Nat.zero_add]

theorem address_length {value : Text} (isAddress : IsAddress value) : (hexBytes (value.drop 2)).length = 20 := by
  rw [hexBytes_length (by rw [isAddress.length]), isAddress.length]

theorem address_small {value : Text} (isAddress : IsAddress value) : wordOf (hexBytes (value.drop 2)) < 2 ^ 160 := by
  have below := wordOf_lt (hexBytes (value.drop 2))
  rw [address_length isAddress] at below
  exact lt_of_lt_of_eq below (by norm_num)

theorem abiWord_address {value : Text} (isAddress : IsAddress value) :
    abiWord ((addressBits value).setWidth 256) = List.replicate 12 0 ++ hexBytes (value.drop 2) := by
  have small := address_small isAddress
  have widened : (addressBits value).setWidth 256 =
      BitVec.ofNat 256 (wordOf (List.replicate 12 0 ++ hexBytes (value.drop 2))) := by
    apply BitVec.eq_of_toNat_eq
    rw [addressBits_eq isAddress, wordOf_zeros, BitVec.toNat_setWidth, BitVec.toNat_ofNat, BitVec.toNat_ofNat,
      Nat.mod_eq_of_lt small]
  rw [widened, abiWord_wordOf]
  rw [List.length_append, List.length_replicate, address_length isAddress]

theorem actionAddress_ok {value what address : Text} (valid : actionAddress keccak256 value what true = .ok address) :
    address = value ∧ checksumAddress keccak256 value = some value := by
  unfold actionAddress at valid
  cases found : checksumAddress keccak256 value with
  | none =>
    rw [found] at valid
    cases valid
  | some checksummed =>
    simp only [found] at valid
    split_ifs at valid with different zero
    have same : value = checksummed := by simpa using different
    rw [← same] at valid ⊢
    exact ⟨(Except.ok.inj valid).symm, rfl⟩

end Addresses

/-! ## What `parse` accepts -/

structure InRange (transfer : EthTransfer) : Prop where
  chainId : transfer.chainId = 11155111
  value : 1 ≤ transfer.valueWei ∧ transfer.valueWei < 2 ^ 256
  callGas : 1 ≤ transfer.callGas ∧ transfer.callGas ≤ maxSafeInteger
  validUntil : 1 ≤ transfer.validUntil ∧ transfer.validUntil ≤ maxSafeInteger
  configNonce : 0 ≤ transfer.configNonce ∧ transfer.configNonce ≤ maxSafeInteger

theorem safeInteger_ok {value : Int} {what : Text} (valid : safeInteger value what = .ok ()) :
    0 ≤ value ∧ value ≤ maxSafeInteger := by
  unfold safeInteger at valid
  split_ifs at valid with range
  exact range

theorem checkTransfer_ok {transfer checked : EthTransfer} (valid : checkTransfer transfer = .ok checked) :
    checked = transfer ∧ InRange transfer := by
  unfold checkTransfer at valid
  obtain ⟨_, chain, valid⟩ := bind_eq_ok.mp valid
  by_cases network : (paymentNetwork transfer.chainId).isNone = true
  · rw [if_pos network] at valid
    cases valid
  rw [if_neg network] at valid
  by_cases small : transfer.valueWei < 1
  · rw [if_pos small] at valid
    cases valid
  rw [if_neg small] at valid
  by_cases large : 2 ^ 256 - 1 < transfer.valueWei
  · rw [if_pos large] at valid
    cases valid
  rw [if_neg large] at valid
  obtain ⟨_, gas, valid⟩ := bind_eq_ok.mp valid
  by_cases cap : transfer.callGas < 1 ∨ actionGasCap < transfer.callGas
  · rw [if_pos cap] at valid
    cases valid
  rw [if_neg cap] at valid
  obtain ⟨_, deadline, valid⟩ := bind_eq_ok.mp valid
  by_cases past : transfer.validUntil < 1
  · rw [if_pos past] at valid
    cases valid
  rw [if_neg past] at valid
  obtain ⟨_, nonce, valid⟩ := bind_eq_ok.mp valid
  by_cases itself : transfer.recipient = transfer.treasury
  · rw [if_pos itself] at valid
    cases valid
  rw [if_neg itself] at valid
  refine ⟨(Except.ok.inj valid).symm, ?_, ⟨by omega, by omega⟩, ⟨by omega, (safeInteger_ok gas).2⟩,
    ⟨by omega, (safeInteger_ok deadline).2⟩, safeInteger_ok nonce⟩
  by_contra other
  simp [paymentNetwork, other] at network

structure Parsed (keccak256 : Bytes → Word) (fields : List (Text × Json)) (transfer : EthTransfer) : Prop where
  kind : Json.get fields "kind" = .str "eth_transfer"
  data : Json.get fields "data" = .str "0x"
  value : ∃ value, Json.get fields "value_wei" = .str value ∧ isDecimal value = true ∧
    transfer.valueWei = decimalValue value
  treasury : Json.get fields "treasury" = .str transfer.treasury
  recipient : Json.get fields "to" = .str transfer.recipient
  chainId : Json.get fields "chain_id" = .int transfer.chainId
  callGas : Json.get fields "call_gas" = .int transfer.callGas
  validUntil : Json.get fields "valid_until" = .int transfer.validUntil
  configNonce : Json.get fields "config_nonce" = .int transfer.configNonce
  treasuryForm : checksumAddress keccak256 transfer.treasury = some transfer.treasury
  recipientForm : checksumAddress keccak256 transfer.recipient = some transfer.recipient
  range : InRange transfer

theorem integerField_some {x : Json} {n : Int} (found : integerField x = some n) : x = .int n := by
  cases x <;> simp_all [integerField]

theorem addressField_some {keccak256 : Bytes → Word} {x : Json} {what address : Text}
    (found : addressField keccak256 x what = some address) :
    x = .str address ∧ checksumAddress keccak256 address = some address := by
  cases x with
  | str value =>
    simp only [addressField] at found
    cases valid : actionAddress keccak256 value what true with
    | error e => simp [valid, Except.toOption] at found
    | ok found' =>
      obtain ⟨rfl, form⟩ := actionAddress_ok valid
      simp only [valid, Except.toOption, Option.some.injEq] at found
      exact ⟨by rw [found], found ▸ form⟩
  | _ => cases found

theorem parse_some {keccak256 : Bytes → Word} {action : Json} {transfer : EthTransfer}
    (accepted : parse keccak256 action = some transfer) :
    ∃ fields, action = .dict fields ∧ Parsed keccak256 fields transfer := by
  cases action with
  | dict fields =>
    refine ⟨fields, rfl, ?_⟩
    unfold parse at accepted
    simp only at accepted
    split_ifs at accepted with keys kind data
    cases shown : Json.get fields "value_wei" with
    | str value =>
      simp only [shown] at accepted
      split_ifs at accepted with decimal
      obtain ⟨treasury, treasuryFound, accepted⟩ := Option.bind_eq_some_iff.mp accepted
      obtain ⟨recipient, recipientFound, accepted⟩ := Option.bind_eq_some_iff.mp accepted
      obtain ⟨chainId, chainFound, accepted⟩ := Option.bind_eq_some_iff.mp accepted
      obtain ⟨callGas, gasFound, accepted⟩ := Option.bind_eq_some_iff.mp accepted
      obtain ⟨validUntil, untilFound, accepted⟩ := Option.bind_eq_some_iff.mp accepted
      obtain ⟨configNonce, nonceFound, accepted⟩ := Option.bind_eq_some_iff.mp accepted
      obtain ⟨treasuryIs, treasuryForm⟩ := addressField_some treasuryFound
      obtain ⟨recipientIs, recipientForm⟩ := addressField_some recipientFound
      cases checked : checkTransfer ⟨chainId, treasury, recipient, decimalValue value, callGas, validUntil,
          configNonce⟩ with
      | error e => simp [checked, Except.toOption] at accepted
      | ok found =>
        obtain ⟨rfl, range⟩ := checkTransfer_ok checked
        simp only [checked, Except.toOption, Option.some.injEq] at accepted
        subst accepted
        exact ⟨eq_str.mp (by simpa using kind), eq_str.mp (by simpa using data), ⟨value, shown, by simpa using decimal, rfl⟩,
          treasuryIs, recipientIs, integerField_some chainFound, integerField_some gasFound,
          integerField_some untilFound, integerField_some nonceFound, treasuryForm, recipientForm, range⟩
    | _ => simp only [shown] at accepted; cases accepted
  | _ => cases accepted

/-! ## One digest -/

-- A payload hash, in digits of either case
structure IsHash (payloadHash : Text) : Prop where
  length : payloadHash.length = 64
  hex : ∀ c ∈ payloadHash, isHexDigit c = true

def hashWord (payloadHash : Text) : Word := BitVec.ofNat 256 (wordOf (hexBytes payloadHash))

def transferArgs (transfer : EthTransfer) (payloadHash : Text) : ExecuteArgs where
  proposalId := hashWord payloadHash
  recipient := addressBits transfer.recipient
  value := BitVec.ofInt 256 transfer.valueWei
  data := []
  callGas := BitVec.ofInt 64 transfer.callGas
  validUntil := BitVec.ofInt 64 transfer.validUntil

-- The treasury of a transfer, on the transfer's chain
def DeployedFor {S : Type} (keccak256 : Bytes → Word) (env : Deployment S) (chainId : Int) (treasury : Text) : Prop :=
  env.keccak256 = keccak256 ∧ env.chainId = BitVec.ofInt 256 chainId ∧ env.self = addressBits treasury

section Digests
variable {keccak256 : Bytes → Word} {payloadHash : Text}

def transferDigest (keccak256 : Bytes → Word) (transfer : EthTransfer) (payloadHash : Text) : Bytes :=
  abiWord (keccak256 (transfer.message keccak256 (hashWord payloadHash)))

theorem hash_length (isHash : IsHash payloadHash) : (hexBytes payloadHash).length = 32 := by
  rw [hexBytes_length (by rw [isHash.length]), isHash.length]

theorem fromHex_hash (isHash : IsHash payloadHash) : fromHex payloadHash = .ok (hexBytes payloadHash) :=
  fromHex_hexBytes isHash.hex (by rw [isHash.length])

theorem hash_unmarked (isHash : IsHash payloadHash) : payloadHash.take 2 ≠ text "0x" := by
  intro marked
  have among : codePoint 'x' ∈ payloadHash := List.mem_of_mem_take (marked ▸ (by decide) : codePoint 'x' ∈ payloadHash.take 2)
  have digit := isHash.hex _ among
  exact absurd digit (by decide)

theorem bytes32FromHex_hash (isHash : IsHash payloadHash) : bytes32FromHex payloadHash = some (hexBytes payloadHash) := by
  unfold bytes32FromHex
  rw [if_neg (hash_unmarked isHash), fromHex_hash isHash]
  simp [hash_length isHash]

theorem safe_below {value : Int} (safe : value ≤ maxSafeInteger) : value < 2 ^ 64 :=
  lt_of_le_of_lt safe (by decide)

theorem safe_below_word {value : Int} (safe : value ≤ maxSafeInteger) : value < 2 ^ 256 :=
  lt_of_le_of_lt safe (by decide)

theorem checkAddress_some {value : Text} (form : checksumAddress keccak256 value = some value) :
    checkAddress keccak256 value = some ((addressBits value).setWidth 256) := by
  rw [checkAddress, form, Option.map_some]

theorem server_digest {fields : List (Text × Json)} {transfer : EthTransfer}
    (parsed : Parsed keccak256 fields transfer) (isHash : IsHash payloadHash) :
    transfer.digest keccak256 payloadHash = some (transferDigest keccak256 transfer payloadHash) := by
  obtain ⟨chain, value, gas, deadline, nonce⟩ := parsed.range
  rw [EthTransfer.digest, bytes32FromHex_hash isHash]
  simp only [Option.bind_eq_bind, Option.bind_some]
  unfold Digest.executionDigest
  rw [if_neg (by simp [hash_length isHash]), if_neg (by simp), checkUint_some (by omega) (by rw [chain]; norm_num),
    checkAddress_some parsed.treasuryForm, checkUint_some nonce.1 (safe_below_word nonce.2),
    checkAddress_some parsed.recipientForm, checkUint_some (by omega) value.2,
    checkUint_some (by omega) (safe_below gas.2), checkUint_some (by omega) (safe_below deadline.2)]
  rfl

-- What the relayer and the approval service call is the same function.
theorem executionDigest_parsed {fields : List (Text × Json)} {transfer : EthTransfer}
    (parsed : Parsed keccak256 fields transfer) (isHash : IsHash payloadHash) :
    (transfer.executionDigest keccak256 payloadHash).toOption = transfer.digest keccak256 payloadHash := by
  rw [server_digest parsed isHash, EthTransfer.executionDigest, proposalIdOf, if_neg (hash_unmarked isHash),
    fromHex_hash isHash]
  simp only [hash_length isHash, ne_eq, not_true_eq_false, if_false]
  rfl

theorem contract_digest {S : Type} {env : Deployment S} {transfer : EthTransfer} (range : InRange transfer)
    (deployed : DeployedFor keccak256 env transfer.chainId transfer.treasury) :
    abiWord (executionDigest env (BitVec.ofInt 256 transfer.configNonce) (transferArgs transfer payloadHash)) =
      transferDigest keccak256 transfer payloadHash := by
  obtain ⟨hash, chain, self⟩ := deployed
  have gas := setWidth_ofInt (show 0 ≤ transfer.callGas by have := range.callGas; omega) (safe_below range.callGas.2)
  have deadline := setWidth_ofInt (show 0 ≤ transfer.validUntil by have := range.validUntil; omega)
    (safe_below range.validUntil.2)
  unfold Chain.executionDigest executionMessage transferArgs executeTag
  simp only [gas, deadline, hash, chain, self]
  rfl

/-! ### The offline verifier -/

theorem foldl_decimal_le (digits : Text) (start : Nat) :
    start * 10 ^ digits.length ≤ digits.foldl (fun n c => 10 * n + (c.val - 48)) start := by
  induction digits generalizing start with
  | nil => simp
  | cons c rest ih =>
    rw [List.foldl_cons, List.length_cons, pow_succ]
    refine le_trans ?_ (ih _)
    have grown : start * 10 ≤ 10 * start + (c.val - 48) := by omega
    calc start * (10 ^ rest.length * 10) = start * 10 * 10 ^ rest.length := by ring
      _ ≤ (10 * start + (c.val - 48)) * 10 ^ rest.length := Nat.mul_le_mul_right _ grown

theorem decimal_length {value : Text} (decimal : isDecimal value = true) (small : decimalValue value < 2 ^ 256) :
    value.length ≤ 78 := by
  simp only [isDecimal, Bool.and_eq_true, decide_eq_true_eq, Bool.or_eq_true, beq_iff_eq, bne_iff_ne] at decimal
  obtain ⟨⟨nonempty, digits⟩, form⟩ := decimal
  cases value with
  | nil => simp at nonempty
  | cons c rest =>
    rcases form with zero | leading
    · rw [zero]
      decide
    · have digit := List.all_eq_true.mp digits c List.mem_cons_self
      have positive : 1 ≤ 10 * 0 + (c.val - 48) := by
        simp only [isAsciiDigit, Bool.and_eq_true, decide_eq_true_eq] at digit
        have notZero : c.val ≠ 48 := fun same => leading (congrArg some (Fin.ext same : c = digitChar 0))
        omega
      have grown := le_trans (Nat.mul_le_mul_right (10 ^ rest.length) positive) (foldl_decimal_le rest _)
      rw [Nat.one_mul] at grown
      have below : 10 ^ rest.length < 10 ^ 78 := lt_of_le_of_lt grown (lt_trans small (by norm_num))
      have shorter := (Nat.pow_lt_pow_iff_right (by norm_num : 1 < 10)).mp below
      simp only [List.length_cons]
      omega

theorem decimalAmount_ok {value : Text} (decimal : isDecimal value = true) (small : decimalValue value < 2 ^ 256) :
    Verify.decimalAmount (.str value) = .ok (decimalValue value) := by
  have length := decimal_length decimal small
  simp only [isDecimal, Bool.and_eq_true, decide_eq_true_eq, Bool.or_eq_true, beq_iff_eq, bne_iff_ne] at decimal
  obtain ⟨⟨nonempty, digits⟩, form⟩ := decimal
  simp only [Verify.decimalAmount]
  rw [if_pos ⟨List.ne_nil_of_length_pos nonempty, digits, form, by omega⟩]

theorem verifier_word {value : Int} {limit : Nat} (low : 0 ≤ value) (high : value ≤ limit) (fits : limit < 2 ^ 256) :
    Verify.abiWord (.int value) limit = .ok (abiWord (BitVec.ofInt 256 value)) := by
  have below : value < 2 ^ 256 := lt_of_le_of_lt high (by exact_mod_cast fits)
  rw [Verify.abiWord, if_pos ⟨low, high⟩, abiWord_ofInt low below]
  rfl

theorem verifier_address {value : Text} (isAddress : IsAddress value) :
    Verify.abiAddress (.str value) = .ok (abiWord ((addressBits value).setWidth 256)) := by
  simp only [Verify.abiAddress]
  rw [if_pos ⟨isAddress.mark, isAddress.length, List.all_eq_true.mpr isAddress.hex⟩,
    fromHex_hexBytes isAddress.hex (by rw [isAddress.length]), abiWord_address isAddress]
  rfl

theorem verifier_digest {fields : List (Text × Json)} {transfer : EthTransfer}
    (parsed : Parsed keccak256 fields transfer) (isHash : IsHash payloadHash)
    (lower : payloadHash.all Verify.isLowerHex = true) :
    Verify.executionDigest (fun b => abiWord (keccak256 b)) (.dict fields) payloadHash =
      .ok (transferDigest keccak256 transfer payloadHash) := by
  obtain ⟨chain, value, gas, deadline, nonce⟩ := parsed.range
  obtain ⟨shown, written, decimal, amount⟩ := parsed.value
  have small : decimalValue shown < 2 ^ 256 := by
    have bound := amount ▸ value.2
    exact_mod_cast bound
  have shortHash : Verify.isHash payloadHash = true := by simp [Verify.isHash, isHash.length, lower]
  have treasury := verifier_address (checksumAddress_isAddress parsed.treasuryForm)
  have recipient := verifier_address (checksumAddress_isAddress parsed.recipientForm)
  have chainWord : Verify.abiWord (.int transfer.chainId) Verify.uint256Max = .ok _ :=
    verifier_word (by omega) (by rw [chain]; decide) (by decide)
  have nonceWord : Verify.abiWord (.int transfer.configNonce) Verify.uint256Max = .ok _ :=
    verifier_word nonce.1 (le_trans nonce.2 (by decide)) (by decide)
  have valueWord : Verify.abiWord (.int (decimalValue shown)) Verify.uint256Max = .ok _ :=
    verifier_word (by omega) (by unfold Verify.uint256Max; omega) (by decide)
  have gasWord : Verify.abiWord (.int transfer.callGas) Verify.uint64Max = .ok _ :=
    verifier_word (by omega) (le_trans gas.2 (by decide)) (by decide)
  have deadlineWord : Verify.abiWord (.int transfer.validUntil) Verify.uint64Max = .ok _ :=
    verifier_word (by omega) (le_trans deadline.2 (by decide)) (by decide)
  have kind : (!(Json.str "eth_transfer").eq "eth_transfer" || !(Json.str "0x").eq "0x") = false := by decide
  simp only [Verify.executionDigest, parsed.kind, parsed.data, parsed.treasury, parsed.recipient, parsed.chainId,
    parsed.callGas, parsed.validUntil, parsed.configNonce, written, kind, decimalAmount_ok decimal small, shortHash,
    chainWord, nonceWord, gasWord, deadlineWord, treasury, recipient, fromHex_hash isHash]
  simp only [ok_bind, Bool.not_true, Bool.false_eq_true, if_false, valueWord]
  unfold transferDigest EthTransfer.message Verify.executeTag
  simp only [List.flatMap_cons, List.flatMap_nil, hashWord, abiWord_wordOf (hash_length isHash), amount,
    List.append_assoc, List.append_nil, pure, Except.pure]

-- The verifier reads a payload hash only in lower case.
theorem verifier_refuses {fields : List (Text × Json)} {transfer : EthTransfer}
    (parsed : Parsed keccak256 fields transfer) (capital : payloadHash.all Verify.isLowerHex = false) :
    Verify.executionDigest (fun b => abiWord (keccak256 b)) (.dict fields) payloadHash = .error .valueError := by
  obtain ⟨shown, written, decimal, amount⟩ := parsed.value
  have small : decimalValue shown < 2 ^ 256 := by
    have bound := amount ▸ parsed.range.value.2
    exact_mod_cast bound
  have kind : (!(Json.str "eth_transfer").eq "eth_transfer" || !(Json.str "0x").eq "0x") = false := by decide
  have notHash : Verify.isHash payloadHash = false := by simp [Verify.isHash, capital]
  simp only [Verify.executionDigest, parsed.kind, parsed.data, written, kind, decimalAmount_ok decimal small, notHash]
  rfl

end Digests

/-! ## Addresses in checksummed form -/

def nibble (c : CodePoint) : Nat := (hexValue c).getD 0

theorem nibble_small {c : CodePoint} (digit : isHexDigit c = true) : nibble c < 16 := by
  obtain ⟨d, value, small, _⟩ := hexValue_digit digit
  rw [nibble, value]
  exact small

theorem nibble_upperDigit {d : Nat} (small : d < 16) : nibble (upperDigit d) = d := by
  have all : ∀ d < 16, nibble (upperDigit d) = d := by decide
  exact all d small

theorem nibble_digitChar {d : Nat} (small : d < 16) : nibble (digitChar d) = d := by
  rw [nibble, hexValue_digitChar small, Option.getD_some]

section Checksums
variable {keccak256 : Bytes → Word}

-- The checksum looks at the digits' values alone.
theorem checksumDigits_congr {digits digits' : Text} (same : digits.map nibble = digits'.map nibble) :
    checksumDigits keccak256 digits = checksumDigits keccak256 digits' := by
  have lower : lowerHex digits = lowerHex digits' := by
    have written := congrArg (List.map digitChar) same
    rw [List.map_map, List.map_map] at written
    exact written
  unfold checksumDigits
  rw [lower]
  generalize hexText _ = hash
  let mark (value : Nat) (hashed : CodePoint) : CodePoint :=
    if 8 ≤ (hexValue hashed).getD 0 then upperDigit value else digitChar value
  have values : ∀ digits : Text, digits.zipWith (fun c hashed => mark (nibble c) hashed) hash =
      (digits.map nibble).zipWith mark hash := fun digits => by rw [List.zipWith_map_left]
  exact (values digits).trans (same ▸ (values digits').symm)

theorem nibbles_checksumDigits {digits : Text} (short : digits.length ≤ 64)
    (hex : ∀ c ∈ digits, isHexDigit c = true) :
    (checksumDigits keccak256 digits).map nibble = digits.map nibble := by
  unfold checksumDigits
  have long : digits.length ≤ (hexText (abiWord (keccak256 ((lowerHex digits).map fun c => UInt8.ofNat c.val)))).length := by
    rw [hexText_length, abiWord_length]
    exact short
  simp only
  generalize hexText _ = hash at long
  clear short
  induction digits generalizing hash with
  | nil => rfl
  | cons c rest ih =>
    cases hash with
    | nil => simp at long
    | cons d hash =>
      have small := nibble_small (hex c List.mem_cons_self)
      have first : nibble (if 8 ≤ (hexValue d).getD 0 then upperDigit (nibble c) else digitChar (nibble c)) = nibble c := by
        split
        · exact nibble_upperDigit small
        · exact nibble_digitChar small
      simp only [List.zipWith_cons_cons, List.map_cons]
      rw [ih (fun x listed => hex x (List.mem_cons_of_mem _ listed)) hash (by simpa using long)]
      exact congrArg (· :: rest.map nibble) first

theorem foldl_nibbles (digits : Text) (start : Nat) :
    digits.foldl (fun n c => 16 * n + (hexValue c).getD 0) start = (digits.map nibble).foldl (fun n d => 16 * n + d) start := by
  rw [List.foldl_map]
  rfl

theorem checksumAddress_form {value checksummed : Text} (valid : checksumAddress keccak256 value = some checksummed) :
    checksummed = text "0x" ++ checksumDigits keccak256 (value.drop 2) := by
  unfold checksumAddress at valid
  simp only at valid
  split_ifs at valid
  exact (Option.some.inj valid).symm

theorem addressBits_checksummed {value checksummed : Text}
    (valid : checksumAddress keccak256 value = some checksummed) : addressBits checksummed = addressBits value := by
  have isAddress := checksumAddress_isAddress valid
  rw [checksumAddress_form valid, addressBits, addressBits]
  have digits : (text "0x" ++ checksumDigits keccak256 (value.drop 2)).drop 2 = checksumDigits keccak256 (value.drop 2) :=
    rfl
  rw [digits, foldl_nibbles, foldl_nibbles, nibbles_checksumDigits (by rw [isAddress.length]; decide) isAddress.hex]

theorem hexBytes_nibbles {t t' : Text} (hex : ∀ c ∈ t, isHexDigit c = true) (hex' : ∀ c ∈ t', isHexDigit c = true)
    (lengths : t.length = t'.length) (even : t.length % 2 = 0) (same : hexBytes t = hexBytes t') :
    t.map nibble = t'.map nibble := by
  induction t using hexBytes.induct generalizing t' with
  | case1 high low rest ih =>
    cases t' with
    | nil => cases lengths
    | cons high' t' =>
      cases t' with
      | nil => simp at lengths
      | cons low' rest' =>
        have h := nibble_small (hex high List.mem_cons_self)
        have l := nibble_small (hex low (List.mem_cons_of_mem _ List.mem_cons_self))
        have h' := nibble_small (hex' high' List.mem_cons_self)
        have l' := nibble_small (hex' low' (List.mem_cons_of_mem _ List.mem_cons_self))
        obtain ⟨heads, tails⟩ := List.cons.inj same
        have bytes := congrArg UInt8.toNat heads
        rw [UInt8.toNat_ofNat', UInt8.toNat_ofNat'] at bytes
        unfold nibble at h l h' l'
        rw [Nat.mod_eq_of_lt (by omega), Nat.mod_eq_of_lt (by omega)] at bytes
        simp only [List.length_cons] at lengths even
        rw [List.map_cons, List.map_cons, List.map_cons, List.map_cons,
          ih (fun c listed => hex c (List.mem_cons_of_mem _ (List.mem_cons_of_mem _ listed)))
            (fun c listed => hex' c (List.mem_cons_of_mem _ (List.mem_cons_of_mem _ listed))) (by omega) (by omega) tails]
        unfold nibble
        congr 1
        · omega
        · congr 1
          omega
  | case2 t noPair =>
    cases t with
    | nil =>
      cases t' with
      | nil => rfl
      | cons c t' => cases lengths
    | cons c rest =>
      cases rest with
      | nil => simp at even
      | cons d rest => exact absurd rfl (noPair c d rest)

theorem address_eq {value value' : Text} (form : checksumAddress keccak256 value = some value)
    (form' : checksumAddress keccak256 value' = some value') (same : addressBits value = addressBits value') :
    value = value' := by
  have isAddress := checksumAddress_isAddress form
  have isAddress' := checksumAddress_isAddress form'
  rw [addressBits_eq isAddress, addressBits_eq isAddress'] at same
  have numbers := congrArg BitVec.toNat same
  rw [BitVec.toNat_ofNat, BitVec.toNat_ofNat, Nat.mod_eq_of_lt (address_small isAddress),
    Nat.mod_eq_of_lt (address_small isAddress')] at numbers
  have bytes := wordOf_injective (by rw [address_length isAddress, address_length isAddress']) numbers
  have digits := hexBytes_nibbles isAddress.hex isAddress'.hex (by rw [isAddress.length, isAddress'.length])
    (by rw [isAddress.length]) bytes
  rw [checksumAddress_form form, checksumAddress_form form', checksumDigits_congr digits]

end Checksums

/-! ## What a digest binds -/

section Binding
variable {S : Type} {env env' : Deployment S} {keccak256 : Bytes → Word}

def reconfigureMessage (env : Deployment S) (nonce : Word) (args : ReconfigureArgs) : Bytes :=
  ([reconfigureTag env, env.chainId, env.self.setWidth 256, nonce, env.keccak256 (abiBytesArray args.add),
    env.keccak256 (abiBytesArray args.remove), args.newThreshold.setWidth 256, args.validUntil.setWidth 256] :
    List Word).flatMap abiWord

theorem flatMap_abiWord_length (words : List Word) : (words.flatMap abiWord).length = 32 * words.length := by
  induction words with
  | nil => rfl
  | cons w rest ih =>
    rw [List.flatMap_cons, List.length_append, abiWord_length, ih, List.length_cons]
    omega

theorem setWidth_injective {n : Nat} (narrow : n ≤ 256) {x y : BitVec n} (same : x.setWidth 256 = y.setWidth 256) :
    x = y := by
  have values := congrArg BitVec.toNat same
  have power : 2 ^ n ≤ 2 ^ 256 := Nat.pow_le_pow_right (by norm_num) narrow
  rw [BitVec.toNat_setWidth, BitVec.toNat_setWidth, Nat.mod_eq_of_lt (lt_of_lt_of_le x.isLt power),
    Nat.mod_eq_of_lt (lt_of_lt_of_le y.isLt power)] at values
  exact BitVec.eq_of_toNat_eq values

theorem executionDigest_binds {nonce nonce' : Word} {args args' : ExecuteArgs} (hash : env.keccak256 = keccak256)
    (hash' : env'.keccak256 = keccak256)
    (collisionFree : Set.InjOn keccak256
      {executionMessage env nonce args, executionMessage env' nonce' args', args.data, args'.data})
    (same : executionDigest env nonce args = executionDigest env' nonce' args') :
    env.chainId = env'.chainId ∧ env.self = env'.self ∧ nonce = nonce' ∧ args = args' := by
  have messages : executionMessage env nonce args = executionMessage env' nonce' args' := by
    refine collisionFree (by simp) (by simp) ?_
    rw [Chain.executionDigest, Chain.executionDigest, hash, hash'] at same
    exact same
  have fields := flatMap_abiWord_injective messages
  simp only [List.cons.injEq, and_true] at fields
  obtain ⟨-, chain, self, nonces, proposals, recipients, values, data, gas, deadlines⟩ := fields
  rw [hash, hash'] at data
  have dataSame : args.data = args'.data := collisionFree (by simp) (by simp) data
  refine ⟨chain, setWidth_injective (by decide) self, nonces, ?_⟩
  cases args
  cases args'
  simp only [ExecuteArgs.mk.injEq]
  exact ⟨proposals, setWidth_injective (by decide) recipients, values, dataSame, setWidth_injective (by decide) gas,
    setWidth_injective (by decide) deadlines⟩

theorem executionDigest_ne_reconfigureDigest {nonce nonce' : Word} {args : ExecuteArgs} {change : ReconfigureArgs}
    (hash : env.keccak256 = keccak256) (hash' : env'.keccak256 = keccak256)
    (collisionFree : Set.InjOn keccak256 {executionMessage env nonce args, reconfigureMessage env' nonce' change}) :
    executionDigest env nonce args ≠ reconfigureDigest env' nonce' change := by
  intro same
  have messages : executionMessage env nonce args = reconfigureMessage env' nonce' change := by
    refine collisionFree (by simp) (by simp) ?_
    rw [Chain.executionDigest, hash] at same
    rw [same, ← hash']
    rfl
  have lengths := congrArg List.length messages
  rw [executionMessage, reconfigureMessage, flatMap_abiWord_length, flatMap_abiWord_length] at lengths
  simp at lengths

end Binding

/-! ## Transfers -/

section Transfers
variable {keccak256 : Bytes → Word} {payloadHash payloadHash' : Text}

theorem digitChar_nibble {c : CodePoint} (lower : Verify.isLowerHex c = true) : digitChar (nibble c) = c := by
  simp only [Verify.isLowerHex, Bool.or_eq_true, Bool.and_eq_true, decide_eq_true_eq] at lower
  apply Fin.ext
  rcases lower with decimal | letter
  · have value : nibble c = c.val - 48 := by
      unfold nibble hexValue
      rw [if_pos decimal, Option.getD_some]
    rw [value, digitChar_val (by omega), if_pos (by omega)]
    omega
  · have value : nibble c = c.val - 87 := by
      unfold nibble hexValue
      rw [if_neg (by omega), if_pos letter, Option.getD_some]
    rw [value, digitChar_val (by omega), if_neg (by omega)]
    omega

theorem hash_eq (isHash : IsHash payloadHash) (isHash' : IsHash payloadHash')
    (lower : payloadHash.all Verify.isLowerHex = true) (lower' : payloadHash'.all Verify.isLowerHex = true)
    (same : hashWord payloadHash = hashWord payloadHash') : payloadHash = payloadHash' := by
  have words := congrArg abiWord same
  rw [hashWord, hashWord, abiWord_wordOf (hash_length isHash), abiWord_wordOf (hash_length isHash')] at words
  have digits := hexBytes_nibbles isHash.hex isHash'.hex (by rw [isHash.length, isHash'.length])
    (by rw [isHash.length]) words
  have written : ∀ t : Text, t.all Verify.isLowerHex = true → (t.map nibble).map digitChar = t := by
    intro t all
    rw [List.map_map]
    conv_rhs => rw [← List.map_id t]
    exact List.map_congr_left fun c listed => digitChar_nibble (List.all_eq_true.mp all c listed)
  rw [← written payloadHash lower, digits, written payloadHash' lower']

theorem ofInt_injective {a b : Int} (low : 0 ≤ a ∧ a < 2 ^ 256) (low' : 0 ≤ b ∧ b < 2 ^ 256)
    (same : BitVec.ofInt 256 a = BitVec.ofInt 256 b) : a = b := by
  obtain ⟨n, rfl⟩ := Int.eq_ofNat_of_zero_le low.1
  obtain ⟨m, rfl⟩ := Int.eq_ofNat_of_zero_le low'.1
  have values := congrArg BitVec.toNat same
  rw [BitVec.ofInt_natCast, BitVec.ofInt_natCast, BitVec.toNat_ofNat, BitVec.toNat_ofNat,
    Nat.mod_eq_of_lt (by exact_mod_cast low.2), Nat.mod_eq_of_lt (by exact_mod_cast low'.2)] at values
  exact congrArg Int.ofNat values

theorem transferDigest_binds {fields fields' : List (Text × Json)} {transfer transfer' : EthTransfer}
    (parsed : Parsed keccak256 fields transfer) (parsed' : Parsed keccak256 fields' transfer')
    (isHash : IsHash payloadHash) (isHash' : IsHash payloadHash')
    (lower : payloadHash.all Verify.isLowerHex = true) (lower' : payloadHash'.all Verify.isLowerHex = true)
    (collisionFree : Set.InjOn keccak256 {transfer.message keccak256 (hashWord payloadHash),
      transfer'.message keccak256 (hashWord payloadHash')})
    (same : transferDigest keccak256 transfer payloadHash = transferDigest keccak256 transfer' payloadHash') :
    transfer = transfer' ∧ payloadHash = payloadHash' := by
  have messages := collisionFree (by simp) (by simp) (abiWord_injective same)
  have words := flatMap_abiWord_injective messages
  simp only [List.cons.injEq, and_true, true_and] at words
  obtain ⟨chain, treasury, nonce, hashes, recipient, value, gas, deadline⟩ := words
  obtain ⟨chainIs, values, gases, deadlines, nonces⟩ := parsed.range
  obtain ⟨chainIs', values', gases', deadlines', nonces'⟩ := parsed'.range
  refine ⟨?_, hash_eq isHash isHash' lower lower' hashes⟩
  have treasuries := address_eq parsed.treasuryForm parsed'.treasuryForm (setWidth_injective (by decide) treasury)
  have recipients := address_eq parsed.recipientForm parsed'.recipientForm (setWidth_injective (by decide) recipient)
  have valueSame := ofInt_injective ⟨by omega, values.2⟩ ⟨by omega, values'.2⟩ value
  have gasSame := ofInt_injective ⟨by omega, safe_below_word gases.2⟩ ⟨by omega, safe_below_word gases'.2⟩ gas
  have deadlineSame :=
    ofInt_injective ⟨by omega, safe_below_word deadlines.2⟩ ⟨by omega, safe_below_word deadlines'.2⟩ deadline
  have nonceSame := ofInt_injective ⟨nonces.1, safe_below_word nonces.2⟩ ⟨nonces'.1, safe_below_word nonces'.2⟩ nonce
  cases transfer
  cases transfer'
  simp only at chainIs chainIs'
  subst chainIs chainIs'
  simp only at treasuries recipients valueSame gasSame deadlineSame nonceSame
  rw [treasuries, recipients, valueSame, gasSame, deadlineSame, nonceSame]

/-! ## Reconfigurations -/

theorem reconfigure_contract {S : Type} {env : Deployment S} {chainId configNonce threshold validUntil : Int}
    {treasury : Text} {add remove : List Bytes} {digest : Bytes}
    (deployed : DeployedFor keccak256 env chainId treasury)
    (made : Digest.reconfigureDigest keccak256 chainId treasury configNonce add remove threshold validUntil =
      some digest) :
    digest = abiWord (reconfigureDigest env (BitVec.ofInt 256 configNonce)
      ⟨add, remove, BitVec.ofInt 64 threshold, BitVec.ofInt 64 validUntil⟩) := by
  obtain ⟨hash, chain, self⟩ := deployed
  unfold Digest.reconfigureDigest at made
  split at made
  · cases made
  obtain ⟨chainWord, chainIs, made⟩ := Option.bind_eq_some_iff.mp made
  obtain ⟨treasuryWord, treasuryIs, made⟩ := Option.bind_eq_some_iff.mp made
  obtain ⟨nonceWord, nonceIs, made⟩ := Option.bind_eq_some_iff.mp made
  obtain ⟨thresholdWord, thresholdIs, made⟩ := Option.bind_eq_some_iff.mp made
  obtain ⟨untilWord, untilIs, made⟩ := Option.bind_eq_some_iff.mp made
  obtain ⟨_, rfl⟩ := checkUint_eq_some chainIs
  obtain ⟨_, rfl⟩ := checkUint_eq_some nonceIs
  obtain ⟨thresholdRange, rfl⟩ := checkUint_eq_some thresholdIs
  obtain ⟨untilRange, rfl⟩ := checkUint_eq_some untilIs
  obtain ⟨checksummed, form, rfl⟩ := Option.map_eq_some_iff.mp treasuryIs
  rw [← Option.some.inj made, ← hash]
  unfold reconfigureDigest reconfigureTag
  simp only [setWidth_ofInt thresholdRange.1 thresholdRange.2, setWidth_ofInt untilRange.1 untilRange.2, chain, self,
    addressBits_checksummed form]

end Transfers

end QVault.Proof.Chain
