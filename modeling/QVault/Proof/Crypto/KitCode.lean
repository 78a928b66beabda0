import QVault.Crypto.KitCode
import QVault.Lib.Crc
import QVault.Static.Recover
import QVault.Proof.Mobile.Signing

/-!
# Kit codes decode exactly

A code carries the remainder of its value, so whatever reads as a code leaves the register empty, and no
two such texts differ in a window of ten bits.
-/

namespace QVault.Proof.KitCode
open QVault.Python QVault.KitCode

/-! ## Bits -/

def bitsOf (n value : Nat) : List Bool := (List.range n).reverse.map value.testBit

theorem bitsOf_length (n value : Nat) : (bitsOf n value).length = n := by simp [bitsOf]

theorem bitsOf_add (m n value : Nat) : bitsOf (m + n) value = bitsOf m (value >>> n) ++ bitsOf n value := by
  unfold bitsOf
  rw [Nat.add_comm m n, List.range_add, List.reverse_append, List.map_append, ← List.map_reverse, List.map_map]
  congr 1
  refine List.map_congr_left fun i _ => ?_
  rw [Function.comp_apply, Nat.testBit_shiftRight]

theorem bitsOf_congr {n value value' : Nat} (same : ∀ i < n, value.testBit i = value'.testBit i) :
    bitsOf n value = bitsOf n value' :=
  List.map_congr_left fun i listed => same i (List.mem_range.mp (List.mem_reverse.mp listed))

theorem bitsOf_and (value : Nat) : bitsOf 5 (value &&& 31) = bitsOf 5 value := by
  refine bitsOf_congr fun i inside => ?_
  have mask : value &&& 31 = value % 2 ^ 5 := Nat.and_two_pow_sub_one_eq_mod value 5
  rw [mask, Nat.testBit_mod_two_pow, decide_eq_true inside, Bool.true_and]

theorem bitsOf_xor (n a b : Nat) : (bitsOf n a).zipWith xor (bitsOf n b) = bitsOf n (a ^^^ b) := by
  unfold bitsOf
  rw [List.zipWith_map, List.zipWith_self]
  exact List.map_congr_left fun i _ => (Nat.testBit_xor ..).symm

theorem bitsOf_injective {n a b : Nat} (small : a < 2 ^ n) (small' : b < 2 ^ n) (same : bitsOf n a = bitsOf n b) :
    a = b := by
  apply Nat.eq_of_testBit_eq
  intro i
  by_cases inside : i < n
  · exact List.map_inj_left.mp same i (List.mem_reverse.mpr (List.mem_range.mpr inside))
  · have power : 2 ^ n ≤ 2 ^ i := Nat.pow_le_pow_right (by norm_num) (by omega)
    rw [Nat.testBit_lt_two_pow (by omega), Nat.testBit_lt_two_pow (by omega)]

-- A symbol more at the end
theorem bitsOf_push (m a : Nat) {value : Nat} (small : value < 32) :
    bitsOf (m + 5) ((a <<< 5) ||| value) = bitsOf m a ++ bitsOf 5 value := by
  have high : ((a <<< 5) ||| value) >>> 5 = a := by
    apply Nat.eq_of_testBit_eq
    intro i
    have above : value.testBit (5 + i) = false :=
      Nat.testBit_lt_two_pow (lt_of_lt_of_le small
        (show 2 ^ 5 ≤ 2 ^ (5 + i) from Nat.pow_le_pow_right (by norm_num) (Nat.le_add_right 5 i)))
    rw [Nat.testBit_shiftRight, Nat.testBit_or, Nat.testBit_shiftLeft, above, Nat.add_sub_cancel_left]
    simp
  rw [bitsOf_add, high]
  congr 1
  refine bitsOf_congr fun i inside => ?_
  rw [Nat.testBit_or, Nat.testBit_shiftLeft, decide_eq_false (by omega)]
  simp

/-! ## The register -/

def poly : BitVec 10 := 0x233#10

theorem poly_odd : poly.getLsbD 0 = true := by decide

theorem bit_toNat (value p : Nat) : (value >>> p) &&& 1 = (value.testBit p).toNat := by
  rw [Nat.and_one_is_mod, Nat.shiftRight_eq_div_pow, Nat.toNat_testBit]

-- One bit in, as the loops write it
def feedNat (crc bit : Nat) : Nat :=
  let high := ((crc >>> 9) &&& 1) ^^^ bit
  let crc := (crc <<< 1) &&& 0x3ff
  if high ≠ 0 then crc ^^^ 0x233 else crc

theorem feedNat_toNat (r : BitVec 10) (bit : Bool) : feedNat r.toNat bit.toNat = (Crc.feed poly r bit).toNat := by
  have high : r.toNat.testBit 9 = r.msb := by
    rw [BitVec.msb_eq_getLsbD_last]
    rfl
  have moved : (r.toNat <<< 1) &&& 0x3ff = (r <<< 1).toNat := by
    rw [BitVec.toNat_shiftLeft]
    exact Nat.and_two_pow_sub_one_eq_mod _ 10
  have either : (r.msb.toNat ^^^ bit.toNat ≠ 0) ↔ (r.msb ^^ bit) = true := by
    cases r.msb <;> cases bit <;> decide
  unfold feedNat Crc.feed
  rw [bit_toNat, high, moved]
  by_cases fed : (r.msb ^^ bit) = true
  · rw [if_pos (either.mpr fed), if_pos fed, BitVec.toNat_xor]
    rfl
  · rw [if_neg (mt either.mp fed), if_neg fed]

theorem fold_bits (value : Nat) (positions : List Nat) (r : BitVec 10) :
    positions.foldl (fun crc position => feedNat crc ((value >>> position) &&& 1)) r.toNat =
      (Crc.run poly r (positions.map value.testBit)).toNat := by
  induction positions generalizing r with
  | nil => rfl
  | cons p rest ih =>
    rw [List.foldl_cons, List.map_cons, Crc.run_cons, bit_toNat, feedNat_toNat, ih]

theorem crcBitwise_eq (value bits : Nat) : crcBitwise value bits = (Crc.run poly 0#10 (bitsOf bits value)).toNat :=
  fold_bits value (List.range bits).reverse 0#10

theorem browserCrc_eq (values : List Nat) :
    Static.Recover.crc10 values = (Crc.run poly 0#10 (values.flatMap (bitsOf 5))).toNat := by
  have each : ∀ r : BitVec 10, values.foldl (fun crc value =>
      (List.range 5).reverse.foldl (fun crc b => feedNat crc ((value >>> b) &&& 1)) crc) r.toNat =
        (Crc.run poly r (values.flatMap (bitsOf 5))).toNat := by
    induction values with
    | nil => exact fun r => rfl
    | cons value rest ih =>
      intro r
      rw [List.foldl_cons, fold_bits, ih, List.flatMap_cons, Crc.run_append]
      rfl
  exact each 0#10

theorem table_eq : ∀ x < 32, symbolTable.getD x 0 = (Crc.run poly 0#10 (bitsOf 5 x)).toNat := by decide

theorem top_eq (r : BitVec 10) (n : Nat) (inside : n ≤ 10) : Crc.top r n = bitsOf n (r.toNat >>> (10 - n)) := by
  unfold Crc.top bitsOf
  apply List.ext_getElem
  · simp
  · intro i first _
    rw [List.length_map, List.length_range] at first
    rw [List.getElem_map, List.getElem_map, List.getElem_range, List.getElem_reverse, List.getElem_range,
      BitVec.getMsbD_eq_getLsbD, decide_eq_true (by omega), Bool.true_and, Nat.testBit_shiftRight]
    rw [List.length_range]
    have place : 10 - 1 - i = 10 - n + (n - 1 - i) := by omega
    rw [place]
    rfl

theorem symbol_step (r : BitVec 10) (value : Nat) :
    ((r.toNat <<< 5) &&& 0x3ff) ^^^ symbolTable.getD ((r.toNat >>> 5) ^^^ (value &&& 31)) 0 =
      (Crc.run poly r (bitsOf 5 value)).toNat := by
  have high : r.toNat >>> 5 < 2 ^ 5 := by
    rw [Nat.shiftRight_eq_div_pow]
    have below := r.isLt
    omega
  have low : value &&& 31 < 2 ^ 5 := lt_of_le_of_lt Nat.and_le_right (by norm_num)
  have moved : (r.toNat <<< 5) &&& 0x3ff = (r <<< 5).toNat := by
    rw [BitVec.toNat_shiftLeft]
    exact Nat.and_two_pow_sub_one_eq_mod _ 10
  rw [table_eq _ (Nat.xor_lt_two_pow high low), Crc.run_chunk r (bitsOf 5 value), bitsOf_length, top_eq r 5 (by omega), moved,
    BitVec.toNat_xor, ← bitsOf_xor, bitsOf_and]

theorem crc10_run (value n : Nat) (r : BitVec 10) :
    (List.range n).reverse.foldl (fun crc i =>
      ((crc <<< 5) &&& 0x3ff) ^^^ symbolTable.getD ((crc >>> 5) ^^^ ((value >>> (5 * i)) &&& 31)) 0) r.toNat =
      (Crc.run poly r (bitsOf (5 * n) value)).toNat := by
  induction n generalizing r with
  | zero => rfl
  | succ n ih =>
    rw [List.range_succ, List.reverse_append, List.reverse_singleton, List.singleton_append, List.foldl_cons, symbol_step,
      ih, Nat.mul_succ, Nat.add_comm (5 * n) 5, bitsOf_add, Crc.run_append]

theorem crc10_eq {value bits : Nat} (whole : bits % 5 = 0) :
    crc10 value bits = (Crc.run poly 0#10 (bitsOf bits value)).toNat := by
  have count : 5 * (bits / 5) = bits := by omega
  have run := crc10_run value (bits / 5) 0#10
  rw [count] at run
  rw [crc10, if_neg (by omega)]
  exact run

/-! ## Symbols -/

theorem symbolValue_alphabet : ∀ x < 32, symbolValue (alphabet.getD x 0) = some x := by decide

theorem symbolValue_some {ch : CodePoint} {x : Nat} (found : symbolValue ch = some x) :
    x < 32 ∧ alphabet.getD x 0 = ch := by
  obtain ⟨inside, here, -⟩ := List.findIdx?_eq_some_iff_getElem.mp found
  refine ⟨inside, ?_⟩
  rw [List.getD_eq_getElem _ _ inside]
  exact beq_iff_eq.mp here

def value (ch : CodePoint) : Nat := (symbolValue ch).getD 0

theorem value_small (ch : CodePoint) : value ch < 32 := by
  unfold value
  cases found : symbolValue ch with
  | none => decide
  | some x => exact (symbolValue_some found).1

def Symbols (code : Text) : Prop := ∀ ch ∈ code, (symbolValue ch).isSome = true

theorem value_injective {ch ch' : CodePoint} (isSymbol : (symbolValue ch).isSome = true)
    (isSymbol' : (symbolValue ch').isSome = true) (same : value ch = value ch') : ch = ch' := by
  obtain ⟨x, found⟩ := Option.isSome_iff_exists.mp isSymbol
  obtain ⟨x', found'⟩ := Option.isSome_iff_exists.mp isSymbol'
  rw [value, value, found, found', Option.getD_some, Option.getD_some] at same
  rw [← (symbolValue_some found).2, ← (symbolValue_some found').2, same]

def codeBits (code : Text) : List Bool := code.flatMap fun ch => bitsOf 5 (value ch)

theorem codeBits_cons (ch : CodePoint) (rest : Text) : codeBits (ch :: rest) = bitsOf 5 (value ch) ++ codeBits rest :=
  List.flatMap_cons

theorem codeBits_length (code : Text) : (codeBits code).length = 5 * code.length := by
  induction code with
  | nil => rfl
  | cons ch rest ih =>
    rw [codeBits_cons, List.length_append, bitsOf_length, List.length_cons, ih]
    omega

theorem codeBits_append (a b : Text) : codeBits (a ++ b) = codeBits a ++ codeBits b := List.flatMap_append

theorem codeBits_injective {code code' : Text} (symbols : Symbols code) (symbols' : Symbols code')
    (lengths : code.length = code'.length) (same : codeBits code = codeBits code') : code = code' := by
  induction code generalizing code' with
  | nil => exact (List.length_eq_zero_iff.mp lengths.symm).symm
  | cons ch rest ih =>
    cases code' with
    | nil => cases lengths
    | cons ch' rest' =>
      obtain ⟨first, later⟩ := List.append_inj same (by rw [bitsOf_length, bitsOf_length])
      have head := value_injective (symbols ch List.mem_cons_self) (symbols' ch' List.mem_cons_self)
        (bitsOf_injective (value_small ch) (value_small ch') first)
      rw [head, ih (fun x listed => symbols x (List.mem_cons_of_mem _ listed))
        (fun x listed => symbols' x (List.mem_cons_of_mem _ listed)) (Nat.succ.inj lengths) later]

theorem bitsOf_symbolsValue (code : Text) : bitsOf (5 * code.length) (symbolsValue code) = codeBits code := by
  have pushed : ∀ (m a : Nat), bitsOf (m + 5 * code.length)
      (code.foldl (fun value ch => (value <<< 5) ||| (symbolValue ch).getD 0) a) = bitsOf m a ++ codeBits code := by
    induction code with
    | nil => exact fun m a => (List.append_nil _).symm
    | cons ch rest ih =>
      intro m a
      have count : m + 5 * (ch :: rest).length = m + 5 + 5 * rest.length := by
        rw [List.length_cons]
        omega
      rw [List.foldl_cons, count, ih, codeBits_cons, ← List.append_assoc]
      congr 1
      exact bitsOf_push m a (value_small ch)
  have whole := pushed 0 0
  rw [Nat.zero_add] at whole
  exact whole

theorem symbolsValue_small (code : Text) : symbolsValue code < 2 ^ (5 * code.length) := by
  have bounded : ∀ (n a : Nat), a < 2 ^ n →
      code.foldl (fun value ch => (value <<< 5) ||| (symbolValue ch).getD 0) a < 2 ^ (n + 5 * code.length) := by
    induction code with
    | nil => exact fun n a small => small
    | cons ch rest ih =>
      intro n a small
      have count : n + 5 * (ch :: rest).length = n + 5 + 5 * rest.length := by
        rw [List.length_cons]
        omega
      rw [List.foldl_cons, count]
      refine ih (n + 5) _ (Nat.or_lt_two_pow ?_ ?_)
      · rw [Nat.shiftLeft_eq, pow_add]
        exact Nat.mul_lt_mul_of_pos_right small (by norm_num)
      · exact lt_of_lt_of_le (value_small ch) (show 2 ^ 5 ≤ 2 ^ (n + 5) from
          Nat.pow_le_pow_right (by norm_num) (Nat.le_add_left 5 n))
  have whole := bounded 0 0 (by norm_num)
  rwa [Nat.zero_add] at whole

/-! ### Writing -/

theorem symbols_length (v count : Nat) : (symbols v count).length = count := by simp [symbols]

theorem symbols_succ (v count : Nat) :
    symbols v (count + 1) = alphabet.getD ((v >>> (5 * count)) &&& 31) 0 :: symbols v count := by
  unfold symbols
  rw [List.range_succ_eq_map, List.map_cons, List.map_map]
  congr 1
  refine List.map_congr_left fun i _ => ?_
  rw [Function.comp_apply]
  congr 3
  omega

theorem symbols_symbols (v count : Nat) : Symbols (symbols v count) := by
  intro ch listed
  obtain ⟨i, -, rfl⟩ := List.mem_map.mp listed
  rw [symbolValue_alphabet _ (lt_of_le_of_lt Nat.and_le_right (by norm_num))]
  rfl

theorem codeBits_symbols (v count : Nat) : codeBits (symbols v count) = bitsOf (5 * count) v := by
  induction count with
  | zero => rfl
  | succ count ih =>
    have first : value (alphabet.getD ((v >>> (5 * count)) &&& 31) 0) = (v >>> (5 * count)) &&& 31 := by
      rw [value, symbolValue_alphabet _ (lt_of_le_of_lt Nat.and_le_right (by norm_num)), Option.getD_some]
    rw [symbols_succ, codeBits_cons, first, bitsOf_and, Nat.mul_succ, Nat.add_comm (5 * count) 5, bitsOf_add, ← ih]

theorem symbolsValue_symbols {v count : Nat} (small : v < 2 ^ (5 * count)) : symbolsValue (symbols v count) = v := by
  have bits := bitsOf_symbolsValue (symbols v count)
  have below := symbolsValue_small (symbols v count)
  rw [symbols_length] at bits below
  exact bitsOf_injective below small (bits.trans (codeBits_symbols v count))

theorem symbols_symbolsValue {code : Text} (isCode : Symbols code) : symbols (symbolsValue code) code.length = code :=
  codeBits_injective (symbols_symbols _ _) isCode (symbols_length _ _)
    ((codeBits_symbols _ _).trans (bitsOf_symbolsValue code))

/-! ## The check -/

-- What reads as a code
structure IsCode (code : Text) : Prop where
  symbols : Symbols code
  length : code.length = 32
  check : Crc.run poly 0#10 (codeBits code) = 0#10

theorem check_iff {code : Text} (length : code.length = 32) :
    crc10 (symbolsValue (code.take dataSymbols)) kitBits = symbolsValue (code.drop dataSymbols) ↔
      Crc.run poly 0#10 (codeBits code) = 0#10 := by
  have dataLength : (code.take dataSymbols).length = 30 := by rw [List.length_take, length]; rfl
  have checkLength : (code.drop dataSymbols).length = 2 := by rw [List.length_drop, length]; rfl
  have data := bitsOf_symbolsValue (code.take dataSymbols)
  have check := bitsOf_symbolsValue (code.drop dataSymbols)
  have small := symbolsValue_small (code.drop dataSymbols)
  rw [dataLength] at data
  rw [checkLength] at check small
  have cut : codeBits code = codeBits (code.take dataSymbols) ++ codeBits (code.drop dataSymbols) := by
    rw [← codeBits_append, List.take_append_drop]
  have crc : crc10 (symbolsValue (code.take dataSymbols)) kitBits =
      (Crc.run poly 0#10 (codeBits (code.take dataSymbols))).toNat := by
    rw [crc10_eq (by decide), ← data]
    rfl
  rw [crc, cut, Crc.run_append, ← check]
  generalize Crc.run poly 0#10 (codeBits (code.take dataSymbols)) = r
  have own : Crc.top r 10 = bitsOf 10 r.toNat := top_eq r 10 le_rfl
  constructor
  · intro same
    rw [← same, ← own, Crc.run_top]
    exact BitVec.shiftLeft_eq_zero le_rfl
  · intro empty
    have bits := (Crc.run_eq_zero poly_odd (by rw [bitsOf_length]) empty).1
    rw [bitsOf_length, own] at bits
    exact (bitsOf_injective small r.isLt bits).symm

/-! ## Reading -/

section Reading
variable {special : CodePoint → Text}

theorem upperCase_append (a b : Text) : upperCase special (a ++ b) = upperCase special a ++ upperCase special b :=
  List.flatMap_append

theorem cleaned_append (a b : Text) : cleaned (a ++ b) = do return (← cleaned a) ++ (← cleaned b) := by
  induction a with
  | nil => cases here : cleaned b <;> simp [cleaned, here]
  | cons ch rest ih =>
    rw [List.cons_append, cleaned, cleaned]
    split
    · exact ih
    · split
      · rfl
      · rw [ih]
        cases cleaned rest <;> cases cleaned b <;> rfl

theorem cleaned_symbols {typed code : Text} (read : cleaned typed = some code) : Symbols code := by
  induction typed generalizing code with
  | nil =>
    cases read
    exact fun ch none => (nomatch none)
  | cons ch rest ih =>
    rw [cleaned] at read
    split at read
    · exact ih read
    · split at read
      · cases read
      · rename_i isSymbol
        obtain ⟨later, found, rfl⟩ := Option.map_eq_some_iff.mp read
        intro c listed
        rcases List.mem_cons.mp listed with rfl | among
        · rwa [Bool.not_eq_true, Option.isNone_eq_false_iff] at isSymbol
        · exact ih found c among

theorem normalise_ok {typed code : Text} :
    normalise special (.str typed) = .ok code ↔ cleaned (upperCase special typed) = some code ∧ IsCode code := by
  rw [normalise]
  cases read : cleaned (upperCase special typed) with
  | none => simp
  | some found =>
    simp only [Option.some.injEq]
    by_cases length : found.length = symbolCount
    · rw [if_neg (not_not.mpr length)]
      by_cases check : crc10 (symbolsValue (found.take dataSymbols)) kitBits = symbolsValue (found.drop dataSymbols)
      · rw [if_neg (not_not.mpr check), Except.ok.injEq]
        refine ⟨fun same => ?_, And.left⟩
        subst same
        exact ⟨rfl, cleaned_symbols read, length, (check_iff length).mp check⟩
      · rw [if_pos check]
        refine ⟨nofun, ?_⟩
        rintro ⟨rfl, isCode⟩
        exact absurd ((check_iff length).mpr isCode.check) check
    · rw [if_pos length]
      refine ⟨nofun, ?_⟩
      rintro ⟨rfl, isCode⟩
      exact absurd isCode.length length

theorem encode_ok {k : Nat} (small : k < 2 ^ 150) :
    encode k = .ok (symbols k dataSymbols ++ symbols (crc10 k kitBits) checkSymbols) := by
  have power : 1 <<< kitBits = 2 ^ 150 := by decide
  rw [encode, if_neg (by rw [power]; omega)]

theorem crc10_small (k : Nat) : crc10 k kitBits < 2 ^ 10 := by
  rw [crc10_eq (by decide)]
  exact (Crc.run poly 0#10 _).isLt

theorem encode_isCode {k : Nat} (small : k < 2 ^ 150) {code : Text} (made : encode k = .ok code) :
    IsCode code ∧ symbolsValue (code.take dataSymbols) = k := by
  rw [encode_ok small] at made
  cases made
  have taken : (symbols k dataSymbols ++ symbols (crc10 k kitBits) checkSymbols).take dataSymbols = symbols k dataSymbols :=
    List.take_left' (symbols_length _ _)
  have dropped : (symbols k dataSymbols ++ symbols (crc10 k kitBits) checkSymbols).drop dataSymbols =
      symbols (crc10 k kitBits) checkSymbols := List.drop_left' (symbols_length _ _)
  have data : symbolsValue (symbols k dataSymbols) = k := symbolsValue_symbols small
  have check : symbolsValue (symbols (crc10 k kitBits) checkSymbols) = crc10 k kitBits :=
    symbolsValue_symbols (crc10_small k)
  have length : (symbols k dataSymbols ++ symbols (crc10 k kitBits) checkSymbols).length = 32 := by
    rw [List.length_append, symbols_length, symbols_length]
    rfl
  refine ⟨⟨?_, length, (check_iff length).mp ?_⟩, ?_⟩
  · intro ch listed
    rcases List.mem_append.mp listed with among | among
    · exact symbols_symbols _ _ ch among
    · exact symbols_symbols _ _ ch among
  · rw [taken, dropped, data, check]
  · rw [taken, data]

-- Only the encoding of its value is a code.
theorem isCode_encode {code : Text} (isCode : IsCode code) :
    symbolsValue (code.take dataSymbols) < 2 ^ 150 ∧ encode (symbolsValue (code.take dataSymbols)) = .ok code := by
  have dataLength : (code.take dataSymbols).length = dataSymbols := by rw [List.length_take, isCode.length]; rfl
  have checkLength : (code.drop dataSymbols).length = checkSymbols := by rw [List.length_drop, isCode.length]; rfl
  have small := symbolsValue_small (code.take dataSymbols)
  rw [dataLength] at small
  have dataSymbols' : Symbols (code.take dataSymbols) := fun ch listed => isCode.symbols ch (List.mem_of_mem_take listed)
  have checkSymbols' : Symbols (code.drop dataSymbols) := fun ch listed => isCode.symbols ch (List.mem_of_mem_drop listed)
  have data := symbols_symbolsValue dataSymbols'
  have check := symbols_symbolsValue checkSymbols'
  rw [dataLength] at data
  rw [checkLength] at check
  refine ⟨small, ?_⟩
  rw [encode_ok small, (check_iff isCode.length).mpr isCode.check, data, check, List.take_append_drop]

theorem decode_ok {typed : Text} {k : Nat} : decode special (.str typed) = .ok k ↔
    ∃ code, cleaned (upperCase special typed) = some code ∧ IsCode code ∧ symbolsValue (code.take dataSymbols) = k := by
  unfold decode
  cases read : normalise special (.str typed) with
  | error e =>
    refine ⟨nofun, ?_⟩
    rintro ⟨code, found, isCode, -⟩
    rw [normalise_ok.mpr ⟨found, isCode⟩] at read
    cases read
  | ok code =>
    obtain ⟨found, isCode⟩ := normalise_ok.mp read
    rw [Except.map, Except.ok.injEq]
    refine ⟨fun same => ⟨code, found, isCode, same⟩, ?_⟩
    rintro ⟨other, found', -, same⟩
    cases found.symm.trans found'
    exact same

/-! ### Spellings -/

-- How a symbol may be written: itself, in lower case, or as what is read as it
def forms (symbol : CodePoint) : Text :=
  symbol :: (if 65 ≤ symbol.val then [Fin.ofNat _ (symbol.val + 32)] else []) ++
    (if symbol = codePoint '1' then text "IiLl" else if symbol = codePoint '0' then text "Oo" else [])

inductive Spells : Text → Text → Prop
  | nil : Spells [] []
  | gap {code typed : Text} {c : CodePoint} (isGap : isGap c = true) (later : Spells code typed) : Spells code (c :: typed)
  | symbol {code typed : Text} {s c : CodePoint} (form : c ∈ forms s) (later : Spells code typed) :
    Spells (s :: code) (c :: typed)

-- What upper case makes of an ASCII character
def upperAscii (c : CodePoint) : CodePoint := if 97 ≤ c.val ∧ c.val ≤ 122 then Fin.ofNat _ (c.val - 32) else c

theorem upperCase_ascii {c : CodePoint} (ascii : c.val < 128) (rest : Text) :
    upperCase special (c :: rest) = upperAscii c :: upperCase special rest := by
  rw [upperCase, List.flatMap_cons, upperAscii]
  split
  · rfl
  · rfl

theorem gap_upper {c : CodePoint} (gap : isGap c = true) : c.val < 128 ∧ isGap (upperAscii c) = true := by
  have listed : c ∈ text " -\t\r\n" := by simpa [isGap] using gap
  have all : ((text " -\t\r\n").all fun c => c.val < 128 && isGap (upperAscii c)) = true := by decide
  simpa using List.all_eq_true.mp all c listed

theorem form_upper {s c : CodePoint} (isSymbol : (symbolValue s).isSome = true) (form : c ∈ forms s) :
    c.val < 128 ∧ isGap (upperAscii c) = false ∧ aliased (upperAscii c) = s := by
  obtain ⟨x, found⟩ := Option.isSome_iff_exists.mp isSymbol
  obtain ⟨small, here⟩ := symbolValue_some found
  have all : ((List.range 32).all fun x => (forms (alphabet.getD x 0)).all fun c =>
      c.val < 128 && (!isGap (upperAscii c) && aliased (upperAscii c) == alphabet.getD x 0)) = true := by decide
  have each := List.all_eq_true.mp (List.all_eq_true.mp all x (List.mem_range.mpr small)) c (here.symm ▸ form)
  rw [here] at each
  simpa using each

theorem cleaned_spells {code typed : Text} (isCode : Symbols code) (spells : Spells code typed) :
    cleaned (upperCase special typed) = some code := by
  induction spells with
  | nil => rfl
  | gap isGap later ih =>
    obtain ⟨ascii, upper⟩ := gap_upper isGap
    rw [upperCase_ascii ascii, cleaned, if_pos upper]
    exact ih isCode
  | @symbol code typed s c form later ih =>
    have isSymbol := isCode s List.mem_cons_self
    obtain ⟨ascii, gap, here⟩ := form_upper isSymbol form
    have among : (symbolValue s).isNone = false := Option.isNone_eq_false_iff.mpr isSymbol
    rw [upperCase_ascii ascii, cleaned, if_neg (by simp [gap]), here, if_neg (by simp [among]),
      ih fun ch listed => isCode ch (List.mem_cons_of_mem _ listed)]
    rfl

theorem spells_self (code : Text) : Spells code code := by
  induction code with
  | nil => exact .nil
  | cons s rest ih => exact .symbol List.mem_cons_self ih

theorem spells_append {code code' typed typed' : Text} (first : Spells code typed) (second : Spells code' typed') :
    Spells (code ++ code') (typed ++ typed') := by
  induction first with
  | nil => exact second
  | gap isGap _ ih => exact .gap isGap ih
  | symbol form _ ih => exact .symbol form ih

theorem groups_ne_nil {code : Text} (some' : code ≠ []) : groups code ≠ [] := by
  unfold groups
  split
  · exact List.cons_ne_nil _ _
  · exact absurd rfl some'
  · exact List.cons_ne_nil _ _

theorem spells_grouped (code : Text) : Spells code (grouped code) := by
  unfold grouped
  induction code using groups.induct with
  | case1 a b c d rest ih =>
    rw [groups]
    by_cases last : rest = []
    · subst last
      exact spells_self _
    · rw [List.intercalate_cons_of_ne_nil (groups_ne_nil last), List.append_assoc]
      exact spells_append (spells_self [a, b, c, d]) (.gap (by decide) ih)
  | case2 => exact .nil
  | case3 short long some' =>
    have single : groups short = [short] := by
      unfold groups
      split
      · exact absurd rfl (long _ _ _ _ _)
      · exact absurd rfl some'
      · rfl
    rw [single, List.intercalate_singleton]
    exact spells_self short

end Reading

/-! ## Slips -/

-- One symbol changed, two neighbours swapped, or some of ten bits in a row of the 160 the other way
inductive Slip : Text → Text → Prop
  | symbol {before after : Text} {a b : CodePoint} (changed : a ≠ b) : Slip (before ++ a :: after) (before ++ b :: after)
  | swap {before after : Text} {a b : CodePoint} (different : a ≠ b) :
    Slip (before ++ a :: b :: after) (before ++ b :: a :: after)
  | burst {code code' : Text} {e j : Nat} (some' : e ≠ 0) (short : e < 2 ^ 10) (length : code'.length = code.length)
    (bits : symbolsValue code' = symbolsValue code ^^^ (e <<< j)) : Slip code code'

theorem slip_length {code code' : Text} (slip : Slip code code') : code'.length = code.length := by
  cases slip with
  | symbol _ => simp
  | swap _ => simp
  | burst _ _ length _ => exact length

theorem window_unique {before middle middle' after : Text} (isCode : IsCode (before ++ (middle ++ after)))
    (isCode' : IsCode (before ++ (middle' ++ after))) (lengths : middle.length = middle'.length)
    (short : middle.length ≤ 2) : middle = middle' := by
  have empty := isCode.check
  have empty' := isCode'.check
  rw [codeBits_append, codeBits_append] at empty empty'
  have windows := Crc.run_window poly_odd (by rw [codeBits_length, codeBits_length, lengths])
    (by rw [codeBits_length]; omega) (empty.trans empty'.symm)
  exact codeBits_injective
    (fun ch listed => isCode.symbols ch (List.mem_append_right _ (List.mem_append_left _ listed)))
    (fun ch listed => isCode'.symbols ch (List.mem_append_right _ (List.mem_append_left _ listed))) lengths windows

-- The bits of a word about a window of ten
theorem bitsOf_window (word : Nat) {start : Nat} (inside : start ≤ 150) : bitsOf 160 word =
    bitsOf (150 - start) ((word >>> start) >>> 10) ++ (bitsOf 10 (word >>> start) ++ bitsOf start word) := by
  have outer : 160 = (150 - start + 10) + start := by omega
  conv_lhs => rw [outer, bitsOf_add, bitsOf_add]
  rw [List.append_assoc]

theorem burst_outside {e j p : Nat} (short : e < 2 ^ 10) (outside : p < j ∨ j + 10 ≤ p) : (e <<< j).testBit p = false := by
  rw [Nat.testBit_shiftLeft]
  rcases outside with below | above
  · rw [decide_eq_false (by omega), Bool.false_and]
  · have high : e.testBit (p - j) = false :=
      Nat.testBit_lt_two_pow (lt_of_lt_of_le short (Nat.pow_le_pow_right (by norm_num) (by omega)))
    rw [high, Bool.and_false]

theorem slip_refused {code code' : Text} (isCode : IsCode code) (slip : Slip code code') : ¬ IsCode code' := by
  intro isCode'
  cases slip with
  | @symbol before after a b changed =>
    have windows : [a] = [b] := window_unique isCode isCode' rfl (Nat.le_succ 1)
    exact changed (List.cons.inj windows).1
  | @swap before after a b different =>
    have windows : [a, b] = [b, a] := window_unique isCode isCode' rfl le_rfl
    exact different (List.cons.inj windows).1
  | @burst _ _ e j some' short length bits =>
    have whole := bitsOf_symbolsValue code
    have whole' := bitsOf_symbolsValue code'
    have small := symbolsValue_small code
    have small' := symbolsValue_small code'
    rw [isCode.length] at whole small
    rw [isCode'.length] at whole' small'
    have empty := isCode.check
    have empty' := isCode'.check
    -- A burst that starts in the first ten bits lies in the window of those.
    let start := min j 150
    have inside : start ≤ 150 := Nat.min_le_right _ _
    have flipped : ∀ p, (p < start ∨ start + 10 ≤ p ∧ p < 160) →
        (symbolsValue code').testBit p = (symbolsValue code).testBit p := by
      intro p outside
      rw [bits, Nat.testBit_xor, burst_outside short (by omega), Bool.xor_false]
    have high : bitsOf (150 - start) ((symbolsValue code' >>> start) >>> 10) =
        bitsOf (150 - start) ((symbolsValue code >>> start) >>> 10) := by
      refine bitsOf_congr fun i before => ?_
      simp only [Nat.testBit_shiftRight]
      exact flipped _ (.inr (by omega))
    have low : bitsOf start (symbolsValue code') = bitsOf start (symbolsValue code) :=
      bitsOf_congr fun i before => flipped i (.inl before)
    rw [← whole, bitsOf_window _ inside] at empty
    rw [← whole', bitsOf_window _ inside, high, low] at empty'
    have windows := Crc.run_window poly_odd (by rw [bitsOf_length, bitsOf_length]) (by rw [bitsOf_length])
      (empty.trans empty'.symm)
    have words : symbolsValue code = symbolsValue code' := by
      refine bitsOf_injective small small' ?_
      rw [bitsOf_window _ inside, bitsOf_window _ inside, high, low, windows]
    rw [← words] at bits
    have none : e <<< j = 0 := by
      have cancelled := congrArg (symbolsValue code ^^^ ·) bits
      simp only [Nat.xor_self, ← Nat.xor_assoc, Nat.zero_xor] at cancelled
      exact cancelled.symm
    rw [Nat.shiftLeft_eq] at none
    rcases Nat.mul_eq_zero.mp none with zero | power
    · exact some' zero
    · exact absurd power (by positivity)

section Refusals
variable {special : CodePoint → Text}

theorem normalise_typo {typed code : Text} (read : cleaned (upperCase special typed) = some code)
    (length : code.length = symbolCount) (wrong : ¬ IsCode code) : normalise special (.str typed) = .error typoSentence := by
  rw [normalise, read]
  simp only
  rw [if_neg (not_not.mpr length), if_pos]
  intro check
  exact wrong ⟨cleaned_symbols read, length, (check_iff length).mp check⟩

theorem slip_typo {typed typed' code code' : Text} (accepted : normalise special (.str typed) = .ok code)
    (read : cleaned (upperCase special typed') = some code') (slip : Slip code code') :
    normalise special (.str typed') = .error typoSentence := by
  obtain ⟨-, isCode⟩ := normalise_ok.mp accepted
  exact normalise_typo read ((slip_length slip).trans isCode.length) (slip_refused isCode slip)

-- Any character that does not read as the symbol it stands for
theorem changed_refused {k i : Nat} {code : Text} {c s : CodePoint} (small : k < 2 ^ 150) (made : encode k = .ok code)
    (there : code[i]? = some s) (other : cleaned (upperCase special [c]) ≠ some [s]) (v : Nat) :
    decode special (.str (code.set i c)) ≠ .ok v := by
  intro accepted
  obtain ⟨code', read, isCode', -⟩ := decode_ok.mp accepted
  obtain ⟨isCode, -⟩ := encode_isCode small made
  obtain ⟨inside, here⟩ := List.getElem?_eq_some_iff.mp there
  have before : Symbols (code.take i) := fun ch listed => isCode.symbols ch (List.mem_of_mem_take listed)
  have after : Symbols (code.drop (i + 1)) := fun ch listed => isCode.symbols ch (List.mem_of_mem_drop listed)
  have whole : code = code.take i ++ s :: code.drop (i + 1) := by
    rw [← here, List.getElem_cons_drop, List.take_append_drop]
  have typed : code.set i c = code.take i ++ ([c] ++ code.drop (i + 1)) := by
    rw [List.set_eq_take_append_cons_drop, if_pos inside]
    rfl
  rw [typed, upperCase_append, upperCase_append, cleaned_append, cleaned_append, cleaned_spells before (spells_self _),
    cleaned_spells after (spells_self _)] at read
  cases one : cleaned (upperCase special [c]) with
  | none => simp [one] at read
  | some middle =>
    simp only [one, Option.bind_eq_bind, Option.bind_some, Option.pure_def, Option.some.injEq] at read
    have lengths := isCode'.length
    have length := isCode.length
    rw [whole] at length
    rw [← read] at lengths isCode'
    simp only [List.length_append, List.length_cons] at lengths length
    obtain ⟨d, rfl⟩ := List.length_eq_one_iff.mp (show middle.length = 1 by omega)
    rw [whole] at isCode
    have changed : s ≠ d := fun same => other (by rw [one, same])
    exact slip_refused isCode (.symbol changed) isCode'

end Refusals

/-! ## The browser -/

section Browser
open QVault.Mobile QVault.Proof.Mobile
variable {special : CodePoint → Text}

theorem unit_eq_below {c d : CodePoint} (left : c.val < 0x10000) (right : d.val < 0x10000) : unit c = unit d ↔ c = d := by
  rw [Fin.ext_iff, Fin.ext_iff, unit, unit, Fin.val_ofNat, Fin.val_ofNat, Nat.mod_eq_of_lt left, Nat.mod_eq_of_lt right]

theorem findIdx_units {l : Text} (small : ∀ x ∈ l, x.val < 0x10000) {c : CodePoint} (below : c.val < 0x10000) :
    (l.map unit).findIdx? (· == unit c) = l.findIdx? (· == c) := by
  induction l with
  | nil => rfl
  | cons x rest ih =>
    have first : (unit x == unit c) = (x == c) := by
      rw [Bool.eq_iff_iff, beq_iff_eq, beq_iff_eq, unit_eq_below (small x List.mem_cons_self) below]
    rw [List.map_cons, List.findIdx?_cons, List.findIdx?_cons, first,
      ih fun y listed => small y (List.mem_cons_of_mem _ listed)]

theorem ascii_alphabet : Ascii alphabet := ascii_of_all (by decide)

theorem browser_alphabet : Static.Recover.alphabet = alphabet.map unit := utf16_ascii ascii_alphabet

theorem indexOf_unit {c : CodePoint} (below : c.val < 0x10000) : Static.Recover.indexOf (unit c) = symbolValue c := by
  unfold Static.Recover.indexOf symbolValue
  rw [browser_alphabet]
  exact findIdx_units (fun x listed => lt_trans (ascii_alphabet x listed) (by decide)) below

theorem gaps_units : js " -\t\r\n" = (text " -\t\r\n").map unit := utf16_ascii (ascii_of_all (by decide))

theorem isGap_unit {c : CodePoint} (below : c.val < 0x10000) : Static.Recover.isGap (unit c) = isGap c := by
  have small : Ascii (text " -\t\r\n") := ascii_of_all (by decide)
  unfold Static.Recover.isGap isGap
  rw [gaps_units, Bool.eq_iff_iff, List.contains_iff_mem, List.contains_iff_mem, List.mem_map]
  constructor
  · rintro ⟨d, listed, same⟩
    exact (unit_eq_below (lt_trans (small d listed) (by decide)) below).mp same ▸ listed
  · exact fun listed => ⟨c, listed, rfl⟩

theorem aliased_unit {c : CodePoint} (below : c.val < 0x10000) : Static.Recover.aliased (unit c) = unit (aliased c) := by
  have letter : ∀ d : CodePoint, d.val < 0x10000 → ([unit c] = [unit d] ↔ c = d) := by
    intro d small
    rw [List.cons.injEq, and_iff_left rfl, unit_eq_below below small]
  have i : js "I" = [unit (codePoint 'I')] := rfl
  have l : js "L" = [unit (codePoint 'L')] := rfl
  have o : js "O" = [unit (codePoint 'O')] := rfl
  unfold Static.Recover.aliased aliased
  rw [i, l, o]
  simp only [letter _ (by decide : (codePoint 'I').val < 0x10000), letter _ (by decide : (codePoint 'L').val < 0x10000),
    letter _ (by decide : (codePoint 'O').val < 0x10000)]
  split_ifs <;> rfl

theorem aliased_below {c : CodePoint} (below : c.val < 0x10000) : (aliased c).val < 0x10000 := by
  unfold aliased
  split_ifs
  · decide
  · decide
  · exact below

-- Nothing beyond ASCII is a symbol or a gap.
theorem beyond_ascii {c : CodePoint} (large : 128 ≤ c.val) :
    isGap c = false ∧ (symbolValue (aliased c)).isNone = true := by
  have itself : aliased c = c := by
    have other : ∀ d : CodePoint, d.val < 128 → c ≠ d := fun d small same => absurd (same ▸ large) (by omega)
    unfold aliased
    rw [if_neg (not_or.mpr ⟨other _ (by decide), other _ (by decide)⟩), if_neg (other _ (by decide))]
  have gaps : Ascii (text " -\t\r\n") := ascii_of_all (by decide)
  constructor
  · rw [Bool.eq_false_iff]
    intro gap
    have listed : c ∈ text " -\t\r\n" := by simpa [isGap] using gap
    have small := gaps c listed
    omega
  · rw [itself, Option.isNone_iff_eq_none]
    by_contra isSymbol
    obtain ⟨x, found⟩ := Option.ne_none_iff_exists'.mp isSymbol
    obtain ⟨inside, here, -⟩ := List.findIdx?_eq_some_iff_getElem.mp found
    have small := ascii_alphabet _ (List.getElem_mem inside)
    rw [beq_iff_eq.mp here] at small
    omega

theorem browser_cleaned (t : Text) : Static.Recover.cleaned (utf16 t) = (cleaned t).map utf16 := by
  induction t with
  | nil => rfl
  | cons c rest ih =>
    rw [utf16_cons, cleaned]
    by_cases below : c.val < 0x10000
    · have single : units c = [unit c] := if_pos below
      rw [single, List.singleton_append, Static.Recover.cleaned, isGap_unit below, aliased_unit below,
        indexOf_unit (aliased_below below), ih]
      split
      · rfl
      · split
        · rfl
        · have letter : ∀ later, utf16 (aliased c :: later) = unit (aliased c) :: utf16 later := by
            intro later
            rw [utf16_cons, units, if_pos (aliased_below below)]
            rfl
          cases cleaned rest with
          | none => rfl
          | some later => exact congrArg some (letter later).symm
    · obtain ⟨gap, none⟩ := beyond_ascii (c := c) (by omega)
      rw [if_neg (by simp [gap]), if_pos none]
      -- The high half of a pair is no symbol either.
      let high : CodePoint := Fin.ofNat _ (0xD800 + (c.val - 0x10000) / 0x400)
      have bound := c.isLt
      have highVal : high.val = 0xD800 + (c.val - 0x10000) / 0x400 := Nat.mod_eq_of_lt (by omega)
      have highBelow : high.val < 0x10000 := by omega
      obtain ⟨highGap, highNone⟩ := beyond_ascii (c := high) (by omega)
      have pair : ∃ low, units c = [unit high, low] := by
        refine ⟨_, (if_neg below).trans (congrArg (· :: _) ?_)⟩
        rw [unit, highVal]
      obtain ⟨low, isPair⟩ := pair
      rw [isPair, List.cons_append, Static.Recover.cleaned, isGap_unit highBelow, aliased_unit highBelow,
        indexOf_unit (aliased_below highBelow), if_neg (by simp [highGap]), if_pos highNone]
      rfl

theorem symbol_below {c : CodePoint} (isSymbol : (symbolValue c).isSome = true) : c.val < 128 := by
  obtain ⟨x, found⟩ := Option.isSome_iff_exists.mp isSymbol
  obtain ⟨inside, here, -⟩ := List.findIdx?_eq_some_iff_getElem.mp found
  exact beq_iff_eq.mp here ▸ ascii_alphabet _ (List.getElem_mem inside)

theorem index_symbols {code : Text} (isCode : Symbols code) {i : Nat} (inside : i < code.length) :
    Static.Recover.index (utf16 code) i = value code[i] := by
  have ascii : Ascii code := fun ch listed => symbol_below (isCode ch listed)
  have below : code[i].val < 0x10000 := lt_trans (ascii _ (List.getElem_mem inside)) (by decide)
  rw [Static.Recover.index, utf16_ascii ascii, List.getElem?_map, List.getElem?_eq_getElem inside, Option.map_some,
    Option.bind_some, indexOf_unit below]
  rfl

theorem browser_data {code : Text} (isCode : Symbols code) (length : code.length = 32) :
    (List.range 30).map (Static.Recover.index (utf16 code)) = (code.take dataSymbols).map value := by
  have taken : (code.take dataSymbols).length = 30 := by rw [List.length_take, length]; rfl
  apply List.ext_getElem
  · rw [List.length_map, List.length_map, List.length_range, taken]
  · intro i first _
    rw [List.length_map, List.length_range] at first
    rw [List.getElem_map, List.getElem_map, List.getElem_range, List.getElem_take, index_symbols isCode (by omega)]

theorem symbolsValue_pair (a b : CodePoint) : symbolsValue [a, b] = value a * 32 + value b := by
  have pushed : symbolsValue [a, b] = ((0 <<< 5 ||| value a) <<< 5) ||| value b := rfl
  rw [pushed, Nat.zero_shiftLeft, Nat.zero_or, ← Nat.shiftLeft_add_eq_or_of_lt (value_small b), Nat.shiftLeft_eq]

theorem browser_check {code : Text} (isCode : Symbols code) (length : code.length = 32) :
    Static.Recover.crc10 ((List.range 30).map (Static.Recover.index (utf16 code))) =
      Static.Recover.index (utf16 code) 30 * 32 + Static.Recover.index (utf16 code) 31 ↔
    crc10 (symbolsValue (code.take dataSymbols)) kitBits = symbolsValue (code.drop dataSymbols) := by
  have taken : (code.take dataSymbols).length = 30 := by rw [List.length_take, length]; rfl
  have data := bitsOf_symbolsValue (code.take dataSymbols)
  rw [taken] at data
  have server : crc10 (symbolsValue (code.take dataSymbols)) kitBits =
      (Crc.run poly 0#10 (codeBits (code.take dataSymbols))).toNat := by
    rw [crc10_eq (by decide), ← data]
    rfl
  have dropped : (code.drop dataSymbols).length = 2 := by rw [List.length_drop, length]; rfl
  have last : code.drop dataSymbols = [code[30], code[31]] := by
    apply List.ext_getElem
    · exact dropped
    · intro i first second
      rw [List.getElem_drop]
      match i, second with
      | 0, _ => rfl
      | 1, _ => rfl
  rw [browser_data isCode length, browserCrc_eq, List.flatMap_map, server, index_symbols isCode (by omega),
    index_symbols isCode (by omega), last, symbolsValue_pair]
  rfl

-- The browser says what the server says.
theorem browser_normalise (special : CodePoint → Text) (typed : JsString) :
    (Static.Recover.normalise special typed).mapError (·.message) =
      ((normalise special (.str (codePoints typed))).map utf16).mapError utf16 := by
  have upper : Static.Recover.toUpperCase special typed = utf16 (upperCase special (codePoints typed)) := rfl
  rw [Static.Recover.normalise, upper, browser_cleaned, normalise]
  cases read : cleaned (upperCase special (codePoints typed)) with
  | none => rfl
  | some code =>
    have symbols := cleaned_symbols read
    have units : (utf16 code).length = code.length := by
      rw [utf16_ascii fun ch listed => symbol_below (symbols ch listed), List.length_map]
    have count : symbolCount = 32 := rfl
    simp only [Option.map_some, units, count]
    by_cases length : code.length = 32
    · have same := browser_check symbols length
      rw [if_neg (not_not.mpr length), if_neg (not_not.mpr length)]
      by_cases check : crc10 (symbolsValue (code.take dataSymbols)) kitBits = symbolsValue (code.drop dataSymbols)
      · rw [if_neg (not_not.mpr check), if_neg (not_not.mpr (same.mpr check))]
        rfl
      · rw [if_pos check, if_pos (mt same.mp check)]
        rfl
    · rw [if_pos length, if_pos length]
      simp only [Except.mapError, Except.map, lengthSentence, utf16_append]
      rfl

end Browser

/-! ## Kit codes -/

theorem kit_codes_exact (special : CodePoint → Text) :
    (∀ k < 2 ^ 150, ∃ code, encode k = .ok code ∧ Spells code code ∧ Spells code (grouped code) ∧
      ∀ typed, Spells code typed → decode special (.str typed) = .ok k) ∧
    (∀ (typed : Text) (k : Nat), decode special (.str typed) = .ok k →
      k < 2 ^ 150 ∧ ∃ code, encode k = .ok code ∧ normalise special (.str typed) = .ok code) ∧
    (∀ value bits : Nat, bits % 5 = 0 → crc10 value bits = crcBitwise value bits) ∧
    (∀ typed typed' code code' : Text, normalise special (.str typed) = .ok code →
      cleaned (upperCase special typed') = some code' → Slip code code' →
      normalise special (.str typed') = .error typoSentence) ∧
    (∀ (k i : Nat) (code : Text) (c s : CodePoint), k < 2 ^ 150 → encode k = .ok code → code[i]? = some s →
      cleaned (upperCase special [c]) ≠ some [s] → ∀ v, decode special (.str (code.set i c)) ≠ .ok v) ∧
    Static.Recover.alphabet = Mobile.utf16 alphabet ∧
    ∀ typed : Mobile.JsString, (Static.Recover.normalise special typed).mapError (·.message) =
      ((normalise special (.str (Mobile.codePoints typed))).map Mobile.utf16).mapError Mobile.utf16 := by
  refine ⟨?written, ?read, ?tables, fun _ _ _ _ accepted read slip => slip_typo accepted read slip,
    fun _ _ _ _ _ small made there other => changed_refused small made there other, rfl, browser_normalise special⟩
  case written =>
    intro k small
    refine ⟨_, encode_ok small, spells_self _, spells_grouped _, fun typed spells => ?_⟩
    obtain ⟨isCode, data⟩ := encode_isCode small (encode_ok small)
    exact decode_ok.mpr ⟨_, cleaned_spells isCode.symbols spells, isCode, data⟩
  case read =>
    intro typed k accepted
    obtain ⟨code, read, isCode, rfl⟩ := decode_ok.mp accepted
    obtain ⟨small, made⟩ := isCode_encode isCode
    exact ⟨small, code, made, normalise_ok.mpr ⟨read, isCode⟩⟩
  case tables =>
    intro value bits whole
    rw [crc10_eq whole, crcBitwise_eq]

theorem kit_codes_sample : ∃ code, encode 1 = .ok code ∧ decode (fun _ => []) (.str (grouped code)) = .ok 1 ∧
    ∀ v, decode (fun _ => []) (.str (code.set 31 (codePoint 'J'))) ≠ .ok v := by
  obtain ⟨written, -, -, -, changed, -⟩ := kit_codes_exact fun _ => []
  obtain ⟨code, made, -, spelled, read⟩ := written 1 (by decide)
  have there : (symbols 1 dataSymbols ++ symbols (crc10 1 kitBits) checkSymbols)[31]? = some (codePoint 'K') := by
    decide
  have isCode : code = symbols 1 dataSymbols ++ symbols (crc10 1 kitBits) checkSymbols :=
    Except.ok.inj (made.symm.trans (encode_ok (by decide)))
  refine ⟨code, made, read _ spelled, fun v => ?_⟩
  exact changed 1 31 code (codePoint 'J') (codePoint 'K') (by decide) made (isCode ▸ there) (by decide) v

end QVault.Proof.KitCode
