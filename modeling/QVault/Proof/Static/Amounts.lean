import QVault.Mobile.Amount
import QVault.Static.Verifier
import QVault.Proof.Chain.SignedAction
import QVault.Proof.Python.Binary64

/-!
# Amounts survive being written and read

Server, phone and browser write one text for an amount and one for a payment, and both readers read the
amount back.
-/

namespace QVault.Proof.Amounts
open QVault.Python QVault.Services QVault.Proof.Codecs QVault.Proof.Canonical QVault.Proof.Mobile QVault.Proof.Chain
  PrefixCode
open QVault.Mobile hiding weiPerEth decimalValue paymentText isDecimal isAmount
open QVault.Chain (EthTransfer Word parse parseEthValue isAmount)

/-! ## The digits of an amount -/

theorem natText_length {n k : Nat} (some' : 0 < k) (small : n < 10 ^ k) : (natText n).length ≤ k := by
  unfold natText
  split
  · exact some'
  · rw [List.length_map, List.length_reverse]
    exact (Nat.digits_length_le_iff (by norm_num) n).mpr small

def zeros (count : Nat) : Text := List.replicate count (digitChar 0)

-- `rstrip('0')`
def trimmed (digits : Text) : Text := (digits.reverse.dropWhile (· == digitChar 0)).reverse

def fractionText (wei : Nat) : Text :=
  zeros (18 - (natText (wei % weiPerEth)).length) ++ natText (wei % weiPerEth)

-- From the point on
def pointed (wei : Nat) : Text :=
  if (trimmed (fractionText wei)).isEmpty then [] else text "." ++ trimmed (fractionText wei)

-- An amount without its unit
def amountText (wei : Nat) : Text := natText (wei / weiPerEth) ++ pointed wei

theorem fractionText_length (wei : Nat) : (fractionText wei).length = 18 := by
  have short : (natText (wei % weiPerEth)).length ≤ 18 := natText_length (by decide) (Nat.mod_lt _ (by decide))
  rw [fractionText, zeros, List.length_append, List.length_replicate]
  omega

theorem decimalValue_zeros (count : Nat) (digits : Text) : decimalValue (zeros count ++ digits) = decimalValue digits := by
  unfold zeros
  induction count with
  | zero => rfl
  | succ count ih => exact ih

theorem decimalValue_fractionText (wei : Nat) : decimalValue (fractionText wei) = wei % weiPerEth := by
  rw [fractionText, decimalValue_zeros, decimalValue_natText]

theorem trimmed_pad (digits : Text) : trimmed digits ++ zeros (digits.length - (trimmed digits).length) = digits := by
  have run : digits.reverse.takeWhile (· == digitChar 0) =
      zeros (digits.reverse.takeWhile (· == digitChar 0)).length := by
    refine List.eq_replicate_of_mem fun c listed => ?_
    simpa using List.mem_takeWhile_imp listed
  have cut : trimmed digits ++ (digits.reverse.takeWhile (· == digitChar 0)).reverse = digits := by
    rw [trimmed, ← List.reverse_append, List.takeWhile_append_dropWhile, List.reverse_reverse]
  have length := congrArg List.length cut
  rw [List.length_append, List.length_reverse] at length
  rw [run, zeros, List.reverse_replicate] at cut
  have count : digits.length - (trimmed digits).length = (digits.reverse.takeWhile (· == digitChar 0)).length := by omega
  rw [count]
  exact cut

theorem trimmed_fraction_empty (wei : Nat) : trimmed (fractionText wei) = [] ↔ wei % weiPerEth = 0 := by
  constructor
  · intro empty
    have padded := trimmed_pad (fractionText wei)
    rw [empty, List.nil_append] at padded
    have value := decimalValue_zeros ((fractionText wei).length - List.length ([] : Text)) []
    rw [List.append_nil, padded, decimalValue_fractionText] at value
    exact value
  · intro zero
    rw [fractionText, zero]
    decide

theorem formatWei_eq (wei : Nat) : formatWei wei = amountText wei ++ text " ETH" := by
  unfold formatWei amountText pointed
  by_cases whole : wei % weiPerEth = 0
  · simp [whole, (trimmed_fraction_empty wei).mpr whole]
  · have some' : (trimmed (fractionText wei)).isEmpty = false := by
      rw [List.isEmpty_eq_false_iff]
      exact mt (trimmed_fraction_empty wei).mp whole
    simp only [whole, if_false, some', Bool.false_eq_true, List.append_assoc]
    rfl

theorem mem_trimmed {digits : Text} {c : CodePoint} (listed : c ∈ trimmed digits) : c ∈ digits := by
  rw [← trimmed_pad digits]
  exact List.mem_append_left _ listed

theorem digits_fractionText (wei : Nat) : ∀ c ∈ fractionText wei, isAsciiDigit c = true := by
  intro c listed
  rcases List.mem_append.mp listed with zero | digit
  · rw [List.eq_of_mem_replicate zero]
    decide
  · exact natText_digits _ c digit

/-! ## Reading an amount -/

-- What an amount is written with
def isMark (c : CodePoint) : Bool := isAsciiDigit c || c == codePoint '.'

theorem mark_val {c : CodePoint} (mark : isMark c = true) : 46 ≤ c.val ∧ c.val ≤ 57 := by
  simp only [isMark, isAsciiDigit, Bool.or_eq_true, Bool.and_eq_true, decide_eq_true_eq, beq_iff_eq] at mark
  rcases mark with digit | rfl
  · omega
  · decide

theorem marks_amountText (wei : Nat) : ∀ c ∈ amountText wei, isMark c = true := by
  intro c listed
  have digit {c : CodePoint} (isDigit : isAsciiDigit c = true) : isMark c = true := by simp [isMark, isDigit]
  rcases List.mem_append.mp listed with whole | fraction
  · exact digit (natText_digits _ c whole)
  · unfold pointed at fraction
    split at fraction
    · cases fraction
    · rcases List.mem_append.mp fraction with point | later
      · rw [List.mem_singleton.mp point]
        decide
      · exact digit (digits_fractionText wei c (mem_trimmed later))

theorem strip_self {α : Type} {space : α → Bool} {t : List α} (none : ∀ c ∈ t, space c = false) :
    ((t.dropWhile space).reverse.dropWhile space).reverse = t := by
  have whole : ∀ t : List α, (∀ c ∈ t, space c = false) → t.dropWhile space = t := by
    intro t none
    cases t with
    | nil => rfl
    | cons c rest => rw [List.dropWhile_cons_of_neg (by simp [none c List.mem_cons_self])]
  rw [whole t none, whole t.reverse fun c listed => none c (List.mem_reverse.mp listed), List.reverse_reverse]

theorem strip_marks {t : Text} (marks : ∀ c ∈ t, isMark c = true) : strip t = t := by
  refine strip_self fun c listed => ?_
  have range := mark_val (marks c listed)
  simp only [isWhitespace, Bool.or_eq_false_iff, Bool.and_eq_false_iff, decide_eq_false_iff_not, beq_eq_false_iff_ne]
  omega

theorem ascii_marks {t : Text} (marks : ∀ c ∈ t, isMark c = true) : Ascii t := by
  intro c listed
  have range := mark_val (marks c listed)
  omega

theorem trim_marks {t : Text} (marks : ∀ c ∈ t, isMark c = true) : trim (t.map unit) = t.map unit := by
  refine strip_self fun u listed => ?_
  obtain ⟨c, isChar, rfl⟩ := List.mem_map.mp listed
  have range := mark_val (marks c isChar)
  simp only [isJsSpace, unit_val (show c.val < 128 by omega), Bool.or_eq_false_iff, Bool.and_eq_false_iff,
    decide_eq_false_iff_not, beq_eq_false_iff_ne]
  omega

theorem amountText_parts (wei : Nat) :
    (amountText wei).takeWhile (· != codePoint '.') = natText (wei / weiPerEth) ∧
      (amountText wei).dropWhile (· != codePoint '.') = pointed wei := by
  have run : ∀ c ∈ natText (wei / weiPerEth), (c != codePoint '.') = true := by
    intro c listed
    have digit := natText_digits _ c listed
    have range : 48 ≤ c.val := by
      simp only [Json.isDigit, Bool.and_eq_true, decide_eq_true_eq] at digit
      exact digit.1
    rw [bne_iff_ne]
    rintro rfl
    exact absurd range (by decide)
  unfold amountText
  rw [List.takeWhile_append_of_pos run, List.dropWhile_append_of_pos run]
  unfold pointed
  split
  · exact ⟨List.append_nil _, rfl⟩
  · have point : ((codePoint '.' != codePoint '.') : Bool) = false := by decide
    have head : text "." ++ trimmed (fractionText wei) = codePoint '.' :: trimmed (fractionText wei) := rfl
    rw [head, List.takeWhile_cons_of_neg (by rw [point]; decide), List.dropWhile_cons_of_neg (by rw [point]; decide)]
    exact ⟨List.append_nil _, rfl⟩

theorem trimmed_length (digits : Text) : (trimmed digits).length ≤ digits.length := by
  have length := congrArg List.length (trimmed_pad digits)
  rw [List.length_append] at length
  omega

theorem pointed_drop (wei : Nat) : (pointed wei).drop 1 = trimmed (fractionText wei) := by
  unfold pointed
  split
  · rename_i empty
    exact (List.isEmpty_iff.mp empty).symm
  · rfl

theorem isAmount_written (wei : Nat) : isAmount (natText (wei / weiPerEth)) (pointed wei) = true := by
  have nonempty : (natText (wei / weiPerEth)).isEmpty = false := by
    rw [List.isEmpty_eq_false_iff]
    exact natText_ne_nil _
  have digits : ((pointed wei).drop 1).all isAsciiDigit = true := by
    rw [pointed_drop]
    exact List.all_eq_true.mpr fun c listed => digits_fractionText wei c (mem_trimmed listed)
  unfold isAmount
  rw [nonempty, asciiDigits_natText, digits]
  unfold pointed
  split
  · simp
  · rename_i some'
    have length : 0 < (trimmed (fractionText wei)).length := by
      rw [List.length_pos_iff, ← List.isEmpty_eq_false_iff]
      exact Bool.not_eq_true _ ▸ some'
    have longer : 1 < (text "." ++ trimmed (fractionText wei)).length := Nat.succ_lt_succ length
    rw [decide_eq_true longer]
    simp

theorem fraction_read (wei : Nat) : decimalValue ((pointed wei).drop 1 ++
    List.replicate (18 - ((pointed wei).drop 1).length) (digitChar 0)) = wei % weiPerEth := by
  have padded := trimmed_pad (fractionText wei)
  rw [fractionText_length] at padded
  rw [pointed_drop, ← decimalValue_fractionText]
  exact congrArg decimalValue padded

theorem fraction_short (wei : Nat) : ((pointed wei).drop 1).length ≤ 18 := by
  rw [pointed_drop, ← fractionText_length wei]
  exact trimmed_length _

theorem amountText_length {wei : Nat} (small : wei < 2 ^ 256) : (amountText wei).length ≤ 100 := by
  have whole : (natText (wei / weiPerEth)).length ≤ 60 := by
    refine natText_length (by decide) ?_
    exact lt_of_le_of_lt (Nat.div_le_div_right small.le) (by decide)
  have fraction := fraction_short wei
  rw [List.length_drop] at fraction
  rw [amountText, List.length_append]
  omega

theorem parseEthValue_amountText {wei : Nat} (small : wei < 2 ^ 256) : parseEthValue (amountText wei) = .ok wei := by
  obtain ⟨whole, rest⟩ := amountText_parts wei
  unfold parseEthValue
  simp only [strip_marks (marks_amountText wei), whole, rest, isAmount_written, Bool.not_true, Bool.or_false,
    decide_eq_true_eq, if_neg (not_lt.mpr (amountText_length small)), if_neg (not_lt.mpr (fraction_short wei)),
    fraction_read, decimalValue_natText]
  rw [Nat.div_add_mod']

/-! ### On the phone -/

section Units
variable {t : Text}

theorem ne_point {c : CodePoint} (small : c.val < 128) : (unit c != 46) = (c != codePoint '.') := by
  have same : unit c = 46 ↔ c = codePoint '.' := by
    have point : (46 : CodeUnit) = unit (codePoint '.') := by decide
    rw [point, unit_eq small (by decide)]
  rw [Bool.eq_iff_iff, bne_iff_ne, bne_iff_ne, Ne, Ne, same]

theorem takeWhile_units (ascii : Ascii t) :
    (t.map unit).takeWhile (· != 46) = (t.takeWhile (· != codePoint '.')).map unit := by
  induction t with
  | nil => rfl
  | cons c rest ih =>
    have later := ih fun d listed => ascii d (List.mem_cons_of_mem _ listed)
    rw [List.map_cons, List.takeWhile_cons, List.takeWhile_cons, ne_point (ascii c List.mem_cons_self), later]
    split <;> rfl

theorem dropWhile_units (ascii : Ascii t) :
    (t.map unit).dropWhile (· != 46) = (t.dropWhile (· != codePoint '.')).map unit := by
  induction t with
  | nil => rfl
  | cons c rest ih =>
    have later := ih fun d listed => ascii d (List.mem_cons_of_mem _ listed)
    rw [List.map_cons, List.dropWhile_cons, List.dropWhile_cons, ne_point (ascii c List.mem_cons_self), later]
    split <;> rfl

theorem all_digits_units (ascii : Ascii t) : (t.map unit).all isDigitUnit = t.all isAsciiDigit := by
  induction t with
  | nil => rfl
  | cons c rest ih =>
    rw [List.map_cons, List.all_cons, List.all_cons, isDigitUnit_unit (ascii c List.mem_cons_self),
      ih fun d listed => ascii d (List.mem_cons_of_mem _ listed)]

theorem decimalValue_units (ascii : Ascii t) : Mobile.decimalValue (t.map unit) = decimalValue t :=
  decimalValue_unit ascii 0

theorem isAmount_units {whole rest : Text} (ascii : Ascii whole) (ascii' : Ascii rest) :
    Mobile.isAmount (whole.map unit) (rest.map unit) = isAmount whole rest := by
  have later : Ascii (rest.drop 1) := fun c listed => ascii' c (List.mem_of_mem_drop listed)
  unfold Mobile.isAmount isAmount
  rw [all_digits_units ascii, ← List.map_drop, all_digits_units later, List.length_map]
  simp

-- On what an amount is written with, the phone reads as the server does.
theorem parseEth_units (marks : ∀ c ∈ t, isMark c = true) :
    parseEth (t.map unit) = (parseEthValue t).toOption.map fun wei => utf16 (natText wei) := by
  have ascii := ascii_marks marks
  have whole : Ascii (t.takeWhile (· != codePoint '.')) := fun c listed => ascii c (List.takeWhile_subset _ listed)
  have rest : Ascii (t.dropWhile (· != codePoint '.')) := fun c listed => ascii c (List.dropWhile_subset _ listed)
  have fraction : Ascii ((t.dropWhile (· != codePoint '.')).drop 1 ++
      zeros (18 - ((t.dropWhile (· != codePoint '.')).drop 1).length)) := by
    intro c listed
    rcases List.mem_append.mp listed with among | zero
    · exact rest c (List.mem_of_mem_drop among)
    · rw [List.eq_of_mem_replicate zero]
      decide
  have padded : padEnd 18 (((t.dropWhile (· != codePoint '.')).drop 1).map unit) =
      ((t.dropWhile (· != codePoint '.')).drop 1 ++ zeros (18 - ((t.dropWhile (· != codePoint '.')).drop 1).length)).map unit := by
    rw [padEnd, List.map_append, zeros, List.map_replicate, List.length_map]
    rfl
  unfold parseEth parseEthValue
  simp only [trim_marks marks, strip_marks marks, takeWhile_units ascii, dropWhile_units ascii, isAmount_units whole rest,
    List.length_map, ← List.map_drop, padded, decimalValue_units whole, decimalValue_units fraction]
  split
  · rfl
  · split
    · rfl
    · rfl

/-! ## Writing an amount -/

theorem dropZeros_units (ascii : Ascii t) : dropZeros (t.map unit) = (trimmed t).map unit := by
  have same : ∀ t : Text, Ascii t → (t.map unit).dropWhile (· == 48) = (t.dropWhile (· == digitChar 0)).map unit := by
    intro t ascii
    induction t with
    | nil => rfl
    | cons c rest ih =>
      have later := ih fun d listed => ascii d (List.mem_cons_of_mem _ listed)
      have zero : (unit c == 48) = (c == digitChar 0) := by
        have here : unit c = 48 ↔ c = digitChar 0 := by
          have isUnit : (48 : CodeUnit) = unit (digitChar 0) := by decide
          rw [isUnit, unit_eq (ascii c List.mem_cons_self) (by decide)]
        rw [Bool.eq_iff_iff, beq_iff_eq, beq_iff_eq, here]
      rw [List.map_cons, List.dropWhile_cons, List.dropWhile_cons, zero, later]
      split <;> rfl
  have reversed : Ascii t.reverse := fun c listed => ascii c (List.mem_reverse.mp listed)
  rw [dropZeros, ← List.map_reverse, same _ reversed, trimmed, List.map_reverse]

theorem ascii_fractionText (wei : Nat) : Ascii (fractionText wei) :=
  ascii_of_digits (List.all_eq_true.mpr (digits_fractionText wei))

-- What phone and browser put together
theorem amount_units (wei : Nat) :
    utf16 (natText (wei / weiPerEth)) ++
      (if (dropZeros (padStart 18 (utf16 (natText (wei % weiPerEth))))).isEmpty then []
        else js "." ++ dropZeros (padStart 18 (utf16 (natText (wei % weiPerEth))))) ++ js " ETH" =
      utf16 (formatWei wei) := by
  have padded : padStart 18 (utf16 (natText (wei % weiPerEth))) = (fractionText wei).map unit := by
    rw [utf16_ascii (ascii_of_digits (asciiDigits_natText _)), padStart, List.length_map, fractionText, List.map_append, zeros, List.map_replicate]
    rfl
  have fraction : (trimmed (fractionText wei)).map unit = utf16 (trimmed (fractionText wei)) :=
    (utf16_ascii fun c listed => ascii_fractionText wei c (mem_trimmed listed)).symm
  have empty : ((trimmed (fractionText wei)).map unit).isEmpty = (trimmed (fractionText wei)).isEmpty := by
    rw [List.isEmpty_map]
  rw [padded, dropZeros_units (ascii_fractionText wei), empty, fraction, formatWei_eq, utf16_append, amountText,
    utf16_append, pointed]
  split
  · rfl
  · rw [utf16_append]
    rfl

theorem formatEth_units (ascii : Ascii t) : formatEth (utf16 t) = utf16 (formatWei (decimalValue t)) := by
  unfold formatEth
  rw [utf16_ascii ascii, decimalValue_units ascii]
  exact amount_units (decimalValue t)

theorem isDecimal_units (ascii : Ascii t) : Mobile.isDecimal (t.map unit) =
    (0 < t.length && t.all isAsciiDigit && (t == text "0" || t.head? != some (digitChar 0))) := by
  unfold Mobile.isDecimal
  rw [all_digits_units ascii]
  cases t with
  | nil => decide
  | cons c rest =>
    have small := ascii c List.mem_cons_self
    have head : (((c :: rest).map unit).head? != (js "0").head?) = ((c :: rest).head? != some (digitChar 0)) := by
      have zero : (js "0").head? = some (unit (digitChar 0)) := by decide
      rw [zero, List.map_cons, List.head?_cons, List.head?_cons, Bool.eq_iff_iff, bne_iff_ne, bne_iff_ne, Ne, Ne,
        Option.some.injEq, Option.some.injEq, unit_eq small (by decide)]
    have whole : ((c :: rest).map unit == js "0") = (c :: rest == text "0") := by
      rw [Bool.eq_iff_iff, beq_iff_eq, beq_iff_eq, ← utf16_ascii ascii]
      exact utf16_eq_ascii (ascii_of_all (by decide))
    rw [head, whole]
    by_cases zero : c :: rest = text "0"
    · rw [zero]
      decide
    · have other : (c :: rest == text "0") = false := beq_eq_false_iff_ne.mpr zero
      rw [other]
      simp

end Units

-- One form of amounts on both sides
theorem isWeiText_twin (value : Text) :
    (78 < (utf16 value).length || !Mobile.isDecimal (utf16 value)) = !isWeiText value := by
  by_cases ascii : Ascii value
  · rw [utf16_ascii ascii, isDecimal_units ascii, List.length_map]
    unfold isWeiText
    rw [Bool.eq_iff_iff]
    by_cases short : value.length ≤ 78
    · simp [short]
    · simp [short, not_le.mp short]
  · have notPhone : Mobile.isDecimal (utf16 value) = false := by
      rw [Bool.eq_false_iff]
      intro decimal
      refine ascii (ascii_of_utf16 fun u listed => ?_)
      simp only [Mobile.isDecimal, Bool.or_eq_true, Bool.and_eq_true, beq_iff_eq] at decimal
      rcases decimal with zero | digits
      · have single : js "0" = [unit (digitChar 0)] := rfl
        rw [zero, single] at listed
        rw [List.mem_singleton.mp listed]
        decide
      · have digit := List.all_eq_true.mp digits.1.2 u listed
        simp only [isDigitUnit, Bool.and_eq_true, decide_eq_true_eq] at digit
        omega
    have notServer : isWeiText value = false := by
      rw [Bool.eq_false_iff]
      intro isWei
      simp only [isWeiText, Bool.and_eq_true] at isWei
      exact ascii (ascii_of_digits isWei.1.2)
    rw [notPhone, notServer]
    simp

theorem ascii_of_isWeiText {value : Text} (isWei : isWeiText value = true) : Ascii value := by
  simp only [isWeiText, Bool.and_eq_true] at isWei
  exact ascii_of_digits isWei.1.2

theorem browser_formatWei (value : Text) : Static.formatWei (.string (utf16 value)) =
    if isWeiText value then some (utf16 (formatWei (decimalValue value))) else none := by
  have twin := isWeiText_twin value
  simp only [Static.formatWei, twin]
  cases isWei : isWeiText value with
  | false => rfl
  | true =>
    have ascii := ascii_of_isWeiText isWei
    simp only [Bool.not_true, Bool.false_eq_true, if_false, if_true]
    rw [utf16_ascii ascii, decimalValue_units ascii]
    exact congrArg some (amount_units (decimalValue value))

/-! ## The text of a payment -/

-- No other integer is read as the chain's, however it is rounded.
theorem readInt_chain (n : Int) : readInt n = .ofInt 11155111 ↔ n = 11155111 := by
  constructor
  · intro read
    by_cases safe : n.natAbs ≤ JsNumber.maxSafe
    · rw [readInt_safe safe, JsNumber.ofInt, JsNumber.ofInt, JsNumber.finite.injEq] at read
      exact_mod_cast read
    · rw [readInt, if_neg safe, readNumber] at read
      split at read
      · cases read
      · split at read
        · rw [JsNumber.ofInt, JsNumber.finite.injEq] at read
          have large : (2 ^ 53 : Rat) ≤ (n.natAbs : Rat) := by
            unfold JsNumber.maxSafe at safe
            have whole : 2 ^ 53 ≤ n.natAbs := by omega
            exact_mod_cast whole
          have rounded : 2 ^ 53 ≤ |(Binary64.round (decide (n < 0)) (n.natAbs : Rat)).toRat| := Binary64.round_large large
          rw [read] at rounded
          norm_num at rounded
        · cases read
  · rintro rfl
    exact readInt_safe (by decide)

theorem same_number (a b : JsNumber) (number : b ≠ .nan) : (JsValue.number a).same (.number b) = true ↔ a = b := by
  rw [JsValue.same, Bool.and_eq_true, beq_iff_eq, bne_iff_ne]
  exact ⟨And.left, fun same => ⟨same, same ▸ number⟩⟩

theorem network_int (n : Int) : network (.number (readInt n)) = (paymentNetwork n).map utf16 := by
  have chain := (same_number (readInt n) (.ofInt 11155111) (by simp [JsNumber.ofInt])).trans (readInt_chain n)
  unfold network paymentNetwork
  by_cases here : n = 11155111
  · rw [if_pos (chain.mpr here), if_pos here]
    rfl
  · rw [if_neg (mt chain.mp here), if_neg here]
    rfl

-- The value at a key, as the server and as a browser gets it
theorem own_cases (fields : List (Text × Json)) (key : String) (ascii : Ascii (text key)) :
    (parsed (.dict fields)).own key = parsed (Json.get fields (text key)) ∨
      (parsed (.dict fields)).own key = .undefined ∧ Json.get fields (text key) = .null := by
  rw [parsed, JsValue.own, lookup_parsed ascii, Json.get]
  cases Json.lookup (text key) fields with
  | none => exact .inr ⟨rfl, rfl⟩
  | some value => exact .inl rfl

def asText : Json → Option Text
  | .str s => some s
  | _ => none

def asString : JsValue → Option JsString
  | .string s => some s
  | _ => none

def serverNetwork : Json → Option Text
  | .int n => paymentNetwork n
  | _ => none

theorem asString_own (fields : List (Text × Json)) (key : String) (ascii : Ascii (text key)) :
    asString ((parsed (.dict fields)).own key) = (asText (Json.get fields (text key))).map utf16 := by
  rcases own_cases fields key ascii with there | ⟨absent, null⟩
  · rw [there]
    cases Json.get fields (text key) <;> simp [asString, asText, parsed]
  · rw [absent, null]
    rfl

theorem network_own {fields : List (Text × Json)} (whole : ∀ x, Json.get fields "chain_id" ≠ .float x) :
    network ((parsed (.dict fields)).own "chain_id") = (serverNetwork (Json.get fields "chain_id")).map utf16 := by
  rcases own_cases fields "chain_id" (ascii_of_all (by decide)) with there | ⟨absent, null⟩
  · rw [there]
    cases shown : Json.get fields (text "chain_id") with
    | int n =>
      rw [parsed]
      exact network_int n
    | float x => exact absurd shown (whole x)
    | _ => simp [parsed, network, JsValue.same, serverNetwork]
  · rw [absent, null]
    rfl

def sentence (eth network treasury recipient : Text) : Text :=
  text "Pay " ++ eth ++ text " from this vault's treasury " ++ treasury ++ text " to " ++ recipient ++ text " on " ++
    network ++ text "."

-- The four readings of a payment, one after another
def readPayment {α : Type} (value network treasury recipient : Option α) (write : α → α → α → α → Option α) : Option α := do
  let value ← value
  let network ← network
  let treasury ← treasury
  let recipient ← recipient
  write value network treasury recipient

def written (value network treasury recipient : Text) : Option Text :=
  if isWeiText value then some (sentence (formatWei (decimalValue value)) network treasury recipient) else none

theorem paymentText_eq (fields : List (Text × Json)) : paymentText (.dict fields) =
    readPayment (asText (Json.get fields "value_wei")) (serverNetwork (Json.get fields "chain_id"))
      (asText (Json.get fields "treasury")) (asText (Json.get fields "to")) written := by
  rw [paymentText]
  cases Json.get fields (text "value_wei") with
  | str value =>
    cases Json.get fields (text "chain_id") with
    | int chain =>
      cases Json.get fields (text "treasury") with
      | str treasury =>
        cases Json.get fields (text "to") with
        | str recipient =>
          simp only [readPayment, asText, serverNetwork, Option.bind_eq_bind, Option.bind_some]
          cases paymentNetwork chain with
          | none => rfl
          | some network => rfl
        | _ => simp only [readPayment, asText, serverNetwork]; cases paymentNetwork chain <;> rfl
      | _ => simp only [readPayment, asText, serverNetwork]; cases paymentNetwork chain <;> rfl
    | _ => rfl
  | _ => rfl

def shown (value network treasury recipient : JsString) : Option JsString :=
  if 78 < value.length || !Mobile.isDecimal value then none
  else some (js "Pay " ++ formatEth value ++ js " from this vault's treasury " ++ treasury ++ js " to " ++ recipient ++
    js " on " ++ network ++ js ".")

theorem phone_eq (fields : List (JsString × JsValue)) : Mobile.paymentText (.object fields) = .ok
    (readPayment (asString ((JsValue.object fields).own "value_wei")) (network ((JsValue.object fields).own "chain_id"))
      (asString ((JsValue.object fields).own "treasury")) (asString ((JsValue.object fields).own "to")) shown) := by
  have there : (JsValue.object fields).get "value_wei" = .ok ((JsValue.object fields).own "value_wei") := rfl
  rw [Mobile.paymentText, there, ok_bind]
  cases (JsValue.object fields).own "value_wei" with
  | string value =>
    cases network ((JsValue.object fields).own "chain_id") with
    | none => simp only [readPayment, asString]; split <;> rfl
    | some network =>
      cases (JsValue.object fields).own "treasury" with
      | string treasury =>
        cases (JsValue.object fields).own "to" with
        | string recipient =>
          simp only [readPayment, asString, Option.bind_eq_bind, Option.bind_some, shown]
          split <;> rfl
        | _ => simp only [readPayment, asString]; split <;> rfl
      | _ => simp only [readPayment, asString]; split <;> rfl
  | _ => rfl

theorem browser_formatEth (value : JsString) : Static.formatWei (.string value) =
    if 78 < value.length || !Mobile.isDecimal value then none else some (formatEth value) := rfl

theorem browser_eq (fields : List (JsString × JsValue)) : Static.paymentText (.object fields) =
    readPayment (asString ((JsValue.object fields).own "value_wei")) (network ((JsValue.object fields).own "chain_id"))
      (asString ((JsValue.object fields).own "treasury")) (asString ((JsValue.object fields).own "to")) shown := by
  have same : Static.networkName = network := rfl
  have isObject : (!Static.isPayment (.object fields)) = false := rfl
  rw [Static.paymentText, isObject, same]
  cases (JsValue.object fields).own "value_wei" with
  | string value =>
    rw [browser_formatEth]
    simp only [readPayment, asString, Option.bind_eq_bind, Option.bind_some, shown]
    cases 78 < value.length || !Mobile.isDecimal value with
    | true =>
      cases network ((JsValue.object fields).own "chain_id") <;> cases (JsValue.object fields).own "treasury" <;>
        cases (JsValue.object fields).own "to" <;> rfl
    | false =>
      cases network ((JsValue.object fields).own "chain_id") <;> cases (JsValue.object fields).own "treasury" <;>
        cases (JsValue.object fields).own "to" <;> rfl
  | _ => rfl

theorem shown_units (value network treasury recipient : Text) :
    shown (utf16 value) (utf16 network) (utf16 treasury) (utf16 recipient) =
      (written value network treasury recipient).map utf16 := by
  unfold shown written
  rw [isWeiText_twin]
  cases isWei : isWeiText value with
  | false => rfl
  | true =>
    simp only [Bool.not_true, Bool.false_eq_true, if_false, if_true, Option.map_some]
    rw [formatEth_units (ascii_of_isWeiText isWei), sentence]
    simp only [utf16_append]
    rfl

theorem readPayment_map (value network treasury recipient : Option Text) :
    readPayment (value.map utf16) (network.map utf16) (treasury.map utf16) (recipient.map utf16) shown =
      (readPayment value network treasury recipient written).map utf16 := by
  cases value <;> cases network <;> cases treasury <;> cases recipient <;> first | rfl | exact shown_units _ _ _ _

theorem paymentText_twins {fields : List (Text × Json)} (whole : ∀ x, Json.get fields "chain_id" ≠ .float x) :
    Mobile.paymentText (parsed (.dict fields)) = .ok ((paymentText (.dict fields)).map utf16) ∧
      Static.paymentText (parsed (.dict fields)) = (paymentText (.dict fields)).map utf16 := by
  have value := asString_own fields "value_wei" (ascii_of_all (by decide))
  have treasury := asString_own fields "treasury" (ascii_of_all (by decide))
  have recipient := asString_own fields "to" (ascii_of_all (by decide))
  have network := network_own whole
  rw [parsed] at value treasury recipient network ⊢
  rw [phone_eq, browser_eq, value, treasury, recipient, network, paymentText_eq, readPayment_map]
  exact ⟨rfl, rfl⟩

/-! ## What a text tells apart -/

theorem amountText_injective {wei wei' : Nat} (small : wei < 2 ^ 256) (small' : wei' < 2 ^ 256)
    (same : amountText wei = amountText wei') : wei = wei' := by
  have read := parseEthValue_amountText small
  rw [same, parseEthValue_amountText small'] at read
  exact (Except.ok.inj read).symm

theorem sentence_cut {wei wei' : Nat} {network network' treasury treasury' recipient recipient' : Text}
    (lengths : treasury.length = treasury'.length) (lengths' : recipient.length = recipient'.length)
    (same : sentence (formatWei wei) network treasury recipient = sentence (formatWei wei') network' treasury' recipient') :
    amountText wei = amountText wei' ∧ treasury = treasury' ∧ recipient = recipient' := by
  have stop : ∀ rest : Text, ∀ x ∈ (text " ETH" ++ rest).head?, isMark x = false := by
    intro rest x head
    cases head
    decide
  unfold sentence at same
  rw [formatWei_eq, formatWei_eq] at same
  simp only [List.append_assoc] at same
  have rest := List.append_cancel_left same
  obtain ⟨amounts, rest⟩ := run_cut (marks_amountText wei) (marks_amountText wei') (stop _) (stop _) rest
  have rest := List.append_cancel_left (List.append_cancel_left rest)
  obtain ⟨treasuries, rest⟩ := List.append_inj rest lengths
  exact ⟨amounts, treasuries, (List.append_inj (List.append_cancel_left rest) lengths').1⟩

section Payments
variable {keccak256 : Bytes → Word} {fields : List (Text × Json)} {action : EthTransfer}

theorem isWeiText_decimal {value : Text} (decimal : Chain.isDecimal value = true) (small : decimalValue value < 2 ^ 256) :
    isWeiText value = true := by
  have length := decimal_length decimal small
  simp only [Chain.isDecimal, Bool.and_eq_true, decide_eq_true_eq] at decimal
  simp [isWeiText, decimal.1.1, decimal.1.2, decimal.2, length]

theorem paymentText_parsed (accepted : Parsed keccak256 fields action) : paymentText (.dict fields) =
    some (sentence (formatWei action.valueWei.toNat) "Sepolia" action.treasury action.recipient) := by
  obtain ⟨value, shown, decimal, amount⟩ := accepted.value
  have small : decimalValue value < 2 ^ 256 := by
    have bound := amount ▸ accepted.range.value.2
    exact_mod_cast bound
  have isValue : action.valueWei.toNat = decimalValue value := by rw [amount, Int.toNat_natCast]
  have isNetwork : serverNetwork (.int action.chainId) = some (text "Sepolia") := by
    rw [accepted.range.chainId]
    rfl
  rw [paymentText_eq, shown, accepted.chainId, accepted.treasury, accepted.recipient, isNetwork, isValue]
  simp only [readPayment, asText, Option.bind_eq_bind, Option.bind_some, written]
  rw [if_pos (isWeiText_decimal decimal small)]

theorem address_texts {value value' : Text} (isAddress : IsAddress value) (isAddress' : IsAddress value') :
    value.length = value'.length := by
  have split' {value : Text} (isAddress : IsAddress value) : value.length = 42 := by
    rw [← List.take_append_drop 2 value, List.length_append, isAddress.mark, isAddress.length]
    rfl
  rw [split' isAddress, split' isAddress']

theorem payment_of_text {fields' : List (Text × Json)} {action' : EthTransfer} (accepted : Parsed keccak256 fields action)
    (accepted' : Parsed keccak256 fields' action')
    (same : paymentText (.dict fields) = paymentText (.dict fields')) :
    action.valueWei = action'.valueWei ∧ action.treasury = action'.treasury ∧
      action.recipient = action'.recipient ∧ action.chainId = action'.chainId := by
  rw [paymentText_parsed accepted, paymentText_parsed accepted'] at same
  obtain ⟨amounts, treasuries, recipients⟩ := sentence_cut
    (address_texts (checksumAddress_isAddress accepted.treasuryForm) (checksumAddress_isAddress accepted'.treasuryForm))
    (address_texts (checksumAddress_isAddress accepted.recipientForm) (checksumAddress_isAddress accepted'.recipientForm))
    (Option.some.inj same)
  have range := accepted.range.value
  have range' := accepted'.range.value
  have values := amountText_injective (by omega) (by omega) amounts
  exact ⟨by omega, treasuries, recipients, accepted.range.chainId.trans accepted'.range.chainId.symm⟩

end Payments

-- One text for an amount and for a payment on all sides, and each text says what is paid.
theorem amounts_survive (keccak256 : Bytes → Word) :
    (∀ wei < 2 ^ 256,
      (∃ amount, formatWei wei = amount ++ text " ETH" ∧ parseEthValue amount = .ok wei ∧
        parseEth (utf16 amount) = some (utf16 (natText wei))) ∧
      formatEth (utf16 (natText wei)) = utf16 (formatWei wei) ∧
      Static.formatWei (.string (utf16 (natText wei))) = some (utf16 (formatWei wei))) ∧
    (∀ fields : List (Text × Json), (∀ x, Json.get fields "chain_id" ≠ .float x) →
      Mobile.paymentText (parsed (.dict fields)) = .ok ((paymentText (.dict fields)).map utf16) ∧
      Static.paymentText (parsed (.dict fields)) = (paymentText (.dict fields)).map utf16) ∧
    (∀ (o o' : Json) (action action' : EthTransfer), parse keccak256 o = some action →
      parse keccak256 o' = some action' → paymentText o = paymentText o' →
      action.valueWei = action'.valueWei ∧ action.treasury = action'.treasury ∧
        action.recipient = action'.recipient ∧ action.chainId = action'.chainId) := by
  refine ⟨fun wei small => ⟨⟨amountText wei, formatWei_eq wei, parseEthValue_amountText small, ?phone⟩, ?_, ?_⟩,
    fun fields whole => paymentText_twins whole, fun o o' action action' accepted accepted' same => ?_⟩
  case phone =>
    rw [utf16_ascii (ascii_marks (marks_amountText wei)), parseEth_units (marks_amountText wei),
      parseEthValue_amountText small]
    rfl
  · rw [formatEth_units (ascii_of_digits (asciiDigits_natText wei)), decimalValue_natText]
  · rw [browser_formatWei, decimalValue_natText,
      if_pos (isWeiText_decimal isDecimal_natText (by rwa [decimalValue_natText]))]
  · obtain ⟨fields, rfl, read⟩ := parse_some accepted
    obtain ⟨fields', rfl, read'⟩ := parse_some accepted'
    exact payment_of_text read read' same

theorem amounts_survive_sample :
    (∃ amount, formatWei (10 ^ 14) = amount ++ text " ETH" ∧ parseEthValue amount = .ok (10 ^ 14)) ∧
    Static.paymentText (parsed (.dict sampleFields)) = (paymentText (.dict sampleFields)).map utf16 ∧
    sampleTransfer.valueWei = sampleTransfer.valueWei := by
  obtain ⟨written, twins, apart⟩ := amounts_survive lengthHash
  obtain ⟨amount, form, read, -⟩ := (written (10 ^ 14) (by decide)).1
  have whole : ∀ x, Json.get sampleFields "chain_id" ≠ .float x := fun x => nofun
  exact ⟨⟨amount, form, read⟩, (twins sampleFields whole).2, (apart _ _ _ _ parse_sample parse_sample rfl).1⟩

end QVault.Proof.Amounts
