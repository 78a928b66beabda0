import QVault.Mobile.Checks
import QVault.Proof.Mobile.Execution

/-!
# The key of signed content

Two signed inputs with one key are the same inputs, and were given the same hash.
-/

namespace QVault.Proof.Mobile
open QVault.Python QVault.Mobile QVault.Proof.Codecs QVault.Proof.Canonical PrefixCode

/-! ## Strings -/

def hexUnits (a b c d : CodeUnit) : CodePoint :=
  let digit (u : CodeUnit) : Nat := (hexUnit u).getD 0
  Fin.ofNat _ (((digit a * 16 + digit b) * 16 + digit c) * 16 + digit d)

def readEscape (v : CodeUnit) (rest : JsString) : Option (CodePoint × JsString) :=
  if [v] = js "b" then some (8, rest)
  else if [v] = js "t" then some (9, rest)
  else if [v] = js "n" then some (10, rest)
  else if [v] = js "f" then some (12, rest)
  else if [v] = js "r" then some (13, rest)
  else if [v] = js "u" then
    match rest with
    | a :: b :: c :: d :: rest => some (hexUnits a b c d, rest)
    | _ => none
  else some (Fin.ofNat _ v.val, rest)

-- One code point of a string literal, read back
def readPoint : JsString → Option (CodePoint × JsString)
  | u :: v :: rest =>
    if [u] = js "\\" then readEscape v rest
    else if isHigh u then some (Fin.ofNat _ (0x10000 + (u.val - 0xD800) * 0x400 + (v.val - 0xDC00)), rest)
    else some (Fin.ofNat _ u.val, v :: rest)
  | [u] => some (Fin.ofNat _ u.val, [])
  | [] => none

theorem readPoint_escape (v : CodeUnit) (rest : JsString) :
    readPoint (unit (codePoint '\\') :: v :: rest) = readEscape v rest := by
  rw [readPoint, if_pos (by decide)]

theorem unit_digitChar {d : Nat} (small : d < 16) :
    units (digitChar d) = [unit (digitChar d)] ∧ (hexUnit (unit (digitChar d))).getD 0 = d := by
  have char := digitChar_val small
  have bound : (digitChar d).val < 128 := by
    rw [char]
    split_ifs <;> omega
  refine ⟨if_pos (lt_trans bound (by decide)), ?_⟩
  rw [hexUnit_unit bound, hexValue_digitChar small, Option.getD_some]

theorem readPoint_hexEscape {n : Nat} (small : n < 0x10000) (r : JsString) :
    readPoint (utf16 (Json.hexEscape n) ++ r) = some (Fin.ofNat _ n, r) := by
  obtain ⟨first, firstValue⟩ := unit_digitChar (show n / 4096 < 16 by omega)
  obtain ⟨second, secondValue⟩ := unit_digitChar (show n / 256 % 16 < 16 by omega)
  obtain ⟨third, thirdValue⟩ := unit_digitChar (show n / 16 % 16 < 16 by omega)
  obtain ⟨fourth, fourthValue⟩ := unit_digitChar (show n % 16 < 16 by omega)
  have word : utf16 (Json.hexEscape n) ++ r = unit (codePoint '\\') :: unit (codePoint 'u') ::
      unit (digitChar (n / 4096)) :: unit (digitChar (n / 256 % 16)) :: unit (digitChar (n / 16 % 16)) ::
      unit (digitChar (n % 16)) :: r := by
    rw [Json.hexEscape, utf16_append, utf16_cons, utf16_cons, utf16_cons, utf16_cons, first, second, third, fourth]
    rfl
  have mark : readEscape (unit (codePoint 'u')) = fun rest => match rest with
      | a :: b :: c :: d :: rest => some (hexUnits a b c d, rest)
      | _ => none := rfl
  have value : hexUnits (unit (digitChar (n / 4096))) (unit (digitChar (n / 256 % 16)))
      (unit (digitChar (n / 16 % 16))) (unit (digitChar (n % 16))) = Fin.ofNat _ n := by
    simp only [hexUnits, firstValue, secondValue, thirdValue, fourthValue]
    congr 1
    omega
  rw [word, readPoint_escape, mark]
  simp only [value]

theorem readPoint_units {c : CodePoint} (clean : isSurrogate c = false) (plain : c ≠ codePoint '\\') (r : JsString) :
    readPoint (units c ++ r) = some (c, r) := by
  have bound := c.isLt
  simp only [isSurrogate, Bool.and_eq_false_iff, decide_eq_false_iff_not] at clean
  unfold units
  split
  · have same : (Fin.ofNat 0x110000 (Fin.ofNat 0x10000 c.val).val) = c := by
      apply Fin.ext
      simp only [Fin.val_ofNat]
      omega
    have other : [Fin.ofNat 0x10000 c.val] ≠ js "\\" := by
      intro slash
      apply plain
      rw [← same, List.singleton_inj.mp slash]
      decide
    have single : isHigh (Fin.ofNat 0x10000 c.val) = false := by
      simp only [isHigh, Fin.val_ofNat, Bool.and_eq_false_iff, decide_eq_false_iff_not]
      omega
    cases r with
    | nil => simp only [List.append_nil, readPoint, same]
    | cons v rest =>
      simp only [List.cons_append, List.nil_append, readPoint, other, single, Bool.false_eq_true, if_false, same]
  · have high : isHigh (Fin.ofNat 0x10000 (0xD800 + (c.val - 0x10000) / 0x400)) = true := by
      simp only [isHigh, Fin.val_ofNat, Bool.and_eq_true, decide_eq_true_eq]
      omega
    have other : [Fin.ofNat 0x10000 (0xD800 + (c.val - 0x10000) / 0x400)] ≠ js "\\" := by
      intro slash
      rw [List.singleton_inj.mp (slash : _ = [unit (codePoint '\\')])] at high
      exact absurd high (by decide)
    have same : Fin.ofNat 0x110000 (0x10000 +
        ((Fin.ofNat 0x10000 (0xD800 + (c.val - 0x10000) / 0x400)).val - 0xD800) * 0x400 +
        ((Fin.ofNat 0x10000 (0xDC00 + (c.val - 0x10000) % 0x400)).val - 0xDC00)) = c := by
      apply Fin.ext
      simp only [Fin.val_ofNat]
      omega
    simp only [List.cons_append, List.nil_append, readPoint, other, high, if_true, if_false, same]

theorem readPoint_stringifyPoint (c : CodePoint) (r : JsString) : readPoint (stringifyPoint c ++ r) = some (c, r) := by
  have escaped : ∀ (v : CodeUnit) (d : CodePoint), c = d → readEscape v r = some (d, r) →
      readPoint (unit (codePoint '\\') :: v :: r) = some (c, r) := by
    intro v d same read
    rw [readPoint_escape, read, same]
  unfold stringifyPoint
  split_ifs with bell tab newline feed back quote slash control
  · exact escaped _ 8 (Fin.ext bell) rfl
  · exact escaped _ 9 (Fin.ext tab) rfl
  · exact escaped _ 10 (Fin.ext newline) rfl
  · exact escaped _ 12 (Fin.ext feed) rfl
  · exact escaped _ 13 (Fin.ext back) rfl
  · exact escaped _ _ quote rfl
  · exact escaped _ _ slash rfl
  · have small : c.val < 0x10000 := by
      simp only [isSurrogate, Bool.or_eq_true, Bool.and_eq_true, decide_eq_true_eq] at control
      omega
    rw [readPoint_hexEscape small, show Fin.ofNat _ c.val = c from Fin.ext (Nat.mod_eq_of_lt c.isLt)]
  · simp only [Bool.or_eq_true, decide_eq_true_eq, not_or, Bool.not_eq_true] at control
    exact readPoint_units control.2 slash r

theorem stringifyPoint_starts (c : CodePoint) : ∃ u ∈ (stringifyPoint c).head?, u ≠ unit (codePoint '"') := by
  unfold stringifyPoint
  split_ifs with bell tab newline feed back quote slash control
  all_goals try exact ⟨_, rfl, by decide⟩
  unfold units
  split
  · rename_i small
    refine ⟨_, rfl, fun same => quote (Fin.ext ?_)⟩
    have value := congrArg Fin.val same
    rw [Fin.val_ofNat, Nat.mod_eq_of_lt small] at value
    rw [value]
    rfl
  · refine ⟨_, rfl, fun same => ?_⟩
    have bound := c.isLt
    have high : isHigh (Fin.ofNat 0x10000 (0xD800 + (c.val - 0x10000) / 0x400)) = true := by
      simp only [isHigh, Fin.val_ofNat, Bool.and_eq_true, decide_eq_true_eq]
      omega
    rw [same] at high
    exact absurd high (by decide)

theorem units_single (u : CodeUnit) : units (Fin.ofNat _ u.val) = [u] := by
  have bound := u.isLt
  have value : (Fin.ofNat 0x110000 u.val).val = u.val := Nat.mod_eq_of_lt (by omega)
  rw [units, if_pos (by omega), value]
  exact congrArg (· :: []) (Fin.ext (Nat.mod_eq_of_lt bound))

theorem units_pair {u v : CodeUnit} (high : isHigh u = true) (low : isLow v = true) :
    units (Fin.ofNat _ (0x10000 + (u.val - 0xD800) * 0x400 + (v.val - 0xDC00))) = [u, v] := by
  simp only [isHigh, isLow, Bool.and_eq_true, decide_eq_true_eq] at high low
  have value : (Fin.ofNat 0x110000 (0x10000 + (u.val - 0xD800) * 0x400 + (v.val - 0xDC00))).val =
      0x10000 + (u.val - 0xD800) * 0x400 + (v.val - 0xDC00) := Nat.mod_eq_of_lt (by omega)
  rw [units, if_neg (by omega), value]
  have first : Fin.ofNat 0x10000 (0xD800 + (0x10000 + (u.val - 0xD800) * 0x400 + (v.val - 0xDC00) - 0x10000) / 0x400) = u := by
    apply Fin.ext
    simp only [Fin.val_ofNat]
    omega
  have second : Fin.ofNat 0x10000 (0xDC00 + (0x10000 + (u.val - 0xD800) * 0x400 + (v.val - 0xDC00) - 0x10000) % 0x400) = v := by
    apply Fin.ext
    simp only [Fin.val_ofNat]
    omega
  rw [first, second]

theorem units_codePoints (s : JsString) : (codePoints s).flatMap units = s := by
  induction s using codePoints.induct with
  | case1 => rfl
  | case2 u =>
    rw [codePoints, List.flatMap_cons, units_single]
    rfl
  | case3 u v rest pair ih =>
    rw [codePoints, if_pos pair, List.flatMap_cons, ih]
    rw [Bool.and_eq_true] at pair
    rw [units_pair pair.1 pair.2]
    rfl
  | case4 u v rest alone ih =>
    rw [codePoints, if_neg alone, List.flatMap_cons, ih, units_single]
    rfl

theorem stringify_cut {s t r r' : JsString} (same : stringify s ++ r = stringify t ++ r') : s = t ∧ r = r' := by
  have body : (codePoints s).flatMap stringifyPoint ++ unit (codePoint '"') :: r =
      (codePoints t).flatMap stringifyPoint ++ unit (codePoint '"') :: r' := by
    have opened : unit (codePoint '"') :: ((codePoints s).flatMap stringifyPoint ++ unit (codePoint '"') :: r) =
        unit (codePoint '"') :: ((codePoints t).flatMap stringifyPoint ++ unit (codePoint '"') :: r') := by
      simpa [stringify, show js "\"" = [unit (codePoint '"')] from rfl] using same
    exact (List.cons.inj opened).2
  have cut : ∀ {a b : CodePoint} {r s : JsString}, stringifyPoint a ++ r = stringifyPoint b ++ s → a = b ∧ r = s := by
    intro a b r s same
    have read := readPoint_stringifyPoint a r
    rw [same, readPoint_stringifyPoint] at read
    cases read
    exact ⟨rfl, rfl⟩
  obtain ⟨points, rest⟩ := flatMap_cut cut stringifyPoint_starts body
  exact ⟨by rw [← units_codePoints s, points, units_codePoints], rest⟩

/-! ## Values -/

-- What the signed inputs are made of: every number is a safe integer.
inductive Settled : JsValue → Prop
  | null : Settled .null
  | number (n : SafeInt) : Settled n.value
  | string (s : JsString) : Settled (.string s)
  | array {items : List JsValue} (each : ∀ x ∈ items, Settled x) : Settled (.array items)
  | object {fields : List (JsString × JsValue)} (each : ∀ f ∈ fields, Settled f.2) : Settled (.object fields)

-- Objects that differ in the order of their keys have one arrangement.
mutual
def arranged : JsValue → JsValue
  | .array items => .array (arrangedItems items)
  | .object fields => .object (sortKeys (arrangedFields fields))
  | other => other

def arrangedItems : List JsValue → List JsValue
  | [] => []
  | x :: xs => arranged x :: arrangedItems xs

def arrangedFields : List (JsString × JsValue) → List (JsString × JsValue)
  | [] => []
  | (key, value) :: rest => (key, arranged value) :: arrangedFields rest
end

theorem arrangedItems_eq (items : List JsValue) : arrangedItems items = items.map arranged := by
  induction items with
  | nil => rfl
  | cons x xs ih => rw [arrangedItems, ih, List.map_cons]

theorem arrangedFields_eq (fields : List (JsString × JsValue)) :
    arrangedFields fields = fields.map fun f => (f.1, arranged f.2) := by
  induction fields with
  | nil => rfl
  | cons f rest ih => rw [arrangedFields, ih, List.map_cons]

theorem stableItems_eq (items : List JsValue) : stableItems items = items.map stable := by
  induction items with
  | nil => rfl
  | cons x xs ih => rw [stableItems, ih, List.map_cons]

theorem stableFields_eq (fields : List (JsString × JsValue)) :
    stableFields fields = fields.map fun f => (f.1, stable f.2) := by
  induction fields with
  | nil => rfl
  | cons f rest ih => rw [stableFields, ih, List.map_cons]

theorem sortKeys_map {α β : Type} (f : α → β) (fields : List (JsString × α)) :
    sortKeys (fields.map fun g => (g.1, f g.2)) = (sortKeys fields).map fun g => (g.1, f g.2) := by
  refine (List.map_insertionSort (fun a b : JsString × α => unitsLe a.1 b.1)
    (fun a b : JsString × β => unitsLe a.1 b.1) (fun g => (g.1, f g.2)) fields ?_).symm
  intro a _ b _
  exact Iff.rfl

theorem sortKeys_perm {α : Type} (fields : List (JsString × α)) : (sortKeys fields).Perm fields :=
  List.perm_insertionSort _ _

theorem arranged_object (fields : List (JsString × JsValue)) :
    arranged (.object fields) = .object ((sortKeys fields).map fun f => (f.1, arranged f.2)) := by
  rw [arranged, arrangedFields_eq, sortKeys_map]

def entryText (field : JsString × JsValue) : JsString := stringify field.1 ++ js ":" ++ stable field.2

theorem stable_array (items : List JsValue) :
    stable (.array items) = unit (codePoint '[') :: ([unit (codePoint ',')].intercalate (items.map stable) ++
      [unit (codePoint ']')]) := by
  rw [stable, stableItems_eq]
  rfl

theorem stable_object (fields : List (JsString × JsValue)) :
    stable (.object fields) = unit (codePoint '\x7b') ::
      ([unit (codePoint ',')].intercalate ((sortKeys fields).map entryText) ++ [unit (codePoint '\x7d')]) := by
  rw [stable, stableFields_eq, sortKeys_map, List.map_map]
  rfl

/-! ### Numbers -/

-- What may follow a number
def EndsUnits (rest : JsString) : Prop := ∀ u ∈ rest.head?, isDigitUnit u = false

theorem ascii_natText (n : Nat) : Ascii (natText n) := by
  intro c listed
  have digit := natText_digits n c listed
  simp only [Json.isDigit, Bool.and_eq_true, decide_eq_true_eq] at digit
  omega

theorem ascii_intText (n : Int) : Ascii (intText n) := by
  cases n with
  | ofNat n => exact ascii_natText n
  | negSucc n =>
    intro c listed
    rcases List.mem_cons.mp listed with rfl | digit
    · decide
    · exact ascii_natText _ c digit

theorem stable_number (n : SafeInt) : stable n.value = (intText n.val).map unit := by
  have finite : (JsNumber.ofInt n.val).isFinite = true := rfl
  rw [SafeInt.value, stable, stringifyNumber, if_pos finite, toText_ofInt n.property, utf16_ascii (ascii_intText n.val)]

-- A code unit as a code point
def widened (u : CodeUnit) : CodePoint := Fin.ofNat _ u.val

theorem widened_val (u : CodeUnit) : (widened u).val = u.val :=
  Nat.mod_eq_of_lt (lt_trans u.isLt (by decide))

theorem widened_injective : Function.Injective widened := by
  intro u v same
  apply Fin.ext
  rw [← widened_val u, same, widened_val v]

theorem widened_unit {t : Text} (ascii : Ascii t) : (t.map unit).map widened = t := by
  rw [List.map_map]
  conv_rhs => rw [← List.map_id t]
  refine List.map_congr_left fun c listed => Fin.ext ?_
  rw [Function.comp_apply, widened_val, unit_val (ascii c listed)]
  rfl

theorem ends_widened {r : JsString} (stop : EndsUnits r) : Ends (r.map widened) := by
  intro c head
  rw [List.head?_map] at head
  obtain ⟨u, first, rfl⟩ := Option.map_eq_some_iff.mp head
  have none := stop u first
  rw [Json.isDigit, widened_val]
  exact none

theorem intText_units_cut {m n : Int} {r s : JsString} (stop : EndsUnits r) (stop' : EndsUnits s)
    (same : (intText m).map unit ++ r = (intText n).map unit ++ s) : m = n ∧ r = s := by
  have texts := congrArg (List.map widened) same
  rw [List.map_append, List.map_append, widened_unit (ascii_intText m), widened_unit (ascii_intText n)] at texts
  obtain ⟨value, rest⟩ := intText_cut (ends_widened stop) (ends_widened stop') texts
  exact ⟨value, List.map_injective_iff.mpr widened_injective rest⟩

/-! ### Objects and arrays -/

-- The kinds of value that the first code unit tells apart
def valueKind : JsValue → Nat
  | .undefined => 0
  | .null => 1
  | .bool _ => 2
  | .number _ => 3
  | .string _ => 4
  | .array _ => 5
  | .object _ => 6

def markUnit (u : CodeUnit) : Nat :=
  if u = unit (codePoint 'n') then 1
  else if u = unit (codePoint '"') then 4
  else if u = unit (codePoint '[') then 5
  else if u = unit (codePoint '\x7b') then 6
  else if u = unit (codePoint ']') then 7
  else 3

theorem markUnit_digit {u : CodeUnit} (digit : isDigitUnit u = true) : markUnit u = 3 := by
  have other : ∀ v : CodeUnit, isDigitUnit v = false → u ≠ v := by
    intro v none same
    rw [same, none] at digit
    cases digit
  unfold markUnit
  rw [if_neg (other _ (by decide)), if_neg (other _ (by decide)), if_neg (other _ (by decide)),
    if_neg (other _ (by decide)), if_neg (other _ (by decide))]

theorem stable_head {x : JsValue} (settled : Settled x) :
    ∃ u rest, stable x = u :: rest ∧ markUnit u = valueKind x := by
  cases settled with
  | null => exact ⟨_, _, rfl, by decide⟩
  | number n =>
    rw [stable_number]
    cases value : n.val with
    | ofNat m =>
      cases digits : natText m with
      | nil => exact absurd digits (natText_ne_nil m)
      | cons c rest =>
        have digit := natText_digits m c (by simp [digits])
        have small := ascii_natText m c (by simp [digits])
        refine ⟨unit c, rest.map unit, ?_, markUnit_digit ?_⟩
        · rw [intText, digits, List.map_cons]
        · rw [isDigitUnit_unit small]
          exact digit
    | negSucc m => exact ⟨_, _, rfl, (by decide : markUnit (unit (codePoint '-')) = 3)⟩
  | string s => exact ⟨_, _, rfl, (by decide : markUnit (unit (codePoint '"')) = 4)⟩
  | array each => exact ⟨_, _, stable_array _, (by decide : markUnit (unit (codePoint '[')) = 5)⟩
  | object each => exact ⟨_, _, stable_object _, (by decide : markUnit (unit (codePoint '\x7b')) = 6)⟩

theorem valueKind_eq {x y : JsValue} {r s : JsString} (settled : Settled x) (settled' : Settled y)
    (same : stable x ++ r = stable y ++ s) : valueKind x = valueKind y := by
  obtain ⟨u, rest, word, isKind⟩ := stable_head settled
  obtain ⟨v, rest', word', isKind'⟩ := stable_head settled'
  rw [word, word'] at same
  rw [← isKind, ← isKind', (List.cons.inj same).1]

theorem ends_mark (u : CodeUnit) (mark : isDigitUnit u = false) (r : JsString) : EndsUnits (u :: r) := by
  intro v head
  rw [← Option.mem_some_iff.mp head]
  exact mark

theorem value_starts (x : JsValue) (settled : Settled x) : ∃ u ∈ (stable x).head?, u ≠ unit (codePoint ']') := by
  obtain ⟨u, rest, word, isKind⟩ := stable_head settled
  refine ⟨u, by rw [word]; rfl, ?_⟩
  intro same
  rw [same] at isKind
  have closing : markUnit (unit (codePoint ']')) = 7 := by decide
  rw [closing] at isKind
  cases settled <;> cases isKind

theorem entry_starts (f : JsString × JsValue) (_settled : Settled f.2) :
    ∃ u ∈ (entryText f).head?, u ≠ unit (codePoint '\x7d') :=
  ⟨unit (codePoint '"'), rfl, by decide⟩

theorem entry_cut {f : JsString × JsValue} (cuts : Cuts EndsUnits Settled stable arranged f.2) :
    Cuts EndsUnits (fun f : JsString × JsValue => Settled f.2) entryText (fun f => (f.1, arranged f.2)) f := by
  intro g r s settled stop stop' same
  unfold entryText at same
  rw [List.append_assoc, List.append_assoc, List.append_assoc, List.append_assoc] at same
  obtain ⟨key, after⟩ := stringify_cut same
  obtain ⟨value, rest⟩ := cuts settled stop stop' (List.append_cancel_left after)
  exact ⟨Prod.ext key value, rest⟩

theorem stable_cut {x : JsValue} (settled : Settled x) : Cuts EndsUnits Settled stable arranged x := by
  induction settled with
  | null =>
    intro y r s settled' _ _ same
    have kinds := valueKind_eq .null settled' same
    cases settled' <;> cases kinds
    exact ⟨rfl, List.append_cancel_left same⟩
  | number n =>
    intro y r s settled' stop stop' same
    have kinds := valueKind_eq (.number n) settled' same
    cases settled' <;> cases kinds
    rename_i m
    rw [stable_number, stable_number] at same
    obtain ⟨value, rest⟩ := intText_units_cut stop stop' same
    rw [Subtype.ext value]
    exact ⟨rfl, rest⟩
  | string t =>
    intro y r s settled' _ _ same
    have kinds := valueKind_eq (.string t) settled' same
    cases settled' <;> cases kinds
    rename_i t'
    rw [stable, stable] at same
    obtain ⟨value, rest⟩ := stringify_cut same
    exact ⟨by rw [value], rest⟩
  | array each ih =>
    intro y r s settled' _ _ same
    have kinds := valueKind_eq (.array each) settled' same
    cases settled' <;> cases kinds
    rename_i items' each'
    rw [stable_array, stable_array, List.cons_append, List.cons_append, List.append_assoc, List.append_assoc] at same
    obtain ⟨values, rest⟩ := intercalate_cut (by decide) (ends_mark _ (by decide)) (ends_mark _ (by decide))
      value_starts (fun x listed => ⟨each x listed, ih x listed⟩) each' (List.cons.inj same).2
    exact ⟨by rw [arranged, arranged, arrangedItems_eq, arrangedItems_eq, values], rest⟩
  | object each ih =>
    intro y r s settled' _ _ same
    have kinds := valueKind_eq (.object each) settled' same
    cases settled' <;> cases kinds
    rename_i fields fields' each'
    have among {f : JsString × JsValue} {l : List (JsString × JsValue)} (listed : f ∈ sortKeys l) : f ∈ l :=
      (sortKeys_perm l).mem_iff.mp listed
    rw [stable_object, stable_object, List.cons_append, List.cons_append, List.append_assoc, List.append_assoc] at same
    obtain ⟨values, rest⟩ := intercalate_cut (by decide) (ends_mark _ (by decide)) (ends_mark _ (by decide))
      entry_starts (fun f listed => ⟨each f (among listed), entry_cut (ih f (among listed))⟩)
      (fun f listed => each' f (among listed)) (List.cons.inj same).2
    exact ⟨by rw [arranged_object, arranged_object, values], rest⟩

theorem stable_injective {x y : JsValue} (settled : Settled x) (settled' : Settled y) (same : stable x = stable y) :
    arranged x = arranged y := by
  have nothing : EndsUnits [] := fun u none => (nomatch none)
  rw [← List.append_nil (stable x), ← List.append_nil (stable y)] at same
  exact (stable_cut settled settled' nothing nothing same).1

/-! ## Signed inputs -/

-- Two objects with the same keys agree under each of them.
theorem object_eq (fields fields' : List (JsString × JsValue)) (keys : fields.map Prod.fst = fields'.map Prod.fst)
    (distinct : (fields.map Prod.fst).Nodup) (same : arranged (.object fields) = arranged (.object fields')) :
    fields.map (fun f => arranged f.2) = fields'.map fun f => arranged f.2 := by
  rw [arranged_object, arranged_object] at same
  have sorted := JsValue.object.inj same
  have perm := (sortKeys_perm fields).map fun f => (f.1, arranged f.2)
  have perm' := (sortKeys_perm fields').map fun f => (f.1, arranged f.2)
  have pairs : (fields.map fun f => (f.1, arranged f.2)) = fields'.map fun f => (f.1, arranged f.2) :=
    pairs_eq (by simpa [Function.comp_def] using keys) (by simpa [Function.comp_def] using distinct)
      (perm.symm.trans ((List.Perm.of_eq sorted).trans perm'))
  simpa [Function.comp_def] using congrArg (List.map Prod.snd) pairs

theorem object_length {fields fields' : List (JsString × JsValue)}
    (same : arranged (.object fields) = arranged (.object fields')) : fields.length = fields'.length := by
  rw [arranged_object, arranged_object] at same
  have lengths := congrArg List.length (JsValue.object.inj same)
  rwa [List.length_map, List.length_map, (sortKeys_perm fields).length_eq, (sortKeys_perm fields').length_eq] at lengths

@[simp] theorem arranged_number (n : JsNumber) : arranged (.number n) = .number n := rfl
@[simp] theorem arranged_string (s : JsString) : arranged (.string s) = .string s := rfl
@[simp] theorem arranged_safeInt (n : SafeInt) : arranged n.value = n.value := rfl

@[simp] theorem arranged_optionValue (s : Option JsString) : arranged (optionValue s) = optionValue s := by
  cases s <;> rfl

theorem safeInt_eq {m n : SafeInt} (same : m.value = n.value) : m = n := by
  have numbers := JsNumber.finite.inj (JsValue.number.inj same)
  exact Subtype.ext (by exact_mod_cast numbers)

theorem optionValue_eq {s t : Option JsString} (same : optionValue s = optionValue t) : s = t := by
  cases s <;> cases t <;> simp_all [optionValue]

theorem settled_fields {fields : List (JsString × JsValue)} (each : ∀ x ∈ fields.map Prod.snd, Settled x) :
    Settled (.object fields) :=
  .object fun f listed => each f.2 (List.mem_map_of_mem listed)

theorem settled_optionValue (s : Option JsString) : Settled (optionValue s) := by
  cases s with
  | none => exact .null
  | some s => exact .string s

theorem settled_action (action : PaymentAction) : Settled action.value := by
  apply settled_fields
  simp only [PaymentAction.fields, List.map_cons, List.map_nil, List.forall_mem_cons, List.not_mem_nil, false_implies,
    implies_true, and_true]
  exact ⟨.string _, .number _, .string _, .string _, .string _, .string _, .number _, .number _, .number _⟩

theorem settled_policy (inputs : SigningInputs) : Settled (.object inputs.policyFields) := by
  apply settled_fields
  simp only [SigningInputs.policyFields, List.map_cons, List.map_nil, List.forall_mem_cons, List.not_mem_nil,
    false_implies, implies_true, and_true]
  refine ⟨.number _, .number _, .array fun x listed => ?_⟩
  obtain ⟨n, _, rfl⟩ := List.mem_map.mp listed
  exact .number n

theorem settled_inputs (inputs : SigningInputs) : Settled inputs.value := by
  apply settled_fields
  have plain : Settled inputs.vaultId.value ∧ Settled (.string inputs.proposalId) ∧ Settled (.string inputs.actionText) ∧
      Settled (optionValue inputs.fileSha256) ∧ Settled (.object inputs.policyFields) ∧ Settled (.string inputs.nonce) ∧
      Settled (.string inputs.createdAt) :=
    ⟨.number _, .string _, .string _, settled_optionValue _, settled_policy inputs, .string _, .string _⟩
  cases payment : inputs.action with
  | none => simpa [SigningInputs.fields, SigningInputs.decisionFields, payment] using plain
  | some action => simpa [SigningInputs.fields, SigningInputs.decisionFields, payment, settled_action action] using plain

theorem action_value_eq {action action' : PaymentAction} (same : arranged action.value = arranged action'.value) :
    action = action' := by
  have distinct : (["kind", "chain_id", "treasury", "to", "value_wei", "data", "call_gas", "valid_until",
      "config_nonce"].map js).Nodup := by decide
  have values := object_eq action.fields action'.fields rfl distinct same
  simp only [PaymentAction.fields, List.map_cons, List.map_nil, arranged_string, arranged_safeInt, List.cons.injEq,
    JsValue.string.injEq, and_true, true_and] at values
  obtain ⟨chainId, treasury, recipient, valueWei, callGas, validUntil, configNonce⟩ := values
  cases action
  cases action'
  simp only [PaymentAction.mk.injEq]
  exact ⟨safeInt_eq chainId, Subtype.ext treasury, Subtype.ext recipient, Subtype.ext valueWei, safeInt_eq callGas,
    safeInt_eq validUntil, safeInt_eq configNonce⟩

theorem policy_value_eq {inputs inputs' : SigningInputs}
    (same : arranged (.object inputs.policyFields) = arranged (.object inputs'.policyFields)) :
    inputs.M = inputs'.M ∧ inputs.N = inputs'.N ∧ inputs.signers = inputs'.signers := by
  have distinct : (["M", "N", "signers"].map js).Nodup := by decide
  have values := object_eq inputs.policyFields inputs'.policyFields rfl distinct same
  have numbers (signers : List SafeInt) :
      arranged (.array (signers.map SafeInt.value)) = .array (signers.map SafeInt.value) := by
    rw [arranged, arrangedItems_eq, List.map_map]
    rfl
  simp only [SigningInputs.policyFields, List.map_cons, List.map_nil, arranged_safeInt, numbers, List.cons.injEq,
    JsValue.array.injEq, and_true] at values
  obtain ⟨M, N, signers⟩ := values
  exact ⟨safeInt_eq M, safeInt_eq N, List.map_injective_iff.mpr (fun _ _ => safeInt_eq) signers⟩

theorem decision_fields_eq {inputs inputs' : SigningInputs} (payment : inputs.action = inputs'.action)
    (same : inputs.decisionFields.map (fun f => arranged f.2) = inputs'.decisionFields.map fun f => arranged f.2) :
    inputs = inputs' := by
  simp only [SigningInputs.decisionFields, List.map_cons, List.map_nil, arranged_safeInt, arranged_string,
    arranged_optionValue, List.cons.injEq, JsValue.string.injEq, and_true] at same
  obtain ⟨vaultId, proposalId, actionText, fileSha256, policy, nonce, createdAt⟩ := same
  obtain ⟨M, N, signers⟩ := policy_value_eq policy
  cases inputs
  cases inputs'
  simp only [SigningInputs.mk.injEq]
  exact ⟨safeInt_eq vaultId, proposalId, actionText, optionValue_eq fileSha256, M, N, signers, nonce, createdAt, payment⟩

theorem inputs_eq {inputs inputs' : SigningInputs} (same : arranged inputs.value = arranged inputs'.value) :
    inputs = inputs' := by
  have lengths := object_length same
  rw [SigningInputs.value, SigningInputs.value, SigningInputs.fields, SigningInputs.fields] at same
  cases first : inputs.action with
  | none =>
    cases second : inputs'.action with
    | none =>
      have distinct : (["vault_id", "proposal_id", "action_text", "file_sha256", "policy", "nonce",
          "created_at"].map js).Nodup := by decide
      rw [first, second] at same
      simp only [List.append_nil] at same
      exact decision_fields_eq (first.trans second.symm)
        (object_eq inputs.decisionFields inputs'.decisionFields rfl distinct same)
    | some action => simp [SigningInputs.fields, SigningInputs.decisionFields, first, second] at lengths
  | some action =>
    cases second : inputs'.action with
    | none => simp [SigningInputs.fields, SigningInputs.decisionFields, first, second] at lengths
    | some action' =>
      have distinct : (["vault_id", "proposal_id", "action_text", "file_sha256", "policy", "nonce", "created_at",
          "action"].map js).Nodup := by decide
      rw [first, second] at same
      have values := object_eq (inputs.decisionFields ++ [(js "action", action.value)])
        (inputs'.decisionFields ++ [(js "action", action'.value)]) rfl distinct same
      rw [List.map_append, List.map_append] at values
      obtain ⟨shared, payment⟩ := List.append_inj values rfl
      have actions := action_value_eq (List.cons.inj payment).1
      exact decision_fields_eq (by rw [first, second, actions]) shared

theorem signedContentKey_injective {inputs inputs' : SigningInputs} {hash hash' : JsString}
    (unbarred : ∀ u ∈ hash, u ≠ unit (codePoint '|')) (unbarred' : ∀ u ∈ hash', u ≠ unit (codePoint '|'))
    (same : signedContentKey inputs.value hash = signedContentKey inputs'.value hash') :
    inputs = inputs' ∧ hash = hash' := by
  unfold signedContentKey at same
  rw [List.append_assoc, List.append_assoc] at same
  have bar : js "|" = [unit (codePoint '|')] := rfl
  have all {hash : JsString} (unbarred : ∀ u ∈ hash, u ≠ unit (codePoint '|')) :
      ∀ u ∈ hash, (u != unit (codePoint '|')) = true := fun u listed => bne_iff_ne.mpr (unbarred u listed)
  obtain ⟨hashes, rest⟩ := run_cut (all unbarred) (all unbarred') (by simp [bar]) (by simp [bar]) same
  exact ⟨inputs_eq (stable_injective (settled_inputs _) (settled_inputs _) (List.append_cancel_left rest)), hashes⟩

end QVault.Proof.Mobile
