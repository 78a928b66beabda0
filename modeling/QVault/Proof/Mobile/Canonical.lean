import QVault.Mobile.Canonical
import QVault.Proof.Python.Canonical

/-!
# The phone's canonical JSON is the server's

On a value whose integers are safe and whose strings UTF-8 can encode, both write the same bytes.
-/

namespace QVault.Proof.Mobile
open QVault.Python QVault.Mobile QVault.Proof.Codecs QVault.Proof.Canonical

/-! ## Strings -/

@[simp] theorem utf16_nil : utf16 [] = [] := rfl

@[simp] theorem utf16_append (s t : Text) : utf16 (s ++ t) = utf16 s ++ utf16 t := List.flatMap_append

@[simp] theorem utf16_cons (c : CodePoint) (t : Text) : utf16 (c :: t) = units c ++ utf16 t := List.flatMap_cons

theorem codePoints_units {c : CodePoint} (clean : isSurrogate c = false) (s : JsString) :
    codePoints (units c ++ s) = c :: codePoints s := by
  have bound := c.isLt
  simp only [isSurrogate, Bool.and_eq_false_iff, decide_eq_false_iff_not] at clean
  unfold units
  split
  · have same : (Fin.ofNat 0x110000 (Fin.ofNat 0x10000 c.val).val) = c := by
      apply Fin.ext
      simp only [Fin.val_ofNat]
      omega
    cases s with
    | nil => simp only [List.append_nil, codePoints, same]
    | cons v rest =>
      have single : isHigh (Fin.ofNat 0x10000 c.val) = false := by
        simp only [isHigh, Fin.val_ofNat, Bool.and_eq_false_iff, decide_eq_false_iff_not]
        omega
      simp only [List.cons_append, List.nil_append, codePoints, single, Bool.false_and, Bool.false_eq_true,
        if_false, same]
  · have high : isHigh (Fin.ofNat 0x10000 (0xD800 + (c.val - 0x10000) / 0x400)) = true := by
      simp only [isHigh, Fin.val_ofNat, Bool.and_eq_true, decide_eq_true_eq]
      omega
    have low : isLow (Fin.ofNat 0x10000 (0xDC00 + (c.val - 0x10000) % 0x400)) = true := by
      simp only [isLow, Fin.val_ofNat, Bool.and_eq_true, decide_eq_true_eq]
      omega
    have same : Fin.ofNat 0x110000 (0x10000 +
        ((Fin.ofNat 0x10000 (0xD800 + (c.val - 0x10000) / 0x400)).val - 0xD800) * 0x400 +
        ((Fin.ofNat 0x10000 (0xDC00 + (c.val - 0x10000) % 0x400)).val - 0xDC00)) = c := by
      apply Fin.ext
      simp only [Fin.val_ofNat]
      omega
    simp only [List.cons_append, List.nil_append, codePoints, high, low, Bool.and_self, if_true, same]

theorem clean_cons {c : CodePoint} {t : Text} (clean : Clean (c :: t)) : isSurrogate c = false ∧ Clean t :=
  ⟨clean c List.mem_cons_self, fun d listed => clean d (List.mem_cons_of_mem _ listed)⟩

theorem codePoints_utf16 {t : Text} (clean : Clean t) : codePoints (utf16 t) = t := by
  induction t with
  | nil => rfl
  | cons c t ih =>
    obtain ⟨first, rest⟩ := clean_cons clean
    rw [utf16_cons, codePoints_units first, ih rest]

theorem utf16_injective {s t : Text} (left : Clean s) (right : Clean t) (same : utf16 s = utf16 t) : s = t := by
  rw [← codePoints_utf16 left, same, codePoints_utf16 right]

theorem utf16_intercalate (separator : Text) (parts : List Text) :
    utf16 (separator.intercalate parts) = (utf16 separator).intercalate (parts.map utf16) := by
  induction parts with
  | nil => rfl
  | cons first rest ih =>
    cases rest with
    | nil => simp [List.intercalate]
    | cons second rest =>
      simp only [List.intercalate, List.intersperse_cons_cons, List.map_cons, List.flatten_cons, utf16_append] at ih ⊢
      rw [ih]

/-! ## UTF-8 -/

theorem lead_or {lead x : Nat} (k : Nat) (small : x < 2 ^ k) (aligned : lead % 2 ^ k = 0) :
    lead ||| x = lead + x := by
  have split : lead = 2 ^ k * (lead / 2 ^ k) := (Nat.mul_div_cancel' (Nat.dvd_of_mod_eq_zero aligned)).symm
  rw [split, ← Nat.two_pow_add_eq_or_of_lt small]

theorem utf8CodePoint_eq (c : CodePoint) : Mobile.utf8CodePoint c.val = Python.utf8CodePoint c := by
  have bound := c.isLt
  have low : ∀ n : Nat, n &&& 0x3F = n % 64 := fun n => Nat.and_two_pow_sub_one_eq_mod n 6
  unfold Mobile.utf8CodePoint Python.utf8CodePoint
  simp only [low, Nat.shiftRight_eq_div_pow]
  split
  · rfl
  · split
    · rw [lead_or 5 (by omega) (by decide), lead_or 6 (by omega) (by decide)]
    · split
      · rw [lead_or 4 (by omega) (by decide), lead_or 6 (by omega) (by decide), lead_or 6 (by omega) (by decide)]
      · rw [lead_or 3 (by omega) (by decide), lead_or 6 (by omega) (by decide), lead_or 6 (by omega) (by decide),
          lead_or 6 (by omega) (by decide)]

theorem utf8Encode_utf16 {t : Text} (clean : Clean t) : utf8Encode (utf16 t) = t.flatMap Python.utf8CodePoint := by
  unfold utf8Encode
  rw [codePoints_utf16 clean]
  exact List.flatMap_congr fun c _ => utf8CodePoint_eq c

/-! ## Quoting -/

theorem stringifyPoint_eq {c : CodePoint} (clean : isSurrogate c = false) :
    stringifyPoint c = utf16 (Json.escape false c) := by
  have apart : ∀ n : Nat, n < 32 → c.val = n → c ≠ codePoint '"' ∧ c ≠ codePoint '\\' := by
    rintro n small rfl
    constructor
    · rintro rfl
      exact absurd small (by decide)
    · rintro rfl
      exact absurd small (by decide)
  have bare : units c = utf16 [c] := by simp
  unfold stringifyPoint Json.escape
  simp only [clean, Bool.or_false, decide_eq_true_eq, Bool.false_and, Bool.false_eq_true, if_false, bare]
  by_cases control : c.val < 32
  · obtain ⟨noQuote, noSlash⟩ := apart c.val control rfl
    simp only [noQuote, noSlash, if_false, control, if_true]
    split_ifs <;> first | rfl | (exfalso; omega)
  · have others : c.val ≠ 8 ∧ c.val ≠ 9 ∧ c.val ≠ 10 ∧ c.val ≠ 12 ∧ c.val ≠ 13 := by omega
    simp only [others, control, if_false]
    split_ifs <;> rfl

theorem stringify_utf16 {t : Text} (clean : Clean t) : stringify (utf16 t) = utf16 (Json.quote false t) := by
  unfold stringify Json.quote
  rw [codePoints_utf16 clean]
  have points : t.flatMap stringifyPoint = utf16 (t.flatMap (Json.escape false)) := by
    unfold utf16
    rw [List.flatMap_assoc]
    exact List.flatMap_congr fun c listed => stringifyPoint_eq (clean c listed)
  rw [points]
  simp only [utf16_append, utf16_cons, utf16_nil, List.append_nil, List.cons_append]
  rfl

/-! ## The order of keys -/

theorem compareCodePoints_le (s t : Text) : compareCodePoints s t ≤ 0 ↔ s.le t = true := by
  induction s generalizing t with
  | nil => cases t <;> simp [compareCodePoints, Text.le]
  | cons a as ih =>
    cases t with
    | nil =>
      simp only [compareCodePoints, Text.le, List.length_cons, List.length_nil]
      constructor
      · intro small
        omega
      · intro never
        cases never
    | cons b bs =>
      unfold compareCodePoints Text.le
      by_cases same : a = b
      · simp [same, ih]
      · simp only [ne_eq, same, not_false_eq_true, if_true, Bool.or_eq_true, decide_eq_true_eq, Bool.and_eq_true,
          beq_iff_eq, false_and, or_false]
        have apart : a.val ≠ b.val := fun h => same (Fin.ext h)
        rw [Fin.lt_def]
        omega

theorem byCodePoint_le {s t : Text} (left : Clean s) (right : Clean t) :
    byCodePoint (utf16 s) (utf16 t) ≤ 0 ↔ s.le t = true := by
  unfold byCodePoint
  rw [codePoints_utf16 left, codePoints_utf16 right, compareCodePoints_le]

/-! ## Values -/

-- What both sides can write: safe integers, and strings that UTF-8 can encode
inductive Exact : Json → Prop
  | null : Exact .null
  | bool (b : Bool) : Exact (.bool b)
  | int {n : Int} (safe : n.natAbs ≤ JsNumber.maxSafe) : Exact (.int n)
  | str {s : Text} (clean : Clean s) : Exact (.str s)
  | list {items : List Json} (each : ∀ x ∈ items, Exact x) : Exact (.list items)
  | dict {fields : List (Text × Json)} (keys : ∀ f ∈ fields, Clean f.1) (each : ∀ f ∈ fields, Exact f.2) :
    Exact (.dict fields)

theorem parsedItems_eq (items : List Json) : parsedItems items = items.map parsed := by
  induction items with
  | nil => rfl
  | cons x xs ih => rw [parsedItems, ih, List.map_cons]

theorem parsedFields_eq (fields : List (Text × Json)) :
    parsedFields fields = fields.map fun f => (utf16 f.1, parsed f.2) := by
  induction fields with
  | nil => rfl
  | cons f rest ih => rw [parsedFields, ih, List.map_cons]

theorem canonicalItems_eq (items : List JsValue) : canonicalItems items = items.map canonicalJsonString := by
  induction items with
  | nil => rfl
  | cons x xs ih => rw [canonicalItems, ih, List.map_cons]

theorem canonicalFields_eq (fields : List (JsString × JsValue)) :
    canonicalFields fields = fields.map fun f => (f.1, canonicalJsonString f.2) := by
  induction fields with
  | nil => rfl
  | cons f rest ih => rw [canonicalFields, ih, List.map_cons]

theorem mapM_written {α β : Type} {items : List α} {write : α → Except JsError β} {word : α → β}
    (each : ∀ x ∈ items, write x = .ok (word x)) : items.mapM write = .ok (items.map word) := by
  induction items with
  | nil => rfl
  | cons x xs ih =>
    rw [List.mapM_cons, each x List.mem_cons_self, ih fun y listed => each y (List.mem_cons_of_mem _ listed)]
    rfl

theorem safe_int {n : Int} (safe : n.natAbs ≤ JsNumber.maxSafe) : (JsNumber.ofInt n).isSafeInteger = true := by
  simp [JsNumber.ofInt, JsNumber.isSafeInteger, safe]

theorem readInt_safe {n : Int} (safe : n.natAbs ≤ JsNumber.maxSafe) : readInt n = .ofInt n := if_pos safe

theorem toText_ofInt {n : Int} (safe : n.natAbs ≤ JsNumber.maxSafe) : (JsNumber.ofInt n).toText = intText n := by
  have isSafe := safe_int safe
  unfold JsNumber.ofInt at isSafe ⊢
  simp [JsNumber.toText, isSafe]

theorem canonicalJsonString_int {n : Int} (safe : n.natAbs ≤ JsNumber.maxSafe) :
    canonicalJsonString (.number (.ofInt n)) = .ok (utf16 (intText n)) := by
  have whole : (JsNumber.ofInt n).isInteger = true := by simp [JsNumber.ofInt, JsNumber.isInteger]
  rw [canonicalJsonString, safe_int safe, whole, toText_ofInt safe]
  rfl

-- The phone sorts the fields of an object as the server does.
theorem sortedFields_utf16 {α : Type} {fields : List (Text × Json)} (word : Text × Json → α)
    (keys : ∀ f ∈ fields, Clean f.1) :
    sortedFields (fields.map fun f => (utf16 f.1, word f)) = (sortFields fields).map fun f => (utf16 f.1, word f) := by
  refine (List.map_insertionSort (r := fun a b : Text × Json => a.1.le b.1)
    (s := fun a b : JsString × α => byCodePoint a.1 b.1 ≤ 0) (fun f => (utf16 f.1, word f)) fields ?_).symm
  intro a isField b isField'
  exact (byCodePoint_le (keys a isField) (keys b isField')).symm

theorem utf16_fieldText {field : Text × Json} (key : Clean field.1) :
    utf16 (fieldText field) = stringify (utf16 field.1) ++ js ":" ++ utf16 (field.2.dumps .canonical) := by
  rw [stringify_utf16 key, fieldText, utf16_append, utf16_cons, List.append_assoc]
  rfl

theorem canonicalJsonString_parsed {value : Json} (exact' : Exact value) :
    canonicalJsonString (parsed value) = .ok (utf16 (value.dumps .canonical)) := by
  induction exact' with
  | null => rfl
  | bool b => rfl
  | int safe => rw [parsed, readInt_safe safe, canonicalJsonString_int safe, Json.dumps]
  | str clean => rw [parsed, canonicalJsonString, stringify_utf16 clean, Json.dumps]; rfl
  | @list items each ih =>
    have parts : (canonicalItems (parsedItems items)).mapM id =
        .ok (items.map fun x => utf16 (x.dumps .canonical)) := by
      rw [canonicalItems_eq, parsedItems_eq, List.map_map, List.mapM_map]
      exact mapM_written ih
    rw [parsed, canonicalJsonString, parts, dumps_list, utf16_cons, utf16_append, utf16_intercalate, List.map_map]
    rfl
  | @dict fields keys each ih =>
    have fieldsRead : canonicalFields (parsedFields fields) =
        fields.map fun f => (utf16 f.1, canonicalJsonString (parsed f.2)) := by
      rw [canonicalFields_eq, parsedFields_eq, List.map_map]
      rfl
    have parts : (sortedFields (canonicalFields (parsedFields fields))).mapM keyed =
        .ok ((sortFields fields).map fun f => utf16 (fieldText f)) := by
      rw [fieldsRead, sortedFields_utf16 (fun f => canonicalJsonString (parsed f.2)) keys, List.mapM_map]
      apply mapM_written
      intro f listed
      have isField := mem_sortFields.mp listed
      rw [utf16_fieldText (keys f isField)]
      exact congrArg (Except.map fun value => stringify (utf16 f.1) ++ js ":" ++ value) (ih f isField)
    rw [parsed, canonicalJsonString, parts, dumps_dict, utf16_cons, utf16_append, utf16_intercalate, List.map_map]
    rfl

theorem clean_dumps {value : Json} (exact' : Exact value) : Clean (value.dumps .canonical) := by
  induction exact' with
  | null => exact clean_text_of "null" (by decide)
  | bool b => cases b <;> exact clean_text_of _ (by decide)
  | int safe => exact clean_intText _
  | str clean => exact clean_quote clean
  | list each ih =>
    rw [Json.dumps, dumpsItems_eq]
    refine ((clean_text_of "[" (by decide)).append (clean_separated (clean_text_of "," (by decide)) ?_)).append
      (clean_text_of "]" (by decide))
    intro t listed
    obtain ⟨x, isItem, rfl⟩ := List.mem_map.mp listed
    exact ih x isItem
  | dict keys each ih => exact clean_dict fun f isField => ⟨keys f isField, ih f isField⟩

theorem canonicalJson_parsed {value : Json} (exact' : Exact value) :
    Mobile.canonicalJson (parsed value) = .ok ((value.dumps .canonical).flatMap Python.utf8CodePoint) := by
  rw [Mobile.canonicalJson, canonicalJsonString_parsed exact', Except.map, utf8Encode_utf16 (clean_dumps exact')]

theorem canonicalJson_server {value : Json} (exact' : Exact value) :
    Python.canonicalJson value = .ok ((value.dumps .canonical).flatMap Python.utf8CodePoint) :=
  encodeUtf8_clean (clean_dumps exact')

end QVault.Proof.Mobile
