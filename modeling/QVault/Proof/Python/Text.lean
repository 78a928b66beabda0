import QVault.Python.Json
import QVault.Lib.Results
import Mathlib.Tactic

/-!
# Round trips of the codecs

Hexadecimal and base64 read back what they wrote.
-/

namespace QVault.Proof.Codecs
open QVault.Python Results

/-! ## Hexadecimal -/

theorem digitChar_val {d : Nat} (small : d < 16) :
    (digitChar d).val = if d < 10 then 48 + d else 87 + d := by
  unfold digitChar
  simp only [Fin.val_ofNat]
  split <;> omega

theorem hexValue_digitChar {d : Nat} (small : d < 16) : hexValue (digitChar d) = some d := by
  unfold hexValue
  rw [digitChar_val small]
  by_cases decimal : d < 10
  · rw [if_pos decimal, if_pos (by omega)]
    congr 1
    omega
  · rw [if_neg decimal, if_neg (by omega), if_pos (by omega)]
    congr 1
    omega

theorem isSpace_digitChar {d : Nat} (small : d < 16) : isSpace (digitChar d) = false := by
  simp only [isSpace, digitChar_val small, Bool.or_eq_false_iff, beq_eq_false_iff_ne,
    Bool.and_eq_false_iff, decide_eq_false_iff_not]
  split <;> omega

theorem hexText_cons (b : UInt8) (rest : Bytes) :
    hexText (b :: rest) = digitChar (b.toNat / 16) :: digitChar (b.toNat % 16) :: hexText rest := rfl

theorem fromHex_digits {high low : Nat} (high16 : high < 16) (low16 : low < 16) (rest : Text) :
    fromHex (digitChar high :: digitChar low :: rest) =
      (fromHex rest).map (UInt8.ofNat (16 * high + low) :: ·) := by
  rw [fromHex.eq_def]
  simp [isSpace_digitChar high16, hexValue_digitChar high16, hexValue_digitChar low16]

theorem fromHex_hexText (bytes : Bytes) : fromHex (hexText bytes) = .ok bytes := by
  induction bytes with
  | nil => rfl
  | cons b rest ih =>
    have byte := b.toNat_lt
    rw [hexText_cons, fromHex_digits (by omega) (by omega), ih]
    have whole : 16 * (b.toNat / 16) + b.toNat % 16 = b.toNat := Nat.div_add_mod _ _
    simp [Except.map, whole]

theorem hexText_injective : Function.Injective hexText := by
  intro a b same
  have read := congrArg fromHex same
  simpa [fromHex_hexText] using read

theorem hexText_length (bytes : Bytes) : (hexText bytes).length = 2 * bytes.length := by
  induction bytes with
  | nil => rfl
  | cons b rest ih =>
    rw [hexText_cons]
    simp only [List.length_cons, ih]
    omega

/-! ## Clean text -/

-- Text that UTF-8 can encode
def Clean (t : Text) : Prop := ∀ c ∈ t, isSurrogate c = false

theorem encodeUtf8_clean {t : Text} (clean : Clean t) : encodeUtf8 t = .ok (t.flatMap utf8CodePoint) := by
  unfold encodeUtf8
  rw [if_neg]
  rw [List.any_eq_true]
  rintro ⟨c, listed, surrogate⟩
  rw [clean c listed] at surrogate
  cases surrogate

theorem Clean.append {s t : Text} (left : Clean s) (right : Clean t) : Clean (s ++ t) := by
  intro c listed
  cases List.mem_append.mp listed with
  | inl first => exact left c first
  | inr second => exact right c second

theorem Clean.flatMap {α : Type} {s : List α} {f : α → Text} (each : ∀ c ∈ s, Clean (f c)) : Clean (s.flatMap f) := by
  intro c listed
  obtain ⟨d, there, among⟩ := List.mem_flatMap.mp listed
  exact each d there c among

theorem clean_separated {separator : Text} {parts : List Text} (between : Clean separator)
    (each : ∀ t ∈ parts, Clean t) : Clean (Json.separated separator parts) := by
  induction parts with
  | nil => exact fun c none => (nomatch none)
  | cons first rest ih =>
    have later := ih fun t listed => each t (List.mem_cons_of_mem _ listed)
    have head := each first List.mem_cons_self
    cases rest with
    | nil => exact head
    | cons second rest => exact (head.append between).append later

theorem clean_digitChar (d : Nat) (small : d < 16) : isSurrogate (digitChar d) = false := by
  have value := digitChar_val small
  simp only [isSurrogate, value, Bool.and_eq_false_iff, decide_eq_false_iff_not]
  split <;> omega

theorem clean_hexText (bytes : Bytes) : Clean (hexText bytes) := by
  apply Clean.flatMap
  intro b _ c listed
  have byte := b.toNat_lt
  simp only [List.mem_cons, List.not_mem_nil, or_false] at listed
  cases listed with
  | inl high => exact high ▸ clean_digitChar _ (by omega)
  | inr low => exact low ▸ clean_digitChar _ (by omega)

theorem clean_text_of (s : String) (ascii : (text s).all (fun c => c.val < 128) = true) : Clean (text s) := by
  intro c listed
  have small := List.all_eq_true.mp ascii c listed
  simp only [decide_eq_true_eq] at small
  simp only [isSurrogate, Bool.and_eq_false_iff, decide_eq_false_iff_not]
  omega

theorem clean_natText (n : Nat) : Clean (natText n) := by
  unfold natText
  split
  · intro c listed
    rw [List.mem_singleton.mp listed]
    decide
  · intro c listed
    obtain ⟨d, digit, rfl⟩ := List.mem_map.mp listed
    have small := Nat.digits_lt_base (by decide) (List.mem_reverse.mp digit)
    exact clean_digitChar d (by omega)

theorem clean_intText (n : Int) : Clean (intText n) := by
  cases n with
  | ofNat n => exact clean_natText n
  | negSucc n => exact (clean_text_of "-" (by decide)).append (clean_natText _)

theorem clean_hexEscape (unit : Nat) (small : unit < 65536) : Clean (Json.hexEscape unit) := by
  apply (clean_text_of "\\u" (by decide)).append
  intro c listed
  simp only [List.mem_cons, List.not_mem_nil, or_false] at listed
  rcases listed with rfl | rfl | rfl | rfl <;> exact clean_digitChar _ (by omega)

theorem clean_escape {c : CodePoint} (clean : isSurrogate c = false) : Clean (Json.escape false c) := by
  unfold Json.escape
  split_ifs with _ _ _ _ _ _ _ control _
  · exact clean_text_of _ (by decide)
  · exact clean_text_of _ (by decide)
  · exact clean_text_of _ (by decide)
  · exact clean_text_of _ (by decide)
  · exact clean_text_of _ (by decide)
  · exact clean_text_of _ (by decide)
  · exact clean_text_of _ (by decide)
  · exact clean_hexEscape _ (by omega)
  · simp_all
  · intro d listed
    rw [List.mem_singleton.mp listed]
    exact clean

theorem clean_quote {s : Text} (clean : Clean s) : Clean (Json.quote false s) := by
  have escaped : Clean (s.flatMap (Json.escape false)) := Clean.flatMap fun c listed => clean_escape (clean c listed)
  have mark : Clean [codePoint '"'] := by
    intro c listed
    rw [List.mem_singleton.mp listed]
    decide
  exact (mark.append escaped).append mark

theorem dumpsFields_eq (style : Json.Style) (fields : List (Text × Json)) :
    Json.dumpsFields style fields = fields.map fun f => (f.1, f.2.dumps style) := by
  induction fields with
  | nil => rfl
  | cons f rest ih => simp [Json.dumpsFields, ih]

theorem clean_dict {fields : List (Text × Json)}
    (each : ∀ f ∈ fields, Clean f.1 ∧ Clean (f.2.dumps .canonical)) : Clean ((Json.dict fields).dumps .canonical) := by
  have brace : ∀ c : Char, c = '\x7b' ∨ c = '\x7d' → Clean [codePoint c] := by
    rintro c (rfl | rfl) d listed
    · rw [List.mem_singleton.mp listed]
      decide
    · rw [List.mem_singleton.mp listed]
      decide
  have parts : ∀ t ∈ (Json.sortKeys (Json.dumpsFields .canonical fields)).map (fun field =>
      Json.quote false field.1 ++ Json.Style.canonical.keySeparator ++ field.2), Clean t := by
    intro t listed
    obtain ⟨field, among, rfl⟩ := List.mem_map.mp listed
    have there := (List.perm_insertionSort _ _).mem_iff.mp among
    rw [dumpsFields_eq] at there
    obtain ⟨f, isField, rfl⟩ := List.mem_map.mp there
    obtain ⟨key, value⟩ := each f isField
    exact ((clean_quote key).append (clean_text_of ":" (by decide))).append value
  rw [Json.dumps]
  exact ((brace _ (.inl rfl)).append (clean_separated (clean_text_of "," (by decide)) parts)).append (brace _ (.inr rfl))

theorem canonicalJson_clean {value : Json} (clean : Clean (value.dumps .canonical)) :
    ∃ bytes, canonicalJson value = .ok bytes :=
  ⟨_, encodeUtf8_clean clean⟩

/-! ## Base64 -/

theorem base64Digit_val {n : Nat} (small : n < 64) : (base64Digit n).val =
    if n < 26 then 65 + n else if n < 52 then 71 + n else if n < 62 then n - 4 else if n = 62 then 43 else 47 := by
  unfold base64Digit
  simp only [Fin.val_ofNat]
  split_ifs <;> omega

theorem base64Value_digit {n : Nat} (small : n < 64) : base64Value (base64Digit n) = some n := by
  unfold base64Value
  rw [base64Digit_val small]
  split_ifs <;> first | omega | (congr 1; omega)

theorem base64Digit_ne_pad {n : Nat} (small : n < 64) : base64Digit n ≠ base64Pad := by
  intro same
  have values := congrArg Fin.val same
  rw [base64Digit_val small] at values
  have pad : base64Pad.val = 61 := by decide
  rw [pad] at values
  split_ifs at values <;> omega

theorem a2bLoop_digit {n : Nat} (small : n < 64) (rest : Text) (quad left pads : Nat) :
    a2bLoop true (base64Digit n :: rest) quad left pads false =
      match quad with
      | 0 => a2bLoop true rest 1 n 0 false
      | 1 => (a2bLoop true rest 2 (n % 16) 0 false).map (UInt8.ofNat (left * 4 + n / 16) :: ·)
      | 2 => (a2bLoop true rest 3 (n % 4) 0 false).map (UInt8.ofNat (left * 16 + n / 4) :: ·)
      | _ => (a2bLoop true rest 0 0 0 false).map (UInt8.ofNat (left * 64 + n) :: ·) := by
  rw [a2bLoop.eq_def]
  simp only [if_neg (base64Digit_ne_pad small), base64Value_digit small, Bool.and_false]
  rfl

theorem a2bLoop_b64encode (bytes : Bytes) : a2bLoop true (b64encode bytes) 0 0 0 false = .ok bytes := by
  induction bytes using b64encode.induct with
  | case1 => rfl
  | case2 a =>
    have byte := a.toNat_lt
    have whole : a.toNat / 4 * 4 + a.toNat % 4 * 16 / 16 = a.toNat := by omega
    rw [b64encode, a2bLoop_digit (by omega), a2bLoop_digit (by omega)]
    simp only [whole, UInt8.ofNat_toNat]
    rfl
  | case3 a b =>
    have byteA := a.toNat_lt
    have byteB := b.toNat_lt
    have first : a.toNat / 4 * 4 + (a.toNat % 4 * 16 + b.toNat / 16) / 16 = a.toNat := by omega
    have second : (a.toNat % 4 * 16 + b.toNat / 16) % 16 * 16 + b.toNat % 16 * 4 / 4 = b.toNat := by omega
    have small0 : a.toNat / 4 < 64 := by omega
    have small1 : a.toNat % 4 * 16 + b.toNat / 16 < 64 := by omega
    have small2 : b.toNat % 16 * 4 < 64 := by omega
    simp only [b64encode, a2bLoop_digit small0, a2bLoop_digit small1, a2bLoop_digit small2, first, second,
      UInt8.ofNat_toNat]
    rfl
  | case4 a b c rest ih =>
    have byteA := a.toNat_lt
    have byteB := b.toNat_lt
    have byteC := c.toNat_lt
    have first : a.toNat / 4 * 4 + (a.toNat % 4 * 16 + b.toNat / 16) / 16 = a.toNat := by omega
    have second : (a.toNat % 4 * 16 + b.toNat / 16) % 16 * 16 + (b.toNat % 16 * 4 + c.toNat / 64) / 4 = b.toNat := by
      omega
    have third : (b.toNat % 16 * 4 + c.toNat / 64) % 4 * 64 + c.toNat % 64 = c.toNat := by omega
    have small0 : a.toNat / 4 < 64 := by omega
    have small1 : a.toNat % 4 * 16 + b.toNat / 16 < 64 := by omega
    have small2 : b.toNat % 16 * 4 + c.toNat / 64 < 64 := by omega
    have small3 : c.toNat % 64 < 64 := by omega
    simp only [b64encode, a2bLoop_digit small0, a2bLoop_digit small1, a2bLoop_digit small2, a2bLoop_digit small3, first,
      second, third, UInt8.ofNat_toNat, ih]
    rfl

theorem base64Digit_ascii {n : Nat} (small : n < 64) : (base64Digit n).val < 128 := by
  rw [base64Digit_val small]
  split_ifs <;> omega

theorem b64encode_ascii (bytes : Bytes) : ∀ c ∈ b64encode bytes, c.val < 128 := by
  have pad : base64Pad.val < 128 := by decide
  induction bytes using b64encode.induct with
  | case1 => exact fun c none => (nomatch none)
  | case2 a =>
    have byte := a.toNat_lt
    simp only [b64encode, List.forall_mem_cons]
    exact ⟨base64Digit_ascii (by omega), base64Digit_ascii (by omega), pad, pad, fun c none => (nomatch none)⟩
  | case3 a b =>
    have byteA := a.toNat_lt
    have byteB := b.toNat_lt
    simp only [b64encode, List.forall_mem_cons]
    exact ⟨base64Digit_ascii (by omega), base64Digit_ascii (by omega), base64Digit_ascii (by omega), pad,
      fun c none => (nomatch none)⟩
  | case4 a b c rest ih =>
    have byteA := a.toNat_lt
    have byteB := b.toNat_lt
    have byteC := c.toNat_lt
    simp only [b64encode, List.forall_mem_cons]
    exact ⟨base64Digit_ascii (by omega), base64Digit_ascii (by omega), base64Digit_ascii (by omega),
      base64Digit_ascii (by omega), ih⟩

theorem b64encode_head (bytes : Bytes) : (b64encode bytes).head? ≠ some base64Pad := by
  have digit : ∀ a : UInt8, base64Digit (a.toNat / 4) ≠ base64Pad := by
    intro a
    have byte := a.toNat_lt
    exact base64Digit_ne_pad (by omega)
  cases bytes using b64encode.fun_cases with
  | case1 => exact fun none => nomatch none
  | case2 a => simpa [b64encode] using digit a
  | case3 a b => simpa [b64encode] using digit a
  | case4 a b c rest => simpa [b64encode] using digit a

theorem b64decode_b64encode (bytes : Bytes) : b64decode true (b64encode bytes) = .ok bytes := by
  have ascii : ((b64encode bytes).any fun c => 128 ≤ c.val) = false := by
    rw [List.any_eq_false]
    intro c listed
    simpa using b64encode_ascii bytes c listed
  unfold b64decode
  rw [ascii, if_neg (by simp), if_neg (by simpa using b64encode_head bytes)]
  exact a2bLoop_b64encode bytes

end QVault.Proof.Codecs
