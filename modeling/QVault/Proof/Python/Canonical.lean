import QVault.Proof.Python.Text
import QVault.Python.Loads
import QVault.Lib.PrefixCode

/-!
# What canonical JSON determines

`canonical_json` of a value without floats determines the value, up to the order of a dict's fields.
-/

namespace QVault.Proof.Canonical
open QVault.Python PrefixCode Results QVault.Proof.Codecs

/-! ## UTF-8 -/

theorem ofNat_cancel {m n : Nat} (small : m < 256) (small' : n < 256) (same : UInt8.ofNat m = UInt8.ofNat n) :
    m = n := by
  have values := congrArg UInt8.toNat same
  simpa [Nat.mod_eq_of_lt small, Nat.mod_eq_of_lt small'] using values

theorem utf8CodePoint_prefixFree : PrefixFree utf8CodePoint where
  nonempty c := by
    unfold utf8CodePoint
    split_ifs <;> simp
  cut := by
    intro c d r s same
    have cBound := c.isLt
    have dBound := d.isLt
    unfold utf8CodePoint at same
    split_ifs at same <;> simp only [List.cons_append, List.nil_append, List.cons.injEq] at same <;>
      have lead := ofNat_cancel (by omega) (by omega) same.1
    all_goals first | (exfalso; omega) | skip
    · exact ⟨Fin.ext lead, same.2⟩
    · have next := ofNat_cancel (by omega) (by omega) same.2.1
      exact ⟨Fin.ext (by omega), same.2.2⟩
    · have next := ofNat_cancel (by omega) (by omega) same.2.1
      have last := ofNat_cancel (by omega) (by omega) same.2.2.1
      exact ⟨Fin.ext (by omega), same.2.2.2⟩
    · have second := ofNat_cancel (by omega) (by omega) same.2.1
      have third := ofNat_cancel (by omega) (by omega) same.2.2.1
      have last := ofNat_cancel (by omega) (by omega) same.2.2.2.1
      exact ⟨Fin.ext (by omega), same.2.2.2.2⟩

theorem encodeUtf8_injective {s t : Text} {bytes : Bytes} (first : encodeUtf8 s = .ok bytes)
    (second : encodeUtf8 t = .ok bytes) : s = t := by
  unfold encodeUtf8 at first second
  split_ifs at first second
  exact utf8CodePoint_prefixFree.flatMap_injective (Except.ok.inj (first.trans second.symm))

/-! ## Numbers -/

theorem isDigit_digitChar {d : Nat} (decimal : d < 10) : Json.isDigit (digitChar d) = true := by
  have value := digitChar_val (show d < 16 by omega)
  rw [if_pos decimal] at value
  simp [Json.isDigit, value]
  omega

theorem natText_digits (n : Nat) : ∀ c ∈ natText n, Json.isDigit c = true := by
  unfold natText
  split
  · intro c listed
    rw [List.mem_singleton.mp listed]
    exact isDigit_digitChar (by decide)
  · intro c listed
    obtain ⟨d, digit, rfl⟩ := List.mem_map.mp listed
    exact isDigit_digitChar (Nat.digits_lt_base (by decide) (List.mem_reverse.mp digit))

theorem natText_ne_nil (n : Nat) : natText n ≠ [] := by
  unfold natText
  split
  · simp
  · rename_i nonzero
    simp [Nat.digits_ne_nil_iff_ne_zero.mpr nonzero]

theorem digitsValue_natText (n : Nat) : Json.digitsValue (natText n) = n := by
  unfold natText
  split
  · rename_i zero
    rw [zero]
    decide
  · have values : ∀ digits : List Nat, (∀ d ∈ digits, d < 10) →
        (digits.map digitChar).foldr (fun c m => 10 * m + (c.val - 48)) 0 = Nat.ofDigits 10 digits := by
      intro digits
      induction digits with
      | nil => intro _; rfl
      | cons d rest ih =>
        intro small
        have value := digitChar_val (show d < 16 from lt_trans (small d List.mem_cons_self) (by decide))
        rw [if_pos (small d List.mem_cons_self)] at value
        rw [List.map_cons, List.foldr_cons, ih fun x listed => small x (List.mem_cons_of_mem _ listed), value,
          Nat.ofDigits_cons]
        omega
    rw [Json.digitsValue, List.map_reverse, List.foldl_reverse,
      values _ fun d digit => Nat.digits_lt_base (by decide) digit, Nat.ofDigits_digits]

-- What may follow a number
def Ends (rest : Text) : Prop := ∀ c ∈ rest.head?, Json.isDigit c = false

theorem natText_cut {m n : Nat} {r s : Text} (stop : Ends r) (stop' : Ends s)
    (same : natText m ++ r = natText n ++ s) : m = n ∧ r = s := by
  obtain ⟨digits, rest⟩ := run_cut (natText_digits m) (natText_digits n) stop stop' same
  refine ⟨?_, rest⟩
  rw [← digitsValue_natText m, digits, digitsValue_natText]

theorem natText_ne_minus {n : Nat} {r s : Text} : natText n ++ r ≠ codePoint '-' :: s := by
  intro same
  cases digits : natText n with
  | nil => exact natText_ne_nil n digits
  | cons c rest =>
    have digit := natText_digits n c (by simp [digits])
    rw [digits] at same
    rw [(List.cons.inj same).1] at digit
    exact absurd digit (by decide)

theorem intText_cut {m n : Int} {r s : Text} (stop : Ends r) (stop' : Ends s)
    (same : intText m ++ r = intText n ++ s) : m = n ∧ r = s := by
  cases m with
  | ofNat m =>
    cases n with
    | ofNat n =>
      obtain ⟨value, rest⟩ := natText_cut stop stop' same
      exact ⟨congrArg Int.ofNat value, rest⟩
    | negSucc n => exact absurd same natText_ne_minus
  | negSucc m =>
    cases n with
    | ofNat n => exact absurd same.symm natText_ne_minus
    | negSucc n =>
      obtain ⟨value, rest⟩ := natText_cut stop stop' (List.cons.inj same).2
      exact ⟨congrArg Int.negSucc (Nat.succ.inj value), rest⟩

/-! ## Strings -/

theorem scanString_backslash {fuel : Nat} {c : CodePoint} {t rest : Text}
    (read : Json.scanEscape t = some (c, rest)) :
    Json.scanString (fuel + 1) (codePoint '\\' :: t) =
      (Json.scanString fuel rest).map fun (s, rest) => (c :: s, rest) := by
  rw [Json.scanString, if_neg (by decide), if_pos rfl, read]
  simp only [Option.bind_eq_bind, Option.bind_some]
  cases Json.scanString fuel rest <;> rfl

theorem scanEscape_hexEscape {unit : Nat} (small : unit < 32) (t : Text) :
    Json.scanEscape ((Json.hexEscape unit).tail ++ t) = some (Fin.ofNat _ unit, t) := by
  have high := hexValue_digitChar (show unit / 16 % 16 < 16 by omega)
  have low := hexValue_digitChar (show unit % 16 < 16 by omega)
  have zero := hexValue_digitChar (show 0 < 16 by decide)
  have top : unit / 4096 = 0 := by omega
  have next : unit / 256 % 16 = 0 := by omega
  have value : unit / 16 % 16 * 16 + unit % 16 = unit := by omega
  have word : (Json.hexEscape unit).tail ++ t = codePoint 'u' :: digitChar 0 :: digitChar 0 ::
      digitChar (unit / 16 % 16) :: digitChar (unit % 16) :: t := by
    rw [Json.hexEscape, top, next]
    rfl
  rw [word, Json.scanEscape, if_pos rfl, Json.scanUnicode, Json.hexUnit]
  simp only [zero, high, low, Option.bind_eq_bind, Option.bind_some]
  rw [if_neg (by omega)]
  congr 2
  congr 1
  omega

-- `json.loads` reads an escaped character back.
theorem scanString_escape (fuel : Nat) (c : CodePoint) (t : Text) :
    Json.scanString (fuel + 1) (Json.escape false c ++ t) =
      (Json.scanString fuel t).map fun (s, rest) => (c :: s, rest) := by
  unfold Json.escape
  split_ifs with quote backslash newline back tab feed bell control ascii
  · exact scanString_backslash (by rw [quote]; rfl)
  · exact scanString_backslash (by rw [backslash]; rfl)
  · exact scanString_backslash (by rw [show c = 10 from Fin.ext newline]; rfl)
  · exact scanString_backslash (by rw [show c = 13 from Fin.ext back]; rfl)
  · exact scanString_backslash (by rw [show c = 9 from Fin.ext tab]; rfl)
  · exact scanString_backslash (by rw [show c = 12 from Fin.ext feed]; rfl)
  · exact scanString_backslash (by rw [show c = 8 from Fin.ext bell]; rfl)
  · refine scanString_backslash ((scanEscape_hexEscape control t).trans ?_)
    rw [show Fin.ofNat _ c.val = c from Fin.ext (Nat.mod_eq_of_lt c.isLt)]
  · cases ascii.symm.trans (Bool.false_and _)
  · rw [List.singleton_append, Json.scanString, if_neg quote, if_neg backslash, if_neg control]
    cases Json.scanString fuel t <;> rfl

theorem scanString_escaped (s t : Text) {fuel : Nat} (enough : s.length < fuel) :
    Json.scanString fuel (s.flatMap (Json.escape false) ++ codePoint '"' :: t) = some (s, t) := by
  induction s generalizing fuel with
  | nil =>
    obtain ⟨fuel, rfl⟩ := Nat.exists_eq_add_of_lt enough
    rw [List.flatMap_nil, List.nil_append, Json.scanString, if_pos rfl]
  | cons c s ih =>
    obtain ⟨fuel, rfl⟩ := Nat.exists_eq_add_of_lt enough
    rw [List.flatMap_cons, List.append_assoc, scanString_escape, ih (by simp only [List.length_cons]; omega)]
    rfl

theorem quote_cut {s t r r' : Text} (same : Json.quote false s ++ r = Json.quote false t ++ r') :
    s = t ∧ r = r' := by
  have body : s.flatMap (Json.escape false) ++ codePoint '"' :: r =
      t.flatMap (Json.escape false) ++ codePoint '"' :: r' := by
    simpa [Json.quote] using same
  have read := scanString_escaped s r (Nat.lt_add_of_pos_right (Nat.succ_pos t.length))
  rw [body, scanString_escaped t r' (by omega)] at read
  cases read
  exact ⟨rfl, rfl⟩

/-! ## Values -/

inductive Plain : Json → Prop
  | null : Plain .null
  | bool (b : Bool) : Plain (.bool b)
  | int (n : Int) : Plain (.int n)
  | str (s : Text) : Plain (.str s)
  | list {items : List Json} (each : ∀ x ∈ items, Plain x) : Plain (.list items)
  | dict {fields : List (Text × Json)} (each : ∀ f ∈ fields, Plain f.2) : Plain (.dict fields)

def sortFields (fields : List (Text × Json)) : List (Text × Json) := fields.insertionSort fun a b => a.1.le b.1

-- Dicts that differ in the order of their fields have one normal form.
mutual
def normal : Json → Json
  | .list items => .list (normalItems items)
  | .dict fields => .dict (sortFields (normalFields fields))
  | other => other

def normalItems : List Json → List Json
  | [] => []
  | x :: xs => normal x :: normalItems xs

def normalFields : List (Text × Json) → List (Text × Json)
  | [] => []
  | (key, value) :: rest => (key, normal value) :: normalFields rest
end

theorem normalItems_eq (items : List Json) : normalItems items = items.map normal := by
  induction items with
  | nil => rfl
  | cons x xs ih => rw [normalItems, ih, List.map_cons]

theorem normalFields_eq (fields : List (Text × Json)) :
    normalFields fields = fields.map fun f => (f.1, normal f.2) := by
  induction fields with
  | nil => rfl
  | cons f rest ih => rw [normalFields, ih, List.map_cons]

theorem dumpsItems_eq (style : Json.Style) (items : List Json) :
    Json.dumpsItems style items = items.map (Json.dumps style) := by
  induction items with
  | nil => rfl
  | cons x xs ih => rw [Json.dumpsItems, ih, List.map_cons]

theorem separated_eq (separator : Text) (parts : List Text) :
    Json.separated separator parts = separator.intercalate parts := by
  induction parts with
  | nil => rfl
  | cons first rest ih =>
    cases rest with
    | nil => simp [Json.separated, List.intercalate]
    | cons second rest =>
      rw [Json.separated, ih]
      · simp [List.intercalate]
      · simp

-- Sorting by key does not look at the values.
theorem sort_map {α : Type} (f : Json → α) (fields : List (Text × Json)) :
    (fields.map fun g => (g.1, f g.2)).insertionSort (fun a b => a.1.le b.1) =
      (sortFields fields).map fun g => (g.1, f g.2) := by
  refine (List.map_insertionSort (r := fun a b : Text × Json => a.1.le b.1) (s := fun a b : Text × α => a.1.le b.1)
    (fun g => (g.1, f g.2)) fields ?_).symm
  intro a _ b _
  exact Iff.rfl

theorem normal_dict (fields : List (Text × Json)) :
    normal (.dict fields) = .dict ((sortFields fields).map fun f => (f.1, normal f.2)) := by
  rw [normal, normalFields_eq]
  exact congrArg Json.dict (sort_map normal fields)

theorem mem_sortFields {fields : List (Text × Json)} {f : Text × Json} : f ∈ sortFields fields ↔ f ∈ fields :=
  (List.perm_insertionSort _ _).mem_iff

def fieldText (field : Text × Json) : Text :=
  Json.quote false field.1 ++ codePoint ':' :: field.2.dumps .canonical

theorem dumps_list (items : List Json) :
    (Json.list items).dumps .canonical =
      codePoint '[' :: ([codePoint ','].intercalate (items.map (Json.dumps .canonical)) ++ [codePoint ']']) := by
  rw [Json.dumps, dumpsItems_eq, separated_eq]
  rfl

theorem dumps_dict (fields : List (Text × Json)) :
    (Json.dict fields).dumps .canonical = codePoint '\x7b' ::
      ([codePoint ','].intercalate ((sortFields fields).map fieldText) ++ [codePoint '\x7d']) := by
  have sorted : Json.sortKeys (Json.dumpsFields .canonical fields) =
      (sortFields fields).map fun f => (f.1, f.2.dumps .canonical) := by
    rw [dumpsFields_eq]
    exact sort_map (Json.dumps .canonical) fields
  rw [Json.dumps, separated_eq, sorted, List.map_map]
  have words : ((fun field : Text × Text => Json.quote Json.Style.canonical.ensureAscii field.1 ++
      Json.Style.canonical.keySeparator ++ field.2) ∘ fun f : Text × Json => (f.1, f.2.dumps .canonical)) = fieldText := by
    funext f
    exact List.append_assoc _ _ _
  rw [words]
  rfl

-- The kinds of value that the first character of a text tells apart
def kind : Json → Nat
  | .null => 0
  | .bool _ => 1
  | .int _ | .float _ => 2
  | .str _ => 3
  | .list _ => 4
  | .dict _ => 5

def markKind (c : CodePoint) : Nat :=
  if c = codePoint 'n' then 0
  else if c = codePoint 't' ∨ c = codePoint 'f' then 1
  else if c = codePoint '"' then 3
  else if c = codePoint '[' then 4
  else if c = codePoint '\x7b' then 5
  else if c = codePoint ']' then 6
  else 2

theorem markKind_digit {c : CodePoint} (digit : Json.isDigit c = true) : markKind c = 2 := by
  have other : ∀ d : CodePoint, Json.isDigit d = false → c ≠ d := by
    intro d none same
    rw [same, none] at digit
    cases digit
  unfold markKind
  rw [if_neg (other _ (by decide)), if_neg (by
      rintro (same | same)
      · exact other _ (by decide) same
      · exact other _ (by decide) same),
    if_neg (other _ (by decide)), if_neg (other _ (by decide)), if_neg (other _ (by decide)),
    if_neg (other _ (by decide))]

theorem dumps_head {x : Json} (plain : Plain x) : ∃ c rest, x.dumps .canonical = c :: rest ∧ markKind c = kind x := by
  cases plain with
  | null => exact ⟨_, _, rfl, by decide⟩
  | bool b => cases b <;> exact ⟨_, _, rfl, by decide⟩
  | int n =>
    cases n with
    | ofNat n =>
      cases digits : natText n with
      | nil => exact absurd digits (natText_ne_nil n)
      | cons c rest =>
        exact ⟨c, rest, digits, markKind_digit (natText_digits n c (by simp [digits]))⟩
    | negSucc n => exact ⟨_, _, rfl, (by decide : markKind (codePoint '-') = 2)⟩
  | str s => exact ⟨_, _, rfl, (by decide : markKind (codePoint '"') = 3)⟩
  | list each => exact ⟨_, _, dumps_list _, (by decide : markKind (codePoint '[') = 4)⟩
  | dict each => exact ⟨_, _, dumps_dict _, (by decide : markKind (codePoint '\x7b') = 5)⟩

theorem kind_eq {x y : Json} {r s : Text} (plain : Plain x) (plain' : Plain y)
    (same : x.dumps .canonical ++ r = y.dumps .canonical ++ s) : kind x = kind y := by
  obtain ⟨c, rest, word, isKind⟩ := dumps_head plain
  obtain ⟨d, rest', word', isKind'⟩ := dumps_head plain'
  rw [word, word'] at same
  rw [← isKind, ← isKind', (List.cons.inj same).1]

theorem ends_of_mark (c : CodePoint) (mark : Json.isDigit c = false) (r : Text) : Ends (c :: r) := by
  intro d head
  rw [← Option.mem_some_iff.mp head]
  exact mark

theorem item_starts (x : Json) (plain : Plain x) : ∃ c ∈ (x.dumps .canonical).head?, c ≠ codePoint ']' := by
  obtain ⟨c, rest, word, isKind⟩ := dumps_head plain
  refine ⟨c, by rw [word]; rfl, ?_⟩
  intro same
  rw [same] at isKind
  have closing : markKind (codePoint ']') = 6 := by decide
  rw [closing] at isKind
  cases plain <;> cases isKind

theorem field_starts (f : Text × Json) (_plain : Plain f.2) : ∃ c ∈ (fieldText f).head?, c ≠ codePoint '\x7d' :=
  ⟨codePoint '"', rfl, by decide⟩

theorem field_cut {f : Text × Json} (cuts : Cuts Ends Plain (Json.dumps .canonical) normal f.2) :
    Cuts Ends (fun f : Text × Json => Plain f.2) fieldText (fun f => (f.1, normal f.2)) f := by
  intro g r s plain stop stop' same
  unfold fieldText at same
  rw [List.append_assoc, List.append_assoc] at same
  obtain ⟨key, after⟩ := quote_cut same
  obtain ⟨value, rest⟩ := cuts plain stop stop' (List.cons.inj after).2
  exact ⟨Prod.ext key value, rest⟩

theorem dumps_cut {x : Json} (plain : Plain x) : Cuts Ends Plain (Json.dumps .canonical) normal x := by
  induction plain with
  | null =>
    intro y r s plain' _ _ same
    have kinds := kind_eq .null plain' same
    cases plain' <;> cases kinds
    exact ⟨rfl, List.append_cancel_left same⟩
  | bool b =>
    intro y r s plain' _ _ same
    have kinds := kind_eq (.bool b) plain' same
    cases plain' <;> cases kinds
    rename_i b'
    cases b <;> cases b'
    · exact ⟨rfl, List.append_cancel_left same⟩
    · exact absurd (List.cons.inj same).1 (by decide)
    · exact absurd (List.cons.inj same).1 (by decide)
    · exact ⟨rfl, List.append_cancel_left same⟩
  | int n =>
    intro y r s plain' stop stop' same
    have kinds := kind_eq (.int n) plain' same
    cases plain' <;> cases kinds
    obtain ⟨value, rest⟩ := intText_cut stop stop' same
    exact ⟨congrArg (fun n => normal (.int n)) value, rest⟩
  | str t =>
    intro y r s plain' _ _ same
    have kinds := kind_eq (.str t) plain' same
    cases plain' <;> cases kinds
    obtain ⟨value, rest⟩ := quote_cut same
    exact ⟨congrArg (fun t => normal (.str t)) value, rest⟩
  | list each ih =>
    intro y r s plain' _ _ same
    have kinds := kind_eq (.list each) plain' same
    cases plain' <;> cases kinds
    rename_i items' each'
    rw [dumps_list, dumps_list, List.cons_append, List.cons_append, List.append_assoc, List.append_assoc] at same
    obtain ⟨values, rest⟩ := intercalate_cut (by decide) (ends_of_mark _ (by decide)) (ends_of_mark _ (by decide))
      item_starts (fun x listed => ⟨each x listed, ih x listed⟩) each' (List.cons.inj same).2
    exact ⟨by rw [normal, normal, normalItems_eq, normalItems_eq, values], rest⟩
  | dict each ih =>
    intro y r s plain' _ _ same
    have kinds := kind_eq (.dict each) plain' same
    cases plain' <;> cases kinds
    rename_i fields' each'
    rw [dumps_dict, dumps_dict, List.cons_append, List.cons_append, List.append_assoc, List.append_assoc] at same
    obtain ⟨values, rest⟩ := intercalate_cut (by decide) (ends_of_mark _ (by decide)) (ends_of_mark _ (by decide))
      field_starts (fun f listed => ⟨each f (mem_sortFields.mp listed), field_cut (ih f (mem_sortFields.mp listed))⟩)
      (fun f listed => each' f (mem_sortFields.mp listed)) (List.cons.inj same).2
    exact ⟨by rw [normal_dict, normal_dict, values], rest⟩

theorem canonicalJson_injective {x y : Json} {bytes : Bytes} (plain : Plain x) (plain' : Plain y)
    (first : canonicalJson x = .ok bytes) (second : canonicalJson y = .ok bytes) : normal x = normal y := by
  have nothing : Ends [] := fun c none => (nomatch none)
  have same := encodeUtf8_injective first second
  rw [← List.append_nil (x.dumps _), ← List.append_nil (y.dumps _)] at same
  exact (dumps_cut plain plain' nothing nothing same).1

/-! ## Records -/

theorem plain_normal {x : Json} (plain : Plain x) : Plain (normal x) := by
  induction plain with
  | null => exact .null
  | bool b => exact .bool b
  | int n => exact .int n
  | str s => exact .str s
  | list each ih =>
    rw [normal, normalItems_eq]
    apply Plain.list
    intro x listed
    obtain ⟨y, there, rfl⟩ := List.mem_map.mp listed
    exact ih y there
  | dict each ih =>
    rw [normal_dict]
    apply Plain.dict
    intro f listed
    obtain ⟨g, there, rfl⟩ := List.mem_map.mp listed
    exact ih g (mem_sortFields.mp there)

theorem pairs_eq {α β : Type} {l l' : List (α × β)} (keys : l.map Prod.fst = l'.map Prod.fst)
    (distinct : (l.map Prod.fst).Nodup) (perm : l.Perm l') : l = l' := by
  induction l generalizing l' with
  | nil => exact (List.nil_perm.mp perm).symm
  | cons p t ih =>
    cases l' with
    | nil => cases keys
    | cons p' t' =>
      obtain ⟨_, later⟩ := List.cons.inj keys
      obtain ⟨fresh, restDistinct⟩ := List.nodup_cons.mp distinct
      have head : p = p' := by
        rcases List.mem_cons.mp (perm.mem_iff.mp List.mem_cons_self) with same | among
        · exact same
        · exact absurd (later ▸ List.mem_map_of_mem among) fresh
      subst head
      rw [ih later restDistinct ((List.perm_cons p).mp perm)]

theorem fields_perm {fields fields' : List (Text × Json)} (same : normal (.dict fields) = normal (.dict fields')) :
    (fields.map fun f => (f.1, normal f.2)).Perm (fields'.map fun f => (f.1, normal f.2)) := by
  rw [normal_dict, normal_dict] at same
  have sorted := Json.dict.inj same
  have perm := (List.perm_insertionSort (fun a b : Text × Json => a.1.le b.1) fields).map fun f => (f.1, normal f.2)
  have perm' := (List.perm_insertionSort (fun a b : Text × Json => a.1.le b.1) fields').map fun f => (f.1, normal f.2)
  exact perm.symm.trans ((List.Perm.of_eq sorted).trans perm')

-- Two records with the same keys agree under each of them.
theorem record_eq {fields fields' : List (Text × Json)} (keys : fields.map Prod.fst = fields'.map Prod.fst)
    (distinct : (fields.map Prod.fst).Nodup) (same : normal (.dict fields) = normal (.dict fields')) :
    fields.map (fun f => normal f.2) = fields'.map fun f => normal f.2 := by
  have pairs : (fields.map fun f => (f.1, normal f.2)) = fields'.map fun f => (f.1, normal f.2) :=
    pairs_eq (by simpa [Function.comp_def] using keys) (by simpa [Function.comp_def] using distinct)
      (fields_perm same)
  simpa [Function.comp_def] using congrArg (List.map Prod.snd) pairs

@[simp] theorem normal_null : normal .null = .null := rfl
@[simp] theorem normal_int (n : Int) : normal (.int n) = .int n := rfl
@[simp] theorem normal_str (s : Text) : normal (.str s) = .str s := rfl

end QVault.Proof.Canonical
