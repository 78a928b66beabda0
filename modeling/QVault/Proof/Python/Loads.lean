import QVault.Proof.Python.Canonical

/-!
# `json.loads` reads canonical JSON back

What `canonical_json` writes of a value without floats is read as that value, its fields sorted. An
integer of more than 4300 digits is refused, and of two equal keys only one would be left.
-/

namespace QVault.Proof.Canonical
open QVault.Python PrefixCode Results QVault.Proof.Codecs

/-! ## Numbers -/

-- What follows a value inside a text
def Stops (rest : Text) : Prop :=
  ∀ c ∈ rest.head?, c = codePoint ',' ∨ c = codePoint ']' ∨ c = codePoint '\x7d'

theorem stops_ends {rest : Text} (stop : Stops rest) : Ends rest := by
  intro c head
  rcases stop c head with rfl | rfl | rfl <;> decide

theorem stops_nil : Stops [] := fun c none => (nomatch none)

theorem stops_cons {c : CodePoint} (mark : c = codePoint ',' ∨ c = codePoint ']' ∨ c = codePoint '\x7d') (rest : Text) :
    Stops (c :: rest) := by
  intro d head
  rwa [← Option.mem_some_iff.mp head]

theorem scanFraction_stops {rest : Text} (stop : Stops rest) : Json.scanFraction rest = none := by
  cases rest with
  | nil => rfl
  | cons c rest =>
    have other : c ≠ codePoint '.' := by
      rcases stop c rfl with rfl | rfl | rfl <;> decide
    rw [Json.scanFraction, if_neg fun both => other both.1]

theorem scanExponent_stops {rest : Text} (stop : Stops rest) : Json.scanExponent rest = none := by
  cases rest with
  | nil => rfl
  | cons c rest =>
    have other : ¬ (c = codePoint 'e' ∨ c = codePoint 'E') := by
      rcases stop c rfl with rfl | rfl | rfl <;> decide
    simp only [Json.scanExponent, if_neg other]

theorem natText_leading {n : Nat} (positive : n ≠ 0) : (natText n).head? ≠ some (codePoint '0') := by
  unfold natText
  rw [if_neg positive, List.head?_map, List.head?_reverse]
  intro zero
  obtain ⟨d, last, char⟩ := Option.map_eq_some_iff.mp zero
  have nonempty : Nat.digits 10 n ≠ [] := Nat.digits_ne_nil_iff_ne_zero.mpr positive
  have leading := Nat.getLast_digit_ne_zero 10 positive
  rw [List.getLast?_eq_some_getLast nonempty, Option.some.injEq] at last
  have small : d < 16 := lt_trans (Nat.digits_lt_base (by decide) (last ▸ List.getLast_mem nonempty)) (by decide)
  have value := digitChar_val small
  rw [char] at value
  have zero : (codePoint '0').val = 48 := by decide
  rw [zero] at value
  split_ifs at value
  · exact leading (last.trans (by omega))
  · omega

theorem wholeDigits_natText (n : Nat) {rest : Text} (stop : Ends rest) :
    Json.wholeDigits (natText n ++ rest) = some (natText n, rest) := by
  have digits := natText_digits n
  have leading := natText_leading (n := n)
  cases word : natText n with
  | nil => exact absurd word (natText_ne_nil n)
  | cons c more =>
    rw [word] at digits leading
    rw [List.cons_append, Json.wholeDigits]
    by_cases zero : c = codePoint '0'
    · have isZero : n = 0 := by
        by_contra positive
        exact leading positive (by rw [zero]; rfl)
      rw [if_pos zero]
      rw [isZero] at word
      have single : [digitChar 0] = c :: more := word
      rw [← (List.cons.inj single).2]
      rfl
    · have run : ∀ d ∈ more, Json.isDigit d = true := fun d listed => digits d (List.mem_cons_of_mem _ listed)
      rw [if_neg zero, if_pos (digits c List.mem_cons_self), List.takeWhile_append_of_pos run,
        List.dropWhile_append_of_pos run]
      cases rest with
      | nil => simp
      | cons d rest => simp [stop d rfl]

theorem scanNumber_natText (negative : Bool) {n : Nat} (short : (natText n).length ≤ Json.maxStrDigits) {rest : Text}
    (stop : Stops rest) :
    Json.scanNumber negative (natText n ++ rest) = some (.int (if negative then -(n : Int) else n), rest) := by
  rw [Json.scanNumber, wholeDigits_natText n (stops_ends stop)]
  simp only [Option.bind_eq_bind, Option.bind_some, scanFraction_stops stop, Option.map_none, Option.getD_none,
    scanExponent_stops stop, Option.isNone_none, and_self, if_true, if_neg (not_lt.mpr short), digitsValue_natText]

/-! ## Values -/

inductive Readable : Json → Prop
  | null : Readable .null
  | bool (b : Bool) : Readable (.bool b)
  | int {n : Int} (short : (natText n.natAbs).length ≤ Json.maxStrDigits) : Readable (.int n)
  | str (s : Text) : Readable (.str s)
  | list {items : List Json} (each : ∀ x ∈ items, Readable x) : Readable (.list items)
  | dict {fields : List (Text × Json)} (distinct : (fields.map Prod.fst).Nodup) (each : ∀ f ∈ fields, Readable f.2) :
    Readable (.dict fields)

theorem Readable.plain {x : Json} (readable : Readable x) : Plain x := by
  induction readable with
  | null => exact .null
  | bool b => exact .bool b
  | int _ => exact .int _
  | str s => exact .str s
  | list _ ih => exact .list ih
  | dict _ _ ih => exact .dict ih

theorem dumps_first {x : Json} (plain : Plain x) :
    ∃ c rest, x.dumps .canonical = c :: rest ∧ Json.isJsonSpace c = false ∧ c ≠ Json.byteOrderMark := by
  have digit {c : CodePoint} (isDigit : Json.isDigit c = true) :
      Json.isJsonSpace c = false ∧ c ≠ Json.byteOrderMark := by
    refine ⟨?_, fun same => ?_⟩
    · simp only [Json.isDigit, Bool.and_eq_true, decide_eq_true_eq] at isDigit
      simp only [Json.isJsonSpace, Bool.or_eq_false_iff, beq_eq_false_iff_ne]
      omega
    · rw [same] at isDigit
      exact absurd isDigit (by decide)
  cases plain with
  | null => exact ⟨_, _, rfl, by decide⟩
  | bool b => cases b <;> exact ⟨_, _, rfl, by decide⟩
  | int n =>
    cases n with
    | ofNat n =>
      cases digits : natText n with
      | nil => exact absurd digits (natText_ne_nil n)
      | cons c rest => exact ⟨c, rest, digits, digit (natText_digits n c (by simp [digits]))⟩
    | negSucc n => exact ⟨codePoint '-', _, rfl, by decide⟩
  | str s => exact ⟨codePoint '"', _, rfl, by decide⟩
  | list each => exact ⟨_, _, dumps_list _, by decide⟩
  | dict each => exact ⟨_, _, dumps_dict _, by decide⟩

theorem skipSpace_cons {c : CodePoint} (mark : Json.isJsonSpace c = false) (rest : Text) :
    Json.skipSpace (c :: rest) = c :: rest := by
  rw [Json.skipSpace, List.dropWhile_cons_of_neg (by simp [mark])]

theorem skipSpace_dumps {x : Json} (plain : Plain x) (rest : Text) :
    Json.skipSpace (x.dumps .canonical ++ rest) = x.dumps .canonical ++ rest := by
  obtain ⟨c, more, word, mark, _⟩ := dumps_first plain
  rw [word, List.cons_append, skipSpace_cons mark]

-- A value is read up to what stops it, given more fuel than it is long.
def Reads (x : Json) : Prop :=
  ∀ fuel rest, (x.dumps .canonical).length < fuel → Stops rest →
    Json.scanValue fuel (x.dumps .canonical ++ rest) = some (normal x, rest)

theorem scanItems_dumps {items : List Json} (nonempty : items ≠ []) (each : ∀ x ∈ items, Plain x ∧ Reads x)
    (fuel : Nat) (rest : Text)
    (enough : ([codePoint ','].intercalate (items.map (Json.dumps .canonical))).length + 2 ≤ fuel) :
    Json.scanItems fuel ([codePoint ','].intercalate (items.map (Json.dumps .canonical)) ++ codePoint ']' :: rest) =
      some (items.map normal, rest) := by
  induction items generalizing fuel with
  | nil => exact absurd rfl nonempty
  | cons x xs ih =>
    obtain ⟨plain, reads⟩ := each x List.mem_cons_self
    obtain ⟨after, cut, form⟩ := intercalate_cons (codePoint ',') (codePoint ']') (Json.dumps .canonical) x xs rest
    have lengths := congrArg List.length cut
    simp only [List.length_append, List.length_cons] at lengths
    obtain ⟨fuel, rfl⟩ : ∃ f, fuel = f + 1 := ⟨fuel - 1, by omega⟩
    have stop : Stops after := by
      rcases form with ⟨_, rfl⟩ | ⟨_, rfl⟩
      · exact stops_cons (.inr (.inl rfl)) _
      · exact stops_cons (.inl rfl) _
    have longer : rest.length + 1 ≤ after.length := by
      rcases form with ⟨_, rfl⟩ | ⟨_, rfl⟩ <;> simp only [List.length_cons, List.length_append] <;> omega
    rw [cut, Json.scanItems, reads fuel after (by omega) stop]
    simp only [Option.bind_eq_bind, Option.bind_some]
    rcases form with ⟨rfl, rfl⟩ | ⟨more, rfl⟩
    · rw [skipSpace_cons (by decide)]
      simp
    · obtain ⟨y, ys, rfl⟩ := List.exists_cons_of_ne_nil more
      have next := ih more (fun z listed => each z (List.mem_cons_of_mem _ listed)) fuel
        (by simp only [List.length_cons, List.length_append] at lengths; omega)
      have unspaced : Json.skipSpace ([codePoint ','].intercalate ((y :: ys).map (Json.dumps .canonical)) ++
          codePoint ']' :: rest) = [codePoint ','].intercalate ((y :: ys).map (Json.dumps .canonical)) ++
          codePoint ']' :: rest := by
        obtain ⟨after', cut', _⟩ := intercalate_cons (codePoint ',') (codePoint ']') (Json.dumps .canonical) y ys rest
        rw [cut', skipSpace_dumps (each y (List.mem_cons_of_mem _ List.mem_cons_self)).1]
      rw [skipSpace_cons (by decide)]
      simp only [unspaced, next, Option.bind_some]
      rw [if_neg (by decide)]
      rfl

theorem setItem_new {key : Text} (value : Json) {read : List (Text × Json)} (new : key ∉ read.map Prod.fst) :
    Json.setItem key value read = read ++ [(key, value)] := by
  induction read with
  | nil => rfl
  | cons f rest ih =>
    obtain ⟨k, v⟩ := f
    simp only [List.map_cons, List.mem_cons, not_or] at new
    rw [Json.setItem, if_neg (Ne.symm new.1), ih new.2]
    rfl

theorem escaped_length (s : Text) : s.length ≤ (s.flatMap (Json.escape false)).length := by
  induction s with
  | nil => simp
  | cons c rest ih =>
    have one : 1 ≤ (Json.escape false c).length := by
      unfold Json.escape
      split_ifs with quote backslash newline back tab feed bell control ascii
      all_goals try decide
      · rw [Json.hexEscape, List.length_append]
        exact Nat.le_add_left_of_le (by simp)
      · cases ascii.symm.trans (Bool.false_and _)
      · exact le_rfl
    rw [List.length_cons, List.flatMap_cons, List.length_append]
    omega

theorem scanFields_dumps {fields : List (Text × Json)} (nonempty : fields ≠ [])
    (each : ∀ f ∈ fields, Plain f.2 ∧ Reads f.2) (read : List (Text × Json))
    (distinct : (read.map Prod.fst ++ fields.map Prod.fst).Nodup) (fuel : Nat) (rest : Text)
    (enough : ([codePoint ','].intercalate (fields.map fieldText)).length + 2 ≤ fuel) :
    Json.scanFields fuel ([codePoint ','].intercalate (fields.map fieldText) ++ codePoint '\x7d' :: rest) read =
      some (read ++ fields.map (fun f => (f.1, normal f.2)), rest) := by
  induction fields generalizing fuel read with
  | nil => exact absurd rfl nonempty
  | cons f fs ih =>
    obtain ⟨plain, reads⟩ := each f List.mem_cons_self
    obtain ⟨after, cut, form⟩ := intercalate_cons (codePoint ',') (codePoint '\x7d') fieldText f fs rest
    have lengths := congrArg List.length cut
    have word : fieldText f ++ after = codePoint '"' :: (f.1.flatMap (Json.escape false) ++
        codePoint '"' :: codePoint ':' :: (f.2.dumps .canonical ++ after)) := by
      simp [fieldText, Json.quote]
    have keyShort := escaped_length f.1
    have wordLength := congrArg List.length word
    simp only [List.length_append, List.length_cons] at lengths wordLength
    have stop : Stops after := by
      rcases form with ⟨_, rfl⟩ | ⟨_, rfl⟩
      · exact stops_cons (.inr (.inr rfl)) _
      · exact stops_cons (.inl rfl) _
    have longer : rest.length + 1 ≤ after.length := by
      rcases form with ⟨_, rfl⟩ | ⟨_, rfl⟩ <;> simp only [List.length_cons, List.length_append] <;> omega
    obtain ⟨fuel, rfl⟩ : ∃ g, fuel = g + 1 := ⟨fuel - 1, by omega⟩
    have new : f.1 ∉ read.map Prod.fst := by
      intro old
      exact (List.nodup_append.mp distinct).2.2 f.1 old f.1 List.mem_cons_self rfl
    have colon : Json.dropPrefix ":" (Json.skipSpace (codePoint ':' :: (f.2.dumps .canonical ++ after))) =
        some (f.2.dumps .canonical ++ after) := by
      rw [skipSpace_cons (by decide)]
      rfl
    rw [cut, word, Json.scanFields, if_pos rfl, scanString_escaped _ _ (by omega)]
    simp only [Option.bind_eq_bind, Option.bind_some, colon, skipSpace_dumps plain]
    rw [reads fuel after (by omega) stop]
    simp only [Option.bind_some]
    rw [setItem_new _ new]
    rcases form with ⟨rfl, rfl⟩ | ⟨more, rfl⟩
    · rw [skipSpace_cons (by decide)]
      rfl
    · obtain ⟨g, gs, rfl⟩ := List.exists_cons_of_ne_nil more
      have distinct' : ((read ++ [(f.1, normal f.2)]).map Prod.fst ++ (g :: gs).map Prod.fst).Nodup := by
        simpa using distinct
      have next := ih more (fun z listed => each z (List.mem_cons_of_mem _ listed)) (read ++ [(f.1, normal f.2)])
        distinct' fuel (by simp only [List.length_cons, List.length_append] at lengths; omega)
      have unspaced : Json.skipSpace ([codePoint ','].intercalate ((g :: gs).map fieldText) ++
          codePoint '\x7d' :: rest) = [codePoint ','].intercalate ((g :: gs).map fieldText) ++
          codePoint '\x7d' :: rest := by
        obtain ⟨after', cut', _⟩ := intercalate_cons (codePoint ',') (codePoint '\x7d') fieldText g gs rest
        rw [cut', show fieldText g ++ after' = codePoint '"' :: _ from rfl, skipSpace_cons (by decide)]
      rw [skipSpace_cons (by decide)]
      simp only [unspaced, next]
      rw [if_neg (by decide)]
      simp

theorem reads_dumps {x : Json} (readable : Readable x) : Reads x := by
  induction readable with
  | null =>
    intro fuel rest enough stop
    obtain ⟨fuel, rfl⟩ : ∃ g, fuel = g + 1 := ⟨fuel - 1, by omega⟩
    rfl
  | bool b =>
    intro fuel rest enough stop
    obtain ⟨fuel, rfl⟩ : ∃ g, fuel = g + 1 := ⟨fuel - 1, by omega⟩
    cases b <;> rfl
  | @int n short =>
    intro fuel rest enough stop
    obtain ⟨fuel, rfl⟩ : ∃ g, fuel = g + 1 := ⟨fuel - 1, by omega⟩
    cases n with
    | ofNat n =>
      have shortText : (natText n).length ≤ Json.maxStrDigits := short
      have number := scanNumber_natText false shortText stop
      have digits := natText_digits n
      cases word : natText n with
      | nil => exact absurd word (natText_ne_nil n)
      | cons c more =>
        have isDigit := digits c (by simp [word])
        have other : ∀ d : CodePoint, Json.isDigit d = false → c ≠ d := by
          intro d none same
          rw [same, none] at isDigit
          cases isDigit
        have shown : (Json.int (Int.ofNat n)).dumps .canonical = c :: more := by rw [← word]; rfl
        rw [word] at number
        rw [shown, List.cons_append, Json.scanValue, if_neg (other _ (by decide)), if_neg (other _ (by decide)),
          if_neg (other _ (by decide)), Json.scanAtom, if_neg (other _ (by decide)), if_neg (other _ (by decide)),
          if_neg (other _ (by decide)), if_neg (other _ (by decide)), if_neg (other _ (by decide)),
          if_neg (other _ (by decide))]
        exact number
    | negSucc n =>
      have shortText : (natText (n + 1)).length ≤ Json.maxStrDigits := short
      have number := scanNumber_natText true shortText stop
      have shown : (Json.int (Int.negSucc n)).dumps .canonical = codePoint '-' :: natText (n + 1) := rfl
      have finite : Json.dropPrefix "Infinity" (natText (n + 1) ++ rest) = none := by
        have digits := natText_digits (n + 1)
        cases word : natText (n + 1) with
        | nil => exact absurd word (natText_ne_nil _)
        | cons c more =>
          have isDigit := digits c (by simp [word])
          have other : codePoint 'I' ≠ c := by
            rintro rfl
            exact absurd isDigit (by decide)
          exact if_neg other
      rw [shown, List.cons_append, Json.scanValue, if_neg (by decide), if_neg (by decide), if_neg (by decide),
        Json.scanAtom, if_neg (by decide), if_neg (by decide), if_neg (by decide), if_neg (by decide),
        if_neg (by decide), if_pos rfl, finite]
      exact number
  | str s =>
    intro fuel rest enough stop
    have short := escaped_length s
    obtain ⟨fuel, rfl⟩ : ∃ g, fuel = g + 1 := ⟨fuel - 1, by omega⟩
    have word : (Json.str s).dumps .canonical ++ rest =
        codePoint '"' :: (s.flatMap (Json.escape false) ++ codePoint '"' :: rest) := by
      simp [Json.dumps, Json.quote, Json.Style.canonical]
    have length := congrArg List.length word
    simp only [List.length_append, List.length_cons] at length
    rw [word, Json.scanValue, if_pos rfl, scanString_escaped _ _ (by omega)]
    rfl
  | list each ih =>
    rename_i items
    intro fuel rest enough stop
    obtain ⟨fuel, rfl⟩ : ∃ g, fuel = g + 1 := ⟨fuel - 1, by omega⟩
    rw [dumps_list] at enough ⊢
    simp only [List.length_cons, List.length_append, List.length_nil] at enough
    rw [List.cons_append, Json.scanValue, if_neg (by decide), if_neg (by decide), if_pos rfl, List.append_assoc,
      List.singleton_append]
    cases items with
    | nil => rfl
    | cons x xs =>
      have whole := scanItems_dumps (List.cons_ne_nil x xs) (fun y listed => ⟨(each y listed).plain, ih y listed⟩) fuel
        rest (by omega)
      obtain ⟨after, cut, _⟩ := intercalate_cons (codePoint ',') (codePoint ']') (Json.dumps .canonical) x xs rest
      obtain ⟨c, more, word, unspaced, _⟩ := dumps_first (each x List.mem_cons_self).plain
      have open' : c ≠ codePoint ']' := by
        obtain ⟨d, head, other⟩ := item_starts x (each x List.mem_cons_self).plain
        rw [word] at head
        rwa [← Option.some.inj head] at other
      rw [cut, word, List.cons_append] at whole ⊢
      rw [skipSpace_cons unspaced]
      simp only [if_neg open', whole, Option.map_some, normal, normalItems_eq]
  | @dict fields distinct each ih =>
    intro fuel rest enough stop
    obtain ⟨fuel, rfl⟩ : ∃ g, fuel = g + 1 := ⟨fuel - 1, by omega⟩
    have sorted : ((sortFields fields).map Prod.fst).Nodup :=
      ((List.perm_insertionSort _ fields).map Prod.fst).nodup_iff.mpr distinct
    rw [dumps_dict] at enough ⊢
    simp only [List.length_cons, List.length_append, List.length_nil] at enough
    rw [List.cons_append, Json.scanValue, if_neg (by decide), if_pos rfl, List.append_assoc, List.singleton_append,
      normal_dict]
    cases order : sortFields fields with
    | nil => rfl
    | cons f fs =>
      have among : ∀ g ∈ f :: fs, g ∈ fields := fun g listed => mem_sortFields.mp (order ▸ listed)
      rw [order] at enough sorted
      have whole := scanFields_dumps (List.cons_ne_nil f fs)
        (fun g listed => ⟨(each g (among g listed)).plain, ih g (among g listed)⟩) [] (by simpa using sorted) fuel rest
        (by omega)
      obtain ⟨after, cut, _⟩ := intercalate_cons (codePoint ',') (codePoint '\x7d') fieldText f fs rest
      have first : fieldText f ++ after = codePoint '"' :: (fieldText f ++ after).tail := rfl
      rw [cut, first] at whole ⊢
      rw [skipSpace_cons (by decide)]
      simp only [if_neg (by decide : codePoint '"' ≠ codePoint '\x7d'), whole, Option.map_some, List.nil_append]

/-- `json.loads` of what `canonical_json` writes. -/
theorem loads_dumps {x : Json} (readable : Readable x) : Json.loads (x.dumps .canonical) = .ok (normal x) := by
  obtain ⟨c, more, word, unspaced, notMark⟩ := dumps_first readable.plain
  have read := reads_dumps readable ((x.dumps .canonical).length + 1) [] (by omega) stops_nil
  rw [List.append_nil] at read
  have unmarked : (x.dumps .canonical).head? ≠ some Json.byteOrderMark := by
    rw [word]
    exact fun same => notMark (Option.some.inj same)
  have spaces : Json.skipSpace (x.dumps .canonical) = x.dumps .canonical := by rw [word, skipSpace_cons unspaced]
  rw [Json.loads, if_neg unmarked, spaces, read]
  rfl

/-! ## A dict of words and ints in the standard style -/

-- A character that either style writes as it is
def Bare (c : CodePoint) : Prop := 32 ≤ c.val ∧ c.val < 127 ∧ c ≠ codePoint '"' ∧ c ≠ codePoint '\\'

theorem escape_bare {c : CodePoint} (bare : Bare c) (ensureAscii : Bool) : Json.escape ensureAscii c = [c] := by
  obtain ⟨low, high, quote, backslash⟩ := bare
  unfold Json.escape
  rw [if_neg quote, if_neg backslash, if_neg (by omega), if_neg (by omega), if_neg (by omega), if_neg (by omega),
    if_neg (by omega), if_neg (by omega), if_neg]
  simp only [Bool.and_eq_true, decide_eq_true_eq, not_and]
  omega

theorem quote_bare {s : Text} (bare : ∀ c ∈ s, Bare c) : Json.quote true s = Json.quote false s := by
  have same : s.flatMap (Json.escape true) = s.flatMap (Json.escape false) :=
    List.flatMap_congr fun c listed => by rw [escape_bare (bare c listed), escape_bare (bare c listed)]
  rw [Json.quote, Json.quote, same]

def spacedField (field : Text × Json) : Text := Json.quote true field.1 ++ text ": " ++ field.2.dumps .standard

theorem dumps_spaced (fields : List (Text × Json)) :
    (Json.dict fields).dumps .standard = codePoint '\x7b' ::
      (Json.separated ", " ((sortFields fields).map spacedField) ++ [codePoint '\x7d']) := by
  have sorted : Json.sortKeys (Json.dumpsFields .standard fields) =
      (sortFields fields).map fun f => (f.1, f.2.dumps .standard) := by
    rw [dumpsFields_eq]
    exact sort_map (Json.dumps .standard) fields
  rw [Json.dumps, sorted, List.map_map]
  rfl

-- A word and an int that `json.loads` reads
def Flat (field : Text × Json) : Prop :=
  (∀ c ∈ field.1, Bare c) ∧ ∃ n : Int, field.2 = .int n ∧ (natText n.natAbs).length ≤ Json.maxStrDigits

theorem scanField_spaced {field : Text × Json} (flat : Flat field) {fuel : Nat} {after : Text} (stop : Stops after)
    (enough : (spacedField field).length ≤ fuel) (read : List (Text × Json)) :
    Json.scanFields (fuel + 1) (spacedField field ++ after) read =
      match Json.skipSpace after with
      | [] => none
      | c :: rest =>
        if c = codePoint '\x7d' then some (Json.setItem field.1 field.2 read, rest)
        else if c = codePoint ',' then
          Json.scanFields fuel (Json.skipSpace rest) (Json.setItem field.1 field.2 read)
        else none := by
  obtain ⟨key, value⟩ := field
  obtain ⟨bare, n, rfl, short⟩ := flat
  simp only at bare
  have keyShort := escaped_length key
  have word : spacedField (key, .int n) ++ after = codePoint '"' :: (key.flatMap (Json.escape false) ++
      codePoint '"' :: codePoint ':' :: codePoint ' ' :: ((Json.int n).dumps .canonical ++ after)) := by
    rw [spacedField, quote_bare bare]
    simp [Json.quote, Json.dumps, text]
  have lengths := congrArg List.length word
  simp only [List.length_append, List.length_cons] at lengths
  have colon (t : Text) : Json.dropPrefix ":" (Json.skipSpace (codePoint ':' :: t)) = some t := by
    rw [skipSpace_cons (by decide)]
    rfl
  have blank (t : Text) : Json.skipSpace (codePoint ' ' :: t) = Json.skipSpace t :=
    List.dropWhile_cons_of_pos (by decide)
  rw [word, Json.scanFields, if_pos rfl, scanString_escaped _ _ (by omega)]
  simp only [Option.bind_eq_bind, Option.bind_some, colon, blank, skipSpace_dumps (.int n)]
  rw [reads_dumps (.int short) fuel after (by omega) stop]
  rfl

theorem scanFields_spaced {fields : List (Text × Json)} (nonempty : fields ≠ []) (flat : ∀ f ∈ fields, Flat f)
    (read : List (Text × Json)) (distinct : (read.map Prod.fst ++ fields.map Prod.fst).Nodup) (fuel : Nat)
    (enough : (Json.separated ", " (fields.map spacedField)).length < fuel) :
    Json.scanFields fuel (Json.separated ", " (fields.map spacedField) ++ [codePoint '\x7d']) read =
      some (read ++ fields, []) := by
  induction fields generalizing fuel read with
  | nil => exact absurd rfl nonempty
  | cons f fs ih =>
    obtain ⟨fuel, rfl⟩ : ∃ g, fuel = g + 1 := ⟨fuel - 1, by omega⟩
    have new : f.1 ∉ read.map Prod.fst := by
      intro old
      exact (List.nodup_append.mp distinct).2.2 f.1 old f.1 List.mem_cons_self rfl
    have here := flat f List.mem_cons_self
    cases fs with
    | nil =>
      simp only [List.map_cons, List.map_nil, Json.separated] at enough ⊢
      rw [scanField_spaced here (stops_cons (.inr (.inr rfl)) _) (by omega), skipSpace_cons (by decide), setItem_new _ new]
      rfl
    | cons g gs =>
      have word : Json.separated ", " ((f :: g :: gs).map spacedField) ++ [codePoint '\x7d'] =
          spacedField f ++ codePoint ',' :: codePoint ' ' ::
            (Json.separated ", " ((g :: gs).map spacedField) ++ [codePoint '\x7d']) := by
        simp [Json.separated, text]
      have length := congrArg List.length word
      simp only [List.length_append, List.length_cons, List.length_nil] at length
      have unspaced : Json.skipSpace (codePoint ' ' :: (Json.separated ", " ((g :: gs).map spacedField) ++
          [codePoint '\x7d'])) = Json.separated ", " ((g :: gs).map spacedField) ++ [codePoint '\x7d'] := by
        have first : ∃ t, Json.separated ", " ((g :: gs).map spacedField) = codePoint '"' :: t := by
          cases gs with
          | nil => exact ⟨_, rfl⟩
          | cons k ks => exact ⟨_, rfl⟩
        obtain ⟨t, first⟩ := first
        rw [first, List.cons_append]
        exact (List.dropWhile_cons_of_pos (by decide)).trans (skipSpace_cons (by decide) _)
      rw [word, scanField_spaced here (stops_cons (.inl rfl) _) (by omega), skipSpace_cons (by decide), setItem_new _ new]
      simp only [unspaced]
      rw [if_neg (by decide), if_pos trivial, ih (by simp) (fun k listed => flat k (List.mem_cons_of_mem _ listed)) _
        (by simpa using distinct) fuel (by omega)]
      simp

/-- `json.loads` of what `json.dumps` writes of such a dict. -/
theorem loads_spaced {fields : List (Text × Json)} (distinct : (fields.map Prod.fst).Nodup) (flat : ∀ f ∈ fields, Flat f) :
    Json.loads ((Json.dict fields).dumps .standard) = .ok (.dict (sortFields fields)) := by
  have sorted : ((sortFields fields).map Prod.fst).Nodup :=
    ((List.perm_insertionSort _ fields).map Prod.fst).nodup_iff.mpr distinct
  have flat' : ∀ f ∈ sortFields fields, Flat f := fun f listed => flat f (mem_sortFields.mp listed)
  rw [dumps_spaced, Json.loads, List.head?_cons, if_neg (fun same => absurd (Option.some.inj same) (by decide)),
    skipSpace_cons (by decide)]
  cases order : sortFields fields with
  | nil => rfl
  | cons f fs =>
    rw [order] at sorted flat'
    have first : ∃ t, Json.separated ", " ((f :: fs).map spacedField) ++ [codePoint '\x7d'] = codePoint '"' :: t := by
      cases fs with
      | nil => exact ⟨_, rfl⟩
      | cons g gs => exact ⟨_, rfl⟩
    obtain ⟨t, first⟩ := first
    have whole := scanFields_spaced (List.cons_ne_nil f fs) flat' [] (by simpa using sorted)
      ((codePoint '\x7b' :: (Json.separated ", " ((f :: fs).map spacedField) ++ [codePoint '\x7d'])).length)
      (by simp only [List.length_cons, List.length_append, List.length_nil]; omega)
    rw [first] at whole ⊢
    rw [Json.scanValue, if_neg (by decide), if_pos rfl, skipSpace_cons (by decide)]
    simp only [if_neg (by decide : codePoint '"' ≠ codePoint '\x7d'), whole, Option.map_some, List.nil_append]
    rfl

end QVault.Proof.Canonical
