import QVault.Services.DecisionTypes
import QVault.Proof.Chain.SignedAction

/-!
# Normalising typed fields

What `normalise` returns is accepted, what is accepted comes back, and only a time that its offset takes out
of the calendar makes it raise anything but FieldsError.
-/

namespace QVault.Proof.DecisionTypes
open QVault.Python QVault.Python.Json QVault.DecisionTypes QVault.Proof.Chain

/-! ## Stripping -/

theorem strip_trimmed {t : Text} (first : ∀ c ∈ t.head?, isWhitespace c = false)
    (last : ∀ c ∈ t.getLast?, isWhitespace c = false) : strip t = t := by
  have leading : ∀ s : Text, (∀ c ∈ s.head?, isWhitespace c = false) → s.dropWhile isWhitespace = s := by
    intro s first
    cases s with
    | nil => rfl
    | cons c rest => rw [List.dropWhile_cons_of_neg (by simp [first c rfl])]
  have trailing : ∀ c ∈ t.reverse.head?, isWhitespace c = false := by
    rw [List.head?_reverse]
    exact last
  unfold strip
  rw [leading t first, leading _ trailing, List.reverse_reverse]

theorem whitespace_val {c : CodePoint} (blank : isWhitespace c = true) :
    lineBreaks.contains c.val = true ∨ DecisionTypes.hidden c.val = true ∨ otherSpace c.val = true ∨ c.val = 32 := by
  simp only [isWhitespace, Bool.or_eq_true, Bool.and_eq_true, decide_eq_true_eq, beq_iff_eq] at blank
  by_cases control : c.val ≤ 0x1F ∨ c.val = 0x85
  · right
    left
    simp only [DecisionTypes.hidden, hiddenRanges, List.any_cons, Bool.or_eq_true, Bool.and_eq_true, decide_eq_true_eq]
    omega
  · by_cases separator : c.val = 0x2028 ∨ c.val = 0x2029
    · left
      rcases separator with value | value <;> rw [value] <;> decide
    · right
      right
      by_cases space : c.val = 32
      · exact .inr space
      · left
        simp only [otherSpace, List.contains_cons, List.contains_nil, Bool.or_eq_true, Bool.and_eq_true, decide_eq_true_eq,
          beq_iff_eq]
        omega

theorem characterProblem_mem {after : Bool} {t : Text} (clean : characterProblem after t = none) {c : CodePoint} (listed : c ∈ t) :
    lineBreaks.contains c.val = false ∧ DecisionTypes.hidden c.val = false ∧ otherSpace c.val = false := by
  induction t generalizing after with
  | nil => cases listed
  | cons d rest ih =>
    unfold characterProblem at clean
    split_ifs at clean with breaks hides spaces quotes
    rcases List.mem_cons.mp listed with rfl | later
    · exact ⟨Bool.not_eq_true _ ▸ breaks, Bool.not_eq_true _ ▸ hides, Bool.not_eq_true _ ▸ spaces⟩
    · exact ih clean later

theorem strip_text {value : Text} {maxLen : Nat} {labels : List Text} (clean : textProblem value maxLen labels = none) :
    strip value = value := by
  unfold textProblem at clean
  split at clean
  · cases clean
  · rename_i characters
    split_ifs at clean with ends
    push Not at ends
    have visible : ∀ c ∈ value, c ≠ codePoint ' ' → isWhitespace c = false := by
      intro c listed other
      obtain ⟨breaks, hides, spaces⟩ := characterProblem_mem characters listed
      cases blank : isWhitespace c with
      | false => rfl
      | true =>
        rcases whitespace_val blank with bad | bad | bad | bad
        · rw [breaks] at bad; cases bad
        · rw [hides] at bad; cases bad
        · rw [spaces] at bad; cases bad
        · exact absurd (Fin.ext bad) other
    refine strip_trimmed (fun c head => visible c (List.mem_of_head? head) ?_) fun c last => visible c (List.mem_of_getLast? last) ?_
    · rintro rfl
      exact ends.1 head
    · rintro rfl
      exact ends.2.1 last

theorem digit_val {c : CodePoint} (digit : isDigit c = true) : 48 ≤ c.val ∧ c.val ≤ 57 := by simpa [isDigit] using digit

theorem upper_val {c : CodePoint} (upper : isUpper c = true) : 65 ≤ c.val ∧ c.val ≤ 90 := by simpa [isUpper] using upper

-- No white space stands among the printed characters of ASCII.
theorem solid {c : CodePoint} (low : 33 ≤ c.val) (high : c.val < 128) : isWhitespace c = false := by
  simp only [isWhitespace, Bool.or_eq_false_iff, Bool.and_eq_false_iff, decide_eq_false_iff_not, beq_eq_false_iff_ne]
  omega

theorem strip_solid {t : Text} (low : ∀ c ∈ t, 33 ≤ c.val) (high : ∀ c ∈ t, c.val < 128) : strip t = t :=
  strip_trimmed (fun c head => solid (low c (List.mem_of_head? head)) (high c (List.mem_of_head? head)))
    fun c last => solid (low c (List.mem_of_getLast? last)) (high c (List.mem_of_getLast? last))

/-! ## Shapes -/

theorem fits_digit {pattern t : Text} : fits (codePoint '0' :: pattern) t = true ↔
    ∃ c rest, t = c :: rest ∧ isDigit c = true ∧ fits pattern rest = true := by
  cases t with
  | nil => simp [fits]
  | cons c rest => simp [fits]

theorem fits_mark {p : CodePoint} (mark : p ≠ codePoint '0') {pattern t : Text} : fits (p :: pattern) t = true ↔
    ∃ rest, t = p :: rest ∧ fits pattern rest = true := by
  cases t with
  | nil => simp [fits]
  | cons c rest => simp [fits, mark]

theorem fits_nil {t : Text} : fits [] t = true ↔ t = [] := by
  cases t <;> simp [fits]

theorem fits_date {t : Text} (shape : fits (text "0000-00-00") t = true) :
    ∃ a b c d e f g h, (∀ x ∈ [a, b, c, d, e, f, g, h], isDigit x = true) ∧
      t = [a, b, c, d, codePoint '-', e, f, codePoint '-', g, h] := by
  have pattern : text "0000-00-00" = [codePoint '0', codePoint '0', codePoint '0', codePoint '0', codePoint '-', codePoint '0',
      codePoint '0', codePoint '-', codePoint '0', codePoint '0'] := by rfl
  have mark : codePoint '-' ≠ codePoint '0' := by decide
  rw [pattern] at shape
  simp only [fits_digit, fits_mark mark, fits_nil] at shape
  obtain ⟨a, _, rfl, ha, b, _, rfl, hb, c, _, rfl, hc, d, _, rfl, hd, _, rfl, e, _, rfl, he, f, _, rfl, hf, _, rfl, g, _, rfl, hg,
    h, _, rfl, hh, rfl⟩ := shape
  exact ⟨a, b, c, d, e, f, g, h, by simp [ha, hb, hc, hd, he, hf, hg, hh], rfl⟩

theorem fits_append {first second t : Text} : fits (first ++ second) t = true →
    ∃ u v, t = u ++ v ∧ fits first u = true ∧ fits second v = true := by
  induction first generalizing t with
  | nil => exact fun shape => ⟨[], t, rfl, rfl, shape⟩
  | cons p rest ih =>
    cases t with
    | nil => exact fun shape => absurd shape (by simp [fits])
    | cons c tail =>
      intro shape
      rw [List.cons_append, fits, Bool.and_eq_true] at shape
      obtain ⟨u, v, rfl, fit, fit'⟩ := ih shape.2
      exact ⟨c :: u, v, rfl, by rw [fits, Bool.and_eq_true]; exact ⟨shape.1, fit⟩, fit'⟩

theorem fits_minute {t : Text} (shape : fits (text "00:00") t = true) :
    ∃ a b c d, (∀ x ∈ [a, b, c, d], isDigit x = true) ∧ t = [a, b, codePoint ':', c, d] := by
  have pattern : text "00:00" = [codePoint '0', codePoint '0', codePoint ':', codePoint '0', codePoint '0'] := by rfl
  have mark : codePoint ':' ≠ codePoint '0' := by decide
  rw [pattern] at shape
  simp only [fits_digit, fits_mark mark, fits_nil] at shape
  obtain ⟨a, _, rfl, ha, b, _, rfl, hb, _, rfl, c, _, rfl, hc, d, _, rfl, hd, rfl⟩ := shape
  exact ⟨a, b, c, d, by simp [ha, hb, hc, hd], rfl⟩

theorem fits_datetime {t : Text} (shape : fits (text "0000-00-00 00:00") t = true) :
    ∃ day minute, fits (text "0000-00-00") day = true ∧ fits (text "00:00") minute = true ∧
      t = day ++ codePoint ' ' :: minute := by
  have pattern : text "0000-00-00 00:00" = text "0000-00-00" ++ codePoint ' ' :: text "00:00" := by rfl
  have mark : codePoint ' ' ≠ codePoint '0' := by decide
  rw [pattern] at shape
  obtain ⟨day, later, rfl, isDay, rest⟩ := fits_append shape
  obtain ⟨minute, rfl, isMinute⟩ := (fits_mark mark).mp rest
  exact ⟨day, minute, isDay, isMinute, rfl⟩

/-! ## Times -/

theorem twoDigits_value {e f : CodePoint} (first : isDigit e = true) (second : isDigit f = true) :
    Moment.shown.twoDigits (digitsValue [e, f]) = [e, f] := by
  have one := digit_val first
  have two := digit_val second
  have value : digitsValue [e, f] = 10 * (e.val - 48) + (f.val - 48) := by simp [digitsValue]
  have char : ∀ {c : CodePoint}, 48 ≤ c.val ∧ c.val ≤ 57 → digitChar (c.val - 48) = c := by
    intro c range
    apply Fin.ext
    rw [digitChar, if_pos (by omega), Fin.val_ofNat, Nat.mod_eq_of_lt (by omega)]
    omega
  rw [Moment.shown.twoDigits, value, show (10 * (e.val - 48) + (f.val - 48)) / 10 = e.val - 48 by omega,
    show (10 * (e.val - 48) + (f.val - 48)) % 10 = f.val - 48 by omega, char one, char two]

theorem digitsValue_year {a b c d : CodePoint} : digitsValue [a, b, c, d] =
    1000 * (a.val - 48) + 100 * (b.val - 48) + 10 * (c.val - 48) + (d.val - 48) := by
  simp only [digitsValue, List.foldl_cons, List.foldl_nil]
  omega

theorem natText_year {a b c d : CodePoint} (digits : ∀ x ∈ [a, b, c, d], isDigit x = true)
    (late : 1000 ≤ digitsValue [a, b, c, d]) : natText (digitsValue [a, b, c, d]) = [a, b, c, d] := by
  have range := fun x listed => digit_val (digits x listed)
  simp only [List.mem_cons, List.not_mem_nil, or_false, forall_eq_or_imp, forall_eq] at range
  have leading : a ≠ digitChar 0 := by
    rintro rfl
    rw [digitsValue_year] at late
    have zero : (digitChar 0).val = 48 := by rfl
    omega
  refine natText_decimalValue ?_
  have isDigits : [a, b, c, d].all QVault.Services.isAsciiDigit = true := List.all_eq_true.mpr digits
  simp [QVault.Chain.isDecimal, isDigits, leading]

-- A time in the canonical form is what `_utc_minute` writes for it.
theorem utcMinute_canonical {value : Text} (shape : fits (text "0000-00-00 00:00") value = true)
    (real : realDate (value.take 10) = true) (hour : digitsAt value 11 13 ≤ 23) (minute : digitsAt value 14 16 ≤ 59) :
    utcMinute value = .ok value := by
  obtain ⟨day, time, isDay, isTime, rfl⟩ := fits_datetime shape
  obtain ⟨a, b, c, d, e, f, g, h, dayDigits, rfl⟩ := fits_date isDay
  obtain ⟨p, q, r, s, timeDigits, rfl⟩ := fits_minute isTime
  change digitsValue [p, q] ≤ 23 at hour
  change digitsValue [r, s] ≤ 59 at minute
  simp only [List.mem_cons, List.not_mem_nil, or_false, forall_eq_or_imp, forall_eq] at dayDigits timeDigits
  obtain ⟨ha, hb, hc, hd, he, hf, hg, hh⟩ := dayDigits
  obtain ⟨hp, hq, hr, hs⟩ := timeDigits
  have dated : (decide (2000 ≤ digitsValue [a, b, c, d]) && decide (1 ≤ digitsValue [e, f]) && decide (digitsValue [e, f] ≤ 12) &&
      decide (1 ≤ digitsValue [g, h]) && decide (digitsValue [g, h] ≤ monthDays (digitsValue [a, b, c, d]) (digitsValue [e, f]))) =
      true := real
  simp only [Bool.and_eq_true, decide_eq_true_eq] at dated
  obtain ⟨⟨⟨⟨late, first⟩, last⟩, one⟩, days⟩ := dated
  have groups : localTime ([a, b, c, d, codePoint '-', e, f, codePoint '-', g, h] ++ codePoint ' ' :: [p, q, codePoint ':', r, s]) =
      some ([a, b, c, d, codePoint '-', e, f, codePoint '-', g, h], [p, q, codePoint ':', r, s], []) :=
    if_pos ⟨isDay, by rfl, isTime⟩
  have moment : readMoment [a, b, c, d, codePoint '-', e, f, codePoint '-', g, h] [p, q, codePoint ':', r, s] =
      some ⟨digitsValue [a, b, c, d], digitsValue [e, f], digitsValue [g, h], digitsValue [p, q], digitsValue [r, s]⟩ := by
    exact if_pos ⟨by change 1 ≤ digitsValue [a, b, c, d]; omega, first, last, one, days, hour, minute⟩
  unfold utcMinute
  simp only [groups, moment]
  rw [if_neg (by decide), Moment.shown]
  rw [natText_year (by simp [ha, hb, hc, hd]) (by omega), twoDigits_value he hf, twoDigits_value hg hh, twoDigits_value hp hq,
    twoDigits_value hr hs]
  rfl

/-! ## What is accepted is not changed -/

theorem isAmount_chars {t : Text} (amount : isAmount t = true) {c : CodePoint} (listed : c ∈ t) :
    isDigit c = true ∨ c = codePoint '.' := by
  simp only [isAmount, Bool.and_eq_true, Bool.or_eq_true, List.isEmpty_iff, beq_iff_eq, decide_eq_true_eq] at amount
  rw [← List.takeWhile_append_dropWhile (p := isDigit) (l := t)] at listed
  rcases List.mem_append.mp listed with whole | fraction
  · exact .inl (List.mem_takeWhile_imp whole)
  · rcases amount.2 with none | ⟨⟨⟨point, _⟩, _⟩, digits⟩
    · rw [none] at fraction
      cases fraction
    · cases rest : t.dropWhile isDigit with
      | nil =>
        rw [rest] at fraction
        cases fraction
      | cons first later =>
        rw [rest] at fraction point digits
        rcases List.mem_cons.mp fraction with rfl | among
        · exact .inr (Option.some.inj point)
        · exact .inl (List.all_eq_true.mp digits c among)

section Forgiven
variable (casing : Casing)

theorem forgiven_choice {value : Text} (level : accessLevels.contains value = true) :
    strip value = value ∧ casing.lower value = value := by
  simp only [accessLevels, List.contains_iff_mem, List.mem_cons, List.not_mem_nil, or_false] at level
  have ascii : (value.all fun c => decide (c.val < 128)) = true := by
    rcases level with rfl | rfl | rfl <;> decide
  rw [casing.lower_ascii value fun c listed => of_decide_eq_true (List.all_eq_true.mp ascii c listed)]
  rcases level with rfl | rfl | rfl <;> exact ⟨by decide, by decide⟩

theorem forgiven_currency {value : Text} (letters : value.all isUpper = true) :
    strip value = value ∧ casing.upper value = value := by
  have range := fun c listed => upper_val (List.all_eq_true.mp letters c listed)
  have ascii : ∀ c ∈ value, c.val < 128 := fun c listed => by
    have bounds := range c listed
    omega
  refine ⟨strip_solid (fun c listed => by have bounds := range c listed; omega) ascii, ?_⟩
  rw [casing.upper_ascii value ascii]
  conv_rhs => rw [← List.map_id value]
  refine List.map_congr_left fun c listed => if_neg fun lower => ?_
  have bounds := range c listed
  omega

theorem forgiven_amount {value : Text} (amount : isAmount value = true) :
    strip value = value ∧ value.filter (· != codePoint ',') = value := by
  have range : ∀ c ∈ value, 46 ≤ c.val ∧ c.val ≤ 57 := by
    intro c listed
    rcases isAmount_chars amount listed with digit | rfl
    · have bounds := digit_val digit
      omega
    · decide
  refine ⟨strip_solid (fun c listed => by have bounds := range c listed; omega) fun c listed => by
    have bounds := range c listed; omega, ?_⟩
  rw [List.filter_eq_self]
  intro c listed
  rw [bne_iff_ne]
  rintro rfl
  have bounds := range _ listed
  exact absurd bounds.1 (by decide)

theorem fits_ends {t : Text} (digits : ∀ c, (c ∈ t.head? ∨ c ∈ t.getLast?) → isDigit c = true) : strip t = t := by
  have visible : ∀ {c}, isDigit c = true → isWhitespace c = false := by
    intro c digit
    have bounds := digit_val digit
    exact solid (by omega) (by omega)
  exact strip_trimmed (fun c head => visible (digits c (.inl head))) fun c last => visible (digits c (.inr last))

theorem strip_date {value : Text} (shape : fits (text "0000-00-00") value = true) : strip value = value := by
  obtain ⟨a, b, c, d, e, f, g, h, digits, rfl⟩ := fits_date shape
  refine fits_ends fun x ends => ?_
  simp only [List.head?_cons, List.getLast?_cons_cons, List.getLast?_singleton, Option.mem_some_iff] at ends
  rcases ends with rfl | rfl <;> exact digits _ (by simp)

theorem strip_datetime {value : Text} (shape : fits (text "0000-00-00 00:00") value = true) : strip value = value := by
  obtain ⟨day, time, isDay, isTime, rfl⟩ := fits_datetime shape
  obtain ⟨a, b, c, d, e, f, g, h, dayDigits, rfl⟩ := fits_date isDay
  obtain ⟨p, q, r, s, timeDigits, rfl⟩ := fits_minute isTime
  refine fits_ends fun x ends => ?_
  simp only [List.cons_append, List.nil_append, List.head?_cons, List.getLast?_cons_cons, List.getLast?_singleton,
    Option.mem_some_iff] at ends
  rcases ends with rfl | rfl
  · exact dayDigits _ (by simp)
  · exact timeDigits _ (by simp)

theorem forgivenText_accepted {spec : Spec} {value : Text} {labels : List Text} (some' : value ≠ [])
    (clean : valueProblem spec value labels = none) : forgivenText casing spec.kind value = .ok value := by
  unfold valueProblem at clean
  unfold forgivenText
  cases kind : spec.kind <;> rw [kind] at clean <;> simp only at clean ⊢
  case text => rw [strip_text clean]
  case choice =>
    split_ifs at clean with level
    obtain ⟨stripped, same⟩ := forgiven_choice casing level
    rw [stripped, same]
  case datetime =>
    split_ifs at clean with malformed times
    simp only [Bool.or_eq_true, Bool.not_eq_true', not_or, Bool.not_eq_false] at malformed
    rw [strip_datetime malformed.1, if_neg (by simpa using some')]
    exact utcMinute_canonical malformed.1 malformed.2 times.1 times.2
  case date =>
    split_ifs at clean with formed
    rw [Bool.and_eq_true] at formed
    rw [strip_date formed.1]
  case amount =>
    split_ifs at clean with formed
    rw [Bool.and_eq_true] at formed
    obtain ⟨stripped, same⟩ := forgiven_amount formed.1
    rw [stripped, same, ite_self]
  case currency =>
    split_ifs at clean with formed
    obtain ⟨stripped, same⟩ := forgiven_currency casing formed.2
    rw [stripped, same]

end Forgiven

/-! ## What leaves the calendar -/

def LeavesCalendar (m : Moment) (offset : Int) : Prop :=
  ((m.year = 1 ∧ m.month = 1 ∧ m.day = 1) ∧ (60 * m.hour + m.minute : Nat) < offset) ∨
    ((m.year = 9999 ∧ m.month = 12 ∧ m.day = 31) ∧ 1440 ≤ (60 * m.hour + m.minute : Nat) - offset)

-- A readable time whose offset carries it before the first day of the calendar or past the last
def StrayTime (value : Text) : Prop :=
  ∃ day minute zone m offset, localTime value = some (day, minute, zone) ∧ readMoment day minute = some m ∧
    hasOffset zone = true ∧ readOffset zone = some offset ∧ LeavesCalendar m offset

theorem readMoment_bounds {day minute : Text} {m : Moment} (read : readMoment day minute = some m) :
    1 ≤ m.year ∧ m.year = digitsAt day 0 4 ∧ 1 ≤ m.month ∧ m.month ≤ 12 ∧ 1 ≤ m.day ∧ m.day ≤ monthDays m.year m.month := by
  unfold readMoment at read
  dsimp only at read
  split_ifs at read with real
  rw [← Option.some.inj read]
  exact ⟨real.1, rfl, real.2.1, real.2.2.1, real.2.2.2.1, real.2.2.2.2.1⟩

theorem localTime_year {value day minute zone : Text} (groups : localTime value = some (day, minute, zone)) :
    digitsAt day 0 4 ≤ 9999 := by
  unfold localTime at groups
  dsimp only at groups
  split_ifs at groups with shape
  all_goals
    obtain ⟨zone', -, same⟩ := Option.map_eq_some_iff.mp groups
    rw [Prod.mk.injEq] at same
    obtain ⟨a, b, c, d, e, f, g, h, digits, isDay⟩ := fits_date shape.1
    have range := fun x listed => digit_val (digits x listed)
    simp only [List.mem_cons, List.not_mem_nil, or_false, forall_eq_or_imp, forall_eq] at range
    rw [← same.1, isDay]
    change digitsValue [a, b, c, d] ≤ 9999
    rw [digitsValue_year]
    omega

theorem dayBefore_none {m : Moment} (year : 1 ≤ m.year) (month : 1 ≤ m.month) (day : 1 ≤ m.day) :
    m.dayBefore = none ↔ m.year = 1 ∧ m.month = 1 ∧ m.day = 1 := by
  unfold Moment.dayBefore
  split_ifs <;> simp <;> omega

theorem dayAfter_none {m : Moment} (year : m.year ≤ 9999) (month : m.month ≤ 12) (day : m.day ≤ monthDays m.year m.month) :
    m.dayAfter = none ↔ m.year = 9999 ∧ m.month = 12 ∧ m.day = 31 := by
  have december : m.month = 12 → monthDays m.year m.month = 31 := by
    intro last
    rw [last]
    rfl
  unfold Moment.dayAfter
  split_ifs with within before early
  · simp only [reduceCtorEq, false_iff, not_and]
    intro _ last
    have days := december last
    omega
  · simp only [reduceCtorEq, false_iff]
    omega
  · simp only [reduceCtorEq, false_iff]
    omega
  · have last : m.month = 12 := by omega
    have days := december last
    simp only [true_iff]
    omega

theorem toUtc_none {m : Moment} {offset : Int} (year : 1 ≤ m.year ∧ m.year ≤ 9999) (month : 1 ≤ m.month ∧ m.month ≤ 12)
    (day : 1 ≤ m.day ∧ m.day ≤ monthDays m.year m.month) : m.toUtc offset = none ↔ LeavesCalendar m offset := by
  unfold Moment.toUtc LeavesCalendar
  dsimp only
  split_ifs with early late
  · rw [Option.map_eq_none_iff, dayBefore_none year.1 month.1 day.1]
    constructor
    · exact fun first => .inl ⟨first, by omega⟩
    · rintro (⟨first, -⟩ | ⟨-, past⟩)
      · exact first
      · omega
  · rw [Option.map_eq_none_iff, dayAfter_none year.2 month.2 day.2]
    constructor
    · exact fun last => .inr ⟨last, late⟩
    · rintro (⟨-, before⟩ | ⟨last, -⟩)
      · omega
      · exact last
  · simp only [reduceCtorEq, false_iff, not_or, not_and]
    exact ⟨fun _ => by omega, fun _ => by omega⟩

theorem utcMinute_error {value : Text} : (∃ e, utcMinute value = .error e) ↔ StrayTime value := by
  unfold StrayTime
  constructor
  · rintro ⟨e, raised⟩
    unfold utcMinute at raised
    split at raised
    · cases raised
    · rename_i day minute zone groups
      split at raised
      · cases raised
      · rename_i m read
        split_ifs at raised with signed
        split at raised
        · cases raised
        · rename_i offset isOffset
          split at raised
          · rename_i left
            obtain ⟨one, year, month, december, first, days⟩ := readMoment_bounds read
            have nines := localTime_year groups
            exact ⟨day, minute, zone, m, offset, groups, read, signed, isOffset,
              (toUtc_none ⟨one, year ▸ nines⟩ ⟨month, december⟩ ⟨first, days⟩).mp left⟩
          · cases raised
  · rintro ⟨day, minute, zone, m, offset, groups, read, signed, isOffset, leaves⟩
    obtain ⟨one, year, month, december, first, days⟩ := readMoment_bounds read
    have left := (toUtc_none ⟨one, year ▸ localTime_year groups⟩ ⟨month, december⟩ ⟨first, days⟩).mpr leaves
    refine ⟨.overflowError, ?_⟩
    simp [utcMinute, groups, read, signed, isOffset, left]

/-! ## The fields that are kept -/

def bare (value : Json) : Json := if absent value then .null else value

theorem absent_bare (value : Json) : absent (bare value) = absent value := by
  unfold bare
  split
  · rename_i none
    rw [none]
    rfl
  · rfl

theorem bare_given {value : Json} (some' : absent value = false) : bare value = value := by simp [bare, some']

theorem fieldProblem_bare (spec : Spec) (labels : List Text) (value : Json) :
    fieldProblem spec labels (bare value) = fieldProblem spec labels value := by
  cases none : absent value with
  | false => rw [bare_given none]
  | true =>
    unfold fieldProblem
    rw [if_pos ((absent_bare value).trans none), if_pos none]

def built (value : Spec → Json) (specs : List Spec) : List (Text × Json) :=
  specs.filterMap fun spec => if absent (value spec) then none else some (spec.key, value spec)

section Built
variable {casing : Casing} {raw : List (Text × Json)} {value : Spec → Json} {specs : List Spec}

theorem forgiveAll_built (values : ∀ spec ∈ specs, forgiven casing spec (get raw spec.key) = .ok (value spec)) :
    forgiveAll casing raw specs = .ok (built value specs) := by
  induction specs with
  | nil => rfl
  | cons spec rest ih =>
    rw [forgiveAll, values spec List.mem_cons_self, ih fun s listed => values s (List.mem_cons_of_mem _ listed)]
    change Except.ok (if absent (value spec) then built value rest else (spec.key, value spec) :: built value rest) = _
    cases none : absent (value spec) <;> simp [built, none]

theorem forgiveAll_error : (∃ e, forgiveAll casing raw specs = .error e) ↔
    ∃ spec ∈ specs, ∃ e, forgiven casing spec (get raw spec.key) = .error e := by
  induction specs with
  | nil => simp [forgiveAll]
  | cons spec rest ih =>
    rw [forgiveAll, List.exists_mem_cons_iff, ← ih]
    cases first : forgiven casing spec (get raw spec.key) with
    | error e => simp [bind, Except.bind]
    | ok v =>
      cases later : forgiveAll casing raw rest with
      | error e => simp [bind, Except.bind]
      | ok fields => simp [bind, Except.bind, pure, Except.pure]

theorem forgiveAll_ok {fields : List (Text × Json)} (done : forgiveAll casing raw specs = .ok fields) :
    ∃ value, fields = built value specs := by
  let value (spec : Spec) : Json := (forgiven casing spec (get raw spec.key)).toOption.getD .null
  refine ⟨value, ?_⟩
  have values : ∀ spec ∈ specs, forgiven casing spec (get raw spec.key) = .ok (value spec) := by
    intro spec listed
    cases first : forgiven casing spec (get raw spec.key) with
    | ok v => simp [value, first, Except.toOption]
    | error e =>
      obtain ⟨e', raised⟩ := forgiveAll_error.mpr ⟨spec, listed, e, first⟩
      rw [raised] at done
      cases done
  rw [forgiveAll_built values] at done
  exact (Except.ok.inj done).symm

theorem lookup_built_absent {key : Text} (other : ∀ spec ∈ specs, spec.key ≠ key) : lookup key (built value specs) = none := by
  induction specs with
  | nil => rfl
  | cons spec rest ih =>
    have later := ih fun s listed => other s (List.mem_cons_of_mem _ listed)
    have first := other spec List.mem_cons_self
    cases none : absent (value spec) with
    | true => simpa [built, none] using later
    | false => simpa [built, none, lookup, first] using later

theorem lookup_built (distinct : (specs.map (·.key)).Nodup) {spec : Spec} (listed : spec ∈ specs) :
    lookup spec.key (built value specs) = if absent (value spec) then none else some (value spec) := by
  induction specs with
  | nil => cases listed
  | cons first rest ih =>
    obtain ⟨fresh, distinct'⟩ := List.nodup_cons.mp distinct
    rcases List.mem_cons.mp listed with rfl | later
    · have others : lookup spec.key (built value rest) = none :=
        lookup_built_absent fun s among same => fresh (List.mem_map.mpr ⟨s, among, same⟩)
      cases none : absent (value spec) with
      | true => simpa [built, none] using others
      | false => simp [built, none, lookup]
    · have different : first.key ≠ spec.key := fun same => fresh (List.mem_map.mpr ⟨spec, later, same.symm⟩)
      have found := ih distinct' later
      cases none : absent (value first) with
      | true => simpa [built, none] using found
      | false => simpa [built, none, lookup, different] using found

theorem get_built (distinct : (specs.map (·.key)).Nodup) {spec : Spec} (listed : spec ∈ specs) :
    get (built value specs) spec.key = bare (value spec) := by
  unfold Json.get bare
  rw [lookup_built distinct listed]
  split <;> rfl

theorem knownKeys_built : knownKeys specs (built value specs) = true := by
  rw [knownKeys, List.all_eq_true]
  intro entry listed
  obtain ⟨spec, among, kept⟩ := List.mem_filterMap.mp listed
  split_ifs at kept
  cases kept
  exact List.contains_iff_mem.mpr (List.mem_map_of_mem among)

end Built

/-! ## The same to the check -/

section Same
variable {fields kept : List (Text × Json)} {specs : List Spec} {labels : List Text}

theorem firstProblem_bare (same : ∀ spec ∈ specs, get kept spec.key = bare (get fields spec.key)) :
    firstProblem labels kept specs = firstProblem labels fields specs := by
  induction specs with
  | nil => rfl
  | cons spec rest ih =>
    unfold firstProblem
    rw [same spec List.mem_cons_self, fieldProblem_bare, ih fun s listed => same s (List.mem_cons_of_mem _ listed)]

theorem given_bare {key : Text} (same : get kept key = bare (get fields key)) : given kept key = given fields key := by
  rw [given, given, same, absent_bare]

theorem pairProblem_bare (same : ∀ key ∈ [text "amount", "currency", "starts", "ends"], get kept key = bare (get fields key)) :
    pairProblem kept = pairProblem fields := by
  have starts := same "starts" (by simp)
  have ends := same "ends" (by simp)
  unfold pairProblem
  rw [given_bare (same "amount" (by simp)), given_bare (same "currency" (by simp)), given_bare starts, given_bare ends]
  cases some' : given fields "starts" with
  | false => rfl
  | true =>
    cases some'' : given fields "ends" with
    | false => rfl
    | true =>
      rw [given, Bool.not_eq_true'] at some' some''
      rw [bare_given some'] at starts
      rw [bare_given some''] at ends
      rw [endsFirst, endsFirst, starts, ends]

theorem specsProblem_bare {decisionType : Json} (isSpecs : specsOf decisionType = some specs)
    (knownFields : knownKeys specs fields = true) (knownKept : knownKeys specs kept = true)
    (same : ∀ spec ∈ specs, get kept spec.key = bare (get fields spec.key)) :
    specsProblem decisionType specs kept = specsProblem decisionType specs fields := by
  unfold specsProblem
  rw [knownFields, knownKept, firstProblem_bare same]
  cases decisionType with
  | str name =>
    unfold specsOf specsNamed at isSpecs
    simp only at isSpecs
    split_ifs at isSpecs with access contract
    · rw [access]
      rfl
    · cases isSpecs
      rw [pairProblem_bare]
      intro key listed
      have ruled : ([text "amount", "currency", "starts", "ends"].all fun key => (contractSpecs.map (·.key)).contains key) = true := by
        decide
      obtain ⟨spec, among, rfl⟩ := List.mem_map.mp (List.contains_iff_mem.mp (List.all_eq_true.mp ruled key listed))
      exact same spec among
  | _ => cases isSpecs

end Same

theorem specs_distinct {decisionType : Json} {specs : List Spec} (isSpecs : specsOf decisionType = some specs) :
    (specs.map (·.key)).Nodup := by
  cases decisionType with
  | str name =>
    unfold specsOf specsNamed at isSpecs
    simp only at isSpecs
    split_ifs at isSpecs <;> cases isSpecs <;> decide
  | _ => cases isSpecs

/-! ## Normalising -/

section Normalising
variable {casing : Casing} {decisionType : Json}

theorem forgiven_accepted {spec : Spec} {labels : List Text} {value : Json} (clean : fieldProblem spec labels value = none) :
    forgiven casing spec value = .ok value := by
  cases value with
  | str value =>
    cases value with
    | nil =>
      have blank : strip [] = [] := by rfl
      have lower := casing.lower_ascii [] (by simp)
      have upper := casing.upper_ascii [] (by simp)
      unfold forgiven forgivenText
      cases spec.kind <;> simp [blank, lower, upper, Except.map]
    | cons c rest =>
      have clean' : valueProblem spec (c :: rest) labels = none := clean
      have same := forgivenText_accepted casing (List.cons_ne_nil c rest) clean'
      change (forgivenText casing spec.kind (c :: rest)).map Json.str = _
      rw [same]
      rfl
  | _ => rfl

theorem accepted_fields {labels : List Text} {fields : List (Text × Json)} {specs : List Spec}
    (clean : firstProblem labels fields specs = none) {spec : Spec} (listed : spec ∈ specs) :
    fieldProblem spec labels (get fields spec.key) = none := by
  induction specs with
  | nil => cases listed
  | cons first rest ih =>
    unfold firstProblem at clean
    split at clean
    · cases clean
    · rename_i ok
      rcases List.mem_cons.mp listed with rfl | later
      · exact ok
      · exact ih clean later

theorem checkFields_dict {specs : List Spec} (isSpecs : specsOf decisionType = some specs) (fields : List (Text × Json)) :
    checkFields decisionType (.dict fields) templateVersion = specsProblem decisionType specs fields := by
  unfold checkFields
  rw [isSpecs]
  rfl

theorem checked {specs : List Spec} (isSpecs : specsOf decisionType = some specs) {fields : List (Text × Json)}
    (accepted : checkFields decisionType (.dict fields) templateVersion = none) :
    knownKeys specs fields = true ∧ firstProblem (specs.map (·.label)) fields specs = none := by
  rw [checkFields_dict isSpecs, specsProblem] at accepted
  by_cases unknown : (!knownKeys specs fields) = true
  · rw [if_pos unknown] at accepted
    cases accepted
  rw [if_neg unknown] at accepted
  split at accepted
  · cases accepted
  · rename_i clean
    exact ⟨by simpa using unknown, clean⟩

theorem normalise_dict {specs : List Spec} (isSpecs : specsOf decisionType = some specs) {raw : List (Text × Json)}
    (known : knownKeys specs raw = true) {fields : List (Text × Json)} (forgave : forgiveAll casing raw specs = .ok fields)
    (accepted : checkFields decisionType (.dict fields) templateVersion = none) :
    normalise casing decisionType (.dict raw) = .ok fields := by
  cases decisionType with
  | str name =>
    simp only [normalise, isSpecs, known, forgave, accepted]
    rfl
  | _ => cases isSpecs

-- Fields that are accepted come back without the entries that are null or empty.
theorem normalise_accepted {specs : List Spec} (isSpecs : specsOf decisionType = some specs) {fields : List (Text × Json)}
    (accepted : checkFields decisionType (.dict fields) templateVersion = none) :
    normalise casing decisionType (.dict fields) = .ok (built (fun spec => get fields spec.key) specs) := by
  obtain ⟨known, clean⟩ := checked isSpecs accepted
  have forgave : forgiveAll casing fields specs = .ok _ := forgiveAll_built fun spec listed => forgiven_accepted (accepted_fields clean listed)
  refine normalise_dict isSpecs known forgave ?_
  rw [checkFields_dict isSpecs, ← accepted, checkFields_dict isSpecs]
  exact specsProblem_bare isSpecs known knownKeys_built fun spec listed => get_built (specs_distinct isSpecs) listed

theorem built_twice {specs : List Spec} (distinct : (specs.map (·.key)).Nodup) (value : Spec → Json) :
    built (fun spec => get (built value specs) spec.key) specs = built value specs := by
  refine List.filterMap_congr fun spec listed => ?_
  simp only [get_built distinct listed, absent_bare]
  split
  · rfl
  · rename_i some'
    rw [bare_given (Bool.not_eq_true _ ▸ some')]

theorem normalise_ok {raw : Json} {fields : List (Text × Json)} (done : normalise casing decisionType raw = .ok fields) :
    ∃ specs value, specsOf decisionType = some specs ∧ fields = built value specs ∧
      checkFields decisionType (.dict fields) templateVersion = none := by
  unfold normalise at done
  split at done
  · rename_i specs isSpecs
    split at done
    · rename_i raw
      split_ifs at done with unknown
      split at done
      · cases done
      · rename_i forgave
        split at done
        · cases done
        · rename_i accepted
          cases done
          obtain ⟨value, same⟩ := forgiveAll_ok forgave
          exact ⟨specs, value, isSpecs, same, accepted⟩
    · cases done
  · cases done

theorem normalise_twice {raw : Json} {fields : List (Text × Json)} (done : normalise casing decisionType raw = .ok fields) :
    normalise casing decisionType (.dict fields) = .ok fields := by
  obtain ⟨specs, value, isSpecs, same, accepted⟩ := normalise_ok done
  rw [normalise_accepted isSpecs accepted, same, built_twice (specs_distinct isSpecs)]

theorem lookup_known {specs : List Spec} {fields : List (Text × Json)} (known : knownKeys specs fields = true) {key : Text}
    (other : ∀ spec ∈ specs, spec.key ≠ key) : lookup key fields = none := by
  induction fields with
  | nil => rfl
  | cons entry rest ih =>
    simp only [knownKeys, List.all_cons, Bool.and_eq_true] at known
    have different : entry.1 ≠ key := by
      rintro rfl
      obtain ⟨spec, listed, same⟩ := List.mem_map.mp (List.contains_iff_mem.mp known.1)
      exact other spec listed same
    rw [lookup, if_neg different]
    exact ih known.2

theorem lookup_normalised {specs : List Spec} (distinct : (specs.map (·.key)).Nodup) {fields : List (Text × Json)}
    (known : knownKeys specs fields = true) (key : Text) :
    lookup key (built (fun spec => get fields spec.key) specs) = (lookup key fields).filter fun value => !absent value := by
  by_cases some' : ∃ spec ∈ specs, spec.key = key
  · obtain ⟨spec, listed, rfl⟩ := some'
    rw [lookup_built distinct listed]
    unfold Json.get
    cases lookup spec.key fields with
    | none => rfl
    | some value => cases blank : absent value <;> simp [Option.filter, blank]
  · push Not at some'
    rw [lookup_built_absent some', lookup_known known some']
    rfl

/-! ### When it raises -/

def Strays (decisionType raw : Json) : Prop :=
  decisionType = .str "access" ∧ ∃ entries value, raw = .dict entries ∧ knownKeys accessSpecs entries = true ∧
    get entries "until" = .str value ∧ StrayTime (strip value)

theorem strayTime_nil : ¬ StrayTime [] := by
  rintro ⟨day, minute, zone, m, offset, groups, -⟩
  cases groups

theorem forgiven_error {spec : Spec} {value : Json} : (∃ e, forgiven casing spec value = .error e) ↔
    spec.kind = .datetime ∧ ∃ text, value = .str text ∧ StrayTime (strip text) := by
  cases value with
  | str value =>
    unfold forgiven forgivenText
    cases kind : spec.kind with
    | datetime =>
      by_cases blank : strip value = []
      · simp [blank, Except.map, strayTime_nil]
      · have started : (strip value).isEmpty = false := by simpa using blank
        simp only [started, Bool.false_eq_true, if_false, Json.str.injEq, exists_eq_left', true_and, ← utcMinute_error]
        cases utcMinute (strip value) <;> simp [Except.map]
    | _ => simp [Except.map]
  | _ => simp [forgiven]

theorem forgiveAll_strays {specs : List Spec} {entries : List (Text × Json)} (isSpecs : specsOf decisionType = some specs) :
    (∃ e, forgiveAll casing entries specs = .error e) ↔
      decisionType = .str "access" ∧ ∃ value, get entries "until" = .str value ∧ StrayTime (strip value) := by
  rw [forgiveAll_error]
  simp only [forgiven_error]
  cases decisionType with
  | str name =>
    unfold specsOf specsNamed at isSpecs
    simp only at isSpecs
    split_ifs at isSpecs with access contract
    · cases isSpecs
      simp [accessSpecs, access]
    · cases isSpecs
      simp [contractSpecs, access]
  | _ => cases isSpecs

theorem normalise_raises {raw : Json} : (∃ error, normalise casing decisionType raw = .error (.other error)) ↔
    Strays decisionType raw := by
  constructor
  · rintro ⟨error, raised⟩
    unfold normalise at raised
    split at raised
    · rename_i name specs isSpecs
      split at raised
      · rename_i entries
        split_ifs at raised with unknown
        · cases raised
        split at raised
        · rename_i e forgave
          obtain ⟨access, value, given', stray⟩ := (forgiveAll_strays isSpecs).mp ⟨e, forgave⟩
          rw [access] at isSpecs
          have specs' : specs = accessSpecs := Option.some.inj isSpecs.symm
          exact ⟨access, entries, value, rfl, by simpa [specs'] using unknown, given', stray⟩
        · split at raised <;> cases raised
      · cases raised
    · cases raised
  · rintro ⟨rfl, entries, value, rfl, known, given', stray⟩
    have isSpecs : specsOf (.str "access") = some accessSpecs := by rfl
    obtain ⟨e, forgave⟩ : ∃ e, forgiveAll casing entries accessSpecs = .error e :=
      (forgiveAll_strays isSpecs).mpr ⟨rfl, value, given', stray⟩
    refine ⟨e, ?_⟩
    simp [normalise, isSpecs, known, forgave]

end Normalising

/-! ## The claim of its docstring -/

structure Canonicalises (casing : Casing) (decisionType raw : Json) : Prop where
  raised : ∀ e, normalise casing decisionType raw = .error e → ∃ field text, e = .fieldsError field text
  accepted : ∀ fields, normalise casing decisionType raw = .ok fields →
    checkFields decisionType (.dict fields) templateVersion = none
  unchanged : ∀ entries, raw = .dict entries → checkFields decisionType raw templateVersion = none →
    ∃ fields, normalise casing decisionType raw = .ok fields ∧
      ∀ key, lookup key fields = (lookup key entries).filter fun value => !absent value
  again : ∀ fields, normalise casing decisionType raw = .ok fields →
    normalise casing decisionType (.dict fields) = .ok fields

theorem canonicalises_iff (casing : Casing) (decisionType raw : Json) :
    Canonicalises casing decisionType raw ↔ ¬ Strays decisionType raw := by
  constructor
  · intro canonical stray
    obtain ⟨error, raises⟩ : ∃ error, normalise casing decisionType raw = .error (.other error) := normalise_raises.mpr stray
    obtain ⟨field, text, same⟩ := canonical.raised _ raises
    cases same
  · intro stays
    refine ⟨?_, ?_, ?_, fun fields => normalise_twice⟩
    · intro e raises
      cases e with
      | fieldsError field text => exact ⟨field, text, rfl⟩
      | other error => exact absurd (normalise_raises.mp ⟨error, raises⟩) stays
    · intro fields done
      obtain ⟨specs, value, isSpecs, same, accepted⟩ := normalise_ok done
      exact accepted
    · rintro entries rfl accepted
      cases isSpecs : specsOf decisionType with
      | none => simp [checkFields, isSpecs] at accepted
      | some specs =>
        exact ⟨_, normalise_accepted isSpecs accepted,
          lookup_normalised (specs_distinct isSpecs) (checked isSpecs accepted).1⟩

-- A casing that leaves everything beyond ASCII alone
def asciiCasing : Casing where
  lower t := t.map fun c => if 65 ≤ c.val ∧ c.val ≤ 90 then Fin.ofNat _ (c.val + 32) else c
  upper t := t.map fun c => if 97 ≤ c.val ∧ c.val ≤ 122 then Fin.ofNat _ (c.val - 32) else c
  lower_ascii _ _ := rfl
  upper_ascii _ _ := rfl

def firstHour : Json := .dict [("until", .str "0001-01-01T00:00+01:00")]

theorem first_hour_overflows : normalise asciiCasing (.str "access") firstHour = .error (.other .overflowError) ∧
    ¬ ∀ casing decisionType raw, Canonicalises casing decisionType raw := by
  have raises : normalise asciiCasing (.str "access") firstHour = .error (.other .overflowError) := by rfl
  refine ⟨raises, fun canonical => ?_⟩
  obtain ⟨field, text, same⟩ := (canonical asciiCasing (.str "access") firstHour).raised _ raises
  cases same

end QVault.Proof.DecisionTypes
