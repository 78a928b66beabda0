import QVault.Lib.PrefixCode
import QVault.Services.DecisionText
import QVault.Proof.Services.DecisionTypes
import QVault.Proof.Verify.Passes

/-!
# What the text of a decision says

The lines of a decision's text are read back one by one: no value holds a line break, no label a colon, and no value in the
first line the quotation mark that closes it.
-/

namespace QVault.Proof.DecisionTypes
open QVault.Python QVault.DecisionTypes Json

variable {fields fields' : List (Text × Json)} {specs : List Spec} {spec : Spec} {labels : List Text} {value value' : Text}

/-! ## Characters of a value -/

theorem fits_mem {pattern t : Text} (shape : fits pattern t = true) {c : CodePoint} (listed : c ∈ t) :
    isDigit c = true ∨ c ∈ pattern := by
  induction pattern generalizing t with
  | nil =>
    rw [fits_nil.mp shape] at listed
    cases listed
  | cons p rest ih =>
    cases t with
    | nil => cases listed
    | cons d tail =>
      rw [fits, Bool.and_eq_true] at shape
      rcases List.mem_cons.mp listed with rfl | later
      · by_cases digit : p = codePoint '0'
        · rw [if_pos digit] at shape
          exact .inl shape.1
        · rw [if_neg digit, beq_iff_eq] at shape
          exact .inr (shape.1 ▸ List.mem_cons_self)
      · exact (ih shape.2 later).imp_right (List.mem_cons_of_mem p)

theorem characterProblem_quotes {after : Bool} {t : Text} (clean : characterProblem after t = none) {c : CodePoint}
    (listed : c ∈ t) : doubleQuotes.contains c.val = false := by
  induction t generalizing after with
  | nil => cases listed
  | cons d rest ih =>
    unfold characterProblem at clean
    split_ifs at clean with breaks hides spaces quotes
    rcases List.mem_cons.mp listed with rfl | later
    · rw [Bool.or_eq_true, not_or] at quotes
      exact Bool.not_eq_true _ ▸ quotes.1
    · exact ih clean later

theorem textProblem_characters {maxLen : Nat} (clean : textProblem value maxLen labels = none) :
    characterProblem false value = none := by
  unfold textProblem at clean
  split at clean
  · cases clean
  · assumption

-- The closing quotation mark of the first line
def closing : CodePoint := codePoint '”'

theorem closing_notMem {maxLen : Nat} (clean : textProblem value maxLen labels = none) : closing ∉ value := by
  intro listed
  have quotes := characterProblem_quotes (textProblem_characters clean) listed
  exact absurd quotes (by decide)

def newline : CodePoint := codePoint '\n'

theorem newline_notMem (clean : valueProblem spec value labels = none) : newline ∉ value := by
  intro listed
  unfold valueProblem at clean
  have undigit : isDigit newline = false := by decide
  split at clean
  · exact absurd (characterProblem_mem (textProblem_characters clean) listed).1 (by decide)
  · split_ifs at clean with level
    have among := List.contains_iff_mem.mp level
    have plain : ∀ level ∈ accessLevels, newline ∉ level := by decide
    exact plain value among listed
  · split_ifs at clean with shape
    rw [Bool.or_eq_true, Bool.not_eq_true', not_or, Bool.not_eq_false] at shape
    rcases fits_mem shape.1 listed with digit | mark
    · rw [undigit] at digit
      cases digit
    · exact absurd mark (by decide)
  · split_ifs at clean with shape
    rw [Bool.and_eq_true] at shape
    rcases fits_mem shape.1 listed with digit | mark
    · rw [undigit] at digit
      cases digit
    · exact absurd mark (by decide)
  · split_ifs at clean with amount
    rw [Bool.and_eq_true] at amount
    rcases isAmount_chars amount.1 listed with digit | point
    · rw [undigit] at digit
      cases digit
    · exact absurd point (by decide)
  · split_ifs at clean with letters
    exact absurd (List.all_eq_true.mp letters.2 newline listed) (by decide)

/-! ## Amounts -/

theorem flatten_groups (fuel : Nat) (whole : Text) : (groups fuel whole).flatten = whole := by
  induction fuel generalizing whole with
  | zero => simp [groups]
  | succ fuel ih =>
    unfold groups
    split_ifs
    · rw [List.flatten_append, ih, List.flatten_singleton, List.take_append_drop]
    · simp

theorem filter_intercalate (c : CodePoint) (parts : List Text) :
    ([c].intercalate parts).filter (· != c) = parts.flatten.filter (· != c) := by
  induction parts with
  | nil => rfl
  | cons first rest ih =>
    cases rest with
    | nil => simp
    | cons second rest =>
      rw [List.intercalate_cons_cons, List.filter_append, List.filter_append, ih, List.flatten_cons, List.filter_append]
      simp

-- An amount ends in its whole part, or in a point and at least one digit.
theorem fraction_written {amount : Text} (shape : isAmount amount = true) :
    (if ((amount.dropWhile (· != codePoint '.')).drop 1).isEmpty then [] else
      codePoint '.' :: (amount.dropWhile (· != codePoint '.')).drop 1) = amount.dropWhile (· != codePoint '.') := by
  simp only [isAmount, Bool.and_eq_true, Bool.or_eq_true, List.isEmpty_iff, beq_iff_eq, decide_eq_true_eq] at shape
  have same : amount.dropWhile (· != codePoint '.') = (amount.dropWhile isDigit).dropWhile (· != codePoint '.') := by
    conv_lhs => rw [← List.takeWhile_append_dropWhile (p := isDigit) (l := amount)]
    refine List.dropWhile_append_of_pos fun c listed => ?_
    have digit := List.mem_takeWhile_imp listed
    exact bne_iff_ne.mpr fun point => absurd (point ▸ digit) (by decide)
  rw [same]
  rcases shape.2 with none | ⟨⟨⟨point, long⟩, -⟩, -⟩
  · rw [none]
    rfl
  · generalize amount.dropWhile isDigit = fraction at point long
    cases fraction with
    | nil => cases point
    | cons first rest =>
      obtain rfl := Option.some.inj point
      have kept : (codePoint '.' :: rest).dropWhile (· != codePoint '.') = codePoint '.' :: rest := by simp
      rw [kept, List.drop_one, List.tail_cons, if_neg]
      rintro none
      rw [List.isEmpty_iff.mp none] at long
      exact absurd long (by decide)

-- Without its commas, an amount that is written is the amount.
theorem filter_grouped {amount : Text} (shape : isAmount amount = true) :
    (grouped amount).filter (· != codePoint ',') = amount := by
  have uncomma : amount.filter (· != codePoint ',') = amount := by
    refine List.filter_eq_self.mpr fun c listed => ?_
    rcases isAmount_chars shape listed with digit | rfl
    · exact bne_iff_ne.mpr fun comma => absurd (comma ▸ digit) (by decide)
    · decide
  have comma : text "," = [codePoint ','] := by rfl
  unfold grouped
  dsimp only
  rw [fraction_written shape, comma, List.filter_append, filter_intercalate, flatten_groups, ← List.filter_append,
    List.takeWhile_append_dropWhile, uncomma]

theorem grouped_injective {amount amount' : Text} (shape : isAmount amount = true) (shape' : isAmount amount' = true)
    (same : grouped amount = grouped amount') : amount = amount' := by
  rw [← filter_grouped shape, same, filter_grouped shape']

theorem grouped_mem {amount : Text} (shape : isAmount amount = true) {c : CodePoint} (listed : c ∈ grouped amount) :
    isDigit c = true ∨ c = codePoint '.' ∨ c = codePoint ',' := by
  by_cases comma : c = codePoint ','
  · exact .inr (.inr comma)
  have kept : c ∈ (grouped amount).filter (· != codePoint ',') := List.mem_filter.mpr ⟨listed, bne_iff_ne.mpr comma⟩
  rw [filter_grouped shape] at kept
  exact (isAmount_chars shape kept).imp_right .inl

/-! ## Rows -/

theorem levelWords_injective {level level' : Text} (known : accessLevels.contains level = true)
    (known' : accessLevels.contains level' = true) (same : (levelWords level).1 = (levelWords level').1) : level = level' := by
  have each : ∀ level ∈ accessLevels, ∀ level' ∈ accessLevels, (levelWords level).1 = (levelWords level').1 → level = level' := by
    decide +kernel
  exact each level (List.contains_iff_mem.mp known) level' (List.contains_iff_mem.mp known') same

-- Fields that write a text
structure Accepted (specs : List Spec) (labels : List Text) (fields : List (Text × Json)) : Prop where
  value : ∀ spec ∈ specs, fieldProblem spec labels (get fields spec.key) = none
  -- A value and its currency come together.
  pair : ∀ spec ∈ specs, spec.kind = .amount → given fields spec.key = true →
    given fields "currency" = true ∧ ((textOf fields "currency").length = 3 ∧ (textOf fields "currency").all isUpper = true)

theorem given_text {labels : List Text} (clean : fieldProblem spec labels (get fields spec.key) = none)
    (some' : given fields spec.key = true) :
    get fields spec.key = .str (textOf fields spec.key) ∧ valueProblem spec (textOf fields spec.key) labels = none := by
  unfold given at some'
  rw [Bool.not_eq_true'] at some'
  unfold fieldProblem at clean
  rw [if_neg (by rw [some']; exact Bool.false_ne_true)] at clean
  unfold textOf
  cases value : get fields spec.key with
  | str v =>
    rw [value] at clean
    exact ⟨rfl, clean⟩
  | _ => rw [value] at clean; cases clean

theorem amount_shape {amount : Text} (kind : spec.kind = .amount) (clean : valueProblem spec amount labels = none) :
    isAmount amount = true := by
  unfold valueProblem at clean
  rw [kind] at clean
  dsimp only at clean
  split_ifs at clean with shape
  rw [Bool.and_eq_true] at shape
  exact shape.1

theorem level_known {level : Text} (kind : spec.kind = .choice) (clean : valueProblem spec level labels = none) :
    accessLevels.contains level = true := by
  unfold valueProblem at clean
  rw [kind] at clean
  dsimp only at clean
  split_ifs at clean with known
  exact known

theorem rowValue_none (shown : spec.kind ≠ .currency) : rowValue fields spec = none ↔ given fields spec.key = false := by
  unfold rowValue
  cases some' : given fields spec.key with
  | false => simp
  | true => cases kind : spec.kind <;> simp [kind] at shown ⊢

theorem rowValue_newline (accepted : Accepted specs labels fields) (listed : spec ∈ specs) (found : rowValue fields spec = some value) :
    newline ∉ value := by
  unfold rowValue at found
  cases some' : given fields spec.key with
  | false => rw [some'] at found; cases found
  | true =>
    obtain ⟨-, clean⟩ := given_text (accepted.value spec listed) some'
    have plain := newline_notMem clean
    rw [some', if_neg (by decide)] at found
    dsimp only at found
    cases kind : spec.kind with
    | text | date =>
      rw [kind] at found
      rw [← Option.some.inj found]
      exact plain
    | choice =>
      rw [kind] at found
      rw [← Option.some.inj found]
      have each : ∀ level ∈ accessLevels, newline ∉ (levelWords level).1 := by decide +kernel
      exact each _ (List.contains_iff_mem.mp (level_known kind clean))
    | datetime =>
      rw [kind] at found
      rw [← Option.some.inj found, List.mem_append, not_or]
      exact ⟨plain, by decide⟩
    | amount =>
      rw [kind] at found
      obtain ⟨-, -, letters⟩ := accepted.pair spec listed kind some'
      rw [← Option.some.inj found, List.mem_append, List.mem_append, not_or, not_or]
      refine ⟨⟨fun among => ?_, by decide⟩, fun among => ?_⟩
      · exact absurd (List.all_eq_true.mp letters newline among) (by decide)
      · rcases grouped_mem (amount_shape kind clean) among with digit | mark | mark
        · exact absurd digit (by decide)
        · exact absurd mark (by decide)
        · exact absurd mark (by decide)
    | currency => rw [kind] at found; cases found

-- A row tells what it was written from.
theorem rowValue_same (accepted : Accepted specs labels fields) (accepted' : Accepted specs labels fields')
    (listed : spec ∈ specs) (shown : spec.kind ≠ .currency) (same : rowValue fields spec = rowValue fields' spec) :
    given fields spec.key = given fields' spec.key ∧ (given fields spec.key = true →
      textOf fields spec.key = textOf fields' spec.key ∧
      (spec.kind = .amount → textOf fields "currency" = textOf fields' "currency")) := by
  have both : given fields spec.key = given fields' spec.key := by
    rw [Bool.eq_iff_iff, ← not_iff_not, Bool.not_eq_true, Bool.not_eq_true, ← rowValue_none shown, ← rowValue_none shown, same]
  refine ⟨both, fun some' => ?_⟩
  have some'' := both ▸ some'
  obtain ⟨-, clean⟩ := given_text (accepted.value spec listed) some'
  obtain ⟨-, clean'⟩ := given_text (accepted'.value spec listed) some''
  unfold rowValue at same
  rw [some', some'', if_neg (by decide), if_neg (by decide)] at same
  dsimp only at same
  cases kind : spec.kind with
  | text | date =>
    rw [kind] at same
    exact ⟨Option.some.inj same, fun other => by cases other⟩
  | choice =>
    rw [kind] at same
    exact ⟨levelWords_injective (level_known kind clean) (level_known kind clean') (Option.some.inj same),
      fun other => by cases other⟩
  | datetime =>
    rw [kind] at same
    exact ⟨List.append_cancel_right (Option.some.inj same), fun other => by cases other⟩
  | amount =>
    rw [kind] at same
    obtain ⟨-, three, -⟩ := accepted.pair spec listed kind some'
    obtain ⟨-, three', -⟩ := accepted'.pair spec listed kind some''
    have parts := List.append_inj (Option.some.inj same) (by rw [List.length_append, List.length_append, three, three'])
    refine ⟨grouped_injective (amount_shape kind clean) (amount_shape kind clean') parts.2, fun _ => ?_⟩
    exact List.append_cancel_right parts.1
  | currency => exact absurd kind shown

-- A mark that neither of two texts holds shows where each ends.
theorem mark_cut {c : CodePoint} {a b r s : Text} (plain : c ∉ a) (plain' : c ∉ b) (same : a ++ c :: r = b ++ c :: s) :
    a = b ∧ r = s := by
  have inside : ∀ {t : Text}, c ∉ t → ∀ x ∈ t, (x != c) = true := fun absent x listed =>
    bne_iff_ne.mpr fun here => absent (here ▸ listed)
  have stops : ∀ {t : Text}, ∀ x ∈ (c :: t).head?, (x != c) = false := by simp
  obtain ⟨word, rest⟩ := PrefixCode.run_cut (p := (· != c)) (inside plain) (inside plain') stops stops same
  exact ⟨word, (List.cons.inj rest).2⟩

theorem rowLine_injective {row row' : Text × Text} (plain : codePoint ':' ∉ row.1) (plain' : codePoint ':' ∉ row'.1)
    (same : rowLine row = rowLine row') : row = row' := by
  have colon : text ": " = [codePoint ':', codePoint ' '] := by rfl
  unfold rowLine at same
  rw [colon, List.append_assoc, List.append_assoc] at same
  obtain ⟨label, value⟩ := mark_cut plain plain' same
  exact Prod.ext label (List.cons.inj value).2

theorem fieldRows_label {row : Text × Text} (listed : row ∈ fieldRows specs fields) :
    ∃ spec ∈ specs, row.1 = spec.label ∧ rowValue fields spec = some row.2 := by
  obtain ⟨spec, among, found⟩ := List.mem_filterMap.mp listed
  obtain ⟨value, here, rfl⟩ := Option.map_eq_some_iff.mp found
  exact ⟨spec, among, rfl, here⟩

-- Each label stands for one field.
theorem fieldRows_same (distinct : (specs.map (·.label)).Nodup) (same : fieldRows specs fields = fieldRows specs fields') :
    ∀ spec ∈ specs, rowValue fields spec = rowValue fields' spec := by
  induction specs with
  | nil => exact fun spec listed => absurd listed List.not_mem_nil
  | cons first rest ih =>
    obtain ⟨fresh, distinct'⟩ := List.nodup_cons.mp distinct
    have other : ∀ (fields : List (Text × Json)) (value : Text) (rows : List (Text × Text)),
        fieldRows rest fields ≠ (first.label, value) :: rows := by
      intro fields value rows cons
      obtain ⟨spec, among, label, -⟩ := fieldRows_label (cons ▸ List.mem_cons_self : (first.label, value) ∈ fieldRows rest fields)
      exact fresh (List.mem_map.mpr ⟨spec, among, label.symm⟩)
    have here : rowValue fields first = rowValue fields' first ∧ fieldRows rest fields = fieldRows rest fields' := by
      unfold fieldRows at same
      rw [List.filterMap_cons, List.filterMap_cons] at same
      cases row : rowValue fields first with
      | none =>
        cases row' : rowValue fields' first with
        | none =>
          rw [row, row'] at same
          exact ⟨rfl, same⟩
        | some value' =>
          rw [row, row'] at same
          exact absurd same (other fields value' _)
      | some value =>
        cases row' : rowValue fields' first with
        | none =>
          rw [row, row'] at same
          exact absurd same.symm (other fields' value _)
        | some value' =>
          rw [row, row'] at same
          obtain ⟨head, tail⟩ := List.cons.inj same
          exact ⟨congrArg some (Prod.mk.inj head).2, tail⟩
    intro spec listed
    rcases List.mem_cons.mp listed with rfl | later
    · exact here.1
    · exact ih distinct' here.2 spec later

theorem rows_same {rows rows' : List (Text × Text)} (plain : ∀ row ∈ rows, codePoint ':' ∉ row.1)
    (plain' : ∀ row ∈ rows', codePoint ':' ∉ row.1) (same : rows.map rowLine = rows'.map rowLine) : rows = rows' := by
  induction rows generalizing rows' with
  | nil => exact (List.map_eq_nil_iff.mp same.symm).symm
  | cons row rest ih =>
    cases rows' with
    | nil => cases same
    | cons row' rest' =>
      obtain ⟨head, tail⟩ := List.cons.inj same
      rw [rowLine_injective (plain row List.mem_cons_self) (plain' row' List.mem_cons_self) head,
        ih (fun r listed => plain r (List.mem_cons_of_mem _ listed)) (fun r listed => plain' r (List.mem_cons_of_mem _ listed)) tail]

/-! ## Fields that write a text -/

variable {decisionType decisionType' version version' raw raw' : Json} {t : Text}

theorem specsOf_some (isSpecs : specsOf decisionType = some specs) :
    decisionType = .str (text "access") ∧ specs = accessSpecs ∨ decisionType = .str (text "contract") ∧ specs = contractSpecs := by
  cases decisionType with
  | str name =>
    unfold specsOf specsNamed at isSpecs
    simp only at isSpecs
    split_ifs at isSpecs with access contract
    · exact .inl ⟨congrArg _ access, (Option.some.inj isSpecs).symm⟩
    · exact .inr ⟨congrArg _ contract, (Option.some.inj isSpecs).symm⟩
  | _ => cases isSpecs

theorem checkFields_clean (isSpecs : specsOf decisionType = some specs) (clean : checkFields decisionType (.dict fields) version = none) :
    specsProblem decisionType specs fields = none := by
  unfold checkFields at clean
  rw [isSpecs] at clean
  dsimp only at clean
  split_ifs at clean
  exact clean

theorem specsProblem_clean (clean : specsProblem decisionType specs fields = none) :
    knownKeys specs fields = true ∧ firstProblem (specs.map (·.label)) fields specs = none ∧
      (eq decisionType "contract" = true → pairProblem fields = none) := by
  unfold specsProblem at clean
  by_cases unknown : (!knownKeys specs fields) = true
  · rw [if_pos unknown] at clean
    cases clean
  rw [if_neg unknown] at clean
  split at clean
  · cases clean
  next first =>
    refine ⟨by simpa using unknown, first, fun contract => ?_⟩
    rw [if_pos contract] at clean
    exact clean

theorem accepted_checked (isSpecs : specsOf decisionType = some specs)
    (clean : checkFields decisionType (.dict fields) version = none) :
    Accepted specs (specs.map (·.label)) fields ∧ (specs = contractSpecs → given fields "amount" = given fields "currency") := by
  obtain ⟨-, first, pair⟩ := specsProblem_clean (checkFields_clean isSpecs clean)
  have values : ∀ spec ∈ specs, fieldProblem spec (specs.map (·.label)) (get fields spec.key) = none := fun _ listed =>
    accepted_fields first listed
  rcases specsOf_some isSpecs with ⟨-, rfl⟩ | ⟨rfl, rfl⟩
  · refine ⟨⟨values, fun spec listed amount => ?_⟩, fun other => ?_⟩
    · have without : ∀ spec ∈ accessSpecs, spec.kind ≠ .amount := by decide
      exact absurd amount (without spec listed)
    · exact absurd (congrArg List.length other) (by decide)
  · have together : given fields "amount" = given fields "currency" := by
      have none := pair (by decide)
      unfold pairProblem at none
      by_contra differs
      rw [if_pos differs] at none
      cases none
    refine ⟨⟨values, fun spec listed amount some' => ?_⟩, fun _ => together⟩
    have one : ∀ spec ∈ contractSpecs, spec.kind = .amount → spec.key = text "amount" := by decide
    rw [one spec listed amount] at some'
    have currency : given fields "currency" = true := together ▸ some'
    have among : (⟨text "currency", text "Currency", .currency, false, 0⟩ : Spec) ∈ contractSpecs := by
      simp [contractSpecs]
    obtain ⟨-, letters⟩ := given_text (values _ among) currency
    unfold valueProblem at letters
    dsimp only at letters
    split_ifs at letters with shape
    exact ⟨currency, shape⟩

theorem textOf_absent {key : Text} (none : given fields key = false) : textOf fields key = [] := by
  unfold given at none
  unfold textOf
  cases value : get fields key with
  | str v =>
    rw [value] at none
    simpa [absent] using none
  | _ => rfl

theorem textOf_newline (accepted : Accepted specs labels fields) (listed : spec ∈ specs) : newline ∉ textOf fields spec.key := by
  cases some' : given fields spec.key with
  | false =>
    rw [textOf_absent some']
    exact List.not_mem_nil
  | true => exact newline_notMem (given_text (accepted.value spec listed) some').2

theorem levelWords_newline (level : Text) : newline ∉ (levelWords level).2 := by
  unfold levelWords
  split_ifs <;> decide

theorem amount_newline (accepted : Accepted contractSpecs labels fields) (some' : given fields "amount" = true) :
    newline ∉ grouped (textOf fields "amount") := by
  have among : (⟨text "amount", text "Value", .amount, false, 0⟩ : Spec) ∈ contractSpecs := by simp [contractSpecs]
  obtain ⟨-, clean⟩ := given_text (accepted.value _ among) some'
  intro listed
  rcases grouped_mem (amount_shape rfl clean) listed with digit | mark | mark
  · exact absurd digit (by decide)
  · exact absurd mark (by decide)
  · exact absurd mark (by decide)

theorem firstLine_newline (isSpecs : specsOf decisionType = some specs) (accepted : Accepted specs labels fields) :
    newline ∉ firstLine decisionType fields := by
  have plain : ∀ i, (inside : i < specs.length) → newline ∉ textOf fields specs[i].key := fun i inside =>
    textOf_newline accepted (List.getElem_mem inside)
  rcases specsOf_some isSpecs with ⟨rfl, rfl⟩ | ⟨rfl, rfl⟩
  · have person : newline ∉ textOf fields "person" := plain 0 (by decide)
    have system : newline ∉ textOf fields "system" := plain 1 (by decide)
    have until' : newline ∉ textOf fields "until" := plain 3 (by decide)
    have words := levelWords_newline (textOf fields "level")
    have access : firstLine (.str (text "access")) fields = accessLine fields := if_pos (by decide)
    rw [access, accessLine]
    simp only [List.mem_append, not_or]
    refine ⟨⟨⟨⟨⟨⟨⟨⟨?_, person⟩, ?_⟩, words⟩, ?_⟩, system⟩, ?_⟩, until'⟩, ?_⟩ <;> decide
  · have counterparty : newline ∉ textOf fields "counterparty" := plain 0 (by decide)
    have currency : newline ∉ textOf fields "currency" := plain 3 (by decide)
    have contract : firstLine (.str (text "contract")) fields = contractLine fields := if_neg (by decide)
    rw [contract, contractLine]
    cases some' : given fields "amount" with
    | false =>
      simp only [List.mem_append, not_or, Bool.false_eq_true, if_false]
      refine ⟨⟨⟨⟨?_, counterparty⟩, ?_⟩, ?_⟩, ?_⟩ <;> decide
    | true =>
      simp only [List.mem_append, not_or, if_true]
      refine ⟨⟨⟨⟨?_, counterparty⟩, ?_⟩, ⟨⟨⟨?_, currency⟩, ?_⟩, amount_newline accepted some'⟩⟩, ?_⟩ <;> decide

/-! ## The text -/

def lines (decisionType : Json) (specs : List Spec) (fields : List (Text × Json)) : List Text :=
  firstLine decisionType fields :: (fieldRows specs fields).map rowLine

-- What is written is a payment's text, or the lines of accepted fields.
inductive Written (decisionType raw version : Json) (t : Text) : Prop
  | payment (isPayment : decisionType = .str (text "payment")) (head : t.head? = some (codePoint 'P'))
  | typed (specs : List Spec) (fields : List (Text × Json)) (isSpecs : specsOf decisionType = some specs)
    (object : raw = .dict fields) (clean : checkFields decisionType (.dict fields) version = none)
    (joined : t = [newline].intercalate (lines decisionType specs fields))

theorem paymentText_head (written : Services.paymentText raw = some t) : t.head? = some (codePoint 'P') := by
  unfold Services.paymentText at written
  split at written
  · split at written
    · split at written
      · split_ifs at written
        rw [← Option.some.inj written]
        rfl
      · cases written
    · cases written
  · cases written

theorem decisionText_written (written : decisionText decisionType raw version = some t) :
    Written decisionType raw version t := by
  unfold decisionText at written
  by_cases isPayment : eq decisionType "payment" = true
  · rw [if_pos isPayment] at written
    exact .payment (Verify.eq_str.mp isPayment) (paymentText_head written)
  · rw [if_neg isPayment] at written
    by_cases problem : checkFields decisionType raw version ≠ none
    · rw [if_pos problem] at written
      cases written
    rw [if_neg problem] at written
    split at written
    next specs fields isSpecs =>
      exact .typed specs fields isSpecs rfl (not_not.mp problem) (Option.some.inj written).symm
    next => cases written

theorem firstLine_head (fields : List (Text × Json)) (isSpecs : specsOf decisionType = some specs) :
    decisionType = .str (text "access") ∧ (firstLine decisionType fields).head? = some (codePoint 'G') ∨
      decisionType = .str (text "contract") ∧ (firstLine decisionType fields).head? = some (codePoint 'S') := by
  rcases specsOf_some isSpecs with ⟨rfl, -⟩ | ⟨rfl, -⟩
  · exact .inl ⟨rfl, rfl⟩
  · exact .inr ⟨rfl, rfl⟩

theorem lines_head (fields : List (Text × Json)) (isSpecs : specsOf decisionType = some specs) :
    ([newline].intercalate (lines decisionType specs fields)).head? = (firstLine decisionType fields).head? := by
  have nonempty : firstLine decisionType fields ≠ [] := by
    intro empty
    rcases firstLine_head fields isSpecs with ⟨-, head⟩ | ⟨-, head⟩ <;> rw [empty] at head <;> cases head
  unfold lines
  cases (fieldRows specs fields).map rowLine with
  | nil => rw [List.intercalate_singleton]
  | cons row rest => rw [List.intercalate_cons_cons, List.append_assoc, List.head?_append_of_ne_nil _ nonempty]

theorem lines_newline (isSpecs : specsOf decisionType = some specs) (accepted : Accepted specs labels fields) :
    ∀ line ∈ lines decisionType specs fields, newline ∉ line := by
  intro line listed
  rcases List.mem_cons.mp listed with rfl | row
  · exact firstLine_newline isSpecs accepted
  · obtain ⟨row, among, rfl⟩ := List.mem_map.mp row
    obtain ⟨spec, here, label, found⟩ := fieldRows_label among
    have plain : ∀ spec ∈ specs, newline ∉ spec.label := by
      rcases specsOf_some isSpecs with ⟨-, rfl⟩ | ⟨-, rfl⟩ <;> decide
    unfold rowLine
    simp only [List.mem_append, not_or]
    exact ⟨⟨label ▸ plain spec here, by decide⟩, rowValue_newline accepted here found⟩

-- The same text has the same lines.
theorem lines_same (isSpecs : specsOf decisionType = some specs) (accepted : Accepted specs labels fields)
    (accepted' : Accepted specs labels fields')
    (same : [newline].intercalate (lines decisionType specs fields) = [newline].intercalate (lines decisionType specs fields')) :
    firstLine decisionType fields = firstLine decisionType fields' ∧ fieldRows specs fields = fieldRows specs fields' := by
  have split := congrArg (List.splitOn newline) same
  rw [List.splitOn_intercalate newline (lines_newline isSpecs accepted) (List.cons_ne_nil _ _),
    List.splitOn_intercalate newline (lines_newline isSpecs accepted') (List.cons_ne_nil _ _)] at split
  obtain ⟨first, rest⟩ := List.cons.inj split
  have plain : ∀ spec ∈ specs, codePoint ':' ∉ spec.label := by
    rcases specsOf_some isSpecs with ⟨-, rfl⟩ | ⟨-, rfl⟩ <;> decide
  refine ⟨first, rows_same (fun row listed => ?_) (fun row listed => ?_) rest⟩
  · obtain ⟨spec, among, label, -⟩ := fieldRows_label listed
    exact label ▸ plain spec among
  · obtain ⟨spec, among, label, -⟩ := fieldRows_label listed
    exact label ▸ plain spec among

theorem bare_same {key : Text} (both : given fields key = given fields' key)
    (same : given fields key = true → get fields key = get fields' key) : bare (get fields key) = bare (get fields' key) := by
  cases some' : given fields key with
  | true => rw [same some']
  | false =>
    have none' : given fields' key = false := both ▸ some'
    unfold given at some' none'
    rw [Bool.not_eq_false'] at some' none'
    rw [bare, bare, if_pos some', if_pos none']

theorem get_same (accepted : Accepted specs labels fields) (accepted' : Accepted specs labels fields') (listed : spec ∈ specs)
    (both : given fields spec.key = given fields' spec.key)
    (same : given fields spec.key = true → textOf fields spec.key = textOf fields' spec.key) :
    bare (get fields spec.key) = bare (get fields' spec.key) := by
  refine bare_same both fun some' => ?_
  rw [(given_text (accepted.value spec listed) some').1, (given_text (accepted'.value spec listed) (both ▸ some')).1, same some']

-- Where the rows are the same, so is each field.
theorem fields_same (isSpecs : specsOf decisionType = some specs)
    (clean : checkFields decisionType (.dict fields) version = none)
    (clean' : checkFields decisionType (.dict fields') version' = none)
    (same : fieldRows specs fields = fieldRows specs fields') (key : Text) : bare (get fields key) = bare (get fields' key) := by
  obtain ⟨known, -⟩ := specsProblem_clean (checkFields_clean isSpecs clean)
  obtain ⟨known', -⟩ := specsProblem_clean (checkFields_clean isSpecs clean')
  obtain ⟨accepted, together⟩ := accepted_checked isSpecs clean
  obtain ⟨accepted', together'⟩ := accepted_checked isSpecs clean'
  have distinct : (specs.map (·.label)).Nodup := by
    rcases specsOf_some isSpecs with ⟨-, rfl⟩ | ⟨-, rfl⟩ <;> decide
  have row := fieldRows_same distinct same
  by_cases among : ∃ spec ∈ specs, spec.key = key
  · obtain ⟨spec, listed, rfl⟩ := among
    by_cases shown : spec.kind = .currency
    · rcases specsOf_some isSpecs with ⟨-, rfl⟩ | ⟨-, rfl⟩
      · have without : ∀ spec ∈ accessSpecs, spec.kind ≠ .currency := by decide
        exact absurd shown (without spec listed)
      · have one : ∀ spec ∈ contractSpecs, spec.kind = .currency → spec.key = text "currency" := by decide
        have amount : (⟨text "amount", text "Value", .amount, false, 0⟩ : Spec) ∈ contractSpecs := by simp [contractSpecs]
        -- The currency stands on the amount's row.
        obtain ⟨both, texts⟩ := rowValue_same accepted accepted' amount Kind.noConfusion (row _ amount)
        have currency := one spec listed shown
        refine get_same accepted accepted' listed ?_ fun some' => ?_
        · rw [currency, ← together rfl, ← together' rfl]
          exact both
        · rw [currency, ← together rfl] at some'
          rw [currency]
          exact (texts some').2 rfl
    · obtain ⟨both, texts⟩ := rowValue_same accepted accepted' listed shown (row spec listed)
      exact get_same accepted accepted' listed both fun some' => (texts some').1
  · push Not at among
    rw [Json.get, Json.get, lookup_known known among, lookup_known known' among]

/-- The text determines the decision: the type of it, and each field of a decision that is no payment, where absent, null
and empty fields are one. -/
theorem decisionText_determines (decisionType decisionType' raw raw' version version' : Json) (t : Text)
    (written : decisionText decisionType raw version = some t) (written' : decisionText decisionType' raw' version' = some t) :
    decisionType = decisionType' ∧ (decisionType = .str (text "payment") ∨
      ∃ fields fields', raw = .dict fields ∧ raw' = .dict fields' ∧
        ∀ key, bare (get fields key) = bare (get fields' key)) := by
  have apart : ∀ {decisionType : Json} {specs : List Spec} {fields : List (Text × Json)}, specsOf decisionType = some specs →
      t = [newline].intercalate (lines decisionType specs fields) → t.head? ≠ some (codePoint 'P') := by
    intro decisionType specs fields isSpecs joined head
    rw [joined, lines_head fields isSpecs] at head
    rcases firstLine_head fields isSpecs with ⟨-, other⟩ | ⟨-, other⟩ <;> rw [other] at head <;>
      exact absurd head (by decide)
  cases decisionText_written written with
  | payment isPayment head =>
    cases decisionText_written written' with
    | payment isPayment' _ => exact ⟨isPayment.trans isPayment'.symm, .inl isPayment⟩
    | typed specs' fields' isSpecs' _ _ joined' => exact absurd head (apart isSpecs' joined')
  | typed specs fields isSpecs object clean joined =>
    cases decisionText_written written' with
    | payment _ head' => exact absurd head' (apart isSpecs joined)
    | typed specs' fields' isSpecs' object' clean' joined' =>
      have heads := (lines_head fields isSpecs).symm.trans
        ((congrArg List.head? (joined.symm.trans joined')).trans (lines_head fields' isSpecs'))
      have sameType : decisionType = decisionType' := by
        rcases firstLine_head fields isSpecs with ⟨rfl, head⟩ | ⟨rfl, head⟩ <;>
          rcases firstLine_head fields' isSpecs' with ⟨rfl, head'⟩ | ⟨rfl, head'⟩
        · rfl
        · exact absurd (head.symm.trans (heads.trans head')) (by decide)
        · exact absurd (head.symm.trans (heads.trans head')) (by decide)
        · rfl
      subst sameType
      obtain rfl := Option.some.inj (isSpecs.symm.trans isSpecs')
      have same := lines_same isSpecs (accepted_checked isSpecs clean).1 (accepted_checked isSpecs clean').1
        (joined.symm.trans joined')
      exact ⟨rfl, .inr ⟨fields, fields', object, object', fields_same isSpecs clean clean' same.2⟩⟩

end QVault.Proof.DecisionTypes
