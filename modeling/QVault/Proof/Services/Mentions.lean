import QVault.Services.Mentions
import QVault.Proof.Python.Loads
import QVault.Proof.Services.Binding
import QVault.Proof.Chain.SignedAction

/-!
# Mentions name the person they say

A handle is made of a display name and read back through a pattern with a limit of its own. It works
exactly where reading it back gives a handle that the same reader's name, and no other, gives.
-/

namespace QVault.Proof.Discussion
open Python Services.Discussion Canonical Excerpts

variable {u : Unicode}

/-! ## The characters of a handle -/

def Plain (t : Text) : Prop := ∀ c ∈ t, isHandle c = true

theorem isHandle_cases {c : CodePoint} (plain : isHandle c = true) :
    (97 ≤ c.val ∧ c.val ≤ 122) ∨ (48 ≤ c.val ∧ c.val ≤ 57) ∨ c.val = 46 ∨ c.val = 95 ∨ c.val = 45 := by
  simp only [isHandle, isLowerLetter, Json.isDigit, Bool.or_eq_true, Bool.and_eq_true, decide_eq_true_eq,
    beq_iff_eq] at plain
  rcases plain with (((letter | digit) | rfl) | rfl) | rfl
  · exact .inl letter
  · exact .inr (.inl digit)
  · exact .inr (.inr (.inl rfl))
  · exact .inr (.inr (.inr (.inl rfl)))
  · exact .inr (.inr (.inr (.inr rfl)))

theorem isHandle_ascii {c : CodePoint} (plain : isHandle c = true) : isAscii c = true := by
  have cases := isHandle_cases plain
  simp only [isAscii, decide_eq_true_eq]
  omega

theorem isHandle_solid {c : CodePoint} (plain : isHandle c = true) : isWhitespace c = false := by
  have cases := isHandle_cases plain
  simp only [isWhitespace, Bool.or_eq_false_iff, Bool.and_eq_false_iff, beq_eq_false_iff_ne, decide_eq_false_iff_not]
  omega

theorem isHandle_bare {c : CodePoint} (plain : isHandle c = true) : Bare c := by
  have cases := isHandle_cases plain
  refine ⟨by omega, by omega, ?_, ?_⟩
  · rintro rfl
    revert cases
    decide
  · rintro rfl
    revert cases
    decide

theorem inHandle_plain {c : CodePoint} (plain : isHandle c = true) : inHandle u c = true := by
  rw [inHandle, u.wordChar_ascii c (isHandle_ascii plain)]
  simp only [isHandle, Bool.or_eq_true] at plain ⊢
  tauto

theorem inHandle_sign : inHandle u (codePoint '@') = false := by
  rw [inHandle, u.wordChar_ascii _ rfl]
  rfl

theorem startsHandle_plain {c : CodePoint} (plain : isHandle c = true) (solid : marks.contains c = false) :
    startsHandle u c = true := by
  have other : ∀ m ∈ marks, c ≠ m := by
    rintro m listed rfl
    rw [List.contains_iff_mem.mpr listed] at solid
    cases solid
  have dot := other (codePoint '.') (by decide)
  have line := other (codePoint '_') (by decide)
  have dash := other (codePoint '-') (by decide)
  rw [startsHandle, u.wordChar_ascii c (isHandle_ascii plain)]
  simp only [isHandle, Bool.or_eq_true, beq_iff_eq, dot, line, dash, or_false] at plain
  simp only [Bool.and_eq_true, Bool.or_eq_true, bne_iff_ne]
  exact ⟨by tauto, line⟩

theorem plain_self {c : CodePoint} (plain : isHandle c = true) : Services.Discussion.plain c = [c] := by
  have cases := isHandle_cases plain
  unfold Services.Discussion.plain
  rw [if_neg (by omega), if_neg (by omega), if_neg (by omega), if_neg (by omega), if_neg (by omega), if_neg (by omega),
    if_neg (by omega), if_neg (by omega), if_neg (by omega), if_neg (by omega), if_neg (by omega)]

theorem asciiLower_plain {c : CodePoint} (plain : isHandle c = true) : asciiLower c = c := by
  have cases := isHandle_cases plain
  rw [asciiLower, if_neg]
  simp only [isUpperLetter, Bool.and_eq_true, decide_eq_true_eq]
  omega

theorem dropWhile_none {α : Type} {p : α → Bool} {l : List α} (none : ∀ a ∈ l, p a = false) : l.dropWhile p = l := by
  cases l with
  | nil => rfl
  | cons a rest => exact List.dropWhile_cons_of_neg (by simp [none a])

theorem strip_plain {t : Text} (plain : Plain t) : strip t = t := by
  have solid : ∀ c ∈ t, isWhitespace c = false := fun c listed => isHandle_solid (plain c listed)
  rw [strip, dropWhile_none solid, dropWhile_none fun c listed => solid c (List.mem_reverse.mp listed),
    List.reverse_reverse]

-- A text that is plain already is its own plain form.
theorem fold_plain {t : Text} (plain : Plain t) : fold u t = t := by
  have ascii : ∀ c ∈ t, isAscii c = true := fun c listed => isHandle_ascii (plain c listed)
  have kept : (t.filter fun c => !u.combining c) = t := by
    refine List.filter_eq_self.mpr fun c listed => ?_
    rw [u.combining_ascii c (ascii c listed)]
    rfl
  have lower : t.map asciiLower = t := by
    conv_rhs => rw [← List.map_id t]
    exact List.map_congr_left fun c listed => asciiLower_plain (plain c listed)
  have same : t.flatMap Services.Discussion.plain = t := by
    conv_rhs => rw [← List.flatMap_singleton' t]
    exact List.flatMap_congr fun c listed => plain_self (plain c listed)
  rw [fold, strip_plain plain, u.nfkd_ascii t ascii]
  simp only [kept]
  rw [u.lower_ascii t ascii, lower, same]

/-! ## What is stripped from the right -/

theorem mem_rstrip {chars t : Text} {c : CodePoint} (listed : c ∈ rstrip chars t) : c ∈ t :=
  List.mem_reverse.mp (List.dropWhile_subset _ (List.mem_reverse.mp listed))

theorem rstrip_starts (chars t : Text) : rstrip chars t <+: t := by
  have suffix := List.dropWhile_suffix (fun c => chars.contains c) (l := t.reverse)
  rw [← List.reverse_prefix, List.reverse_reverse] at suffix
  exact suffix

theorem rstrip_cons {chars : Text} {c : CodePoint} (kept : chars.contains c = false) (rest : Text) :
    ∃ more, rstrip chars (c :: rest) = c :: more := by
  rw [rstrip, List.reverse_cons, List.dropWhile_append]
  split
  · exact ⟨[], by rw [List.dropWhile_cons_of_neg (by simpa using kept)]; rfl⟩
  · exact ⟨(List.dropWhile (fun c => chars.contains c) rest.reverse).reverse, by simp⟩

/-! ## The handles a name gives -/

-- A plain text that starts where a mention can
def WellFormed (handle : Text) : Prop :=
  Plain handle ∧ ∃ c rest, handle = c :: rest ∧ marks.contains c = false

theorem plain_intercalate {words : List Text} (each : ∀ w ∈ words, Plain w) : Plain ((text ".").intercalate words) := by
  rw [← separated_eq]
  induction words with
  | nil => exact fun c listed => absurd listed List.not_mem_nil
  | cons first rest ih =>
    have here := each first List.mem_cons_self
    cases rest with
    | nil => exact here
    | cons second more =>
      intro c listed
      rw [Json.separated, List.append_assoc, List.mem_append, List.mem_append] at listed
      · rcases listed with inFirst | dot | inRest
        · exact here c inFirst
        · rw [List.mem_singleton.mp dot]
          rfl
        · exact ih (fun w among => each w (List.mem_cons_of_mem _ among)) c inRest
      · simp

theorem intercalate_head (separator more : Text) (c : CodePoint) (rest : List Text) :
    ∃ t, separator.intercalate ((c :: more) :: rest) = c :: t := by
  rw [← separated_eq]
  cases rest with
  | nil => exact ⟨more, rfl⟩
  | cons second rest => exact ⟨more ++ separator ++ Json.separated separator (second :: rest), rfl⟩

theorem nameHandles_wellFormed {name handle : Text} (given : handle ∈ nameHandles u name) : WellFormed handle := by
  unfold nameHandles at given
  split at given
  · cases given
  · rename_i first rest words
    have nonempty : first ≠ [] := by
      have kept : first ∈ nameWords u name := by
        rw [words]
        exact List.mem_cons_self
      intro none
      have solid := (List.mem_filter.mp kept).2
      rw [none] at solid
      cases solid
    obtain ⟨c, more, rfl⟩ := List.exists_cons_of_ne_nil nonempty
    split at given
    · cases given
    · rename_i good
      rw [Bool.not_eq_true, Bool.or_eq_false_iff, List.any_eq_false, List.any_eq_false] at good
      have plain : Plain (c :: more) := fun d listed => by simpa using good.1 d listed
      have solid : marks.contains c = false := by simpa using good.2 c List.mem_cons_self
      have alone : WellFormed (c :: more) := ⟨plain, c, more, rfl, solid⟩
      simp only at given
      split at given
      · rw [List.mem_singleton.mp given]
        exact alone
      · rename_i joined
        rw [Bool.not_eq_true, Bool.or_eq_false_iff, List.any_eq_false] at joined
        rcases List.mem_cons.mp given with rfl | whole
        · exact alone
        · rw [List.mem_singleton.mp whole]
          have each : ∀ w ∈ (c :: more) :: rest, Plain w := by
            intro w among d listed
            have fine := joined.2 w among
            rw [Bool.not_eq_true, List.any_eq_false] at fine
            simpa using fine d listed
          refine ⟨fun d listed => plain_intercalate each d (List.mem_of_mem_take (mem_rstrip listed)), ?_⟩
          obtain ⟨t, head⟩ := intercalate_head (text ".") more c rest
          have dot : (text ".").contains c = false := by
            rw [List.contains_eq_mem, decide_eq_false_iff_not] at solid ⊢
            exact fun listed => solid (by rw [List.mem_singleton.mp listed]; decide)
          rw [head, maxHandle, List.take_succ_cons]
          obtain ⟨left, stripped⟩ := rstrip_cons dot (t.take 63)
          exact ⟨c, left, stripped, solid⟩

/-! ## A handle in a text -/

-- A handle as `MENTION` and what strips its end read it
def readBack (handle : Text) : Text := rstrip marks (handle.take maxHandle)

theorem WellFormed.readBack {handle : Text} (formed : WellFormed handle) : WellFormed (readBack handle) := by
  obtain ⟨plain, c, rest, rfl, solid⟩ := formed
  refine ⟨fun d listed => plain d (List.mem_of_mem_take (mem_rstrip listed)), ?_⟩
  rw [Discussion.readBack, maxHandle, List.take_succ_cons]
  obtain ⟨more, stripped⟩ := rstrip_cons solid (rest.take 63)
  exact ⟨c, more, stripped, solid⟩

theorem handleOf_take {handle : Text} (formed : WellFormed handle) :
    handleOf u (handle.take maxHandle) = readBack handle := fold_plain formed.readBack.1

-- The end of the text, or a character no handle contains
def Stops (u : Unicode) (after : Text) : Prop := ∀ c ∈ after.head?, inHandle u c = false

theorem mention_handle {handle after : Text} (formed : WellFormed handle) (stops : Stops u after) {before : Option CodePoint}
    (free : mayPrecede u before = true) :
    mention u before (codePoint '@' :: (handle ++ after)) =
      some ((handle.take maxHandle).length, handle.take maxHandle) := by
  obtain ⟨plain, c, rest, rfl, solid⟩ := formed
  have run : (rest ++ after).takeWhile (inHandle u) = rest := by
    rw [List.takeWhile_append_of_pos fun d listed => inHandle_plain (plain d (List.mem_cons_of_mem _ listed))]
    cases after with
    | nil => simp
    | cons d more => rw [List.takeWhile_cons_of_neg (by simp [stops d rfl]), List.append_nil]
  rw [List.cons_append, mention, if_pos ⟨rfl, free, startsHandle_plain (plain c List.mem_cons_self) solid⟩, run]
  rfl

theorem mention_some {before : Option CodePoint} {t typed : Text} {more : Nat}
    (matched : mention u before t = some (more, typed)) :
    ∃ rest, t = codePoint '@' :: rest ∧ mayPrecede u before = true ∧ more = typed.length ∧ typed <+: rest ∧
      codePoint '@' ∉ typed := by
  unfold mention at matched
  split at matched
  · rename_i sign first rest
    split at matched
    · rename_i starts
      obtain ⟨rfl, free, begins⟩ := starts
      simp only [Option.some.injEq, Prod.mk.injEq] at matched
      obtain ⟨length, rfl⟩ := matched
      refine ⟨first :: rest, rfl, free, length.symm, ?_, ?_⟩
      · rw [List.cons_prefix_cons]
        exact ⟨rfl, (List.take_prefix _ _).trans (List.takeWhile_prefix _)⟩
      · intro listed
        rcases List.mem_cons.mp listed with sign | inside
        · rw [startsHandle, ← sign, u.wordChar_ascii _ rfl] at begins
          cases begins
        · have all := List.all_eq_true.mp (List.all_takeWhile (p := inHandle u) (l := rest)) _ (List.mem_of_mem_take inside)
          rw [inHandle_sign] at all
          cases all
    · cases matched
  · cases matched

theorem mention_single (before : Option CodePoint) (c : CodePoint) (rest : Text) (more : Nat) (typed : Text)
    (matched : mention u before (c :: rest) = some (more, typed)) :
    c = codePoint '@' ∧ codePoint '@' ∉ rest.take more := by
  obtain ⟨rest', split, _, rfl, inside, none⟩ := mention_some matched
  obtain ⟨rfl, rfl⟩ := List.cons.inj split
  refine ⟨rfl, ?_⟩
  rwa [← List.prefix_iff_eq_take.mp inside]

theorem mention_fits (before : Option CodePoint) (t : Text) (more : Nat) (typed : Text)
    (matched : mention u before t = some (more, typed)) : more < t.length := by
  obtain ⟨rest, rfl, _, rfl, inside, _⟩ := mention_some matched
  have length := inside.length_le
  rw [List.length_cons]
  omega

/-- Where the handle stands is one mention, and its text is the handle as it is read. -/
theorem mentionsIn_handle {handle before after : Text} (formed : WellFormed handle)
    (free : mayPrecede u before.getLast? = true) (stops : Stops u after) :
    (∃ hit ∈ mentionsIn u (before ++ codePoint '@' :: (handle ++ after)), hit.start = before.length) ∧
      ∀ hit ∈ mentionsIn u (before ++ codePoint '@' :: (handle ++ after)), hit.start = before.length →
        hit.value = handle.take maxHandle := by
  have last : lastOf none before = before.getLast? := Option.or_none
  have here := mention_handle formed stops (last ▸ free)
  constructor
  · have outside : codePoint '@' ∉ (before ++ codePoint '@' :: (handle ++ after)).take 0 := by simp
    exact ⟨_, search_complete mention_single outside here, Nat.zero_add _⟩
  · intro hit found start
    obtain ⟨done, rest, more, split, begins, _, matched⟩ := search_sound found
    have same : before.length = done.length := by omega
    obtain ⟨rfl, rfl⟩ := List.append_inj split same
    rw [here] at matched
    exact (Prod.mk.inj (Option.some.inj matched)).2.symm

/-! ## Whose a handle is -/

-- No other reader's name gives the handle.
def OnlyOf (u : Unicode) (users : List User) (r : User) (handle : Text) : Prop :=
  ∀ s ∈ users, handle ∈ handlesOf u s → s.id = r.id

def Offers (u : Unicode) (users : List User) (exclude : Option Int) (handle : Text) (id : Int) : Prop :=
  ∃ p ∈ directory u users exclude, p.userId = id ∧ handle ∈ p.handles

theorem handlesOf_wellFormed {r : User} {handle : Text} (given : handle ∈ handlesOf u r) : WellFormed handle :=
  nameHandles_wellFormed (List.mem_eraseDups.mp given)

theorem mem_owners {users : List User} {handle : Text} {id : Int} :
    id ∈ owners u users handle ↔ ∃ r ∈ users, handle ∈ handlesOf u r ∧ r.id = id := by
  simp [owners, and_assoc]

theorem owners_single {users : List User} {r : User} {handle : Text} (among : r ∈ users) (given : handle ∈ handlesOf u r) :
    owners u users handle = {r.id} ↔ OnlyOf u users r handle := by
  rw [Finset.eq_singleton_iff_unique_mem]
  constructor
  · rintro ⟨_, single⟩ s listed gives
    exact single _ (mem_owners.mpr ⟨s, listed, gives, rfl⟩)
  · intro only
    refine ⟨mem_owners.mpr ⟨r, among, given, rfl⟩, fun id owner => ?_⟩
    obtain ⟨s, listed, gives, rfl⟩ := mem_owners.mp owner
    exact only s listed gives

theorem offers_iff {users : List User} {exclude : Option Int} {handle : Text} {id : Int} :
    Offers u users exclude handle id ↔
      ∃ r ∈ users, r.id = id ∧ some r.id ≠ exclude ∧ handle ∈ handlesOf u r ∧ OnlyOf u users r handle := by
  unfold Offers directory
  simp only [List.mem_filterMap]
  constructor
  · rintro ⟨p, ⟨r, among, chosen⟩, rfl, listed⟩
    split_ifs at chosen with excluded none
    cases chosen
    obtain ⟨gives, owned⟩ := List.mem_filter.mp listed
    exact ⟨r, among, rfl, excluded, gives, (owners_single among gives).mp (of_decide_eq_true owned)⟩
  · rintro ⟨r, among, rfl, other, gives, only⟩
    have listed : handle ∈ (handlesOf u r).filter fun handle => owners u users handle = {r.id} :=
      List.mem_filter.mpr ⟨gives, decide_eq_true ((owners_single among gives).mpr only)⟩
    refine ⟨⟨r.id, shownName r, _⟩, ⟨r, among, ?_⟩, rfl, listed⟩
    rw [if_neg other]
    exact if_neg (by simpa using List.ne_nil_of_mem listed)

theorem offers_unique {users : List User} {exclude : Option Int} {handle : Text} {i j : Int}
    (first : Offers u users exclude handle i) (second : Offers u users exclude handle j) : i = j := by
  obtain ⟨r, _, rfl, _, _, only⟩ := offers_iff.mp first
  obtain ⟨s, among, rfl, _, gives, _⟩ := offers_iff.mp second
  exact (only s among gives).symm

theorem table_get {users : List User} {exclude : Option Int} {handle : Text} {id : Int} :
    (table (directory u users exclude)).get handle = some id ↔ Offers u users exclude handle id := by
  have pair {id : Int} : (handle, id) ∈ ((directory u users exclude).flatMap fun p => p.handles.map (·, p.userId)) ↔
      Offers u users exclude handle id := by
    simp only [List.mem_flatMap, List.mem_map, Prod.mk.injEq, Offers]
    constructor
    · rintro ⟨p, among, _, listed, rfl, rfl⟩
      exact ⟨p, among, rfl, listed⟩
    · rintro ⟨p, among, rfl, listed⟩
      exact ⟨p, among, handle, listed, rfl, rfl⟩
  constructor
  · exact fun found => pair.mp (OrderedDict.get_ofPairs found)
  · exact fun offers => OrderedDict.get_ofPairs_single (pair.mpr offers) fun w other => offers_unique (pair.mp other) offers

/-! ## What a text resolves to -/

-- Whom one mention of a text names
def named (u : Unicode) (people : List Person) (hit : Hit Text) : Option Int :=
  (table people).get (handleOf u hit.value)

theorem resolve_pairs (body : Text) (people : List Person) :
    resolve u body people =
      .ofPairs ((mentionsIn u body).filterMap fun hit => (named u people hit).map (handleOf u hit.value, ·)) := by
  rw [OrderedDict.ofPairs, List.foldl_filterMap, resolve]
  congr 1
  funext found hit
  simp only [named]
  cases (table people).get (handleOf u hit.value) <;> rfl

theorem resolve_get {body : Text} {people : List Person} {handle : Text} {id : Int} :
    (resolve u body people).get handle = some id ↔
      (table people).get handle = some id ∧ ∃ hit ∈ mentionsIn u body, handleOf u hit.value = handle := by
  have pair {id : Int} : (handle, id) ∈ (mentionsIn u body).filterMap (fun hit =>
      (named u people hit).map (handleOf u hit.value, ·)) ↔
      (table people).get handle = some id ∧ ∃ hit ∈ mentionsIn u body, handleOf u hit.value = handle := by
    simp only [List.mem_filterMap, Option.map_eq_some_iff, Prod.mk.injEq, named]
    constructor
    · rintro ⟨hit, among, _, found, rfl, rfl⟩
      exact ⟨found, hit, among, rfl⟩
    · rintro ⟨found, hit, among, rfl⟩
      exact ⟨hit, among, id, found, rfl, rfl⟩
  rw [resolve_pairs]
  constructor
  · exact fun found => pair.mp (OrderedDict.get_ofPairs found)
  · intro found
    refine OrderedDict.get_ofPairs_single (pair.mpr found) fun w other => ?_
    exact Option.some.inj ((pair.mp other).1.symm.trans found.1)

-- A handle that stands in a text where a mention can
def Typed (u : Unicode) (body handle : Text) : Prop :=
  ∃ before typed after, body = before ++ codePoint '@' :: (typed ++ after) ∧ mayPrecede u before.getLast? = true ∧
    handleOf u typed = handle

theorem typed_of_hit {body : Text} {hit : Hit Text} (found : hit ∈ mentionsIn u body) :
    Typed u body (handleOf u hit.value) := by
  obtain ⟨done, rest, more, rfl, _, _, matched⟩ := search_sound found
  obtain ⟨rest', rfl, free, _, ⟨after, rfl⟩, _⟩ := mention_some matched
  exact ⟨done, hit.value, after, rfl, by rwa [lastOf, Option.or_none] at free, rfl⟩

-- The mention at a position of a text names one person, and the comment records it so.
def ResolvesTo (u : Unicode) (people : List Person) (body : Text) (position : Nat) (id : Int) : Prop :=
  (∃ hit ∈ mentionsIn u body, hit.start = position) ∧
    ∀ hit ∈ mentionsIn u body, hit.start = position →
      named u people hit = some id ∧ (resolve u body people).get (handleOf u hit.value) = some id

theorem resolvesTo_iff {people : List Person} {handle before after : Text} (formed : WellFormed handle)
    (free : mayPrecede u before.getLast? = true) (stops : Stops u after) {id : Int} :
    ResolvesTo u people (before ++ codePoint '@' :: (handle ++ after)) before.length id ↔
      (table people).get (readBack handle) = some id := by
  obtain ⟨⟨hit, among, start⟩, value⟩ := mentionsIn_handle formed free stops
  have read : ∀ hit ∈ mentionsIn u (before ++ codePoint '@' :: (handle ++ after)), hit.start = before.length →
      handleOf u hit.value = readBack handle := by
    intro hit among start
    rw [value hit among start, handleOf_take formed]
  constructor
  · rintro ⟨_, each⟩
    have found := (each hit among start).1
    rwa [named, read hit among start] at found
  · intro found
    refine ⟨⟨hit, among, start⟩, fun other listed same => ?_⟩
    rw [named, read other listed same]
    exact ⟨found, resolve_get.mpr ⟨found, other, listed, read other listed same⟩⟩

/-! ## How a stored comment is drawn -/

theorem directory_small {readers : Readers} {exclude : Option Int} {handle : Text} {id : Int}
    (offers : Offers u readers.users exclude handle id) : id.natAbs < 2 ^ 64 := by
  obtain ⟨r, among, rfl, _⟩ := offers_iff.mp offers
  exact readers.small r among

theorem natText_short {n : Nat} (small : n < 2 ^ 64) : (natText n).length ≤ Json.maxStrDigits := by
  unfold natText
  split
  · decide
  · rw [List.length_map, List.length_reverse]
    have digits := (Nat.digits_length_le_iff (b := 10) (by decide) n (k := 20)).mpr (small.trans (by decide))
    exact digits.trans (by decide)

-- What a dict of handles and ids holds is read back from the text that stores it.
theorem get_stored {mentions : Dict} (formed : ∀ e ∈ mentions.entries, Plain e.1 ∧ e.2.natAbs < 2 ^ 64) (handle : Text) :
    (Json.get (readMentions (storedMentions mentions)) handle).int? = mentions.get handle := by
  cases entries : mentions.entries with
  | nil =>
    have none : mentions.get handle = none := by simp [OrderedDict.get, entries]
    rw [none, storedMentions, entries]
    rfl
  | cons e rest =>
    let fields : List (Text × Json) := mentions.entries.map fun e => (e.1, .int e.2)
    have distinct : (fields.map Prod.fst).Nodup := by
      rw [List.map_map]
      exact mentions.distinct
    have flat : ∀ f ∈ fields, Flat f := by
      intro f listed
      obtain ⟨e, among, rfl⟩ := List.mem_map.mp listed
      obtain ⟨plain, small⟩ := formed e among
      exact ⟨fun c inside => isHandle_bare (plain c inside), e.2, rfl, natText_short small⟩
    have stored : readMentions (storedMentions mentions) = sortFields fields := by
      have text : storedMentions mentions = some ((Json.dict fields).dumps .standard) := by
        rw [storedMentions, if_neg (by simp [entries])]
      rw [text, readMentions, if_neg (by simp [dumps_spaced]), loads_spaced distinct flat]
    have sorted : ((sortFields fields).map Prod.fst).Nodup :=
      ((List.perm_insertionSort _ fields).map Prod.fst).nodup_iff.mpr distinct
    rw [stored, Json.get]
    cases found : mentions.get handle with
    | some id =>
      have listed : (handle, Json.int id) ∈ sortFields fields :=
        mem_sortFields.mpr (List.mem_map.mpr ⟨_, OrderedDict.get_eq_some.mp found, rfl⟩)
      rw [Proof.Services.lookup_of_mem sorted listed]
      rfl
    | none =>
      have absent : handle ∉ (sortFields fields).map Prod.fst := by
        intro listed
        obtain ⟨f, among, rfl⟩ := List.mem_map.mp listed
        obtain ⟨e, known, rfl⟩ := List.mem_map.mp (mem_sortFields.mp among)
        rw [OrderedDict.get_eq_some.mpr known] at found
        cases found
      rw [Proof.Chain.lookup_none absent]
      rfl

-- The stretch of a mention that is drawn, with the person it names
def drawnHit (u : Unicode) (mentions : List (Text × Json)) (hit : Hit Text) : Option (Hit Int) :=
  (Json.get mentions (handleOf u hit.value)).int?.map (⟨hit.start, 1 + (rstrip marks hit.value).length, ·⟩)

theorem segmentsFrom_cut (names : Int → Option Text) (body : Text) (mentions : List (Text × Json)) (last : Nat)
    (found : List (Hit Text)) :
    segmentsFrom u names body mentions last found =
      (cut body last (found.filterMap (drawnHit u mentions))).map fun piece =>
        ⟨piece.1, piece.2.map fun id => (id, names id)⟩ := by
  induction found generalizing last with
  | nil =>
    rw [segmentsFrom, List.filterMap_nil, cut]
    split <;> rfl
  | cons hit rest ih =>
    rw [segmentsFrom, List.filterMap_cons, drawnHit, handleOf]
    simp only
    cases (Json.get mentions (fold u (rstrip marks hit.value))).int? with
    | none => exact ih last
    | some id =>
      simp only [Option.map_some, cut, List.map_append, List.map_cons, ih, Nat.add_assoc]
      split <;> rfl

theorem drawn_apart (body : Text) (mentions : List (Text × Json)) :
    Apart body.length 0 ((mentionsIn u body).filterMap (drawnHit u mentions)) := by
  refine (hits_apart mention_fits body).filterMap fun hit found kept drawn => ?_
  obtain ⟨id, _, rfl⟩ := Option.map_eq_some_iff.mp drawn
  obtain ⟨_, _, more, _, _, length, matched⟩ := search_sound found
  obtain ⟨_, _, _, rfl, _⟩ := mention_some matched
  have short := (rstrip_starts marks hit.value).length_le
  exact ⟨rfl, by simp only; omega⟩

-- The mentions of a text that name someone, each with its text and whom it names
def resolvedIn (u : Unicode) (body : Text) (people : List Person) : List (Text × Int) :=
  (mentionsIn u body).filterMap fun hit =>
    (named u people hit).map (slice body hit.start (hit.start + (1 + (rstrip marks hit.value).length)), ·)

def mentionRuns (drawn : List Segment) : List (Text × Int) :=
  drawn.filterMap fun s => s.mention.map (s.text, ·.1)

theorem segmentsFrom_draws (names : Int → Option Text) (body : Text) (mentions : List (Text × Json)) :
    (segmentsFrom u names body mentions 0 (mentionsIn u body)).flatMap (·.text) = body ∧
      mentionRuns (segmentsFrom u names body mentions 0 (mentionsIn u body)) =
        (mentionsIn u body).filterMap fun hit => (Json.get mentions (handleOf u hit.value)).int?.map
          (slice body hit.start (hit.start + (1 + (rstrip marks hit.value).length)), ·) := by
  rw [segmentsFrom_cut]
  constructor
  · rw [List.flatMap_map]
    exact cut_joins (drawn_apart body mentions)
  · have marked := cut_marked body 0 ((mentionsIn u body).filterMap (drawnHit u mentions))
    rw [List.map_filterMap] at marked
    rw [mentionRuns, List.filterMap_map]
    refine Eq.trans (List.filterMap_congr fun piece _ => ?_) (marked.trans (List.filterMap_congr fun hit _ => ?_))
    · simp only [Function.comp_apply]
      cases piece.2 <;> rfl
    · unfold drawnHit
      cases (Json.get mentions (handleOf u hit.value)).int? <;> rfl

/-- An entry's comment is as it was posted, or empty. -/
def Kept (u : Unicode) (e : Entry) : Prop :=
  (∃ (readers : Readers) (author : Int), e.people = directory u readers.users (some author)) ∧
    (e.row.deletedAt = none ∧ e.row.mentions = storedMentions (resolve u e.row.body e.people) ∨
      e.row.deletedAt.isSome ∧ e.row.body = [])

theorem post_ok {comments : List Comment} {readers : Readers} {reason : Option Text} {id proposal author : Int}
    {body : Option Text} {now : Int} {row : Comment}
    (made : post u comments readers reason id proposal author body now = .ok row) :
    row.deletedAt = none ∧
      row.mentions = storedMentions (resolve u row.body (directory u readers.users (some author))) := by
  unfold post at made
  cases reason with
  | some reason => cases made
  | none =>
    simp only at made
    split_ifs at made with empty long fast full closed many
    cases made
    exact ⟨rfl, rfl⟩

theorem delete_keeps {e : Entry} {user now : Int} {row : Comment} (deleted : delete e.row user now = .ok row)
    (kept : Kept u e) : Kept u { e with row } := by
  unfold delete at deleted
  split_ifs at deleted with other already
  · cases deleted
    exact kept
  · cases deleted
    exact ⟨kept.1, .inr ⟨rfl, rfl⟩⟩

theorem discussed_kept {log : List Entry} (discussed : Discussed u log) : ∀ e ∈ log, Kept u e := by
  induction discussed with
  | start => exact fun e listed => absurd listed List.not_mem_nil
  | posted before fresh made ih =>
    intro e listed
    rcases List.mem_append.mp listed with old | new
    · exact ih e old
    · rw [List.mem_singleton.mp new]
      exact ⟨⟨_, _, rfl⟩, .inl (post_ok made)⟩
  | deleted before id user now ih =>
    intro e listed
    obtain ⟨old, among, rfl⟩ := List.mem_map.mp listed
    have kept := ih old among
    split_ifs
    · split
      · rename_i row deleted
        exact delete_keeps deleted kept
      · exact kept
    · exact kept

theorem resolve_entries {readers : Readers} {exclude : Option Int} {body : Text} {e : Text × Int}
    (listed : e ∈ (resolve u body (directory u readers.users exclude)).entries) : Plain e.1 ∧ e.2.natAbs < 2 ^ 64 := by
  have found := OrderedDict.get_eq_some.mpr (show (e.1, e.2) ∈ _ from listed)
  have offers := table_get.mp (resolve_get.mp found).1
  obtain ⟨r, _, _, _, given, _⟩ := offers_iff.mp offers
  exact ⟨(handlesOf_wellFormed given).1, directory_small offers⟩

/-- A stored comment is drawn whole, and as a mention exactly what named someone when it was posted. -/
theorem segments_draw {log : List Entry} (discussed : Discussed u log) {e : Entry} (listed : e ∈ log)
    (names : Int → Option Text) :
    (segments u e.row names).flatMap (·.text) = e.row.body ∧
      mentionRuns (segments u e.row names) = resolvedIn u e.row.body e.people := by
  obtain ⟨⟨readers, author, people⟩, ⟨shown, stored⟩ | ⟨deleted, empty⟩⟩ := discussed_kept discussed e listed
  · rw [segments, shown, if_neg (by simp)]
    obtain ⟨whole, runs⟩ := segmentsFrom_draws (u := u) names e.row.body (readMentions e.row.mentions)
    refine ⟨whole, runs.trans ?_⟩
    refine List.filterMap_congr fun hit among => ?_
    have formed : ∀ f ∈ (resolve u e.row.body e.people).entries, Plain f.1 ∧ f.2.natAbs < 2 ^ 64 := by
      intro f inside
      rw [people] at inside
      exact resolve_entries inside
    have same : (resolve u e.row.body e.people).get (handleOf u hit.value) = named u e.people hit := by
      refine Option.ext fun id => ?_
      rw [resolve_get]
      exact ⟨fun found => found.1, fun found => ⟨found, hit, among, rfl⟩⟩
    rw [stored, get_stored formed, same]
  · rw [segments, if_pos deleted, empty]
    exact ⟨rfl, rfl⟩

/-! ## The statement -/

/-- Mentions name the person they say, among these readers and for this author. -/
structure MentionsRight (u : Unicode) (readers : Readers) (author : Int) : Prop where
  own : ∀ handle id, Offers u readers.users (some author) handle id →
    (∃! r, r ∈ readers.users ∧ handle ∈ handlesOf u r) ∧ ∀ r ∈ readers.users, handle ∈ handlesOf u r → r.id = id
  works : ∀ handle id, Offers u readers.users (some author) handle id →
    ∀ before after, mayPrecede u before.getLast? = true → Stops u after →
      ResolvesTo u (directory u readers.users (some author)) (before ++ codePoint '@' :: (handle ++ after)) before.length id
  typed : ∀ body handle id, (resolve u body (directory u readers.users (some author))).get handle = some id →
    Offers u readers.users (some author) handle id ∧ Typed u body handle
  drawn : ∀ log, Discussed u log → ∀ e ∈ log, ∀ names,
    (segments u e.row names).flatMap (·.text) = e.row.body ∧
      mentionRuns (segments u e.row names) = resolvedIn u e.row.body e.people

/-- Each handle that one reader's name alone gives is read back as such a handle of the same reader. -/
def ReadsBack (u : Unicode) (readers : Readers) (author : Int) : Prop :=
  ∀ r ∈ readers.users, r.id ≠ author → ∀ handle ∈ handlesOf u r, OnlyOf u readers.users r handle →
    readBack handle ∈ handlesOf u r ∧ OnlyOf u readers.users r (readBack handle)

theorem offers_own {readers : Readers} {exclude : Option Int} {handle : Text} {id : Int}
    (offers : Offers u readers.users exclude handle id) :
    (∃! r, r ∈ readers.users ∧ handle ∈ handlesOf u r) ∧ ∀ r ∈ readers.users, handle ∈ handlesOf u r → r.id = id := by
  obtain ⟨r, among, rfl, _, given, only⟩ := offers_iff.mp offers
  refine ⟨⟨r, ⟨among, given⟩, fun s ⟨listed, gives⟩ => ?_⟩, only⟩
  exact List.inj_on_of_nodup_map readers.distinct listed among (only s listed gives)

theorem readsBack_of_right {readers : Readers} {author : Int} (right : MentionsRight u readers author) :
    ReadsBack u readers author := by
  intro r among other handle given only
  have offers : Offers u readers.users (some author) handle r.id :=
    offers_iff.mpr ⟨r, among, rfl, fun same => other (Option.some.inj same), given, only⟩
  have free : mayPrecede u ([] : Text).getLast? = true := rfl
  have stops : Stops u [] := fun c last => nomatch last
  have found := (resolvesTo_iff (handlesOf_wellFormed given) free stops).mp (right.works handle r.id offers [] [] free stops)
  obtain ⟨s, listed, same, _, gives, single⟩ := offers_iff.mp (table_get.mp found)
  obtain rfl := List.inj_on_of_nodup_map readers.distinct listed among same
  exact ⟨gives, single⟩

theorem right_of_readsBack {readers : Readers} {author : Int} (readsBack : ReadsBack u readers author) :
    MentionsRight u readers author := by
  refine ⟨fun handle id => offers_own, ?_, ?_, fun log discussed e listed => segments_draw discussed listed⟩
  · intro handle id offers before after free stops
    obtain ⟨r, among, rfl, other, given, only⟩ := offers_iff.mp offers
    obtain ⟨gives, single⟩ := readsBack r among (fun same => other (congrArg some same)) handle given only
    refine (resolvesTo_iff (handlesOf_wellFormed given) free stops).mpr (table_get.mpr (offers_iff.mpr ?_))
    exact ⟨r, among, rfl, other, gives, single⟩
  · intro body handle id found
    obtain ⟨known, hit, among, rfl⟩ := resolve_get.mp found
    exact ⟨table_get.mp known, typed_of_hit among⟩

/-- Mentions name whom they say exactly where every handle a name alone gives is read back as one of its own. -/
theorem mentions_exact (u : Unicode) (readers : Readers) (author : Int) :
    MentionsRight u readers author ↔ ReadsBack u readers author :=
  ⟨readsBack_of_right, right_of_readsBack⟩

theorem readBack_short {handle : Text} (short : handle.length ≤ maxHandle)
    (ends : ∀ c ∈ handle.getLast?, marks.contains c = false) : readBack handle = handle := by
  rw [readBack, List.take_of_length_le short, rstrip]
  cases backwards : handle.reverse with
  | nil => rw [← List.reverse_reverse handle, backwards]; rfl
  | cons c rest =>
    have last : c ∈ handle.getLast? := by
      rw [← List.head?_reverse, backwards]
      exact rfl
    rw [List.dropWhile_cons_of_neg (by simpa using ends c last), ← backwards, List.reverse_reverse]

/-- So they do where no handle is longer than a mention can be or ends in a mark that is stripped from one. -/
theorem mentions_right_of_short {readers : Readers} {author : Int}
    (short : ∀ r ∈ readers.users, ∀ handle ∈ handlesOf u r,
      handle.length ≤ maxHandle ∧ ∀ c ∈ handle.getLast?, marks.contains c = false) : MentionsRight u readers author := by
  refine right_of_readsBack fun r among _ handle given only => ?_
  obtain ⟨fits, ends⟩ := short r among handle given
  rw [readBack_short fits ends]
  exact ⟨given, only⟩

-- Every other character stands for itself.
def asciiUnicode : Unicode where
  nfkd t := t
  combining _ := false
  lower t := t.map asciiLower
  wordChar c := isLowerLetter c || isUpperLetter c || Json.isDigit c || c == codePoint '_'
  hidden _ := false
  nfkd_ascii _ _ := rfl
  combining_ascii _ _ := rfl
  lower_ascii _ _ := rfl
  wordChar_ascii _ _ := rfl

def initialReaders : Readers :=
  ⟨[⟨1, some (text "Ada Lovelace"), text "ada@e.com"⟩, ⟨2, some (text "J. Smith"), text "j@e.com"⟩], by decide, by decide⟩

example : (directory asciiUnicode initialReaders.users (some 1)).map (·.handles) = [[text "j.", text "j..smith"]] := by decide

/-- J. Smith is offered the handle `j.`, and `@j.` names nobody. -/
theorem mentions_wrong : ¬ ∀ (u : Unicode) (readers : Readers) (author : Int), MentionsRight u readers author := by
  intro right
  have back := readsBack_of_right (right asciiUnicode initialReaders 1)
  obtain ⟨given, _⟩ := back ⟨2, some (text "J. Smith"), text "j@e.com"⟩ (List.mem_cons_of_mem _ List.mem_cons_self)
    (by decide) (text "j.") (by decide) (by unfold OnlyOf; decide)
  revert given
  decide

end QVault.Proof.Discussion
