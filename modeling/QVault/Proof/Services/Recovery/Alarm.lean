import QVault.Services.Recovery.Alarm
import Mathlib.Data.List.Sort

/-!
# The alarm of wrong codes

However attempts interleave, none that reached a level ends without its alarm; a level is raised once in a
day where no attempt looks for an alarm that another is about to raise.
-/

namespace QVault.Proof.Recovery.Alarm
open QVault.Recovery QVault.Recovery.Alarm

/-! ## Levels -/

theorem alarmLevel_none {recent : Nat} (none' : alarmLevel recent = none) {level : Nat} (isLevel : level ∈ alarmLevels) :
    recent < level := by
  rw [alarmLevel, List.getLast?_eq_none_iff, List.filter_eq_nil_iff] at none'
  simpa using none' level isLevel

theorem alarmLevel_some {recent top : Nat} (found : alarmLevel recent = some top) :
    top ∈ alarmLevels ∧ top ≤ recent ∧ ∀ level ∈ alarmLevels, level ≤ recent → level ≤ top := by
  have sorted : (alarmLevels.filter (· ≤ recent)).Pairwise (· ≤ ·) := List.Pairwise.filter _ (by decide)
  rw [alarmLevel] at found
  have among := List.mem_of_getLast? found
  rw [List.mem_filter, decide_eq_true_eq] at among
  refine ⟨among.1, among.2, fun level isLevel reached => ?_⟩
  have listed : level ∈ alarmLevels.filter (· ≤ recent) := List.mem_filter.mpr ⟨isLevel, by simpa using reached⟩
  obtain ⟨before, whole⟩ := List.getLast?_eq_some_iff.mp found
  rw [whole] at sorted listed
  rcases List.mem_append.mp listed with early | last
  · exact (List.pairwise_append.mp sorted).2.2 level early top (List.mem_singleton_self _)
  · exact (List.mem_singleton.mp last).le

/-! ## What a step does -/

section Steps
variable {s : Tables}

-- What an attempt has counted
def countOf : Stage → Option Nat
  | .inserted => none
  | .counted recent | .clear recent _ | .done recent => some recent

-- The four things a step can do, or nothing
inductive Effect (s : Tables) : Step → Tables → Prop
  | idle (step : Step) : Effect s step s
  | insert (userId now : Int) : Effect s (.insert userId now) (s.insert userId now)
  | count {i : Nat} {a : Attempt} (here : s.attempts[i]? = some a) (stage : a.stage = .inserted) :
    Effect s (.count i) (s.moved i a (.counted (s.recent a.userId a.now)))
  | quiet {i recent : Nat} {a : Attempt} (here : s.attempts[i]? = some a) (stage : a.stage = .counted recent)
    (low : alarmLevel recent = none) : Effect s (.look i) (s.moved i a (.done recent))
  | known {i recent level : Nat} {a : Attempt} (here : s.attempts[i]? = some a) (stage : a.stage = .counted recent)
    (high : alarmLevel recent = some level) (heard : s.heard a.userId level a.now = true) :
    Effect s (.look i) (s.moved i a (.done recent))
  | clear {i recent level : Nat} {a : Attempt} (here : s.attempts[i]? = some a) (stage : a.stage = .counted recent)
    (high : alarmLevel recent = some level) (silent : s.heard a.userId level a.now = false) :
    Effect s (.look i) (s.moved i a (.clear recent level))
  | raise {i recent level : Nat} {a : Attempt} (here : s.attempts[i]? = some a) (stage : a.stage = .clear recent level) :
    Effect s (.raise i) { s.moved i a (.done recent) with pauses := s.pauses ++ [⟨a.userId, a.now + pause, level, a.now⟩] }

theorem next_effect (s : Tables) (step : Step) : Effect s step (s.next step) := by
  cases step with
  | insert userId now => exact .insert userId now
  | count i =>
    rw [Tables.next, Tables.count]
    split
    · rename_i here
      exact .count here rfl
    · exact .idle _
  | look i =>
    rw [Tables.next, Tables.look]
    split
    · rename_i here
      split
      · rename_i low
        exact .quiet here rfl low
      · rename_i high
        split
        · rename_i heard
          exact .known here rfl high heard
        · rename_i silent
          exact .clear here rfl high (Bool.not_eq_true _ ▸ silent)
    · exact .idle _
  | raise i =>
    rw [Tables.next, Tables.raise]
    split
    · rename_i here
      exact .raise here rfl
    · exact .idle _

theorem moved_at {i : Nat} {a : Attempt} {stage : Stage} (here : s.attempts[i]? = some a) {j : Nat} {b : Attempt} :
    (s.moved i a stage).attempts[j]? = some b ↔
      (j = i ∧ b = { a with stage := stage }) ∨ (j ≠ i ∧ s.attempts[j]? = some b) := by
  obtain ⟨inside, -⟩ := List.getElem?_eq_some_iff.mp here
  unfold Tables.moved
  rw [List.getElem?_set]
  by_cases same : i = j
  · subst same
    simp [inside, eq_comm]
  · simp [same, Ne.symm same]

theorem mem_moved {i : Nat} {a : Attempt} {stage : Stage} {b : Attempt} (listed : b ∈ (s.moved i a stage).attempts) :
    b = { a with stage := stage } ∨ b ∈ s.attempts := (List.mem_or_eq_of_mem_set listed).symm

theorem moved_self {i : Nat} {a : Attempt} {stage : Stage} (here : s.attempts[i]? = some a) :
    { a with stage := stage } ∈ (s.moved i a stage).attempts := by
  have there : (s.moved i a stage).attempts[i]? = some { a with stage := stage } := (moved_at here).mpr (.inl ⟨rfl, rfl⟩)
  exact List.mem_of_getElem? there

theorem moved_other {i : Nat} {a : Attempt} {stage : Stage} (here : s.attempts[i]? = some a) {b : Attempt}
    (listed : b ∈ s.attempts) (other : b ≠ a) : b ∈ (s.moved i a stage).attempts := by
  obtain ⟨j, there⟩ := List.mem_iff_getElem?.mp listed
  have apart : j ≠ i := by
    rintro rfl
    exact other (Option.some.inj (there.symm.trans here))
  exact List.mem_of_getElem? ((moved_at here).mpr (.inr ⟨apart, there⟩))

end Steps

/-! ## No level is skipped -/

-- An alarm for whoever reached the level, in the day before this instant
def Alarmed (s : Tables) (userId : Int) (level : Nat) (now : Int) : Prop :=
  ∃ p ∈ s.pauses, p.userId = userId ∧ level ≤ p.level ∧ now - throttleWindow < p.createdAt

structure Sound (s : Tables) : Prop where
  clear : ∀ a ∈ s.attempts, ∀ recent level, a.stage = .clear recent level → alarmLevel recent = some level
  heard : ∀ a ∈ s.attempts, ∀ recent, a.stage = .done recent → ∀ level ∈ alarmLevels, level ≤ recent →
    Alarmed s a.userId level a.now
  owned : ∀ f ∈ s.failures, ∃ a ∈ s.attempts, a.userId = f.userId
  -- Once all have counted, the last to count has counted every row.
  last : ∀ userId, (∃ a ∈ s.attempts, a.userId = userId) →
    (∀ a ∈ s.attempts, a.userId = userId → countOf a.stage ≠ none) →
    ∃ a ∈ s.attempts, a.userId = userId ∧ countOf a.stage = some (s.recent userId a.now)

section Preserved
variable {s : Tables}

theorem Alarmed.grown {s' : Tables} {userId now : Int} {level : Nat} (alarmed : Alarmed s userId level now)
    (more : ∀ p ∈ s.pauses, p ∈ s'.pauses) : Alarmed s' userId level now := by
  obtain ⟨p, listed, facts⟩ := alarmed
  exact ⟨p, more p listed, facts⟩

theorem heard_alarmed {userId now : Int} {level : Nat} (heard : s.heard userId level now = true) :
    Alarmed s userId level now := by
  obtain ⟨p, listed, facts⟩ := List.any_eq_true.mp heard
  simp only [Bool.and_eq_true, decide_eq_true_eq] at facts
  exact ⟨p, listed, facts.1.1, facts.1.2, facts.2⟩

-- An attempt moves on with the count it has, in whatever alarms there are then.
theorem sound_moved (sound : Sound s) {i recent : Nat} {a : Attempt} {stage : Stage} (here : s.attempts[i]? = some a)
    (counted : countOf a.stage = some recent) (kept : countOf stage = some recent) {pauses : List KitPause}
    (more : ∀ p ∈ s.pauses, p ∈ pauses)
    (clear : ∀ recent level, stage = .clear recent level → alarmLevel recent = some level)
    (heard : ∀ recent, stage = .done recent → ∀ level ∈ alarmLevels, level ≤ recent →
      Alarmed { s.moved i a stage with pauses := pauses } a.userId level a.now) :
    Sound { s.moved i a stage with pauses := pauses } where
  clear b listed := by
    rcases mem_moved listed with rfl | old
    · exact clear
    · exact sound.clear b old
  heard b listed := by
    rcases mem_moved listed with rfl | old
    · exact heard
    · exact fun recent done level isLevel reached => (sound.heard b old recent done level isLevel reached).grown more
  owned f listed := by
    obtain ⟨b, old, owner⟩ := sound.owned f listed
    by_cases same : b = a
    · exact ⟨_, moved_self here, same ▸ owner⟩
    · exact ⟨b, moved_other here old same, owner⟩
  last userId someone all := by
    have someone' : ∃ b ∈ s.attempts, b.userId = userId := by
      obtain ⟨b, listed, owner⟩ := someone
      rcases mem_moved listed with rfl | old
      · exact ⟨a, List.mem_of_getElem? here, owner⟩
      · exact ⟨b, old, owner⟩
    have all' : ∀ b ∈ s.attempts, b.userId = userId → countOf b.stage ≠ none := by
      intro b old owner
      by_cases same : b = a
      · rw [same, counted]
        simp
      · exact all b (moved_other here old same) owner
    obtain ⟨b, old, owner, count⟩ := sound.last userId someone' all'
    by_cases same : b = a
    · subst same
      exact ⟨_, moved_self here, owner, kept.trans (counted.symm.trans count)⟩
    · exact ⟨b, moved_other here old same, owner, count⟩

theorem recent_insert {userId now other at' : Int} (apart : userId ≠ other) :
    (s.insert userId now).recent other at' = s.recent other at' := by
  simp [Tables.recent, Tables.insert, List.filter_append, apart]

theorem sound_insert (sound : Sound s) (userId now : Int) : Sound (s.insert userId now) where
  clear a listed := by
    rcases List.mem_append.mp listed with old | new
    · exact sound.clear a old
    · rw [List.mem_singleton.mp new]
      exact nofun
  heard a listed := by
    rcases List.mem_append.mp listed with old | new
    · exact sound.heard a old
    · rw [List.mem_singleton.mp new]
      exact nofun
  owned f listed := by
    rcases List.mem_append.mp listed with old | new
    · obtain ⟨a, among, owner⟩ := sound.owned f old
      exact ⟨a, List.mem_append_left _ among, owner⟩
    · rw [List.mem_singleton.mp new]
      exact ⟨_, List.mem_append_right _ (List.mem_singleton_self _), rfl⟩
  last other someone all := by
    have apart : userId ≠ other := by
      rintro rfl
      exact all _ (List.mem_append_right _ (List.mem_singleton_self _)) rfl rfl
    have someone' : ∃ a ∈ s.attempts, a.userId = other := by
      obtain ⟨a, listed, owner⟩ := someone
      rcases List.mem_append.mp listed with old | new
      · exact ⟨a, old, owner⟩
      · rw [List.mem_singleton.mp new] at owner
        exact absurd owner apart
    obtain ⟨a, old, owner, count⟩ := sound.last other someone' fun a old => all a (List.mem_append_left _ old)
    exact ⟨a, List.mem_append_left _ old, owner, count.trans (congrArg some (recent_insert apart).symm)⟩

theorem sound_count (sound : Sound s) {i : Nat} {a : Attempt} (here : s.attempts[i]? = some a)
    (stage : a.stage = .inserted) : Sound (s.moved i a (.counted (s.recent a.userId a.now))) where
  clear b listed := by
    rcases mem_moved listed with rfl | old
    · exact nofun
    · exact sound.clear b old
  heard b listed := by
    rcases mem_moved listed with rfl | old
    · exact nofun
    · exact sound.heard b old
  owned f listed := by
    obtain ⟨b, old, owner⟩ := sound.owned f listed
    by_cases same : b = a
    · exact ⟨_, moved_self here, same ▸ owner⟩
    · exact ⟨b, moved_other here old same, owner⟩
  last userId someone all := by
    by_cases own : a.userId = userId
    · exact ⟨_, moved_self here, own, own ▸ rfl⟩
    · have someone' : ∃ b ∈ s.attempts, b.userId = userId := by
        obtain ⟨b, listed, owner⟩ := someone
        rcases mem_moved listed with rfl | old
        · exact absurd owner own
        · exact ⟨b, old, owner⟩
      have other : ∀ b ∈ s.attempts, b.userId = userId → b ≠ a := fun b _ owner same => own (same ▸ owner)
      obtain ⟨b, old, owner, count⟩ := sound.last userId someone' fun b old owner =>
        all b (moved_other here old (other b old owner)) owner
      exact ⟨b, moved_other here old (other b old owner), owner, count⟩

theorem sound_next (sound : Sound s) (step : Step) : Sound (s.next step) := by
  have effect := next_effect s step
  generalize s.next step = after at effect ⊢
  cases effect with
  | idle => exact sound
  | insert userId now => exact sound_insert sound userId now
  | count here stage => exact sound_count sound here stage
  | @quiet i recent a here stage low =>
    refine sound_moved sound here (by rw [stage]; rfl) rfl (fun p listed => listed) nofun ?_
    rintro _ ⟨⟩ level isLevel reached
    have below := alarmLevel_none low isLevel
    omega
  | @known i recent top a here stage high heard =>
    refine sound_moved sound here (by rw [stage]; rfl) rfl (fun p listed => listed) nofun ?_
    rintro _ ⟨⟩ level isLevel reached
    obtain ⟨p, listed, owner, above, inside⟩ := heard_alarmed heard
    exact ⟨p, listed, owner, ((alarmLevel_some high).2.2 level isLevel reached).trans above, inside⟩
  | @clear i recent top a here stage high silent =>
    refine sound_moved sound here (by rw [stage]; rfl) rfl (fun p listed => listed) ?_ nofun
    rintro _ _ ⟨⟩
    exact high
  | @raise i recent top a here stage =>
    have high := sound.clear a (List.mem_of_getElem? here) recent top stage
    refine sound_moved sound here (by rw [stage]; rfl) rfl (fun p listed => List.mem_append_left _ listed) nofun ?_
    rintro _ ⟨⟩ level isLevel reached
    refine ⟨_, List.mem_append_right _ (List.mem_singleton_self _), rfl, (alarmLevel_some high).2.2 level isLevel reached, ?_⟩
    have day : (0 : Int) < throttleWindow := by decide
    simp only
    omega

end Preserved

theorem sound_start : Sound start where
  clear := nofun
  heard := nofun
  owned := nofun
  last := by
    rintro userId ⟨a, none, -⟩
    exact nomatch none

theorem sound_run (steps : List Step) : Sound (run steps) := by
  have kept : ∀ s step, Sound s → True → Sound (Tables.next s step) := fun s step sound _ => sound_next sound step
  exact Runs.run_invariant kept start steps sound_start (Runs.guarded_of_forall (fun _ _ _ => trivial) start)

/-! ## A level is raised once -/

-- When an attempt looks and finds no alarm, no other that found none of the same level within a day of it has
-- yet to raise it.
def Alone (s : Tables) : Step → Prop
  | .look i => ∀ a recent level, s.attempts[i]? = some a → a.stage = .counted recent → alarmLevel recent = some level →
    s.heard a.userId level a.now = false →
    ∀ b ∈ s.attempts, ∀ other, b.userId = a.userId → b.stage = .clear other level → throttleWindow ≤ |a.now - b.now|
  | _ => True

-- No level is raised twice for one person within a day.
def OnceADay (s : Tables) : Prop :=
  s.pauses.Pairwise fun p q => p.userId = q.userId → p.level = q.level → throttleWindow ≤ |p.createdAt - q.createdAt|

structure Apart (s : Tables) : Prop where
  once : OnceADay s
  raised : ∀ a ∈ s.attempts, ∀ recent level, a.stage = .clear recent level → ∀ p ∈ s.pauses,
    p.userId = a.userId → p.level = level → throttleWindow ≤ |a.now - p.createdAt|
  pending : ∀ (i j : Nat) (a b : Attempt) (recent recent' level : Nat), i ≠ j → s.attempts[i]? = some a →
    s.attempts[j]? = some b → a.stage = .clear recent level → b.stage = .clear recent' level → a.userId = b.userId →
    throttleWindow ≤ |a.now - b.now|

section Apart
variable {s : Tables}

theorem silent_apart {userId now : Int} {level : Nat} (silent : s.heard userId level now = false) {p : KitPause}
    (listed : p ∈ s.pauses) (owner : p.userId = userId) (same : p.level = level) :
    throttleWindow ≤ |now - p.createdAt| := by
  by_contra near
  have inside : now - throttleWindow < p.createdAt := by
    have bound := (abs_lt.mp (not_le.mp near)).2
    omega
  have none := List.any_eq_false.mp silent p listed
  simp [owner, same, inside] at none

theorem apart_insert (apart : Apart s) (userId now : Int) : Apart (s.insert userId now) where
  once := apart.once
  raised a listed := by
    rcases List.mem_append.mp listed with old | new
    · exact apart.raised a old
    · rw [List.mem_singleton.mp new]
      exact nofun
  pending i j a b recent recent' level different here there clear clear' := by
    have old : ∀ {k : Nat} {c : Attempt} {count : Nat}, (s.insert userId now).attempts[k]? = some c →
        c.stage = .clear count level → s.attempts[k]? = some c := by
      intro k c count found stage
      have appended : (s.attempts ++ [⟨userId, now, .inserted⟩])[k]? = some c := found
      by_cases before : k < s.attempts.length
      · rwa [List.getElem?_append_left before] at appended
      · rw [List.getElem?_append_right (not_lt.mp before)] at appended
        have fresh := List.mem_singleton.mp (List.mem_of_getElem? appended)
        rw [fresh] at stage
        cases stage
    exact apart.pending i j a b recent recent' level different (old here clear) (old there clear') clear clear'

-- An attempt moves on, and is not about to raise an alarm.
theorem apart_moved (apart : Apart s) {i : Nat} {a : Attempt} {stage : Stage} (here : s.attempts[i]? = some a)
    (quiet : ∀ recent level, stage ≠ .clear recent level) : Apart (s.moved i a stage) where
  once := apart.once
  raised b listed recent level clear := by
    rcases mem_moved listed with rfl | old
    · exact absurd clear (quiet recent level)
    · exact apart.raised b old recent level clear
  pending j k b c recent recent' level different found found' clear clear' := by
    rcases (moved_at here).mp found with ⟨-, rfl⟩ | ⟨-, old⟩
    · exact absurd clear (quiet recent level)
    · rcases (moved_at here).mp found' with ⟨-, rfl⟩ | ⟨-, old'⟩
      · exact absurd clear' (quiet recent' level)
      · exact apart.pending j k b c recent recent' level different old old' clear clear'

theorem apart_clear (apart : Apart s) {i recent level : Nat} {a : Attempt} (here : s.attempts[i]? = some a)
    (silent : s.heard a.userId level a.now = false)
    (alone : ∀ b ∈ s.attempts, ∀ other, b.userId = a.userId → b.stage = .clear other level →
      throttleWindow ≤ |a.now - b.now|) : Apart (s.moved i a (.clear recent level)) where
  once := apart.once
  raised b listed count top clear p among owner same := by
    rcases mem_moved listed with rfl | old
    · cases clear
      exact silent_apart silent among owner same
    · exact apart.raised b old count top clear p among owner same
  pending j k b c count count' top different found found' clear clear' owner := by
    rcases (moved_at here).mp found with ⟨rfl, rfl⟩ | ⟨_, old⟩
    · rcases (moved_at here).mp found' with ⟨rfl, -⟩ | ⟨_, old'⟩
      · exact absurd rfl different
      · cases clear
        exact alone c (List.mem_of_getElem? old') count' owner.symm clear'
    · rcases (moved_at here).mp found' with ⟨rfl, rfl⟩ | ⟨_, old'⟩
      · cases clear'
        rw [abs_sub_comm]
        exact alone b (List.mem_of_getElem? old) count owner clear
      · exact apart.pending j k b c count count' top different old old' clear clear' owner

theorem apart_raise (apart : Apart s) {i recent level : Nat} {a : Attempt} (here : s.attempts[i]? = some a)
    (stage : a.stage = .clear recent level) :
    Apart { s.moved i a (.done recent) with pauses := s.pauses ++ [⟨a.userId, a.now + pause, level, a.now⟩] } where
  once := by
    refine List.pairwise_append.mpr ⟨apart.once, List.pairwise_singleton _ _, ?_⟩
    intro p listed q last owner same
    rw [List.mem_singleton.mp last] at owner same ⊢
    rw [abs_sub_comm]
    exact apart.raised a (List.mem_of_getElem? here) recent level stage p listed owner same
  raised b listed count top clear p among owner same := by
    obtain ⟨j, found⟩ := List.mem_iff_getElem?.mp listed
    rcases (moved_at here).mp found with ⟨-, rfl⟩ | ⟨other, old⟩
    · cases clear
    · rcases List.mem_append.mp among with before | last
      · exact apart.raised b (List.mem_of_getElem? old) count top clear p before owner same
      · rw [List.mem_singleton.mp last] at owner same ⊢
        have isLevel : level = top := same
        exact apart.pending j i b a count recent top other old here clear (isLevel ▸ stage) owner.symm
  pending :=
    have moved : Apart (s.moved i a (.done recent)) := apart_moved apart here nofun
    moved.pending

theorem apart_next (apart : Apart s) (step : Step) (alone : Alone s step) : Apart (s.next step) := by
  have effect := next_effect s step
  generalize s.next step = after at effect ⊢
  cases effect with
  | idle => exact apart
  | insert userId now => exact apart_insert apart userId now
  | count here stage => exact apart_moved apart here nofun
  | quiet here stage low => exact apart_moved apart here nofun
  | known here stage high heard => exact apart_moved apart here nofun
  | clear here stage high silent => exact apart_clear apart here silent (alone _ _ _ here stage high silent)
  | raise here stage => exact apart_raise apart here stage

end Apart

theorem apart_start : Apart start where
  once := .nil
  raised _ none := nomatch none
  pending _ _ _ _ _ _ _ _ none := nomatch none

theorem apart_run {steps : List Step} (alone : Runs.Guarded Tables.next Alone start steps) : Apart (run steps) := by
  have kept : ∀ s step, Apart s → Alone s step → Apart (Tables.next s step) := fun s step apart alone =>
    apart_next apart step alone
  exact Runs.run_invariant kept start steps apart_start alone

/-! ### Two that look together -/

section Together
variable {s : Tables}

theorem look_clear {i recent level : Nat} {userId now : Int} (here : s.attempts[i]? = some ⟨userId, now, .counted recent⟩)
    (high : alarmLevel recent = some level) (silent : s.heard userId level now = false) :
    s.look i = s.moved i ⟨userId, now, .counted recent⟩ (.clear recent level) := by
  simp [Tables.look, here, high, silent]

theorem raise_clear {i recent level : Nat} {userId now : Int}
    (here : s.attempts[i]? = some ⟨userId, now, .clear recent level⟩) :
    s.raise i = { s.moved i ⟨userId, now, .clear recent level⟩ (.done recent) with
      pauses := s.pauses ++ [⟨userId, now + pause, level, now⟩] } := by
  simp [Tables.raise, here]

theorem raised_twice {i : Nat} (crowded : ¬ Alone s (.look i)) :
    ∃ j, ¬ OnceADay ((((s.next (.look i)).next (.raise i)).next (.raise j))) := by
  simp only [Alone] at crowded
  push Not at crowded
  obtain ⟨a, recent, level, here, stage, high, silent, b, listed, other, owner, clear, near⟩ := crowded
  obtain ⟨userId, now, _⟩ := a
  obtain ⟨userId', now', _⟩ := b
  simp only at stage clear owner near silent
  subst stage clear owner
  obtain ⟨j, there⟩ := List.mem_iff_getElem?.mp listed
  have different : j ≠ i := by
    rintro rfl
    rw [here] at there
    cases there
  refine ⟨j, ?_⟩
  have first := look_clear here high silent
  have mine : (s.look i).attempts[i]? = some ⟨userId', now, .clear recent level⟩ := by
    rw [first]
    exact (moved_at here).mpr (.inl ⟨rfl, rfl⟩)
  have its : (s.look i).attempts[j]? = some ⟨userId', now', .clear other level⟩ := by
    rw [first]
    exact (moved_at here).mpr (.inr ⟨different, there⟩)
  have second := raise_clear mine
  have still : ((s.look i).raise i).attempts[j]? = some ⟨userId', now', .clear other level⟩ := by
    rw [second]
    exact (moved_at mine).mpr (.inr ⟨different, its⟩)
  intro once
  have apart : ∀ p ∈ ((s.look i).raise i).pauses, ∀ q ∈ [(⟨userId', now' + pause, level, now'⟩ : KitPause)],
      p.userId = q.userId → p.level = q.level → throttleWindow ≤ |p.createdAt - q.createdAt| := by
    have pairs : OnceADay (((s.look i).raise i).raise j) := once
    rw [raise_clear still] at pairs
    exact (List.pairwise_append.mp pairs).2.2
  have last : (⟨userId', now + pause, level, now⟩ : KitPause) ∈ ((s.look i).raise i).pauses := by
    rw [second]
    exact List.mem_append_right _ (List.mem_singleton_self _)
  exact absurd (apart _ last _ (List.mem_singleton_self _) rfl rfl) (not_le.mpr near)

end Together

/-! ## At an instant -/

-- The count of the day before an instant, and the alarm for it
def AlarmHeard (s : Tables) (userId now : Int) : Prop :=
  ∀ level ∈ alarmLevels, level ≤ s.recent userId now → Alarmed s userId level now

-- No attempt is under way, and each alarm of the day before one of them is still of this day.
def Settled (s : Tables) (userId now : Int) : Prop :=
  ∀ a ∈ s.attempts, a.userId = userId → (∃ recent, a.stage = .done recent) ∧ a.now ≤ now ∧
    ∀ p ∈ s.pauses, p.userId = userId → a.now - throttleWindow < p.createdAt → now - throttleWindow < p.createdAt

theorem recent_mono {s : Tables} {userId earlier later : Int} (order : earlier ≤ later) :
    s.recent userId later ≤ s.recent userId earlier := by
  refine List.Sublist.length_le (List.monotone_filter_right _ fun f => ?_)
  simp only [Bool.decide_and, Bool.and_eq_true, decide_eq_true_eq]
  omega

theorem heard_settled {s : Tables} (sound : Sound s) {userId now : Int} (settled : Settled s userId now) :
    AlarmHeard s userId now := by
  intro level isLevel reached
  have positive : ∀ level ∈ alarmLevels, 0 < level := by decide
  have some' : s.failures.filter (fun f => f.userId = userId ∧ now - throttleWindow < f.createdAt) ≠ [] :=
    List.ne_nil_of_length_pos (lt_of_lt_of_le (positive level isLevel) reached)
  obtain ⟨f, listed⟩ := List.exists_mem_of_ne_nil _ some'
  have facts := List.mem_filter.mp listed
  simp only [Bool.decide_and, Bool.and_eq_true, decide_eq_true_eq] at facts
  obtain ⟨owner, among, isOwner⟩ := sound.owned f facts.1
  have all : ∀ a ∈ s.attempts, a.userId = userId → countOf a.stage ≠ none := by
    intro a here own
    obtain ⟨recent, done⟩ := (settled a here own).1
    rw [done]
    exact Option.some_ne_none _
  obtain ⟨a, here, own, count⟩ := sound.last userId ⟨owner, among, isOwner.trans facts.2.1⟩ all
  obtain ⟨⟨recent, done⟩, order, kept⟩ := settled a here own
  rw [done] at count
  have counted : recent = s.recent userId a.now := Option.some.inj count
  obtain ⟨p, isPause, owner', above, inside⟩ := sound.heard a here recent done level isLevel
    (reached.trans (counted ▸ recent_mono order))
  exact ⟨p, isPause, owner'.trans own, above, kept p isPause (owner'.trans own) inside⟩

/-! ## In one transaction -/

theorem afterFailure_pauses {suite : Suite} {userId now : Int} {db after : Db} {s : Tables}
    (ran : afterFailure suite userId now db = .ok ((), after)) (failures : s.failures = db.kitFailures)
    (pauses : s.pauses = db.kitPauses) :
    after.kitPauses = match alarmLevel (s.recent userId now) with
      | none => s.pauses
      | some level => if s.heard userId level now then s.pauses else s.pauses ++ [⟨userId, now + pause, level, now⟩] := by
  obtain ⟨_, _, got, rest⟩ := Transactions.bind_ok.mp ran
  cases got
  rw [pauses]
  cases level : alarmLevel (s.recent userId now) with
  | none =>
    rw [Tables.recent, failures] at level
    rw [level] at rest
    cases rest
    rfl
  | some top =>
    rw [Tables.recent, failures] at level
    rw [level] at rest
    dsimp only at rest
    simp only [Tables.heard, pauses]
    split
    · rename_i heard
      rw [if_pos heard] at rest
      cases rest
      rfl
    · rename_i silent
      rw [if_neg silent] at rest
      obtain ⟨_, _, written, logged⟩ := Transactions.bind_ok.mp rest
      cases written
      cases logged
      rfl

theorem raise_pauses {s : Tables} {i recent : Nat} {userId now : Int}
    (here : s.attempts[i]? = some ⟨userId, now, .counted recent⟩) :
    ((s.look i).raise i).pauses = match alarmLevel recent with
      | none => s.pauses
      | some level => if s.heard userId level now then s.pauses else s.pauses ++ [⟨userId, now + pause, level, now⟩] := by
  have moved : ∀ stage, (s.moved i ⟨userId, now, .counted recent⟩ stage).attempts[i]? = some ⟨userId, now, stage⟩ :=
    fun stage => (moved_at here).mpr (.inl ⟨rfl, rfl⟩)
  have quiet : ∀ stage, (∀ recent level, stage ≠ .clear recent level) →
      ((s.moved i ⟨userId, now, .counted recent⟩ stage).raise i).pauses = s.pauses := by
    intro stage still
    rw [Tables.raise, moved stage]
    cases stage with
    | clear recent level => exact absurd rfl (still recent level)
    | _ => rfl
  cases high : alarmLevel recent with
  | none =>
    have looked : s.look i = s.moved i ⟨userId, now, .counted recent⟩ (.done recent) := by
      simp [Tables.look, here, high]
    rw [looked]
    exact quiet _ nofun
  | some level =>
    cases known : s.heard userId level now with
    | true =>
      have looked : s.look i = s.moved i ⟨userId, now, .counted recent⟩ (.done recent) := by
        simp [Tables.look, here, high, known]
      rw [looked, quiet (.done recent) nofun]
      exact (if_pos known).symm
    | false =>
      rw [look_clear here high known, raise_clear (moved _)]
      exact (if_neg (Bool.not_eq_true _ ▸ known)).symm

-- Without others in between, the three statements are the transaction that counts, looks and raises.
theorem afterFailure_alone {suite : Suite} {userId now : Int} {db after : Db} {s : Tables} {i : Nat}
    (ran : afterFailure suite userId now db = .ok ((), after)) (failures : s.failures = db.kitFailures)
    (pauses : s.pauses = db.kitPauses) (here : s.attempts[i]? = some ⟨userId, now, .inserted⟩) :
    (((s.count i).look i).raise i).pauses = after.kitPauses := by
  have first : s.count i = s.moved i ⟨userId, now, .inserted⟩ (.counted (s.recent userId now)) := by
    simp [Tables.count, here]
  have counted : (s.count i).attempts[i]? = some ⟨userId, now, .counted (s.recent userId now)⟩ := by
    rw [first]
    exact (moved_at here).mpr (.inl ⟨rfl, rfl⟩)
  rw [afterFailure_pauses ran failures pauses, raise_pauses counted, first]
  rfl

/-! ## Each level once -/

-- No attempt is about to raise an alarm.
def quiet (s : Tables) : Bool :=
  s.attempts.all fun b => match b.stage with
    | .clear _ _ => false
    | _ => true

theorem alone_quiet {s : Tables} {step : Step} (none : quiet s = true) : Alone s step := by
  cases step with
  | look i =>
    intro a recent level _ _ _ _ b listed other _ clear
    have still := List.all_eq_true.mp none b listed
    rw [clear] at still
    cases still
  | _ => trivial

theorem alarm_once_where_alone (steps : List Step) :
    (∀ a ∈ (run steps).attempts, ∀ recent, a.stage = .done recent → ∀ level ∈ alarmLevels, level ≤ recent →
      Alarmed (run steps) a.userId level a.now) ∧
    (∀ userId now, Settled (run steps) userId now → AlarmHeard (run steps) userId now) ∧
    (Runs.Guarded Tables.next Alone start steps → OnceADay (run steps)) ∧
    ∀ i, ¬ Alone (run steps) (.look i) → ∃ j, ¬ OnceADay (run (steps ++ [.look i, .raise i, .raise j])) := by
  have sound := sound_run steps
  refine ⟨sound.heard, fun userId now => heard_settled sound, fun alone => (apart_run alone).once, ?_⟩
  intro i crowded
  obtain ⟨j, twice⟩ := raised_twice crowded
  refine ⟨j, ?_⟩
  rw [run, Runs.run_append]
  exact twice

-- Ten wrong codes for one person, each attempt over before the next
def oneByOne : List Step :=
  (List.range 10).flatMap fun (second : Nat) => [.insert 1 second, .count second, .look second, .raise second]

theorem alarm_once_one_by_one : (run oneByOne).recent 1 9 = 10 ∧ AlarmHeard (run oneByOne) 1 9 ∧ OnceADay (run oneByOne) := by
  have alone : Runs.Guarded Tables.next Alone start oneByOne := by
    have guarded : Runs.Guarded Tables.next (fun s step => (match step with | .look _ => quiet s | _ => true) = true) start
        oneByOne := by decide
    refine Runs.guarded_mono (fun s step _ still => ?_) guarded
    cases step with
    | look i => exact alone_quiet still
    | _ => trivial
  have attempts : (run oneByOne).attempts = (List.range 10).map fun (second : Nat) => ⟨1, second, .done (second + 1)⟩ := by rfl
  have pauses : (run oneByOne).pauses = [⟨1, 9 + pause, 10, 9⟩] := by rfl
  have settled : Settled (run oneByOne) 1 9 := by
    intro a listed _
    rw [attempts, List.mem_map] at listed
    obtain ⟨second, early, rfl⟩ := listed
    have before := List.mem_range.mp early
    refine ⟨⟨_, rfl⟩, by simp only; omega, fun p isPause _ _ => ?_⟩
    rw [pauses, List.mem_singleton] at isPause
    rw [isPause]
    decide
  have facts := alarm_once_where_alone oneByOne
  exact ⟨by rfl, facts.2.1 1 9 settled, facts.2.2.1 alone⟩

-- Ten wrong codes for one person, whose rows are committed
def tenCodes : List Step := (List.range 10).map fun second => .insert 1 second

-- The last two count and look before either raises.
def sideBySide : List Step := tenCodes ++ [.count 8, .count 9, .look 8, .look 9, .raise 8, .raise 9]

theorem level_raised_twice : (run sideBySide).pauses = [⟨1, 8 + pause, 10, 8⟩, ⟨1, 9 + pause, 10, 9⟩] ∧
    ¬ ∀ steps, OnceADay (run steps) := by
  have twice : (run sideBySide).pauses = [⟨1, 8 + pause, 10, 8⟩, ⟨1, 9 + pause, 10, 9⟩] := by rfl
  refine ⟨twice, fun once => ?_⟩
  have apart := once sideBySide
  rw [OnceADay, twice] at apart
  have near := (List.pairwise_cons.mp apart).1 _ (List.mem_singleton_self _) rfl rfl
  revert near
  decide

end QVault.Proof.Recovery.Alarm
