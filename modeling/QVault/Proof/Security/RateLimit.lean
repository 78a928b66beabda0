import QVault.Security.RateLimit
import QVault.Lib.Runs

/-!
# The rate limiter counts exactly

What the limiter answers is what the list of allowed hits says: while no key is evicted, forgetting the
times outside the window and sweeping the keys that have none left changes nothing.
-/

namespace QVault.Proof.RateLimit
open QVault.Python QVault.Security Runs

variable {window now later : Rat} {times : List Rat} {limit : Limit} {bucket key : Text} {limiter : Limiter}

/-! ## The window -/

-- The times that still count
def live (window now : Rat) (times : List Rat) : List Rat := times.filter fun t => now - window < t

def ruling (limit : Limit) (recent : List Rat) (now : Rat) : Rat :=
  match recent with
  | [] => 0
  | oldest :: _ => if limit.attempts ≤ recent.length then max 1 (oldest + limit.window - now) else 0

theorem live_later (times : List Rat) (order : now ≤ later) :
    live window later (live window now times) = live window later times := by
  unfold live
  rw [List.filter_filter]
  refine List.filter_congr fun t _ => ?_
  by_cases counts : later - window < t
  · have before : now - window < t := by linarith
    simp [counts, before]
  · simp [counts]

theorem live_append (more : List Rat) : live window now (times ++ more) = live window now times ++ live window now more :=
  List.filter_append ..

theorem live_sublist : (live window now times).Sublist times := List.filter_sublist

theorem dropWhile_live (sorted : times.Pairwise (· ≤ ·)) :
    (times.dropWhile fun t => t ≤ now - window) = live window now times := by
  induction times with
  | nil => rfl
  | cons first rest ih =>
    rw [List.pairwise_cons] at sorted
    by_cases old : first ≤ now - window
    · rw [List.dropWhile_cons_of_pos (by simpa using old), ih sorted.2]
      simp [live, not_lt.mpr old]
    · rw [List.dropWhile_cons_of_neg (by simpa using old)]
      refine (List.filter_eq_self.mpr fun t listed => ?_).symm
      have atLeast : first ≤ t := by
        rcases List.mem_cons.mp listed with rfl | after
        · exact le_rfl
        · exact sorted.1 t after
      simpa using lt_of_lt_of_le (not_le.mp old) atLeast

theorem live_nil (sorted : times.Pairwise (· ≤ ·))
    (expired : (times.getLast?.any fun newest => now - window < newest) = false) : live window now times = [] := by
  refine List.filter_eq_nil_iff.mpr fun t listed => ?_
  cases times using List.reverseRecOn with
  | nil => cases listed
  | append_singleton rest newest =>
    simp only [List.getLast?_concat, Option.any_some, decide_eq_false_iff_not, not_lt] at expired
    rw [List.pairwise_append] at sorted
    simp only [decide_eq_true_eq, not_lt]
    rcases List.mem_append.mp listed with before | last
    · exact (sorted.2.2 t before newest (List.mem_singleton_self _)).trans expired
    · rw [List.mem_singleton.mp last]
      exact expired

theorem count_eq (limit : Limit) (now : Rat) (sorted : times.Pairwise (· ≤ ·)) :
    Limiter.count times limit.attempts limit.window now =
      (.ok (ruling limit (live limit.window now times) now),
        if ruling limit (live limit.window now times) now = 0 then live limit.window now times ++ [now]
        else live limit.window now times) := by
  have positive := limit.positive
  unfold Limiter.count ruling
  rw [dropWhile_live sorted]
  cases recent : live limit.window now times with
  | nil =>
    have none' : ¬ limit.attempts ≤ (([] : List Rat).length : Int) := by simp; omega
    simp only [if_neg none', ↓reduceIte]
  | cons oldest rest =>
    by_cases full : limit.attempts ≤ ((oldest :: rest).length : Int)
    · have waits : max 1 (oldest + limit.window - now) ≠ 0 := by
        have one := le_max_left 1 (oldest + limit.window - now)
        linarith
      simp only [if_pos full, if_neg waits]
    · simp only [if_neg full, ↓reduceIte]

/-! ## Sweeping -/

theorem swept_take (budget : Int) (entries : List (Text × List Rat)) :
    ∀ e ∈ entries.take (Bucket.swept window now budget entries),
      (e.2.getLast?.any fun newest => now - window < newest) = false := by
  induction entries generalizing budget with
  | nil => simp
  | cons first rest ih =>
    obtain ⟨k, times⟩ := first
    unfold Bucket.swept
    split
    · simp
    · split
      · simp
      · rename_i expired
        intro e listed
        rw [List.take_succ_cons, List.mem_cons] at listed
        rcases listed with rfl | after
        · simpa using expired
        · exact ih _ e after

-- A key keeps its times, or has none that count and goes.
theorem sweep_get (b : Bucket) (budget : Int) (key : Text) :
    (b.sweep now budget).hits.get key = b.hits.get key ∨
      (b.sweep now budget).hits.get key = none ∧ ∃ times, b.hits.get key = some times ∧
        (times.getLast?.any fun newest => now - b.window < newest) = false := by
  unfold Bucket.sweep
  cases found : b.hits.get key with
  | none =>
    left
    refine Option.eq_none_iff_forall_ne_some.mpr fun v still => ?_
    rw [OrderedDict.get_drop_some still] at found
    cases found
  | some times =>
    by_cases dropped : (key, times) ∈ b.hits.entries.take (Bucket.swept b.window now budget b.hits.entries)
    · right
      refine ⟨?_, times, rfl, swept_take budget _ _ dropped⟩
      refine Option.eq_none_iff_forall_ne_some.mpr fun v still => ?_
      have same := OrderedDict.get_drop_some still
      rw [found] at same
      cases same
      have kept := OrderedDict.get_eq_some.mp still
      have distinct := b.hits.distinct
      rw [← List.take_append_drop (Bucket.swept b.window now budget b.hits.entries) b.hits.entries, List.map_append,
        List.nodup_append] at distinct
      exact distinct.2.2 _ (List.mem_map.mpr ⟨_, dropped, rfl⟩) _ (List.mem_map.mpr ⟨_, kept, rfl⟩) rfl
    · exact .inl (OrderedDict.get_drop found dropped)

/-! ## One call -/

def timesIn (buckets : OrderedDict Text Bucket) (bucket key : Text) : List Rat :=
  ((buckets.get bucket).bind fun b => b.hits.get key).getD []

-- The times are as they were, or they counted no longer and are gone.
def Forgot (window now : Rat) (before after : List Rat) : Prop :=
  after = before ∨ after = [] ∧ live window now before = []

theorem Forgot.live_eq {before after : List Rat} (forgot : Forgot window now before after) :
    live window now after = live window now before := by
  rcases forgot with rfl | ⟨rfl, none'⟩
  · rfl
  · rw [none']
    rfl

theorem Forgot.sublist {before after : List Rat} (forgot : Forgot window now before after) : after.Sublist before := by
  rcases forgot with rfl | ⟨rfl, -⟩
  · exact List.Sublist.refl _
  · exact List.nil_sublist _

variable {limits : Text → Limit} {buckets : OrderedDict Text Bucket}

def Windowed (limits : Text → Limit) (buckets : OrderedDict Text Bucket) : Prop :=
  ∀ name b, buckets.get name = some b → b.window = (limits name).window

def Sorted (buckets : OrderedDict Text Bucket) : Prop := ∀ name key, (timesIn buckets name key).Pairwise (· ≤ ·)

theorem sweeps_times {f : Text → Bucket → Bucket} (windowed : Windowed limits buckets) (sorted : Sorted buckets)
    (sweeps : ∀ name b, f name b = b ∨ ∃ budget, f name b = b.sweep now budget) :
    Windowed limits (buckets.mapValues f) ∧
      ∀ name key, Forgot (limits name).window now (timesIn buckets name key) (timesIn (buckets.mapValues f) name key) := by
  constructor
  · intro name b found
    rw [OrderedDict.get_mapValues, Option.map_eq_some_iff] at found
    obtain ⟨old, there, rfl⟩ := found
    rcases sweeps name old with same | ⟨budget, same⟩
    · rw [same]
      exact windowed name old there
    · rw [same]
      exact windowed name old there
  · intro name key
    have inOrder := sorted name key
    unfold timesIn at inOrder ⊢
    rw [OrderedDict.get_mapValues]
    cases there : buckets.get name with
    | none => exact .inl rfl
    | some b =>
      simp only [there, Option.bind_some, Option.map_some] at inOrder ⊢
      rcases sweeps name b with same | ⟨budget, same⟩
      · rw [same]
        exact .inl rfl
      · rw [same]
        rcases sweep_get b budget key with kept | ⟨gone, times, found, expired⟩
        · rw [kept]
          exact .inl rfl
        · rw [gone, found]
          rw [found] at inOrder
          rw [windowed name b there] at expired
          exact .inr ⟨rfl, live_nil inOrder expired⟩

theorem bucketFor_times (bucket : Text) (windowed : Windowed limits limiter.buckets) :
    Windowed limits (limiter.buckets.put bucket (limiter.bucketFor bucket (limits bucket).window)) ∧
      ∀ name key, timesIn (limiter.buckets.put bucket (limiter.bucketFor bucket (limits bucket).window)) name key =
        timesIn limiter.buckets name key := by
  constructor
  · intro name b found
    by_cases same : name = bucket
    · subst same
      rw [OrderedDict.get_put_self, Option.some.injEq] at found
      rw [← found, Limiter.bucketFor]
      split <;> rfl
    · rw [OrderedDict.get_put_other same] at found
      exact windowed name b found
  · intro name key
    unfold timesIn
    by_cases same : name = bucket
    · subst same
      rw [OrderedDict.get_put_self, Limiter.bucketFor]
      cases limiter.buckets.get name <;> rfl
    · rw [OrderedDict.get_put_other same]

theorem prepared_times (bucket : Text) (now : Rat) (windowed : Windowed limits limiter.buckets) (sorted : Sorted limiter.buckets) :
    Windowed limits (limiter.prepared bucket (limits bucket).window now) ∧
      ∀ name key, Forgot (limits name).window now (timesIn limiter.buckets name key)
        (timesIn (limiter.prepared bucket (limits bucket).window now) name key) := by
  obtain ⟨fixed, same⟩ := bucketFor_times bucket windowed
  have inOrder : Sorted (limiter.buckets.put bucket (limiter.bucketFor bucket (limits bucket).window)) := by
    intro name key
    rw [same]
    exact sorted name key
  obtain ⟨swept, forgot⟩ := sweeps_times (f := fun _ other => other.sweep now sweepPerHit) fixed inOrder
    fun _ _ => .inr ⟨_, rfl⟩
  refine ⟨swept, fun name key => ?_⟩
  rw [← same]
  exact forgot name key

theorem prepared_there (limiter : Limiter) (bucket : Text) (window now : Rat) :
    ∃ b, (limiter.prepared bucket window now).get bucket = some b := by
  unfold Limiter.prepared
  rw [OrderedDict.get_mapValues, OrderedDict.get_put_self]
  exact ⟨_, rfl⟩

-- One key's hits are written, and the others stay.
theorem put_times {b : Bucket} {hits : OrderedDict Text (List Rat)} (there : buckets.get bucket = some b)
    (others : ∀ other ≠ key, hits.get other = b.hits.get other) (here : hits.get key = some times) (name other : Text) :
    timesIn (buckets.put bucket { b with hits }) name other =
      if name = bucket ∧ other = key then times else timesIn buckets name other := by
  unfold timesIn
  by_cases same : name = bucket
  · subst same
    rw [OrderedDict.get_put_self, there]
    by_cases equal : other = key
    · subst equal
      simp [here]
    · simp [equal, others other equal]
  · rw [OrderedDict.get_put_other same]
    simp [same]

theorem put_windowed {b : Bucket} {hits : OrderedDict Text (List Rat)} (windowed : Windowed limits buckets)
    (there : buckets.get bucket = some b) : Windowed limits (buckets.put bucket { b with hits }) := by
  intro name b' found
  by_cases same : name = bucket
  · subst same
    rw [OrderedDict.get_put_self, Option.some.injEq] at found
    rw [← found]
    exact windowed name b there
  · rw [OrderedDict.get_put_other same] at found
    exact windowed name b' found

-- The times of a key after a hit that is ruled on so
def recount (limit : Limit) (recent : List Rat) (now : Rat) : List Rat :=
  if ruling limit recent now = 0 then recent ++ [now] else recent

theorem hit_ok (windowed : Windowed limits limiter.buckets) (sorted : Sorted limiter.buckets)
    (fits : limiter.evicts bucket key (limits bucket).window now = false) :
    let recent := live (limits bucket).window now (timesIn limiter.buckets bucket key)
    let after := (limiter.hit bucket key (limits bucket).attempts (limits bucket).window now).2.buckets
    (limiter.hit bucket key (limits bucket).attempts (limits bucket).window now).1 = .ok (ruling (limits bucket) recent now) ∧
      Windowed limits after ∧ ∀ name other,
        if name = bucket ∧ other = key then timesIn after name other = recount (limits bucket) recent now
        else Forgot (limits name).window now (timesIn limiter.buckets name other) (timesIn after name other) := by
  obtain ⟨fixed, forgot⟩ := prepared_times bucket now windowed sorted
  obtain ⟨b, there⟩ := prepared_there limiter bucket (limits bucket).window now
  have mine := forgot bucket key
  have inOrder : (timesIn (limiter.prepared bucket (limits bucket).window now) bucket key).Pairwise (· ≤ ·) :=
    (sorted bucket key).sublist mine.sublist
  have recent := mine.live_eq
  have counted := count_eq (limits bucket) now inOrder
  rw [recent] at counted
  -- what is written for the key, whether it was there or not
  have written : ∀ hits : OrderedDict Text (List Rat), (∀ other ≠ key, hits.get other = b.hits.get other) →
      hits.get key = some (recount (limits bucket) (live (limits bucket).window now
        (timesIn limiter.buckets bucket key)) now) → ∀ name other,
      if name = bucket ∧ other = key then
        timesIn ((limiter.prepared bucket (limits bucket).window now).put bucket { b with hits }) name other =
          recount (limits bucket) (live (limits bucket).window now (timesIn limiter.buckets bucket key)) now
      else Forgot (limits name).window now (timesIn limiter.buckets name other)
        (timesIn ((limiter.prepared bucket (limits bucket).window now).put bucket { b with hits }) name other) := by
    intro hits others here name other
    rw [put_times there others here]
    by_cases both : name = bucket ∧ other = key
    · simp only [if_pos both]
    · simp only [if_neg both]
      exact forgot name other
  unfold Limiter.hit
  simp only [there]
  cases found : b.hits.get key with
  | some times =>
    have is : timesIn (limiter.prepared bucket (limits bucket).window now) bucket key = times := by
      simp [timesIn, there, found]
    rw [is] at counted
    simp only [counted]
    refine ⟨trivial, put_windowed fixed there, ?_⟩
    split
    · refine written _ (fun other different => ?_) ?_
      · rw [OrderedDict.get_moveToEnd, OrderedDict.get_put_other different]
      · rw [OrderedDict.get_moveToEnd, OrderedDict.get_put_self]
        rfl
    · refine written _ (fun other different => ?_) ?_
      · rw [OrderedDict.get_put_other different]
      · rw [OrderedDict.get_put_self]
        rfl
  | none =>
    have is : timesIn (limiter.prepared bucket (limits bucket).window now) bucket key = [] := by
      simp [timesIn, there, found]
    simp only [Limiter.evicts, there, found, Option.isNone_none, Bool.true_and, decide_eq_false_iff_not, not_le] at fits
    rw [is] at counted
    have room : limiter.maxKeys ≠ 0 := by omega
    have all : Limiter.makeRoom b.hits limiter.maxKeys = b.hits := by
      have none' : b.hits.size + 1 - limiter.maxKeys = 0 := by omega
      rw [Limiter.makeRoom, none']
      rfl
    simp only [if_neg room, counted, all]
    refine ⟨trivial, put_windowed fixed there, written _ (fun other different => ?_) ?_⟩
    · rw [OrderedDict.get_put_other different]
    · rw [OrderedDict.get_put_self]
      rfl

/-! ## Calls in the order of their times -/

variable {answers : List Answered} {s : Doors}

def allowed (answers : List Answered) (bucket key : Text) : List Rat :=
  (answers.filter fun a => a.bucket = bucket ∧ a.key = key ∧ a.answer = .ok 0).map (·.now)

-- Each answer is the ruling on the hits allowed before it.
def Ruled (limits : Text → Limit) (answers : List Answered) : Prop :=
  ∀ before a after, answers = before ++ a :: after →
    a.answer = .ok (ruling (limits a.bucket)
      (live (limits a.bucket).window a.now (allowed before a.bucket a.key)) a.now)

structure Agrees (limits : Text → Limit) (s : Doors) : Prop where
  windowed : Windowed limits s.limiter.buckets
  sorted : Sorted s.limiter.buckets
  past : ∀ bucket key, ∀ t ∈ timesIn s.limiter.buckets bucket key, ∃ l ∈ s.latest, t ≤ l
  same : ∀ bucket key now, (∀ l ∈ s.latest, l ≤ now) →
    live (limits bucket).window now (timesIn s.limiter.buckets bucket key) =
      live (limits bucket).window now (allowed s.answers bucket key)
  ruled : Ruled limits s.answers
  ordered : s.answers.Pairwise fun a b => a.now ≤ b.now
  answered : ∀ a ∈ s.answers, ∃ l ∈ s.latest, a.now ≤ l

-- No call is earlier than one before it, and no key is evicted for space.
def Orderly (limits : Text → Limit) (s : Doors) (call : LimiterCall) : Prop :=
  (∀ l ∈ s.latest, l ≤ call.now) ∧
    match call with
    | .hit bucket key now => s.limiter.evicts bucket key (limits bucket).window now = false
    | .sweep _ _ _ => True

theorem allowed_append (a : Answered) :
    allowed (answers ++ [a]) bucket key =
      allowed answers bucket key ++
        if a.bucket = bucket ∧ a.key = key ∧ a.answer = .ok 0 then [a.now] else [] := by
  unfold allowed
  rw [List.filter_append, List.map_append]
  congr 1
  by_cases counts : a.bucket = bucket ∧ a.key = key ∧ a.answer = .ok 0
  · rw [if_pos counts, List.filter_cons_of_pos (by simpa using counts)]
    rfl
  · rw [if_neg counts, List.filter_cons_of_neg (by simpa using counts)]
    rfl

theorem ruled_append {a : Answered} (ruled : Ruled limits answers)
    (new : a.answer = .ok (ruling (limits a.bucket)
      (live (limits a.bucket).window a.now (allowed answers a.bucket a.key)) a.now)) :
    Ruled limits (answers ++ [a]) := by
  intro before b after cut
  rcases List.eq_nil_or_concat after with rfl | ⟨rest, last, rfl⟩
  · obtain ⟨rfl, same⟩ := List.append_inj' cut rfl
    cases same
    exact new
  · rw [List.concat_eq_append, ← List.cons_append, ← List.append_assoc] at cut
    exact ruled before b rest (List.append_inj' cut rfl).1

theorem agrees_new (maxKeys : Nat) : Agrees limits (Doors.new maxKeys) where
  windowed name b found := nomatch found
  sorted name key := List.Pairwise.nil
  past bucket key t none' := nomatch none'
  same bucket key now _ := rfl
  ruled before a after cut := by simp [Doors.new] at cut
  ordered := List.Pairwise.nil
  answered a none' := nomatch none'

theorem step_sweep_agrees {budget : Int} (agrees : Agrees limits s) (order : ∀ l ∈ s.latest, l ≤ now) :
    Agrees limits (s.step limits (.sweep bucket now budget)) := by
  have forgot := sweeps_times (f := fun name b => if name = bucket then b.sweep now budget else b) agrees.windowed
    agrees.sorted fun name b => by
      by_cases same : name = bucket
      · exact .inr ⟨budget, if_pos same⟩
      · exact .inl (if_neg same)
  refine ⟨forgot.1, ?_, ?_, ?_, agrees.ruled, agrees.ordered, ?_⟩
  · exact fun name key => (agrees.sorted name key).sublist (forgot.2 name key).sublist
  · intro name key t listed
    obtain ⟨l, last, before⟩ := agrees.past name key t ((forgot.2 name key).sublist.subset listed)
    exact ⟨now, rfl, before.trans (order l last)⟩
  · intro name key later after
    have until' := after now rfl
    have earlier := agrees.same name key now order
    have kept := (forgot.2 name key).live_eq
    change live _ later (timesIn (s.limiter.sweep bucket now budget).buckets name key) = live _ later (allowed s.answers name key)
    rw [← live_later _ until', ← live_later (allowed s.answers name key) until', ← earlier]
    exact congrArg _ kept
  · intro a listed
    obtain ⟨l, last, before⟩ := agrees.answered a listed
    exact ⟨now, rfl, before.trans (order l last)⟩

theorem recount_sublist (recent : List Rat) : (recount limit recent now).Sublist (recent ++ [now]) := by
  unfold recount
  split
  · exact List.Sublist.refl _
  · exact List.sublist_append_left _ _

theorem step_hit (s : Doors) (limits : Text → Limit) (bucket key : Text) (now : Rat) :
    s.step limits (.hit bucket key now) =
      ⟨(s.limiter.hit bucket key (limits bucket).attempts (limits bucket).window now).2,
        s.answers ++ [⟨bucket, key, now,
          (s.limiter.hit bucket key (limits bucket).attempts (limits bucket).window now).1⟩], some now⟩ := rfl

theorem step_hit_agrees (agrees : Agrees limits s) (order : ∀ l ∈ s.latest, l ≤ now)
    (fits : s.limiter.evicts bucket key (limits bucket).window now = false) :
    Agrees limits (s.step limits (.hit bucket key now)) := by
  obtain ⟨answer, windowed, times⟩ := hit_ok agrees.windowed agrees.sorted fits
  have recent := agrees.same bucket key now order
  rw [recent] at answer times
  rw [step_hit]
  generalize s.limiter.hit bucket key (limits bucket).attempts (limits bucket).window now = outcome at answer windowed times ⊢
  have bounded : ∀ name other, ∀ t ∈ timesIn s.limiter.buckets name other, t ≤ now := by
    intro name other t listed
    obtain ⟨l, last, before⟩ := agrees.past name other t listed
    exact before.trans (order l last)
  have inOrder : (live (limits bucket).window now (allowed s.answers bucket key) ++ [now]).Pairwise (· ≤ ·) := by
    rw [← recent]
    refine List.pairwise_append.mpr ⟨(agrees.sorted bucket key).sublist live_sublist, List.pairwise_singleton _ _, ?_⟩
    intro t listed n only
    rw [List.mem_singleton.mp only]
    exact bounded bucket key t (live_sublist.subset listed)
  refine ⟨windowed, ?_, ?_, ?_, ruled_append agrees.ruled answer, ?_, ?_⟩
  · intro name other
    have written := times name other
    split at written
    · rw [written]
      exact inOrder.sublist (recount_sublist _)
    · exact (agrees.sorted name other).sublist written.sublist
  · intro name other t listed
    refine ⟨now, rfl, ?_⟩
    have written := times name other
    split at written
    · rw [written] at listed
      have among := (recount_sublist _).subset listed
      rcases List.mem_append.mp among with old | new
      · rw [← recent] at old
        exact bounded bucket key t (live_sublist.subset old)
      · exact (List.mem_singleton.mp new).le
    · exact bounded name other t (written.sublist.subset listed)
  · intro name other later after
    have until' := after now rfl
    have written := times name other
    rw [allowed_append, live_append]
    by_cases both : name = bucket ∧ other = key
    · obtain ⟨rfl, rfl⟩ := both
      rw [if_pos ⟨rfl, rfl⟩] at written
      rw [written, answer, recount]
      by_cases zero : ruling (limits name) (live (limits name).window now (allowed s.answers name other)) now = 0
      · rw [if_pos zero, if_pos ⟨rfl, rfl, by rw [zero]⟩, live_append, live_later _ until']
      · rw [if_neg zero, if_neg fun same => zero (Except.ok.inj same.2.2), live_later _ until']
        exact (List.append_nil _).symm
    · rw [if_neg both] at written
      rw [if_neg fun same => both ⟨same.1.symm, same.2.1.symm⟩, ← live_later _ until', written.live_eq,
        agrees.same name other now order, live_later _ until']
      exact (List.append_nil _).symm
  · refine List.pairwise_append.mpr ⟨agrees.ordered, List.pairwise_singleton _ _, ?_⟩
    intro a listed b only
    rw [List.mem_singleton.mp only]
    obtain ⟨l, last, before⟩ := agrees.answered a listed
    exact before.trans (order l last)
  · intro a listed
    refine ⟨now, rfl, ?_⟩
    rcases List.mem_append.mp listed with old | new
    · obtain ⟨l, last, before⟩ := agrees.answered a old
      exact before.trans (order l last)
    · rw [List.mem_singleton.mp new]

theorem step_agrees (s : Doors) (call : LimiterCall) (agrees : Agrees limits s) (orderly : Orderly limits s call) :
    Agrees limits (s.step limits call) := by
  cases call with
  | hit bucket key now => exact step_hit_agrees agrees orderly.1 orderly.2
  | sweep bucket now budget => exact step_sweep_agrees agrees orderly.1

theorem run_agrees {maxKeys : Nat} {calls : List LimiterCall}
    (orderly : Guarded (Doors.step limits) (Orderly limits) (Doors.new maxKeys) calls) :
    Agrees limits (run (Doors.step limits) (Doors.new maxKeys) calls) :=
  run_invariant step_agrees _ calls (agrees_new maxKeys) orderly

/-! ## What the rulings say -/

variable {recent : List Rat}

theorem ruling_eq_zero : ruling limit recent now = 0 ↔ (recent.length : Int) < limit.attempts := by
  have positive := limit.positive
  unfold ruling
  cases recent with
  | nil => simp; omega
  | cons oldest rest =>
    simp only
    split
    · rename_i full
      have one := le_max_left 1 (oldest + limit.window - now)
      constructor
      · intro zero
        rw [zero] at one
        norm_num at one
      · intro fewer
        omega
    · rename_i room
      exact ⟨fun _ => not_le.mp room, fun _ => rfl⟩

theorem ruled_earlier {more : List Answered} (ruled : Ruled limits (answers ++ more)) : Ruled limits answers := by
  intro before a after cut
  exact ruled before a (after ++ more) (by simp [cut])

theorem allowed_mem {t : Rat} (listed : t ∈ allowed answers bucket key) : ∃ a ∈ answers, a.now = t := by
  obtain ⟨a, among, same⟩ := List.mem_map.mp listed
  exact ⟨a, (List.mem_filter.mp among).1, same⟩

theorem allowed_sorted (ordered : answers.Pairwise fun a b => a.now ≤ b.now) :
    (allowed answers bucket key).Pairwise (· ≤ ·) :=
  List.pairwise_map.mpr (ordered.sublist List.filter_sublist)

-- Times less than a window apart are at most as many as the limit.
theorem allowed_spread (bucket key : Text) (among : Rat → Bool) (ruled : Ruled limits answers)
    (ordered : answers.Pairwise fun a b => a.now ≤ b.now)
    (near : ∀ t t', among t → among t' → t' - t < (limits bucket).window) :
    ((allowed answers bucket key).countP among : Int) ≤ (limits bucket).attempts := by
  have positive := (limits bucket).positive
  induction answers using List.reverseRecOn with
  | nil => simp [allowed]; omega
  | append_singleton before a ih =>
    have fewer := ih (ruled_earlier ruled) (List.pairwise_append.mp ordered).1
    rw [allowed_append, List.countP_append]
    by_cases counts : a.bucket = bucket ∧ a.key = key ∧ a.answer = .ok 0
    · rw [if_pos counts]
      by_cases inside : among a.now
      · obtain ⟨rfl, rfl, zero⟩ := counts
        have isRuled := ruled before a [] rfl
        rw [zero, Except.ok.injEq, eq_comm, ruling_eq_zero] at isRuled
        have inWindow : (allowed before a.bucket a.key).countP among ≤
            (live (limits a.bucket).window a.now (allowed before a.bucket a.key)).length := by
          rw [live, ← List.countP_eq_length_filter]
          refine List.countP_mono_left fun t listed here => ?_
          have close := near t a.now here inside
          simp only [decide_eq_true_eq]
          linarith
        simp only [List.countP_singleton, if_pos inside]
        omega
      · simp only [List.countP_singleton, if_neg inside]
        exact fewer
    · rw [if_neg counts]
      exact fewer

theorem refused_full {before after : List Answered} {refused : Answered} (ruled : Ruled limits answers)
    (ordered : answers.Pairwise fun a b => a.now ≤ b.now) (cut : answers = before ++ refused :: after)
    (no : refused.answer ≠ .ok 0) :
    ((live (limits refused.bucket).window refused.now (allowed before refused.bucket refused.key)).length : Int) =
      (limits refused.bucket).attempts := by
  have isRuled := ruled before refused after cut
  rw [isRuled, Ne, Except.ok.injEq, ruling_eq_zero, not_lt] at no
  refine le_antisymm ?_ no
  subst cut
  have spread := allowed_spread refused.bucket refused.key
    (fun t => refused.now - (limits refused.bucket).window < t && decide (t ≤ refused.now)) (ruled_earlier ruled)
    (List.pairwise_append.mp ordered).1 (by
      intro t t' here there
      simp only [Bool.and_eq_true, decide_eq_true_eq] at here there
      linarith)
  refine le_trans ?_ spread
  rw [live, ← List.countP_eq_length_filter]
  refine mod_cast List.countP_mono_left fun t listed here => ?_
  obtain ⟨a, among, same⟩ := allowed_mem listed
  have past := (List.pairwise_append.mp ordered).2.2 a among refused List.mem_cons_self
  rw [same] at past
  simp only [Bool.and_eq_true, decide_eq_true_eq] at here ⊢
  exact ⟨here, past⟩

theorem allowed_others {middle : List Answered} (others : ∀ a ∈ middle, ¬ (a.bucket = bucket ∧ a.key = key)) :
    allowed (answers ++ middle) bucket key = allowed answers bucket key := by
  have none' : middle.filter (fun a => a.bucket = bucket ∧ a.key = key ∧ a.answer = .ok 0) = [] := by
    refine List.filter_eq_nil_iff.mpr fun a listed => ?_
    simp only [decide_eq_true_eq]
    exact fun same => others a listed ⟨same.1, same.2.1⟩
  rw [allowed, List.filter_append, none', List.append_nil, allowed]

-- Who waits as long as they were told is let in.
theorem waited_allowed {before middle after : List Answered} {refused next : Answered} {wait : Rat}
    (ruled : Ruled limits answers) (ordered : answers.Pairwise fun a b => a.now ≤ b.now)
    (cut : answers = before ++ refused :: (middle ++ next :: after)) (no : refused.answer = .ok wait) (waits : wait ≠ 0)
    (others : ∀ a ∈ middle, ¬ (a.bucket = refused.bucket ∧ a.key = refused.key))
    (same : next.bucket = refused.bucket ∧ next.key = refused.key) (waited : refused.now + wait ≤ next.now) :
    next.answer = .ok 0 := by
  have notAllowed : refused.answer ≠ .ok 0 := by
    rw [no]
    exact fun zero => waits (Except.ok.inj zero)
  have full := refused_full ruled ordered cut notAllowed
  have isRuled := ruled before refused _ cut
  have isNext := ruled (before ++ refused :: middle) next after (by simp [cut])
  have between : allowed (before ++ refused :: middle) refused.bucket refused.key =
      allowed before refused.bucket refused.key := by
    have regroup : before ++ refused :: middle = (before ++ [refused]) ++ middle := by simp
    rw [regroup, allowed_others others, allowed_append,
      if_neg fun counts => notAllowed counts.2.2, List.append_nil]
  rw [same.1, same.2, between] at isNext
  rw [isNext, Except.ok.injEq, ruling_eq_zero, ← full]
  have later : refused.now ≤ next.now := by
    subst cut
    have rest := (List.pairwise_cons.mp (List.pairwise_append.mp ordered).2.1).1
    exact rest next (by simp)
  rw [← live_later _ later]
  rw [no, Except.ok.injEq] at isRuled
  cases counted : live (limits refused.bucket).window refused.now (allowed before refused.bucket refused.key) with
  | nil =>
    rw [counted] at isRuled
    exact absurd isRuled waits
  | cons oldest rest =>
    rw [counted, ruling] at isRuled
    rw [counted] at full
    rw [if_pos full.ge] at isRuled
    have until' := le_max_right 1 (oldest + (limits refused.bucket).window - refused.now)
    rw [← isRuled] at until'
    have gone : ¬ next.now - (limits refused.bucket).window < oldest := by linarith
    rw [live, List.filter_cons_of_neg (by simpa using gone)]
    have fewer := List.length_filter_le (fun t => decide (next.now - (limits refused.bucket).window < t)) rest
    simp only [List.length_cons]
    omega

-- The rulings leave one answer for each hit.
theorem ruled_unique {others : List Answered} (ruled : Ruled limits answers) (ruled' : Ruled limits others)
    (same : answers.map (fun a => (a.bucket, a.key, a.now)) = others.map fun a => (a.bucket, a.key, a.now)) :
    answers = others := by
  induction answers using List.reverseRecOn generalizing others with
  | nil => exact (List.map_eq_nil_iff.mp same.symm).symm
  | append_singleton before a ih =>
    rcases List.eq_nil_or_concat others with rfl | ⟨before', a', rfl⟩
    · simp at same
    · rw [List.concat_eq_append] at ruled' same ⊢
      rw [List.map_append, List.map_append] at same
      obtain ⟨firsts, lasts⟩ := List.append_inj' same rfl
      obtain rfl := ih (ruled_earlier ruled) (ruled_earlier ruled') firsts
      simp only [List.map_cons, List.map_nil, List.cons.injEq, and_true, Prod.mk.injEq] at lasts
      have one := ruled before a [] rfl
      have two := ruled' before a' [] rfl
      obtain ⟨bucket, key, now, answer⟩ := a
      obtain ⟨bucket', key', now', answer'⟩ := a'
      obtain ⟨rfl, rfl, rfl⟩ := lasts
      simp only at one two
      rw [one, two]

/-! ## How many keys there are -/

def Bounded (maxKeys : Nat) (buckets : OrderedDict Text Bucket) : Prop :=
  ∀ name b, buckets.get name = some b → b.hits.size ≤ maxKeys

variable {maxKeys : Nat}

theorem sweep_size (b : Bucket) (budget : Int) : (b.sweep now budget).hits.size ≤ b.hits.size := by
  rw [Bucket.sweep, OrderedDict.size_drop]
  omega

theorem mapValues_bounded {f : Text → Bucket → Bucket} (bounded : Bounded maxKeys buckets)
    (fewer : ∀ name b, (f name b).hits.size ≤ b.hits.size) : Bounded maxKeys (buckets.mapValues f) := by
  intro name b found
  rw [OrderedDict.get_mapValues, Option.map_eq_some_iff] at found
  obtain ⟨old, there, rfl⟩ := found
  exact (fewer name old).trans (bounded name old there)

theorem put_bounded {b : Bucket} (bounded : Bounded maxKeys buckets) (few : b.hits.size ≤ maxKeys) :
    Bounded maxKeys (buckets.put bucket b) := by
  intro name b' found
  by_cases same : name = bucket
  · subst same
    rw [OrderedDict.get_put_self, Option.some.injEq] at found
    exact found ▸ few
  · rw [OrderedDict.get_put_other same] at found
    exact bounded name b' found

theorem prepared_bounded (bounded : Bounded maxKeys limiter.buckets) :
    Bounded maxKeys (limiter.prepared bucket window now) := by
  refine mapValues_bounded (put_bounded bounded ?_) fun _ b => sweep_size b _
  unfold Limiter.bucketFor
  split
  · rename_i b found
    exact bounded bucket b found
  · exact Nat.zero_le _

theorem makeRoom_put_size {hits : OrderedDict Text (List Rat)} (room : maxKeys ≠ 0) (new : hits.get key = none) :
    ((Limiter.makeRoom hits maxKeys).put key times).size ≤ maxKeys := by
  have gone : (Limiter.makeRoom hits maxKeys).get key = none := by
    refine Option.eq_none_iff_forall_ne_some.mpr fun v still => ?_
    rw [OrderedDict.get_drop_some still] at new
    cases new
  rw [OrderedDict.size_put_new gone, Limiter.makeRoom, OrderedDict.size_drop]
  omega

theorem hit_bounded {attempts : Int} (bounded : Bounded limiter.maxKeys limiter.buckets) :
    Bounded limiter.maxKeys (limiter.hit bucket key attempts window now).2.buckets ∧
      (limiter.hit bucket key attempts window now).2.maxKeys = limiter.maxKeys := by
  have ready : Bounded limiter.maxKeys (limiter.prepared bucket window now) := prepared_bounded bounded
  unfold Limiter.hit
  dsimp only
  split
  · exact ⟨ready, rfl⟩
  · rename_i b there
    split
    · rename_i times found
      refine ⟨put_bounded ready ?_, rfl⟩
      have same : ∀ counted, (b.hits.put key counted).size = b.hits.size :=
        fun counted => OrderedDict.size_put_known (by simp [found])
      split
      · rw [OrderedDict.size_moveToEnd, same]
        exact ready bucket b there
      · rw [same]
        exact ready bucket b there
    · rename_i new
      split
      · exact ⟨put_bounded ready (Nat.zero_le _), rfl⟩
      · rename_i room
        exact ⟨put_bounded ready (makeRoom_put_size room new), rfl⟩

theorem step_bounded (s : Doors) (call : LimiterCall)
    (bounded : Bounded maxKeys s.limiter.buckets ∧ s.limiter.maxKeys = maxKeys) :
    Bounded maxKeys (s.step limits call).limiter.buckets ∧ (s.step limits call).limiter.maxKeys = maxKeys := by
  obtain ⟨few, rfl⟩ := bounded
  cases call with
  | hit bucket key now => exact hit_bounded few
  | sweep bucket now budget =>
    refine ⟨mapValues_bounded few fun name b => ?_, rfl⟩
    split
    · exact sweep_size b budget
    · exact le_rfl

/-! ## Every run -/

def hitsOf (calls : List LimiterCall) : List (Text × Text × Rat) :=
  calls.filterMap fun
    | .hit bucket key now => some (bucket, key, now)
    | .sweep _ _ _ => none

theorem run_hits (calls : List LimiterCall) (s : Doors) :
    (run (Doors.step limits) s calls).answers.map (fun a => (a.bucket, a.key, a.now)) =
      s.answers.map (fun a => (a.bucket, a.key, a.now)) ++ hitsOf calls := by
  induction calls generalizing s with
  | nil => simp [hitsOf]
  | cons call rest ih =>
    rw [run_cons, ih]
    cases call with
    | hit bucket key now => simp [step_hit, hitsOf]
    | sweep bucket now budget => rfl

theorem limiter_counts_exactly (limits : Text → Limit) (maxKeys : Nat) (calls : List LimiterCall)
    (orderly : Guarded (Doors.step limits) (Orderly limits) (Doors.new maxKeys) calls) :
    let answers := (run (Doors.step limits) (Doors.new maxKeys) calls).answers
    -- in every window a key is let in at most so often
    (∀ bucket key t,
      ((allowed answers bucket key).countP fun hit => t - (limits bucket).window < hit ∧ hit ≤ t : Int) ≤
          (limits bucket).attempts ∧
        ((allowed answers bucket key).countP fun hit => t ≤ hit ∧ hit < t + (limits bucket).window : Int) ≤
          (limits bucket).attempts) ∧
    -- a hit is refused only when so many are in the window, and one that waits as told is not
    (∀ before refused after, answers = before ++ refused :: after → refused.answer ≠ .ok 0 →
      (((allowed before refused.bucket refused.key).countP fun hit =>
        refused.now - (limits refused.bucket).window < hit : Nat) : Int) = (limits refused.bucket).attempts ∧
      ∃ wait, refused.answer = .ok wait ∧ ∀ middle next rest, after = middle ++ next :: rest →
        (∀ a ∈ middle, ¬ (a.bucket = refused.bucket ∧ a.key = refused.key)) →
        next.bucket = refused.bucket → next.key = refused.key → refused.now + wait ≤ next.now → next.answer = .ok 0) ∧
    -- sweeps put in or left out change no answer
    (∀ others, Guarded (Doors.step limits) (Orderly limits) (Doors.new maxKeys) others → hitsOf others = hitsOf calls →
      (run (Doors.step limits) (Doors.new maxKeys) others).answers = answers) ∧
    -- whatever is called, in any order
    ∀ others : List LimiterCall, Bounded maxKeys (run (Doors.step limits) (Doors.new maxKeys) others).limiter.buckets := by
  have agrees := run_agrees orderly
  refine ⟨fun bucket key t => ⟨?_, ?_⟩, ?_, ?_, ?_⟩
  · refine allowed_spread bucket key _ agrees.ruled agrees.ordered fun first last here there => ?_
    simp only [decide_eq_true_eq] at here there
    linarith
  · refine allowed_spread bucket key _ agrees.ruled agrees.ordered fun first last here there => ?_
    simp only [decide_eq_true_eq] at here there
    linarith
  · intro before refused after cut no
    have full := refused_full agrees.ruled agrees.ordered cut no
    rw [live, ← List.countP_eq_length_filter] at full
    have isRuled := agrees.ruled before refused after cut
    refine ⟨full, _, isRuled, fun middle next rest follows others sameBucket sameKey waited => ?_⟩
    subst follows
    refine waited_allowed agrees.ruled agrees.ordered cut isRuled ?_ others ⟨sameBucket, sameKey⟩ waited
    exact fun zero => no (isRuled.trans (congrArg Except.ok zero))
  · intro others orderly' same
    refine ruled_unique (run_agrees orderly').ruled agrees.ruled ?_
    rw [run_hits, run_hits, same]
  · intro others
    have few : Bounded maxKeys (Doors.new maxKeys).limiter.buckets := fun name b found => nomatch found
    have every : Guarded (Doors.step limits) (fun _ _ => True) (Doors.new maxKeys) others :=
      guarded_of_forall (fun _ _ _ => trivial) _
    exact (run_invariant (fun s call bounded _ => step_bounded s call bounded) _ others ⟨few, rfl⟩ every).1

section Sample

instance (call : LimiterCall) : Decidable (Orderly limits s call) := by
  cases call <;> unfold Orderly <;> infer_instance

def onceInTen (_ : Text) : Limit := ⟨1, 10, le_rfl⟩

def threeHits : List LimiterCall :=
  [.hit "sign_in" "192.0.2.7" 0, .hit "sign_in" "192.0.2.7" 5, .sweep "sign_in" 7 8, .hit "sign_in" "192.0.2.7" 10]

theorem limiter_counts_exactly_threeHits :
    ((allowed (run (Doors.step onceInTen) (Doors.new 2) threeHits).answers "sign_in" "192.0.2.7").countP
      fun hit => (0 : Rat) ≤ hit ∧ hit < 0 + 10 : Int) ≤ 1 :=
  ((limiter_counts_exactly onceInTen 2 threeHits (by decide +kernel)).1 "sign_in" "192.0.2.7" 0).2

end Sample

end QVault.Proof.RateLimit
