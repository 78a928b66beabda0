import QVault.Services.Deliveries

/-!
# What the outbox keeps

Where each send is written within its lease and no other write is overtaken, a delivery has one sender at a time, is
tried so often and no more, and once it has ended stays as it is, with nothing held.
-/

namespace QVault.Proof.Deliveries
open QVault.Python QVault.Services.Deliveries DirtyWrite Runs

variable {rows rows' : List Delivery} {row row' loaded changed : Delivery} {work work' : Work} {w : World} {now time : Int}
  {id : Nat} {reading : Reading} {answer : Answer} {error : Text}

/-! ## What a send leaves of a row -/

-- Nothing is held for it any more, and no worker's claim.
structure PutAway (row : Delivery) : Prop where
  secret : row.secret = none
  pushTo : row.pushTo = none
  claimedAt : row.claimedAt = none

theorem finish_putAway (row : Delivery) (status : Status) (error : Option Text) : PutAway (finish row status error) :=
  ⟨rfl, rfl, rfl⟩

/-- What becomes of a row that was sent: it ends, or it waits for another try. -/
inductive Outcome (loaded changed : Delivery) : Prop
  | ended (final : changed.status.final = true) (away : PutAway changed) (attempts : changed.attempts = loaded.attempts)
  | again (pending : changed.status = .pending) (left : loaded.attempts < maxAttempts) (claimedAt : changed.claimedAt = none)
    (attempts : changed.attempts = loaded.attempts)

theorem Outcome.attempts (outcome : Outcome loaded changed) : changed.attempts = loaded.attempts := by
  cases outcome with
  | ended _ _ same => exact same
  | again _ _ _ same => exact same

-- The back-off has a wait for each attempt but the last.
theorem retry_outcome (row : Delivery) (now : Int) (error : Text) :
    ∃ changed, retry row now error = some changed ∧ Outcome row changed := by
  unfold retry
  by_cases past : maxAttempts ≤ row.attempts
  · rw [if_pos past]
    exact ⟨_, rfl, .ended rfl (finish_putAway _ _ _) rfl⟩
  · rw [if_neg past]
    have left : row.attempts < maxAttempts := not_le.mp past
    have inside : row.attempts - 1 < backoff.length := by
      unfold maxAttempts at left
      have some_waits : 0 < backoff.length := by decide
      omega
    rw [List.getElem?_eq_getElem inside]
    exact ⟨_, rfl, .again rfl left rfl rfl⟩

theorem answered_outcome (row : Delivery) (now : Int) (answer : Answer) :
    ∃ changed, answered row now answer = some changed ∧ Outcome row changed := by
  cases answer with
  | accepted => exact ⟨_, rfl, .ended rfl ⟨rfl, rfl, rfl⟩ rfl⟩
  | alreadySent error => exact ⟨_, rfl, .ended rfl ⟨rfl, rfl, rfl⟩ rfl⟩
  | refused error => exact ⟨_, rfl, .ended rfl (finish_putAway _ _ _) rfl⟩
  | unavailable error => exact retry_outcome row now error

theorem deliver_outcome (row : Delivery) (now : Int) (reading : Reading) (answer : Answer) :
    ∃ changed, deliver row now reading answer = some changed ∧ Outcome row changed := by
  have skipped : ∀ why, Outcome row (finish row .skipped why) := fun why => .ended rfl (finish_putAway _ _ _) rfl
  by_cases email : row.channel = text "email"
  · rw [deliver, if_pos email, deliverEmail]
    cases reading.emailReady with
    | false => exact retry_outcome row now _
    | true =>
      cases reading.irrelevant with
      | some why => exact ⟨_, rfl, skipped _⟩
      | none =>
        cases reading.copy with
        | false => exact ⟨_, rfl, skipped _⟩
        | true => exact answered_outcome row now answer
  rw [deliver, if_neg email]
  by_cases push : row.channel = text "push"
  · rw [if_pos push, deliverPush]
    cases reading.irrelevant with
    | some why => exact ⟨_, rfl, skipped _⟩
    | none =>
      cases reading.copy with
      | false => exact ⟨_, rfl, skipped _⟩
      | true => exact answered_outcome row now answer
  · rw [if_neg push]
    exact ⟨_, rfl, .ended rfl (finish_putAway _ _ _) rfl⟩

/-! ## Rows -/

structure RowGood (row : Delivery) : Prop where
  attempts : row.attempts ≤ maxAttempts
  pending : row.status = .pending → row.attempts < maxAttempts
  sending : row.status = .sending → row.claimedAt.isSome
  final : row.status.final = true → PutAway row

theorem queued_good (channel kind : Text) (invitationId pushTokenId : Option Nat) (key : Text)
    (secret : Option (Bytes × Bytes)) (now : Int) :
    RowGood (queued channel kind invitationId pushTokenId key secret now) := by
  constructor
  · exact Nat.zero_le _
  · exact fun _ => Nat.succ_pos _
  · exact nofun
  · exact nofun

theorem claim_good (good : RowGood row) (pending : row.status = .pending) (now : Int) : RowGood (claim row now) :=
  ⟨good.pending pending, nofun, fun _ => rfl, nofun⟩

theorem lapsed_good (good : RowGood row) : RowGood (lapsed row) := by
  unfold lapsed
  split_ifs with past
  · exact ⟨good.attempts, nofun, nofun, fun _ => finish_putAway _ _ _⟩
  · exact ⟨good.attempts, fun _ => not_le.mp past, nofun, nofun⟩

theorem lapsed_attempts (row : Delivery) : (lapsed row).attempts = row.attempts := by
  unfold lapsed
  split_ifs <;> rfl

theorem swept_attempts (row : Delivery) : (swept row).attempts = row.attempts := by
  unfold swept
  split_ifs <;> rfl

theorem swept_good (good : RowGood row) : RowGood (swept row) := by
  unfold swept
  split_ifs with pending
  · exact ⟨good.attempts, nofun, nofun, fun _ => finish_putAway _ _ _⟩
  · refine ⟨good.attempts, good.pending, good.sending, fun final => ?_⟩
    have away := good.final final
    exact ⟨rfl, away.pushTo, away.claimedAt⟩

theorem keepPush_good (good : RowGood row) (security : Text → Bool) (tokenId : Nat) (token : Text) :
    RowGood (keepPush security tokenId token row) := by
  unfold keepPush
  split_ifs with kept
  · refine ⟨good.attempts, good.pending, good.sending, fun final => ?_⟩
    simp only [kept.2.1] at final
    cases final
  · exact good

-- What a worker's row may have become meanwhile: its link may be erased.
structure Alike (row row' : Delivery) : Prop where
  status : row'.status = row.status
  claimedAt : row'.claimedAt = row.claimedAt
  attempts : row'.attempts = row.attempts
  pushTo : row'.pushTo = row.pushTo
  secret : row'.secret = none ∨ row'.secret = row.secret

theorem Alike.refl (row : Delivery) : Alike row row := ⟨rfl, rfl, rfl, rfl, .inr rfl⟩

/-- The row of a worker whose lease has not ended: it is claimed as of the worker's tick, and as it was loaded. -/
structure Held (now : Int) (loaded row : Delivery) : Prop where
  status : row.status = .sending
  claimedAt : row.claimedAt = some now
  was : loaded.status = .sending
  claimed : loaded.claimedAt = some now
  attempts : row.attempts = loaded.attempts
  pushTo : row.pushTo = loaded.pushTo
  secret : row.secret = none ∨ row.secret = loaded.secret

theorem Held.alike (held : Held now loaded row) (alike : Alike row row') : Held now loaded row' := by
  refine ⟨alike.status.trans held.status, alike.claimedAt.trans held.claimedAt, held.was, held.claimed,
    alike.attempts.trans held.attempts, alike.pushTo.trans held.pushTo, ?_⟩
  rcases alike.secret with erased | same
  · exact .inl erased
  · exact held.secret.imp same.trans same.trans

-- A send is written over its row as over the row that was loaded.
theorem write_good (held : Held now loaded row) (good : RowGood row) (outcome : Outcome loaded changed) :
    RowGood (Delivery.write loaded changed row) := by
  have status : (Delivery.write loaded changed row).status = changed.status := by
    show patch loaded.status changed.status row.status = changed.status
    rw [held.status, ← held.was, patch_loaded]
  have attempts : changed.attempts = loaded.attempts → (Delivery.write loaded changed row).attempts = row.attempts := by
    intro same
    show patch loaded.attempts changed.attempts row.attempts = row.attempts
    rw [same, patch_unchanged]
  cases outcome with
  | ended final away same =>
    refine ⟨(attempts same).trans_le good.attempts, ?_, ?_, fun _ => ⟨?_, ?_, ?_⟩⟩
    · intro pending
      rw [← status, pending] at final
      cases final
    · intro sending
      rw [← status, sending] at final
      cases final
    · show patch loaded.secret changed.secret row.secret = none
      rw [away.secret]
      rcases held.secret with erased | kept
      · exact patch_of_stored erased
      · rw [kept, patch_loaded]
    · show patch loaded.pushTo changed.pushTo row.pushTo = none
      rw [held.pushTo, patch_loaded, away.pushTo]
    · show patch loaded.claimedAt changed.claimedAt row.claimedAt = none
      rw [held.claimedAt, ← held.claimed, patch_loaded, away.claimedAt]
  | again pending left claimedAt same =>
    refine ⟨(attempts same).trans_le good.attempts, fun _ => ?_, ?_, ?_⟩
    · rw [attempts same, held.attempts]
      exact left
    · intro sending
      rw [status, pending] at sending
      cases sending
    · intro final
      rw [status, pending] at final
      cases final

/-! ## Workers -/

-- The row a worker has claimed, with the time of its tick
def claimOf : Work → Option (Int × Nat)
  | .claimed now id _ => some (now, id)
  | .holding now id _ _ => some (now, id)
  | _ => none

/-- What a worker knows is so: what it has loaded, and, until its lease ends, that the row it claimed is its own. -/
def Fits (time : Int) (rows : List Delivery) : Work → Prop
  | .sweeping edits => ∀ edit ∈ edits, edit.changed = swept edit.loaded
  | .lapsing now edits => now ≤ time ∧ ∀ edit ∈ edits, edit.changed = lapsed edit.loaded ∧
      edit.loaded.status = .sending ∧ ∃ claimed, edit.loaded.claimedAt = some claimed ∧ claimed + lease < now
  | .claimed now id _ => time ≤ now + lease → ∃ row, rows[id]? = some row ∧ row.status = .sending ∧ row.claimedAt = some now
  | .holding now id loaded _ => time ≤ now + lease → ∃ row, rows[id]? = some row ∧ Held now loaded row
  | _ => True

theorem Fits.claimed_row (fits : Fits time rows work) (claims : claimOf work = some (now, id)) (live : time ≤ now + lease) :
    ∃ row, rows[id]? = some row ∧ row.status = .sending ∧ row.claimedAt = some now := by
  cases work with
  | claimed _ _ _ =>
    obtain ⟨rfl, rfl⟩ := Prod.mk.inj (Option.some.inj claims)
    exact fits live
  | holding _ _ loaded _ =>
    obtain ⟨rfl, rfl⟩ := Prod.mk.inj (Option.some.inj claims)
    obtain ⟨row, there, held⟩ := fits live
    exact ⟨row, there, held.status, held.claimedAt⟩
  | _ => cases claims

-- It stays so while time passes and the row it claimed stays alike.
theorem Fits.keep {time' : Int} (fits : Fits time rows work) (later : time ≤ time')
    (alike : ∀ now id, claimOf work = some (now, id) → time' ≤ now + lease → ∀ row, rows[id]? = some row →
      ∃ row', rows'[id]? = some row' ∧ Alike row row') : Fits time' rows' work := by
  cases work with
  | lapsing now edits => exact ⟨fits.1.trans later, fits.2⟩
  | claimed now id due =>
    intro live
    obtain ⟨row, there, sending, claimed⟩ := fits (later.trans live)
    obtain ⟨row', there', same⟩ := alike now id rfl live row there
    exact ⟨row', there', same.status.trans sending, same.claimedAt.trans claimed⟩
  | holding now id loaded due =>
    intro live
    obtain ⟨row, there, held⟩ := fits (later.trans live)
    obtain ⟨row', there', same⟩ := alike now id rfl live row there
    exact ⟨row', there', held.alike same⟩
  | _ => exact fits

/-- How one worker's step may touch a row: it only erases a link, or the row waits, or its claim has lapsed, or the
claim is the worker's own. -/
inductive Touch (time : Int) (work : Work) (id : Nat) (row row' : Delivery) : Prop
  | alike (alike : Alike row row')
  | waiting (pending : row.status = .pending)
  | lapsed (claimed : Int) (since : row.claimedAt = some claimed) (past : claimed + lease < time)
  | own (now : Int) (claims : claimOf work = some (now, id)) (live : time ≤ now + lease)

-- Whether the worker has claimed the row and not begun to send
def waitsFor (id : Nat) : Work → Bool
  | .claimed _ id' _ => id' = id
  | _ => false

/-- What one step of a worker does to one row. -/
structure Moved (time : Int) (work work' : Work) (begun : Option Nat) (id : Nat) (row row' : Delivery) : Prop where
  touch : Touch time work id row row'
  good : RowGood row'
  final : row.status.final = true → row' = row
  counted : (waitsFor id work').toNat + (if begun = some id then 1 else 0) + row.attempts ≤
    row'.attempts + (waitsFor id work).toNat

theorem counted_quiet (waits : waitsFor id work' = false) (attempts : row'.attempts = row.attempts) :
    (waitsFor id work').toNat + (if (none : Option Nat) = some id then 1 else 0) + row.attempts ≤
      row'.attempts + (waitsFor id work).toNat := by
  rw [waits, attempts, if_neg nofun, Bool.toNat_false]
  omega

theorem Moved.still {begun : Option Nat} (good : RowGood row)
    (counted : (waitsFor id work').toNat + (if begun = some id then 1 else 0) ≤ (waitsFor id work).toNat) :
    Moved time work work' begun id row row :=
  ⟨.alike (.refl row), good, fun _ => rfl, by omega⟩

-- `claimOf` and `Fits` after a step, and each row of it
structure Stepped (time : Int) (rows rows' : List Delivery) (work work' : Work) (begun : Option Nat) : Prop where
  length : rows'.length = rows.length
  fits : Fits time rows' work'
  claims : ∀ now id, claimOf work' = some (now, id) →
    claimOf work = some (now, id) ∨ ∃ row, rows[id]? = some row ∧ row.status = .pending
  known : ∀ id ∈ begun, id < rows.length
  rows : ∀ id row, rows[id]? = some row → ∃ row', rows'[id]? = some row' ∧ Moved time work work' begun id row row'

theorem Stepped.idle (good : ∀ row ∈ rows, RowGood row) (fits : Fits time rows work') (none : claimOf work' = none)
    (waits : ∀ id, waitsFor id work' = false) : Stepped time rows rows work work' .none := by
  refine ⟨rfl, fits, fun now id claims => ?_, nofun, fun id row there => ⟨row, there, .still ?_ ?_⟩⟩
  · rw [none] at claims
    cases claims
  · exact good row (List.mem_of_getElem? there)
  · rw [waits]
    exact Nat.zero_le _

theorem writeAll_row {edits : List Edit} (asLoaded : ∀ edit ∈ edits, rows[edit.id]? = some edit.loaded)
    (there : rows[id]? = some row) :
    ∃ row', (writeAll rows edits)[id]? = some row' ∧ (row' = row ∨ ∃ edit ∈ edits, edit.loaded = row ∧ row' = edit.changed) := by
  unfold writeAll
  rw [List.getElem?_mapIdx, there]
  refine ⟨_, rfl, ?_⟩
  cases found : edits.find? fun edit => edit.id = id with
  | none => exact .inl rfl
  | some edit =>
    have listed := List.mem_of_find?_eq_some found
    obtain rfl : edit.id = id := by simpa using List.find?_some found
    obtain rfl : edit.loaded = row := Option.some.inj ((asLoaded edit listed).symm.trans there)
    exact .inr ⟨edit, listed, rfl, Delivery.write_loaded _ _⟩

section Steps
variable (good : ∀ row ∈ rows, RowGood row)
include good

theorem sweep_stepped {edits : List Edit} (fits : Fits time rows (.sweeping edits))
    (asLoaded : ∀ edit ∈ edits, rows[edit.id]? = some edit.loaded) :
    Stepped time rows (writeAll rows edits) (.sweeping edits) .stopped none := by
  refine ⟨List.length_mapIdx, trivial, nofun, nofun, fun id row there => ?_⟩
  have known := good row (List.mem_of_getElem? there)
  obtain ⟨row', there', same | ⟨edit, listed, rfl, rfl⟩⟩ := writeAll_row asLoaded there
  · rw [same] at there'
    exact ⟨row, there', .still known (Nat.le_refl _)⟩
  refine ⟨_, there', ?_⟩
  rw [fits edit listed]
  refine ⟨?_, swept_good known, fun final => ?_, ?_⟩
  · by_cases pending : edit.loaded.status = .pending
    · exact .waiting pending
    · rw [swept, if_neg pending]
      exact .alike ⟨rfl, rfl, rfl, rfl, .inl rfl⟩
  · have pending : edit.loaded.status ≠ .pending := by
      intro pending
      rw [pending] at final
      cases final
    rw [swept, if_neg pending, ← (known.final final).secret]
  · exact counted_quiet rfl (swept_attempts _)

-- What lapsed had been claimed before its worker's lease ended.
theorem lapse_stepped {edits : List Edit} (fits : Fits time rows (.lapsing now edits))
    (asLoaded : ∀ edit ∈ edits, rows[edit.id]? = some edit.loaded) :
    Stepped time rows (writeAll rows edits) (.lapsing now edits) (.listing now) none := by
  refine ⟨List.length_mapIdx, trivial, nofun, nofun, fun id row there => ?_⟩
  have known := good row (List.mem_of_getElem? there)
  obtain ⟨row', there', same | ⟨edit, listed, rfl, rfl⟩⟩ := writeAll_row asLoaded there
  · rw [same] at there'
    exact ⟨row, there', .still known (Nat.le_refl _)⟩
  obtain ⟨changed, sending, claimed, since, past⟩ := fits.2 edit listed
  refine ⟨_, there', ?_⟩
  rw [changed]
  refine ⟨.lapsed claimed since (past.trans_le fits.1), lapsed_good known, fun final => ?_, ?_⟩
  · rw [sending] at final
    cases final
  · exact counted_quiet rfl (lapsed_attempts _)

theorem claim_stepped {due : List Nat} (there : rows[id]? = some row) (pending : row.status = .pending) :
    Stepped time rows (rows.set id (claim row now)) (.claiming now (id :: due)) (.claimed now id due) none := by
  have inside : id < rows.length := (List.getElem?_eq_some_iff.mp there).1
  have here : (rows.set id (claim row now))[id]? = some (claim row now) := List.getElem?_set_self inside
  refine ⟨List.length_set, fun _ => ⟨_, here, rfl, rfl⟩, fun now' id' claims => ?_, nofun, fun id' row' there' => ?_⟩
  · obtain ⟨rfl, rfl⟩ := Prod.mk.inj (Option.some.inj claims)
    exact .inr ⟨row, there, pending⟩
  by_cases same : id = id'
  · subst same
    obtain rfl : row = row' := Option.some.inj (there.symm.trans there')
    refine ⟨_, here, .waiting pending, claim_good (good row (List.mem_of_getElem? there)) pending now, fun final => ?_, ?_⟩
    · rw [pending] at final
      cases final
    · simp only [waitsFor, claim, decide_true, Bool.toNat_true, reduceCtorEq, if_false, Bool.toNat_false]
      omega
  · refine ⟨row', (List.getElem?_set_ne same).trans there', .still (good row' (List.mem_of_getElem? there')) ?_⟩
    simp [waitsFor, same]

theorem load_stepped {due : List Nat} (fits : Fits time rows (.claimed now id due)) (there : rows[id]? = some row) :
    Stepped time rows rows (.claimed now id due) (.holding now id row due) (some id) := by
  refine ⟨rfl, fun live => ?_, fun now' id' claims => .inl claims, ?_, fun id' row' there' => ⟨row', there', ?_⟩⟩
  · obtain ⟨row', there', sending, claimed⟩ := fits live
    obtain rfl : row = row' := Option.some.inj (there.symm.trans there')
    exact ⟨row, there, sending, claimed, sending, claimed, rfl, rfl, .inr rfl⟩
  · intro id' same
    rw [← Option.some.inj same]
    exact (List.getElem?_eq_some_iff.mp there).1
  · apply Moved.still (good row' (List.mem_of_getElem? there'))
    by_cases same : id = id' <;> simp [waitsFor, same]

theorem save_stepped {due : List Nat} {stored : Delivery} (there : rows[id]? = some row) (held : Held now stored row)
    (live : time ≤ now + lease) (outcome : Outcome stored changed) :
    Stepped time rows (rows.set id (Delivery.write stored changed row)) (.holding now id loaded due) (.claiming now due)
      none := by
  have inside : id < rows.length := (List.getElem?_eq_some_iff.mp there).1
  refine ⟨List.length_set, trivial, nofun, nofun, fun id' row' there' => ?_⟩
  by_cases same : id = id'
  · subst same
    obtain rfl : row = row' := Option.some.inj (there.symm.trans there')
    refine ⟨_, List.getElem?_set_self inside, .own now rfl live,
      write_good held (good row (List.mem_of_getElem? there)) outcome, fun final => ?_, counted_quiet rfl ?_⟩
    · rw [held.status] at final
      cases final
    · show patch stored.attempts changed.attempts row.attempts = row.attempts
      rw [outcome.attempts, patch_unchanged]
  · exact ⟨row', (List.getElem?_set_ne same).trans there',
      .still (good row' (List.mem_of_getElem? there')) (Nat.le_refl _)⟩

end Steps

theorem Held.self (held : Held now loaded row) : Held now row row :=
  ⟨held.status, held.claimedAt, held.status, held.claimedAt, rfl, rfl, .inr rfl⟩

/-- One step of a worker: what it may do to each row, and what it knows after it. -/
theorem proceed_stepped (good : ∀ row ∈ rows, RowGood row) (fits : Fits time rows work)
    (inTime : ∀ edits, (work = .sweeping edits ∨ ∃ now, work = .lapsing now edits) →
      ∀ edit ∈ edits, rows[edit.id]? = some edit.loaded)
    (within : ∀ now id loaded due, work = .holding now id loaded due → time ≤ now + lease) (reading : Reading)
    (answer : Answer) (broken : Bool) :
    Stepped time rows (proceed rows reading answer broken work).1 work (proceed rows reading answer broken work).2.1
      (proceed rows reading answer broken work).2.2 := by
  cases work with
  | sweeping edits => exact sweep_stepped good fits (inTime edits (.inl rfl))
  | lapsing now edits => exact lapse_stepped good fits (inTime edits (.inr ⟨now, rfl⟩))
  | listing now => exact .idle good trivial rfl fun _ => rfl
  | claiming now due =>
    cases due with
    | nil => exact .idle good trivial rfl fun _ => rfl
    | cons id due =>
      cases there : rows[id]? with
      | none =>
        rw [proceed, there]
        exact .idle good trivial rfl fun _ => rfl
      | some row =>
        rw [proceed, there]
        by_cases pending : row.status = .pending
        · simp only [if_pos pending]
          exact claim_stepped good there pending
        · simp only [if_neg pending]
          exact .idle good trivial rfl fun _ => rfl
  | claimed now id due =>
    cases there : rows[id]? with
    | none =>
      rw [proceed, there]
      exact .idle good trivial rfl fun _ => rfl
    | some row =>
      rw [proceed, there]
      exact load_stepped good fits there
  | holding now id loaded due =>
    have live := within now id loaded due rfl
    obtain ⟨row, there, held⟩ := fits live
    rw [proceed, there]
    cases broken with
    | false =>
      obtain ⟨changed, done, outcome⟩ := deliver_outcome loaded now reading answer
      simp only [done, Option.map_some, Bool.false_eq_true, if_false]
      exact save_stepped good there held live outcome
    | true =>
      obtain ⟨changed, done, outcome⟩ := retry_outcome row now (text "internal error")
      simp only [done, Option.map_some, if_true]
      exact save_stepped good there held.self live outcome
  | stopped => exact .idle good trivial rfl fun _ => rfl

/-! ## Runs -/

/-- What a run keeps: rows are as they should be, each worker's knowledge is so, a delivery has one sender whose lease
has not ended, and no delivery was sent more often than it was claimed. -/
structure Safe (w : World) : Prop where
  rows : ∀ row ∈ w.rows, RowGood row
  fits : ∀ work ∈ w.workers, Fits w.now w.rows work
  alone : ∀ (i j : Nat) (x y : Work) (now now' : Int) (id : Nat), w.workers[i]? = some x → w.workers[j]? = some y → claimOf x = some (now, id) →
    claimOf y = some (now', id) → w.now ≤ now + lease → w.now ≤ now' + lease → i = j
  claimed : ∀ work ∈ w.workers, ∀ (now : Int) (id : Nat), claimOf work = some (now, id) → id < w.rows.length
  known : ∀ id ∈ w.sends, id < w.rows.length
  counted : ∀ (id : Nat) (row : Delivery), w.rows[id]? = some row → w.sends.count id + w.workers.countP (waitsFor id) ≤ row.attempts

theorem safe_empty (now : Int) : Safe (emptyWorld now) where
  rows _ listed := absurd listed List.not_mem_nil
  fits _ listed := absurd listed List.not_mem_nil
  alone _ _ _ _ _ _ _ there := nomatch there
  claimed _ listed := absurd listed List.not_mem_nil
  known _ sent := absurd sent List.not_mem_nil
  counted _ _ there := nomatch there

theorem waitsFor_claim (waits : waitsFor id work = true) : ∃ now, claimOf work = some (now, id) := by
  cases work with
  | claimed now id' due =>
    obtain rfl : id' = id := by simpa [waitsFor] using waits
    exact ⟨now, rfl⟩
  | _ => cases waits

theorem safe_wait (safe : Safe w) (elapsed : Nat) : Safe { w with now := w.now + elapsed } := by
  have later : w.now ≤ w.now + elapsed := by omega
  refine ⟨safe.rows, fun work listed => ?_, ?_, safe.claimed, safe.known, safe.counted⟩
  · exact (safe.fits work listed).keep later fun _ _ _ _ row there => ⟨row, there, .refl row⟩
  · intro i j x y now now' id hi hj first second live live'
    exact safe.alone i j x y now now' id hi hj first second (later.trans live) (later.trans live')

theorem safe_enqueue (safe : Safe w) (good : RowGood row) : Safe { w with rows := w.rows ++ [row] } := by
  have kept : ∀ (id : Nat) (row' : Delivery), w.rows[id]? = some row' → (w.rows ++ [row])[id]? = some row' := fun id row' there =>
    (List.getElem?_append_left (List.getElem?_eq_some_iff.mp there).1).trans there
  have longer : ∀ id, id < w.rows.length → id < (w.rows ++ [row]).length := fun id inside =>
    inside.trans_le (List.length_append ▸ Nat.le_add_right _ _)
  constructor
  · intro row' listed
    rcases List.mem_append.mp listed with old | new
    · exact safe.rows row' old
    · exact List.mem_singleton.mp new ▸ good
  · intro work listed
    exact (safe.fits work listed).keep (le_refl _) fun _ id _ _ row' there => ⟨row', kept id row' there, .refl row'⟩
  · exact safe.alone
  · exact fun work listed now id claims => longer id (safe.claimed work listed now id claims)
  · exact fun id sent => longer id (safe.known id sent)
  · intro id row' there
    rcases Nat.lt_or_ge id w.rows.length with inside | outside
    · exact safe.counted id row' ((List.getElem?_append_left inside).symm.trans there)
    · have unsent : w.sends.count id = 0 :=
        List.count_eq_zero.mpr fun sent => absurd (safe.known id sent) (not_lt.mpr outside)
      have unclaimed : w.workers.countP (waitsFor id) = 0 := by
        apply List.countP_eq_zero.mpr
        intro work listed waits
        obtain ⟨now, claims⟩ := waitsFor_claim waits
        exact absurd (safe.claimed work listed now id claims) (not_lt.mpr outside)
      rw [unsent, unclaimed]
      exact Nat.zero_le _

theorem safe_start (safe : Safe w) (fits : Fits w.now w.rows work) (idle : claimOf work = none) :
    Safe { w with workers := w.workers ++ [work] } := by
  have known : ∀ (i : Nat) (x : Work), (w.workers ++ [work])[i]? = some x → w.workers[i]? = some x ∨ x = work := by
    intro i x there
    rw [List.getElem?_append] at there
    split at there
    · exact .inl there
    · exact .inr (List.mem_singleton.mp (List.mem_of_getElem? there))
  constructor
  · exact safe.rows
  · intro other listed
    rcases List.mem_append.mp listed with old | new
    · exact safe.fits other old
    · exact List.mem_singleton.mp new ▸ fits
  · intro i j x y now now' id hi hj first second
    rcases known i x hi with oldX | rfl
    · rcases known j y hj with oldY | rfl
      · exact safe.alone i j x y now now' id oldX oldY first second
      · exact absurd (idle.symm.trans second) nofun
    · exact absurd (idle.symm.trans first) nofun
  · intro other listed now id claims
    rcases List.mem_append.mp listed with old | new
    · exact safe.claimed other old now id claims
    · rw [List.mem_singleton.mp new, idle] at claims
      cases claims
  · exact safe.known
  · intro id row there
    have waits : waitsFor id work ≠ true := by
      intro waits
      obtain ⟨now, claims⟩ := waitsFor_claim waits
      exact absurd (idle.symm.trans claims) nofun
    rw [List.countP_append, List.countP_singleton, if_neg waits]
    exact safe.counted id row there

-- A worker's step, or its end
theorem safe_stepped {worker : Nat} {begun : Option Nat} (safe : Safe w) (there : w.workers[worker]? = some work)
    (stepped : Stepped w.now w.rows rows' work work' begun) :
    Safe { w with rows := rows', workers := w.workers.set worker work', sends := begun.toList ++ w.sends } := by
  have inside : worker < w.workers.length := (List.getElem?_eq_some_iff.mp there).1
  have member : work ∈ w.workers := List.mem_of_getElem? there
  have other : ∀ (j : Nat) (y : Work), (w.workers.set worker work')[j]? = some y →
      (worker = j ∧ y = work') ∨ (worker ≠ j ∧ w.workers[j]? = some y) := by
    intro j y found
    by_cases same : worker = j
    · subst same
      rw [List.getElem?_set_self inside] at found
      exact .inl ⟨rfl, (Option.some.inj found).symm⟩
    · exact .inr ⟨same, (List.getElem?_set_ne same).symm.trans found⟩
  -- A claim on a row that is waited for is a new one.
  have fresh : ∀ (id : Nat) (row : Delivery), w.rows[id]? = some row → row.status = .pending → ∀ y ∈ w.workers, ∀ now : Int,
      claimOf y = some (now, id) → w.now ≤ now + lease → False := by
    intro id row here pending y listed now claims live
    obtain ⟨row', here', sending, -⟩ := (safe.fits y listed).claimed_row claims live
    obtain rfl := Option.some.inj (here.symm.trans here')
    rw [pending] at sending
    cases sending
  have alone : ∀ (j : Nat) (y : Work) (now now' : Int) (id : Nat), worker ≠ j → w.workers[j]? = some y → claimOf work' = some (now, id) →
      claimOf y = some (now', id) → w.now ≤ now + lease → w.now ≤ now' + lease → False := by
    intro j y now now' id differ found mine theirs live live'
    rcases stepped.claims now id mine with old | ⟨row, here, pending⟩
    · exact differ (safe.alone worker j work y now now' id there found old theirs live live')
    · exact fresh id row here pending y (List.mem_of_getElem? found) now' theirs live'
  constructor
  · intro row' listed
    obtain ⟨id, inside', rfl⟩ := List.mem_iff_getElem.mp listed
    rw [stepped.length] at inside'
    obtain ⟨row, here, moved⟩ := stepped.rows id _ (List.getElem?_eq_getElem inside')
    rw [(List.getElem?_eq_some_iff.mp here).2]
    exact moved.good
  · intro y listed
    obtain ⟨j, found⟩ := List.mem_iff_getElem?.mp listed
    rcases other j y found with ⟨-, rfl⟩ | ⟨differ, old⟩
    · exact stepped.fits
    have fits := safe.fits y (List.mem_of_getElem? old)
    apply fits.keep (le_refl _)
    intro now id claims live row here
    obtain ⟨row', here', moved⟩ := stepped.rows id row here
    obtain ⟨found', claimedHere, sending, since⟩ := fits.claimed_row claims live
    obtain rfl := Option.some.inj (here.symm.trans claimedHere)
    cases moved.touch with
    | alike same => exact ⟨row', here', same⟩
    | waiting pending => exact (fresh id row here pending y (List.mem_of_getElem? old) now claims live).elim
    | lapsed claimed earlier past =>
      obtain rfl := Option.some.inj (earlier.symm.trans since)
      exact absurd past (not_lt.mpr live)
    | own mine own live' => exact absurd (safe.alone worker j work y mine now id there old own claims live' live) differ
  · intro i j x y now now' id hi hj first second live live'
    rcases other i x hi with ⟨rfl, rfl⟩ | ⟨differ, oldX⟩
    · rcases other j y hj with ⟨rfl, -⟩ | ⟨differ', oldY⟩
      · rfl
      · exact (alone j y now now' id differ' oldY first second live live').elim
    · rcases other j y hj with ⟨rfl, rfl⟩ | ⟨differ', oldY⟩
      · exact (alone i x now' now id differ oldX second first live' live).elim
      · exact safe.alone i j x y now now' id oldX oldY first second live live'
  · intro y listed now id claims
    rw [stepped.length]
    obtain ⟨j, found⟩ := List.mem_iff_getElem?.mp listed
    rcases other j y found with ⟨-, rfl⟩ | ⟨-, old⟩
    · rcases stepped.claims now id claims with mine | ⟨row, here, -⟩
      · exact safe.claimed work member now id mine
      · exact (List.getElem?_eq_some_iff.mp here).1
    · exact safe.claimed y (List.mem_of_getElem? old) now id claims
  · intro id sent
    rw [stepped.length]
    rcases List.mem_append.mp sent with new | old
    · exact stepped.known id (Option.mem_toList.mp new)
    · exact safe.known id old
  · intro id row' here'
    have inside' : id < w.rows.length := stepped.length ▸ (List.getElem?_eq_some_iff.mp here').1
    obtain ⟨row'', here'', moved⟩ := stepped.rows id _ (List.getElem?_eq_getElem inside')
    obtain rfl := Option.some.inj (here'.symm.trans here'')
    have before := safe.counted id _ (List.getElem?_eq_getElem inside')
    have step := moved.counted
    have mine : w.workers[worker] = work := (List.getElem?_eq_some_iff.mp there).2
    have waited : (waitsFor id work).toNat ≤ w.workers.countP (waitsFor id) := by
      cases waits : waitsFor id work with
      | false => exact Nat.zero_le _
      | true => exact List.countP_pos_iff.mpr ⟨work, member, waits⟩
    have sent : begun.toList.count id = if begun = some id then 1 else 0 := by
      cases begun with
      | none => rfl
      | some id' => simp [List.count_singleton]
    rw [List.count_append, sent, List.countP_set inside, mine]
    cases waits : waitsFor id work <;> cases waits' : waitsFor id work' <;> rw [waits, waits'] at step <;>
      rw [waits] at waited <;> simp only [Bool.toNat_false, Bool.toNat_true, if_true, Bool.false_eq_true, if_false] at * <;>
      omega

theorem select_query {query : Nat → Delivery → Bool} {entry : Nat × Delivery} (listed : entry ∈ select rows query) :
    rows[entry.1]? = some entry.2 ∧ query entry.1 entry.2 = true := by
  obtain ⟨among, meets⟩ := List.mem_filter.mp listed
  obtain ⟨⟨row, id⟩, there, rfl⟩ := List.mem_map.mp among
  exact ⟨List.mem_zipIdx_iff_getElem?.mp there, meets⟩

theorem sweptEdits_fit (open_ : Option Nat → Bool) : Fits time rows (.sweeping (sweptEdits rows open_)) := by
  intro edit listed
  obtain ⟨entry, -, rfl⟩ := List.mem_map.mp listed
  rfl

theorem lapsedEdits_fit (now : Int) : Fits now rows (.lapsing now (lapsedEdits rows now)) := by
  refine ⟨le_refl _, fun edit listed => ?_⟩
  obtain ⟨entry, selected, rfl⟩ := List.mem_map.mp listed
  have meets := (select_query selected).2
  rw [decide_eq_true_eq, Option.any_eq_true] at meets
  obtain ⟨sending, claimed, since, past⟩ := meets
  exact ⟨rfl, sending, claimed, since, by have := of_decide_eq_true past; omega⟩

-- A removed phone's token is kept with a row that waits, so no worker's row changes.
theorem safe_removePhone (safe : Safe w) (tokenId : Nat) (token : Text) :
    Safe { w with rows := w.rows.map (keepPush security tokenId token) } := by
  have sending : ∀ row : Delivery, row.status = .sending → keepPush security tokenId token row = row := by
    intro row sending
    apply if_neg
    rintro ⟨-, pending, -⟩
    rw [sending] at pending
    cases pending
  constructor
  · intro row listed
    obtain ⟨row', listed', rfl⟩ := List.mem_map.mp listed
    exact keepPush_good (safe.rows row' listed') _ _ _
  · intro work listed
    have fits := safe.fits work listed
    apply fits.keep (le_refl _)
    intro now id claims live row there
    obtain ⟨row', there', sends, -⟩ := fits.claimed_row claims live
    obtain rfl := Option.some.inj (there.symm.trans there')
    refine ⟨row, ?_, .refl row⟩
    rw [List.getElem?_map, there, Option.map_some, sending row sends]
  · exact safe.alone
  · intro work listed now id claims
    rw [List.length_map]
    exact safe.claimed work listed now id claims
  · intro id sent
    rw [List.length_map]
    exact safe.known id sent
  · intro id row there
    obtain ⟨row', there', rfl⟩ := Option.map_eq_some_iff.mp (List.getElem?_map.symm.trans there)
    have same : (keepPush security tokenId token row').attempts = row'.attempts := by
      unfold keepPush
      split_ifs <;> rfl
    rw [same]
    exact safe.counted id row' there'

-- What `InTime` says of the step of one worker
theorem inTime_worker {worker : Nat} {broken : Bool} (inTime : InTime w (.work worker reading answer broken))
    (there : w.workers[worker]? = some work) :
    (∀ edits, (work = .sweeping edits ∨ ∃ now, work = .lapsing now edits) →
      ∀ edit ∈ edits, w.rows[edit.id]? = some edit.loaded) ∧
    ∀ now id loaded due, work = .holding now id loaded due → w.now ≤ now + lease := by
  have inTime := inTime work there
  constructor
  · rintro edits (rfl | ⟨now, rfl⟩)
    · exact inTime
    · exact inTime
  · rintro now id loaded due rfl
    exact inTime

theorem safe_step (w : World) (event : Event) (safe : Safe w) (inTime : InTime w event) : Safe (step w event) := by
  cases event with
  | wait elapsed => exact safe_wait safe elapsed
  | enqueue channel kind invitationId pushTokenId key secret =>
    unfold step
    dsimp only
    split_ifs
    · exact safe
    · exact safe_enqueue safe (queued_good _ _ _ _ _ _ _)
  | sweep open_ => exact safe_start safe (sweptEdits_fit open_) rfl
  | tick => exact safe_start safe (lapsedEdits_fit w.now) rfl
  | work worker reading answer broken =>
    cases there : w.workers[worker]? with
    | none =>
      rw [step, there]
      exact safe
    | some work =>
      have known := inTime_worker inTime there
      rw [step, there]
      exact safe_stepped safe there
        (proceed_stepped safe.rows (safe.fits work (List.mem_of_getElem? there)) known.1 known.2 reading answer broken)
  | crash worker =>
    cases there : w.workers[worker]? with
    | none =>
      have same : w.workers.set worker .stopped = w.workers := List.set_eq_of_length_le (List.getElem?_eq_none_iff.mp there)
      rw [step, same]
      exact safe
    | some work =>
      have stops : Stepped w.now w.rows w.rows work .stopped none := .idle safe.rows trivial rfl fun _ => rfl
      exact safe_stepped safe there stops
  | removePhone tokenId token => exact safe_removePhone safe tokenId token

theorem safe_run {events : List Event} (start : Int) (inTime : Guarded step InTime (emptyWorld start) events) :
    Safe (run step (emptyWorld start) events) :=
  run_invariant safe_step _ events (safe_empty start) inTime

-- What has ended stays as it is.
theorem ended_step (w : World) (event : Event) (safe : Safe w) (inTime : InTime w event) (there : w.rows[id]? = some row)
    (final : row.status.final = true) : (step w event).rows[id]? = some row := by
  have inside : id < w.rows.length := (List.getElem?_eq_some_iff.mp there).1
  cases event with
  | wait elapsed => exact there
  | enqueue channel kind invitationId pushTokenId key secret =>
    unfold step
    dsimp only
    split_ifs
    · exact there
    · exact (List.getElem?_append_left inside).trans there
  | sweep open_ => exact there
  | tick => exact there
  | work worker reading answer broken =>
    cases found : w.workers[worker]? with
    | none =>
      rw [step, found]
      exact there
    | some work =>
      have known := inTime_worker inTime found
      have stepped := proceed_stepped safe.rows (safe.fits work (List.mem_of_getElem? found)) known.1 known.2 reading
        answer broken
      obtain ⟨row', there', moved⟩ := stepped.rows id row there
      rw [step, found]
      rw [moved.final final] at there'
      exact there'
  | crash worker => exact there
  | removePhone tokenId token =>
    have waits : ¬ (row.pushTokenId = some tokenId ∧ row.status = .pending ∧ security row.kind = true) := by
      rintro ⟨-, pending, -⟩
      rw [pending] at final
      cases final
    show (w.rows.map (keepPush security tokenId token))[id]? = some row
    rw [List.getElem?_map, there, Option.map_some, keepPush, if_neg waits]

theorem ended_run {w : World} {events : List Event} (safe : Safe w) (inTime : Guarded step InTime w events)
    (there : w.rows[id]? = some row) (final : row.status.final = true) :
    (run step w events).rows[id]? = some row := by
  have kept := run_invariant (fun w event (both : Safe w ∧ w.rows[id]? = some row) inTime =>
    (⟨safe_step w event both.1 inTime, ended_step w event both.1 inTime both.2 final⟩ :
      Safe (step w event) ∧ (step w event).rows[id]? = some row)) w events ⟨safe, there⟩ inTime
  exact kept.2

def sampleReading : Reading := ⟨true, none, true⟩

-- A worker stops mid-send, and another takes its delivery over when the lease has ended.
def sampleEvents : List Event :=
  [.enqueue (text "email") [1] none none [2] (some ([3], [4])), .tick, .work 0 sampleReading .accepted false,
    .work 0 sampleReading .accepted false, .work 0 sampleReading .accepted false, .work 0 sampleReading .accepted false,
    .crash 0, .wait 600000001, .tick, .work 1 sampleReading .accepted false, .work 1 sampleReading .accepted false,
    .work 1 sampleReading .accepted false, .work 1 sampleReading .accepted false]

def sampleRest : List Event := [.work 1 sampleReading .accepted false]

theorem sample_inTime : Guarded step InTime (emptyWorld 0) (sampleEvents ++ sampleRest) := by decide +kernel

example : (run step (emptyWorld 0) (sampleEvents ++ sampleRest)).sends = [0, 0] := by decide +kernel

end QVault.Proof.Deliveries
