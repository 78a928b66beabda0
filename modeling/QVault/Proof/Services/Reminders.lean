import QVault.Services.Reminders
import QVault.Proof.Services.Outlook

/-!
# Reminders are sent once, and a day apart

What every run keeps: each row says what the function that wrote it meant, and no two rows tell one person one
thing. What a run keeps as well where no two presses of one decision overlap: a day between them.
-/

namespace QVault.Proof.Reminders
open QVault.Python QVault.Services QVault.Services.Reminders

variable {raisedAt : Text → Option Int} {db db' : Database} {p q : Proposal} {w : World}

/-! ## What a decision keeps -/

structure Same (p q : Proposal) : Prop where
  id : p.id = q.id
  uuid : p.proposalUuid = q.proposalUuid
  vault : p.vaultId = q.vaultId
  creator : p.creatorId = q.creatorId
  created : p.createdAtIso = q.createdAtIso

theorem same_of_sameDecision (same : sameDecision p q = true) : Same p q := by
  simp only [sameDecision, Bool.and_eq_true, decide_eq_true_eq] at same
  obtain ⟨⟨⟨⟨⟨id, uuid⟩, vault⟩, creator⟩, created⟩, _⟩ := same
  exact ⟨id, uuid, vault, creator, created⟩

-- A decision of the database, perhaps as it was loaded earlier
def Known (db : Database) (p : Proposal) : Prop := ∃ q ∈ db.proposals, Same p q

theorem known_of_mem (among : p ∈ db.proposals) : Known db p := ⟨p, among, ⟨rfl, rfl, rfl, rfl, rfl⟩⟩

theorem Known.kept (keep : keeps db db' = true) (known : Known db p) : Known db' p := by
  obtain ⟨q, among, same⟩ := known
  obtain ⟨r, listed, alike⟩ := List.any_eq_true.mp (List.all_eq_true.mp keep q among)
  have same' := same_of_sameDecision alike
  exact ⟨r, listed, same.id.trans same'.id, same.uuid.trans same'.uuid, same.vault.trans same'.vault,
    same.creator.trans same'.creator, same.created.trans same'.created⟩

theorem Known.withVotes (board : Noticeboard) (known : Known db p) : Known db (board.withVotes p) := by
  obtain ⟨q, among, same⟩ := known
  unfold Noticeboard.withVotes
  split
  · exact ⟨q, among, same.id, same.uuid, same.vault, same.creator, same.created⟩
  · exact ⟨q, among, same⟩

theorem withVotes_same (board : Noticeboard) (p : Proposal) : Same (board.withVotes p) p := by
  unfold Noticeboard.withVotes
  split <;> exact ⟨rfl, rfl, rfl, rfl, rfl⟩

-- Decisions of one number are one decision.
theorem Known.unique (known : Known db p) (known' : Known db q) (same : p.id = q.id) : Same p q := by
  obtain ⟨r, among, first⟩ := known
  obtain ⟨s, listed, second⟩ := known'
  have one : r = s := by
    refine List.inj_on_of_nodup_map db.proposalKeys among listed ?_
    rw [← first.id, ← second.id, same]
  rw [← one] at second
  exact ⟨same, first.uuid.trans second.uuid.symm, first.vault.trans second.vault.symm,
    first.creator.trans second.creator.symm, first.created.trans second.created.symm⟩

/-! ## What a row says -/

theorem kinds_differ : dueSoonKind ≠ reminderKind := by decide

/-- What one call of `_send` can be about. -/
inductive Meant (raisedAt : Text → Option Int) (db : Database) : Delivery → Prop
  | stage {p : Proposal} {raised now : Int} {stage : Nat} (known : Known db p)
    (parsed : raisedAt p.createdAtIso = some raised) (due : stageDue raised now = some stage) :
    Meant raisedAt db ⟨reminderKind, stageKey p.proposalUuid stage, now, some p.vaultId, some p.id, none,
      some (stageData stage)⟩
  | warning {p : Proposal} {now : Int} (known : Known db p) :
    Meant raisedAt db ⟨dueSoonKind, dueSoonKey p.proposalUuid, now, some p.vaultId, some p.id, some p.creatorId, none⟩
  | asked {p : Proposal} {raised now : Int} (known : Known db p) (parsed : raisedAt p.createdAtIso = some raised) :
    Meant raisedAt db (askedDelivery now raised p p.creatorId)
  | other {delivery : Delivery} (others : othersKind delivery.kind = true) : Meant raisedAt db delivery

theorem Meant.kept {delivery : Delivery} (keep : keeps db db' = true) (meant : Meant raisedAt db delivery) :
    Meant raisedAt db' delivery := by
  cases meant with
  | stage known parsed due => exact .stage (known.kept keep) parsed due
  | warning known => exact .warning (known.kept keep)
  | asked known parsed => exact .asked (known.kept keep) parsed
  | other others => exact .other others

theorem remindOne_meant {board : Noticeboard} {now : Int} {delivery : Delivery} {ids : List Int} (known : Known db p)
    (found : remindOne raisedAt board now p = some (delivery, ids)) :
    Meant raisedAt db delivery ∧ ¬ (delivery.kind = reminderKind ∧ delivery.actorId.isSome) := by
  unfold remindOne at found
  simp only at found
  split_ifs at found
  split at found
  · cases found
  · rename_i raised parsed
    split at found
    · split_ifs at found
      cases found
      exact ⟨.warning known, fun both => kinds_differ both.1⟩
    · obtain ⟨stage, due, same⟩ := Option.map_eq_some_iff.mp found
      cases same
      exact ⟨.stage known parsed due, by simp⟩

/-! ## What every step keeps -/

def Good (raisedAt : Text → Option Int) (db : Database) : Job → Prop
  | .reminding _ left => ∀ p ∈ left, Known db p
  | .asked _ p requester => requester = p.creatorId ∧ Known db p
  | .sending delivery _ after => Meant raisedAt db delivery ∧ ∀ p ∈ after, Known db p

theorem Good.kept {job : Job} (keep : keeps db db' = true) (good : Good raisedAt db job) : Good raisedAt db' job := by
  cases job with
  | reminding now left => exact fun p listed => (good p listed).kept keep
  | asked now p requester => exact ⟨good.1, good.2.kept keep⟩
  | sending delivery left after => exact ⟨good.1.kept keep, fun p listed => (good.2 p listed).kept keep⟩

theorem good_idle : Good raisedAt db idle := fun p listed => absurd listed List.not_mem_nil

structure Sound (raisedAt : Text → Option Int) (w : World) : Prop where
  rows : ∀ r ∈ w.table.everything, Meant raisedAt w.database r.toDelivery
  jobs : ∀ job ∈ w.jobs, Good raisedAt w.database job
  owners : ∀ e ∈ w.table.pending, e.1 < w.jobs.length

-- What a step of one job leaves of the table
structure Within (raisedAt : Text → Option Int) (db : Database) (transaction : Nat) (before after : Table) : Prop where
  rows : ∀ r ∈ after.everything, r ∈ before.everything ∨ Meant raisedAt db r.toDelivery
  owners : ∀ e ∈ after.pending, e ∈ before.pending ∨ e.1 = transaction

theorem Within.refl (transaction : Nat) (table : Table) : Within raisedAt db transaction table table :=
  ⟨fun _ listed => .inl listed, fun _ listed => .inl listed⟩

theorem within_commit (transaction : Nat) (table : Table) :
    Within raisedAt db transaction table (table.commit transaction) :=
  ⟨fun _ listed => .inl (UniqueTable.everything_commit.mp listed), fun _ listed => .inl (List.mem_filter.mp listed).1⟩

theorem within_undo (transaction : Nat) (table : Table) :
    Within raisedAt db transaction table (table.undo transaction) :=
  ⟨fun _ listed => .inl (UniqueTable.everything_undo listed), fun _ listed => .inl (List.mem_filter.mp listed).1⟩

theorem within_insert {row : Notification} (meant : Meant raisedAt db row.toDelivery) (transaction : Nat) (table : Table) :
    Within raisedAt db transaction table (table.insert transaction row) := by
  refine ⟨fun r listed => ?_, fun e listed => ?_⟩
  · exact (UniqueTable.everything_insert listed).imp_right fun same => by rw [same]; exact meant
  · exact (UniqueTable.mem_insert listed).imp_right fun same => by rw [same]

theorem proceed_good {board : Noticeboard} (transaction : Nat) {job : Job} (good : Good raisedAt board.database job) :
    Good raisedAt board.database (proceed raisedAt board transaction job).1 ∧
      Within raisedAt board.database transaction board.table (proceed raisedAt board transaction job).2 := by
  cases job with
  | reminding now left =>
    cases left with
    | nil => exact ⟨good, within_commit _ _⟩
    | cons p left =>
      have here := (good p List.mem_cons_self).withVotes board
      have rest : ∀ q ∈ left, Known board.database q := fun q listed => good q (List.mem_cons_of_mem _ listed)
      unfold proceed
      simp only
      split
      · exact ⟨rest, .refl _ _⟩
      · rename_i delivery ids found
        exact ⟨⟨(remindOne_meant here found).1, rest⟩, .refl _ _⟩
  | asked now p requester =>
    obtain ⟨rfl, known⟩ := good
    unfold proceed
    simp only
    split
    · exact ⟨good_idle, within_undo _ _⟩
    · rename_i raised parsed
      exact ⟨⟨.asked known parsed, fun q listed => absurd listed List.not_mem_nil⟩, .refl _ _⟩
  | sending delivery left after =>
    cases left with
    | nil => exact ⟨good.2, .refl _ _⟩
    | cons id left =>
      unfold proceed
      simp only
      split
      · exact ⟨good, .refl _ _⟩
      · exact ⟨good, .refl _ _⟩
      · exact ⟨good, within_insert good.1 _ _⟩

theorem openDecisions_known {board : Noticeboard} {now : Int} (listed : p ∈ openDecisions board now) : Known board.database p :=
  known_of_mem (List.mem_filter.mp ((List.mem_insertionSort _).mp listed)).1

theorem remindState_requester {board : Noticeboard} {rows : List Notification} {requester now : Int}
    (allowed : (remindState board rows p requester now).allowed = true) :
    requester = p.creatorId ∧ ∀ last ∈ lastReminder rows p requester, remindEvery ≤ now - last := by
  unfold remindState at allowed
  simp only at allowed
  split_ifs at allowed with creator status waiting stuck
  all_goals try cases allowed
  refine ⟨(not_not.mp creator).symm, fun last found => ?_⟩
  rw [Option.mem_def.mp found] at allowed
  by_contra early
  rw [not_le] at early
  simp [early] at allowed

theorem sound_step (sound : Sound raisedAt w) (e : Event) : Sound raisedAt (step raisedAt w e) := by
  obtain ⟨rows, jobs, owners⟩ := sound
  cases e with
  | pass time => exact ⟨rows, jobs, owners⟩
  | change database switchedOff =>
    unfold step
    simp only
    split_ifs with keep
    · exact ⟨fun r listed => (rows r listed).kept keep, fun job listed => (jobs job listed).kept keep, owners⟩
    · exact ⟨rows, jobs, owners⟩
  | other row =>
    unfold step
    simp only
    split_ifs with others
    · refine ⟨fun r listed => ?_, jobs, fun e listed => ?_⟩
      · rcases UniqueTable.everything_insert (UniqueTable.everything_commit.mp listed) with old | rfl
        · exact rows r old
        · exact .other others
      · obtain ⟨among, notThis⟩ := List.mem_filter.mp listed
        rcases UniqueTable.mem_insert among with old | rfl
        · exact owners e old
        · simp at notThis
    · exact ⟨rows, jobs, owners⟩
  | run =>
    refine ⟨rows, fun job listed => ?_, fun e listed => ?_⟩
    · rcases List.mem_append.mp listed with old | new
      · exact jobs job old
      · rw [List.mem_singleton.mp new]
        exact fun p among => openDecisions_known among
    · exact (owners e listed).trans (by simp [step])
  | press proposalId requester =>
    unfold step
    simp only
    split
    · exact ⟨rows, jobs, owners⟩
    · rename_i p found
      split_ifs with allowed
      · refine ⟨rows, fun job listed => ?_, fun e listed => (owners e listed).trans (by simp)⟩
        rcases List.mem_append.mp listed with old | new
        · exact jobs job old
        · rw [List.mem_singleton.mp new]
          exact ⟨(remindState_requester allowed).1, known_of_mem (List.mem_of_find?_eq_some found)⟩
      · exact ⟨rows, jobs, owners⟩
  | proceed process =>
    unfold step
    simp only
    split
    · exact ⟨rows, jobs, owners⟩
    · rename_i job at'
      obtain ⟨good, within⟩ := proceed_good process (jobs job (List.mem_of_getElem? at'))
      have inside : process < w.jobs.length := (List.getElem?_eq_some_iff.mp at').1
      refine ⟨fun r listed => ?_, fun other listed => ?_, fun e listed => ?_⟩
      · exact (within.rows r listed).elim (rows r) id
      · rcases List.mem_or_eq_of_mem_set listed with old | rfl
        · exact jobs other old
        · exact good
      · simp only [List.length_set]
        exact (within.owners e listed).elim (owners e) fun same => same ▸ inside
  | abort process =>
    refine ⟨fun r listed => rows r (UniqueTable.everything_undo listed), fun other listed => ?_, fun e listed => ?_⟩
    · rcases List.mem_or_eq_of_mem_set listed with old | rfl
      · exact jobs other old
      · exact good_idle
    · simp only [step, List.length_set]
      exact owners e (List.mem_filter.mp listed).1

/-! ## Stages -/

-- The number of a scheduled reminder
def stageOf (data : Option Json) : Option Int :=
  match data with
  | some (.dict [(key, .int stage)]) => if key = text "stage" then some stage else none
  | _ => none

def isStage (decision : Nat) (approver stage : Int) (r : Notification) : Bool :=
  r.kind = reminderKind && r.proposalId = some decision && r.recipientId = approver && stageOf r.data = some stage

def isWarning (decision : Nat) (approver : Int) (r : Notification) : Bool :=
  r.kind = dueSoonKind && r.proposalId = some decision && r.recipientId = approver

-- A reminder the requester caused
def isAsked (decision : Nat) (r : Notification) : Bool :=
  r.kind = reminderKind && r.proposalId = some decision && r.actorId.isSome

theorem meant_stage {r : Notification} {decision : Nat} {approver stage : Int} (meant : Meant raisedAt db r.toDelivery)
    (here : isStage decision approver stage r = true) :
    ∃ p raised, ∃ due : Nat, Known db p ∧ p.id = decision ∧ raisedAt p.createdAtIso = some raised ∧
      stageDue raised r.createdAt = some due ∧ stage = due ∧ r.key = stageKey p.proposalUuid due := by
  obtain ⟨delivery, recipient⟩ := r
  simp only [isStage, Bool.and_eq_true, decide_eq_true_eq] at here meant
  obtain ⟨⟨⟨kind, decided⟩, _⟩, data⟩ := here
  cases meant with
  | stage known parsed due =>
    refine ⟨_, _, _, known, Option.some.inj decided, parsed, due, ?_, rfl⟩
    exact (Option.some.inj data).symm
  | warning known => exact absurd kind kinds_differ
  | asked known parsed => cases data
  | other others => simp [othersKind, kind] at others

theorem meant_warning {r : Notification} {decision : Nat} {approver : Int} (meant : Meant raisedAt db r.toDelivery)
    (here : isWarning decision approver r = true) :
    ∃ p, Known db p ∧ p.id = decision ∧ r.key = dueSoonKey p.proposalUuid := by
  obtain ⟨delivery, recipient⟩ := r
  simp only [isWarning, Bool.and_eq_true, decide_eq_true_eq] at here meant
  obtain ⟨⟨kind, decided⟩, _⟩ := here
  cases meant with
  | stage known parsed due => exact absurd kind.symm kinds_differ
  | warning known => exact ⟨_, known, Option.some.inj decided, rfl⟩
  | asked known parsed => exact absurd kind.symm kinds_differ
  | other others => simp [othersKind, kind] at others

theorem meant_asked {r : Notification} {decision : Nat} (meant : Meant raisedAt db r.toDelivery)
    (here : isAsked decision r = true) :
    ∃ p raised, Known db p ∧ p.id = decision ∧ raisedAt p.createdAtIso = some raised ∧ r.actorId = some p.creatorId ∧
      r.key = askedKey p.proposalUuid (askedDay raised r.createdAt) := by
  obtain ⟨delivery, recipient⟩ := r
  simp only [isAsked, Bool.and_eq_true, decide_eq_true_eq] at here meant
  obtain ⟨⟨kind, decided⟩, actor⟩ := here
  cases meant with
  | stage known parsed due => cases actor
  | warning known => exact absurd kind kinds_differ
  | asked known parsed => exact ⟨_, _, known, Option.some.inj decided, parsed, rfl, rfl⟩
  | other others => simp [othersKind, kind] at others

theorem le_getLast {l : List Nat} (sorted : l.Pairwise (· ≤ ·)) {m : Nat} (last : l.getLast? = some m) : ∀ x ∈ l, x ≤ m := by
  obtain ⟨front, rfl⟩ := List.getLast?_eq_some_iff.mp last
  rw [List.pairwise_append] at sorted
  intro x listed
  rcases List.mem_append.mp listed with earlier | new
  · exact sorted.2.2 x earlier m (List.mem_singleton_self _)
  · exact (List.mem_singleton.mp new).le

-- A later time has a stage due that is no lower.
theorem stageDue_mono {raised now now' : Int} {stage stage' : Nat} (later : now ≤ now')
    (first : stageDue raised now = some stage) (second : stageDue raised now' = some stage') : stage ≤ stage' := by
  have sorted : reminderStages.Pairwise (· ≤ ·) := by decide
  refine le_getLast (sorted.filter _) second stage ?_
  obtain ⟨listed, due⟩ := List.mem_filter.mp (List.mem_of_getLast? first)
  rw [decide_eq_true_eq] at due
  exact List.mem_filter.mpr ⟨listed, decide_eq_true (due.trans later)⟩

theorem told_once (sound : Sound raisedAt w) (decision : Nat) (approver stage : Int) :
    (w.table.rows.filter (isStage decision approver stage)).length ≤ 1 ∧
      (w.table.rows.filter (isWarning decision approver)).length ≤ 1 := by
  have meant : ∀ r ∈ w.table.rows, Meant raisedAt w.database r.toDelivery :=
    fun r listed => sound.rows r (UniqueTable.mem_everything.mpr (.inl listed))
  constructor
  · apply UniqueTable.single
    intro r listed s among here there
    obtain ⟨p, raised, due, known, id, _, _, rfl, key⟩ := meant_stage (meant r listed) here
    obtain ⟨q, raised', due', known', id', _, _, same, key'⟩ := meant_stage (meant s among) there
    have alike := known.unique known' (id.trans id'.symm)
    simp only [isStage, Bool.and_eq_true, decide_eq_true_eq] at here there
    obtain rfl : due = due' := Int.ofNat.inj same
    rw [dedupe, dedupe, key, key', alike.uuid, here.1.2, there.1.2]
  · apply UniqueTable.single
    intro r listed s among here there
    obtain ⟨p, known, id, key⟩ := meant_warning (meant r listed) here
    obtain ⟨q, known', id', key'⟩ := meant_warning (meant s among) there
    have alike := known.unique known' (id.trans id'.symm)
    simp only [isWarning, Bool.and_eq_true, decide_eq_true_eq] at here there
    rw [dedupe, dedupe, key, key', alike.uuid, here.2, there.2]

theorem stages_increase (sound : Sound raisedAt w) {r s : Notification} (listed : r ∈ w.table.rows)
    (among : s ∈ w.table.rows) {decision : Nat} {approver stage stage' : Int} (here : isStage decision approver stage r = true)
    (there : isStage decision approver stage' s = true) (later : r.createdAt ≤ s.createdAt) : stage ≤ stage' := by
  obtain ⟨p, raised, due, known, id, parsed, isDue, rfl, _⟩ :=
    meant_stage (sound.rows r (UniqueTable.mem_everything.mpr (.inl listed))) here
  obtain ⟨q, raised', due', known', id', parsed', isDue', rfl, _⟩ :=
    meant_stage (sound.rows s (UniqueTable.mem_everything.mpr (.inl among))) there
  have alike := known.unique known' (id.trans id'.symm)
  rw [alike.created, parsed'] at parsed
  obtain rfl := Option.some.inj parsed
  exact Int.ofNat_le.mpr (stageDue_mono later isDue isDue')

/-! ## A day between presses -/

-- A job is in a press of the decision that was checked at a time.
def Presses (decision : Nat) (time : Int) : Job → Prop
  | .asked now p _ => p.id = decision ∧ now = time
  | .sending delivery _ _ =>
    (delivery.kind = reminderKind ∧ delivery.proposalId = some decision ∧ delivery.actorId.isSome = true) ∧
      delivery.createdAt = time
  | .reminding _ _ => False

/-- A process is in a press of the decision that was checked at a time, from the check to its commit. -/
inductive Pressing (w : World) (process decision : Nat) (time : Int) : Prop
  | working {job : Job} (at' : w.jobs[process]? = some job) (presses : Presses decision time job)
  | written {r : Notification} (pending : (process, r) ∈ w.table.pending) (reminds : isAsked decision r = true)
    (created : r.createdAt = time)

def pressesOf (decision : Nat) : Job → Bool
  | .asked _ p _ => p.id = decision
  | .sending delivery _ _ =>
    delivery.kind = reminderKind && delivery.proposalId = some decision && delivery.actorId.isSome
  | .reminding _ _ => false

-- Whether some process is in a press of the decision
def pressed (w : World) (decision : Nat) : Bool :=
  w.jobs.any (pressesOf decision) || w.table.pending.any fun e => isAsked decision e.2

theorem pressesOf_of_presses {decision : Nat} {time : Int} {job : Job} (presses : Presses decision time job) :
    pressesOf decision job = true := by
  cases job with
  | asked now p requester => exact decide_eq_true presses.1
  | sending delivery left after =>
    obtain ⟨⟨kind, of, caused⟩, _⟩ := presses
    simp [pressesOf, kind, of, caused]
  | reminding now left => exact presses.elim

theorem pressed_of_pressing {process decision : Nat} {time : Int} (pressing : Pressing w process decision time) :
    pressed w decision = true := by
  rw [pressed, Bool.or_eq_true, List.any_eq_true, List.any_eq_true]
  cases pressing with
  | working at' presses => exact .inl ⟨_, List.mem_of_getElem? at', pressesOf_of_presses presses⟩
  | written pending reminds created => exact .inr ⟨_, pending, reminds⟩

structure Spaced (w : World) : Prop where
  stored : ∀ r ∈ w.table.rows, ∀ s ∈ w.table.rows, ∀ decision, isAsked decision r = true → isAsked decision s = true →
    r.createdAt = s.createdAt ∨ remindEvery ≤ |r.createdAt - s.createdAt|
  before : ∀ process decision time, Pressing w process decision time → ∀ r ∈ w.table.rows, isAsked decision r = true →
    r.createdAt + remindEvery ≤ time
  alone : ∀ process process' decision time time', Pressing w process decision time → Pressing w process' decision time' →
    process = process' ∧ time = time'

-- A step that starts no press and commits none keeps the spacing.
theorem spaced_of_fewer {w' : World} (spaced : Spaced w)
    (fewer : ∀ process decision time, Pressing w' process decision time → Pressing w process decision time)
    (rows : ∀ r ∈ w'.table.rows, ∀ decision, isAsked decision r = true → r ∈ w.table.rows) : Spaced w' := by
  refine ⟨fun r listed s among decision here there => ?_, fun process decision time pressing r listed here => ?_,
    fun process process' decision time time' first second => ?_⟩
  · exact spaced.stored r (rows r listed decision here) s (rows s among decision there) decision here there
  · exact spaced.before process decision time (fewer _ _ _ pressing) r (rows r listed decision here) here
  · exact spaced.alone process process' decision time time' (fewer _ _ _ first) (fewer _ _ _ second)

theorem spaced_commit {process : Nat} {now : Int} (spaced : Spaced w)
    (job : w.jobs[process]? = some (.reminding now [])) :
    Spaced { w with table := w.table.commit process } := by
  have fewer : ∀ i decision time, Pressing { w with table := w.table.commit process } i decision time →
      Pressing w i decision time ∧ i ≠ process := by
    intro i decision time pressing
    cases pressing with
    | working at' presses =>
      refine ⟨.working at' presses, ?_⟩
      rintro rfl
      rw [job] at at'
      obtain rfl := Option.some.inj at'
      exact presses
    | written pending reminds created =>
      obtain ⟨among, other⟩ := List.mem_filter.mp pending
      exact ⟨.written among reminds created, by simpa using other⟩
  have origin : ∀ r ∈ (w.table.commit process).rows, r ∈ w.table.rows ∨ (process, r) ∈ w.table.pending :=
    fun r listed => UniqueTable.mem_seen.mp listed
  refine ⟨fun r listed s among decision here there => ?_, fun i decision time pressing r listed here => ?_,
    fun i j decision time time' first second => ?_⟩
  · rcases origin r listed with old | new <;> rcases origin s among with old' | new'
    · exact spaced.stored r old s old' decision here there
    · have gap := spaced.before process decision _ (.written new' there rfl) r old here
      exact .inr (by rw [abs_sub_comm]; exact le_abs.mpr (.inl (by linarith)))
    · have gap := spaced.before process decision _ (.written new here rfl) s old' there
      exact .inr (le_abs.mpr (.inl (by linarith)))
    · exact .inl (spaced.alone process process decision _ _ (.written new here rfl) (.written new' there rfl)).2
  · obtain ⟨old, other⟩ := fewer i decision time pressing
    rcases origin r listed with stored | mine
    · exact spaced.before i decision time old r stored here
    · exact absurd (spaced.alone i process decision _ _ old (.written mine here rfl)).1 other
  · exact spaced.alone i j decision time time' (fewer _ _ _ first).1 (fewer _ _ _ second).1

-- A press that is allowed comes a day after every reminder stored of the decision.
theorem spaced_press {requester : Int} (sound : Sound raisedAt w) (spaced : Spaced w) (among : p ∈ w.database.proposals)
    (unpressed : pressed w p.id = false)
    (allowed : (remindState w.toNoticeboard w.table.rows p requester w.now).allowed = true) :
    Spaced { w with jobs := w.jobs ++ [.asked w.now p requester] } := by
  obtain ⟨rfl, gap⟩ := remindState_requester allowed
  have none : ∀ i time, ¬ Pressing w i p.id time := by
    intro i time pressing
    rw [pressed_of_pressing pressing] at unpressed
    cases unpressed
  -- A press after the step is one before it, or the new one.
  have origin : ∀ i decision time, Pressing { w with jobs := w.jobs ++ [.asked w.now p p.creatorId] } i decision time →
      Pressing w i decision time ∨ i = w.jobs.length ∧ decision = p.id ∧ time = w.now := by
    intro i decision time pressing
    cases pressing with
    | working at' presses =>
      rcases Nat.lt_trichotomy i w.jobs.length with inside | rfl | outside
      · exact .inl (.working (by rwa [List.getElem?_append_left inside] at at') presses)
      · rw [List.getElem?_concat_length] at at'
        obtain rfl := Option.some.inj at'
        exact .inr ⟨rfl, presses.1.symm, presses.2.symm⟩
      · rw [List.getElem?_eq_none (by simp; omega)] at at'
        cases at'
    | written pending reminds created => exact .inl (.written pending reminds created)
  refine ⟨spaced.stored, fun i decision time pressing r listed here => ?_, fun i j decision time time' first second => ?_⟩
  · rcases origin i decision time pressing with old | ⟨_, rfl, rfl⟩
    · exact spaced.before i decision time old r listed here
    · obtain ⟨q, raised, known, id, _, actor, _⟩ :=
        meant_asked (sound.rows r (UniqueTable.mem_everything.mpr (.inl listed))) here
      have creator := (known.unique (known_of_mem among) id).creator
      simp only [isAsked, Bool.and_eq_true, decide_eq_true_eq] at here
      have counted : r.createdAt ∈ (w.table.rows.filter fun r => r.proposalId = some p.id && r.kind = reminderKind &&
          r.actorId = some p.creatorId).map (·.createdAt) := by
        refine List.mem_map.mpr ⟨r, List.mem_filter.mpr ⟨listed, ?_⟩, rfl⟩
        simp [here.1.1, here.1.2, actor, creator]
      cases last : lastReminder w.table.rows p p.creatorId with
      | none =>
        rw [lastReminder, List.max?_eq_none_iff] at last
        rw [last] at counted
        cases counted
      | some last' =>
        have latest := (List.max?_eq_some_iff.mp last).2 r.createdAt counted
        have day := gap last' last
        linarith
  · rcases origin i decision time first with old | ⟨here, this, now⟩
    · rcases origin j decision time' second with old' | ⟨_, this, _⟩
      · exact spaced.alone i j decision time time' old old'
      · exact absurd (this ▸ old) (none i time)
    · rcases origin j decision time' second with old' | ⟨there, _, now'⟩
      · exact absurd (this ▸ old') (none j time')
      · exact ⟨here.trans there.symm, now.trans now'.symm⟩

-- What one step of a job leaves is no press that was not there.
theorem pressing_set {process : Nat} {job job' : Job} {table : Table} (at' : w.jobs[process]? = some job)
    (presses : ∀ decision time, Presses decision time job' → Pressing w process decision time)
    (written : ∀ e ∈ table.pending, e ∈ w.table.pending ∨
      e.1 = process ∧ ∀ decision, isAsked decision e.2 = true → Pressing w process decision e.2.createdAt)
    (i decision : Nat) (time : Int) (pressing : Pressing { w with jobs := w.jobs.set process job', table } i decision time) :
    Pressing w i decision time := by
  have inside : process < w.jobs.length := (List.getElem?_eq_some_iff.mp at').1
  cases pressing with
  | @working other here presses' =>
    by_cases mine : process = i
    · subst mine
      rw [List.getElem?_set_self inside] at here
      obtain rfl := Option.some.inj here
      exact presses decision time presses'
    · rw [List.getElem?_set_ne mine] at here
      exact .working here presses'
  | @written r pending reminds created =>
    rcases written _ pending with old | ⟨rfl, asked⟩
    · exact .written old reminds created
    · exact created ▸ asked decision reminds

theorem spaced_proceed (sound : Sound raisedAt w) (spaced : Spaced w) (process : Nat) :
    Spaced (step raisedAt w (.proceed process)) := by
  unfold step
  simp only
  cases at' : w.jobs[process]? with
  | none => exact spaced
  | some job =>
    simp only
    -- Every step but the commit leaves the stored rows as they are.
    have still {job' : Job} {table : Table} (rows : table.rows = w.table.rows)
        (presses : ∀ decision time, Presses decision time job' → Pressing w process decision time)
        (written : ∀ e ∈ table.pending, e ∈ w.table.pending ∨
          e.1 = process ∧ ∀ decision, isAsked decision e.2 = true → Pressing w process decision e.2.createdAt) :
        Spaced { w with jobs := w.jobs.set process job', table } :=
      spaced_of_fewer spaced (pressing_set at' presses written) fun r listed _ _ => rows ▸ listed
    have same : ∀ e ∈ w.table.pending, e ∈ w.table.pending ∨
        e.1 = process ∧ ∀ decision, isAsked decision e.2 = true → Pressing w process decision e.2.createdAt :=
      fun e listed => .inl listed
    have good := sound.jobs job (List.mem_of_getElem? at')
    cases job with
    | reminding now left =>
      cases left with
      | nil =>
        have committed := spaced_commit spaced at'
        have set : w.jobs.set process (.reminding now []) = w.jobs := by
          obtain ⟨inside, value⟩ := List.getElem?_eq_some_iff.mp at'
          rw [← value, List.set_getElem_self]
        simp only [proceed, set]
        exact committed
      | cons p left =>
        unfold proceed
        simp only
        split
        · exact still rfl (fun _ _ none => none.elim) same
        · rename_i delivery ids found
          have known := (good p List.mem_cons_self).withVotes w.toNoticeboard
          refine still rfl (fun decision time presses => ?_) same
          exact absurd ⟨presses.1.1, presses.1.2.2⟩ (remindOne_meant known found).2
    | asked now p requester =>
      unfold proceed
      simp only
      split
      · exact still rfl (fun _ _ none => none.elim) fun e listed => .inl (List.mem_filter.mp listed).1
      · refine still rfl (fun decision time presses => .working at' ?_) same
        exact ⟨Option.some.inj presses.1.2.1, presses.2⟩
    | sending delivery left after =>
      cases left with
      | nil => exact still rfl (fun _ _ none => none.elim) same
      | cons id left =>
        unfold proceed
        simp only
        split
        · exact still rfl (fun _ _ presses => .working at' presses) same
        · exact still rfl (fun _ _ presses => .working at' presses) same
        · refine still UniqueTable.insert_rows (fun _ _ presses => .working at' presses) fun e listed => ?_
          rcases UniqueTable.mem_insert listed with old | rfl
          · exact .inl old
          · refine .inr ⟨rfl, fun decision reminds => .working at' ?_⟩
            simp only [isAsked, Bool.and_eq_true, decide_eq_true_eq] at reminds
            exact ⟨⟨reminds.1.1, reminds.1.2, reminds.2⟩, rfl⟩

/-- A press waits for every other process's press of the decision to end. -/
def PressesApart (w : World) : Event → Prop
  | .press decision _ => pressed w decision = false
  | _ => True

instance (w : World) : DecidablePred (PressesApart w)
  | .press decision _ => inferInstanceAs (Decidable (pressed w decision = false))
  | .pass _ | .change _ _ | .other _ | .run | .proceed _ | .abort _ => isTrue trivial

theorem spaced_step (sound : Sound raisedAt w) (spaced : Spaced w) (e : Event) (apart : PressesApart w e) :
    Spaced (step raisedAt w e) := by
  cases e with
  | pass time =>
    exact spaced_of_fewer spaced (fun _ _ _ pressing => by cases pressing with
      | working at' presses => exact .working at' presses
      | written pending reminds created => exact .written pending reminds created) fun _ listed _ _ => listed
  | change database switchedOff =>
    unfold step
    simp only
    split_ifs
    · exact spaced_of_fewer spaced (fun _ _ _ pressing => by cases pressing with
        | working at' presses => exact .working at' presses
        | written pending reminds created => exact .written pending reminds created) fun _ listed _ _ => listed
    · exact spaced
  | other row =>
    unfold step
    simp only
    split_ifs with others
    · have fresh {e : Nat × Notification} (listed : e ∈ (w.table.insert w.jobs.length row).pending) :
          e ∈ w.table.pending ∨ e.2 = row := (UniqueTable.mem_insert listed).imp_right fun same => by rw [same]
      have unasked : ∀ decision, isAsked decision row = false := by
        intro decision
        simp only [othersKind, Bool.and_eq_true, bne_iff_ne] at others
        simp [isAsked, others.1]
      refine spaced_of_fewer spaced (fun i decision time pressing => ?_) fun r listed decision here => ?_
      · cases pressing with
        | working at' presses => exact .working at' presses
        | written pending reminds created =>
          rcases fresh (List.mem_filter.mp pending).1 with old | rfl
          · exact .written old reminds created
          · rw [unasked] at reminds
            cases reminds
      · rcases UniqueTable.mem_seen.mp listed with old | new
        · rwa [UniqueTable.insert_rows] at old
        · rcases UniqueTable.mem_insert new with pending | same
          · exact absurd (sound.owners _ pending) (lt_irrefl _)
          · rw [(Prod.mk.inj same).2, unasked] at here
            cases here
    · exact spaced
  | run =>
    refine spaced_of_fewer spaced (fun i decision time pressing => ?_) fun _ listed _ _ => listed
    cases pressing with
    | written pending reminds created => exact .written pending reminds created
    | working at' presses =>
      rcases Nat.lt_trichotomy i w.jobs.length with inside | rfl | outside
      · exact .working (by rwa [step, List.getElem?_append_left inside] at at') presses
      · rw [step, List.getElem?_concat_length] at at'
        obtain rfl := Option.some.inj at'
        exact presses.elim
      · rw [step, List.getElem?_eq_none (by simp; omega)] at at'
        cases at'
  | press proposalId requester =>
    unfold step
    simp only
    split
    · exact spaced
    · rename_i p found
      have id : p.id = proposalId := by simpa using List.find?_some found
      split_ifs with allowed
      · exact spaced_press sound spaced (List.mem_of_find?_eq_some found) (id ▸ apart) allowed
      · exact spaced
  | proceed process => exact spaced_proceed sound spaced process
  | abort process =>
    refine spaced_of_fewer spaced (fun i decision time pressing => ?_) fun _ listed _ _ => listed
    cases pressing with
    | written pending reminds created => exact .written (List.mem_filter.mp pending).1 reminds created
    | working at' presses =>
      by_cases mine : process = i
      · subst mine
        simp only [step, List.getElem?_set_self', Option.map_eq_map, Option.map_eq_some_iff] at at'
        obtain ⟨_, _, rfl⟩ := at'
        exact presses.elim
      · rw [step, List.getElem?_set_ne mine] at at'
        exact .working at' presses

/-! ## The whole run -/

/-- Reminders are sent once each, in the order of their stages, and a requester's at least a day apart. -/
structure RemindersRight (w : World) : Prop where
  once : ∀ decision approver stage, (w.table.rows.filter (isStage decision approver stage)).length ≤ 1
  warned : ∀ decision approver, (w.table.rows.filter (isWarning decision approver)).length ≤ 1
  increase : ∀ r ∈ w.table.rows, ∀ s ∈ w.table.rows, ∀ decision approver stage stage', isStage decision approver stage r = true →
    isStage decision approver stage' s = true → r.createdAt < s.createdAt → stage < stage'
  daily : w.table.rows.Pairwise fun r s => ∀ decision, isAsked decision r = true → isAsked decision s = true →
    r.recipientId = s.recipientId → remindEvery ≤ |r.createdAt - s.createdAt|

-- Two stored rows of one key are one row.
theorem row_unique {r s : Notification} (listed : r ∈ w.table.rows) (among : s ∈ w.table.rows)
    (same : dedupe r = dedupe s) : r = s :=
  List.inj_on_of_nodup_map w.table.rows_nodup listed among same

theorem increase_strict (sound : Sound raisedAt w) {r s : Notification} (listed : r ∈ w.table.rows)
    (among : s ∈ w.table.rows) {decision : Nat} {approver stage stage' : Int} (here : isStage decision approver stage r = true)
    (there : isStage decision approver stage' s = true) (later : r.createdAt < s.createdAt) : stage < stage' := by
  refine lt_of_le_of_ne (stages_increase sound listed among here there later.le) ?_
  rintro rfl
  have both : r = s := by
    have short := (told_once sound decision approver stage).1
    have first := List.mem_filter.mpr ⟨listed, here⟩
    have second := List.mem_filter.mpr ⟨among, there⟩
    match chosen : w.table.rows.filter (isStage decision approver stage), short with
    | [], _ => rw [chosen] at first; cases first
    | [x], _ =>
      rw [chosen, List.mem_singleton] at first second
      rw [first, second]
  rw [both] at later
  exact lt_irrefl _ later

theorem asked_apart (sound : Sound raisedAt w) (spaced : Spaced w) :
    w.table.rows.Pairwise fun r s => ∀ decision, isAsked decision r = true → isAsked decision s = true →
      r.recipientId = s.recipientId → remindEvery ≤ |r.createdAt - s.createdAt| := by
  have distinct : w.table.rows.Pairwise fun r s => dedupe r ≠ dedupe s := List.pairwise_map.mp w.table.rows_nodup
  refine distinct.imp_of_mem fun {r s} listed among different decision here there recipient => ?_
  rcases spaced.stored r listed s among decision here there with same | apart
  · obtain ⟨p, raised, known, id, parsed, _, key⟩ :=
      meant_asked (sound.rows r (UniqueTable.mem_everything.mpr (.inl listed))) here
    obtain ⟨q, raised', known', id', parsed', _, key'⟩ :=
      meant_asked (sound.rows s (UniqueTable.mem_everything.mpr (.inl among))) there
    have alike := known.unique known' (id.trans id'.symm)
    rw [alike.created, parsed'] at parsed
    obtain rfl := Option.some.inj parsed
    exact absurd (by rw [dedupe, dedupe, key, key', alike.uuid, same, recipient]) different
  · exact apart

-- Nothing written yet, and no process at work
def fresh (now : Int) (database : Database) (switchedOff : List (Int × Text)) : World :=
  ⟨⟨now, database, switchedOff, .empty⟩, []⟩

theorem sound_fresh (now : Int) (switchedOff : List (Int × Text)) : Sound raisedAt (fresh now db switchedOff) :=
  ⟨fun _ listed => absurd listed List.not_mem_nil, fun _ listed => absurd listed List.not_mem_nil,
    fun _ listed => absurd listed List.not_mem_nil⟩

theorem spaced_fresh (now : Int) (switchedOff : List (Int × Text)) : Spaced (fresh now db switchedOff) := by
  have none : ∀ i decision time, ¬ Pressing (fresh now db switchedOff) i decision time := by
    intro i decision time pressing
    cases pressing with
    | working at' presses => cases at'
    | written pending reminds created => cases pending
  exact ⟨fun _ listed => absurd listed List.not_mem_nil, fun _ _ _ pressing => absurd pressing (none _ _ _),
    fun _ _ _ _ _ pressing => absurd pressing (none _ _ _)⟩

/-- In every run that starts no press of a decision while another one of it is under way. -/
theorem reminders_right (raisedAt : Text → Option Int) (now : Int) (database : Database) (switchedOff : List (Int × Text))
    (events : List Event)
    (apart : Runs.Guarded (step raisedAt) PressesApart (fresh now database switchedOff) events) :
    RemindersRight (Runs.run (step raisedAt) (fresh now database switchedOff) events) := by
  have kept : Sound raisedAt (Runs.run (step raisedAt) (fresh now database switchedOff) events) ∧
      Spaced (Runs.run (step raisedAt) (fresh now database switchedOff) events) := by
    have preserved : ∀ w e, Sound raisedAt w ∧ Spaced w → PressesApart w e →
        Sound raisedAt (step raisedAt w e) ∧ Spaced (step raisedAt w e) :=
      fun w e ⟨sound, spaced⟩ met => ⟨sound_step sound e, spaced_step sound spaced e met⟩
    exact Runs.run_invariant preserved _ events ⟨sound_fresh now switchedOff, spaced_fresh now switchedOff⟩ apart
  obtain ⟨sound, spaced⟩ := kept
  exact ⟨fun decision approver stage => (told_once sound decision approver stage).1,
    fun decision approver => (told_once sound decision approver 0).2,
    fun r listed s among decision approver stage stage' here there later =>
      increase_strict sound listed among here there later,
    asked_apart sound spaced⟩

/-! ## Two presses at once -/

-- A decision raised at 0 by one of two approvers
def remindable : Database := { Outlook.twoApprovers with proposals := [Outlook.rentOpen], proposalKeys := by decide }

def sending (process : Nat) : List Event := List.replicate 4 (.proceed process)

-- One press ten seconds before the first day of the decision's life is over, one as it is over, and then both send.
def overlapping : List Event :=
  [.pass 86389453125, .press 0 1, .pass 10546875, .press 0 1] ++ sending 0 ++ sending 1

def oneByOne : List Event :=
  [.pass 86389453125, .press 0 1] ++ sending 0 ++ [.pass 86400000000, .press 0 1] ++ sending 1

theorem reminders_right_sample :
    RemindersRight (Runs.run (step fun _ => some 0) (fresh 0 remindable []) oneByOne) :=
  reminders_right (fun _ => some 0) 0 remindable [] oneByOne (by decide +kernel)

/-- The approver is reminded twice within eleven seconds. -/
theorem reminders_repeat : ¬ ∀ (raisedAt : Text → Option Int) (now : Int) (database : Database)
    (switchedOff : List (Int × Text)) (events : List Event),
    RemindersRight (Runs.run (step raisedAt) (fresh now database switchedOff) events) := by
  intro right
  have daily := (right (fun _ => some 0) 0 remindable [] overlapping).daily
  have twice : (Runs.run (step fun _ => some 0) (fresh 0 remindable []) overlapping).table.rows.map
      (fun r => (isAsked 0 r, r.recipientId, r.createdAt)) = [(true, 2, 86389453125), (true, 2, 86400000000)] := by
    decide +kernel
  generalize (Runs.run (step fun _ => some 0) (fresh 0 remindable []) overlapping).table.rows = rows at daily twice
  obtain ⟨r, rest, rfl, one, others⟩ := List.map_eq_cons_iff.mp twice
  obtain ⟨s, _, rfl, other, _⟩ := List.map_eq_cons_iff.mp others
  simp only [Prod.mk.injEq] at one other
  obtain ⟨here, recipient, first⟩ := one
  obtain ⟨there, recipient', second⟩ := other
  have gap := (List.pairwise_cons.mp daily).1 s List.mem_cons_self 0 here there (recipient.trans recipient'.symm)
  rw [first, second] at gap
  exact absurd gap (by decide)

end QVault.Proof.Reminders
