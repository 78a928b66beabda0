import QVault.Proof.Services.Recovery.Turns

/-!
# The life of a recovery request

However the operations interleave, a request ends at most once, when it may, and leaves nothing behind
but one entry of the ledger.
-/

namespace QVault.Proof.Recovery
open QVault.Recovery QVault.Python QVault.Crypto Programs Sessions Transactions Relation
open QVault.Services (LedgerEvent)

/-! ## What holds of every request -/

structure Regular (r : Request) : Prop where
  known : r.state ≠ .claimed ∧ r.state ≠ .approving
  unclaimed : r.state.isPreclaim = true → r.windowStartsAt = none ∧ r.pending = .erased ∧ r.wraps = []
  window : r.windowStartsAt = none ∧ r.completesAt = none ∨
    ∃ window completes, r.windowStartsAt = some window ∧ r.completesAt = some completes ∧ window + hours 24 ≤ completes
  waited : r.state = .waiting → r.windowStartsAt ≠ none
  performed : r.state = .completed ∨ r.state = .failed →
    ∃ completes now, r.completesAt = some completes ∧ r.finishedAt = some now ∧ completes ≤ now
  cancelled : r.state = .cancelled → ∀ completes, r.completesAt = some completes →
    ∃ now, r.finishedAt = some now ∧ now < completes
  unwaited : r.state = .expired ∨ r.state = .rejected → r.windowStartsAt = none
  erased : r.state.isEnd = true → r.pending = .erased ∧ r.wraps = []

theorem not_end_of_preclaim {state : RequestState} (preclaim : state.isPreclaim = true) : state.isEnd = false := by
  cases state <;> simp_all [RequestState.isPreclaim, RequestState.isEnd]

theorem regular_of_opened {r : Request} (opened : Opened r) : Regular r := by
  rcases opened.phone with ⟨state, window, completes, pending, wraps⟩ | ⟨state, _, now, window, completes⟩
  · exact {
      known := by simp [state]
      unclaimed := fun _ => ⟨window, pending, wraps⟩
      window := .inl ⟨window, completes⟩
      waited := by simp [state]
      performed := by simp [state]
      cancelled := by simp [state]
      unwaited := by simp [state]
      erased := fun _ => ⟨pending, wraps⟩ }
  · have longer : now + hours 24 ≤ now + kitWait := by
      simp only [kitWait, hours, minutes, seconds]
      omega
    exact {
      known := by simp [state]
      unclaimed := by simp [state, RequestState.isPreclaim]
      window := .inr ⟨now, _, window, completes, longer⟩
      waited := by simp [window]
      performed := by simp [state]
      cancelled := by simp [state]
      unwaited := by simp [state]
      erased := by simp [state, RequestState.isEnd] }

theorem regular_ended {r r' : Request} {entries : List LedgerEvent} (regular : Regular r)
    (window : r'.windowStartsAt = r.windowStartsAt) (completes : r'.completesAt = r.completesAt)
    (ending : Ending r r' entries) : Regular r' where
  known := by
    constructor <;> intro same <;> simpa [same, RequestState.isEnd] using ending.ended
  unclaimed preclaim := by simpa [not_end_of_preclaim preclaim] using ending.ended
  window := by
    rw [window, completes]
    exact regular.window
  waited waiting := by simpa [waiting, RequestState.isEnd] using ending.ended
  performed performed := by
    obtain ⟨_, due, now, read, finished, le⟩ := ending.performed performed
    exact ⟨due, now, completes.trans read, finished, le⟩
  cancelled cancelled due read := by
    rw [completes] at read
    have waiting : r.state = .waiting := by
      rcases ending.was with waiting | preclaim
      · exact waiting
      · have none_ := (regular.unclaimed preclaim).1
        rcases regular.window with ⟨_, no⟩ | ⟨w, c, some_, _⟩
        · simp [no] at read
        · simp [none_] at some_
    obtain ⟨completes', now, read', finished, lt⟩ := ending.cancelled cancelled waiting
    rw [read, Option.some.injEq] at read'
    exact ⟨now, finished, read' ▸ lt⟩
  unwaited unclaimed := by
    rw [window]
    exact (regular.unclaimed (ending.unclaimed unclaimed)).1
  erased _ := by
    rcases ending.erased with gone | ⟨preclaim, pending, wraps⟩
    · exact gone
    · obtain ⟨_, erased, none_⟩ := regular.unclaimed preclaim
      exact ⟨pending.trans erased, wraps.trans none_⟩

theorem regular_turned {r r' : Request} {entries : List LedgerEvent} (regular : Regular r) (turn : Turn r r' entries) :
    Regular r' := by
  cases turn with
  | granted was =>
    have unclaimed := regular.unclaimed (by rw [was]; rfl)
    exact {
      known := by simp
      unclaimed := fun _ => unclaimed
      window := regular.window
      waited := by simp
      performed := by simp
      cancelled := by simp
      unwaited := by simp
      erased := by simp [RequestState.isEnd] }
  | ended same window completes ending => exact regular_ended regular window completes ending

theorem regular_claimed {r : Request} {now : Int} (waits : r.state = .waiting) (window : r.windowStartsAt = some now)
    (completes : r.completesAt = some (now + phoneWait)) : Regular r where
  known := by simp [waits]
  unclaimed := by simp [waits, RequestState.isPreclaim]
  window := .inr ⟨_, _, window, completes, le_rfl⟩
  waited := by simp [window]
  performed := by simp [waits]
  cancelled := by simp [waits]
  unwaited := by simp [waits]
  erased := by simp [waits, RequestState.isEnd]

theorem regular_sooner {r : Request} {shorter : Int} (regular : Regular r) (waiting : r.state = .waiting)
    (floor : ∀ window, r.windowStartsAt = some window → window + hours 24 ≤ shorter) :
    Regular { r with completesAt := some shorter } where
  known := regular.known
  unclaimed := regular.unclaimed
  window := by
    rcases regular.window with ⟨none_, _⟩ | ⟨window, _, opened, _⟩
    · exact absurd none_ (regular.waited waiting)
    · exact .inr ⟨window, shorter, opened, rfl, floor window opened⟩
  waited := regular.waited
  performed := by simp [waiting]
  cancelled := by simp [waiting]
  unwaited := regular.unwaited
  erased := regular.erased

/-! ## What goes on holding -/

structure Forward (before after : Request) : Prop where
  same : SameRequest before after
  ended : before.state.isEnd = true → after = before
  window : before.windowStartsAt ≠ none → after.windowStartsAt = before.windowStartsAt
  earlier : ∀ completes, before.completesAt = some completes →
    ∃ sooner, after.completesAt = some sooner ∧ sooner ≤ completes

theorem forward_refl (r : Request) : Forward r r :=
  ⟨⟨rfl, rfl, rfl, rfl⟩, fun _ => rfl, fun _ => rfl, fun completes read => ⟨completes, read, le_rfl⟩⟩

theorem forward_trans {first second third : Request} (one : Forward first second) (two : Forward second third) :
    Forward first third where
  same := ⟨two.same.id.trans one.same.id, two.same.uuid.trans one.same.uuid, two.same.user.trans one.same.user,
    two.same.route.trans one.same.route⟩
  ended := by
    intro ended
    have same := one.ended ended
    subst same
    exact two.ended ended
  window := by
    intro opened
    have same := one.window opened
    exact (two.window (same ▸ opened)).trans same
  earlier := by
    intro completes read
    obtain ⟨between, read', le⟩ := one.earlier completes read
    obtain ⟨final, read'', le'⟩ := two.earlier between read'
    exact ⟨final, read'', le'.trans le⟩

theorem turn_open {r r' : Request} {entries : List LedgerEvent} (turn : Turn r r' entries) : r.state.isEnd = false := by
  cases turn with
  | granted was => rw [was]; rfl
  | ended same window completes ending =>
    rcases ending.was with waiting | preclaim
    · rw [waiting]; rfl
    · exact not_end_of_preclaim preclaim

theorem forward_of_turn {r r' : Request} {entries : List LedgerEvent} (turn : Turn r r' entries) :
    Forward r r' ∧ r'.completesAt = r.completesAt := by
  have open_ := turn_open turn
  have ended : r.state.isEnd = true → r' = r := fun ended => by simp [open_] at ended
  cases turn with
  | granted was => exact ⟨⟨⟨rfl, rfl, rfl, rfl⟩, ended, fun _ => rfl, fun completes read => ⟨completes, read, le_rfl⟩⟩, rfl⟩
  | ended same window completes ending =>
    refine ⟨⟨same, ended, fun _ => window, fun due read => ⟨due, completes.trans read, le_rfl⟩⟩, completes⟩

theorem due_of_unclaimed {r : Request} (regular : Regular r) (unclaimed : r.state.isPreclaim = true) :
    r.windowStartsAt = none ∧ r.completesAt = none := by
  have none_ := (regular.unclaimed unclaimed).1
  rcases regular.window with both | ⟨window, completes, some_, _⟩
  · exact both
  · simp [none_] at some_

theorem forward_of_claimed {r r' : Request} (regular : Regular r) (was : r.state = .phoneApproved) (same : SameRequest r r') :
    Forward r r' := by
  obtain ⟨window, due⟩ := due_of_unclaimed regular (by rw [was]; rfl)
  refine ⟨same, fun ended => ?_, fun opened => absurd window opened, fun completes read => by simp [due] at read⟩
  rw [was] at ended
  cases ended

-- The confirmation by a phone that made a request due at `completes`
def Confirmed (before after : Db) (id : Nat) (completes : Int) : Prop :=
  ∃ a ∈ after.approvals, a.requestId = id ∧ a.purpose = .kitConfirm ∧ a.state = .used ∧
    (∃ now, a.usedAt = some now ∧ now + hours 6 ≤ completes) ∧ ∀ b ∈ before.approvals, b.id = a.id → b.state ≠ .used

structure Advances (before after : Db) : Prop where
  rows : ∀ r ∈ before.requests.1, ∃ r' ∈ after.requests.1, Forward r r' ∧
    ∀ completes sooner, r.completesAt = some completes → r'.completesAt = some sooner →
      sooner = completes ∨ Confirmed before after r.id sooner
  approvals : ∀ a ∈ before.approvals, ∃ a' ∈ after.approvals, Follows a a'

theorem advances_refl (db : Db) : Advances db db := by
  refine ⟨fun r listed => ⟨r, listed, forward_refl r, ?_⟩, fun a listed => ⟨a, listed, follows_refl a⟩⟩
  intro completes sooner read read'
  rw [read, Option.some.injEq] at read'
  exact .inl read'.symm

theorem advances_trans {first second third : Db} (one : Advances first second) (two : Advances second third) :
    Advances first third := by
  refine ⟨?_, ?_⟩
  · intro r listed
    obtain ⟨r', listed', forward, moved⟩ := one.rows r listed
    obtain ⟨r'', listed'', forward', moved'⟩ := two.rows r' listed'
    refine ⟨r'', listed'', forward_trans forward forward', ?_⟩
    intro completes sooner read read'
    obtain ⟨between, middle, _⟩ := forward.earlier completes read
    rcases moved' between sooner middle read' with same | ⟨a, used, request, purpose, state, when, unused⟩
    · rcases moved completes between read middle with same' | ⟨a, used, request, purpose, state, when, unused⟩
      · exact .inl (same.trans same')
      · obtain ⟨a', used', follows⟩ := two.approvals a used
        have frozen := follows.used state
        subst frozen
        exact .inr ⟨a', used', request, purpose, state, same ▸ when, unused⟩
    · refine .inr ⟨a, used, request.trans forward.same.id, purpose, state, when, ?_⟩
      intro b known same already
      obtain ⟨b', known', follows⟩ := one.approvals b known
      have frozen := follows.used already
      subst frozen
      exact unused b' known' same already
  · intro a listed
    obtain ⟨a', listed', follows⟩ := one.approvals a listed
    obtain ⟨a'', listed'', follows'⟩ := two.approvals a' listed'
    exact ⟨a'', listed'', follows_trans follows follows'⟩

/-! ## The ledger -/

-- The entries that tell how a request ended
def endings (db : Db) (uuid : Text) : List Text :=
  ((endingLog db).filter fun e => requestOf e = some uuid).map (·.eventType)

structure Lawful (db : Db) : Prop where
  regular : ∀ r ∈ db.requests.1, Regular r
  approvals : ApprovalIds db
  known : ∀ e ∈ endingLog db, ∃ r ∈ db.requests.1, requestOf e = some r.uuid ∧ r.state.isEnd = true
  told : ∀ r ∈ db.requests.1, r.state.isEnd = true → r.windowStartsAt ≠ none → endings db r.uuid = (endingEvent r.state).toList

theorem lawful_empty : Lawful Db.empty := by
  refine ⟨?_, List.nodup_nil, ?_, ?_⟩
  · intro r listed
    cases listed
  · intro e listed
    cases listed
  · intro r listed
    cases listed

variable {suite : Suite} {before after : Db}

theorem endings_of_eq {uuid : Text} (same : endingLog after = endingLog before) : endings after uuid = endings before uuid := by
  rw [endings, endings, same]

theorem endings_silent (lawful : Lawful before) {r : Request} (listed : r ∈ before.requests.1)
    (open_ : r.state.isEnd = false) : endings before r.uuid = [] := by
  rw [endings, List.map_eq_nil_iff, List.filter_eq_nil_iff]
  intro e logged tells
  obtain ⟨s, listed', tells', ended⟩ := lawful.known e logged
  rw [decide_eq_true_eq, tells', Option.some.injEq] at tells
  rw [uuid_unique listed' listed tells, open_] at ended
  cases ended

theorem endings_other {uuid : Text} {entries : List LedgerEvent} {r : Request}
    (log : endingLog after = endingLog before ++ entries) (told : ∀ e ∈ entries, requestOf e = some r.uuid)
    (other : uuid ≠ r.uuid) : endings after uuid = endings before uuid := by
  have silent : entries.filter (fun e => requestOf e = some uuid) = [] := by
    rw [List.filter_eq_nil_iff]
    intro e listed tells
    rw [decide_eq_true_eq, told e listed, Option.some.injEq] at tells
    exact other tells.symm
  rw [endings, endings, log, List.filter_append, silent, List.append_nil]

theorem endings_own {entries : List LedgerEvent} {r : Request} {ending : Option Text}
    (log : endingLog after = endingLog before ++ entries) (silent : endings before r.uuid = [])
    (told : ∀ e ∈ entries, requestOf e = some r.uuid ∧ some e.eventType = ending) (once : entries.length = 1) :
    endings after r.uuid = ending.toList := by
  obtain ⟨e, same⟩ := List.length_eq_one_iff.mp once
  subst same
  obtain ⟨tells, type⟩ := told e List.mem_cons_self
  rw [endings, List.map_eq_nil_iff] at silent
  rw [endings, log, List.filter_append, silent, ← type]
  simp [tells]

/-! ## One step -/

theorem mem_rewritten {r r' s : Request} (rows : after.requests.1 = before.requests.1.map (rewrite r.id fun _ => r'))
    (listed : s ∈ after.requests.1) : s = r' ∨ s ∈ before.requests.1 ∧ s.id ≠ r.id := by
  rw [rows] at listed
  obtain ⟨t, listed', same⟩ := List.mem_map.mp listed
  unfold rewrite at same
  split at same
  · exact .inl same.symm
  · next other =>
    subst same
    exact .inr ⟨listed', other⟩

theorem rewritten_mem {r r' s : Request} (rows : after.requests.1 = before.requests.1.map (rewrite r.id fun _ => r'))
    (listed : s ∈ before.requests.1) : (s.id = r.id → r' ∈ after.requests.1) ∧ (s.id ≠ r.id → s ∈ after.requests.1) := by
  have image : rewrite r.id (fun _ => r') s ∈ after.requests.1 := by
    rw [rows]
    exact List.mem_map_of_mem listed
  unfold rewrite at image
  exact ⟨fun same => by simpa [same] using image, fun other => by simpa [other] using image⟩

-- One row moves on, and the entries after it tell of it.
theorem lawful_rewritten (entries : List LedgerEvent) {r r' : Request} (lawful : Lawful before) (ids : ApprovalIds after)
    (found : before.request? r.id = some r) (open_ : r.state.isEnd = false) (same : SameRequest r r')
    (regular : Regular r') (rows : after.requests.1 = before.requests.1.map (rewrite r.id fun _ => r'))
    (log : endingLog after = endingLog before ++ entries)
    (told : ∀ e ∈ entries, requestOf e = some r.uuid ∧ some e.eventType = endingEvent r'.state)
    (ended : entries ≠ [] → r'.state.isEnd = true)
    (once : r'.state.isEnd = true → r'.windowStartsAt ≠ none → entries.length = 1) : Lawful after := by
  obtain ⟨listed, _⟩ := request_found found
  have there : r' ∈ after.requests.1 := (rewritten_mem rows listed).1 rfl
  refine ⟨?_, ids, ?_, ?_⟩
  · intro s listed'
    rcases mem_rewritten rows listed' with same' | ⟨old, _⟩
    · exact same' ▸ regular
    · exact lawful.regular s old
  · intro e logged
    rw [log, List.mem_append] at logged
    rcases logged with old | new
    · obtain ⟨s, listed', tells, past⟩ := lawful.known e old
      refine ⟨s, (rewritten_mem rows listed').2 ?_, tells, past⟩
      intro same'
      rw [request_unique listed' listed same', open_] at past
      cases past
    · exact ⟨r', there, by rw [(told e new).1, same.uuid], ended (List.ne_nil_of_mem new)⟩
  · intro s listed' past window
    rcases mem_rewritten rows listed' with same' | ⟨old, other⟩
    · subst same'
      rw [same.uuid]
      exact endings_own log (endings_silent lawful listed open_) told (once past window)
    · rw [endings_other log (fun e new => (told e new).1) fun same' => other (by rw [uuid_unique old listed same'])]
      exact lawful.told s old past window

theorem lawful_of_change (lawful : Lawful before) (ids : ApprovalIds after) (change : Change before after) : Lawful after := by
  cases change with
  | beside requests log =>
    refine ⟨?_, ids, ?_, ?_⟩
    · rw [requests]
      exact lawful.regular
    · rw [requests, log]
      exact lawful.known
    · intro r listed past window
      rw [endings_of_eq log]
      exact lawful.told r (requests ▸ listed) past window
  | opened r fresh requests log =>
    have open_ : r.state.isEnd = false := by rcases fresh.phone with ⟨state, _⟩ | ⟨state, _⟩ <;> rw [state] <;> rfl
    refine ⟨?_, ids, ?_, ?_⟩
    · intro s listed
      rw [requests, List.mem_append] at listed
      rcases listed with old | new
      · exact lawful.regular s old
      · rw [List.mem_singleton.mp new]
        exact regular_of_opened fresh
    · intro e logged
      rw [log] at logged
      obtain ⟨s, listed, tells⟩ := lawful.known e logged
      exact ⟨s, requests ▸ List.mem_append_left _ listed, tells⟩
    · intro s listed past window
      rw [requests, List.mem_append] at listed
      rw [endings_of_eq log]
      rcases listed with old | new
      · exact lawful.told s old past window
      · rw [List.mem_singleton.mp new, open_] at past
        cases past
  | turned r r' entries found turn requests log =>
    have regular := lawful.regular r (request_found found).1
    have open_ := turn_open turn
    have forward := (forward_of_turn turn).1
    apply lawful_rewritten entries lawful ids found open_ forward.same (regular_turned regular turn) requests log
    · cases turn with
      | granted => simp
      | ended _ _ _ ending => exact ending.told
    · cases turn with
      | granted => simp
      | ended _ _ _ ending => exact fun _ => ending.ended
    · cases turn with
      | granted => simp [RequestState.isEnd]
      | ended _ window _ ending =>
        intro _ opened
        apply ending.once.2
        rcases ending.was with waiting | preclaim
        · exact waiting
        · rw [window] at opened
          exact absurd (regular.unclaimed preclaim).1 opened

theorem advances_rewritten {r r' : Request} (found : before.request? r.id = some r) (forward : Forward r r')
    (rows : after.requests.1 = before.requests.1.map (rewrite r.id fun _ => r'))
    (kept : ∀ a ∈ before.approvals, ∃ a' ∈ after.approvals, Follows a a')
    (moved : ∀ completes sooner, r.completesAt = some completes → r'.completesAt = some sooner →
      sooner = completes ∨ Confirmed before after r.id sooner) : Advances before after := by
  obtain ⟨listed, _⟩ := request_found found
  refine ⟨fun s listed' => ?_, kept⟩
  by_cases same : s.id = r.id
  · rw [request_unique listed' listed same]
    exact ⟨r', (rewritten_mem rows listed).1 rfl, forward, moved⟩
  · refine ⟨s, (rewritten_mem rows listed').2 same, forward_refl s, ?_⟩
    intro completes sooner read read'
    rw [read, Option.some.injEq] at read'
    exact .inl read'.symm

theorem advances_of_change (lawful : Lawful before) (kept : ∀ a ∈ before.approvals, ∃ a' ∈ after.approvals, Follows a a')
    (change : Change before after) : Advances before after := by
  cases change with
  | beside requests log =>
    refine ⟨fun r listed => ⟨r, requests ▸ listed, forward_refl r, ?_⟩, kept⟩
    intro completes sooner read read'
    rw [read, Option.some.injEq] at read'
    exact .inl read'.symm
  | opened r fresh requests log =>
    refine ⟨fun s listed => ⟨s, requests ▸ List.mem_append_left _ listed, forward_refl s, ?_⟩, kept⟩
    intro completes sooner read read'
    rw [read, Option.some.injEq] at read'
    exact .inl read'.symm
  | turned r r' entries found turn requests log =>
    obtain ⟨forward, same⟩ := forward_of_turn turn
    apply advances_rewritten found forward requests kept
    intro completes sooner read read'
    rw [same, read, Option.some.injEq] at read'
    exact .inl read'.symm

theorem claiming_advances {id approval : Nat} {now : Int} (lawful : Lawful before) (ids : ApprovalIds after)
    (kept : ∀ a ∈ before.approvals, ∃ a' ∈ after.approvals, Follows a a') (claiming : Claiming before after id approval now) :
    Lawful after ∧ Advances before after := by
  obtain ⟨r, r', found, was, same, waits, window, completes, rows⟩ := claiming.moved
  obtain ⟨listed, named⟩ := request_found found
  have own : before.request? r.id = some r := request_of_mem listed
  have open_ : r.state.isEnd = false := by rw [was]; rfl
  have regular := lawful.regular r listed
  refine ⟨?_, ?_⟩
  · refine lawful_rewritten [] lawful ids own open_ same (regular_claimed waits window completes) rows ?_ (by simp) (by simp) ?_
    · rw [List.append_nil]
      exact claiming.endings
    · simp [waits, RequestState.isEnd]
  · refine advances_rewritten own (forward_of_claimed regular was same) rows kept ?_
    intro due sooner read _
    simp [(due_of_unclaimed regular (by rw [was]; rfl)).2] at read

theorem act_advances {kind : Kind} (other : kind ≠ .confirm) (act : Act suite kind before after) (lawful : Lawful before) :
    Lawful after ∧ Advances before after := by
  obtain ⟨ids, kept, _⟩ := act_keeps act lawful.approvals
  by_cases claims : kind = .claim
  · subst claims
    cases act with
    | claim done => exact claiming_advances lawful ids kept (claimRequest_ok done)
  · have change := act_change other claims act
    exact ⟨lawful_of_change lawful ids change, advances_of_change lawful kept change⟩

theorem acts_advance {kinds : List Kind} (other : Kind.confirm ∉ kinds) (acts : Acts suite kinds before after)
    (lawful : Lawful before) : Lawful after ∧ Advances before after := by
  induction acts with
  | refl => exact ⟨lawful, advances_refl before⟩
  | tail _ act ih =>
    obtain ⟨kind, listed, act⟩ := act
    obtain ⟨between, sofar⟩ := ih
    obtain ⟨final, last⟩ := act_advances (fun same => other (same ▸ listed)) act between
    exact ⟨final, advances_trans sofar last⟩

end QVault.Proof.Recovery
