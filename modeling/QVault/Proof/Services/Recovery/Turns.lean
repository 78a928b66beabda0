import QVault.Proof.Services.Recovery.Approvals

/-!
# What an act does to a request

An act opens one request, turns one, or leaves them all alone.
-/

namespace QVault.Proof.Recovery
open QVault.Recovery QVault.Python QVault.Crypto Programs Sessions Transactions
open QVault.Services (LedgerEvent)

/-! ## Rows -/

def rewrite (id : Nat) (change : Request → Request) (r : Request) : Request := if r.id = id then change r else r

theorem rewrite_named {id : Nat} {change : Request → Request} (named : ∀ r, (change r).id = r.id) (r : Request) :
    (rewrite id change r).id = r.id := by
  unfold rewrite
  split
  · exact named r
  · rfl

theorem rewrite_twice {id : Nat} {first second : Request → Request} {one two three : List Request}
    (before : two = one.map (rewrite id first)) (after : three = two.map (rewrite id second))
    (named : ∀ r, (first r).id = r.id) : three = one.map (rewrite id fun r => second (first r)) := by
  rw [after, before, List.map_map]
  apply List.map_congr_left
  intro r _
  by_cases same : r.id = id
  · simp [rewrite, same, named]
  · simp [rewrite, same]

theorem request_found {db : Db} {id : Nat} {r : Request} (found : db.request? id = some r) :
    r ∈ db.requests.1 ∧ r.id = id :=
  ⟨List.mem_of_find?_eq_some found, by simpa using List.find?_some found⟩

theorem request_unique {db : Db} {r s : Request} (one : r ∈ db.requests.1) (two : s ∈ db.requests.1) (same : r.id = s.id) :
    r = s :=
  List.inj_on_of_nodup_map db.requests.2.ids one two same

theorem uuid_unique {db : Db} {r s : Request} (one : r ∈ db.requests.1) (two : s ∈ db.requests.1) (same : r.uuid = s.uuid) :
    r = s :=
  List.inj_on_of_nodup_map db.requests.2.uuids one two same

theorem request_of_mem {db : Db} {r : Request} (listed : r ∈ db.requests.1) : db.request? r.id = some r := by
  cases found : db.request? r.id with
  | none =>
    have different := List.find?_eq_none.mp found r listed
    simp at different
  | some s =>
    obtain ⟨listed', named⟩ := request_found found
    rw [request_unique listed' listed named]

-- Rows of one identifier that are rewritten as one row is
theorem rewrite_found {db : Db} {id : Nat} {change : Request → Request} {r : Request} (found : db.request? id = some r) :
    db.requests.1.map (rewrite id change) = db.requests.1.map (rewrite r.id fun _ => change r) := by
  obtain ⟨listed, named⟩ := request_found found
  apply List.map_congr_left
  intro s listed'
  by_cases same : s.id = id
  · have one : s = r := request_unique listed' listed (same.trans named.symm)
    simp [rewrite, one, named]
  · simp [rewrite, same, named]

theorem request_rewritten {before after : Db} {id : Nat} {change : Request → Request} {r : Request}
    (found : before.request? id = some r) (rows : after.requests.1 = before.requests.1.map (rewrite id change))
    (named : ∀ r, (change r).id = r.id) : after.request? id = some (change r) := by
  have listed : change r ∈ after.requests.1 := by
    rw [rows]
    obtain ⟨listed, same⟩ := request_found found
    exact List.mem_map.mpr ⟨r, listed, by simp [rewrite, same]⟩
  have same := request_of_mem listed
  rw [named, (request_found found).2] at same
  exact same

theorem updateRequest_ok {id : Nat} {change : Request → Request} {before after : Db}
    (done : updateRequest id change before = .ok ((), after)) :
    after.requests.1 = before.requests.1.map (rewrite id change) := by
  simp only [updateRequest, bind_ok] at done
  obtain ⟨db, between, read, done⟩ := done
  cases read
  unfold writeRequests at done
  split at done
  · cases done
    rfl
  · cases done

theorem compareAndSet_ok {id : Nat} {still : Request → Bool} {change : Request → Request} {before after : Db} {b : Bool}
    (done : compareAndSet id still change before = .ok (b, after)) :
    (b = false ∧ after = before) ∨ (b = true ∧ ∃ r, before.request? id = some r ∧ still r = true ∧
      after.requests.1 = before.requests.1.map (rewrite id change) ∧ Touches [.requests] before after) := by
  have touches : Touches [.requests] before after := touching_compareAndSet _ _ _ (by simp) _ _ _ done
  simp only [compareAndSet, bind_ok] at done
  obtain ⟨db, between, read, done⟩ := done
  cases read
  cases found : before.request? id with
  | none =>
    simp only [found] at done
    cases done
    exact .inl ⟨rfl, rfl⟩
  | some r =>
    simp only [found] at done
    split at done
    · next matched =>
      obtain ⟨_, written, update, done⟩ := bind_ok.mp done
      cases done
      exact .inr ⟨rfl, r, rfl, matched, updateRequest_ok update, touches⟩
    · cases done
      exact .inl ⟨rfl, rfl⟩

theorem append_ok {event : Text} {userId actorId : Int} {payload : List (Text × Json)} {before after : Db}
    (listed : event ∈ recoveryEnding) (done : append event userId actorId payload before = .ok ((), after)) :
    ∃ e, endingLog after = endingLog before ++ [e] ∧ e.eventType = event ∧ e.payload = .dict payload := by
  cases done
  refine ⟨⟨event, .dict payload, text "user:" ++ intText actorId, some actorId, none, some (text "user"),
    some (intText userId)⟩, ?_, rfl, rfl⟩
  simp [endingLog, List.filter_append, listed]

/-! ## Turns -/

-- The request an entry tells of
def requestOf (event : LedgerEvent) : Option Text :=
  match event.payload with
  | .dict fields =>
    match Json.lookup "request_uuid" fields with
    | some (.str uuid) => some uuid
    | _ => none
  | _ => none

-- The entry that tells of a request's end
def endingEvent : RequestState → Option Text
  | .completed => some "recovery_completed"
  | .cancelled => some "recovery_cancelled"
  | .failed | .rejected => some "recovery_rejected"
  | .expired => some "recovery_expired"
  | _ => none

structure Opened (r : Request) : Prop where
  phone : r.state = .phonePending ∧ r.windowStartsAt = none ∧ r.completesAt = none ∧ r.pending = .erased ∧ r.wraps = [] ∨
    r.state = .waiting ∧ r.route = .kit ∧ ∃ now, r.windowStartsAt = some now ∧ r.completesAt = some (now + kitWait)

structure SameRequest (before after : Request) : Prop where
  id : after.id = before.id
  uuid : after.uuid = before.uuid
  user : after.userId = before.userId
  route : after.route = before.route

structure Ending (before after : Request) (entries : List LedgerEvent) : Prop where
  was : before.state = .waiting ∨ before.state.isPreclaim = true
  ended : after.state.isEnd = true
  performed : after.state = .completed ∨ after.state = .failed → before.state = .waiting ∧
    ∃ completes now, before.completesAt = some completes ∧ after.finishedAt = some now ∧ completes ≤ now
  cancelled : after.state = .cancelled → before.state = .waiting →
    ∃ completes now, before.completesAt = some completes ∧ after.finishedAt = some now ∧ now < completes
  unclaimed : after.state = .expired ∨ after.state = .rejected → before.state.isPreclaim = true
  erased : after.pending = .erased ∧ after.wraps = [] ∨
    before.state.isPreclaim = true ∧ after.pending = before.pending ∧ after.wraps = before.wraps
  told : ∀ e ∈ entries, requestOf e = some before.uuid ∧ some e.eventType = endingEvent after.state
  once : entries.length ≤ 1 ∧ (before.state = .waiting → entries.length = 1)

inductive Turn (before : Request) : Request → List LedgerEvent → Prop
  | granted (was : before.state = .phonePending) : Turn before { before with state := .phoneApproved } []
  | ended {after : Request} {entries : List LedgerEvent} (same : SameRequest before after)
      (window : after.windowStartsAt = before.windowStartsAt) (completes : after.completesAt = before.completesAt)
      (ending : Ending before after entries) : Turn before after entries

inductive Change (before after : Db) : Prop
  | beside (requests : after.requests = before.requests) (endings : endingLog after = endingLog before)
  | opened (r : Request) (fresh : Opened r) (requests : after.requests.1 = before.requests.1 ++ [r])
      (endings : endingLog after = endingLog before)
  | turned (r r' : Request) (entries : List LedgerEvent) (found : before.request? r.id = some r) (turn : Turn r r' entries)
      (requests : after.requests.1 = before.requests.1.map (rewrite r.id fun _ => r'))
      (endings : endingLog after = endingLog before ++ entries)

variable {suite : Suite} {before after : Db}

theorem change_of_touches {parts : List Part} (touches : Touches parts before after) (requests : Part.requests ∉ parts)
    (endings : Part.endings ∉ parts) : Change before after :=
  .beside (touches .requests requests) (touches .endings endings)

-- The update of one request, with the entries after it
theorem change_of_rewrite (entries : List LedgerEvent) {id : Nat} {change : Request → Request} {r : Request}
    (found : before.request? id = some r) (turn : Turn r (change r) entries)
    (rows : after.requests.1 = before.requests.1.map (rewrite id change))
    (endings : endingLog after = endingLog before ++ entries) : Change before after := by
  refine .turned r (change r) entries ?_ turn (rows.trans (rewrite_found found)) endings
  rw [(request_found found).2]
  exact found

/-! ## Openings -/

theorem insertRequest_ok {make : Nat → Request} {r : Request} (done : insertRequest make before = .ok (r, after)) :
    after.requests.1 = before.requests.1 ++ [r] ∧ ∃ id, r = make id := by
  simp only [insertRequest, bind_ok] at done
  obtain ⟨db, between, read, _, written, write, done⟩ := done
  cases read
  cases done
  unfold writeRequests at write
  split at write
  · cases write
    exact ⟨rfl, _, rfl⟩
  · cases write

theorem startRequest_change {fresh : Fresh} {user : User} {kit : Kit} {password : Text} {now : Int} {wraps : List RequestWrap}
    (done : startRequest suite fresh user kit password now wraps before = .ok ((), after)) : Change before after := by
  have touches : Touches [.requests] before after := touching_startRequest (by simp) _ _ _ _ _ _ _ _ _ done
  obtain ⟨r, between, inserted, done⟩ := bind_ok.mp done
  obtain ⟨rows, id, made⟩ := insertRequest_ok inserted
  have quiet : Touches [] between after :=
    touching_bind (touching_append (.inl (by decide))) (fun _ => touching_append (.inl (by decide))) _ _ _ done
  refine .opened r ⟨.inr ?_⟩ ?_ (touches .endings (by simp))
  · rw [made]
    exact ⟨rfl, rfl, now, rfl, rfl⟩
  · rw [quiet .requests (by simp)]
    exact rows

theorem askReset_change {fresh : Fresh} {device : Device} {now : Int}
    (done : askReset fresh device now before = .ok ((), after)) : Change before after := by
  have touches : Touches [.requests, .approvals, .asking] before after :=
    touching_askReset (by simp) (by simp) (by simp) _ _ _ _ _ _ done
  obtain ⟨r, between, inserted, done⟩ := bind_ok.mp done
  obtain ⟨rows, id, made⟩ := insertRequest_ok inserted
  have quiet : Touches [.approvals, .asking] between after := touching_insertApproval _ (by simp) (by simp) _ _ _ done
  refine .opened r ⟨.inl ?_⟩ ?_ (touches .endings (by simp))
  · rw [made]
    exact ⟨rfl, rfl, rfl, rfl, rfl⟩
  · rw [quiet .requests (by simp)]
    exact rows

/-! ## The phone's turns -/

theorem grantApproval_change {fresh : Fresh} {r : Request} {approval : Approval} {device : Device} {key : Key}
    {signature : Bytes} {now : Int} (done : grantApproval suite fresh r approval device key signature now before = .ok ((), after)) :
    Change before after := by
  obtain ⟨_, between, granted, done⟩ := bind_ok.mp done
  have rest : Touches [.approvals, .vouchers] between after := by
    refine touching_get (fun db => ?_) _ _ _ done
    split
    · exact touching_throw _
    · refine touching_bind (touching_compareAndSetApproval _ _ _ (by simp)) fun signed => ?_
      split
      · refine touching_bind (touching_modify fun db part absent => ?_) fun _ => touching_logGranted _ _ _
        cases part <;> first | rfl | exact absurd (by simp) absent
      · exact touching_throw _
  have rows := congrArg Subtype.val (rest .requests (by simp))
  have endings := rest .endings (by simp)
  unfold grantedRequest at granted
  cases asked : approval.purpose with
  | webReset =>
    simp only [asked] at granted
    obtain ⟨moved, written, cas, granted⟩ := bind_ok.mp granted
    rcases compareAndSet_ok cas with ⟨no, _⟩ | ⟨yes, row, found, pending, rewritten, touches⟩
    · simp only [no] at granted
      cases granted
    · simp only [yes] at granted
      cases granted
      refine change_of_rewrite [] found (.granted (by simpa using pending)) (rows.trans rewritten) ?_
      rw [List.append_nil]
      exact endings.trans (touches .endings (by simp))
  | kitConfirm =>
    simp only [asked] at granted
    obtain ⟨db, written, read, granted⟩ := bind_ok.mp granted
    cases read
    split at granted
    · cases granted
      exact .beside (rest .requests (by simp)) endings
    · cases granted

-- The use of an approval, at a time it still held
structure Using (before after : Db) (approval : Nat) (now : Int) : Prop where
  approved : ∃ a, before.approval? approval = some a ∧ a.state = .approved ∧ now < a.expiresAt
  rows : after.approvals = before.approvals.map fun a =>
    if a.id = approval then { a with state := .used, usedAt := some now } else a

theorem useApproval_ok {id : Nat} {now : Int} (done : useApproval id now before = .ok (true, after)) :
    Using before after id now ∧ Touches [.approvals] before after := by
  refine ⟨?_, touching_useApproval (by simp) _ _ _ _ _ done⟩
  rcases compareAndSetApproval_ok done with ⟨no, _⟩ | ⟨_, ⟨a, listed, approved⟩, rows⟩
  · cases no
  · obtain ⟨approved, live⟩ := Bool.and_eq_true_iff.mp approved
    exact ⟨⟨a, listed, of_decide_eq_true approved, of_decide_eq_true live⟩, by rw [rows]⟩

-- A claim makes one request wait.
structure Claiming (before after : Db) (id approval : Nat) (now : Int) : Prop where
  moved : ∃ r r', before.request? id = some r ∧ r.state = .phoneApproved ∧ SameRequest r r' ∧ r'.state = .waiting ∧
    r'.windowStartsAt = some now ∧ r'.completesAt = some (now + phoneWait) ∧
    after.requests.1 = before.requests.1.map (rewrite r.id fun _ => r')
  endings : endingLog after = endingLog before
  used : Using before after approval now

theorem claimRequest_ok {fresh : Fresh} {r : Request} {approval : Approval} {password : Text} {now : Int}
    (done : claimRequest suite fresh r approval password now before = .ok ((), after)) :
    Claiming before after r.id approval.id now := by
  have touches : Touches [.requests, .approvals] before after := touching_claimRequest (by simp) (by simp) _ _ _ _ _ _ _ _ done
  simp only [claimRequest, bind_ok] at done
  obtain ⟨db, start, read, used, spent, use_, _, checked, check, moved, written, cas, _, sure_, check', done⟩ := done
  cases read
  cases used with
  | false => cases check
  | true =>
    cases check
    obtain ⟨using_, use⟩ := useApproval_ok use_
    rcases compareAndSet_ok cas with ⟨no, _⟩ | ⟨yes, row, found, approved, rewritten, second⟩
    · simp only [no] at check'
      cases check'
    · simp only [yes] at check'
      cases check'
      obtain ⟨later, _, read, _, wrapped, update, _, told, log, log'⟩ := done
      cases read
      have third : Touches [.requests] written wrapped := touching_updateRequest _ _ (by simp) _ _ _ update
      have quiet : Touches [] wrapped after :=
        touching_bind (touching_append (.inl (by decide))) (fun _ => touching_append (.inl (by decide))) _ _ _
          (bind_ok.mpr ⟨_, _, log, log'⟩)
      rw [congrArg Subtype.val (use .requests (by simp))] at rewritten
      have both := rewrite_twice rewritten (updateRequest_ok update) fun _ => rfl
      have rows := (congrArg Subtype.val (quiet .requests (by simp))).trans both
      have found' : before.request? r.id = some row := by
        rw [← found, Db.request?, Db.request?, use .requests (by simp)]
      have moved := rows.trans (rewrite_found found')
      refine ⟨⟨row, _, found', of_decide_eq_true approved, ?_, ?_, ?_, ?_, moved⟩, touches .endings (by simp), using_.approved, ?_⟩
      · exact ⟨rfl, rfl, rfl, rfl⟩
      · rfl
      · rfl
      · rfl
      rw [quiet .approvals (by simp), third .approvals (by simp), second .approvals (by simp), using_.rows]

-- A confirmation makes one request due sooner.
structure Confirming (before after : Db) (id approval : Nat) (shorter now : Int) : Prop where
  moved : ∃ r completes, before.request? id = some r ∧ r.state = .waiting ∧ r.completesAt = some completes ∧
    shorter < completes ∧ after.requests.1 = before.requests.1.map (rewrite id fun r => { r with completesAt := some shorter })
  endings : endingLog after = endingLog before
  used : Using before after approval now

theorem confirmRequest_ok {r : Request} {approval : Approval} {completes now : Int}
    (done : confirmRequest suite r approval completes now before = .ok ((), after)) :
    Confirming before after r.id approval.id completes now := by
  have touches : Touches [.requests, .approvals] before after := touching_confirmRequest (by simp) (by simp) _ _ _ _ _ _ _ done
  simp only [confirmRequest, bind_ok] at done
  obtain ⟨used, spent, use_, moved, written, cas, done⟩ := done
  cases used with
  | false => cases done
  | true =>
    obtain ⟨using_, use⟩ := useApproval_ok use_
    rcases compareAndSet_ok cas with ⟨no, _⟩ | ⟨yes, row, found, still, rewritten, second⟩
    · simp only [no, Bool.and_false] at done
      cases done
    · simp only [yes] at done
      have quiet : Touches [] written after := touching_append (.inl (by decide)) _ _ _ done
      rw [congrArg Subtype.val (use .requests (by simp))] at rewritten
      have found' : before.request? r.id = some row := by
        rw [← found, Db.request?, Db.request?, use .requests (by simp)]
      simp only [Bool.and_eq_true, decide_eq_true_eq] at still
      obtain ⟨⟨waiting, _⟩, earlier⟩ := still
      obtain ⟨due, read, earlier⟩ := (Option.any_eq_true _ _).mp earlier
      refine ⟨⟨row, due, found', waiting, read, of_decide_eq_true earlier, ?_⟩, touches .endings (by simp),
        using_.approved, ?_⟩
      · exact (congrArg Subtype.val (quiet .requests (by simp))).trans rewritten
      · rw [quiet .approvals (by simp), second .approvals (by simp), using_.rows]

/-! ## Endings -/

theorem logEnded_ok {event : Text} {id : Nat} {reason : Text} {r : Request} (listed : event ∈ recoveryEnding)
    (found : before.request? id = some r) (done : logEnded event id reason before = .ok ((), after)) :
    ∃ e, endingLog after = endingLog before ++ [e] ∧ e.eventType = event ∧ requestOf e = some r.uuid := by
  obtain ⟨db, between, read, done⟩ := bind_ok.mp done
  cases read
  simp only [found] at done
  obtain ⟨e, endings, named, payload⟩ := append_ok listed done
  exact ⟨e, endings, named, by simp [requestOf, payload, Json.lookup]⟩

section Unclaimed
variable {id : Nat} {still : RequestState → Bool} {state : RequestState} {now : Int} {reason : Text}

theorem unclaimed_turn {r : Request} {entries : List LedgerEvent} (was : r.state.isPreclaim = true)
    (unclaimed : state = .expired ∨ state = .rejected)
    (told : ∀ e ∈ entries, requestOf e = some r.uuid ∧ some e.eventType = endingEvent state) (once : entries.length ≤ 1) :
    Turn r { r with state, finishedAt := some now, endReason := some reason } entries := by
  refine .ended ⟨rfl, rfl, rfl, rfl⟩ rfl rfl ?_
  exact {
    was := .inr was
    ended := by rcases unclaimed with same | same <;> simp [same, RequestState.isEnd]
    performed := by
      intro performed
      rcases unclaimed with same | same <;> simp [same] at performed
    cancelled := by
      intro cancelled
      rcases unclaimed with same | same <;> simp [same] at cancelled
    unclaimed := fun _ => was
    erased := .inr ⟨was, rfl, rfl⟩
    told := told
    once := ⟨once, fun waiting => by simp [waiting, RequestState.isPreclaim] at was⟩ }

theorem endUnclaimed_ok {b : Bool} (done : endUnclaimed id still state now reason before = .ok (b, after)) :
    (b = false ∧ after = before) ∨ (b = true ∧ ∃ r, before.request? id = some r ∧ still r.state = true ∧
      after.requests.1 = before.requests.1.map
        (rewrite id fun r => { r with state, finishedAt := some now, endReason := some reason }) ∧
      Touches [.requests] before after) :=
  compareAndSet_ok done

-- The update of a request nobody claimed, with its entry
theorem endUnclaimed_change {event : Text} {why : Text} (claimless : ∀ s, still s = true → s.isPreclaim = true)
    (unclaimed : state = .expired ∨ state = .rejected) (named : endingEvent state = some event)
    (listed : event ∈ recoveryEnding)
    (done : (do if ← endUnclaimed id still state now reason then logEnded event id why else return () : Tx Unit) before =
      .ok ((), after)) : Change before after := by
  obtain ⟨ended, written, cas, done⟩ := bind_ok.mp done
  rcases endUnclaimed_ok cas with ⟨no, same⟩ | ⟨yes, r, found, matched, rows, touches⟩
  · simp only [no] at done
    cases done
    rw [same]
    exact .beside rfl rfl
  · simp only [yes] at done
    have was := claimless _ matched
    obtain ⟨e, endings, type, tells⟩ := logEnded_ok listed (request_rewritten found rows fun _ => rfl) done
    have logged : Touches [.endings] written after := touching_logEnded (by simp) _ _ _ _ _ _ done
    refine change_of_rewrite [e] found (unclaimed_turn was unclaimed ?_ le_rfl)
      ((congrArg Subtype.val (logged .requests (by simp))).trans rows) ?_
    · intro other alone
      rw [List.mem_singleton.mp alone]
      exact ⟨tells, by rw [type, named]⟩
    · rw [endings, touches .endings (by simp)]

end Unclaimed

theorem change_after {middle : Db} {parts : List Part} (touches : Touches parts before middle) (requests : Part.requests ∉ parts)
    (endings : Part.endings ∉ parts) (change : Change middle after) : Change before after := by
  have rows : middle.requests = before.requests := touches .requests requests
  have log : endingLog middle = endingLog before := touches .endings endings
  cases change with
  | beside same quiet => exact .beside (same.trans rows) (quiet.trans log)
  | opened r fresh same quiet => exact .opened r fresh (rows ▸ same) (quiet.trans log)
  | turned r r' entries found turn same told =>
    refine .turned r r' entries ?_ turn (rows ▸ same) (log ▸ told)
    rw [← found, Db.request?, Db.request?, rows]

theorem runOut_change {approval : Approval} (done : runOut approval before = .ok ((), after)) : Change before after := by
  obtain ⟨_, between, ended, done⟩ := bind_ok.mp done
  have first : Touches [.approvals] before between := touching_endApproval (by simp) _ _ _ _ ended
  obtain ⟨db, _, read, done⟩ := bind_ok.mp done
  cases read
  apply change_after first (by simp) (by simp)
  cases purpose : approval.purpose with
  | kitConfirm =>
    simp only [purpose] at done
    cases done
    exact .beside rfl rfl
  | webReset =>
    cases found : between.request? approval.requestId with
    | none =>
      simp only [purpose, found] at done
      cases done
      exact .beside rfl rfl
    | some r =>
      simp only [purpose, found] at done
      exact endUnclaimed_change (fun _ was => was) (.inl rfl) rfl (by decide) done

theorem endPreclaim_change {r : Request} {approval : Approval} {reason : Text}
    (done : endPreclaim r approval reason before = .ok ((), after)) : Change before after := by
  obtain ⟨_, between, ended, done⟩ := bind_ok.mp done
  have first : Touches [.approvals] before between := touching_endApproval (by simp) _ _ _ _ ended
  obtain ⟨db, _, read, done⟩ := bind_ok.mp done
  cases read
  apply change_after first (by simp) (by simp)
  exact endUnclaimed_change (fun _ was => was) (.inr rfl) rfl (by decide) done

theorem expireUnclaimed_change {now : Int} {r : Request} (unclaimed : r.state.isPreclaim = true)
    (done : expireUnclaimed now r before = .ok ((), after)) : Change before after := by
  obtain ⟨ended, written, cas, done⟩ := bind_ok.mp done
  rcases endUnclaimed_ok cas with ⟨no, same⟩ | ⟨yes, row, found, matched, rows, touches⟩
  · simp only [no] at done
    cases done
    rw [same]
    exact .beside rfl rfl
  · simp only [yes] at done
    have was : row.state.isPreclaim = true := by
      rw [of_decide_eq_true matched]
      exact unclaimed
    obtain ⟨_, quiet, closed, done⟩ := bind_ok.mp done
    have second : Touches [.approvals] written quiet := touching_endLiveApprovals (by simp) _ _ _ _ closed
    have rows' := (congrArg Subtype.val (second .requests (by simp))).trans rows
    have log : endingLog quiet = endingLog before := (second .endings (by simp)).trans (touches .endings (by simp))
    split at done
    · obtain ⟨e, endings, type, tells⟩ := logEnded_ok (by decide) (request_rewritten found rows' fun _ => rfl) done
      have logged : Touches [.endings] quiet after := touching_logEnded (by simp) _ _ _ _ _ _ done
      refine change_of_rewrite [e] found (unclaimed_turn was (.inl rfl) ?_ le_rfl)
        ((congrArg Subtype.val (logged .requests (by simp))).trans rows') ?_
      · intro other alone
        rw [List.mem_singleton.mp alone]
        exact ⟨tells, by rw [type]; rfl⟩
      · rw [endings, log]
    · cases done
      refine change_of_rewrite [] found (unclaimed_turn was (.inl rfl) (by simp) (by simp)) rows' ?_
      rw [List.append_nil]
      exact log

/-! ## Cancelling and completing -/

theorem stillCancellable_was {observed : RequestState} {now : Int} {r : Request}
    (still : stillCancellable observed now r = true) :
    r.state = observed ∧ (r.state.isPreclaim = true ∨
      r.state = .waiting ∧ ∃ completes, r.completesAt = some completes ∧ now < completes) := by
  cases observed with
  | waiting =>
    obtain ⟨waiting, due⟩ := Bool.and_eq_true_iff.mp still
    obtain ⟨completes, read, later⟩ := (Option.any_eq_true _ _).mp due
    exact ⟨of_decide_eq_true waiting, .inr ⟨of_decide_eq_true waiting, completes, read, of_decide_eq_true later⟩⟩
  | phonePending =>
    have same : r.state = .phonePending := of_decide_eq_true still
    exact ⟨same, .inl (by rw [same]; rfl)⟩
  | phoneApproved =>
    have same : r.state = .phoneApproved := of_decide_eq_true still
    exact ⟨same, .inl (by rw [same]; rfl)⟩
  | _ => cases still

theorem cancel_turn {c : Cancellation} {observed : RequestState} {now : Int} {r : Request} {entries : List LedgerEvent}
    (still : stillCancellable observed now r = true)
    (told : ∀ e ∈ entries, requestOf e = some r.uuid ∧ some e.eventType = endingEvent .cancelled)
    (once : entries.length ≤ 1 ∧ (observed = .waiting → entries.length = 1)) :
    Turn r { r.cancel c now with pending := .erased, wraps := [] } entries := by
  obtain ⟨same, was⟩ := stillCancellable_was still
  refine .ended ⟨rfl, rfl, rfl, rfl⟩ rfl rfl ?_
  exact {
    was := was.symm.imp (·.1) id
    ended := rfl
    performed := by simp [Request.cancel]
    cancelled := by
      intro _ waiting
      rcases was with unclaimed | ⟨_, completes, read, later⟩
      · simp [waiting, RequestState.isPreclaim] at unclaimed
      · exact ⟨completes, now, read, rfl, later⟩
    unclaimed := by simp [Request.cancel]
    erased := .inl ⟨rfl, rfl⟩
    told := told
    once := ⟨once.1, fun waiting => once.2 (same.symm.trans waiting)⟩ }

theorem applyCancel_change {c : Cancellation} {mark : Mark} (done : applyCancel c mark before = .ok ((), after)) :
    Change before after := by
  obtain ⟨moved, written, cas, done⟩ := bind_ok.mp done
  rcases compareAndSet_ok cas with ⟨no, same⟩ | ⟨yes, r, found, still, rows, touches⟩
  · simp only [no] at done
    cases done
    rw [same]
    exact .beside rfl rfl
  · simp only [yes] at done
    obtain ⟨_, erased, erase, done⟩ := bind_ok.mp done
    have second : Touches [.requests] written erased := touching_erasePending (by simp) _ _ _ _ erase
    have both := rewrite_twice rows (updateRequest_ok erase) fun _ => rfl
    obtain ⟨_, closed, close, done⟩ := bind_ok.mp done
    have third : Touches [.approvals] erased closed := touching_endLiveApprovals (by simp) _ _ _ _ close
    have rows' := (congrArg Subtype.val (third .requests (by simp))).trans both
    have log : endingLog closed = endingLog before :=
      (third .endings (by simp)).trans ((second .endings (by simp)).trans (touches .endings (by simp)))
    obtain ⟨db, _, read, done⟩ := bind_ok.mp done
    cases read
    have now := request_rewritten found rows' fun _ => rfl
    by_cases pending : mark.was = .phonePending
    · simp only [pending] at done
      cases done
      refine change_of_rewrite [] found (cancel_turn still (by simp) ⟨by simp, by simp [pending]⟩) rows' ?_
      rw [List.append_nil]
      exact log
    · simp only [now] at done
      obtain ⟨_, burned, burn, logged⟩ := bind_ok.mp done
      have fourth : Touches [.kits] closed burned := touching_burnKit (by simp) _ _ _ _ _ burn
      obtain ⟨e, endings, type, payload⟩ := append_ok (by decide) logged
      have fifth : Touches [.endings] burned after := touching_append (.inr (by simp)) _ _ _ logged
      refine change_of_rewrite [e] found (cancel_turn still ?_ ⟨le_rfl, fun _ => rfl⟩)
        ((congrArg Subtype.val ((fifth .requests (by simp)).trans (fourth .requests (by simp)))).trans rows') ?_
      · intro other alone
        rw [List.mem_singleton.mp alone]
        exact ⟨by simp [requestOf, payload, Json.lookup, Request.cancel], by rw [type]; rfl⟩
      · rw [endings, fourth .endings (by simp), log]

theorem performed_turn (reason : Option Text) {r : Request} {completes now : Int} {state : RequestState} {entry : LedgerEvent}
    (waiting : r.state = .waiting) (read : r.completesAt = some completes) (due : completes ≤ now)
    (performed : state = .completed ∨ state = .failed)
    (told : requestOf entry = some r.uuid ∧ some entry.eventType = endingEvent state) :
    Turn r { r with state, finishedAt := some now, endReason := reason, pending := .erased, wraps := [] } [entry] := by
  refine .ended ⟨rfl, rfl, rfl, rfl⟩ rfl rfl ?_
  exact {
    was := .inl waiting
    ended := by rcases performed with same | same <;> simp [same, RequestState.isEnd]
    performed := fun _ => ⟨waiting, completes, now, read, rfl, due⟩
    cancelled := by
      intro cancelled
      rcases performed with same | same <;> simp [same] at cancelled
    unclaimed := by
      intro unclaimed
      rcases performed with same | same <;> simp [same] at unclaimed
    erased := .inl ⟨rfl, rfl⟩
    told := by
      intro other alone
      rw [List.mem_singleton.mp alone]
      exact told
    once := ⟨le_rfl, fun _ => rfl⟩ }

theorem failCompletion_ok {r : Request} {problem : Text} (done : failCompletion r problem before = .ok ((), after)) :
    after.requests.1 = before.requests.1.map
        (rewrite r.id fun r => { r with state := .failed, endReason := some problem, pending := .erased, wraps := [] }) ∧
      ∃ e, endingLog after = endingLog before ++ [e] ∧ e.eventType = text "recovery_rejected" ∧ requestOf e = some r.uuid := by
  obtain ⟨_, failed, fail_, done⟩ := bind_ok.mp done
  obtain ⟨_, erased, erase, logged⟩ := bind_ok.mp done
  have first : Touches [.requests] before failed := touching_updateRequest _ _ (by simp) _ _ _ fail_
  have second : Touches [.requests] failed erased := touching_erasePending (by simp) _ _ _ _ erase
  have third : Touches [.endings] erased after := touching_append (.inr (by simp)) _ _ _ logged
  have both := rewrite_twice (updateRequest_ok fail_) (updateRequest_ok erase) fun _ => rfl
  obtain ⟨e, endings, type, payload⟩ := append_ok (by decide) logged
  refine ⟨(congrArg Subtype.val (third .requests (by simp))).trans both, e, ?_, type, ?_⟩
  · rw [endings, second .endings (by simp), first .endings (by simp)]
  · simp [requestOf, payload, Json.lookup]

theorem succeedCompletion_ok {r : Request} {now : Int} (done : succeedCompletion suite r now before = .ok ((), after)) :
    after.requests.1 = before.requests.1.map (rewrite r.id fun r => { r with pending := .erased, wraps := [] }) ∧
      ∃ e, endingLog after = endingLog before ++ [e] ∧ e.eventType = text "recovery_completed" ∧ requestOf e = some r.uuid := by
  obtain ⟨facts, written, write, done⟩ := bind_ok.mp done
  have first : Touches [.keys, .kits] before written := by
    split at write
    · exact touching_applyPhoneCompletion (by simp) (by simp) _ _ _ _ _ write
    · exact touching_applyKitCompletion (by simp) _ _ _ _ _ write
  obtain ⟨_, set_, setting, done⟩ := bind_ok.mp done
  have second : Touches [.users] written set_ := touching_setCredential (by simp) _ _ _ _ setting
  obtain ⟨_, bumped, bump, done⟩ := bind_ok.mp done
  have third : Touches [] set_ bumped := touching_bumpEpoch _ _ _ _ bump
  obtain ⟨_, logged, log, done⟩ := bind_ok.mp done
  have fourth : Touches [.endings] bumped logged := touching_append (.inr (by simp)) _ _ _ log
  obtain ⟨_, erased, erase, close⟩ := bind_ok.mp done
  have fifth : Touches [.requests] logged erased := touching_erasePending (by simp) _ _ _ _ erase
  have sixth : Touches [.approvals] erased after := touching_endLiveApprovals (by simp) _ _ _ _ close
  obtain ⟨e, endings, type, payload⟩ := append_ok (by decide) log
  refine ⟨?_, e, ?_, type, ?_⟩
  · have rows := updateRequest_ok erase
    rw [fourth .requests (by simp), third .requests (by simp), second .requests (by simp), first .requests (by simp)] at rows
    exact (congrArg Subtype.val (sixth .requests (by simp))).trans rows
  · rw [sixth .endings (by simp), fifth .endings (by simp), endings, third .endings (by simp), second .endings (by simp),
      first .endings (by simp)]
  · simp [requestOf, payload, Json.lookup]

theorem finishCompletion_change {id : Nat} {now : Int} {found : Option Text} {b : Bool}
    (done : finishCompletion suite id now found before = .ok (b, after)) : Change before after := by
  obtain ⟨moved, written, cas, done⟩ := bind_ok.mp done
  rcases compareAndSet_ok cas with ⟨no, same⟩ | ⟨yes, r, listed, still, rows, touches⟩
  · simp only [no] at done
    cases done
    rw [same]
    exact .beside rfl rfl
  · simp only [yes] at done
    obtain ⟨waiting, due⟩ := Bool.and_eq_true_iff.mp still
    obtain ⟨completes, read, due⟩ := (Option.any_eq_true _ _).mp due
    have now_ := request_rewritten listed rows fun _ => rfl
    obtain ⟨db, _, read_, done⟩ := bind_ok.mp done
    cases read_
    simp only [now_] at done
    obtain ⟨spent, used, use_, done⟩ := bind_ok.mp done
    have second : Touches [.kits] written used := by
      refine (?_ : Touching [.kits] _) _ _ _ use_
      split
      · exact touching_revokeKit (by simp) _ _ _ _
      · exact touching_pure _
      · exact touching_pure _
    obtain ⟨_, final, finish, done⟩ := bind_ok.mp done
    cases done
    have named : r.id = id := (request_found listed).2
    have rows' := (congrArg Subtype.val (second .requests (by simp))).trans rows
    have log : endingLog used = endingLog before := (second .endings (by simp)).trans (touches .endings (by simp))
    cases verdict : found <|> (if spent then none else some (text "the Recovery Kit it used stopped working")) with
    | some problem =>
      simp only [verdict] at finish
      obtain ⟨last, e, endings, type, tells⟩ := failCompletion_ok finish
      have turn := performed_turn (some problem) (of_decide_eq_true waiting) read
        (of_decide_eq_true due) (.inr rfl) ⟨tells, by rw [type]; rfl⟩
      refine change_of_rewrite [e] listed turn (rewrite_twice rows' (named ▸ last) fun _ => rfl) ?_
      rw [endings, log]
    | none =>
      simp only [verdict] at finish
      obtain ⟨last, e, endings, type, tells⟩ := succeedCompletion_ok finish
      have turn := performed_turn r.endReason (of_decide_eq_true waiting) read
        (of_decide_eq_true due) (.inl rfl) ⟨tells, by rw [type]; rfl⟩
      refine change_of_rewrite [e] listed turn (rewrite_twice rows' (named ▸ last) fun _ => rfl) ?_
      rw [endings, log]

/-! ## Acts -/

theorem act_change {kind : Kind} (confirms : kind ≠ .confirm) (claims : kind ≠ .claim) (act : Act suite kind before after) : Change before after := by
  have frame := act_touches act
  cases act with
  | cancel done => exact applyCancel_change done
  | start done => exact startRequest_change done
  | askReset done => exact askReset_change done
  | askConfirm done =>
    have alone : Touches [.approvals, .asking] before after := touching_insertApproval _ (by simp) (by simp) _ _ _ done
    exact change_of_touches alone (by simp) (by simp)
  | grant done => exact grantApproval_change done
  | runOut done => exact runOut_change done
  | reject done => exact endPreclaim_change done
  | claim done => exact absurd rfl claims
  | confirm done => exact absurd rfl confirms
  | expire unclaimed done => exact expireUnclaimed_change unclaimed done
  | complete done => exact finishCompletion_change done
  | _ => exact change_of_touches frame (by simp [touched]) (by simp [touched])

end QVault.Proof.Recovery
