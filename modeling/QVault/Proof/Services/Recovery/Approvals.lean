import QVault.Proof.Services.Recovery.Frames

/-!
# What stays of a phone's approval
-/

namespace QVault.Proof.Recovery
open QVault.Recovery QVault.Python QVault.Crypto Programs Sessions Transactions

structure Follows (before after : Approval) : Prop where
  id : after.id = before.id
  request : after.requestId = before.requestId
  purpose : after.purpose = before.purpose
  device : after.deviceId = before.deviceId
  key : after.keyId = before.keyId
  expires : after.expiresAt = before.expiresAt
  tries : before.tries ≤ after.tries
  signed : before.state ≠ .pending → after.state ≠ .pending ∧ after.signature = before.signature ∧
    after.codeTag = before.codeTag ∧ after.codeSelector = before.codeSelector
  used : before.state = .used → after = before

def Signed (a : Approval) : Prop := a.state = .approved ∨ a.state = .used

-- As it was, neither signed nor tried since
structure Ages (before after : Approval) : Prop where
  follows : Follows before after
  signed : Signed after → Signed before
  tries : after.tries = before.tries

theorem follows_refl (a : Approval) : Follows a a :=
  ⟨rfl, rfl, rfl, rfl, rfl, rfl, le_rfl, fun signed => ⟨signed, rfl, rfl, rfl⟩, fun _ => rfl⟩

theorem follows_trans {first second third : Approval} (one : Follows first second) (two : Follows second third) :
    Follows first third where
  id := two.id.trans one.id
  request := two.request.trans one.request
  purpose := two.purpose.trans one.purpose
  device := two.device.trans one.device
  key := two.key.trans one.key
  expires := two.expires.trans one.expires
  tries := one.tries.trans two.tries
  signed := by
    intro signed
    obtain ⟨still, signature, tag, selector⟩ := one.signed signed
    obtain ⟨final, signature', tag', selector'⟩ := two.signed still
    exact ⟨final, signature'.trans signature, tag'.trans tag, selector'.trans selector⟩
  used := by
    intro used
    have same := one.used used
    subst same
    exact two.used used

theorem follows_ended {a : Approval} (live : a.state = .pending ∨ a.state = .approved) : Follows a { a with state := .ended } where
  id := rfl
  request := rfl
  purpose := rfl
  device := rfl
  key := rfl
  expires := rfl
  tries := le_rfl
  signed _ := ⟨by simp, rfl, rfl, rfl⟩
  used used := by rcases live with state | state <;> simp [state] at used

theorem follows_used {a : Approval} {now : Int} (approved : a.state = .approved) :
    Follows a { a with state := .used, usedAt := some now } where
  id := rfl
  request := rfl
  purpose := rfl
  device := rfl
  key := rfl
  expires := rfl
  tries := le_rfl
  signed _ := ⟨by simp, rfl, rfl, rfl⟩
  used used := by simp [approved] at used

theorem follows_spent {a : Approval} (approved : a.state = .approved) : Follows a { a with tries := a.tries + 1 } where
  id := rfl
  request := rfl
  purpose := rfl
  device := rfl
  key := rfl
  expires := rfl
  tries := Nat.le_succ _
  signed signed := ⟨signed, rfl, rfl, rfl⟩
  used used := by simp [approved] at used

-- What every act but signing and trying does to a row
class RowRule (R : Approval → Approval → Prop) : Prop where
  refl : ∀ a, R a a
  trans : ∀ {first second third}, R first second → R second third → R first third
  id : ∀ {before after}, R before after → after.id = before.id
  ended : ∀ {a : Approval}, a.state = .pending ∨ a.state = .approved → R a { a with state := .ended }
  used : ∀ {a : Approval} {now : Int}, a.state = .approved → R a { a with state := .used, usedAt := some now }

instance : RowRule Follows := ⟨follows_refl, follows_trans, (·.id), follows_ended, follows_used⟩

instance : RowRule Ages where
  refl a := ⟨follows_refl a, id, rfl⟩
  trans one two := ⟨follows_trans one.follows two.follows, fun signed => one.signed (two.signed signed), two.tries.trans one.tries⟩
  id ages := ages.follows.id
  ended live := ⟨follows_ended live, fun signed => by simp [Signed] at signed, rfl⟩
  used approved := ⟨follows_used approved, fun _ => .inl approved, rfl⟩

/-! ## Tables -/

def ApprovalIds (db : Db) : Prop := (db.approvals.map (·.id)).Nodup

-- A row that was asked for since
def Asked (R : Approval → Approval → Prop) (before : Db) (a : Approval) : Prop :=
  ∃ first : Approval, first.state = .pending ∧ first.tries = 0 ∧ (∀ old ∈ before.approvals, old.id ≠ first.id) ∧ R first a

def ApprovalsKept (R : Approval → Approval → Prop) (before after : Db) : Prop :=
  ApprovalIds before → ApprovalIds after ∧ (∀ a ∈ before.approvals, ∃ a' ∈ after.approvals, R a a') ∧
    ∀ a' ∈ after.approvals, (∃ a ∈ before.approvals, R a a') ∨ Asked R before a'

variable {suite : Suite} {R : Approval → Approval → Prop} [RowRule R] {α β : Type}

theorem approvalsKept_of_eq {before after : Db} (same : after.approvals = before.approvals) :
    ApprovalsKept R before after := by
  intro ids
  refine ⟨by simpa [ApprovalIds, same] using ids, ?_, ?_⟩
  · intro a listed
    exact ⟨a, same ▸ listed, RowRule.refl a⟩
  · intro a listed
    exact .inl ⟨a, same ▸ listed, RowRule.refl a⟩

theorem approvalsKept_refl (db : Db) : ApprovalsKept R db db := approvalsKept_of_eq rfl

theorem approvalsKept_trans (first second third : Db) (one : ApprovalsKept R first second)
    (two : ApprovalsKept R second third) : ApprovalsKept R first third := by
  intro ids
  obtain ⟨between, kept, known⟩ := one ids
  obtain ⟨final, more, known'⟩ := two between
  refine ⟨final, ?_, ?_⟩
  · intro a listed
    obtain ⟨b, listed', step⟩ := kept a listed
    obtain ⟨c, listed'', step'⟩ := more b listed'
    exact ⟨c, listed'', RowRule.trans step step'⟩
  · intro c listed
    rcases known' c listed with ⟨b, listed', step'⟩ | ⟨asked, pending, tries, new, step'⟩
    · rcases known b listed' with ⟨a, listed'', step⟩ | ⟨asked, pending, tries, new, step⟩
      · exact .inl ⟨a, listed'', RowRule.trans step step'⟩
      · exact .inr ⟨asked, pending, tries, new, RowRule.trans step step'⟩
    · refine .inr ⟨asked, pending, tries, ?_, step'⟩
      intro old listed' same
      obtain ⟨b, listed'', step⟩ := kept old listed'
      exact new b listed'' ((RowRule.id step).trans same)

/-! ## Statements -/

abbrev Keeping (R : Approval → Approval → Prop) (t : Tx α) : Prop := Within (ApprovalsKept R) t

theorem keeping_of_touching (parts : List Part) {t : Tx α} (absent : Part.approvals ∉ parts) (touching : Touching parts t) : Keeping R t :=
  fun _ _ _ done => approvalsKept_of_eq (touching _ _ _ done _ absent)

theorem keeping_pure (a : α) : Keeping R (pure a : Tx α) := within_pure approvalsKept_refl a

theorem keeping_throw (refusal : Refusal) : Keeping R (throw refusal : Tx α) := within_throw refusal

theorem keeping_bind {t : Tx α} {rest : α → Tx β} (first : Keeping R t) (second : ∀ a, Keeping R (rest a)) :
    Keeping R (t >>= rest) :=
  within_bind approvalsKept_trans first second

theorem keeping_get {rest : Db → Tx α} (then_ : ∀ db, Keeping R (rest db)) : Keeping R ((get : Tx Db) >>= rest) :=
  keeping_bind (within_get approvalsKept_refl) then_

theorem kept_of_map {before after : Db} {change : Approval → Approval} (rows : after.approvals = before.approvals.map change)
    (ids : ApprovalIds before) (step : ∀ a ∈ before.approvals, R a (change a)) :
    ApprovalIds after ∧ (∀ a ∈ before.approvals, ∃ a' ∈ after.approvals, R a a') ∧
      ∀ a' ∈ after.approvals, (∃ a ∈ before.approvals, R a a') ∨ Asked R before a' := by
  refine ⟨?_, ?_, ?_⟩
  · have names : (before.approvals.map change).map (·.id) = before.approvals.map (·.id) := by
      rw [List.map_map]
      apply List.map_congr_left
      intro a listed
      exact RowRule.id (step a listed)
    rw [ApprovalIds, rows, names]
    exact ids
  · intro a listed
    exact ⟨change a, rows ▸ List.mem_map_of_mem listed, step a listed⟩
  · intro a' listed
    rw [rows] at listed
    obtain ⟨a, listed', same⟩ := List.mem_map.mp listed
    exact .inl ⟨a, listed', same ▸ step a listed'⟩

theorem keeping_updateApprovals {which : Approval → Bool} {change : Approval → Approval}
    (allowed : ∀ a, which a = true → R a (change a)) : Keeping R (updateApprovals which change) := by
  apply within_modify
  intro db ids
  apply kept_of_map rfl ids
  intro a _
  split
  · next chosen => exact allowed a chosen
  · exact RowRule.refl a

-- The row an identifier names is the only one of that identifier.
theorem approval_unique {db : Db} (ids : ApprovalIds db) {a b : Approval} (one : a ∈ db.approvals) (two : b ∈ db.approvals)
    (same : a.id = b.id) : a = b :=
  List.inj_on_of_nodup_map ids one two same

theorem approval_found {db : Db} {id : Nat} {a : Approval} (found : db.approval? id = some a) :
    a ∈ db.approvals ∧ a.id = id :=
  ⟨List.mem_of_find?_eq_some found, by simpa using List.find?_some found⟩

theorem compareAndSetApproval_ok {id : Nat} {still : Approval → Bool} {change : Approval → Approval} {before after : Db}
    {b : Bool} (done : compareAndSetApproval id still change before = .ok (b, after)) :
    (b = false ∧ after = before) ∨ (b = true ∧ (∃ a, before.approval? id = some a ∧ still a = true) ∧
      after = { before with approvals := before.approvals.map fun a => if a.id = id then change a else a }) := by
  simp only [compareAndSetApproval, bind_ok] at done
  obtain ⟨db, between, read, done⟩ := done
  cases read
  cases found : before.approval? id with
  | none =>
    simp only [found] at done
    cases done
    exact .inl ⟨rfl, rfl⟩
  | some a =>
    simp only [found] at done
    split at done
    · next matched =>
      cases done
      exact .inr ⟨rfl, ⟨a, rfl, matched⟩, by simp⟩
    · cases done
      exact .inl ⟨rfl, rfl⟩

theorem keeping_compareAndSetApproval {id : Nat} {still : Approval → Bool} {change : Approval → Approval}
    (allowed : ∀ a, still a = true → R a (change a)) : Keeping R (compareAndSetApproval id still change) := by
  intro before b after done ids
  rcases compareAndSetApproval_ok done with ⟨_, same⟩ | ⟨_, ⟨a, found, matched⟩, same⟩
  · subst same
    exact approvalsKept_refl _ ids
  · obtain ⟨listed, named⟩ := approval_found found
    subst same
    apply kept_of_map rfl ids
    intro other listed'
    split
    · next named' =>
      rw [approval_unique ids listed' listed (named'.trans named.symm)]
      exact allowed a matched
    · exact RowRule.refl other

theorem lt_nextId {ids : List Nat} {id : Nat} (listed : id ∈ ids) : id < nextId ids := by
  have above : ∀ (ids : List Nat) (start : Nat), start ≤ ids.foldl max start ∧ ∀ id ∈ ids, id ≤ ids.foldl max start := by
    intro ids
    induction ids with
    | nil => exact fun start => ⟨le_rfl, by simp⟩
    | cons first rest ih =>
      intro start
      obtain ⟨below, all⟩ := ih (max start first)
      refine ⟨(Nat.le_max_left _ _).trans below, ?_⟩
      intro id listed
      rcases List.mem_cons.mp listed with same | later
      · rw [same]
        exact (Nat.le_max_right _ _).trans below
      · exact all id later
  exact Nat.lt_succ_of_le ((above ids 0).2 id listed)

theorem keeping_insertApproval {make : Nat → Approval} (named : ∀ id, (make id).id = id)
    (asked : ∀ id, (make id).state = .pending ∧ (make id).tries = 0) : Keeping R (insertApproval make) := by
  apply within_modify
  intro db ids
  have fresh : nextId (db.approvals.map (·.id)) ∉ db.approvals.map (·.id) := fun listed => lt_irrefl _ (lt_nextId listed)
  refine ⟨?_, fun a listed => ⟨a, List.mem_append_left _ listed, RowRule.refl a⟩, ?_⟩
  · rw [ApprovalIds, List.map_append, List.nodup_append]
    refine ⟨ids, by simp, ?_⟩
    intro id listed other alone same
    rw [List.map_singleton, List.mem_singleton, named] at alone
    exact fresh (alone ▸ same ▸ listed)
  · intro a listed
    rcases List.mem_append.mp listed with old | new
    · exact .inl ⟨a, old, RowRule.refl a⟩
    · rw [List.mem_singleton.mp new]
      refine .inr ⟨make _, (asked _).1, (asked _).2, ?_, RowRule.refl _⟩
      intro old listed' same
      rw [named] at same
      exact fresh (same ▸ List.mem_map_of_mem listed')

/-! ## Acts -/

theorem keeping_endApproval (id : Nat) : Keeping R (endApproval id) := by
  apply keeping_updateApprovals
  intro a chosen
  apply RowRule.ended
  simpa using (Bool.and_eq_true_iff.mp chosen).2

theorem keeping_endLiveApprovals (request : Nat) : Keeping R (endLiveApprovals request) := by
  apply keeping_updateApprovals
  intro a chosen
  apply RowRule.ended
  simpa using (Bool.and_eq_true_iff.mp chosen).2

theorem keeping_useApproval (id : Nat) (now : Int) : Keeping R (useApproval id now) := by
  apply keeping_compareAndSetApproval
  intro a matched
  apply RowRule.used
  simpa using (Bool.and_eq_true_iff.mp matched).1

theorem keeping_endUnclaimed (r : Nat) (still : RequestState → Bool) (state : RequestState) (now : Int) (reason : Text) :
    Keeping R (endUnclaimed r still state now reason) :=
  keeping_of_touching [.requests] (by simp) (touching_compareAndSet _ _ _ (by simp))

theorem keeping_logEnded (event : Text) (id : Nat) (reason : Text) : Keeping R (logEnded event id reason) :=
  keeping_of_touching [.endings] (by simp) (touching_logEnded (by simp) _ _ _)

theorem keeping_erasePending (id : Nat) : Keeping R (erasePending id) :=
  keeping_of_touching [.requests] (by simp) (touching_erasePending (by simp) _)

theorem keeping_append {event : Text} {userId actorId : Int} {payload : List (Text × Json)} :
    Keeping R (append event userId actorId payload) :=
  keeping_of_touching [.endings] (by simp) (touching_append (.inr (by simp)))

theorem keeping_applyCancel (c : Cancellation) (mark : Mark) : Keeping R (applyCancel c mark) := by
  refine keeping_bind (keeping_of_touching [.requests] (by simp) (touching_compareAndSet _ _ _ (by simp))) fun moved => ?_
  split
  · refine keeping_bind (keeping_erasePending _) fun _ => keeping_bind (keeping_endLiveApprovals _) fun _ => ?_
    refine keeping_get fun db => ?_
    split
    · exact keeping_pure _
    · exact keeping_pure _
    · exact keeping_bind (keeping_of_touching [.kits] (by simp) (touching_burnKit (by simp) _ _)) fun _ => keeping_append
  · exact keeping_pure _

theorem keeping_runOut (approval : Approval) : Keeping R (runOut approval) := by
  refine keeping_bind (keeping_endApproval _) fun _ => keeping_get fun db => ?_
  split
  · refine keeping_bind (keeping_endUnclaimed _ _ _ _ _) fun ended => ?_
    split
    · exact keeping_logEnded _ _ _
    · exact keeping_pure _
  · exact keeping_pure _

theorem keeping_endPreclaim (r : Request) (approval : Approval) (reason : Text) :
    Keeping R (endPreclaim r approval reason) := by
  refine keeping_bind (keeping_endApproval _) fun _ => keeping_get fun db => ?_
  refine keeping_bind (keeping_endUnclaimed _ _ _ _ _) fun ended => ?_
  split
  · exact keeping_logEnded _ _ _
  · exact keeping_pure _

theorem keeping_claimRequest (fresh : Fresh) (r : Request) (approval : Approval) (password : Text) (now : Int) :
    Keeping R (claimRequest suite fresh r approval password now) := by
  refine keeping_get fun db => keeping_bind (keeping_useApproval _ _) fun used => keeping_bind ?_ fun _ => ?_
  · split
    · exact keeping_pure _
    · exact keeping_throw _
  refine keeping_bind (keeping_of_touching [.requests] (by simp) (touching_compareAndSet _ _ _ (by simp))) fun moved => ?_
  refine keeping_bind ?_ fun _ => keeping_get fun db => ?_
  · split
    · exact keeping_pure _
    · exact keeping_throw _
  refine keeping_bind (keeping_of_touching [.requests] (by simp) (touching_updateRequest _ _ (by simp))) fun _ => ?_
  exact keeping_bind keeping_append fun _ => keeping_append

theorem keeping_confirmRequest (r : Request) (approval : Approval) (completes now : Int) :
    Keeping R (confirmRequest suite r approval completes now) := by
  refine keeping_bind (keeping_useApproval _ _) fun used => ?_
  refine keeping_bind (keeping_of_touching [.requests] (by simp) (touching_compareAndSet _ _ _ (by simp))) fun moved => ?_
  split
  · exact keeping_append
  · exact keeping_throw _

theorem keeping_expireUnclaimed (now : Int) (r : Request) : Keeping R (expireUnclaimed now r) := by
  refine keeping_bind (keeping_endUnclaimed _ _ _ _ _) fun ended => ?_
  split
  · refine keeping_bind (keeping_endLiveApprovals _) fun _ => ?_
    split
    · exact keeping_logEnded _ _ _
    · exact keeping_pure _
  · exact keeping_pure _

theorem keeping_retireDevice (device : Device) (requests : List Request) : Keeping R (retireDevice device requests) := by
  refine keeping_bind (within_modify fun db => approvalsKept_of_eq rfl) fun _ => keeping_bind ?_ fun _ => ?_
  · exact keeping_get fun db => keeping_of_touching [.keys] (by simp) (touching_updateKey _ _ (by simp))
  · exact within_forM approvalsKept_refl approvalsKept_trans fun r _ => keeping_endLiveApprovals _

theorem keeping_succeedCompletion (r : Request) (now : Int) : Keeping R (succeedCompletion suite r now) := by
  refine keeping_bind (keeping_of_touching [.keys, .kits] (by simp) ?_) fun facts => ?_
  · split
    · exact touching_applyPhoneCompletion (by simp) (by simp) _ _
    · exact touching_applyKitCompletion (by simp) _ _
  refine keeping_bind (keeping_of_touching [.users] (by simp) (touching_setCredential (by simp) _)) fun _ => ?_
  refine keeping_bind (keeping_of_touching [] (by simp) (touching_bumpEpoch _)) fun _ => ?_
  exact keeping_bind keeping_append fun _ => keeping_bind (keeping_erasePending _) fun _ => keeping_endLiveApprovals _

theorem keeping_finishCompletion (id : Nat) (now : Int) (found : Option Text) :
    Keeping R (finishCompletion suite id now found) := by
  refine keeping_bind (keeping_of_touching [.requests] (by simp) (touching_compareAndSet _ _ _ (by simp))) fun moved => ?_
  split
  · refine keeping_get fun db => ?_
    split
    · exact keeping_pure _
    · refine keeping_bind (keeping_of_touching [.kits] (by simp) ?_) fun spent => keeping_bind ?_ fun _ => keeping_pure _
      · split
        · exact touching_revokeKit (by simp) _ _ _ _
        · exact touching_pure _
        · exact touching_pure _
      · split
        · refine keeping_bind (keeping_of_touching [.requests] (by simp) (touching_updateRequest _ _ (by simp))) fun _ => ?_
          exact keeping_bind (keeping_erasePending _) fun _ => keeping_append
        · exact keeping_succeedCompletion _ _
  · exact keeping_pure _

theorem keeping_spendTry (session : Nat) (named : Named) (id : Nat) : Keeping Follows (spendTry session named id) := by
  refine keeping_bind (keeping_compareAndSetApproval fun a matched => ?_) fun took => keeping_bind ?_ fun _ => keeping_pure _
  · apply follows_spent
    simpa using (Bool.and_eq_true_iff.mp matched).1
  · split
    · exact within_modify fun db => approvalsKept_of_eq rfl
    · exact keeping_pure _

theorem follows_granted {a : Approval} (pending : a.state = .pending) (now : Int) (selector : Text) (tag : Bytes)
    (sha : Text) (signature : Bytes) :
    Follows a { a with state := .approved, approvedAt := some now, codeSelector := some selector, codeTag := some tag
                       signatureSha256 := some sha, signature := some signature } where
  id := rfl
  request := rfl
  purpose := rfl
  device := rfl
  key := rfl
  expires := rfl
  tries := le_rfl
  signed signed := absurd pending signed
  used used := by simp [pending] at used

theorem keeping_grantApproval (fresh : Fresh) (r : Request) (approval : Approval) (device : Device) (key : Key)
    (signature : Bytes) (now : Int) : Keeping Follows (grantApproval suite fresh r approval device key signature now) := by
  refine keeping_bind (keeping_of_touching [.requests] (by simp) (touching_grantedRequest (by simp) _ _ _)) fun _ => ?_
  refine keeping_get fun db => ?_
  split
  · exact keeping_throw _
  · refine keeping_bind (keeping_compareAndSetApproval fun a pending => ?_) fun signed => ?_
    · exact follows_granted (of_decide_eq_true pending) _ _ _ _ _
    · split
      · refine keeping_bind (within_modify fun db => approvalsKept_of_eq rfl) fun _ => ?_
        exact keeping_of_touching [] (by simp) (touching_logGranted _ _ _)
      · exact keeping_throw _

theorem act_rule {kind : Kind} {before after : Db} (spends : kind ≠ .spend) (grants : kind ≠ .grant)
    (act : Act suite kind before after) : ApprovalsKept R before after := by
  have frame := act_touches act
  cases act with
  | cancel done => exact keeping_applyCancel _ _ _ _ _ done
  | askReset done =>
    refine keeping_bind ?_ (fun r => keeping_insertApproval (fun id => rfl) fun id => ⟨rfl, rfl⟩) _ _ _ done
    exact keeping_of_touching [.requests] (by simp) (touching_insertRequest (by simp) _)
  | askConfirm done => exact keeping_insertApproval (fun id => rfl) (fun id => ⟨rfl, rfl⟩) _ _ _ done
  | grant done => exact absurd rfl grants
  | endApproval done => exact keeping_endApproval _ _ _ _ done
  | spend done => exact absurd rfl spends
  | runOut done => exact keeping_runOut _ _ _ _ done
  | reject done => exact keeping_endPreclaim _ _ _ _ _ _ done
  | claim done => exact keeping_claimRequest _ _ _ _ _ _ _ _ done
  | confirm done => exact keeping_confirmRequest _ _ _ _ _ _ _ done
  | retire done => exact keeping_retireDevice _ _ _ _ _ done
  | logRetired done =>
    have quiet : Touches [] before after := touching_logDeviceRevoked _ _ _ _ _ done
    exact approvalsKept_of_eq (quiet .approvals (by simp))
  | expire _ done => exact keeping_expireUnclaimed _ _ _ _ _ done
  | complete done => exact keeping_finishCompletion _ _ _ _ _ _ done
  | _ => exact approvalsKept_of_eq (frame .approvals (by simp [touched]))

theorem act_keeps {kind : Kind} {before after : Db} (act : Act suite kind before after) :
    ApprovalsKept Follows before after := by
  by_cases spends : kind = .spend
  · subst spends
    cases act with
    | spend done => exact keeping_spendTry _ _ _ _ _ _ done
  · by_cases grants : kind = .grant
    · subst grants
      cases act with
      | grant done => exact keeping_grantApproval _ _ _ _ _ _ _ _ _ _ done
    · exact act_rule spends grants act

end QVault.Proof.Recovery
