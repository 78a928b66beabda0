import QVault.Proof.Services.Recovery.PhoneRoute

/-!
# The cool-down of a phone

A phone whose reset was cancelled starts no other for a while, as long as no reset of its own is
cancelled while somebody who typed one of its codes is still at work.
-/

namespace QVault.Proof.Recovery
open QVault.Recovery QVault.Python QVault.Crypto Programs Sessions Transactions Relation

variable {suite : Suite} {me : Nat} {before after : Db}

-- The holds of this phone's cancelled resets have run out by then.
def Rested (db : Db) (phone : Nat) (s : Int) : Prop :=
  ∀ q ∈ db.requests.1, q.route = .phone → q.state = .cancelled →
    (∃ a ∈ db.approvals, a.purpose = .webReset ∧ a.requestId = q.id ∧ a.deviceId = phone) →
    ∀ t ∈ q.finishedAt, ∀ h ∈ coolDownFor q.cancelledAs q.cancelReason, t + h ≤ s

instance (db : Db) (phone : Nat) (s : Int) : Decidable (Rested db phone s) :=
  inferInstanceAs (Decidable (∀ q ∈ db.requests.1, q.route = .phone → q.state = .cancelled →
    (∃ a ∈ db.approvals, a.purpose = .webReset ∧ a.requestId = q.id ∧ a.deviceId = phone) →
    ∀ t ∈ q.finishedAt, ∀ h ∈ coolDownFor q.cancelledAs q.cancelReason, t + h ≤ s))

-- Whoever vouched for a phone reset that begins to wait had rested.
def CooledDown (before after : Db) : Prop :=
  ∀ r ∈ after.requests.1, r.route = .phone → r.state = .waiting →
    (∀ old ∈ before.requests.1, old.id = r.id → old.state ≠ .waiting) →
    ∃ s ∈ r.windowStartsAt, ∀ a ∈ after.approvals, a.purpose = .webReset → a.requestId = r.id → Rested before a.deviceId s

instance (before after : Db) : Decidable (CooledDown before after) :=
  inferInstanceAs (Decidable (∀ r ∈ after.requests.1, r.route = .phone → r.state = .waiting →
    (∀ old ∈ before.requests.1, old.id = r.id → old.state ≠ .waiting) →
    ∃ s ∈ r.windowStartsAt, ∀ a ∈ after.approvals, a.purpose = .webReset → a.requestId = r.id → Rested before a.deviceId s))

/-! ## What acts do to rows -/

theorem rows_of_rewrite {r r' : Request} (same : SameRequest r r') (open_ : r.state ≠ .cancelled)
    (found : before.request? r.id = some r) (rows : after.requests.1 = before.requests.1.map (rewrite r.id fun _ => r')) :
    ∀ s ∈ before.requests.1, ∃ s' ∈ after.requests.1, SameRequest s s' ∧ (s.state = .cancelled → s' = s) := by
  intro s listed
  by_cases named : s.id = r.id
  · rw [request_unique listed (request_found found).1 named]
    exact ⟨r', (rewritten_mem rows (request_found found).1).1 rfl, same, fun cancelled => absurd cancelled open_⟩
  · exact ⟨s, (rewritten_mem rows listed).2 named, sameRequest_refl s, fun _ => rfl⟩

theorem act_rows {kind : Kind} (act : Act suite kind before after) :
    ∀ s ∈ before.requests.1, ∃ s' ∈ after.requests.1, SameRequest s s' ∧ (s.state = .cancelled → s' = s) := by
  by_cases confirms : kind = .confirm
  · subst confirms
    cases act with
    | confirm done =>
      obtain ⟨r, completes, found, waiting, _, _, rows⟩ := (confirmRequest_ok done).moved
      have moved := rows.trans (rewrite_found found)
      refine rows_of_rewrite ?_ (by simp [waiting]) (request_of_mem (request_found found).1) moved
      exact ⟨rfl, rfl, rfl, rfl⟩
  by_cases claims : kind = .claim
  · subst claims
    cases act with
    | claim done =>
      obtain ⟨r, r', found, was, same, _, _, _, rows⟩ := (claimRequest_ok done).moved
      exact rows_of_rewrite same (by simp [was]) (request_of_mem (request_found found).1) rows
  cases act_change confirms claims act with
  | beside requests _ => exact fun s listed => ⟨s, requests ▸ listed, sameRequest_refl s, fun _ => rfl⟩
  | opened r _ requests _ =>
    exact fun s listed => ⟨s, requests ▸ List.mem_append_left _ listed, sameRequest_refl s, fun _ => rfl⟩
  | turned r r' entries found turn requests _ =>
    have open_ : r.state ≠ .cancelled := by
      intro cancelled
      have := turn_open turn
      simp [cancelled, RequestState.isEnd] at this
    exact rows_of_rewrite (forward_of_turn turn).1.same open_ found requests

def PhoneWaits (db : Db) (id : Nat) : Prop := ∃ r ∈ db.requests.1, r.id = id ∧ r.route = .phone ∧ r.state = .waiting

-- Only a claim makes a phone reset wait.
theorem act_waits {kind : Kind} (claims : kind ≠ .claim) (act : Act suite kind before after) {id : Nat}
    (waits : PhoneWaits after id) : PhoneWaits before id := by
  obtain ⟨r', listed, named, phone, waits⟩ := waits
  have old : r' ∈ before.requests.1 → PhoneWaits before id := fun known => ⟨r', known, named, phone, waits⟩
  by_cases confirms : kind = .confirm
  · subst confirms
    cases act with
    | confirm done =>
      obtain ⟨r, completes, found, waiting, _, _, rows⟩ := (confirmRequest_ok done).moved
      have moved := rows.trans (rewrite_found found)
      rcases mem_rewritten moved listed with new | ⟨known, _⟩
      · subst new
        exact ⟨r, (request_found found).1, named, phone, waiting⟩
      · exact old known
  cases act_change confirms claims act with
  | beside requests _ => exact old (requests ▸ listed)
  | opened r fresh requests _ =>
    rw [requests, List.mem_append, List.mem_singleton] at listed
    rcases listed with known | new
    · exact old known
    · rcases fresh.phone with ⟨pending, _⟩ | ⟨_, kit, _⟩
      · simp [new, pending] at waits
      · simp [new, kit] at phone
  | turned r s entries found turn requests _ =>
    rcases mem_rewritten requests listed with new | ⟨known, _⟩
    · rw [new] at waits
      cases turn with
      | granted => cases waits
      | ended same _ _ ending =>
        have ended := ending.ended
        simp [waits, RequestState.isEnd] at ended
    · exact old known

theorem act_comparisons {kind : Kind} (act : Act suite kind before after) : before.comparisons ⊆ after.comparisons := by
  by_cases compares : kind = .compare
  · subst compares
    cases act with
    | compare c => exact List.subset_append_left _ _
  · have frame := act_touches act
    have same : after.comparisons = before.comparisons := frame .comparisons (by cases kind <;> simp [touched] at compares ⊢)
    rw [same]
    exact List.Subset.refl _

-- Where no approval is asked for, every row was there.
theorem origin_of_count (kept : ApprovalsKept Follows before after) (ids : ApprovalIds before)
    (count : after.approvals.length = before.approvals.length) :
    ∀ a' ∈ after.approvals, ∃ a ∈ before.approvals, Follows a a' := by
  obtain ⟨ids', follows, _⟩ := kept ids
  have onward : before.approvals.map (·.id) ⊆ after.approvals.map (·.id) := by
    intro id listed
    obtain ⟨a, known, rfl⟩ := List.mem_map.mp listed
    obtain ⟨a', known', step⟩ := follows a known
    exact List.mem_map.mpr ⟨a', known', step.id⟩
  have perm : (before.approvals.map (·.id)).Perm (after.approvals.map (·.id)) :=
    (List.subperm_of_subset ids onward).perm_of_length_le (by simp [count])
  intro a' listed
  obtain ⟨a, known, same⟩ := List.mem_map.mp (perm.mem_iff.mpr (List.mem_map_of_mem listed))
  exact ⟨a, known, follows_of_ids ids' follows known listed same.symm⟩

/-! ## One approval a reset -/

structure Homed (db : Db) : Prop where
  ids : ApprovalIds db
  home : ∀ a ∈ db.approvals, a.purpose = .webReset → ∃ r ∈ db.requests.1, r.id = a.requestId
  one : ∀ a ∈ db.approvals, ∀ b ∈ db.approvals, a.purpose = .webReset → b.purpose = .webReset → a.requestId = b.requestId → a = b

theorem homed_empty : Homed Db.empty := ⟨List.nodup_nil, by simp [Db.empty], by simp [Db.empty]⟩

structure Stays (before after : Db) : Prop where
  approvals : ∀ a ∈ before.approvals, ∃ a' ∈ after.approvals, Follows a a'
  origins : ∀ a' ∈ after.approvals, a'.purpose = .webReset →
    (∃ a ∈ before.approvals, Follows a a') ∨ ∀ r ∈ before.requests.1, r.id ≠ a'.requestId
  rows : ∀ r ∈ before.requests.1, ∃ r' ∈ after.requests.1, SameRequest r r' ∧ (r.state = .cancelled → r' = r)
  comparisons : before.comparisons ⊆ after.comparisons

theorem stays_refl (db : Db) : Stays db db where
  approvals a listed := ⟨a, listed, follows_refl a⟩
  origins a listed _ := .inl ⟨a, listed, follows_refl a⟩
  rows r listed := ⟨r, listed, sameRequest_refl r, fun _ => rfl⟩
  comparisons := List.Subset.refl _

theorem stays_trans {first second third : Db} (one : Stays first second) (two : Stays second third) : Stays first third where
  approvals a listed := by
    obtain ⟨b, listed', follows⟩ := one.approvals a listed
    obtain ⟨c, listed'', follows'⟩ := two.approvals b listed'
    exact ⟨c, listed'', follows_trans follows follows'⟩
  origins c listed purpose := by
    have unknown : (∀ r ∈ second.requests.1, r.id ≠ c.requestId) → ∀ r ∈ first.requests.1, r.id ≠ c.requestId := by
      intro fresh r known same
      obtain ⟨r', known', step, _⟩ := one.rows r known
      exact fresh r' known' (step.id.trans same)
    rcases two.origins c listed purpose with ⟨b, listed', follows⟩ | fresh
    · rcases one.origins b listed' (follows.purpose ▸ purpose) with ⟨a, listed'', follows'⟩ | fresh
      · exact .inl ⟨a, listed'', follows_trans follows' follows⟩
      · exact .inr (follows.request ▸ fresh)
    · exact .inr (unknown fresh)
  rows r listed := by
    obtain ⟨s, listed', same, kept⟩ := one.rows r listed
    obtain ⟨t, listed'', same', kept'⟩ := two.rows s listed'
    refine ⟨t, listed'', sameRequest_trans same same', fun cancelled => ?_⟩
    have still := kept cancelled
    subst still
    exact kept' cancelled
  comparisons := List.Subset.trans one.comparisons two.comparisons

theorem homed_of_origins (homed : Homed before) (ids : ApprovalIds after)
    (rows : ∀ r ∈ before.requests.1, ∃ r' ∈ after.requests.1, SameRequest r r')
    (origins : ∀ a' ∈ after.approvals, ∃ a ∈ before.approvals, Follows a a') : Homed after where
  ids := ids
  home a' listed purpose := by
    obtain ⟨a, known, step⟩ := origins a' listed
    obtain ⟨r, known', named⟩ := homed.home a known (step.purpose ▸ purpose)
    obtain ⟨r', known'', same⟩ := rows r known'
    exact ⟨r', known'', (same.id.trans named).trans step.request.symm⟩
  one a' listed b' listed' purpose purpose' same := by
    obtain ⟨a, known, step⟩ := origins a' listed
    obtain ⟨b, known', step'⟩ := origins b' listed'
    have one := homed.one a known b known' (step.purpose ▸ purpose) (step'.purpose ▸ purpose')
      ((step.request.symm.trans same).trans step'.request)
    exact approval_unique ids listed listed' (step.id.trans ((congrArg _ one).trans step'.id.symm))

theorem askReset_ok {fresh : Fresh} {device : Device} {now : Int} (done : askReset fresh device now before = .ok ((), after)) :
    ∃ r a, after.requests.1 = before.requests.1 ++ [r] ∧ after.approvals = before.approvals ++ [a] ∧ a.requestId = r.id := by
  obtain ⟨r, between, inserted, done⟩ := bind_ok.mp done
  obtain ⟨rows, _, _⟩ := insertRequest_ok inserted
  have touches : Touches [.requests] before between := touching_insertRequest (by simp) _ _ _ _ inserted
  cases done
  refine ⟨r, pendingApproval .webReset device r.id now (nextId (between.approvals.map (·.id))), rows, ?_, rfl⟩
  rw [← touches .approvals (by simp)]

theorem askConfirm_ok {device : Device} {request : Nat} {now : Int}
    (done : insertApproval (pendingApproval .kitConfirm device request now) before = .ok ((), after)) :
    ∃ a, after.requests = before.requests ∧ after.approvals = before.approvals ++ [a] ∧ a.purpose = .kitConfirm := by
  cases done
  exact ⟨pendingApproval .kitConfirm device request now (nextId (before.approvals.map (·.id))), rfl, rfl, rfl⟩

theorem act_stays {kind : Kind} (act : Act suite kind before after) (homed : Homed before) :
    Homed after ∧ Stays before after := by
  have kept : ApprovalsKept Follows before after := act_keeps act
  obtain ⟨ids, follows, _⟩ := kept homed.ids
  have rows := act_rows act
  have comparisons := act_comparisons act
  by_cases asks : kind = .ask
  · subst asks
    cases act with
    | askReset done =>
      obtain ⟨r, a, requests, approvals, named⟩ := askReset_ok done
      have fresh : ∀ old ∈ before.requests.1, old.id ≠ r.id := by
        have nodup := after.requests.2.ids
        rw [requests, List.map_append, List.nodup_append] at nodup
        intro old listed same
        exact nodup.2.2 old.id (List.mem_map_of_mem listed) r.id (by simp) same
      have apart : ∀ b ∈ before.approvals, b.purpose = .webReset → b.requestId ≠ a.requestId := by
        intro b listed purpose same
        obtain ⟨old, known, named'⟩ := homed.home b listed purpose
        exact fresh old known (named'.trans (same.trans named))
      refine ⟨⟨ids, ?_, ?_⟩, follows, ?_, rows, comparisons⟩
      · intro b listed purpose
        rw [approvals, List.mem_append, List.mem_singleton] at listed
        rcases listed with old | new
        · obtain ⟨s, known, named'⟩ := homed.home b old purpose
          exact ⟨s, requests ▸ List.mem_append_left _ known, named'⟩
        · exact ⟨r, by rw [requests]; simp, by rw [new, named]⟩
      · intro b listed c listed' purpose purpose' same
        rw [approvals, List.mem_append, List.mem_singleton] at listed listed'
        rcases listed with old | new <;> rcases listed' with old' | new'
        · exact homed.one b old c old' purpose purpose' same
        · exact absurd (new' ▸ same) (apart b old purpose)
        · exact absurd (new ▸ same.symm) (apart c old' purpose')
        · rw [new, new']
      · intro b listed _
        rw [approvals, List.mem_append, List.mem_singleton] at listed
        rcases listed with old | new
        · exact .inl ⟨b, old, follows_refl b⟩
        · refine .inr fun old known same => fresh old known ?_
          rw [same, new, named]
    | askConfirm done =>
      obtain ⟨a, requests, approvals, kit⟩ := askConfirm_ok done
      have old : ∀ b ∈ after.approvals, b.purpose = .webReset → b ∈ before.approvals := by
        intro b listed purpose
        rw [approvals, List.mem_append, List.mem_singleton] at listed
        rcases listed with old | new
        · exact old
        · simp [new, kit] at purpose
      refine ⟨⟨ids, ?_, ?_⟩, follows, ?_, rows, comparisons⟩
      · intro b listed purpose
        rw [requests]
        exact homed.home b (old b listed purpose) purpose
      · intro b listed c listed' purpose purpose' same
        exact homed.one b (old b listed purpose) c (old c listed' purpose') purpose purpose' same
      · exact fun b listed purpose => .inl ⟨b, old b listed purpose, follows_refl b⟩
  · have frame := act_touches act
    have count : after.approvals.length = before.approvals.length :=
      frame .asking (by cases kind <;> simp [touched] at asks ⊢)
    have origins := origin_of_count kept homed.ids count
    refine ⟨homed_of_origins homed ids ?_ origins, follows, fun a listed _ => .inl (origins a listed), rows, comparisons⟩
    intro r listed
    obtain ⟨r', listed', same, _⟩ := rows r listed
    exact ⟨r', listed', same⟩

/-! ## What a session may do, and what it counts on -/

structure Calm (before after : Db) : Prop where
  stays : Stays before after
  cooled : CooledDown before after

-- No reset of a phone is cancelled whose code this session has typed.
def Undisturbed (me : Nat) (before after : Db) : Prop :=
  ∀ c ∈ before.comparisons, c.session = me → ∀ a ∈ before.approvals, a.id = c.approvalId →
    ∀ q' ∈ after.requests.1, q'.route = .phone → q'.state = .cancelled →
      (∃ b ∈ after.approvals, b.purpose = .webReset ∧ b.requestId = q'.id ∧ b.deviceId = a.deviceId) →
      ∃ q ∈ before.requests.1, q.id = q'.id ∧ q.state = .cancelled

instance (me : Nat) (before after : Db) : Decidable (Undisturbed me before after) :=
  inferInstanceAs (Decidable (∀ c ∈ before.comparisons, c.session = me → ∀ a ∈ before.approvals, a.id = c.approvalId →
    ∀ q' ∈ after.requests.1, q'.route = .phone → q'.state = .cancelled →
      (∃ b ∈ after.approvals, b.purpose = .webReset ∧ b.requestId = q'.id ∧ b.deviceId = a.deviceId) →
      ∃ q ∈ before.requests.1, q.id = q'.id ∧ q.state = .cancelled))

def counting (me : Nat) (who : Option Nat) (before after : Db) : Prop :=
  Calm before after ∧ (who ≠ some me → Undisturbed me before after)

theorem cooled_of_waits (waits : ∀ id, PhoneWaits after id → PhoneWaits before id) : CooledDown before after := by
  intro r listed phone waiting new
  obtain ⟨old, known, same, _, waited⟩ := waits r.id ⟨r, listed, rfl, phone, waiting⟩
  exact absurd waited (new old known same)

theorem acts_calm {kinds : List Kind} (claims : Kind.claim ∉ kinds) (acts : Acts suite kinds before after) (homed : Homed before) :
    Homed after ∧ Calm before after := by
  have kept : Homed after ∧ Stays before after ∧ ∀ id, PhoneWaits after id → PhoneWaits before id := by
    induction acts with
    | refl => exact ⟨homed, stays_refl before, fun _ waits => waits⟩
    | tail _ act ih =>
      obtain ⟨kind, listed, act⟩ := act
      obtain ⟨between, sofar, waits⟩ := ih
      obtain ⟨final, last⟩ := act_stays act between
      refine ⟨final, stays_trans sofar last, fun id later => waits id ?_⟩
      exact act_waits (fun claim => claims (claim ▸ listed)) act later
  exact ⟨kept.1, kept.2.1, cooled_of_waits kept.2.2⟩

theorem calm_refl (db : Db) : Calm db db := ⟨stays_refl db, cooled_of_waits fun _ waits => waits⟩

-- What `claim` knows of the approval it uses
def CalledFor (approval request phone : Nat) (db : Db) : Prop :=
  ∃ a ∈ db.approvals, a.id = approval ∧ a.requestId = request ∧ a.purpose = .webReset ∧ a.deviceId = phone

theorem claim_cools {id approval phone : Nat} {now : Int} (homed : Homed before) (called : CalledFor approval id phone before)
    (rested : Rested before phone now) (claiming : Claiming before after id approval now) : CooledDown before after := by
  obtain ⟨r, r', found, _, same, _, window, _, moved⟩ := claiming.moved
  obtain ⟨known, named⟩ := request_found found
  intro s listed phone' waiting new
  rcases mem_rewritten moved listed with own | ⟨old, _⟩
  · subst own
    refine ⟨now, window, fun a' listed' purpose asked => ?_⟩
    rw [claiming.used.rows] at listed'
    obtain ⟨a, old, rfl⟩ := List.mem_map.mp listed'
    obtain ⟨b, known', _, request, purpose', device⟩ := called
    have fields : (if a.id = approval then { a with state := ApprovalState.used, usedAt := some now } else a).purpose = a.purpose ∧
        (if a.id = approval then { a with state := ApprovalState.used, usedAt := some now } else a).requestId = a.requestId ∧
        (if a.id = approval then { a with state := ApprovalState.used, usedAt := some now } else a).deviceId = a.deviceId := by
      split <;> exact ⟨rfl, rfl, rfl⟩
    obtain ⟨kind, request', device'⟩ := fields
    have one := homed.one a old b known' (kind ▸ purpose) purpose'
      ((request'.symm.trans asked).trans ((same.id.trans named).trans request.symm))
    rw [device', one, device]
    exact rested
  · exact absurd waiting (new s old rfl)

/-! ## What goes on holding -/

def TypedBy (me phone : Nat) (db : Db) : Prop :=
  ∃ c ∈ db.comparisons, c.session = me ∧ ∃ a ∈ db.approvals, a.id = c.approvalId ∧ a.deviceId = phone

theorem typedBy_later {phone : Nat} (stays : Stays before after) (typed : TypedBy me phone before) : TypedBy me phone after := by
  obtain ⟨c, made, mine, a, listed, same, device⟩ := typed
  obtain ⟨a', listed', follows⟩ := stays.approvals a listed
  exact ⟨c, stays.comparisons made, mine, a', listed', follows.id.trans same, follows.device.trans device⟩

theorem calledFor_later {approval request phone : Nat} (stays : Stays before after)
    (called : CalledFor approval request phone before) : CalledFor approval request phone after := by
  obtain ⟨a, listed, same, asked, purpose, device⟩ := called
  obtain ⟨a', listed', follows⟩ := stays.approvals a listed
  exact ⟨a', listed', follows.id.trans same, follows.request.trans asked, follows.purpose.trans purpose,
    follows.device.trans device⟩

-- Where no reset of the phone is newly cancelled, what has run out has run out.
theorem rested_later {phone : Nat} {now : Int} (stays : Stays before after) (typed : TypedBy me phone before)
    (undisturbed : Undisturbed me before after) (rested : Rested before phone now) : Rested after phone now := by
  intro q' listed route cancelled ⟨b', listed', purpose, asked, device⟩ t finished h hold
  obtain ⟨c, made, mine, a, known, same, phone_⟩ := typed
  obtain ⟨q, old, named, was⟩ := undisturbed c made mine a known same q' listed route cancelled
    ⟨b', listed', purpose, asked, device.trans phone_.symm⟩
  obtain ⟨q'', listed'', _, frozen⟩ := stays.rows q old
  have one : q' = q := by
    rw [frozen was] at listed''
    exact request_unique listed listed'' named.symm
  subst one
  rcases stays.origins b' listed' purpose with ⟨b, known', follows⟩ | fresh
  · exact rested q' old route cancelled ⟨b, known', follows.purpose.symm.trans purpose, follows.request.symm.trans asked,
      follows.device.symm.trans device⟩ t finished h hold
  · exact absurd asked.symm (fresh q' old)

/-! ## Sessions -/

abbrev coolly (me : Nat) : Surroundings (Statement Db) (fun _ => Db) Db := around Homed (counting me) me

theorem own_counting {who : Nat} (both : Homed after ∧ Calm before after) : Homed after ∧ counting who (some who) before after :=
  ⟨both.1, both.2, fun other => absurd rfl other⟩

theorem stable_typedBy (phone : Nat) : Stable Homed (counting me) (TypedBy me phone) :=
  fun _ _ _ _ _ done typed => typedBy_later done.1.stays typed

theorem stable_calledFor (approval request phone : Nat) : Stable Homed (counting me) (CalledFor approval request phone) :=
  fun _ _ _ _ _ done called => calledFor_later done.1.stays called

theorem stable_goesOn (approval : Approval) : Stable Homed (counting me) (Onward approval) := by
  rintro who before after _ _ done ⟨a, listed, follows⟩
  obtain ⟨a', listed', follows'⟩ := done.1.stays.approvals a listed
  exact ⟨a', listed', follows_trans follows follows'⟩

theorem stable_anything : Stable Homed (counting me) (fun _ => True) := fun _ _ _ _ _ _ holds => holds

def Watched (me phone : Nat) (now : Int) (db : Db) : Prop := TypedBy me phone db ∧ Rested db phone now

theorem watched_others {phone : Nat} {now : Int} (who : Option Nat) (before after : Db) (other : who ≠ some me)
    (_ : Homed before) (_ : Homed after) (done : counting me who before after) (watched : Watched me phone now before) :
    Watched me phone now after :=
  ⟨typedBy_later done.1.stays watched.1, rested_later done.1.stays watched.1 (done.2 other) watched.2⟩

theorem cool_still {α : Type} {kinds : List Kind} {work : Work α} {store : Db} {memory : Proofs} (claims : Kind.claim ∉ kinds)
    (does : Does suite kinds work) (homed : Homed store) :
    Safe (coolly me) (fun now _ _ => Homed now) work store memory := by
  have safe : Safe (coolly me) _ work store memory :=
    safe_of_keeps (fun _ _ acts holds => own_counting (acts_calm claims acts holds)) stable_anything does (yields_any work)
      homed trivial
  exact safe_mono (fun _ _ _ holds => holds.1.1) safe

theorem cool_reading {α : Type} {post : Db → Proofs → Except Refusal α → Prop} {rest : Db → Work α} {store : Db}
    {memory : Proofs} (then_ : ∀ now, (coolly me).later store now → Safe (coolly me) post (rest now) now memory) :
    Safe (coolly me) post (look >>= rest) store memory :=
  safe_look (fun now _ => ⟨calm_refl now, fun other => absurd rfl other⟩) then_

def Matched (me id : Nat) (now : Db) (result : Except Refusal (Option Approval)) : Prop :=
  Homed now ∧ ∀ a, result = .ok (some a) → a.id = id ∧ Onward a now ∧ TypedBy me a.deviceId now

theorem cool_compareSecret {id : Nat} {secret : Text} {typedAt : Int} {store : Db} {memory : Proofs} :
    Safe (coolly me) (fun now _ result => Matched me id now result) (compareSecret suite me id secret typedAt) store memory := by
  intro now since
  have acts : Acts suite [.compare] now { now with comparisons := now.comparisons ++ [⟨id, me, secret, typedAt⟩] } :=
    acts_one (by simp) (.compare now _)
  have both := acts_calm (by simp) acts since.1
  refine ⟨fun _ => own_counting both, ?_⟩
  rintro answer ⟨_, same⟩
  subst same
  refine ⟨both.1, fun a result => ?_⟩
  obtain ⟨found, _⟩ := Option.filter_eq_some_iff.mp (Except.ok.inj result)
  obtain ⟨listed, named⟩ := approval_found found
  refine ⟨named, ⟨a, listed, follows_refl a⟩, ⟨id, me, secret, typedAt⟩, ?_, rfl, a, listed, named, rfl⟩
  exact List.mem_append_right _ (List.mem_singleton_self _)

theorem cool_tryCode {named : Named} {found : Approval} {code : Text} {typedAt : Int} {store : Db} {memory : Proofs}
    (homed : Homed store) :
    Safe (coolly me) (fun now _ result => Matched me found.id now result)
      (tryCode suite me named (some found) code typedAt) store memory := by
  have spends : Does suite [.lock, .spend] (transact me [] (spendTry me named found.id)) :=
    does_transact (by simp) (act_within (by simp) fun _ _ _ done => .spend done)
  refine safe_bind (cool_still (by simp) spends homed) ?_ (fun _ _ _ homed => ⟨homed, by simp⟩)
  intro now memory took homed
  split
  · exact ⟨homed, by simp⟩
  refine safe_bind cool_compareSecret ?_ (fun _ _ _ holds => ⟨holds.1, by simp⟩)
  rintro now memory matched ⟨homed, right⟩
  cases matched with
  | some approval => exact ⟨homed, fun a same => right a same⟩
  | none =>
    refine cool_reading fun db since => ?_
    split
    · exact ⟨since.1, by simp⟩
    next approval _ =>
    have does : Does suite [.lock, .runOut]
        (if codeTries ≤ approval.tries then transact me [approval.requestId] (runOut approval) else pure ()) := by
      split
      · exact does_transact (by simp) (act_within (by simp) fun _ _ _ done => .runOut done)
      · exact keeps_pure _
    refine safe_bind (cool_still (by simp) does since.1) ?_ ?_
    · exact fun _ _ _ homed => ⟨homed, by simp⟩
    · exact fun _ _ _ homed => ⟨homed, by simp⟩

theorem rested_of_coolingOff {db : Db} {device : Device} {now : Int} (fine : coolingOff db device now = none) :
    Rested db device.id now := by
  intro q listed phone cancelled ⟨a, known, _, asked, mine⟩ t finished h hold
  simp only [coolingOff] at fine
  split at fine
  · cases fine
  next none_ =>
  have found : db.request? a.requestId = some q := by rw [asked]; exact request_of_mem listed
  by_cases recent : now - restartAfterCancel < t
  · have held : coolingHold db now a = some (t + h) := by
      simp only [Option.mem_def] at finished hold
      simp [coolingHold, found, finished, phone, cancelled, recent, hold]
    have member : t + h ∈ (db.approvals.filter fun a => a.deviceId = device.id).filterMap (coolingHold db now) :=
      List.mem_filterMap.mpr ⟨a, List.mem_filter.mpr ⟨known, decide_eq_true mine⟩, held⟩
    by_contra late
    exact none_ (List.any_eq_true.mpr ⟨t + h, member, decide_eq_true (not_le.mp late)⟩)
  · have short : h ≤ restartAfterCancel := by
      simp only [coolDownFor, Option.mem_def] at hold
      have days : restartAfterDoubt ≤ restartAfterCancel := by decide
      split at hold
      · simp only [Option.some.injEq] at hold
        exact hold ▸ le_rfl
      split at hold
      · simp only [Option.some.injEq] at hold
        rw [← hold]
        split
        · exact days
        · exact le_rfl
      split at hold
      · simp only [Option.some.injEq] at hold
        exact hold ▸ days
      · cases hold
    omega

theorem cool_claimRequest {fresh : Fresh} {r : Request} {approval : Approval} {password : Text} {now : Int} {phone : Nat}
    {store : Db} {memory : Proofs} (homed : Homed store) (called : CalledFor approval.id r.id phone store)
    (watched : Watched me phone now store) :
    Safe (coolly me) (fun now _ _ => Homed now)
      (transact me [r.id] (claimRequest suite fresh r approval password now)) store memory := by
  apply safe_commit
  · intro now' _ after since done
    have called := stable_later (stable_calledFor _ _ _) homed since called
    have watched := kept_later watched_others homed since watched
    have act : Act suite .claim now' after := .claim done
    obtain ⟨between, stays⟩ := act_stays act since.1
    have cooled := claim_cools since.1 called watched.2 (claimRequest_ok done)
    obtain ⟨final, released⟩ := act_stays (.lock after _ : Act suite .lock after (after.release me)) between
    exact ⟨⟨final, ⟨stays_trans stays released, cooled⟩, fun other => absurd rfl other⟩, final⟩
  · intro now' error since _
    have acts : Acts suite [.lock] now' (now'.release me) := acts_one (by simp) (.lock now' _)
    have both := acts_calm (by simp) acts since.1
    exact ⟨own_counting both, both.1⟩

theorem calledFor_found {db : Db} {found approval : Approval} {r : Request} {device : Device} (homed : Homed db)
    (purpose : found.purpose = .webReset) (named : approval.id = found.id) (onward : Onward found db)
    (onward' : Onward approval db) (asked : db.request? approval.requestId = some r)
    (known : db.device? approval.deviceId = some device) :
    CalledFor approval.id r.id device.id db ∧ device.id = approval.deviceId := by
  obtain ⟨b, listed, follows⟩ := onward
  obtain ⟨a, listed', follows'⟩ := onward'
  have one := approval_unique homed.ids listed' listed (follows'.id.trans (named.trans follows.id.symm))
  have owned : device.id = approval.deviceId := by simpa using List.find?_some known
  refine ⟨⟨a, listed', follows'.id, follows'.request.trans (request_found asked).2.symm, ?_, follows'.device.trans owned.symm⟩, owned⟩
  rw [one]
  exact follows.purpose.trans purpose

theorem cool_rejected (suite : Suite) {r : Request} {approval : Approval} {reason : Text} {refusal : Refusal} {store : Db} {memory : Proofs}
    (homed : Homed store) :
    Safe (coolly me) (fun now _ _ => Homed now)
      (do transact me [r.id] (endPreclaim r approval reason); (raise refusal : Work Unit)) store memory := by
  have does : Does suite [.lock, .reject] (do transact me [r.id] (endPreclaim r approval reason); (raise refusal : Work Unit)) :=
    keeps_bind (does_transact (by simp) (act_within (by simp) fun _ _ _ done => .reject done)) fun _ => keeps_raise _
  exact cool_still (by simp) does homed

theorem locks_hold (acts : Acts suite [.lock] before after) : ∃ held, after = { before with held := held } := by
  induction acts with
  | refl => exact ⟨before.held, rfl⟩
  | tail _ act ih =>
    obtain ⟨kind, listed, act⟩ := act
    obtain ⟨held, rfl⟩ := ih
    rw [List.mem_singleton.mp listed] at act
    cases act with
    | lock _ held => exact ⟨held, rfl⟩

-- Treasuries are held while the phone is watched.
theorem cool_lockTreasuries (suite : Suite) {userId : Int} {phone : Nat} {now : Int} {approval request : Nat} {store : Db}
    {memory : Proofs} (homed : Homed store) (called : CalledFor approval request phone store)
    (watched : Watched me phone now store) :
    Safe (coolly me) (fun world _ _ => Homed world ∧ CalledFor approval request phone world ∧ Watched me phone now world)
      (lockTreasuries me userId) store memory := by
  have does : Does suite [.lock] (lockTreasuries me userId) := does_lockTreasuries (by simp) _
  have own : ∀ before after, Acts suite [.lock] before after → Homed before →
      CalledFor approval request phone before ∧ Watched me phone now before →
      CalledFor approval request phone after ∧ Watched me phone now after := by
    intro before after acts _ known
    obtain ⟨held, rfl⟩ := locks_hold acts
    exact known
  have others : ∀ who before after, who ≠ some me → Homed before → Homed after → counting me who before after →
      CalledFor approval request phone before ∧ Watched me phone now before →
      CalledFor approval request phone after ∧ Watched me phone now after := by
    intro who before after other start final done known
    exact ⟨calledFor_later done.1.stays known.1, watched_others who before after other start final done known.2⟩
  have kept : Safe (coolly me) _ (lockTreasuries me userId) store memory :=
    safe_of_keeps_own (fun _ _ acts holds => own_counting (acts_calm (by simp) acts holds)) own others does (yields_any _) homed
      ⟨called, watched⟩
  exact safe_mono (fun _ _ _ holds => holds.1) kept

theorem cool_claim {fresh : Fresh} {email code password : Text} {store : Db} {memory : Proofs} (homed : Homed store) :
    Safe (coolly me) (fun now _ _ => Homed now) (claim suite fresh me email code password) store memory := by
  refine cool_reading fun first since => ?_
  have decoded : Safe (coolly me) (fun world _ _ => world = first)
      (orRaise (normaliseCode suite.upper code) : Work Text) first memory := rfl
  refine safe_bind decoded ?_ (fun _ _ _ same => same ▸ since.1)
  rintro first memory typed rfl
  refine cool_reading fun db since' => ?_
  cases chosen : claimable db (suite.lower (strip email)) (splitCode typed).1 first.clock with
  | none => exact since'.1
  | some found =>
    obtain ⟨listed, purpose, _⟩ := claimable_found chosen
    have onward : Onward found db := ⟨found, listed, follows_refl found⟩
    have tried : Safe (coolly me) (fun now _ result => Matched me found.id now result)
        (tryCode suite me (.email (suite.lower (strip email))) (some found) typed first.clock) db memory :=
      cool_tryCode since'.1
    refine safe_bind (safe_knowing (stable_goesOn found) tried since'.1 onward) ?_ (fun _ _ _ holds => holds.1.1)
    rintro world memory result ⟨⟨homed', right⟩, onward⟩
    cases result with
    | none => exact homed'
    | some approval =>
      obtain ⟨named, onward', typed'⟩ := right approval rfl
      refine cool_reading fun last since => ?_
      have onward := stable_later (stable_goesOn found) homed' since onward
      have onward' := stable_later (stable_goesOn approval) homed' since onward'
      have typed' := stable_later (stable_typedBy _) homed' since typed'
      split
      · next r asked =>
        split
        · next device known =>
          obtain ⟨called, owned⟩ := calledFor_found since.1 purpose named onward onward' asked known
          refine cool_reading fun later since' => ?_
          split
          · exact cool_rejected suite since'.1
          next fine =>
          have rested : Rested last device.id first.clock := by
            refine rested_of_coolingOff ?_
            cases cooling : coolingOff last device first.clock with
            | none => rfl
            | some refusal => simp [cooling] at fine
          have watched : Watched me device.id first.clock last := ⟨owned ▸ typed', rested⟩
          have called := stable_later (stable_calledFor _ _ _) since.1 since' called
          have watched := kept_later watched_others since.1 since' watched
          dsimp only
          split
          · exact since'.1
          refine safe_bind (cool_lockTreasuries suite since'.1 called watched) ?_ (fun _ _ _ holds => holds.1)
          rintro held memory _ ⟨homed, called, watched⟩
          refine cool_reading fun final since => ?_
          split
          · exact cool_rejected suite since.1
          · exact cool_claimRequest since.1 (stable_later (stable_calledFor _ _ _) homed since called)
              (kept_later watched_others homed since watched)
        · exact since.1
      · exact since.1

theorem cool_operate {operation : Operation} {store : Db} {memory : Proofs} (homed : Homed store) :
    Safe (coolly me) (fun now _ _ => Homed now) (operate suite me operation) store memory := by
  by_cases claims : Kind.claim ∈ kindsOf operation
  · cases operation with
    | claim fresh email code password => exact cool_claim homed
    | _ => simp [kindsOf] at claims
  · exact cool_still claims (does_operate operation) homed

theorem cool_launch {operation : Operation} {store : Db} {memory : Proofs} (homed : Homed store) :
    Safe (coolly me) (fun now _ _ => Homed now) (launch suite me operation) store memory := by
  have rest : Does suite [.lock, .cancel] (do rollback me; settlePasswordProofs me) :=
    keeps_bind (does_rollback (by simp)) fun _ => does_settlePasswordProofs (by simp) (by simp)
  have tried : Safe (coolly me) (fun now _ _ => Homed now) (discard (attempt (operate suite me operation))) store memory := by
    refine safe_bind (safe_attempt (cool_operate homed)) ?_ ?_
    · rintro world _ _ ⟨inner, _, holds⟩
      exact holds
    · rintro world _ _ ⟨inner, _, holds⟩
      exact holds
  exact safe_bind tried (fun _ _ _ holds => cool_still (by simp) rest holds) fun _ _ _ holds => holds

theorem outside_calm (change : Outside) (homed : Homed before) :
    Homed (change.apply before) ∧ Calm before (change.apply before) ∧ (change.apply before).requests = before.requests := by
  have same : (change.apply before).requests = before.requests ∧ (change.apply before).approvals = before.approvals ∧
      (change.apply before).comparisons = before.comparisons := by
    cases change with
    | logged event =>
      simp only [Outside.apply]
      split <;> exact ⟨rfl, rfl, rfl⟩
    | _ => exact ⟨rfl, rfl, rfl⟩
  obtain ⟨requests, approvals, comparisons⟩ := same
  have origins : ∀ a' ∈ (change.apply before).approvals, ∃ a ∈ before.approvals, Follows a a' :=
    fun a listed => ⟨a, approvals ▸ listed, follows_refl a⟩
  refine ⟨homed_of_origins homed ?_ ?_ origins, ⟨⟨?_, fun a listed _ => .inl (origins a listed), ?_, ?_⟩, ?_⟩, requests⟩
  · rw [ApprovalIds, approvals]
    exact homed.ids
  · exact fun r listed => ⟨r, requests ▸ listed, sameRequest_refl r⟩
  · exact fun a listed => ⟨a, approvals ▸ listed, follows_refl a⟩
  · exact fun r listed => ⟨r, requests ▸ listed, sameRequest_refl r, fun _ => rfl⟩
  · exact comparisons ▸ List.Subset.refl _
  · refine cooled_of_waits fun id waits => ?_
    obtain ⟨r, listed, waiting⟩ := waits
    exact ⟨r, requests ▸ listed, waiting⟩

theorem cool_disciplined (suite : Suite) : DisciplinedFor Homed counting (setup suite) where
  launched _ operation _ homed := safe_mono (fun _ _ _ _ => trivial) (cool_launch homed)
  released index store homed := by
    have acts : Acts suite [.lock] store (store.release index) := acts_one (by simp) (.lock store _)
    exact own_counting (acts_calm (by simp) acts homed)
  changed change store homed := by
    obtain ⟨kept, calm, requests⟩ := outside_calm change homed
    refine ⟨kept, 0, calm, fun _ => ?_⟩
    intro _ _ _ _ _ _ q listed _ cancelled _
    exact ⟨q, requests ▸ listed, rfl, cancelled⟩

/-! ## Runs -/

-- This step cancels no reset of a phone one of whose codes another session under way has typed.
def Gentle (suite : Suite) (system : System) (move : Move) : Prop :=
  ∀ other : Fin system.sessions.length, system.sessions[other].1.isDone = false → actor move ≠ some other.val →
    Undisturbed other system.store (system.step (setup suite) move).store

instance (suite : Suite) (system : System) (move : Move) : Decidable (Gentle suite system move) :=
  inferInstanceAs (Decidable (∀ other : Fin system.sessions.length, system.sessions[other].1.isDone = false →
    actor move ≠ some other.val → Undisturbed other system.store (system.step (setup suite) move).store))

theorem spared_of_gentle {system : System} {move : Move} {any : Nat} (gentle : Gentle suite system move)
    (done : counting any (actor move) system.store (system.step (setup suite) move).store) :
    Spared counting (actor move) system (system.step (setup suite) move).store := by
  intro other session listed running different
  obtain ⟨inside, same⟩ := List.getElem?_eq_some_iff.mp listed
  refine ⟨done.1, fun _ => gentle ⟨other, inside⟩ ?_ different⟩
  simpa [same] using running

def checksum (data : Bytes) : Bytes := [data.foldl (fun sum byte => 31 * sum + byte) 7]

-- Times of the first days of January 1970
def januaryZ (moment : Int) : Text :=
  let twoDigits (n : Int) := natText (n.toNat / 10) ++ natText (n.toNat % 10)
  let s := moment / 1000000
  text "1970-01-" ++ twoDigits (s / 86400 + 1) ++ text "T" ++ twoDigits (s / 3600 % 24) ++ text ":" ++
    twoDigits (s / 60 % 60) ++ text ":" ++ twoDigits (s % 60) ++ text "Z"

def smallSuite : Suite where
  sha256 := checksum
  hashPassword salt password := hexText salt ++ password
  verifyPassword kept password := kept.drop 2 = password
  deriveKek password salt _ := ascii password ++ salt
  encrypt key _ data _ := key ++ data
  decrypt key _ wrapped _ := if key.isPrefixOf wrapped then some (wrapped.drop key.length) else none
  hasSignature algId := algId = newKeyAlg
  signatureSize _ := 1
  sign _ secretKey message := checksum (secretKey ++ message)
  verify _ publicKey message signature := signature = checksum (publicKey ++ message)
  encapsulate seed publicKey := (seed, publicKey ++ seed)
  decapsulate secretKey ciphertext := some (secretKey ++ ciphertext)
  ciphertextSize := 1
  hkdf key info := checksum (key ++ info)
  kitPepper uuid := checksum (ascii uuid)
  kitPkMac := checksum
  phoneCodeTag id uuid secret := checksum (ascii (natText id ++ uuid ++ secret))
  kitCode := some
  lower := id
  upper c := [c]
  isoZ := januaryZ
  sentence _ := "refused"
  activeSignatureAlg := newKeyAlg
  deployment := "00"

def freshFor (uuid code : Text) : Fresh where
  uuid := uuid
  token := ascii uuid
  passwordSalt := [1]
  kekSalt := [2]
  kitSalt := [3]
  nonces _ := [4]
  encapsulation _ := [5]
  publicKey := [6]
  secretKey := [6]
  kemPublicKey := [7]
  kemSecretKey := [7]
  kitCode := "0123456789ABCDEFGHJKMNPQRSTVWXYZ"
  phoneCodes := [code]

def goesOn (session count : Nat) : List Move := List.replicate count (.proceed session)

def begins (session : Nat) (uuid : Text) : List Move :=
  .start (.beginVouching (freshFor uuid "") 1 .webReset "") :: goesOn session 6

def approves (session : Nat) (uuid code signature : Text) : List Move :=
  .start (.approve (freshFor "" code) 1 uuid .webReset signature) :: goesOn session 6

def claims (session : Nat) (code : Text) (count : Nat) : List Move :=
  .start (.claim (freshFor "" "") "ann" code "new") :: goesOn session count

-- One person's phone vouches twice, and the first reset waits.
def twoCodes : List Move :=
  [.start (.registerUser (freshFor "u" "") "ann" "secret")] ++ goesOn 0 4 ++
    [.outside (.enrolDevice 1 newKeyAlg [9] (-days 7) none)] ++
    begins 1 "r1" ++ approves 2 "r1" "AAAABBBBBBBB" "/Q==" ++ begins 3 "r2" ++ approves 4 "r2" "CCCCDDDDDDDD" "Pg==" ++
    claims 5 "AAAABBBBBBBB" 11 ++ [.outside (.time (minutes 1)), .start (.cancelAs 1 "r1")]

-- The first is cancelled, then the second code is typed.
def cancelFirst : List Move :=
  twoCodes ++ goesOn 6 6 ++ [.outside (.time (minutes 2))] ++ claims 7 "CCCCDDDDDDDD" 11

-- The second code is checked before the cancel of the first reset commits, and makes the other wait after it.
def cancelBetween : List Move :=
  twoCodes ++ goesOn 6 3 ++ [.outside (.time (minutes 1 + seconds 1))] ++ claims 7 "CCCCDDDDDDDD" 5 ++ goesOn 6 1 ++ goesOn 7 4

end QVault.Proof.Recovery
