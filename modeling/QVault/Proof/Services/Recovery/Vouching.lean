import QVault.Proof.Services.Recovery.LifecycleRun
import QVault.Proof.Services.Recovery.Identities
import Mathlib.Data.List.Perm.Subperm

/-!
# Who vouched for a reset

A reset by phone waits only once a phone that may vouch for it has signed for it and its code has been
typed, and codes are compared a few times at most.
-/

namespace QVault.Proof.Recovery
open QVault.Recovery QVault.Python QVault.Crypto Programs Sessions Transactions Relation
open QVault.Services (recoverySigningBytes)

variable (suite : Suite)

/-! ## What is known of an approval -/

-- The signature a voucher holds is this phone's, over this approval and this request.
structure Vouches (db : Db) (a : Approval) (v : Voucher) : Prop where
  names : v.approvalId = a.id
  device : v.device.id = a.deviceId
  key : v.key.id = a.keyId
  held : v.device.keyId = v.key.id
  usable : v.device.isUsable v.at_ = true
  paired : v.device.createdAt ≤ v.at_ - minPairedAge
  signing : isDeviceSigningKey suite.hasSignature v.device.ownerId (some v.key) = true
  live : v.at_ < a.expiresAt
  kept : a.signature = some v.signature
  signed : ∃ r ∈ db.requests.1, r.id = a.requestId ∧ r.userId = v.device.ownerId ∧
    (∃ message, recoverySigningBytes (signingInputs suite a r) = .ok message ∧
      suite.verify v.key.algId v.key.publicKey message v.signature = true) ∧
    a.codeTag = some (suite.phoneCodeTag a.id r.uuid v.secret)

-- A secret with the tag of this approval's was typed at a time.
def Typed (db : Db) (a : Approval) (typedAt : Int) : Prop :=
  ∃ r ∈ db.requests.1, r.id = a.requestId ∧ ∃ c ∈ db.comparisons, c.approvalId = a.id ∧ c.typedAt = typedAt ∧
    a.codeTag = some (suite.phoneCodeTag a.id r.uuid c.secret)

-- A phone that could vouch at this time, if it was not revoked since
def PairedBy (db : Db) (a : Approval) (now : Int) : Prop :=
  ∃ d ∈ db.devices, d.id = a.deviceId ∧ d.createdAt ≤ now - minPairedAge ∧ d.expiresAt.all (now < ·) = true

def Vouched (db : Db) (r : Request) : Prop :=
  ∃ a ∈ db.approvals, ∃ v ∈ db.vouchers, a.requestId = r.id ∧ a.purpose = .webReset ∧ a.state = .used ∧
    Vouches suite db a v ∧ ∃ now, a.usedAt = some now ∧ r.windowStartsAt = some now ∧ now < a.expiresAt ∧
      Typed suite db a now ∧ PairedBy db a now

def MeantFor (db : Db) (a : Approval) : Named → Prop
  | .email email => ∃ r ∈ db.requests.1, r.id = a.requestId ∧ ∃ u ∈ db.users, u.id = r.userId ∧ u.email = email
  | .request id => a.requestId = id

def spends (db : Db) (id session : Nat) : Nat := db.spent.countP fun s => s.approvalId = id ∧ s.session = session
def compares (db : Db) (id session : Nat) : Nat := db.comparisons.countP fun c => c.approvalId = id ∧ c.session = session

structure Guarded (db : Db) : Prop where
  ids : ApprovalIds db
  rows : Identifiers db
  vouched : ∀ a ∈ db.approvals, Signed a → ∃ v ∈ db.vouchers, Vouches suite db a v
  genuine : ∀ v ∈ db.vouchers, (∃ d ∈ db.devices, SameDevice v.device d) ∧ ∃ k ∈ db.keys, SameKey v.key k
  claimed : ∀ r ∈ db.requests.1, r.route = .phone → r.windowStartsAt ≠ none → Vouched suite db r
  counted : ∀ a ∈ db.approvals, db.spent.countP (fun s => s.approvalId = a.id) = a.tries ∧ a.tries ≤ codeTries
  meant : ∀ s ∈ db.spent, ∃ a ∈ db.approvals, a.id = s.approvalId ∧ MeantFor db a s.named
  compared : ∀ id session, compares db id session ≤ spends db id session

theorem guarded_empty : Guarded suite Db.empty where
  ids := List.nodup_nil
  rows := identifiers_empty
  vouched := by simp [Db.empty]
  genuine := by simp [Db.empty]
  claimed := by simp [Db.empty]
  counted := by simp [Db.empty]
  meant := by simp [Db.empty]
  compared := by simp [Db.empty, compares]

/-! ## What goes on holding -/

structure Remains (before after : Db) : Prop where
  approvals : ∀ a ∈ before.approvals, ∃ a' ∈ after.approvals, Follows a a'
  requests : ∀ r ∈ before.requests.1, ∃ r' ∈ after.requests.1, SameRequest r r'
  renames : Renames before after
  vouchers : before.vouchers ⊆ after.vouchers
  comparisons : before.comparisons ⊆ after.comparisons

-- What a session counts of its own, no other changes.
structure Moves (who : Option Nat) (before after : Db) : Prop where
  remains : Remains before after
  others : ∀ session, who ≠ some session → ∀ id,
    compares after id session = compares before id session ∧ spends after id session = spends before id session

theorem sameRequest_refl (r : Request) : SameRequest r r := ⟨rfl, rfl, rfl, rfl⟩

theorem sameRequest_trans {first second third : Request} (one : SameRequest first second) (two : SameRequest second third) :
    SameRequest first third :=
  ⟨two.id.trans one.id, two.uuid.trans one.uuid, two.user.trans one.user, two.route.trans one.route⟩

theorem remains_refl (db : Db) : Remains db db where
  approvals a listed := ⟨a, listed, follows_refl a⟩
  requests r listed := ⟨r, listed, sameRequest_refl r⟩
  renames := renames_refl db
  vouchers := List.Subset.refl _
  comparisons := List.Subset.refl _

theorem remains_trans {first second third : Db} (one : Remains first second) (two : Remains second third) :
    Remains first third where
  approvals a listed := by
    obtain ⟨b, listed', follows⟩ := one.approvals a listed
    obtain ⟨c, listed'', follows'⟩ := two.approvals b listed'
    exact ⟨c, listed'', follows_trans follows follows'⟩
  requests r listed := by
    obtain ⟨s, listed', same⟩ := one.requests r listed
    obtain ⟨t, listed'', same'⟩ := two.requests s listed'
    exact ⟨t, listed'', sameRequest_trans same same'⟩
  renames := renames_trans one.renames two.renames
  vouchers := List.Subset.trans one.vouchers two.vouchers
  comparisons := List.Subset.trans one.comparisons two.comparisons

theorem moves_refl (who : Option Nat) (db : Db) : Moves who db db := ⟨remains_refl db, fun _ _ _ => ⟨rfl, rfl⟩⟩

theorem moves_trans {who : Option Nat} {first second third : Db} (one : Moves who first second) (two : Moves who second third) :
    Moves who first third := by
  refine ⟨remains_trans one.remains two.remains, fun session other id => ?_⟩
  obtain ⟨compared, spent⟩ := one.others session other id
  obtain ⟨compared', spent'⟩ := two.others session other id
  exact ⟨compared'.trans compared, spent'.trans spent⟩

variable {suite} {before after : Db}

theorem signingInputs_same {a a' : Approval} {r r' : Request} (follows : Follows a a') (same : SameRequest r r') :
    signingInputs suite a' r' = signingInputs suite a r := by
  simp only [signingInputs, follows.purpose, follows.device, follows.key, follows.expires, same.uuid, same.user]

theorem vouches_later {a a' : Approval} {v : Voucher} (remains : Remains before after) (follows : Follows a a')
    (signed : Signed a) (vouches : Vouches suite before a v) : Vouches suite after a' v := by
  have asked : a.state ≠ .pending := by rcases signed with state | state <;> simp [state]
  obtain ⟨_, signature, tag, _⟩ := follows.signed asked
  obtain ⟨r, listed, named, owner, ⟨message, encoded, verified⟩, issued⟩ := vouches.signed
  obtain ⟨r', listed', same⟩ := remains.requests r listed
  exact {
    names := vouches.names.trans follows.id.symm
    device := vouches.device.trans follows.device.symm
    key := vouches.key.trans follows.key.symm
    held := vouches.held
    usable := vouches.usable
    paired := vouches.paired
    signing := vouches.signing
    live := by rw [follows.expires]; exact vouches.live
    kept := signature.trans vouches.kept
    signed := ⟨r', listed', (same.id.trans named).trans follows.request.symm, same.user.trans owner,
      ⟨message, by rw [signingInputs_same follows same]; exact encoded, verified⟩, by rw [tag, follows.id, same.uuid]; exact issued⟩ }

theorem typed_later {a a' : Approval} {typedAt : Int} (remains : Remains before after) (follows : Follows a a')
    (asked : a.state ≠ .pending) (typed : Typed suite before a typedAt) : Typed suite after a' typedAt := by
  obtain ⟨_, _, tag, _⟩ := follows.signed asked
  obtain ⟨r, listed, named, c, made, on, at_, same⟩ := typed
  obtain ⟨r', listed', same'⟩ := remains.requests r listed
  refine ⟨r', listed', (same'.id.trans named).trans follows.request.symm, c, remains.comparisons made, on.trans follows.id.symm, at_, ?_⟩
  rw [tag, follows.id, same'.uuid]
  exact same

theorem pairedBy_later {a a' : Approval} {now : Int} (remains : Remains before after) (follows : Follows a a')
    (paired : PairedBy before a now) : PairedBy after a' now := by
  obtain ⟨d, listed, named, created, expires⟩ := paired
  obtain ⟨d', listed', same⟩ := remains.renames.devices d listed
  exact ⟨d', listed', (same.id.trans named).trans follows.device.symm, same.created ▸ created, same.expires ▸ expires⟩

theorem vouched_later {r r' : Request} (remains : Remains before after) (same : SameRequest r r')
    (window : r'.windowStartsAt = r.windowStartsAt) (vouched : Vouched suite before r) : Vouched suite after r' := by
  obtain ⟨a, listed, v, held, request, purpose, used, vouches, now, usedAt, opened, live, typed, paired⟩ := vouched
  obtain ⟨a', listed', follows⟩ := remains.approvals a listed
  have frozen := follows.used used
  subst frozen
  exact ⟨a', listed', v, remains.vouchers held, request.trans same.id.symm, purpose, used,
    vouches_later remains follows (.inr used) vouches, now, usedAt, window.trans opened, live,
    typed_later remains follows (by simp [used]) typed, pairedBy_later remains follows paired⟩

theorem meantFor_later {a a' : Approval} {named : Named} (remains : Remains before after) (follows : Follows a a')
    (meant : MeantFor before a named) : MeantFor after a' named := by
  cases named with
  | email email =>
    obtain ⟨r, listed, asked, u, known, owner, address⟩ := meant
    obtain ⟨r', listed', same⟩ := remains.requests r listed
    obtain ⟨u', known', same'⟩ := remains.renames.users u known
    exact ⟨r', listed', (same.id.trans asked).trans follows.request.symm, u', known',
      (same'.id.trans owner).trans same.user.symm, same'.email.trans address⟩
  | request id => exact follows.request.trans meant

theorem genuine_later (remains : Remains before after) {v : Voucher}
    (genuine : (∃ d ∈ before.devices, SameDevice v.device d) ∧ ∃ k ∈ before.keys, SameKey v.key k) :
    (∃ d ∈ after.devices, SameDevice v.device d) ∧ ∃ k ∈ after.keys, SameKey v.key k := by
  obtain ⟨⟨d, listed, same⟩, k, known, same'⟩ := genuine
  obtain ⟨d', listed', next⟩ := remains.renames.devices d listed
  obtain ⟨k', known', next'⟩ := remains.renames.keys k known
  exact ⟨⟨d', listed', next.id.trans same.id, next.owner.trans same.owner, next.key.trans same.key,
    next.created.trans same.created, next.expires.trans same.expires⟩, k', known', next'.id.trans same'.id,
    next'.owner.trans same'.owner, next'.role.trans same'.role, next'.alg.trans same'.alg,
    next'.publicKey.trans same'.publicKey⟩

/-! ## Rows and windows -/

theorem rewritten_rows {r r' : Request} (same : SameRequest r r') (found : before.request? r.id = some r)
    (rows : after.requests.1 = before.requests.1.map (rewrite r.id fun _ => r')) :
    (∀ s ∈ before.requests.1, ∃ s' ∈ after.requests.1, SameRequest s s') ∧
      ∀ s' ∈ after.requests.1, s' = r' ∨ s' ∈ before.requests.1 := by
  obtain ⟨listed, _⟩ := request_found found
  refine ⟨?_, fun s' listed' => (mem_rewritten rows listed').imp id (·.1)⟩
  intro s listed'
  by_cases named : s.id = r.id
  · rw [request_unique listed' listed named]
    exact ⟨r', (rewritten_mem rows listed).1 rfl, same⟩
  · exact ⟨s, (rewritten_mem rows listed').2 named, sameRequest_refl s⟩

-- Requests go on, and none by phone starts to wait.
structure Idle (before after : Db) : Prop where
  rows : ∀ r ∈ before.requests.1, ∃ r' ∈ after.requests.1, SameRequest r r'
  windows : ∀ r' ∈ after.requests.1, r'.route = .phone → r'.windowStartsAt ≠ none →
    ∃ r ∈ before.requests.1, SameRequest r r' ∧ r'.windowStartsAt = r.windowStartsAt

theorem idle_of_eq (same : after.requests = before.requests) : Idle before after where
  rows r listed := ⟨r, same ▸ listed, sameRequest_refl r⟩
  windows r listed _ _ := ⟨r, same ▸ listed, sameRequest_refl r, rfl⟩

theorem idle_of_rewrite {r r' : Request} (same : SameRequest r r') (window : r'.windowStartsAt = r.windowStartsAt)
    (found : before.request? r.id = some r)
    (rows : after.requests.1 = before.requests.1.map (rewrite r.id fun _ => r')) : Idle before after := by
  obtain ⟨onward, back⟩ := rewritten_rows same found rows
  refine ⟨onward, fun s' listed' _ _ => ?_⟩
  rcases back s' listed' with new | old
  · exact ⟨r, (request_found found).1, new ▸ same, new ▸ window⟩
  · exact ⟨s', old, sameRequest_refl s', rfl⟩

theorem idle_of_change (change : Change before after) : Idle before after := by
  cases change with
  | beside requests _ => exact idle_of_eq requests
  | opened r fresh requests _ =>
    refine ⟨fun s listed => ⟨s, requests ▸ List.mem_append_left _ listed, sameRequest_refl s⟩, ?_⟩
    intro s listed phone window
    rw [requests, List.mem_append] at listed
    rcases listed with old | new
    · exact ⟨s, old, sameRequest_refl s, rfl⟩
    · rw [List.mem_singleton.mp new] at phone window
      rcases fresh.phone with ⟨_, none_, _⟩ | ⟨_, kit, _⟩
      · exact absurd none_ window
      · simp [kit] at phone
  | turned r r' entries found turn requests _ =>
    cases turn with
    | granted =>
      refine idle_of_rewrite ?_ ?_ found requests
      · exact ⟨rfl, rfl, rfl, rfl⟩
      · rfl
    | ended same window _ _ => exact idle_of_rewrite same window found requests

theorem idle_of_confirming {id approval : Nat} {shorter now : Int} (confirming : Confirming before after id approval shorter now) :
    Idle before after := by
  obtain ⟨r, _, found, _, _, _, rows⟩ := confirming.moved
  have moved := rows.trans (rewrite_found found)
  refine idle_of_rewrite ?_ ?_ (request_of_mem (request_found found).1) moved
  · exact ⟨rfl, rfl, rfl, rfl⟩
  · rfl

theorem act_idle {kind : Kind} (claims : kind ≠ .claim) (act : Act suite kind before after) : Idle before after := by
  by_cases confirms : kind = .confirm
  · subst confirms
    cases act with
    | confirm done => exact idle_of_confirming (confirmRequest_ok done)
  · exact idle_of_change (act_change confirms claims act)

/-! ## Acts that sign, try and claim nothing -/

theorem guarded_of_remains (guarded : Guarded suite before) (ids : ApprovalIds after) (rows : Identifiers after)
    (remains : Remains before after) (back : ∀ a' ∈ after.approvals, (∃ a ∈ before.approvals, Ages a a') ∨ Asked Ages before a')
    (windows : ∀ r' ∈ after.requests.1, r'.route = .phone → r'.windowStartsAt ≠ none →
      (∃ r ∈ before.requests.1, SameRequest r r' ∧ r'.windowStartsAt = r.windowStartsAt) ∨ Vouched suite after r')
    (vouchers : after.vouchers = before.vouchers) (spent : after.spent = before.spent)
    (comparisons : after.comparisons = before.comparisons) : Guarded suite after where
  ids := ids
  rows := rows
  vouched := by
    intro a' listed signed
    rcases back a' listed with ⟨a, listed', ages⟩ | ⟨first, pending, _, _, ages⟩
    · obtain ⟨v, held, vouches⟩ := guarded.vouched a listed' (ages.signed signed)
      exact ⟨v, remains.vouchers held, vouches_later remains ages.follows (ages.signed signed) vouches⟩
    · rcases ages.signed signed with state | state <;> simp [pending] at state
  genuine := by
    intro v held
    exact genuine_later remains (guarded.genuine v (vouchers ▸ held))
  claimed := by
    intro r' listed phone window
    rcases windows r' listed phone window with ⟨r, listed', same, opened⟩ | vouched
    · exact vouched_later remains same opened (guarded.claimed r listed' (same.route ▸ phone) (opened ▸ window))
    · exact vouched
  counted := by
    intro a' listed
    rw [spent]
    rcases back a' listed with ⟨a, listed', ages⟩ | ⟨first, _, none_, new, ages⟩
    · obtain ⟨count, bound⟩ := guarded.counted a listed'
      rw [ages.follows.id, ages.tries]
      exact ⟨count, bound⟩
    · rw [ages.tries, none_, List.countP_eq_zero]
      refine ⟨?_, Nat.zero_le _⟩
      intro s known same
      obtain ⟨a, listed', named, _⟩ := guarded.meant s known
      exact new a listed' ((named.trans (of_decide_eq_true same)).trans ages.follows.id)
  meant := by
    intro s known
    rw [spent] at known
    obtain ⟨a, listed, named, meant⟩ := guarded.meant s known
    obtain ⟨a', listed', follows⟩ := remains.approvals a listed
    exact ⟨a', listed', follows.id.trans named, meantFor_later remains follows meant⟩
  compared := by
    intro id session
    rw [compares, spends, comparisons, spent]
    exact guarded.compared id session

theorem moves_of_eq (who : Option Nat) (remains : Remains before after) (spent : after.spent = before.spent)
    (comparisons : after.comparisons = before.comparisons) : Moves who before after := by
  refine ⟨remains, fun session _ id => ?_⟩
  rw [compares, spends, comparisons, spent]
  exact ⟨rfl, rfl⟩

def vouchingKinds : List Kind := [.grant, .spend, .compare, .claim]

theorem act_moves {kind : Kind} (who : Option Nat) (quiet : kind ∉ vouchingKinds) (act : Act suite kind before after)
    (guarded : Guarded suite before) : Guarded suite after ∧ Moves who before after := by
  simp only [vouchingKinds, List.mem_cons, List.not_mem_nil, or_false, not_or] at quiet
  obtain ⟨grants, spends, compares, claims⟩ := quiet
  have frame := act_touches act
  have aged : ApprovalsKept Ages before after := act_rule spends grants act
  obtain ⟨ids, kept, back⟩ := aged guarded.ids
  obtain ⟨rows, renames⟩ := act_identified act guarded.rows
  have idle := act_idle claims act
  have vouchers : after.vouchers = before.vouchers := frame .vouchers (by cases kind <;> simp [touched] at grants ⊢)
  have spent : after.spent = before.spent := frame .spent (by cases kind <;> simp [touched] at spends ⊢)
  have comparisons : after.comparisons = before.comparisons := frame .comparisons (by cases kind <;> simp [touched] at compares ⊢)
  have remains : Remains before after := by
    refine ⟨?_, idle.rows, renames, vouchers ▸ List.Subset.refl _, comparisons ▸ List.Subset.refl _⟩
    intro a listed
    obtain ⟨a', listed', ages⟩ := kept a listed
    exact ⟨a', listed', ages.follows⟩
  refine ⟨?_, moves_of_eq who remains spent comparisons⟩
  exact guarded_of_remains guarded ids rows remains back (fun r' listed phone window => .inl (idle.windows r' listed phone window))
    vouchers spent comparisons

theorem acts_move {kinds : List Kind} (who : Option Nat) (quiet : ∀ kind ∈ kinds, kind ∉ vouchingKinds)
    (acts : Acts suite kinds before after) (guarded : Guarded suite before) : Guarded suite after ∧ Moves who before after := by
  induction acts with
  | refl => exact ⟨guarded, moves_refl who before⟩
  | tail _ act ih =>
    obtain ⟨kind, listed, act⟩ := act
    obtain ⟨between, sofar⟩ := ih
    obtain ⟨final, last⟩ := act_moves who (quiet kind listed) act between
    exact ⟨final, moves_trans sofar last⟩

end QVault.Proof.Recovery
