import QVault.Proof.Services.Recovery.Vouching

/-!
# Vouching in every run
-/

namespace QVault.Proof.Recovery
open QVault.Recovery QVault.Python QVault.Crypto Programs Sessions Transactions Relation
open QVault.Services (recoverySigningBytes)

variable {suite : Suite} {me : Nat} {before after : Db}

/-! ## A try is spent, then a secret compared -/

theorem spendTry_ok {session id : Nat} {named : Named} {b : Bool} (done : spendTry session named id before = .ok (b, after)) :
    (b = false ∧ after = before) ∨ (b = true ∧
      (∃ a, before.approval? id = some a ∧ a.state = .approved ∧ a.tries < codeTries) ∧
      after = { before with
        approvals := before.approvals.map fun a => if a.id = id then { a with tries := a.tries + 1 } else a
        spent := before.spent ++ [⟨id, session, named⟩] }) := by
  obtain ⟨took, written, cas, done⟩ := bind_ok.mp done
  rcases compareAndSetApproval_ok cas with ⟨no, same⟩ | ⟨yes, ⟨a, found, matched⟩, rows⟩
  · simp only [no] at done
    cases done
    exact .inl ⟨rfl, same⟩
  · simp only [yes] at done
    cases done
    subst rows
    obtain ⟨approved, below⟩ := Bool.and_eq_true_iff.mp matched
    exact .inr ⟨rfl, ⟨a, found, of_decide_eq_true approved, of_decide_eq_true below⟩, rfl⟩

def MeantRow (id : Nat) (named : Named) (db : Db) : Prop := ∃ a ∈ db.approvals, a.id = id ∧ MeantFor db a named

structure Still (before after : Db) : Prop where
  users : after.users = before.users
  keys : after.keys = before.keys
  devices : after.devices = before.devices
  requests : after.requests = before.requests

theorem remains_of_still (still : Still before after) (approvals : ∀ a ∈ before.approvals, ∃ a' ∈ after.approvals, Follows a a')
    (vouchers : before.vouchers ⊆ after.vouchers) (comparisons : before.comparisons ⊆ after.comparisons) : Remains before after where
  approvals := approvals
  requests r listed := ⟨r, still.requests ▸ listed, sameRequest_refl r⟩
  renames := by
    refine ⟨?_, ?_, ?_⟩
    · rw [still.users]
      exact (renames_refl before).users
    · rw [still.keys]
      exact (renames_refl before).keys
    · rw [still.devices]
      exact (renames_refl before).devices
  vouchers := vouchers
  comparisons := comparisons

theorem identifiers_of_still (still : Still before after) (ids : Identifiers before) : Identifiers after :=
  ⟨still.users ▸ ids.users, still.keys ▸ ids.keys, still.devices ▸ ids.devices⟩

theorem claimed_of_still (still : Still before after) (remains : Remains before after) (guarded : Guarded suite before) :
    ∀ r ∈ after.requests.1, r.route = .phone → r.windowStartsAt ≠ none → Vouched suite after r := by
  intro r listed phone window
  rw [still.requests] at listed
  exact vouched_later remains (sameRequest_refl r) rfl (guarded.claimed r listed phone window)

theorem follows_of_ids (ids : ApprovalIds after) (follows : ∀ a ∈ before.approvals, ∃ a' ∈ after.approvals, Follows a a')
    {a a' : Approval} (listed : a ∈ before.approvals) (listed' : a' ∈ after.approvals) (same : a'.id = a.id) : Follows a a' := by
  obtain ⟨b, known, step⟩ := follows a listed
  rw [approval_unique ids listed' known (same.trans step.id.symm)]
  exact step

theorem spends_append (id session : Nat) (s : Spending) (written : after.spent = before.spent ++ [s]) :
    spends after id session = spends before id session + if s.approvalId = id ∧ s.session = session then 1 else 0 := by
  simp [spends, written, List.countP_append, List.countP_singleton]

theorem compares_append (id session : Nat) (c : Comparison) (written : after.comparisons = before.comparisons ++ [c]) :
    compares after id session = compares before id session + if c.approvalId = id ∧ c.session = session then 1 else 0 := by
  simp [compares, written, List.countP_append, List.countP_singleton]

theorem spend_moves {id : Nat} {named : Named} (guarded : Guarded suite before) (meant : MeantRow id named before)
    (bound : ∃ a, before.approval? id = some a ∧ a.state = .approved ∧ a.tries < codeTries)
    (written : after = { before with
      approvals := before.approvals.map fun a => if a.id = id then { a with tries := a.tries + 1 } else a
      spent := before.spent ++ [⟨id, me, named⟩] })
    (kept : ApprovalsKept Follows before after) :
    (Guarded suite after ∧ Moves (some me) before after) ∧ compares after id me < spends after id me := by
  obtain ⟨ids, follows, _⟩ := kept guarded.ids
  obtain ⟨row, found, _, below⟩ := bound
  obtain ⟨listed, named'⟩ := approval_found found
  have still : Still before after := by rw [written]; exact ⟨rfl, rfl, rfl, rfl⟩
  have spent : after.spent = before.spent ++ [⟨id, me, named⟩] := by rw [written]
  have comparisons : after.comparisons = before.comparisons := by rw [written]
  have vouchers : after.vouchers = before.vouchers := by rw [written]
  have remains := remains_of_still still follows (vouchers ▸ List.Subset.refl _) (comparisons ▸ List.Subset.refl _)
  have compared : ∀ other session, compares after other session = compares before other session := by
    intro other session
    rw [compares, compares, comparisons]
  have back : ∀ a' ∈ after.approvals, ∃ a ∈ before.approvals, a'.id = a.id ∧ a'.state = a.state ∧
      a'.tries = a.tries + if a.id = id then 1 else 0 := by
    intro a' listed'
    rw [written] at listed'
    obtain ⟨a, old, same⟩ := List.mem_map.mp listed'
    refine ⟨a, old, ?_⟩
    rw [← same]
    split <;> exact ⟨rfl, rfl, rfl⟩
  refine ⟨⟨?_, remains, ?_⟩, ?_⟩
  · exact {
      ids := ids
      rows := identifiers_of_still still guarded.rows
      vouched := by
        intro a' listed' signed
        obtain ⟨a, old, same, state, _⟩ := back a' listed'
        have signed' : Signed a := by rwa [Signed, ← state]
        obtain ⟨v, held, vouches⟩ := guarded.vouched a old signed'
        exact ⟨v, remains.vouchers held, vouches_later remains (follows_of_ids ids follows old listed' same) signed' vouches⟩
      genuine := fun v held => genuine_later remains (guarded.genuine v (vouchers ▸ held))
      claimed := claimed_of_still still remains guarded
      counted := by
        intro a' listed'
        obtain ⟨a, old, same, _, tries⟩ := back a' listed'
        obtain ⟨count, most⟩ := guarded.counted a old
        rw [spent, List.countP_append, List.countP_singleton, same, count, tries]
        by_cases own : a.id = id
        · rw [approval_unique guarded.ids old listed (own.trans named'.symm)] at most ⊢
          simp [named']
          omega
        · have other : ¬ id = a.id := fun same => own same.symm
          simp [own, other, most]
      meant := by
        intro s known
        rw [spent, List.mem_append, List.mem_singleton] at known
        rcases known with old | new
        · obtain ⟨a, known, named', meant⟩ := guarded.meant s old
          obtain ⟨a', known', step⟩ := follows a known
          exact ⟨a', known', step.id.trans named', meantFor_later remains step meant⟩
        · obtain ⟨a, known, named', meant⟩ := meant
          obtain ⟨a', known', step⟩ := follows a known
          rw [new]
          exact ⟨a', known', step.id.trans named', meantFor_later remains step meant⟩
      compared := by
        intro other session
        have bound := guarded.compared other session
        rw [compared, spends_append other session _ spent]
        omega }
  · intro session other which
    have different : ¬(id = which ∧ me = session) := fun both => other (congrArg some both.2)
    refine ⟨compared which session, ?_⟩
    rw [spends_append which session _ spent]
    simp [different]
  · have bound := guarded.compared id me
    rw [compared, spends_append id me _ spent]
    simp
    omega

theorem compare_moves {id : Nat} {c : Comparison} (guarded : Guarded suite before)
    (credit : compares before id me < spends before id me) (named : c.approvalId = id ∧ c.session = me)
    (written : after = { before with comparisons := before.comparisons ++ [c] }) :
    Guarded suite after ∧ Moves (some me) before after := by
  have still : Still before after := by rw [written]; exact ⟨rfl, rfl, rfl, rfl⟩
  have approvals : after.approvals = before.approvals := by rw [written]
  have spent : after.spent = before.spent := by rw [written]
  have comparisons : after.comparisons = before.comparisons ++ [c] := by rw [written]
  have vouchers : after.vouchers = before.vouchers := by rw [written]
  have follows : ∀ a ∈ before.approvals, ∃ a' ∈ after.approvals, Follows a a' :=
    fun a listed => ⟨a, approvals ▸ listed, follows_refl a⟩
  have remains := remains_of_still still follows (vouchers ▸ List.Subset.refl _)
    (comparisons ▸ List.subset_append_left _ _)
  have counted : ∀ other session, spends after other session = spends before other session := by
    intro other session
    rw [spends, spends, spent]
  refine ⟨?_, remains, ?_⟩
  · exact {
      ids := by rw [ApprovalIds, approvals]; exact guarded.ids
      rows := identifiers_of_still still guarded.rows
      vouched := by
        intro a listed signed
        obtain ⟨v, held, vouches⟩ := guarded.vouched a (approvals ▸ listed) signed
        exact ⟨v, remains.vouchers held, vouches_later remains (follows_refl a) signed vouches⟩
      genuine := fun v held => genuine_later remains (guarded.genuine v (vouchers ▸ held))
      claimed := claimed_of_still still remains guarded
      counted := by
        rw [approvals, spent]
        exact guarded.counted
      meant := by
        intro s known
        obtain ⟨a, listed, named, meant⟩ := guarded.meant s (spent ▸ known)
        exact ⟨a, approvals ▸ listed, named, meantFor_later remains (follows_refl a) meant⟩
      compared := by
        intro other session
        have bound := guarded.compared other session
        rw [compares_append other session _ comparisons, counted]
        split
        · next same =>
          obtain ⟨own, mine⟩ := same
          rw [named.1] at own
          rw [named.2] at mine
          subst own mine
          omega
        · exact bound }
  · intro session other which
    have different : ¬(c.approvalId = which ∧ c.session = session) := fun both => other (congrArg some (named.2.symm.trans both.2))
    refine ⟨?_, counted which session⟩
    rw [compares_append which session _ comparisons]
    simp [different]

/-! ## A phone signs -/

-- What `approve` has checked of what it was given
structure Signable (suite : Suite) (approval : Approval) (r : Request) (device : Device) (key : Key) (signature : Bytes)
    (now : Int) : Prop where
  request : r.id = approval.requestId
  owner : r.userId = device.ownerId
  ofDevice : device.id = approval.deviceId
  ofKey : key.id = approval.keyId
  held : device.keyId = key.id
  usable : device.isUsable now = true
  paired : device.createdAt ≤ now - minPairedAge
  signing : isDeviceSigningKey suite.hasSignature device.ownerId (some key) = true
  live : now < approval.expiresAt
  verified : ∃ message, recoverySigningBytes (signingInputs suite approval r) = .ok message ∧
    suite.verify key.algId key.publicKey message signature = true

-- Its rows as they are since
structure Rooted (approval : Approval) (r : Request) (device : Device) (key : Key) (db : Db) : Prop where
  onward : ∃ a ∈ db.approvals, Follows approval a
  request : ∃ r' ∈ db.requests.1, SameRequest r r'
  genuine : (∃ d ∈ db.devices, SameDevice device d) ∧ ∃ k ∈ db.keys, SameKey key k

theorem rooted_later {approval : Approval} {r : Request} {device : Device} {key : Key} (remains : Remains before after)
    (rooted : Rooted approval r device key before) : Rooted approval r device key after where
  onward := by
    obtain ⟨a, listed, follows⟩ := rooted.onward
    obtain ⟨a', listed', follows'⟩ := remains.approvals a listed
    exact ⟨a', listed', follows_trans follows follows'⟩
  request := by
    obtain ⟨s, listed, same⟩ := rooted.request
    obtain ⟨t, listed', same'⟩ := remains.requests s listed
    exact ⟨t, listed', sameRequest_trans same same'⟩
  genuine := genuine_later remains (v := ⟨0, device, key, [], [], 0⟩) rooted.genuine

structure Granting (suite : Suite) (before after : Db) (r : Request) (approval : Approval) (device : Device) (key : Key)
    (signature : Bytes) (now : Int) (selector secret : Text) : Prop where
  pending : ∃ a, before.approval? approval.id = some a ∧ a.state = .pending
  rows : after.approvals = before.approvals.map fun a => if a.id = approval.id then
    { a with
      state := .approved, approvedAt := some now, codeSelector := some selector
      codeTag := some (suite.phoneCodeTag approval.id r.uuid secret)
      signatureSha256 := some (sha256Hex suite.sha256 signature), signature := some signature } else a
  vouchers : after.vouchers = before.vouchers ++ [⟨approval.id, device, key, signature, secret, now⟩]

theorem grantApproval_ok {fresh : Fresh} {r : Request} {approval : Approval} {device : Device} {key : Key} {signature : Bytes}
    {now : Int} (done : grantApproval suite fresh r approval device key signature now before = .ok ((), after)) :
    ∃ selector secret, Granting suite before after r approval device key signature now selector secret := by
  obtain ⟨_, between, granted, done⟩ := bind_ok.mp done
  have first : Touches [.requests] before between := touching_grantedRequest (by simp) _ _ _ _ _ _ granted
  obtain ⟨db, _, read, done⟩ := bind_ok.mp done
  cases read
  cases drawn : unusedCode between fresh.phoneCodes now with
  | error refusal =>
    simp only [drawn] at done
    cases done
  | ok code =>
    simp only [drawn] at done
    obtain ⟨signed, written, cas, done⟩ := bind_ok.mp done
    rcases compareAndSetApproval_ok cas with ⟨no, _⟩ | ⟨yes, ⟨a, found, pending⟩, rows⟩
    · simp only [no] at done
      cases done
    · simp only [yes] at done
      obtain ⟨_, noted, note, logged⟩ := bind_ok.mp done
      cases note
      have last : Touches [] _ after := touching_logGranted _ _ _ _ _ _ logged
      refine ⟨(splitCode code).1, (splitCode code).2, ⟨a, ?_, of_decide_eq_true pending⟩, ?_, ?_⟩
      · rw [← found, Db.approval?, Db.approval?, first .approvals (by simp)]
      · rw [last .approvals (by simp), rows, first .approvals (by simp)]
      · rw [last .vouchers (by simp), rows, first .vouchers (by simp)]

theorem grant_moves {r : Request} {approval : Approval} {device : Device} {key : Key} {signature : Bytes} {now : Int}
    {selector secret : Text} (guarded : Guarded suite before) (signable : Signable suite approval r device key signature now)
    (rooted : Rooted approval r device key before) (kept : ApprovalsKept Follows before after) (idle : Idle before after)
    (still : after.users = before.users ∧ after.keys = before.keys ∧ after.devices = before.devices)
    (spent : after.spent = before.spent) (comparisons : after.comparisons = before.comparisons)
    (granting : Granting suite before after r approval device key signature now selector secret) :
    Guarded suite after ∧ Moves (some me) before after := by
  obtain ⟨ids, follows, _⟩ := kept guarded.ids
  obtain ⟨users, keys, devices⟩ := still
  obtain ⟨row, found, pending⟩ := granting.pending
  obtain ⟨listed, named⟩ := approval_found found
  have identified : Identified before after := identified_of_eq users keys devices
  obtain ⟨rows, renames⟩ := identified guarded.rows
  have remains : Remains before after := by
    refine ⟨follows, idle.rows, renames, ?_, comparisons ▸ List.Subset.refl _⟩
    rw [granting.vouchers]
    exact List.subset_append_left _ _
  have back : ∀ a' ∈ after.approvals, ∃ a ∈ before.approvals, a'.id = a.id ∧ a'.tries = a.tries ∧
      (a.id ≠ approval.id → a' = a) ∧ (a.id = approval.id → a'.signature = some signature ∧
        a'.codeTag = some (suite.phoneCodeTag approval.id r.uuid secret)) := by
    intro a' listed'
    rw [granting.rows] at listed'
    obtain ⟨a, old, same⟩ := List.mem_map.mp listed'
    refine ⟨a, old, ?_⟩
    rw [← same]
    by_cases own : a.id = approval.id
    · simp [own]
    · simp [own]
  refine ⟨?_, moves_of_eq _ remains spent comparisons⟩
  exact {
    ids := ids
    rows := rows
    vouched := by
      intro a' listed' signed
      obtain ⟨a, old, same, _, other, own⟩ := back a' listed'
      have step := follows_of_ids ids follows old listed' same
      by_cases mine : a.id = approval.id
      · obtain ⟨kept, tag⟩ := own mine
        obtain ⟨b, known, onward⟩ := rooted.onward
        have first := approval_unique guarded.ids known old (onward.id.trans mine.symm)
        subst first
        have whole := follows_trans onward step
        obtain ⟨r', listed'', same'⟩ := rooted.request
        obtain ⟨r'', listed₃, same''⟩ := idle.rows r' listed''
        have names := sameRequest_trans same' same''
        obtain ⟨message, encoded, verified⟩ := signable.verified
        refine ⟨⟨approval.id, device, key, signature, secret, now⟩, by rw [granting.vouchers]; simp, ?_⟩
        exact {
          names := whole.id.symm
          device := signable.ofDevice.trans whole.device.symm
          key := signable.ofKey.trans whole.key.symm
          held := signable.held
          usable := signable.usable
          paired := signable.paired
          signing := signable.signing
          live := by rw [whole.expires]; exact signable.live
          kept := kept
          signed := ⟨r'', listed₃, (names.id.trans signable.request).trans whole.request.symm,
            names.user.trans signable.owner, ⟨message, by rw [signingInputs_same whole names]; exact encoded, verified⟩,
            by rw [tag, whole.id, names.uuid]⟩ }
      · rw [other mine] at signed ⊢
        obtain ⟨v, held, vouches⟩ := guarded.vouched a old signed
        exact ⟨v, remains.vouchers held, vouches_later remains (follows_refl a) signed vouches⟩
    genuine := by
      intro v held
      rw [granting.vouchers, List.mem_append, List.mem_singleton] at held
      rcases held with old | new
      · exact genuine_later remains (guarded.genuine v old)
      · rw [new]
        exact (rooted_later remains rooted).genuine
    claimed := by
      intro r' listed' phone window
      obtain ⟨s, old, same, opened⟩ := idle.windows r' listed' phone window
      exact vouched_later remains same opened (guarded.claimed s old (same.route ▸ phone) (opened ▸ window))
    counted := by
      intro a' listed'
      obtain ⟨a, old, same, tries, _⟩ := back a' listed'
      rw [spent, same, tries]
      exact guarded.counted a old
    meant := by
      intro s known
      rw [spent] at known
      obtain ⟨a, known, named', meant⟩ := guarded.meant s known
      obtain ⟨a', known', step⟩ := follows a known
      exact ⟨a', known', step.id.trans named', meantFor_later remains step meant⟩
    compared := by
      intro id session
      rw [compares, spends, comparisons, spent]
      exact guarded.compared id session }

/-! ## A code is claimed -/

-- What `claim` knows of the approval whose code was typed
def Claimable (suite : Suite) (approval request : Nat) (now : Int) (db : Db) : Prop :=
  ∃ a ∈ db.approvals, a.id = approval ∧ a.requestId = request ∧ a.purpose = .webReset ∧ a.state ≠ .pending ∧
    Typed suite db a now ∧ PairedBy db a now

theorem claim_moves {id approval : Nat} {now : Int} (guarded : Guarded suite before)
    (claimable : Claimable suite approval id now before) (kept : ApprovalsKept Ages before after)
    (still : after.users = before.users ∧ after.keys = before.keys ∧ after.devices = before.devices)
    (vouchers : after.vouchers = before.vouchers) (spent : after.spent = before.spent)
    (comparisons : after.comparisons = before.comparisons) (claiming : Claiming before after id approval now) :
    Guarded suite after ∧ Moves (some me) before after := by
  obtain ⟨ids, aged, back⟩ := kept guarded.ids
  obtain ⟨users, keys, devices⟩ := still
  have identified : Identified before after := identified_of_eq users keys devices
  obtain ⟨rows, renames⟩ := identified guarded.rows
  obtain ⟨r, r', found, _, same, _, window, _, moved⟩ := claiming.moved
  obtain ⟨listed, named⟩ := request_found found
  obtain ⟨onward, origin⟩ := rewritten_rows same (request_of_mem listed) moved
  have remains : Remains before after := by
    refine ⟨?_, onward, renames, vouchers ▸ List.Subset.refl _, comparisons ▸ List.Subset.refl _⟩
    intro a known
    obtain ⟨a', known', ages⟩ := aged a known
    exact ⟨a', known', ages.follows⟩
  obtain ⟨a, known, which, request, purpose, _, typed, paired⟩ := claimable
  obtain ⟨row, found', approved, live⟩ := claiming.used.approved
  obtain ⟨known', which'⟩ := approval_found found'
  have one := approval_unique guarded.ids known' known (which'.trans which.symm)
  subst one
  obtain ⟨v, held, vouches⟩ := guarded.vouched row known (.inl approved)
  have used : { row with state := ApprovalState.used, usedAt := some now } ∈ after.approvals := by
    rw [claiming.used.rows]
    exact List.mem_map.mpr ⟨row, known, by simp [which]⟩
  have step : Follows row { row with state := .used, usedAt := some now } := follows_used approved
  have vouched : Vouched suite after r' :=
    ⟨_, used, v, remains.vouchers held, (request.trans named.symm).trans same.id.symm, purpose, rfl,
      vouches_later remains step (.inl approved) vouches, now, rfl, window, live, typed_later remains step (by simp [approved]) typed,
      pairedBy_later remains step paired⟩
  refine ⟨?_, moves_of_eq _ remains spent comparisons⟩
  refine guarded_of_remains guarded ids rows remains back ?_ vouchers spent comparisons
  intro s listed' _ _
  rcases origin s listed' with new | old
  · exact .inr (new ▸ vouched)
  · exact .inl ⟨s, old, sameRequest_refl s, rfl⟩

end QVault.Proof.Recovery
