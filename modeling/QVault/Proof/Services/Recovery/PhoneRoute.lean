import QVault.Proof.Services.Recovery.VouchingRun
import QVault.Proof.Services.Statements

/-!
# The phone route in every run
-/

namespace QVault.Proof.Recovery
open QVault.Recovery QVault.Python QVault.Crypto Programs Sessions Transactions Relation
open QVault.Services (recoverySigningBytes)

variable {suite : Suite} {me : Nat} {before after : Db}

/-! ## What a session goes on knowing -/

abbrev guardedly (suite : Suite) (me : Nat) : Surroundings (Statement Db) (fun _ => Db) Db := around (Guarded suite) Moves me

def Onward (approval : Approval) (db : Db) : Prop := ∃ a ∈ db.approvals, Follows approval a

-- A secret with this approval's tag was typed at this time.
def Presented (suite : Suite) (id : Nat) (typedAt : Int) (db : Db) : Prop :=
  ∃ a ∈ db.approvals, a.id = id ∧ a.state ≠ .pending ∧ Typed suite db a typedAt

theorem stable_onward (approval : Approval) : Stable (Guarded suite) Moves (Onward approval) := by
  rintro who before after _ _ moves ⟨a, listed, follows⟩
  obtain ⟨a', listed', follows'⟩ := moves.remains.approvals a listed
  exact ⟨a', listed', follows_trans follows follows'⟩

theorem stable_meantRow (id : Nat) (named : Named) : Stable (Guarded suite) Moves (MeantRow id named) := by
  rintro who before after _ _ moves ⟨a, listed, same, meant⟩
  obtain ⟨a', listed', follows⟩ := moves.remains.approvals a listed
  exact ⟨a', listed', follows.id.trans same, meantFor_later moves.remains follows meant⟩

theorem stable_presented (id : Nat) (typedAt : Int) : Stable (Guarded suite) Moves (Presented suite id typedAt) := by
  rintro who before after _ _ moves ⟨a, listed, same, asked, typed⟩
  obtain ⟨a', listed', follows⟩ := moves.remains.approvals a listed
  exact ⟨a', listed', follows.id.trans same, (follows.signed asked).1, typed_later moves.remains follows asked typed⟩

theorem stable_signed {id : Nat} :
    Stable (Guarded suite) Moves (fun db => ∃ a ∈ db.approvals, a.id = id ∧ a.state ≠ .pending) := by
  rintro who before after _ _ moves ⟨a, listed, same, asked⟩
  obtain ⟨a', listed', follows⟩ := moves.remains.approvals a listed
  exact ⟨a', listed', follows.id.trans same, (follows.signed asked).1⟩

theorem stable_claimable (approval request : Nat) (now : Int) :
    Stable (Guarded suite) Moves (Claimable suite approval request now) := by
  rintro who before after _ _ moves ⟨a, listed, same, asked, purpose, signed, typed, paired⟩
  obtain ⟨a', listed', follows⟩ := moves.remains.approvals a listed
  exact ⟨a', listed', follows.id.trans same, follows.request.trans asked, follows.purpose.trans purpose,
    (follows.signed signed).1, typed_later moves.remains follows signed typed, pairedBy_later moves.remains follows paired⟩

theorem stable_rooted (approval : Approval) (r : Request) (device : Device) (key : Key) :
    Stable (Guarded suite) Moves (Rooted approval r device key) :=
  fun _ _ _ _ _ moves rooted => rooted_later moves.remains rooted

-- A try a session has spent and not used yet stays its own.
theorem credit_later {id : Nat} (start : Guarded suite before) (since : (guardedly suite me).later before after)
    (credit : compares before id me < spends before id me) : compares after id me < spends after id me := by
  have kept : ∀ who first second, who ≠ some me → Guarded suite first → Guarded suite second → Moves who first second →
      compares first id me < spends first id me → compares second id me < spends second id me := ?_
  · exact kept_later kept start since credit
  intro who first second other _ _ moves credit
  obtain ⟨compared, spent⟩ := moves.others me other id
  rw [compared, spent]
  exact credit

theorem release_moves (me : Nat) (guarded : Guarded suite before) :
    Guarded suite (before.release me) ∧ Moves (some me) before (before.release me) :=
  act_moves (some me) (by simp [vouchingKinds]) (.lock before _ : Act suite .lock before (before.release me)) guarded

theorem release_credit {id : Nat} (credit : compares before id me < spends before id me) :
    compares (before.release me) id me < spends (before.release me) id me := credit

/-! ## Quiet work -/

theorem safe_idle {α : Type} {kinds : List Kind} {work : Work α} {store : Db} {memory : Proofs} {fact : Db → Prop}
    (quiet : ∀ kind ∈ kinds, kind ∉ vouchingKinds) (stable : Stable (Guarded suite) Moves fact)
    (does : Does suite kinds work) (guarded : Guarded suite store) (holds : fact store) :
    Safe (guardedly suite me) (fun now _ _ => Guarded suite now ∧ fact now) work store memory := by
  have safe : Safe (guardedly suite me) _ work store memory :=
    safe_of_keeps (fun _ _ acts holds => acts_move (some me) quiet acts holds) stable does (yields_any work) guarded holds
  exact safe_mono (fun _ _ _ holds => holds.1) safe

theorem stable_true : Stable (Guarded suite) Moves (fun _ => True) := fun _ _ _ _ _ _ holds => holds

theorem safe_still {α : Type} {kinds : List Kind} {work : Work α} {store : Db} {memory : Proofs}
    (quiet : ∀ kind ∈ kinds, kind ∉ vouchingKinds) (does : Does suite kinds work) (guarded : Guarded suite store) :
    Safe (guardedly suite me) (fun now _ _ => Guarded suite now) work store memory :=
  safe_mono (fun _ _ _ holds => holds.1) (safe_idle quiet stable_true does guarded trivial)

theorem safe_reading {α : Type} {post : Db → Proofs → Except Refusal α → Prop} {rest : Db → Work α} {store : Db}
    {memory : Proofs} (then_ : ∀ now, (guardedly suite me).later store now → Safe (guardedly suite me) post (rest now) now memory) :
    Safe (guardedly suite me) post (look >>= rest) store memory :=
  safe_look (fun now _ => moves_refl _ now) then_

/-! ## A try, then a comparison -/

theorem safe_spendTry {id : Nat} {named : Named} {store : Db} {memory : Proofs} (guarded : Guarded suite store)
    (meant : MeantRow id named store) :
    Safe (guardedly suite me) (fun now _ result => Guarded suite now ∧
        (result = .ok true → compares now id me < spends now id me ∧ ∃ a ∈ now.approvals, a.id = id ∧ a.state ≠ .pending))
      (transact me [] (spendTry me named id)) store memory := by
  apply safe_commit
  · intro now took after since done
    have act : Act suite .spend now after := .spend done
    rcases spendTry_ok done with ⟨no, same⟩ | ⟨yes, bound, written⟩
    · have released := release_moves me since.1
      subst same
      exact ⟨released, released.1, by simp [no]⟩
    · have known := stable_later (stable_meantRow _ _) guarded since meant
      obtain ⟨⟨between, moved⟩, credit⟩ := spend_moves since.1 known bound written (act_keeps act)
      obtain ⟨final, released⟩ := release_moves me between
      refine ⟨⟨final, moves_trans moved released⟩, final, fun _ => ⟨release_credit credit, ?_⟩⟩
      obtain ⟨a, found, approved, _⟩ := bound
      obtain ⟨listed, same⟩ := approval_found found
      obtain ⟨a', listed', follows⟩ := moved.remains.approvals a listed
      exact ⟨a', listed', follows.id.trans same, (follows.signed (by simp [approved])).1⟩
  · intro now error since _
    have released := release_moves me since.1
    exact ⟨released, released.1, by simp⟩

theorem safe_compareSecret {id : Nat} {secret : Text} {typedAt : Int} {store : Db} {memory : Proofs}
    (guarded : Guarded suite store) (credit : compares store id me < spends store id me)
    (asked : ∃ a ∈ store.approvals, a.id = id ∧ a.state ≠ .pending) :
    Safe (guardedly suite me) (fun now _ result => Guarded suite now ∧
        ∀ a, result = .ok (some a) → a.id = id ∧ Onward a now ∧ Presented suite id typedAt now)
      (compareSecret suite me id secret typedAt) store memory := by
  intro now since
  have credit := credit_later guarded since credit
  have moved : Guarded suite { now with comparisons := now.comparisons ++ [⟨id, me, secret, typedAt⟩] } ∧ Moves (some me) now _ :=
    compare_moves since.1 credit ⟨rfl, rfl⟩ rfl
  refine ⟨fun _ => moved, ?_⟩
  rintro answer ⟨_, same⟩
  subst same
  refine ⟨moved.1, fun a result => ?_⟩
  obtain ⟨found, matched⟩ := Option.filter_eq_some_iff.mp (Except.ok.inj result)
  obtain ⟨listed, named⟩ := approval_found found
  obtain ⟨r, known, tag⟩ := (Option.any_eq_true _ _).mp matched
  obtain ⟨listed', named'⟩ := request_found known
  have state : a.state ≠ .pending := by
    have signed := stable_later stable_signed guarded since asked
    obtain ⟨b, listed'', named'', state⟩ := signed
    rw [approval_unique since.1.ids listed listed'' (named.trans named''.symm)]
    exact state
  refine ⟨named, ⟨a, listed, follows_refl a⟩, a, listed, named, state, r, listed', named',
    ⟨id, me, secret, typedAt⟩, ?_, named.symm, rfl, ?_⟩
  · exact List.mem_append_right _ (List.mem_singleton_self _)
  · exact of_decide_eq_true tag

-- What comes of a try
def Tried (suite : Suite) (id : Nat) (typedAt : Int) (now : Db) (result : Except Refusal (Option Approval)) : Prop :=
  Guarded suite now ∧ ∀ a, result = .ok (some a) → a.id = id ∧ Onward a now ∧ Presented suite id typedAt now

theorem safe_tryCode {named : Named} {found : Approval} {code : Text} {typedAt : Int} {store : Db} {memory : Proofs}
    (guarded : Guarded suite store) (meant : MeantRow found.id named store) :
    Safe (guardedly suite me) (fun now _ result => Tried suite found.id typedAt now result)
      (tryCode suite me named (some found) code typedAt) store memory := by
  refine safe_bind (safe_spendTry guarded meant) ?_ ?_
  · rintro now memory took ⟨guarded, spent⟩
    split
    · exact ⟨guarded, by simp⟩
    next yes =>
    have yes : took = true := by simpa using yes
    obtain ⟨credit, asked⟩ := spent (by rw [yes])
    refine safe_bind (safe_compareSecret guarded credit asked) ?_ ?_
    · rintro now memory matched ⟨guarded, right⟩
      cases matched with
      | some approval => exact ⟨guarded, fun a same => right a same⟩
      | none =>
        refine safe_reading fun db since => ?_
        split
        · exact ⟨since.1, by simp⟩
        next approval _ =>
        have does : Does suite [.lock, .runOut]
            (if codeTries ≤ approval.tries then transact me [approval.requestId] (runOut approval) else pure ()) := by
          split
          · exact does_transact (by simp) (act_within (by simp) fun _ _ _ done => .runOut done)
          · exact keeps_pure _
        refine safe_bind (safe_still (by simp [vouchingKinds]) does since.1) ?_ ?_
        · exact fun _ _ _ guarded => ⟨guarded, by simp⟩
        · exact fun _ _ _ guarded => ⟨guarded, by simp⟩
    · exact fun _ _ _ holds => ⟨holds.1, by simp⟩
  · exact fun _ _ _ holds => ⟨holds.1, by simp⟩

/-! ## The operations that vouch -/

theorem safe_claimRequest {fresh : Fresh} {r : Request} {approval : Approval} {password : Text} {now : Int} {store : Db}
    {memory : Proofs} (guarded : Guarded suite store) (claimable : Claimable suite approval.id r.id now store) :
    Safe (guardedly suite me) (fun now _ _ => Guarded suite now)
      (transact me [r.id] (claimRequest suite fresh r approval password now)) store memory := by
  apply safe_commit
  · intro now' _ after since done
    have known := stable_later (stable_claimable _ _ _) guarded since claimable
    have act : Act suite .claim now' after := .claim done
    have frame := act_touches act
    have aged : ApprovalsKept Ages now' after := act_rule (by simp) (by simp) act
    have still : after.users = now'.users ∧ after.keys = now'.keys ∧ after.devices = now'.devices :=
      ⟨frame .users (by simp [touched]), frame .keys (by simp [touched]), frame .devices (by simp [touched])⟩
    have moved : Guarded suite after ∧ Moves (some me) now' after :=
      claim_moves since.1 known aged still (frame .vouchers (by simp [touched])) (frame .spent (by simp [touched]))
        (frame .comparisons (by simp [touched])) (claimRequest_ok done)
    obtain ⟨between, moved⟩ := moved
    obtain ⟨final, released⟩ := release_moves me between
    exact ⟨⟨final, moves_trans moved released⟩, final⟩
  · intro now' error since _
    have released := release_moves me since.1
    exact ⟨released, released.1⟩

theorem safe_grantApproval {fresh : Fresh} {r : Request} {approval : Approval} {device : Device} {key : Key}
    {signature : Bytes} {now : Int} {store : Db} {memory : Proofs} (guarded : Guarded suite store)
    (signable : Signable suite approval r device key signature now) (rooted : Rooted approval r device key store) :
    Safe (guardedly suite me) (fun now _ _ => Guarded suite now)
      (transact me [r.id] (grantApproval suite fresh r approval device key signature now)) store memory := by
  apply safe_commit
  · intro now' _ after since done
    have known := stable_later (stable_rooted _ _ _ _) guarded since rooted
    have act : Act suite .grant now' after := .grant done
    have frame := act_touches act
    have still : after.users = now'.users ∧ after.keys = now'.keys ∧ after.devices = now'.devices :=
      ⟨frame .users (by simp [touched]), frame .keys (by simp [touched]), frame .devices (by simp [touched])⟩
    obtain ⟨selector, secret, granting⟩ := grantApproval_ok done
    have moved : Guarded suite after ∧ Moves (some me) now' after :=
      grant_moves since.1 signable known (act_keeps act) (act_idle (by simp) act) still (frame .spent (by simp [touched]))
        (frame .comparisons (by simp [touched])) granting
    obtain ⟨between, moved⟩ := moved
    obtain ⟨final, released⟩ := release_moves me between
    exact ⟨⟨final, moves_trans moved released⟩, final⟩
  · intro now' error since _
    have released := release_moves me since.1
    exact ⟨released, released.1⟩

theorem claimable_found {db : Db} {email selector : Text} {now : Int} {found : Approval}
    (chosen : claimable db email selector now = some found) :
    found ∈ db.approvals ∧ found.purpose = .webReset ∧ MeantRow found.id (.email email) db := by
  simp only [claimable, Option.bind_eq_bind, Option.bind_eq_some_iff] at chosen
  obtain ⟨user, known, approval, selected, r, asked, chosen⟩ := chosen
  split at chosen
  · next holds =>
    obtain ⟨listed', named⟩ := request_found asked
    have address : user.email = email := by simpa using List.find?_some known
    have member := List.mem_of_mem_head? selected
    rw [List.mem_insertionSort, List.mem_filter] at member
    obtain ⟨listed, right⟩ := member
    simp only [Bool.and_eq_true, decide_eq_true_eq] at right
    cases chosen
    exact ⟨listed, right.1.2, found, listed, rfl, r, listed', named, user, List.mem_of_find?_eq_some known, holds.1.symm, address⟩
  · cases chosen

theorem safe_rejected {r : Request} {approval : Approval} {reason : Text} {refusal : Refusal} {store : Db} {memory : Proofs}
    (guarded : Guarded suite store) :
    Safe (guardedly suite me) (fun now _ _ => Guarded suite now)
      (do transact me [r.id] (endPreclaim r approval reason); (raise refusal : Work Unit)) store memory := by
  have does : Does suite [.lock, .reject] (do transact me [r.id] (endPreclaim r approval reason); (raise refusal : Work Unit)) :=
    keeps_bind (does_transact (by simp) (act_within (by simp) fun _ _ _ done => .reject done)) fun _ => keeps_raise _
  exact safe_still (by simp [vouchingKinds]) does guarded

theorem paired_of_usable {db : Db} {a : Approval} {device : Device} {now : Int} (listed : device ∈ db.devices)
    (named : device.id = a.deviceId) (fine : deviceProblem suite db device now = none) : PairedBy db a now := by
  simp only [deviceProblem] at fine
  split at fine
  · cases fine
  split at fine
  · cases fine
  next usable old =>
  simp only [Bool.or_eq_true, not_or, Bool.not_eq_true', Bool.not_eq_false, Device.isUsable, Bool.and_eq_true] at usable
  exact ⟨device, listed, named, not_lt.mp old, usable.2.2⟩

-- What `claim` has read lets it write.
theorem claimable_of_presented {db : Db} {found approval : Approval} {r : Request} {device : Device} {now : Int}
    (guarded : Guarded suite db) (purpose : found.purpose = .webReset) (named : approval.id = found.id)
    (onward : Onward found db) (onward' : Onward approval db) (presented : Presented suite found.id now db)
    (asked : db.request? approval.requestId = some r) (known : db.device? approval.deviceId = some device)
    (fine : deviceProblem suite db device now = none) : Claimable suite approval.id r.id now db := by
  obtain ⟨a, listed, same, state, typed⟩ := presented
  obtain ⟨b, listed', follows⟩ := onward
  obtain ⟨c, listed'', follows'⟩ := onward'
  rw [approval_unique guarded.ids listed' listed (follows.id.trans same.symm)] at follows
  rw [approval_unique guarded.ids listed'' listed ((follows'.id.trans named).trans same.symm)] at follows'
  obtain ⟨_, request⟩ := request_found asked
  have owned : device.id = approval.deviceId := by simpa using List.find?_some known
  exact ⟨a, listed, same.trans named.symm, follows'.request.trans request.symm, follows.purpose.trans purpose, state, typed,
    paired_of_usable (List.mem_of_find?_eq_some known) (owned.trans follows'.device.symm) fine⟩

theorem safe_claim {fresh : Fresh} {email code password : Text} {store : Db} {memory : Proofs} (guarded : Guarded suite store) :
    Safe (guardedly suite me) (fun now _ _ => Guarded suite now) (claim suite fresh me email code password) store memory := by
  refine safe_reading fun first since => ?_
  have decoded : Safe (guardedly suite me) (fun world _ _ => world = first)
      (orRaise (normaliseCode suite.upper code) : Work Text) first memory := rfl
  refine safe_bind decoded ?_ (fun _ _ _ same => same ▸ since.1)
  rintro first memory typed rfl
  refine safe_reading fun db since' => ?_
  cases chosen : claimable db (suite.lower (strip email)) (splitCode typed).1 first.clock with
  | none => exact since'.1
  | some found =>
    obtain ⟨listed, purpose, meant⟩ := claimable_found chosen
    have onward : Onward found db := ⟨found, listed, follows_refl found⟩
    have tried : Safe (guardedly suite me) (fun now _ result => Tried suite found.id first.clock now result)
        (tryCode suite me (.email (suite.lower (strip email))) (some found) typed first.clock) db memory :=
      safe_tryCode since'.1 meant
    refine safe_bind (safe_knowing (stable_onward found) tried since'.1 onward) ?_ (fun _ _ _ holds => holds.1.1)
    rintro world memory result ⟨⟨guarded', right⟩, onward⟩
    cases result with
    | none => exact guarded'
    | some approval =>
      obtain ⟨named, onward', presented⟩ := right approval rfl
      refine safe_reading fun last since => ?_
      have onward := stable_later (stable_onward found) guarded' since onward
      have onward' := stable_later (stable_onward approval) guarded' since onward'
      have presented := stable_later (stable_presented found.id first.clock) guarded' since presented
      split
      · next r asked =>
        split
        · next device known =>
          refine safe_reading fun later since' => ?_
          split
          · exact safe_rejected since'.1
          next fine =>
          have fine : deviceProblem suite last device first.clock = none := by
            cases problem : deviceProblem suite last device first.clock with
            | none => rfl
            | some refusal => simp [problem] at fine
          have claimable := claimable_of_presented since.1 purpose named onward onward' presented asked known fine
          have claimable := stable_later (stable_claimable _ _ _) since.1 since' claimable
          dsimp only
          split
          · exact since'.1
          have locks : Does suite [.lock] (lockTreasuries me r.userId) := does_lockTreasuries (by simp) _
          refine safe_bind (safe_idle (by simp [vouchingKinds]) (stable_claimable _ _ _) locks since'.1 claimable) ?_
            (fun _ _ _ holds => holds.1)
          rintro held memory _ ⟨guarded, claimable⟩
          refine safe_reading fun final since => ?_
          split
          · exact safe_rejected since.1
          · exact safe_claimRequest since.1 (stable_later (stable_claimable _ _ _) guarded since claimable)
        · exact since.1
      · exact since.1

theorem verified_of_signature {key : Key} {approval : Approval} {r : Request} {signature : Bytes}
    (fine : signatureProblem suite key approval r signature = none) :
    ∃ message, recoverySigningBytes (signingInputs suite approval r) = .ok message ∧
      suite.verify key.algId key.publicKey message signature = true := by
  simp only [signatureProblem] at fine
  split at fine
  · cases fine
  next message encoded =>
  split at fine
  · next right => exact ⟨message, encoded, right.2⟩
  · cases fine

theorem signable_of_checks {db : Db} {approval : Approval} {r : Request} {device : Device} {key : Key} {signature : Bytes}
    {now : Int} (owner : r.userId = device.ownerId) (asked : r.id = approval.requestId) (ofDevice : device.id = approval.deviceId)
    (ofKey : key.id = approval.keyId) (known : db.key? device.keyId = some key) (live : now < approval.expiresAt)
    (fine : deviceProblem suite db device now = none) (signed : signatureProblem suite key approval r signature = none) :
    Signable suite approval r device key signature now := by
  have held : key.id = device.keyId := by simpa using List.find?_some known
  simp only [deviceProblem, known] at fine
  split at fine
  · cases fine
  split at fine
  · cases fine
  next usable old =>
  split at fine
  · next signing =>
    simp only [Bool.or_eq_true, not_or, Bool.not_eq_true', Bool.not_eq_false] at usable
    exact {
      request := asked
      owner := owner
      ofDevice := ofDevice
      ofKey := ofKey
      held := held.symm
      usable := usable.2
      paired := not_lt.mp old
      signing := signing
      live := live
      verified := verified_of_signature signed }
  · cases fine

theorem safe_approve {fresh : Fresh} {device : Nat} {uuid : Text} {purpose : Purpose} {signature : Text} {store : Db}
    {memory : Proofs} (guarded : Guarded suite store) :
    Safe (guardedly suite me) (fun now _ _ => Guarded suite now) (approve suite fresh me device uuid purpose signature) store
      memory := by
  refine safe_reading fun first since => safe_reading fun db since' => ?_
  split
  · next device known =>
    split
    · next r found =>
      split
      · exact since'.1
      next owner =>
      dsimp only
      split
      · next approval asked =>
        have member := List.mem_of_mem_head? asked
        rw [List.mem_insertionSort, List.mem_filter] at member
        obtain ⟨listed, right⟩ := member
        obtain ⟨listed, request⟩ := List.mem_filter.mp listed
        simp only [Bool.and_eq_true, decide_eq_true_eq] at right request
        split
        · have does : Does suite [.lock, .endApproval]
              (do transact me [] (endApproval approval.id); (raise .expired : Work Unit)) :=
            keeps_bind (does_transact (by simp) (act_within (by simp) fun _ _ _ done => .endApproval done)) fun _ => keeps_raise _
          exact safe_still (by simp [vouchingKinds]) does since'.1
        next live =>
        split
        · exact since'.1
        · exact since'.1
        next key fine held =>
        split
        · exact since'.1
        next ofKey =>
        split
        · exact since'.1
        next decoded _ =>
        split
        · exact since'.1
        next signed =>
        have named : device.id = approval.deviceId := right.1.1.symm
        have signable := signable_of_checks (not_not.mp owner) request.symm named (not_not.mp ofKey) held (not_le.mp live) fine signed
        have rooted : Rooted approval r device key db := by
          refine ⟨⟨approval, listed, follows_refl approval⟩, ⟨r, List.mem_of_find?_eq_some found, sameRequest_refl r⟩, ?_⟩
          exact ⟨⟨device, List.mem_of_find?_eq_some known, rfl, rfl, rfl, rfl, rfl⟩, key, List.mem_of_find?_eq_some held,
            rfl, rfl, rfl, rfl, rfl⟩
        refine safe_reading fun last since => ?_
        have rooted := stable_later (stable_rooted _ _ _ _) since'.1 since rooted
        split
        · exact since.1
        · exact safe_grantApproval since.1 signable rooted
      · exact since'.1
    · exact since'.1
  · exact since'.1

theorem safe_confirmingKit {token : Bytes} {code : Text} {store : Db} {memory : Proofs} (guarded : Guarded suite store) :
    Safe (guardedly suite me) (fun now _ _ => Guarded suite now) (confirmKit suite me token code) store memory := by
  refine safe_reading fun now since => safe_reading fun db since' => ?_
  split
  · next r found =>
    have decoded : Safe (guardedly suite me) (fun world _ _ => world = db)
        (orRaise (normaliseCode suite.upper code) : Work Text) db memory := rfl
    refine safe_bind decoded ?_ (fun _ _ _ same => same ▸ since'.1)
    rintro _ memory typed rfl
    split
    · dsimp only
      split
      · exact since'.1
      split
      · exact since'.1
      refine safe_reading fun later since => ?_
      cases candidate : later.bySelector (splitCode typed).1 now.clock .kitConfirm (some r.id) with
      | none => exact since.1
      | some chosen =>
        obtain ⟨listed, asked, _⟩ := bySelector_found candidate
        refine safe_bind (safe_tryCode since.1 ⟨chosen, listed, rfl, asked⟩) ?_ (fun _ _ _ holds => holds.1)
        rintro world memory result ⟨guarded, _⟩
        cases result with
        | none => exact guarded
        | some approval =>
          refine safe_reading fun last since => ?_
          split
          · split
            · exact since.1
            · have does : ∀ completes, Does suite [.lock, .confirm]
                  (transact me [r.id] (confirmRequest suite r approval completes now.clock)) := fun _ =>
                does_transact (by simp) (act_within (by simp) fun _ _ _ done => .confirm done)
              exact safe_still (by simp [vouchingKinds]) (does _) since.1
          · exact since.1
    · exact since'.1
  · exact since'.1

theorem safe_operation {operation : Operation} {store : Db} {memory : Proofs} (guarded : Guarded suite store) :
    Safe (guardedly suite me) (fun now _ _ => Guarded suite now) (operate suite me operation) store memory := by
  by_cases quiet : ∀ kind ∈ kindsOf operation, kind ∉ vouchingKinds
  · exact safe_still quiet (does_operate operation) guarded
  · cases operation with
    | approve fresh device uuid purpose signature => exact safe_approve guarded
    | claim fresh email code password => exact safe_claim guarded
    | confirmKit token code => exact safe_confirmingKit guarded
    | _ => simp [kindsOf, vouchingKinds] at quiet

theorem safe_launched {operation : Operation} {store : Db} {memory : Proofs} (guarded : Guarded suite store) :
    Safe (guardedly suite me) (fun now _ _ => Guarded suite now) (launch suite me operation) store memory := by
  have rest : Does suite [.lock, .cancel] (do rollback me; settlePasswordProofs me) :=
    keeps_bind (does_rollback (by simp)) fun _ => does_settlePasswordProofs (by simp) (by simp)
  have tried : Safe (guardedly suite me) (fun now _ _ => Guarded suite now) (discard (attempt (operate suite me operation)))
      store memory := by
    refine safe_bind (safe_attempt (safe_operation guarded)) ?_ ?_
    · rintro world _ _ ⟨inner, _, holds⟩
      exact holds
    · rintro world _ _ ⟨inner, _, holds⟩
      exact holds
  exact safe_bind tried (fun _ _ _ holds => safe_still (by simp [vouchingKinds]) rest holds) fun _ _ _ holds => holds

theorem outside_moves (change : Outside) (guarded : Guarded suite before) :
    Guarded suite (change.apply before) ∧ Moves none before (change.apply before) := by
  have same : (change.apply before).requests = before.requests ∧ (change.apply before).approvals = before.approvals ∧
      (change.apply before).vouchers = before.vouchers ∧ (change.apply before).spent = before.spent ∧
      (change.apply before).comparisons = before.comparisons := by
    cases change with
    | logged event =>
      simp only [Outside.apply]
      split <;> exact ⟨rfl, rfl, rfl, rfl, rfl⟩
    | _ => exact ⟨rfl, rfl, rfl, rfl, rfl⟩
  obtain ⟨requests, approvals, vouchers, spent, comparisons⟩ := same
  have aged : ApprovalsKept Ages before (change.apply before) := approvalsKept_of_eq approvals
  obtain ⟨ids, kept, back⟩ := aged guarded.ids
  obtain ⟨rows, renames⟩ := outside_identified change before guarded.rows
  have idle : Idle before (change.apply before) := idle_of_eq requests
  have remains : Remains before (change.apply before) := by
    refine ⟨?_, idle.rows, renames, vouchers ▸ List.Subset.refl _, comparisons ▸ List.Subset.refl _⟩
    intro a listed
    obtain ⟨a', listed', ages⟩ := kept a listed
    exact ⟨a', listed', ages.follows⟩
  refine ⟨?_, moves_of_eq none remains spent comparisons⟩
  exact guarded_of_remains guarded ids rows remains back (fun r listed phone window => .inl (idle.windows r listed phone window))
    vouchers spent comparisons

theorem vouching_disciplined (suite : Suite) : Disciplined (Guarded suite) Moves (setup suite) where
  launched _ operation _ guarded := safe_mono (fun _ _ _ _ => trivial) (safe_launched guarded)
  released _ _ guarded := release_moves _ guarded
  changed change _ guarded := outside_moves change guarded

theorem guarded_run (suite : Suite) (moves : List Move) : Guarded suite (run suite System.empty moves).store :=
  (sound_run (vouching_disciplined suite) (sound_start (guarded_empty suite)) moves).1.holds

/-! ## The phone route -/

-- A phone reset began to wait on this approval, signed with this voucher, at this time.
structure Endorsed (suite : Suite) (db : Db) (r : Request) (a : Approval) (v : Voucher) (now : Int) : Prop where
  request : a.requestId = r.id
  purpose : a.purpose = .webReset
  phone : v.device.id = a.deviceId ∧ v.device.keyId = v.key.id ∧ v.key.id = a.keyId
  genuine : (∃ d ∈ db.devices, SameDevice v.device d) ∧ ∃ k ∈ db.keys, SameKey v.key k
  own : v.device.ownerId = r.userId
  usable : v.device.isUsable v.at_ = true
  aged : v.device.createdAt ≤ v.at_ - minPairedAge
  signing : isDeviceSigningKey suite.hasSignature r.userId (some v.key) = true
  signed : ∃ message, recoverySigningBytes (signingInputs suite a r) = .ok message ∧
    suite.verify v.key.algId v.key.publicKey message v.signature = true ∧
    ∀ fields, recoverySigningBytes fields = .ok message → fields = signingInputs suite a r
  issued : a.codeTag = some (suite.phoneCodeTag a.id r.uuid v.secret)
  typed : ∃ c ∈ db.comparisons, c.approvalId = a.id ∧ c.typedAt = now ∧
    suite.phoneCodeTag a.id r.uuid c.secret = suite.phoneCodeTag a.id r.uuid v.secret
  used : a.state = .used ∧ a.usedAt = some now ∧ r.windowStartsAt = some now
  inTime : v.at_ < a.expiresAt ∧ now < a.expiresAt
  still : PairedBy db a now

structure PhoneRoute (suite : Suite) (db : Db) : Prop where
  endorsed : ∀ r ∈ db.requests.1, r.route = .phone → r.state = .waiting ∨ r.windowStartsAt ≠ none →
    ∃ a ∈ db.approvals, ∃ v ∈ db.vouchers, ∃ now, Endorsed suite db r a v now
  compared : ∀ id, db.comparisons.countP (fun c => c.approvalId = id) ≤ codeTries
  counted : ∀ a ∈ db.approvals, db.spent.countP (fun s => s.approvalId = a.id) = a.tries
  meant : ∀ s ∈ db.spent, ∃ a ∈ db.approvals, a.id = s.approvalId ∧ MeantFor db a s.named

theorem endorsed_of_vouched {db : Db} {r : Request} (guarded : Guarded suite db) (listed : r ∈ db.requests.1)
    (vouched : Vouched suite db r) : ∃ a ∈ db.approvals, ∃ v ∈ db.vouchers, ∃ now, Endorsed suite db r a v now := by
  obtain ⟨a, known, v, held, request, purpose, used, vouches, now, usedAt, opened, live, typed, paired⟩ := vouched
  obtain ⟨s, listed', named, owner, ⟨message, encoded, verified⟩, issued⟩ := vouches.signed
  obtain ⟨t, listed'', named', c, made, on, at_, tag⟩ := typed
  have one := request_unique listed' listed (named.trans request)
  have two := request_unique listed'' listed (named'.trans request)
  subst one
  subst two
  refine ⟨a, known, v, held, now, ?_⟩
  exact {
    request := request
    purpose := purpose
    phone := ⟨vouches.device, vouches.held, vouches.key⟩
    genuine := guarded.genuine v held
    own := owner.symm
    usable := vouches.usable
    aged := vouches.paired
    signing := owner ▸ vouches.signing
    signed := ⟨message, encoded, verified, fun fields made => Statements.recovery_bytes_determine made encoded⟩
    issued := issued
    typed := ⟨c, made, on, at_, Option.some.inj (tag.symm.trans issued)⟩
    used := ⟨used, usedAt, opened⟩
    inTime := ⟨vouches.live, live⟩
    still := paired }

-- Where no session compares more often than it spends, all of them together do not.
theorem comparisons_le_spent {db : Db} (id : Nat) (each : ∀ session, compares db id session ≤ spends db id session) :
    db.comparisons.countP (fun c => c.approvalId = id) ≤ db.spent.countP (fun s => s.approvalId = id) := by
  have below : List.Subperm ((db.comparisons.filter fun c => c.approvalId = id).map (·.session))
      ((db.spent.filter fun s => s.approvalId = id).map (·.session)) := by
    rw [List.subperm_ext_iff]
    intro session _
    have count := each session
    simp only [compares, spends] at count
    simp only [List.count_eq_countP, List.countP_map, List.countP_filter]
    convert count using 2
    · funext c
      rw [Bool.and_comm]
      simp [beq_eq_decide]
    · funext s
      rw [Bool.and_comm]
      simp [beq_eq_decide]
  simpa only [List.length_map, ← List.countP_eq_length_filter] using below.length_le

theorem comparisons_bounded {db : Db} (guarded : Guarded suite db) (id : Nat) :
    db.comparisons.countP (fun c => c.approvalId = id) ≤ codeTries := by
  refine (comparisons_le_spent id (guarded.compared id)).trans ?_
  by_cases known : ∃ a ∈ db.approvals, a.id = id
  · obtain ⟨a, listed, rfl⟩ := known
    obtain ⟨count, bound⟩ := guarded.counted a listed
    exact count.trans_le bound
  · have none_ : db.spent.countP (fun s => s.approvalId = id) = 0 := by
      rw [List.countP_eq_zero]
      intro s listed same
      obtain ⟨a, listed', named, _⟩ := guarded.meant s listed
      exact known ⟨a, listed', named.trans (of_decide_eq_true same)⟩
    rw [none_]
    exact Nat.zero_le _

theorem phone_route (suite : Suite) (moves : List Move) : PhoneRoute suite (run suite System.empty moves).store := by
  have guarded := guarded_run suite moves
  have lawful := (run_sound suite moves).holds
  refine ⟨?_, comparisons_bounded guarded, fun a listed => (guarded.counted a listed).1, guarded.meant⟩
  intro r listed phone opened
  have window : r.windowStartsAt ≠ none := by
    rcases opened with waiting | window
    · exact (lawful.regular r listed).waited waiting
    · exact window
  exact endorsed_of_vouched guarded listed (guarded.claimed r listed phone window)

end QVault.Proof.Recovery
