import QVault.Proof.Chain.Signers

/-!
# Runs of a treasury

What holds of a treasury and of everything it paid, whoever calls it and in whatever order.
-/

namespace QVault.Proof.Chain
open QVault.Chain QVault.Python Results

variable {S : Type} {env : Deployment S} {isValid : Bytes → Word → Bytes → Prop}

/-! ## While a payment is being made -/

-- What the paid address can change of a treasury whose guard is taken
structure Untouched (before after : World S) : Prop where
  treasury : after.treasury = before.treasury
  entered : after.entered = before.entered
  timestamp : after.timestamp = before.timestamp
  payments : after.payments = before.payments
  reconfigurations : after.reconfigurations = before.reconfigurations
  code : CodeKept before.code after.code
  funds : after.balance + before.received = before.balance + after.received

theorem untouched_refl (w : World S) : Untouched w w := ⟨rfl, rfl, rfl, rfl, rfl, codeKept_refl _, rfl⟩

theorem Untouched.trans {first second third : World S} (early : Untouched first second)
    (late : Untouched second third) : Untouched first third where
  treasury := late.treasury.trans early.treasury
  entered := late.entered.trans early.entered
  timestamp := late.timestamp.trans early.timestamp
  payments := late.payments.trans early.payments
  reconfigurations := late.reconfigurations.trans early.reconfigurations
  code := early.code.trans late.code
  funds := by
    have first := early.funds
    have second := late.funds
    omega

theorem nonReentrant_entered {w : World S} (entered : w.entered = true)
    (body : World S → Except Revert (World S)) : (nonReentrant w body).1 = w := by
  unfold nonReentrant
  rw [if_pos entered]

mutual
theorem act_untouched {w : World S} (entered : w.entered = true) :
    ∀ action, Untouched w (act env w action).1
  | .execute args multisig gas paid finishes => by
    rw [act, nonReentrant_entered entered]
    exact untouched_refl w
  | .reconfigure args multisig finishes => by
    rw [act, nonReentrant_entered entered]
    exact untouched_refl w
  | .receive value => by
    rw [act]
    refine ⟨rfl, rfl, rfl, rfl, rfl, codeKept_refl _, ?_⟩
    simp only
    omega
  | .setCode pointer code => by
    rw [act]
    exact ⟨rfl, rfl, rfl, rfl, rfl, replaceCode_kept _ _ _, rfl⟩
  | .block timestamp => by
    rw [act, if_pos entered]
    exact untouched_refl w
  | .nested frame => by
    rw [act]
    cases ran : runFrame env w frame with
    | ok after => exact runFrame_untouched entered frame ran
    | error returned => exact untouched_refl w

theorem runFrame_untouched {w after : World S} (entered : w.entered = true) :
    ∀ frame, runFrame env w frame = .ok after → Untouched w after
  | .returns returned, ran => by
    cases ran
    exact untouched_refl w
  | .reverts returned, ran => by cases ran
  | .next action rest, ran => by
    rw [runFrame] at ran
    have first := act_untouched entered action
    exact first.trans (runFrame_untouched (first.entered.trans entered) rest ran)
end

/-! ## What a payment rests on -/

-- Approvals by at least the threshold of distinct signers over a digest
def Approved (env : Deployment S) (isValid : Bytes → Word → Bytes → Prop) (t : Treasury S) (digest : Word) : Prop :=
  ∃ approvals : List (Bytes × Bytes), (t.threshold env).toNat ≤ approvals.length ∧
    (approvals.map (·.1)).Nodup ∧ ∀ a ∈ approvals, a.1 ∈ t.signers env ∧ isValid a.1 digest a.2

structure RightlyPaid (env : Deployment S) (isValid : Bytes → Word → Bytes → Prop) (p : Payment S) : Prop where
  inTime : p.timestamp ≤ p.args.validUntil.toNat
  approved : Approved env isValid p.before (executionDigest env p.before.configNonce p.args)
  call : p.call = ⟨p.args.recipient, p.args.value, p.args.data,
    p.args.callGas.toNat + if p.args.value = 0 then 0 else callStipend⟩

theorem gasGiven_eq {gas : GasUse} {args : ExecuteArgs} (enough : requiredGas args.callGas ≤ gas.left) :
    gasGiven gas args = args.callGas.toNat + if args.value = 0 then 0 else callStipend := by
  have reserved := gas.reserved
  unfold requiredGas callReserve at enough
  unfold callReserve at reserved
  unfold gasGiven allButOne64th
  congr 1
  omega

structure Opened (env : Deployment S) (isValid : Bytes → Word → Bytes → Prop) (timestamp : Nat) (args : ExecuteArgs)
    (gas : GasUse) (before after : Treasury S) : Prop where
  unpaid : before.executed args.proposalId = false
  inTime : timestamp ≤ args.validUntil.toNat
  approved : Approved env isValid before (executionDigest env before.configNonce args)
  enough : requiredGas args.callGas ≤ gas.left
  result : after = { before with executed := setKey before.executed args.proposalId true }

theorem openExecute_ok (lawful : env.base.Lawful isValid) {timestamp : Nat} {args : ExecuteArgs} {multisig : Bytes}
    {gas : GasUse} {t after : Treasury S} (opened : openExecute env timestamp args multisig gas t = .ok after) :
    Opened env isValid timestamp args gas t after := by
  unfold openExecute at opened
  split at opened
  · cases opened
  · rename_i unpaid
    split at opened
    · cases opened
    · rename_i inTime
      split at opened
      · cases opened
      · split at opened
        · cases opened
        · rename_i signed
          split at opened
          · cases opened
          · rename_i enough
            cases opened
            exact ⟨by simpa using unpaid, not_lt.mp inTime,
              lawful.rawSignatureValidation _ _ _ (by simpa using signed), not_lt.mp enough, rfl⟩

-- what left the treasury, which a payment to itself does not
def sent (env : Deployment S) (args : ExecuteArgs) : Nat :=
  if args.recipient = env.self then 0 else args.value.toNat

theorem transfer_some {args : ExecuteArgs} {w after : World S} (covered : transfer env args w = some after) :
    after = { w with balance := w.balance - sent env args } ∧ sent env args ≤ w.balance := by
  unfold transfer at covered
  split at covered
  · rename_i enough
    cases covered
    refine ⟨rfl, ?_⟩
    unfold sent
    split
    · exact Nat.zero_le _
    · exact enough
  · cases covered

structure Paid (env : Deployment S) (isValid : Bytes → Word → Bytes → Prop) (args : ExecuteArgs) (multisig : Bytes)
    (gas : GasUse) (before after : World S) : Prop where
  opened : Opened env isValid before.timestamp args gas before.treasury after.treasury
  entered : after.entered = true
  payments : after.payments = ⟨before.treasury, before.timestamp, args, multisig,
    ⟨args.recipient, args.value, args.data, gasGiven gas args⟩⟩ :: before.payments
  reconfigurations : after.reconfigurations = before.reconfigurations
  code : CodeKept before.code after.code
  funds : after.balance + sent env args + before.received = before.balance + after.received

theorem executeCall_ok (lawful : env.base.Lawful isValid) {args : ExecuteArgs} {multisig : Bytes} {gas : GasUse}
    {paid : Frame} {finishes : Bool} {w after : World S} (entered : w.entered = true)
    (done : executeCall env args multisig gas (runFrame env · paid) finishes w = .ok after) :
    Paid env isValid args multisig gas w after := by
  unfold executeCall at done
  obtain ⟨treasury, opened, done⟩ := bind_eq_ok.mp done
  split at done
  · cases done
  · rename_i afterSend covered
    obtain ⟨rfl, enough⟩ := transfer_some covered
    split at done
    · cases done
    · rename_i returned ran
      have untouched := runFrame_untouched (by exact entered) paid ran
      split at done
      · cases pure_eq_ok.mp done
        have same : returned.treasury = treasury := untouched.treasury
        have sameTime : returned.timestamp = w.timestamp := untouched.timestamp
        refine ⟨?_, untouched.entered.trans entered, ?_, untouched.reconfigurations, untouched.code, ?_⟩
        · have right := openExecute_ok lawful opened
          rw [← same] at right
          exact right
        · simp only [recordPayment]
          rw [untouched.payments, sameTime]
        · have funds := untouched.funds
          simp only [recordPayment] at funds enough ⊢
          omega
      · cases done

/-! ## The invariant -/

def paidOut (env : Deployment S) (payments : List (Payment S)) : Nat := (payments.map fun p => sent env p.args).sum

structure Sound (env : Deployment S) (isValid : Bytes → Word → Bytes → Prop) (w : World S) : Prop where
  idle : w.entered = false
  wellKeyed : WellKeyed env w.code w.treasury
  unlocked : NoKeyLockedOut env w.code w.treasury ↔ ∀ r ∈ w.reconfigurations, Separate env r
  paid : ∀ id, w.treasury.executed id = true ↔ ∃ p ∈ w.payments, p.args.proposalId = id
  once : (w.payments.map fun p => p.args.proposalId).Nodup
  rightly : ∀ p ∈ w.payments, RightlyPaid env isValid p
  nonce : w.treasury.configNonce.toNat = w.reconfigurations.length
  funds : w.balance + paidOut env w.payments = w.received

theorem sound_start (lawful : env.base.Lawful isValid) {code : Code} {signers : List Bytes} {threshold : Uint64}
    {t : Treasury S} (built : construct env code signers threshold = .ok t) (balance timestamp : Nat) :
    Sound env isValid (World.start t code balance timestamp) := by
  obtain ⟨wellKeyed, free, unpaid, nonce⟩ := construct_ok lawful built
  refine ⟨rfl, wellKeyed, ?_, ?_, .nil, ?_, ?_, rfl⟩
  · exact ⟨fun _ r none => (nomatch none), fun _ => free⟩
  · intro id
    simp [World.start, unpaid id]
  · intro p none
    cases none
  · simp [World.start, nonce]

theorem Sound.untouched {w after : World S} (sound : Sound env isValid w) (untouched : Untouched w after) :
    Sound env isValid after where
  idle := untouched.entered.trans sound.idle
  wellKeyed := by
    rw [untouched.treasury]
    exact sound.wellKeyed.kept untouched.code
  unlocked := by
    rw [untouched.treasury, untouched.reconfigurations, NoKeyLockedOut.kept sound.wellKeyed untouched.code]
    exact sound.unlocked
  paid := by
    rw [untouched.treasury, untouched.payments]
    exact sound.paid
  once := by
    rw [untouched.payments]
    exact sound.once
  rightly := by
    rw [untouched.payments]
    exact sound.rightly
  nonce := by
    rw [untouched.treasury, untouched.reconfigurations]
    exact sound.nonce
  funds := by
    have before := sound.funds
    have change := untouched.funds
    rw [untouched.payments]
    omega

theorem Sound.block {w : World S} (sound : Sound env isValid w) (timestamp : Nat) :
    Sound env isValid { w with timestamp } where
  idle := sound.idle
  wellKeyed := sound.wellKeyed
  unlocked := sound.unlocked
  paid := sound.paid
  once := sound.once
  rightly := sound.rightly
  nonce := sound.nonce
  funds := sound.funds

theorem Sound.reconfigured (lawful : env.base.Lawful isValid) {args : ReconfigureArgs} {multisig : Bytes}
    {finishes : Bool} {w after : World S} (sound : Sound env isValid w)
    (done : reconfigureCall env args multisig finishes { w with entered := true } = .ok after) :
    Sound env isValid { after with entered := false } := by
  unfold reconfigureCall at done
  obtain ⟨treasury, changing, done⟩ := bind_eq_ok.mp done
  split at done
  · cases pure_eq_ok.mp done
    have changed := reconfigure_ok lawful changing
    refine ⟨rfl, changed.wellKeyed sound.wellKeyed, ?_, ?_, sound.once, sound.rightly, ?_, sound.funds⟩
    · simp only
      rw [changed.unlocked_iff sound.wellKeyed, sound.unlocked, List.forall_mem_cons, and_comm]
    · simp only [changed.executed]
      exact sound.paid
    · simp only [changed.nonce, List.length_cons]
      rw [sound.nonce]
  · cases done

theorem Sound.executed (lawful : env.base.Lawful isValid) {args : ExecuteArgs} {multisig : Bytes} {gas : GasUse}
    {paid : Frame} {finishes : Bool} {w after : World S} (sound : Sound env isValid w)
    (done : executeCall env args multisig gas (runFrame env · paid) finishes { w with entered := true } = .ok after) :
    Sound env isValid { after with entered := false } := by
  have made := executeCall_ok lawful rfl done
  have opened := made.opened
  have sameSigners : after.treasury.multiSigner = w.treasury.multiSigner := by rw [opened.result]
  have sameKeys : after.treasury.keyInUse = w.treasury.keyInUse := by rw [opened.result]
  have wellKeyed : WellKeyed env w.code after.treasury := by
    rw [opened.result]
    exact ⟨sound.wellKeyed.identities, sound.wellKeyed.distinct, sound.wellKeyed.held, sound.wellKeyed.positive,
      sound.wellKeyed.cap, sound.wellKeyed.reachable⟩
  refine ⟨rfl, wellKeyed.kept made.code, ?_, ?_, ?_, ?_, ?_, ?_⟩
  · simp only
    rw [NoKeyLockedOut.kept wellKeyed made.code, made.reconfigurations, ← sound.unlocked, opened.result]
    exact Iff.rfl
  · intro id
    simp only [made.payments, opened.result, setKey_eq_true, List.exists_mem_cons_iff]
    by_cases own : id = args.proposalId
    · simp [own]
    · rw [if_neg own, sound.paid]
      simp [Ne.symm own]
  · simp only [made.payments, List.map_cons, List.nodup_cons]
    refine ⟨?_, sound.once⟩
    intro again
    obtain ⟨p, listed, same⟩ := List.mem_map.mp again
    have paidBefore := (sound.paid args.proposalId).mpr ⟨p, listed, same⟩
    rw [opened.unpaid] at paidBefore
    cases paidBefore
  · intro p listed
    simp only [made.payments] at listed
    cases listed with
    | head => exact ⟨opened.inTime, opened.approved, by rw [gasGiven_eq opened.enough]⟩
    | tail _ earlier => exact sound.rightly p earlier
  · simp only [made.reconfigurations, opened.result]
    exact sound.nonce
  · have before := sound.funds
    have change := made.funds
    simp only [made.payments, paidOut, List.map_cons, List.sum_cons] at before change ⊢
    omega

theorem act_reconfigure {w : World S} {args : ReconfigureArgs} {multisig : Bytes}
    {t : Treasury S} (idle : w.entered = false)
    (done : reconfigure env w.code w.timestamp args multisig w.treasury = .ok t) :
    act env w (.reconfigure args multisig true) =
      ({ w with treasury := t, reconfigurations := ⟨w.treasury, w.code, args⟩ :: w.reconfigurations }, .done) := by
  cases w
  cases idle
  simp only at done
  rw [act, nonReentrant, if_neg (by simp), reconfigureCall, done]
  rfl

theorem sound_nonReentrant {w : World S} (sound : Sound env isValid w) {body : World S → Except Revert (World S)}
    (kept : ∀ after, body { w with entered := true } = .ok after → Sound env isValid { after with entered := false }) :
    Sound env isValid (nonReentrant w body).1 := by
  unfold nonReentrant
  rw [if_neg (by simp [sound.idle])]
  cases ran : body { w with entered := true } with
  | ok after => exact kept after ran
  | error reason => exact sound

mutual
theorem act_sound (lawful : env.base.Lawful isValid) {w : World S} (sound : Sound env isValid w) :
    ∀ action, Sound env isValid (act env w action).1
  | .execute args multisig gas paid finishes => by
    rw [act]
    exact sound_nonReentrant sound fun after done => sound.executed lawful done
  | .reconfigure args multisig finishes => by
    rw [act]
    exact sound_nonReentrant sound fun after done => sound.reconfigured lawful done
  | .receive value => by
    rw [act]
    apply sound.untouched
    refine ⟨rfl, rfl, rfl, rfl, rfl, codeKept_refl _, ?_⟩
    simp only
    omega
  | .setCode pointer code => by
    rw [act]
    exact sound.untouched ⟨rfl, rfl, rfl, rfl, rfl, replaceCode_kept _ _ _, rfl⟩
  | .block timestamp => by
    rw [act, if_neg (by simp [sound.idle])]
    exact sound.block _
  | .nested frame => by
    rw [act]
    cases ran : runFrame env w frame with
    | ok after => exact runFrame_sound lawful sound frame ran
    | error returned => exact sound

theorem runFrame_sound (lawful : env.base.Lawful isValid) {w after : World S} (sound : Sound env isValid w) :
    ∀ frame, runFrame env w frame = .ok after → Sound env isValid after
  | .returns returned, ran => by
    cases ran
    exact sound
  | .reverts returned, ran => by cases ran
  | .next action rest, ran => by
    rw [runFrame] at ran
    exact runFrame_sound lawful (act_sound lawful sound action) rest ran
end

theorem run_sound (lawful : env.base.Lawful isValid) {w : World S} (sound : Sound env isValid w)
    (actions : List Action) : Sound env isValid (run env w actions) := by
  induction actions generalizing w with
  | nil => exact sound
  | cons action rest ih => exact ih (act_sound lawful sound action)

end QVault.Proof.Chain
