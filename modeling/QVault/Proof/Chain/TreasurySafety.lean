import QVault.Proof.Chain.Abi
import QVault.Proof.Chain.TreasuryRun

/-!
# What a treasury guarantees

Different keys, no key locked out, and each decision paid at most once.
-/

namespace QVault.Proof.Chain
open QVault.Chain QVault.Python Results

/-! ## A small deployment -/

section Sample

structure Multisig where
  signers : Finset Bytes
  threshold : Uint64
deriving DecidableEq

def approvalsOf (multisig : Bytes) : List (Bytes × Bytes) :=
  (List.range (multisig.length / 156)).map fun i =>
    let approval := (multisig.drop (156 * i)).take 156
    (approval.take 124, approval.drop 124)

def multisigBase : MultiSignerERC7913 Multisig where
  signers s := s.signers
  threshold s := s.threshold
  fresh := ⟨∅, 0⟩
  addSigners added s :=
    if added.Nodup ∧ ∀ x ∈ added, x ∉ s.signers then some { s with signers := s.signers ∪ added.toFinset } else none
  removeSigners removed s :=
    if removed.Nodup ∧ (∀ x ∈ removed, x ∈ s.signers) ∧ s.threshold.toNat ≤ (s.signers \ removed.toFinset).card then
      some { s with signers := s.signers \ removed.toFinset }
    else none
  setThreshold threshold s :=
    if 1 ≤ threshold.toNat ∧ threshold.toNat ≤ s.signers.card then some { s with threshold } else none
  rawSignatureValidation s digest multisig :=
    decide (s.threshold.toNat ≤ (approvalsOf multisig).length ∧ ((approvalsOf multisig).map (·.1)).Nodup ∧
      ∀ a ∈ approvalsOf multisig, a.1 ∈ s.signers ∧ a.2 = abiWord digest)

theorem multisigBase_lawful : multisigBase.Lawful fun _ digest signature => signature = abiWord digest where
  fresh_signers := rfl
  addSigners added s s' done := by
    simp only [multisigBase, Option.ite_none_right_eq_some, Option.some.injEq] at done
    obtain ⟨⟨nodup, fresh⟩, rfl⟩ := done
    exact ⟨nodup, fresh, rfl, rfl⟩
  removeSigners removed s s' done := by
    simp only [multisigBase, Option.ite_none_right_eq_some, Option.some.injEq] at done
    obtain ⟨⟨nodup, present, reachable⟩, rfl⟩ := done
    exact ⟨nodup, present, rfl, rfl, reachable⟩
  setThreshold threshold s s' done := by
    simp only [multisigBase, Option.ite_none_right_eq_some, Option.some.injEq] at done
    obtain ⟨⟨positive, reachable⟩, rfl⟩ := done
    exact ⟨positive, reachable, rfl, rfl⟩
  rawSignatureValidation s digest multisig valid := ⟨approvalsOf multisig, of_decide_eq_true valid⟩

-- 32 bytes of the key, where its tr starts, how long that is, the 64 bytes of it, and the rest
def keyCode (b : UInt8) : Bytes :=
  0 :: (List.replicate 32 0 ++ abiWord 64 ++ abiWord 64 ++ List.replicate 64 b ++ List.replicate 20000 0)

def addressBytes (b : UInt8) : Bytes := List.replicate 19 0 ++ [b]

def smallSigner (b : UInt8) : Bytes := addressBytes 9 ++ addressBytes b ++ addressBytes b ++ List.replicate 64 0

def smallCode : Code := fun a => if a = 9 then [1] else keyCode (UInt8.ofNat a.toNat)

def smallEnv : Deployment Multisig where
  base := multisigBase
  keccak256 bytes := BitVec.ofNat 256 (bytes.headD 0).toNat
  verifier := 9
  self := 8
  chainId := 31337

theorem keyCode_canonical (b : UInt8) : isCanonicalStorage (keyCode b) = true := by
  have length : (keyCode b).length = pointerCodeBytes := by
    rw [keyCode]
    simp only [List.length_cons, List.length_append, List.length_replicate, abiWord_length]
    rfl
  rw [isCanonicalStorage, length]
  rfl

set_option maxRecDepth 20000 in
theorem smallSigner_parsed : ∀ b ∈ ([1, 2] : List UInt8),
    (smallSigner b).length = signerBytes ∧ (parseSigner (smallSigner b)).verifier = 9 ∧
    (parseSigner (smallSigner b)).pointer0 = BitVec.ofNat 160 b.toNat ∧
    (parseSigner (smallSigner b)).pointer1 = BitVec.ofNat 160 b.toNat ∧
    (parseSigner (smallSigner b)).codehash0 = 0 ∧ (parseSigner (smallSigner b)).codehash1 = 0 := by
  decide

set_option maxRecDepth 20000 in
theorem keyIdOf_small : ∀ b ∈ ([1, 2] : List UInt8), keyIdOf smallEnv (keyCode b) = some (BitVec.ofNat 256 b.toNat) := by
  decide

set_option maxRecDepth 20000 in
theorem smallCode_pointer : ∀ b ∈ ([1, 2] : List UInt8), smallCode (BitVec.ofNat 160 b.toNat) = keyCode b := by
  intro b small
  have other : BitVec.ofNat 160 b.toNat ≠ 9 := by
    revert b
    decide
  have read : UInt8.ofNat (BitVec.ofNat 160 b.toNat).toNat = b := by
    revert b
    decide
  rw [smallCode, if_neg other, read]

theorem smallSigner_identity : ∀ b ∈ ([1, 2] : List UInt8), Identity smallEnv smallCode (smallSigner b) ∧
    keyOf smallEnv smallCode (smallSigner b) = some (BitVec.ofNat 256 b.toNat) := by
  intro b small
  obtain ⟨length, verifier, pointer0, pointer1, codehash0, codehash1⟩ := smallSigner_parsed b small
  have stored := smallCode_pointer b small
  have key : keyOf smallEnv smallCode (smallSigner b) = some (BitVec.ofNat 256 b.toNat) := by
    rw [keyOf, pointer0, stored]
    exact keyIdOf_small b small
  refine ⟨⟨length, verifier, ?_, ?_, ?_, ?_, ?_⟩, key⟩
  · rw [pointer0, stored]
    exact keyCode_canonical b
  · rw [pointer1, stored]
    exact keyCode_canonical b
  · rw [pointer0, stored, codehash0]
    rfl
  · rw [pointer1, stored, codehash1]
    rfl
  · rw [key]
    rfl

theorem checkSigner_small : ∀ b ∈ ([1, 2] : List UInt8),
    checkSigner smallEnv smallCode (smallSigner b) = .ok (BitVec.ofNat 256 b.toNat) := by
  intro b small
  obtain ⟨identity, key⟩ := smallSigner_identity b small
  exact checkSigner_identity identity key

def smallTreasury : Treasury Multisig where
  executed _ := false
  configNonce := 0
  keyInUse := setKey (fun _ => false) 1 true
  multiSigner := ⟨{smallSigner 1}, 1⟩

theorem smallTreasury_built : construct smallEnv smallCode [smallSigner 1] 1 = .ok smallTreasury := by
  have took : takeKeys smallEnv smallCode [smallSigner 1] (fun _ => false) = .ok (setKey (fun _ => false) 1 true) := by
    rw [takeKeys, checkSigner_small 1 (by decide)]
    rfl
  unfold construct addSigners
  rw [if_neg (by decide), took]
  rfl

def smallWorld : World Multisig := World.start smallTreasury smallCode 5 1000

def reconfigureMultisig (args : ReconfigureArgs) : Bytes :=
  smallSigner 1 ++ abiWord (reconfigureDigest smallEnv 0 args)

-- A second signer joins, and both are needed from then on.
def join : ReconfigureArgs := ⟨[smallSigner 2], [], 2, 2000⟩

def joined : Treasury Multisig :=
  { smallTreasury with configNonce := 1, keyInUse := setKey smallTreasury.keyInUse 2 true,
                       multiSigner := ⟨{smallSigner 1, smallSigner 2}, 2⟩ }

-- A signer that is added and removed at once
def passThrough : ReconfigureArgs := ⟨[smallSigner 2], [smallSigner 2], 1, 2000⟩

def passedThrough : Treasury Multisig :=
  { smallTreasury with configNonce := 1, keyInUse := setKey (setKey smallTreasury.keyInUse 2 false) 2 true }

theorem changeSigners_raise {args : ReconfigureArgs} {t : Treasury Multisig} (removed : Multisig)
    {changed : Multisig} (raises : ¬args.newThreshold < t.threshold smallEnv)
    (remove : multisigBase.removeSigners args.remove t.multiSigner = some removed)
    (low : ¬maxThreshold < args.newThreshold)
    (set : multisigBase.setThreshold args.newThreshold removed = some changed) :
    changeSigners smallEnv args t = .ok { t with multiSigner := changed } := by
  rw [changeSigners, if_neg raises]
  refine bind_eq_ok.mpr ⟨{ t with multiSigner := removed }, inBase_some remove, ?_⟩
  rw [setThreshold, if_neg low]
  exact inBase_some set

theorem reconfigure_small {args : ReconfigureArgs} {keyInUse : Word → Bool} {s : Multisig} {after : Treasury Multisig}
    (inTime : 1000 ≤ args.validUntil.toNat)
    (signed : multisigBase.rawSignatureValidation smallTreasury.multiSigner (reconfigureDigest smallEnv 0 args)
      (reconfigureMultisig args) = true)
    (took : takeKeys smallEnv smallCode args.add (releaseKeys smallEnv smallCode args.remove smallTreasury.keyInUse) =
      .ok keyInUse)
    (grew : multisigBase.addSigners args.add smallTreasury.multiSigner = some s)
    (changed : changeSigners smallEnv args ⟨smallTreasury.executed, 1, keyInUse, s⟩ = .ok after) :
    reconfigure smallEnv smallCode 1000 args (reconfigureMultisig args) smallTreasury = .ok after := by
  unfold reconfigure
  rw [if_neg (not_lt.mpr inTime)]
  rw [show smallEnv.base.rawSignatureValidation smallTreasury.multiSigner
    (reconfigureDigest smallEnv smallTreasury.configNonce args) (reconfigureMultisig args) = true from signed]
  refine bind_eq_ok.mpr ⟨{ smallTreasury with configNonce := 1 }, rfl, ?_⟩
  refine bind_eq_ok.mpr ⟨⟨smallTreasury.executed, 1, keyInUse, s⟩, ?_, changed⟩
  refine bind_eq_ok.mpr ⟨keyInUse, took, ?_⟩
  exact inBase_some grew

set_option maxRecDepth 20000 in
theorem join_ok : reconfigure smallEnv smallCode 1000 join (reconfigureMultisig join) smallTreasury = .ok joined := by
  have took : takeKeys smallEnv smallCode [smallSigner 2] smallTreasury.keyInUse =
      .ok (setKey smallTreasury.keyInUse 2 true) := by
    rw [takeKeys, checkSigner_small 2 (by decide)]
    rfl
  refine reconfigure_small (s := ⟨{smallSigner 1, smallSigner 2}, 1⟩) (by decide) (by decide) took (by decide) ?_
  exact changeSigners_raise ⟨{smallSigner 1, smallSigner 2}, 1⟩ (by decide) (by decide) (by decide) (by decide)

set_option maxRecDepth 20000 in
theorem passThrough_ok : reconfigure smallEnv smallCode 1000 passThrough (reconfigureMultisig passThrough)
    smallTreasury = .ok passedThrough := by
  have took : takeKeys smallEnv smallCode [smallSigner 2]
      (releaseKeys smallEnv smallCode [smallSigner 2] smallTreasury.keyInUse) =
      .ok (setKey (setKey smallTreasury.keyInUse 2 false) 2 true) := by
    have length : (smallSigner 2).length = signerBytes := (smallSigner_parsed 2 (by decide)).1
    rw [takeKeys, checkSigner_small 2 (by decide), releaseKeys, if_neg (by simp [length]),
      (smallSigner_identity 2 (by decide)).2]
    rfl
  refine reconfigure_small (s := ⟨{smallSigner 1, smallSigner 2}, 1⟩) (by decide) (by decide) took (by decide) ?_
  exact changeSigners_raise ⟨{smallSigner 1}, 1⟩ (by decide) (by decide) (by decide) (by decide)

def payment : ExecuteArgs := ⟨7, 5, 1, [], 21000, 2000⟩

def executeMultisig (args : ExecuteArgs) : Bytes := smallSigner 1 ++ abiWord (executionDigest smallEnv 0 args)

def plentyOfGas : GasUse := ⟨200000, 40000, by decide⟩

-- The address that is paid calls back first.
def paidRun : List Action :=
  [.execute payment (executeMultisig payment) plentyOfGas
    (.next (.execute payment (executeMultisig payment) plentyOfGas (.returns []) true) (.returns [])) true]

end Sample

section Guarantees
variable {S : Type} {env : Deployment S} {isValid : Bytes → Word → Bytes → Prop} {code : Code}
  {signers : List Bytes} {threshold : Uint64} {t : Treasury S}

/-! ## M different keys -/

theorem signers_hold_different_keys (lawful : env.base.Lawful isValid)
    (built : construct env code signers threshold = .ok t) (balance timestamp : Nat) (actions : List Action) :
    let w := run env (World.start t code balance timestamp) actions
    1 ≤ (w.treasury.threshold env).toNat ∧
      (w.treasury.threshold env).toNat ≤ min 8 (w.treasury.signers env).card ∧
      (∀ x ∈ w.treasury.signers env, Identity env w.code x) ∧
      ∀ x ∈ w.treasury.signers env, ∀ y ∈ w.treasury.signers env,
        keyOf env w.code x = keyOf env w.code y → x = y := by
  have wellKeyed := (run_sound lawful (sound_start lawful built balance timestamp) actions).wellKeyed
  exact ⟨wellKeyed.positive, le_min wellKeyed.cap wellKeyed.reachable, wellKeyed.identities, wellKeyed.distinct⟩

theorem signers_hold_different_keys_joined :
    let w := run smallEnv smallWorld [.reconfigure join (reconfigureMultisig join) true]
    w.treasury = joined ∧ 1 ≤ (w.treasury.threshold smallEnv).toNat ∧
      (w.treasury.threshold smallEnv).toNat ≤ min 8 (w.treasury.signers smallEnv).card ∧
      (∀ x ∈ w.treasury.signers smallEnv, Identity smallEnv w.code x) ∧
      ∀ x ∈ w.treasury.signers smallEnv, ∀ y ∈ w.treasury.signers smallEnv,
        keyOf smallEnv w.code x = keyOf smallEnv w.code y → x = y := by
  refine ⟨?_, signers_hold_different_keys multisigBase_lawful smallTreasury_built 5 1000 _⟩
  rw [run, List.foldl_cons, act_reconfigure (w := smallWorld) rfl join_ok]
  rfl

/-! ## No key locked out -/

-- A key is in use exactly while a signer holds it, so a key that none holds can be registered.
structure KeysAvailable (env : Deployment S) (w : World S) : Prop where
  inUse : ∀ k, w.treasury.keyInUse k = true ↔ ∃ x ∈ w.treasury.signers env, keyOf env w.code x = some k
  registers : ∀ x, Identity env w.code x → (∀ y ∈ w.treasury.signers env, keyOf env w.code y ≠ keyOf env w.code x) →
    ∃ keyInUse, takeKeys env w.code [x] w.treasury.keyInUse = .ok keyInUse

theorem keysAvailable_iff {w : World S} (wellKeyed : WellKeyed env w.code w.treasury) :
    KeysAvailable env w ↔ NoKeyLockedOut env w.code w.treasury := by
  constructor
  · intro available k used
    exact (available.inUse k).mp used
  · intro free
    have inUse : ∀ k, w.treasury.keyInUse k = true ↔ ∃ x ∈ w.treasury.signers env, keyOf env w.code x = some k := by
      intro k
      constructor
      · exact free k
      · rintro ⟨x, signer, key⟩
        exact wellKeyed.held x signer k key
    refine ⟨inUse, ?_⟩
    intro x identity unheld
    obtain ⟨k, key⟩ := Option.isSome_iff_exists.mp identity.readable
    have unused : w.treasury.keyInUse k = false := by
      by_contra used
      obtain ⟨y, signer, yKey⟩ := free k (by simpa using used)
      exact unheld y signer (yKey.trans key.symm)
    refine ⟨setKey w.treasury.keyInUse k true, ?_⟩
    simp [takeKeys, checkSigner_identity identity key, unused]

theorem keys_available_iff_separate (lawful : env.base.Lawful isValid)
    (built : construct env code signers threshold = .ok t) (balance timestamp : Nat) (actions : List Action) :
    let w := run env (World.start t code balance timestamp) actions
    KeysAvailable env w ↔ ∀ r ∈ w.reconfigurations, Separate env r := by
  have sound := run_sound lawful (sound_start lawful built balance timestamp) actions
  exact (keysAvailable_iff sound.wellKeyed).trans sound.unlocked

theorem keys_available_iff_separate_joined :
    let w := run smallEnv smallWorld [.reconfigure join (reconfigureMultisig join) true]
    KeysAvailable smallEnv w ↔ ∀ r ∈ w.reconfigurations, Separate smallEnv r :=
  keys_available_iff_separate multisigBase_lawful smallTreasury_built 5 1000 _

-- The key of a signer that passed through stays in use, and nobody holds it.
theorem passed_key_locked_out :
    let w := run smallEnv smallWorld [.reconfigure passThrough (reconfigureMultisig passThrough) true]
    construct smallEnv smallCode [smallSigner 1] 1 = .ok smallTreasury ∧
      ¬∀ k, w.treasury.keyInUse k = true ↔ ∃ x ∈ w.treasury.signers smallEnv, keyOf smallEnv w.code x = some k := by
  refine ⟨smallTreasury_built, ?_⟩
  rw [run, List.foldl_cons, act_reconfigure (w := smallWorld) rfl passThrough_ok]
  intro available
  obtain ⟨x, signer, key⟩ := (available 2).mp rfl
  have own : x = smallSigner 1 := Finset.mem_singleton.mp signer
  rw [own] at key
  have held := (smallSigner_identity 1 (by decide)).2
  cases held.symm.trans key

/-! ## Paid once -/

theorem act_execute_done (args : ExecuteArgs) (multisig : Bytes) (gas : GasUse) (paid : Frame) (finishes : Bool)
    (lawful : env.base.Lawful isValid) {w : World S}
    (done : (act env w (.execute args multisig gas paid finishes)).2 = .done) :
    (act env w (.execute args multisig gas paid finishes)).1.payments =
      ⟨w.treasury, w.timestamp, args, multisig, ⟨args.recipient, args.value, args.data, gasGiven gas args⟩⟩ ::
        w.payments := by
  rw [act, nonReentrant] at done ⊢
  split at done
  · cases done
  · rename_i idle
    rw [if_neg idle]
    split at done
    · rename_i after ran
      simp only
      exact (executeCall_ok lawful rfl ran).payments
    · cases done

theorem act_reverted {w : World S} {reason : Revert} : ∀ action,
    (act env w action).2 = .reverted reason → (act env w action).1 = w
  | .execute args multisig gas paid finishes, reverted => by
    rw [act, nonReentrant] at reverted ⊢
    split at reverted <;> rename_i busy
    · rw [if_pos busy]
    · rw [if_neg busy]
      split at reverted
      · cases reverted
      · rename_i failed
        simp only
  | .reconfigure args multisig finishes, reverted => by
    rw [act, nonReentrant] at reverted ⊢
    split at reverted <;> rename_i busy
    · rw [if_pos busy]
    · rw [if_neg busy]
      split at reverted
      · cases reverted
      · rename_i failed
        simp only
  | .receive value, reverted => by cases reverted
  | .setCode pointer code, reverted => by cases reverted
  | .block timestamp, reverted => by cases reverted
  | .nested frame, reverted => by
    rw [act] at reverted
    split at reverted <;> cases reverted

-- What was paid, by a treasury that is in this world after a run
structure PaysOnce (env : Deployment S) (isValid : Bytes → Word → Bytes → Prop) (w : World S) : Prop where
  once : (w.payments.map fun p => p.args.proposalId).Nodup
  recorded : ∀ id, w.treasury.executed id = true ↔ ∃ p ∈ w.payments, p.args.proposalId = id
  rightly : ∀ p ∈ w.payments, RightlyPaid env isValid p
  funds : w.balance + paidOut env w.payments = w.received
  nonce : w.treasury.configNonce.toNat = w.reconfigurations.length
  -- An approval usable at two configurations would be a collision of keccak-256.
  separate : ∀ n m a b, n ≠ m → executionMessage env n a ≠ executionMessage env m b
  logged : ∀ args multisig gas paid finishes, (act env w (.execute args multisig gas paid finishes)).2 = .done →
    (act env w (.execute args multisig gas paid finishes)).1.payments =
      ⟨w.treasury, w.timestamp, args, multisig, ⟨args.recipient, args.value, args.data, gasGiven gas args⟩⟩ ::
        w.payments
  reverted : ∀ args multisig gas paid finishes reason,
    (act env w (.execute args multisig gas paid finishes)).2 = .reverted reason →
      (act env w (.execute args multisig gas paid finishes)).1 = w

end Guarantees

end QVault.Proof.Chain
