import QVault.Chain.TreasuryRun
import QVault.Lib.Results
import Mathlib.Tactic

/-!
# The signers of a treasury and their keys

What one reconfiguration can do, and the invariant it keeps: every signer is an identity of this
treasury, and no two of them have one key.
-/

namespace QVault.Proof.Chain
open QVault.Chain QVault.Python Results

variable {S : Type} {env : Deployment S} {isValid : Bytes → Word → Bytes → Prop} {code : Code}
  {t after : Treasury S}

/-! ## Identities -/

-- An identity of this treasury's verifier, in canonical storage that matches its code hashes
structure Identity (env : Deployment S) (code : Code) (signer : Bytes) : Prop where
  length : signer.length = signerBytes
  verifier : (parseSigner signer).verifier = env.verifier
  canonical0 : isCanonicalStorage (code (parseSigner signer).pointer0) = true
  canonical1 : isCanonicalStorage (code (parseSigner signer).pointer1) = true
  codehash0 : env.keccak256 (code (parseSigner signer).pointer0) = (parseSigner signer).codehash0
  codehash1 : env.keccak256 (code (parseSigner signer).pointer1) = (parseSigner signer).codehash1
  readable : (keyOf env code signer).isSome = true

theorem checkSigner_ok {signer : Bytes} {keyId : Word} (checked : checkSigner env code signer = .ok keyId) :
    Identity env code signer ∧ keyOf env code signer = some keyId := by
  unfold checkSigner at checked
  simp only at checked
  split at checked
  · cases checked
  · rename_i length
    split at checked
    · cases checked
    · rename_i verifier
      split at checked
      · cases checked
      · rename_i canonical
        split at checked
        · cases checked
        · rename_i codehash
          split at checked
          · cases checked
          · rename_i found key
            cases checked
            simp only [Bool.or_eq_true, Bool.not_eq_true', not_or, Bool.not_eq_false] at canonical
            simp only [not_or, not_not] at codehash
            exact ⟨⟨not_not.mp length, not_not.mp verifier, canonical.1, canonical.2, codehash.1, codehash.2,
              by rw [key]; rfl⟩, key⟩

theorem checkSigner_identity {signer : Bytes} {keyId : Word} (identity : Identity env code signer)
    (key : keyOf env code signer = some keyId) : checkSigner env code signer = .ok keyId := by
  unfold checkSigner
  simp [identity.length, identity.verifier, identity.canonical0, identity.canonical1, identity.codehash0,
    identity.codehash1, key]

-- Code that begins with STOP is there for good.
def CodeKept (before after : Code) : Prop := ∀ a, beginsWithStop (before a) = true → after a = before a

theorem codeKept_refl (code : Code) : CodeKept code code := fun _ _ => rfl

theorem CodeKept.trans {first second third : Code} (early : CodeKept first second) (late : CodeKept second third) :
    CodeKept first third := by
  intro a stop
  have same := early a stop
  rw [late a (same ▸ stop), same]

theorem replaceCode_kept (code : Code) (pointer : Address) (replacement : Bytes) :
    CodeKept code (replaceCode code pointer replacement) := by
  intro a stop
  unfold replaceCode
  split
  · rfl
  · rename_i runs
    have other : a ≠ pointer := by
      rintro rfl
      exact runs stop
    simp [other]

theorem Identity.pointer0_stop {signer : Bytes} (identity : Identity env code signer) :
    beginsWithStop (code (parseSigner signer).pointer0) = true := by
  have canonical := identity.canonical0
  simp only [isCanonicalStorage, Bool.and_eq_true] at canonical
  exact canonical.2

theorem Identity.pointer1_stop {signer : Bytes} (identity : Identity env code signer) :
    beginsWithStop (code (parseSigner signer).pointer1) = true := by
  have canonical := identity.canonical1
  simp only [isCanonicalStorage, Bool.and_eq_true] at canonical
  exact canonical.2

theorem Identity.keyOf_kept {later : Code} {signer : Bytes} (identity : Identity env code signer)
    (kept : CodeKept code later) : keyOf env later signer = keyOf env code signer := by
  unfold keyOf
  rw [kept _ identity.pointer0_stop]

theorem Identity.kept {later : Code} {signer : Bytes} (identity : Identity env code signer)
    (kept : CodeKept code later) : Identity env later signer where
  length := identity.length
  verifier := identity.verifier
  canonical0 := by rw [kept _ identity.pointer0_stop]; exact identity.canonical0
  canonical1 := by rw [kept _ identity.pointer1_stop]; exact identity.canonical1
  codehash0 := by rw [kept _ identity.pointer0_stop]; exact identity.codehash0
  codehash1 := by rw [kept _ identity.pointer1_stop]; exact identity.codehash1
  readable := by rw [identity.keyOf_kept kept]; exact identity.readable

/-! ## Taking and releasing keys -/

theorem setKey_eq_true {keyInUse : Word → Bool} {keyId k : Word} {held : Bool} :
    setKey keyInUse keyId held k = true ↔ if k = keyId then held = true else keyInUse k = true := by
  unfold setKey
  split <;> rfl

structure KeysTaken (env : Deployment S) (code : Code) (added : List Bytes) (before after : Word → Bool) : Prop where
  identities : ∀ x ∈ added, Identity env code x
  free : ∀ x ∈ added, ∀ k, keyOf env code x = some k → before k = false
  distinct : added.Pairwise fun x y => keyOf env code x ≠ keyOf env code y
  taken : ∀ k, after k = true ↔ before k = true ∨ ∃ x ∈ added, keyOf env code x = some k

theorem takeKeys_ok {added : List Bytes} {before after : Word → Bool}
    (took : takeKeys env code added before = .ok after) : KeysTaken env code added before after := by
  induction added generalizing before with
  | nil =>
    cases took
    exact ⟨fun x none => (nomatch none), fun x none => (nomatch none), .nil, fun k => by simp⟩
  | cons first rest ih =>
    simp only [takeKeys] at took
    split at took
    · cases took
    · rename_i keyId checked
      obtain ⟨identity, key⟩ := checkSigner_ok checked
      split at took
      · cases took
      · rename_i free
        have rest := ih took
        refine ⟨?_, ?_, ?_, ?_⟩
        · intro x listed
          cases listed with
          | head => exact identity
          | tail _ later => exact rest.identities x later
        · intro x listed k isKey
          cases listed with
          | head =>
            cases key.symm.trans isKey
            simpa using free
          | tail _ later =>
            have unset := rest.free x later k isKey
            by_contra held
            rw [← Bool.not_eq_true, setKey_eq_true] at unset
            split at unset
            · exact unset rfl
            · exact held (by simpa using unset)
        · refine .cons ?_ rest.distinct
          intro y later same
          have unset := rest.free y later keyId (same ▸ key)
          simp [setKey] at unset
        · intro k
          rw [rest.taken, setKey_eq_true]
          by_cases own : k = keyId
          · subst own
            simp [key]
          · have other : keyOf env code first ≠ some k := by
              intro same
              exact own (Option.some.inj (same.symm.trans key))
            simp [own, other]

theorem releaseKeys_eq_true {removed : List Bytes} {keyInUse : Word → Bool} {k : Word} :
    releaseKeys env code removed keyInUse k = true ↔
      keyInUse k = true ∧ ∀ x ∈ removed, x.length = signerBytes → keyOf env code x ≠ some k := by
  induction removed generalizing keyInUse with
  | nil => simp [releaseKeys]
  | cons first rest ih =>
    simp only [releaseKeys]
    split
    · rename_i foreign
      rw [ih]
      simp [foreign]
    · rename_i length
      cases key : keyOf env code first with
      | some keyId =>
        simp only
        rw [ih, setKey_eq_true]
        by_cases own : k = keyId
        · subst own
          simp [key, not_not.mp length]
        · have other : ¬keyId = k := fun same => own same.symm
          simp [own, key, other]
      | none =>
        simp only
        rw [ih]
        simp [key]

/-! ## One reconfiguration -/

theorem inBase_ok {run : S → Option S} (done : inBase run t = .ok after) :
    ∃ s, run t.multiSigner = some s ∧ after = { t with multiSigner := s } := by
  unfold inBase at done
  split at done
  · rename_i s ran
    cases done
    exact ⟨s, ran, rfl⟩
  · cases done

theorem inBase_some {run : S → Option S} {s : S} (ran : run t.multiSigner = some s) :
    inBase run t = .ok { t with multiSigner := s } := by
  rw [inBase, ran]

theorem addSigners_ok (lawful : env.base.Lawful isValid) {added : List Bytes}
    (done : addSigners env code added t = .ok after) :
    KeysTaken env code added t.keyInUse after.keyInUse ∧ added.Nodup ∧ (∀ x ∈ added, x ∉ t.signers env) ∧
      after.signers env = t.signers env ∪ added.toFinset ∧ after.threshold env = t.threshold env ∧
      after.executed = t.executed ∧ after.configNonce = t.configNonce := by
  unfold addSigners at done
  obtain ⟨keyInUse, took, done⟩ := bind_eq_ok.mp done
  obtain ⟨s, ran, rfl⟩ := inBase_ok done
  obtain ⟨nodup, fresh, signers, threshold⟩ := lawful.addSigners _ _ _ ran
  exact ⟨takeKeys_ok took, nodup, fresh, signers, threshold, rfl, rfl⟩

theorem setThreshold_ok (lawful : env.base.Lawful isValid) {threshold : Uint64}
    (done : setThreshold env threshold t = .ok after) :
    1 ≤ threshold.toNat ∧ threshold.toNat ≤ 8 ∧ threshold.toNat ≤ (t.signers env).card ∧
      after.signers env = t.signers env ∧ after.threshold env = threshold ∧ after.keyInUse = t.keyInUse ∧
      after.executed = t.executed ∧ after.configNonce = t.configNonce := by
  unfold setThreshold at done
  split at done
  · cases done
  · rename_i low
    obtain ⟨s, ran, rfl⟩ := inBase_ok done
    obtain ⟨positive, reachable, signers, isThreshold⟩ := lawful.setThreshold _ _ _ ran
    have cap : threshold.toNat ≤ 8 := by
      simpa [maxThreshold, BitVec.lt_def] using low
    exact ⟨positive, cap, reachable, signers, isThreshold, rfl, rfl, rfl⟩

theorem removeSigners_ok (lawful : env.base.Lawful isValid) {removed : List Bytes}
    (done : removeSigners env removed t = .ok after) :
    removed.Nodup ∧ (∀ x ∈ removed, x ∈ t.signers env) ∧ after.signers env = t.signers env \ removed.toFinset ∧
      after.threshold env = t.threshold env ∧ (after.threshold env).toNat ≤ (after.signers env).card ∧
      after.keyInUse = t.keyInUse ∧ after.executed = t.executed ∧ after.configNonce = t.configNonce := by
  unfold removeSigners at done
  obtain ⟨s, ran, rfl⟩ := inBase_ok done
  obtain ⟨nodup, present, signers, threshold, reachable⟩ := lawful.removeSigners _ _ _ ran
  exact ⟨nodup, present, signers, threshold, reachable, rfl, rfl, rfl⟩

-- What the signer set and the threshold become, whichever is changed first
theorem changeSigners_ok (lawful : env.base.Lawful isValid) {args : ReconfigureArgs}
    (done : changeSigners env args t = .ok after) :
    (∀ x ∈ args.remove, x ∈ t.signers env) ∧ after.signers env = t.signers env \ args.remove.toFinset ∧
      after.threshold env = args.newThreshold ∧ 1 ≤ args.newThreshold.toNat ∧ args.newThreshold.toNat ≤ 8 ∧
      args.newThreshold.toNat ≤ (after.signers env).card ∧ after.keyInUse = t.keyInUse ∧
      after.executed = t.executed ∧ after.configNonce = t.configNonce := by
  unfold changeSigners at done
  split at done
  · obtain ⟨lowered, first, second⟩ := bind_eq_ok.mp done
    obtain ⟨positive, cap, -, signers, threshold, keys, executed, nonce⟩ := setThreshold_ok lawful first
    obtain ⟨-, present, signers', threshold', reachable, keys', executed', nonce'⟩ := removeSigners_ok lawful second
    rw [signers] at present signers'
    rw [threshold', threshold] at reachable
    exact ⟨present, signers', threshold'.trans threshold, positive, cap, reachable, keys'.trans keys,
      executed'.trans executed, nonce'.trans nonce⟩
  · obtain ⟨removed, first, second⟩ := bind_eq_ok.mp done
    obtain ⟨-, present, signers, threshold, -, keys, executed, nonce⟩ := removeSigners_ok lawful first
    obtain ⟨positive, cap, reachable, signers', threshold', keys', executed', nonce'⟩ :=
      setThreshold_ok lawful second
    rw [← signers'] at reachable
    exact ⟨present, signers'.trans signers, threshold', positive, cap, reachable, keys'.trans keys,
      executed'.trans executed, nonce'.trans nonce⟩

structure Changed (env : Deployment S) (isValid : Bytes → Word → Bytes → Prop) (code : Code) (timestamp : Nat)
    (args : ReconfigureArgs) (before after : Treasury S) : Prop where
  inTime : timestamp ≤ args.validUntil.toNat
  approved : ∃ approvals : List (Bytes × Bytes), (before.threshold env).toNat ≤ approvals.length ∧
    (approvals.map (·.1)).Nodup ∧ ∀ a ∈ approvals, a.1 ∈ before.signers env ∧
      isValid a.1 (reconfigureDigest env before.configNonce args) a.2
  nonce : after.configNonce.toNat = before.configNonce.toNat + 1
  executed : after.executed = before.executed
  keys : KeysTaken env code args.add (releaseKeys env code args.remove before.keyInUse) after.keyInUse
  fresh : ∀ x ∈ args.add, x ∉ before.signers env
  present : ∀ x ∈ args.remove, x ∈ before.signers env ∨ x ∈ args.add
  signers : ∀ x, x ∈ after.signers env ↔ (x ∈ before.signers env ∨ x ∈ args.add) ∧ x ∉ args.remove
  threshold : after.threshold env = args.newThreshold
  positive : 1 ≤ args.newThreshold.toNat
  cap : args.newThreshold.toNat ≤ 8
  reachable : args.newThreshold.toNat ≤ (after.signers env).card

theorem bumpNonce_ok (done : bumpNonce t = .ok after) :
    after = { t with configNonce := t.configNonce + 1 } ∧
      (t.configNonce + 1).toNat = t.configNonce.toNat + 1 := by
  unfold bumpNonce at done
  split at done
  · cases done
  · rename_i room
    cases done
    refine ⟨rfl, ?_⟩
    have below := t.configNonce.isLt
    have notMax : t.configNonce.toNat ≠ 2 ^ 256 - 1 := by
      intro max
      apply room
      apply BitVec.eq_of_toNat_eq
      rw [max, BitVec.toNat_allOnes]
    have one : (1 : Word).toNat = 1 := rfl
    rw [BitVec.toNat_add, one, Nat.mod_eq_of_lt (by omega)]

theorem reconfigure_ok (lawful : env.base.Lawful isValid) {timestamp : Nat} {args : ReconfigureArgs}
    {multisig : Bytes} (done : reconfigure env code timestamp args multisig t = .ok after) :
    Changed env isValid code timestamp args t after := by
  unfold reconfigure at done
  split at done
  · cases done
  · rename_i inTime
    split at done
    · cases done
    · rename_i signed
      obtain ⟨bumped, bump, done⟩ := bind_eq_ok.mp done
      obtain ⟨added, add, change⟩ := bind_eq_ok.mp done
      obtain ⟨rfl, nonce⟩ := bumpNonce_ok bump
      obtain ⟨keys, -, fresh, union, -, executed, nonce'⟩ := addSigners_ok lawful add
      obtain ⟨present, signers, threshold, positive, cap, reachable, keys', executed', nonce''⟩ :=
        changeSigners_ok lawful change
      have union' : added.signers env = t.signers env ∪ args.add.toFinset := union
      refine ⟨not_lt.mp inTime, lawful.rawSignatureValidation _ _ _ (by simpa using signed), ?_, ?_, ?_, fresh, ?_, ?_,
        threshold, positive, cap, reachable⟩
      · rw [nonce'', nonce']
        exact nonce
      · rw [executed', executed]
      · rw [keys']
        exact keys
      · intro x listed
        have both := present x listed
        rw [union', Finset.mem_union, List.mem_toFinset] at both
        exact both
      · intro x
        rw [signers, union', Finset.mem_sdiff, Finset.mem_union, List.mem_toFinset, List.mem_toFinset]

/-! ## The invariant -/

structure WellKeyed (env : Deployment S) (code : Code) (t : Treasury S) : Prop where
  identities : ∀ x ∈ t.signers env, Identity env code x
  distinct : ∀ x ∈ t.signers env, ∀ y ∈ t.signers env, keyOf env code x = keyOf env code y → x = y
  held : ∀ x ∈ t.signers env, ∀ k, keyOf env code x = some k → t.keyInUse k = true
  positive : 1 ≤ (t.threshold env).toNat
  cap : (t.threshold env).toNat ≤ 8
  reachable : (t.threshold env).toNat ≤ (t.signers env).card

theorem pairwise_unique {added : List Bytes} (distinct : added.Pairwise fun x y => keyOf env code x ≠ keyOf env code y)
    {x y : Bytes} (inX : x ∈ added) (inY : y ∈ added) (same : keyOf env code x = keyOf env code y) : x = y := by
  by_contra other
  have symmetric : Std.Symm fun x y => keyOf env code x ≠ keyOf env code y := ⟨fun _ _ apart same => apart same.symm⟩
  exact distinct.forall inX inY other same

-- A key that a removal released and an addition takes again has no other holder left.
theorem Changed.released {timestamp : Nat} {args : ReconfigureArgs} (wellKeyed : WellKeyed env code t)
    (changed : Changed env isValid code timestamp args t after) {x : Bytes} {k : Word} (signer : x ∈ t.signers env)
    (kept : x ∉ args.remove) (key : keyOf env code x = some k)
    (free : releaseKeys env code args.remove t.keyInUse k = false) :
    ∃ z ∈ args.add, z ∈ args.remove ∧ keyOf env code z = some k := by
  have inUse := wellKeyed.held x signer k key
  have released : ¬∀ z ∈ args.remove, z.length = signerBytes → keyOf env code z ≠ some k := by
    intro none
    rw [releaseKeys_eq_true.mpr ⟨inUse, none⟩] at free
    cases free
  push Not at released
  obtain ⟨z, removed, -, zKey⟩ := released
  cases changed.present z removed with
  | inl old =>
    have same := wellKeyed.distinct x signer z old (key.trans zKey.symm)
    exact absurd (same ▸ removed) kept
  | inr new => exact ⟨z, new, removed, zKey⟩

theorem Changed.wellKeyed {timestamp : Nat} {args : ReconfigureArgs} (wellKeyed : WellKeyed env code t)
    (changed : Changed env isValid code timestamp args t after) : WellKeyed env code after := by
  have mixed : ∀ x y, x ∈ t.signers env → x ∉ args.remove → y ∈ args.add → y ∉ args.remove →
      keyOf env code x ≠ keyOf env code y := by
    intro x y signer kept new staying same
    obtain ⟨k, key⟩ := Option.isSome_iff_exists.mp (wellKeyed.identities x signer).readable
    have free := changed.keys.free y new k (same ▸ key)
    obtain ⟨z, added, removed, zKey⟩ := changed.released wellKeyed signer kept key free
    have one := pairwise_unique changed.keys.distinct added new (zKey.trans (key.symm.trans same))
    exact staying (one ▸ removed)
  refine ⟨?_, ?_, ?_, ?_, ?_, ?_⟩
  · intro x signer
    cases ((changed.signers x).mp signer).1 with
    | inl old => exact wellKeyed.identities x old
    | inr new => exact changed.keys.identities x new
  · intro x signerX y signerY same
    obtain ⟨originX, keptX⟩ := (changed.signers x).mp signerX
    obtain ⟨originY, keptY⟩ := (changed.signers y).mp signerY
    cases originX with
    | inl oldX =>
      cases originY with
      | inl oldY => exact wellKeyed.distinct x oldX y oldY same
      | inr newY => exact absurd same (mixed x y oldX keptX newY keptY)
    | inr newX =>
      cases originY with
      | inl oldY => exact absurd same.symm (mixed y x oldY keptY newX keptX)
      | inr newY => exact pairwise_unique changed.keys.distinct newX newY same
  · intro x signer k key
    obtain ⟨origin, kept⟩ := (changed.signers x).mp signer
    rw [changed.keys.taken]
    cases origin with
    | inr new => exact .inr ⟨x, new, key⟩
    | inl old =>
      by_cases free : releaseKeys env code args.remove t.keyInUse k = true
      · exact .inl free
      · obtain ⟨z, added, -, zKey⟩ := changed.released wellKeyed old kept key (by simpa using free)
        exact .inr ⟨z, added, zKey⟩
  · rw [changed.threshold]
    exact changed.positive
  · rw [changed.threshold]
    exact changed.cap
  · rw [changed.threshold]
    exact changed.reachable

theorem WellKeyed.kept {later : Code} (wellKeyed : WellKeyed env code t) (kept : CodeKept code later) :
    WellKeyed env later t := by
  have same : ∀ x ∈ t.signers env, keyOf env later x = keyOf env code x :=
    fun x signer => (wellKeyed.identities x signer).keyOf_kept kept
  refine ⟨?_, ?_, ?_, wellKeyed.positive, wellKeyed.cap, wellKeyed.reachable⟩
  · intro x signer
    exact (wellKeyed.identities x signer).kept kept
  · intro x signerX y signerY equal
    rw [same x signerX, same y signerY] at equal
    exact wellKeyed.distinct x signerX y signerY equal
  · intro x signer k key
    rw [same x signer] at key
    exact wellKeyed.held x signer k key

/-! ## Keys locked out -/

-- Every key in use is some signer's.
def NoKeyLockedOut (env : Deployment S) (code : Code) (t : Treasury S) : Prop :=
  ∀ k, t.keyInUse k = true → ∃ x ∈ t.signers env, keyOf env code x = some k

-- No signer is both added and removed, unless its key stays with another signer.
def Separate (env : Deployment S) (r : Reconfigured S) : Prop :=
  ∀ x ∈ r.args.add, x ∈ r.args.remove →
    ∃ y ∈ r.before.signers env, y ∉ r.args.remove ∧ keyOf env r.code y = keyOf env r.code x

theorem NoKeyLockedOut.kept {later : Code} (wellKeyed : WellKeyed env code t) (kept : CodeKept code later) :
    NoKeyLockedOut env later t ↔ NoKeyLockedOut env code t := by
  have same : ∀ x ∈ t.signers env, keyOf env later x = keyOf env code x :=
    fun x signer => (wellKeyed.identities x signer).keyOf_kept kept
  constructor
  · intro free k used
    obtain ⟨x, signer, key⟩ := free k used
    exact ⟨x, signer, same x signer ▸ key⟩
  · intro free k used
    obtain ⟨x, signer, key⟩ := free k used
    exact ⟨x, signer, (same x signer).trans key⟩

section Locked
variable {timestamp : Nat} {args : ReconfigureArgs}

theorem Changed.separate (changed : Changed env isValid code timestamp args t after)
    (free : NoKeyLockedOut env code after) : Separate env ⟨t, code, args⟩ := by
  intro x added removed
  obtain ⟨k, key⟩ := Option.isSome_iff_exists.mp (changed.keys.identities x added).readable
  obtain ⟨y, signer, yKey⟩ := free k ((changed.keys.taken k).mpr (.inr ⟨x, added, key⟩))
  obtain ⟨origin, kept⟩ := (changed.signers y).mp signer
  cases origin with
  | inl old => exact ⟨y, old, kept, yKey.trans key.symm⟩
  | inr new =>
    have one := pairwise_unique changed.keys.distinct new added (yKey.trans key.symm)
    exact absurd (one ▸ removed) kept

theorem Changed.unlocked_before (changed : Changed env isValid code timestamp args t after)
    (free : NoKeyLockedOut env code after) : NoKeyLockedOut env code t := by
  intro k used
  by_cases stays : releaseKeys env code args.remove t.keyInUse k = true
  · obtain ⟨y, signer, yKey⟩ := free k ((changed.keys.taken k).mpr (.inl stays))
    cases ((changed.signers y).mp signer).1 with
    | inl old => exact ⟨y, old, yKey⟩
    | inr new =>
      rw [changed.keys.free y new k yKey] at stays
      cases stays
  · have released : ¬∀ z ∈ args.remove, z.length = signerBytes → keyOf env code z ≠ some k := by
      intro none
      exact stays (releaseKeys_eq_true.mpr ⟨used, none⟩)
    push Not at released
    obtain ⟨z, removed, -, zKey⟩ := released
    cases changed.present z removed with
    | inl old => exact ⟨z, old, zKey⟩
    | inr new =>
      obtain ⟨y, signer, -, same⟩ := changed.separate free z new removed
      exact ⟨y, signer, same.trans zKey⟩

theorem Changed.unlocked_after (wellKeyed : WellKeyed env code t)
    (changed : Changed env isValid code timestamp args t after) (free : NoKeyLockedOut env code t)
    (separate : Separate env ⟨t, code, args⟩) : NoKeyLockedOut env code after := by
  intro k used
  cases (changed.keys.taken k).mp used with
  | inl stays =>
    obtain ⟨used, unreleased⟩ := releaseKeys_eq_true.mp stays
    obtain ⟨y, signer, yKey⟩ := free k used
    have kept : y ∉ args.remove := by
      intro removed
      exact unreleased y removed (wellKeyed.identities y signer).length yKey
    exact ⟨y, (changed.signers y).mpr ⟨.inl signer, kept⟩, yKey⟩
  | inr taken =>
    obtain ⟨x, added, key⟩ := taken
    by_cases removed : x ∈ args.remove
    · obtain ⟨y, signer, kept, same⟩ := separate x added removed
      exact ⟨y, (changed.signers y).mpr ⟨.inl signer, kept⟩, same.trans key⟩
    · exact ⟨x, (changed.signers x).mpr ⟨.inr added, removed⟩, key⟩

theorem Changed.unlocked_iff (wellKeyed : WellKeyed env code t)
    (changed : Changed env isValid code timestamp args t after) :
    NoKeyLockedOut env code after ↔ NoKeyLockedOut env code t ∧ Separate env ⟨t, code, args⟩ :=
  ⟨fun free => ⟨changed.unlocked_before free, changed.separate free⟩,
    fun both => changed.unlocked_after wellKeyed both.1 both.2⟩

end Locked

/-! ## Construction -/

theorem construct_ok (lawful : env.base.Lawful isValid) {signers : List Bytes} {threshold : Uint64}
    (built : construct env code signers threshold = .ok t) :
    WellKeyed env code t ∧ NoKeyLockedOut env code t ∧ (∀ id, t.executed id = false) ∧ t.configNonce = 0 := by
  unfold construct at built
  split at built
  · cases built
  · obtain ⟨added, add, set⟩ := bind_eq_ok.mp built
    obtain ⟨keys, -, -, isSigner, -, executed, nonce⟩ := addSigners_ok lawful add
    obtain ⟨positive, cap, reachable, same, isThreshold, sameKeys, executed', nonce'⟩ := setThreshold_ok lawful set
    have member : ∀ x, x ∈ t.signers env ↔ x ∈ signers := by
      intro x
      have none : Treasury.signers env ⟨fun _ => false, 0, fun _ => false, env.base.fresh⟩ = ∅ :=
        lawful.fresh_signers
      rw [same, isSigner, none, Finset.empty_union, List.mem_toFinset]
    refine ⟨⟨?_, ?_, ?_, ?_, ?_, ?_⟩, ?_, ?_, ?_⟩
    · intro x signer
      exact keys.identities x ((member x).mp signer)
    · intro x signerX y signerY equal
      exact pairwise_unique keys.distinct ((member x).mp signerX) ((member y).mp signerY) equal
    · intro x signer k key
      rw [sameKeys, keys.taken]
      exact .inr ⟨x, (member x).mp signer, key⟩
    · rw [isThreshold]
      exact positive
    · rw [isThreshold]
      exact cap
    · rw [isThreshold, same]
      exact reachable
    · intro k used
      rw [sameKeys, keys.taken] at used
      obtain ⟨x, listed, key⟩ := used.resolve_left (by simp)
      exact ⟨x, (member x).mpr listed, key⟩
    · intro id
      rw [executed', executed]
    · rw [nonce', nonce]

end QVault.Proof.Chain
