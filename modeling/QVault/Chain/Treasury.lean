import QVault.Chain.Evm

/-!
# QVaultTreasury

`chain/src/QVaultTreasury.sol`. OpenZeppelin's MultiSignerERC7913, which it extends, is not in the
repository: it is the parameter `base`, and `Lawful` is what the treasury relies on.
-/

namespace QVault.Chain
open Python

/-! ## The base contract -/

-- The storage of MultiSignerERC7913 and its internal functions; `none` is a revert.
structure MultiSignerERC7913 (S : Type) where
  signers : S → Finset Bytes
  threshold : S → Uint64
  fresh : S
  addSigners : List Bytes → S → Option S
  removeSigners : List Bytes → S → Option S
  setThreshold : Uint64 → S → Option S
  rawSignatureValidation : S → Word → Bytes → Bool

structure MultiSignerERC7913.Lawful {S : Type} (base : MultiSignerERC7913 S)
    (isValid : Bytes → Word → Bytes → Prop) : Prop where
  fresh_signers : base.signers base.fresh = ∅
  -- `_addSigners` reverts on a signer that is already in the set.
  addSigners : ∀ added s s', base.addSigners added s = some s' →
    added.Nodup ∧ (∀ x ∈ added, x ∉ base.signers s) ∧ base.signers s' = base.signers s ∪ added.toFinset ∧
      base.threshold s' = base.threshold s
  -- `_removeSigners` reverts on an absent one, and when fewer than the threshold would remain.
  removeSigners : ∀ removed s s', base.removeSigners removed s = some s' →
    removed.Nodup ∧ (∀ x ∈ removed, x ∈ base.signers s) ∧ base.signers s' = base.signers s \ removed.toFinset ∧
      base.threshold s' = base.threshold s ∧ (base.threshold s').toNat ≤ (base.signers s').card
  -- `_setThreshold` reverts unless 1 <= threshold <= signer count.
  setThreshold : ∀ threshold s s', base.setThreshold threshold s = some s' →
    1 ≤ threshold.toNat ∧ threshold.toNat ≤ (base.signers s).card ∧ base.signers s' = base.signers s ∧
      base.threshold s' = threshold
  -- Threshold-many distinct current signers have each signed the digest.
  rawSignatureValidation : ∀ s digest multisig, base.rawSignatureValidation s digest multisig = true →
    ∃ approvals : List (Bytes × Bytes), (base.threshold s).toNat ≤ approvals.length ∧
      (approvals.map (·.1)).Nodup ∧ ∀ a ∈ approvals, a.1 ∈ base.signers s ∧ isValid a.1 digest a.2

/-! ## The contract -/

-- What the constructor and the chain fix
structure Deployment (S : Type) where
  base : MultiSignerERC7913 S
  keccak256 : Bytes → Word
  verifier : Address
  self : Address
  chainId : Word

structure Treasury (S : Type) where
  executed : Word → Bool
  configNonce : Word
  keyInUse : Word → Bool
  multiSigner : S

inductive Revert
  | verifierHasNoCode
  | alreadyExecuted (proposalId : Word)
  | invalidMultisig
  | expired (validUntil : Uint64)
  | callDataTooLarge (length max : Nat)
  | insufficientGas (available required : Nat)
  | callFailed (returndata : Bytes)
  | foreignSigner (signer : Bytes)
  | nonCanonicalKeyStorage (signer : Bytes)
  | keyContentMismatch (signer : Bytes)
  | duplicateKey (keyId : Word)
  | thresholdTooHigh (threshold max : Uint64)
  -- OpenZeppelin's own, the checked addition's, and running out of gas
  | multiSigner
  | reentrantCall
  | panic
  | outOfGas

def signerBytes : Nat := 124
def maxThreshold : Uint64 := 8
def maxCallDataBytes : Nat := 4096
def callReserve : Nat := 50000
def keyHalfBytes : Nat := 20160
def pointerCodeBytes : Nat := keyHalfBytes + 1

section Contract
variable {S : Type} (env : Deployment S)

def Treasury.signers (t : Treasury S) : Finset Bytes := env.base.signers t.multiSigner
def Treasury.threshold (t : Treasury S) : Uint64 := env.base.threshold t.multiSigner

/-! ### Digests -/

structure ExecuteArgs where
  proposalId : Word
  recipient : Address
  value : Word
  data : Bytes
  callGas : Uint64
  validUntil : Uint64

structure ReconfigureArgs where
  add : List Bytes
  remove : List Bytes
  newThreshold : Uint64
  validUntil : Uint64

def executeTag : Word := env.keccak256 (asciiBytes "QVAULT-TREASURY-v1:EXECUTE")
def reconfigureTag : Word := env.keccak256 (asciiBytes "QVAULT-TREASURY-v1:RECONFIGURE")

-- `abi.encode` of the fields of an approval
def executionMessage (nonce : Word) (args : ExecuteArgs) : Bytes :=
  ([executeTag env, env.chainId, env.self.setWidth 256, nonce, args.proposalId, args.recipient.setWidth 256,
    args.value, env.keccak256 args.data, args.callGas.setWidth 256, args.validUntil.setWidth 256] :
    List Word).flatMap abiWord

def executionDigest (nonce : Word) (args : ExecuteArgs) : Word := env.keccak256 (executionMessage env nonce args)

-- `bytes` in ABI form: the length, and the content padded to whole words
def abiBytes (b : Bytes) : Bytes :=
  abiWord (BitVec.ofNat 256 b.length) ++ b ++ List.replicate ((32 - b.length % 32) % 32) 0

-- `abi.encode(bytes[])`: where the array starts, its length, where each item starts, the items
def abiBytesArray (items : List Bytes) : Bytes :=
  let bodies := items.map abiBytes
  let offsets := (List.range items.length).map fun i =>
    32 * items.length + ((bodies.take i).map List.length).sum
  abiWord 32 ++ abiWord (BitVec.ofNat 256 items.length) ++ offsets.flatMap (fun o => abiWord (BitVec.ofNat 256 o)) ++
    bodies.flatten

def reconfigureDigest (nonce : Word) (args : ReconfigureArgs) : Word :=
  env.keccak256 (([reconfigureTag env, env.chainId, env.self.setWidth 256, nonce,
    env.keccak256 (abiBytesArray args.add), env.keccak256 (abiBytesArray args.remove),
    args.newThreshold.setWidth 256, args.validUntil.setWidth 256] : List Word).flatMap abiWord)

/-! ### Signers -/

structure ParsedSigner where
  verifier : Address
  pointer0 : Address
  pointer1 : Address
  codehash0 : Word
  codehash1 : Word

-- `_parseSigner`
def parseSigner (signer : Bytes) : ParsedSigner where
  verifier := BitVec.ofNat 160 (wordOf (signer.take 20))
  pointer0 := BitVec.ofNat 160 (wordOf ((signer.drop 20).take 20))
  pointer1 := BitVec.ofNat 160 (wordOf ((signer.drop 40).take 20))
  codehash0 := BitVec.ofNat 256 (wordOf ((signer.drop 60).take 32))
  codehash1 := BitVec.ofNat 256 (wordOf ((signer.drop 92).take 32))

-- `_isCanonicalStorage`
def isCanonicalStorage (code : Bytes) : Bool := code.length == pointerCodeBytes && beginsWithStop code

-- `_keyIdOf`, `none` where it is not readable
def keyIdOf (code : Bytes) : Option Word :=
  let trOffset := wordOf (codeSlice code 33 32)
  if trOffset < keyHalfBytes - 95 ∧ wordOf (codeSlice code (1 + trOffset) 32) = 64 then
    some (env.keccak256 (codeSlice code (1 + trOffset + 32) 64))
  else none

-- The key id of a signer, as `_addSigners` and `_releaseKeys` find it
def keyOf (code : Code) (signer : Bytes) : Option Word := keyIdOf env (code (parseSigner signer).pointer0)

-- The checks of `_addSigners` on one signer. The code hash of an address is only read where it has
-- code, and is then the hash of it.
def checkSigner (code : Code) (signer : Bytes) : Except Revert Word :=
  let parsed := parseSigner signer
  if signer.length ≠ signerBytes then .error (.foreignSigner signer)
  else if parsed.verifier ≠ env.verifier then .error (.foreignSigner signer)
  else if !isCanonicalStorage (code parsed.pointer0) || !isCanonicalStorage (code parsed.pointer1) then
    .error (.nonCanonicalKeyStorage signer)
  else if env.keccak256 (code parsed.pointer0) ≠ parsed.codehash0 ∨
      env.keccak256 (code parsed.pointer1) ≠ parsed.codehash1 then
    .error (.keyContentMismatch signer)
  else match keyOf env code signer with
    | none => .error (.nonCanonicalKeyStorage signer)
    | some keyId => .ok keyId

def setKey (keyInUse : Word → Bool) (keyId : Word) (held : Bool) : Word → Bool :=
  fun k => if k = keyId then held else keyInUse k

-- The loop of `_addSigners`
def takeKeys (code : Code) : List Bytes → (Word → Bool) → Except Revert (Word → Bool)
  | [], keyInUse => .ok keyInUse
  | signer :: rest, keyInUse =>
    match checkSigner env code signer with
    | .error revert => .error revert
    | .ok keyId =>
      if keyInUse keyId then .error (.duplicateKey keyId)
      else takeKeys code rest (setKey keyInUse keyId true)

-- `_releaseKeys`
def releaseKeys (code : Code) : List Bytes → (Word → Bool) → (Word → Bool)
  | [], keyInUse => keyInUse
  | signer :: rest, keyInUse =>
    if signer.length ≠ signerBytes then releaseKeys code rest keyInUse
    else match keyOf env code signer with
      | some keyId => releaseKeys code rest (setKey keyInUse keyId false)
      | none => releaseKeys code rest keyInUse

-- a function of the base contract, on the treasury's storage
def inBase (run : S → Option S) (t : Treasury S) : Except Revert (Treasury S) :=
  match run t.multiSigner with
  | some multiSigner => .ok { t with multiSigner }
  | none => .error .multiSigner

def addSigners (code : Code) (newSigners : List Bytes) (t : Treasury S) : Except Revert (Treasury S) := do
  let keyInUse ← takeKeys env code newSigners t.keyInUse
  inBase (env.base.addSigners newSigners) { t with keyInUse }

def setThreshold (newThreshold : Uint64) (t : Treasury S) : Except Revert (Treasury S) :=
  if maxThreshold < newThreshold then .error (.thresholdTooHigh newThreshold maxThreshold)
  else inBase (env.base.setThreshold newThreshold) t

def removeSigners (oldSigners : List Bytes) (t : Treasury S) : Except Revert (Treasury S) :=
  inBase (env.base.removeSigners oldSigners) t

def construct (code : Code) (signers : List Bytes) (threshold : Uint64) : Except Revert (Treasury S) := do
  if code env.verifier = [] then throw .verifierHasNoCode
  else
    let t ← addSigners env code signers ⟨fun _ => false, 0, fun _ => false, env.base.fresh⟩
    setThreshold env threshold t

/-! ### Reconfiguring -/

-- `configNonce = nonce + 1`, checked
def bumpNonce (t : Treasury S) : Except Revert (Treasury S) :=
  if t.configNonce = BitVec.allOnes 256 then .error .panic else .ok { t with configNonce := t.configNonce + 1 }

def changeSigners (args : ReconfigureArgs) (t : Treasury S) : Except Revert (Treasury S) :=
  if args.newThreshold < t.threshold env then do
    let t ← setThreshold env args.newThreshold t
    removeSigners env args.remove t
  else do
    let t ← removeSigners env args.remove t
    setThreshold env args.newThreshold t

-- `reconfigure` inside its reentrancy guard
def reconfigure (code : Code) (timestamp : Nat) (args : ReconfigureArgs) (multisig : Bytes) (t : Treasury S) :
    Except Revert (Treasury S) :=
  if args.validUntil.toNat < timestamp then .error (.expired args.validUntil)
  else if !env.base.rawSignatureValidation t.multiSigner (reconfigureDigest env t.configNonce args) multisig then
    .error .invalidMultisig
  else do
    let t ← bumpNonce t
    let t ← addSigners env code args.add { t with keyInUse := releaseKeys env code args.remove t.keyInUse }
    changeSigners env args t

/-! ### Executing -/

-- The gas a call to `execute` has where it checks, and what it spends between there and the CALL.
-- CALL_RESERVE is above the worst case of that.
structure GasUse where
  left : Nat
  overhead : Nat
  reserved : overhead ≤ callReserve

def requiredGas (callGas : Uint64) : Nat := callGas.toNat * 64 / 63 + callReserve

-- the gas the paid address can use
def gasGiven (gas : GasUse) (args : ExecuteArgs) : Nat :=
  min args.callGas.toNat (allButOne64th (gas.left - gas.overhead)) + if args.value = 0 then 0 else callStipend

-- `execute` up to its call
def openExecute (timestamp : Nat) (args : ExecuteArgs) (multisig : Bytes) (gas : GasUse) (t : Treasury S) :
    Except Revert (Treasury S) :=
  if t.executed args.proposalId then .error (.alreadyExecuted args.proposalId)
  else if args.validUntil.toNat < timestamp then .error (.expired args.validUntil)
  else if maxCallDataBytes < args.data.length then .error (.callDataTooLarge args.data.length maxCallDataBytes)
  else if !env.base.rawSignatureValidation t.multiSigner (executionDigest env t.configNonce args) multisig then
    .error .invalidMultisig
  else if gas.left < requiredGas args.callGas then .error (.insufficientGas gas.left (requiredGas args.callGas))
  else .ok { t with executed := setKey t.executed args.proposalId true }

end Contract

end QVault.Chain
