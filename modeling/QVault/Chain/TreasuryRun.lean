import QVault.Chain.Treasury

/-!
# What can happen to a treasury

Any contract can call it, inside frames that return or revert, and the address it pays can call
back before the payment is over. A frame that reverts leaves nothing.
-/

namespace QVault.Chain
open Python

/-! ## What was done -/

-- the CALL a successful `execute` makes
structure CallMade where
  recipient : Address
  value : Word
  data : Bytes
  gas : Nat
deriving DecidableEq

structure Payment (S : Type) where
  before : Treasury S
  timestamp : Nat
  args : ExecuteArgs
  multisig : Bytes
  call : CallMade

structure Reconfigured (S : Type) where
  before : Treasury S
  code : Code
  args : ReconfigureArgs

structure World (S : Type) where
  treasury : Treasury S
  balance : Nat
  entered : Bool
  code : Code
  timestamp : Nat
  payments : List (Payment S)
  reconfigurations : List (Reconfigured S)
  -- everything the treasury was ever paid
  received : Nat

def World.start {S : Type} (treasury : Treasury S) (code : Code) (balance timestamp : Nat) : World S :=
  ⟨treasury, balance, false, code, timestamp, [], [], balance⟩

/-! ## What happens -/

-- What the rest of the chain does, and what it calls. An `execute` carries what the address it pays
-- does with the call, and whether the gas lasts to the end.
mutual
inductive Action
  | execute (args : ExecuteArgs) (multisig : Bytes) (gas : GasUse) (paid : Frame) (finishes : Bool)
  | reconfigure (args : ReconfigureArgs) (multisig : Bytes) (finishes : Bool)
  | receive (value : Nat)
  | setCode (pointer : Address) (code : Bytes)
  | block (timestamp : Nat)
  | nested (frame : Frame)

inductive Frame
  | returns (returned : Bytes)
  | reverts (returned : Bytes)
  | next (action : Action) (rest : Frame)
end

inductive Outcome
  | done
  | reverted (reason : Revert)

section Run
variable {S : Type} (env : Deployment S)

-- `nonReentrant`, around a body that is given the world with the guard taken
def nonReentrant (w : World S) (body : World S → Except Revert (World S)) : World S × Outcome :=
  if w.entered then (w, .reverted .reentrantCall)
  else match body { w with entered := true } with
    | .ok after => ({ after with entered := false }, .done)
    | .error reason => (w, .reverted reason)

def reconfigureCall (args : ReconfigureArgs) (multisig : Bytes) (finishes : Bool) (w : World S) :
    Except Revert (World S) := do
  let treasury ← reconfigure env w.code w.timestamp args multisig w.treasury
  if finishes then
    return { w with treasury, reconfigurations := ⟨w.treasury, w.code, args⟩ :: w.reconfigurations }
  else throw .outOfGas

-- The value leaves with the call. A treasury that pays itself receives it back.
def transfer (args : ExecuteArgs) (w : World S) : Option (World S) :=
  if args.value.toNat ≤ w.balance then
    some { w with balance := w.balance - if args.recipient = env.self then 0 else args.value.toNat }
  else none

def recordPayment (before : Treasury S) (args : ExecuteArgs) (multisig : Bytes) (gas : GasUse)
    (w : World S) : World S :=
  { w with payments := ⟨before, w.timestamp, args, multisig,
      ⟨args.recipient, args.value, args.data, gasGiven gas args⟩⟩ :: w.payments }

-- `execute` inside its guard, given what the address it pays makes of the call
def executeCall (args : ExecuteArgs) (multisig : Bytes) (gas : GasUse)
    (paid : World S → Except Bytes (World S)) (finishes : Bool) (w : World S) : Except Revert (World S) := do
  let treasury ← openExecute env w.timestamp args multisig gas w.treasury
  match transfer env args { w with treasury } with
  | none => throw (.callFailed [])
  | some sent =>
    match paid sent with
    | .error returned => throw (.callFailed returned)
    | .ok after => if finishes then return recordPayment w.treasury args multisig gas after else throw .outOfGas

def replaceCode (code : Code) (pointer : Address) (replacement : Bytes) : Code :=
  if beginsWithStop (code pointer) then code else fun a => if a = pointer then replacement else code a

mutual
def act (w : World S) : Action → World S × Outcome
  | .execute args multisig gas paid finishes =>
    nonReentrant w (executeCall env args multisig gas (runFrame · paid) finishes)
  | .reconfigure args multisig finishes => nonReentrant w (reconfigureCall env args multisig finishes)
  | .receive value => ({ w with balance := w.balance + value, received := w.received + value }, .done)
  | .setCode pointer code => ({ w with code := replaceCode w.code pointer code }, .done)
  -- A block's time is the same through all its transactions.
  | .block timestamp => (if w.entered then w else { w with timestamp := max w.timestamp timestamp }, .done)
  | .nested frame =>
    match runFrame w frame with
    | .ok after => (after, .done)
    | .error _ => (w, .done)

def runFrame (w : World S) : Frame → Except Bytes (World S)
  | .returns _ => .ok w
  | .reverts returned => .error returned
  | .next action rest => runFrame (act w action).1 rest
end

def run (w : World S) (actions : List Action) : World S := actions.foldl (fun w action => (act env w action).1) w

end Run

end QVault.Chain
