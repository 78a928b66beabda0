import Mathlib
import QVault.Services.Signing
import QVault.Transparency.Merkle
import QVault.Transparency.Statement

/-!
# What the offline verifiers share

A verification writes down its checks one after another until it is done or stops. The readers of
`qvault/verify/core.py` for values of untrusted JSON, and Python's dicts and sets of such values.
-/

namespace QVault.Verify
open Python Crypto

-- `_Malformed`, or whatever else a step can raise
inductive Stop
  | malformed
  | raised (error : PyError)
  deriving DecidableEq

inductive CheckKey
  | format | internal | content | signatures | authorisation | threshold | logEntries | binding | identity
  | execution | inclusion | checkpoint | witness | pinnedLog | pinnedWitness
  deriving DecidableEq

structure Check where
  key : CheckKey
  ok : Bool
  skipped : Bool
  deriving DecidableEq

structure Checked (α : Type) where
  checks : List Check
  result : Except Stop α

namespace Checked

instance : Monad Checked where
  pure a := ⟨[], .ok a⟩
  bind x f := match x.result with
    | .error stop => ⟨x.checks, .error stop⟩
    | .ok a => ⟨x.checks ++ (f a).checks, (f a).result⟩

end Checked

def step {α : Type} (result : Except Stop α) : Checked α := ⟨[], result⟩

def add (key : CheckKey) (ok : Bool) : Checked Unit := ⟨[⟨key, ok, false⟩], .ok ()⟩

def skip (key : CheckKey) : Checked Unit := ⟨[⟨key, false, true⟩], .ok ()⟩

structure Report where
  checks : List Check
  ok : Bool

def graded (checks : List Check) : List Check := checks.filter fun c => !c.skipped

def stopCheck : Stop → Check
  | .malformed => ⟨.format, false, false⟩
  | .raised _ => ⟨.internal, false, false⟩

def report {α : Type} (run : Checked α) : Report :=
  let checks := match run.result with
    | .ok _ => run.checks
    | .error stop => run.checks ++ [stopCheck stop]
  ⟨checks, !(graded checks).isEmpty && (graded checks).all (·.ok)⟩

/-! ## Readers -/

def raising {α : Type} (x : Except PyError α) : Except Stop α := x.mapError .raised

-- `_need`
def need (value : Json) (key : Text) : Except Stop Json :=
  match value with
  | .dict fields => (Json.lookup key fields).elim (.error .malformed) .ok
  | _ => .error .malformed

-- `_b64`
def readB64 : Json → Except Stop Bytes
  | .str value => (b64decode true value).mapError fun _ => .malformed
  | _ => .error .malformed

-- `_hex32`
def readHex32 : Json → Except Stop Bytes
  | .str value =>
    if value.length ≠ 64 then .error .malformed else (fromHex value).mapError fun _ => .malformed
  | _ => .error .malformed

def asList : Json → Except Stop (List Json)
  | .list items => .ok items
  | _ => .error .malformed

def asDict : Json → Except Stop (List (Text × Json))
  | .dict fields => .ok fields
  | _ => .error .malformed

-- `value.get(key)` where nothing says that `value` is a dict
def getAttr (value : Json) (key : Text) : Except Stop Json :=
  match value with
  | .dict fields => .ok (Json.get fields key)
  | _ => .error (.raised .attributeError)

def hash (value : Json) : Except Stop Unit :=
  if value.hashable then .ok () else .error (.raised .typeError)

def contains (items : List Json) (value : Json) : Bool := items.any value.same

-- `d[key] = value`: an equal key is kept and its value replaced.
def setKey {α : Type} (key : Json) (value : α) : List (Json × α) → List (Json × α)
  | [] => [(key, value)]
  | (k, v) :: rest => if key.same k then (k, value) :: rest else (k, v) :: setKey key value rest

def getKey {α : Type} (key : Json) (entries : List (Json × α)) : Option α :=
  (entries.find? fun e => key.same e.1).map (·.2)

-- `verify_inclusion` of numbers that `json.loads` can return. A float has no bits to shift.
def verifyInclusionOf (sha256 : Bytes → Bytes) (leaf : Bytes) (index treeSize : Json) (proof : List Bytes)
    (root : Bytes) : Except PyError Bool :=
  match index.number? with
  | none => .error .typeError
  | some i =>
    if i.lt (.int 0) then .ok false
    else match treeSize.number? with
      | none => .error .typeError
      | some n =>
        if n.lt (.int 0) || n.lt i || n.eq i then .ok false
        else match i, n with
          | .int i, .int n =>
            .ok (Transparency.verifyInclusion (Transparency.hashChildren sha256) leaf i n proof root)
          | _, _ =>
            if proof.isEmpty then .ok (n.eq (.int 1) && leaf == root)
            else if n.eq (.int 1) then .ok false
            else .error .typeError

/-! ## Pins -/

def lowerAscii (c : CodePoint) : CodePoint :=
  if 65 ≤ c.val && c.val ≤ 90 then Fin.ofNat _ (c.val + 32) else c

def isLowerHex (c : CodePoint) : Bool :=
  (48 ≤ c.val && c.val ≤ 57) || (97 ≤ c.val && c.val ≤ 102)

-- Only ASCII letters have one of `a` to `f` as their lower case.
def normalisePin : Json → Option Text
  | .str pin =>
    let clean := (strip pin).map lowerAscii
    if 16 ≤ clean.length && clean.length ≤ 64 && clean.all isLowerHex then some clean else none
  | _ => none

def pinMatches (pin keySha256 : Text) : Bool := keySha256.take pin.length == pin

def pinCheck (pin : Json) (hashes : List Text) : Bool :=
  match normalisePin pin with
  | none => false
  | some clean => hashes.any (pinMatches clean)

end QVault.Verify
