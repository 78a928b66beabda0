import QVault.Chain.Digest

/-!
# The action as it is signed

`EthTransfer.canonical`, `parse_eth_value` and `build_eth_transfer` of `qvault/chain/action.py`, the
last whatever a caller gives, and none where it raises.
-/

namespace QVault.Chain
open Python Services

def EthTransfer.canonicalFields (transfer : EthTransfer) : List (Text × Json) :=
  [("kind", .str "eth_transfer"), ("chain_id", .int transfer.chainId), ("treasury", .str transfer.treasury),
    ("to", .str transfer.recipient), ("value_wei", .str (intText transfer.valueWei)), ("data", .str "0x"),
    ("call_gas", .int transfer.callGas), ("valid_until", .int transfer.validUntil),
    ("config_nonce", .int transfer.configNonce)]

def EthTransfer.canonical (transfer : EthTransfer) : Json := .dict transfer.canonicalFields

/-! ## An amount -/

-- `fullmatch` of `[0-9]+(?:\.[0-9]+)?` on the parts before and from the first point
def isAmount (whole rest : Text) : Bool :=
  !whole.isEmpty && whole.all isAsciiDigit && (rest.isEmpty || (1 < rest.length && (rest.drop 1).all isAsciiDigit))

-- `parse_eth_value`
def parseEthValue (typed : Text) : Except Text Nat :=
  let amount := strip typed
  let whole := amount.takeWhile (· != codePoint '.')
  let rest := amount.dropWhile (· != codePoint '.')
  if 100 < amount.length || !isAmount whole rest then .error "enter an amount in ETH, such as 0.0001"
  else
    let fraction := rest.drop 1
    if 18 < fraction.length then .error "an ETH amount has at most 18 decimal places"
    else .ok (decimalValue whole * weiPerEth +
      decimalValue (fraction ++ List.replicate (18 - fraction.length) (digitChar 0)))

/-! ## A deadline -/

-- A `datetime`: what its clock shows, from 1970 in microseconds, and the offset of its zone where it has one
structure DateTime where
  clock : Int
  offset : Option Int

-- `datetime.max`
def lastClock : Int := 253402300800 * 10 ^ 6 - 1

-- `datetime + timedelta`, none where it raises OverflowError
def DateTime.add (d : DateTime) (micros : Int) : Option DateTime :=
  if d.clock + micros ≤ lastClock then some { d with clock := d.clock + micros } else none

-- `int` of a finite float
def truncated (x : Binary64) : Int := if x.negative then -⌊-x.toRat⌋ else ⌊x.toRat⌋

-- `int(d.timestamp())` of a datetime with a zone: the seconds are divided out as a float.
def timestamp (clock offset : Int) : Int :=
  let micros := clock - offset
  truncated (Binary64.round (micros < 0) (|(micros : Rat)| / 10 ^ 6))

/-! ## Building -/

section Building
variable (keccak256 : Bytes → Word)

-- `_address` of what may be written in any valid form
def anyAddress (value : Json) (what : Text) : Option Text :=
  match value with
  | .str address => (actionAddress keccak256 address what false).toOption
  | _ => none

def build (chainId treasury recipient valueWei : Json) (deadline : DateTime) (configNonce : Json) : Option EthTransfer := do
  let offset ← deadline.offset
  let last ← deadline.add (executionWindow * 10 ^ 6)
  let treasury ← anyAddress keccak256 treasury "treasury"
  let recipient ← anyAddress keccak256 recipient "recipient"
  let chainId ← integerField chainId
  let valueWei ← integerField valueWei
  let configNonce ← integerField configNonce
  (checkTransfer ⟨chainId, treasury, recipient, valueWei, ethTransferCallGas, timestamp last.clock offset,
    configNonce⟩).toOption

end Building

end QVault.Chain
