import QVault.Mobile.Execution

/-!
# An amount as a person types it

`parseEth` of `mobile/src/crypto/signing.ts`.
-/

namespace QVault.Mobile

def padEnd (width : Nat) (digits : JsString) : JsString :=
  digits ++ List.replicate (width - digits.length) (48 : CodeUnit)

-- `/^[0-9]+(\.[0-9]+)?$/` on the parts before and from the first point
def isAmount (whole rest : JsString) : Bool :=
  !whole.isEmpty && whole.all isDigitUnit && (rest.isEmpty || (1 < rest.length && (rest.drop 1).all isDigitUnit))

def parseEth (typed : JsString) : Option JsString :=
  let amount := trim typed
  let whole := amount.takeWhile (· != 46)
  let rest := amount.dropWhile (· != 46)
  if 100 < amount.length || !isAmount whole rest then none
  else
    let fraction := rest.drop 1
    if 18 < fraction.length then none
    else some (utf16 (Python.natText (decimalValue whole * weiPerEth + decimalValue (padEnd 18 fraction))))

end QVault.Mobile
