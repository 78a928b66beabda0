import QVault.Mobile.Signing

/-!
# The payment text of the browser's verifier

`formatWei` and `paymentText` of `qvault/static/verifier.src.html`, on what `JSON.parse` gave it.
-/

namespace QVault.Static
open Mobile JsValue

-- An own key of `NETWORKS`
def networkName (chainId : JsValue) : Option JsString :=
  if chainId.same (.number (.ofInt 11155111)) then some (js "Sepolia") else none

def formatWei : JsValue → Option JsString
  | .string wei =>
    if 78 < wei.length || !isDecimal wei then none
    else
      let value := decimalValue wei
      let fraction := dropZeros (padStart 18 (utf16 (Python.natText (value % 10 ^ 18))))
      some (utf16 (Python.natText (value / 10 ^ 18)) ++ (if fraction.isEmpty then [] else js "." ++ fraction) ++ js " ETH")
  | _ => none

def isPayment : JsValue → Bool
  | .object _ => true
  | _ => false

def paymentText (action : JsValue) : Option JsString :=
  if !isPayment action then none
  else match formatWei (action.own "value_wei"), networkName (action.own "chain_id"), action.own "treasury",
      action.own "to" with
    | some eth, some network, .string treasury, .string recipient =>
      some (js "Pay " ++ eth ++ js " from this vault's treasury " ++ treasury ++ js " to " ++ recipient ++ js " on " ++
        network ++ js ".")
    | _, _, _, _ => none

end QVault.Static
