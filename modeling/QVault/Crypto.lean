import QVault.Python.Json

/-!
# Hashes and signature providers

`qvault/crypto`: SHA-256 is a function on bytes, and a registry maps an `alg_id` to the provider's
`verify`, which answers yes or no and never raises.
-/

namespace QVault.Crypto
open Python

structure CryptoRegistry where
  signature : Text → Option (Bytes → Bytes → Bytes → Bool)

-- `registry.has_signature(alg_id)`; a list or a dict is not hashable.
def CryptoRegistry.hasSignature (registry : CryptoRegistry) : Json → Except PyError Bool
  | .str algId => .ok (registry.signature algId).isSome
  | .list _ | .dict _ => .error .typeError
  | _ => .ok false

-- `registry.signature(alg_id).verify(public_key, message, signature)`
def CryptoRegistry.verify (registry : CryptoRegistry) (algId : Json) (publicKey message signature : Bytes) :
    Bool :=
  match algId with
  | .str algId =>
    match registry.signature algId with
    | some verify => verify publicKey message signature
    | none => false
  | _ => false

def sha256Hex (sha256 : Bytes → Bytes) (data : Bytes) : Text := hexText (sha256 data)

end QVault.Crypto
