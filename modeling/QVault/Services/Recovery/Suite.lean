import QVault.Services.Recovery.Rows

/-!
# What recovery computes with

The cryptographic registry, the master key and the other things recovery calls and does not decide.
`Fresh` is what the random source gives an operation.
-/

namespace QVault.Recovery
open Python Crypto Services

structure Suite where
  sha256 : Bytes → Bytes
  hashPassword : Bytes → Text → Text
  verifyPassword : Text → Text → Bool
  deriveKek : Text → Bytes → Text → Bytes
  -- AES-256-GCM: key, nonce, data, associated data
  encrypt : Bytes → Bytes → Bytes → Bytes → Bytes
  decrypt : Bytes → Bytes → Bytes → Bytes → Option Bytes
  hasSignature : Text → Bool
  signatureSize : Text → Nat
  sign : Text → Bytes → Bytes → Bytes
  verify : Text → Bytes → Bytes → Bytes → Bool
  encapsulate : Bytes → Bytes → Bytes × Bytes
  decapsulate : Bytes → Bytes → Option Bytes
  ciphertextSize : Nat
  hkdf : Bytes → Bytes → Bytes
  kitPepper : Text → Bytes
  kitPkMac : Bytes → Bytes
  phoneCodeTag : Nat → Text → Text → Bytes
  -- `kit_code.normalise`
  kitCode : Text → Option Text
  lower : Text → Text
  upper : CodePoint → Text
  -- `strftime("%Y-%m-%dT%H:%M:%SZ")`
  isoZ : Int → Text
  -- the sentence a refusal is told in
  sentence : Refusal → Text
  activeSignatureAlg : Text
  deployment : Text

structure Fresh where
  uuid : Text
  token : Bytes
  passwordSalt : Bytes
  kekSalt : Bytes
  kitSalt : Bytes
  nonces : Nat → Bytes
  encapsulation : Nat → Bytes
  publicKey : Bytes
  secretKey : Bytes
  kemPublicKey : Bytes
  kemSecretKey : Bytes
  kitCode : Text
  phoneCodes : List Text

-- `DEFAULT_PARAMS` as the column holds it
def defaultParams : Text := "\x7b\"memory_cost\": 65536, \"parallelism\": 4, \"time_cost\": 3\x7d"

-- `_WRAP_AAD`
def wrapAad : Bytes := asciiBytes "qvault:sk-wrap:v1"

-- `str.encode("ascii")` of a text that has only such characters
def ascii (t : Text) : Bytes := t.map fun c => UInt8.ofNat c.val

-- `NEW_KEY_ALG`
def newKeyAlg : Text := "ML-DSA-65"

end QVault.Recovery
