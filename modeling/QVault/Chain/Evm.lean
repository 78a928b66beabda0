import QVault.Python.Text
import Mathlib.Data.Finset.Card

/-!
# What a contract sees of the chain

Words, addresses, the code stored at an address, and the ABI encoding of words. keccak-256 is the
machine's and stays a parameter.
-/

namespace QVault.Chain
open Python

abbrev Word := BitVec 256
abbrev Address := BitVec 160
abbrev Uint64 := BitVec 64

abbrev Code := Address → Bytes

-- a big-endian number, as `mload` reads 32 bytes
def wordOf (bytes : Bytes) : Nat := bytes.foldl (fun n b => 256 * n + b.toNat) 0

-- `abi.encode` of a value that fills one word
def abiWord (value : Word) : Bytes :=
  (List.range 32).reverse.map fun i => UInt8.ofNat (value.toNat / 256 ^ i)

-- `extcodecopy`: bytes past the end read as zero.
def codeSlice (code : Bytes) (offset size : Nat) : Bytes :=
  let found := (code.drop offset).take size
  found ++ List.replicate (size - found.length) 0

-- Code that begins with STOP can never run, so it can never be replaced.
def beginsWithStop (code : Bytes) : Bool := code.head? == some 0

-- EIP-150: a call forwards at most 63/64 of the gas that is left.
def allButOne64th (gas : Nat) : Nat := gas - gas / 64

-- what the machine adds to the gas of a call that carries value
def callStipend : Nat := 2300

end QVault.Chain
