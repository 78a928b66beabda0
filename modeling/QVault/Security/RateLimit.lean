import QVault.Python.Text
import QVault.Lib.OrderedDict
import Mathlib.Data.Rat.Defs

/-!
# The rate limiter

`qvault/security/rate_limit.py`: hits of an address counted over a sliding window, each bucket with its
own addresses. Times are exact numbers.
-/

namespace QVault.Security
open Python

-- key -> the times it was counted, oldest first
structure Bucket where
  window : Rat
  hits : OrderedDict Text (List Rat)

structure Limiter where
  buckets : OrderedDict Text Bucket
  maxKeys : Nat

inductive LimiterError
  | keyError | indexError
  deriving DecidableEq

-- `SWEEP_PER_HIT`
def sweepPerHit : Int := 8

def Limiter.new (maxKeys : Nat) : Limiter := ⟨OrderedDict.empty, maxKeys⟩

namespace Bucket

-- How many keys at the front `sweep` drops: a budget below zero never runs out.
def swept (window now : Rat) : Int → List (Text × List Rat) → Nat
  | _, [] => 0
  | budget, (_, times) :: rest =>
    if budget = 0 then 0
    else if times.getLast?.any fun newest => now - window < newest then 0
    else swept window now (budget - 1) rest + 1

def sweep (b : Bucket) (now : Rat) (budget : Int) : Bucket :=
  { b with hits := b.hits.drop (swept b.window now budget b.hits.entries) }

end Bucket

namespace Limiter

-- The bucket of a name, with the window it is now used with
def bucketFor (limiter : Limiter) (bucket : Text) (window : Rat) : Bucket :=
  match limiter.buckets.get bucket with
  | some b => { b with window }
  | none => ⟨window, OrderedDict.empty⟩

-- `popitem(last=False)` until a key fits in
def makeRoom (hits : OrderedDict Text (List Rat)) (maxKeys : Nat) : OrderedDict Text (List Rat) :=
  hits.drop (hits.size + 1 - maxKeys)

-- The answer for a key whose hits are these, and its hits after it
def count (times : List Rat) (limit : Int) (window now : Rat) : Except LimiterError Rat × List Rat :=
  let times := times.dropWhile fun t => t ≤ now - window
  if limit ≤ times.length then
    match times with
    | [] => (.error .indexError, times)
    | oldest :: _ => (.ok (max 1 (oldest + window - now)), times)
  else (.ok 0, times ++ [now])

-- The buckets once this one is there and each is swept with its own window
def prepared (limiter : Limiter) (bucket : Text) (window now : Rat) : OrderedDict Text Bucket :=
  (limiter.buckets.put bucket (limiter.bucketFor bucket window)).mapValues fun _ other => other.sweep now sweepPerHit

def hit (limiter : Limiter) (bucket key : Text) (limit : Int) (window now : Rat) : Except LimiterError Rat × Limiter :=
  let buckets := limiter.prepared bucket window now
  match buckets.get bucket with
  | none => (.error .keyError, { limiter with buckets })
  | some b =>
    match b.hits.get key with
    | some times =>
      let (answer, counted) := count times limit window now
      let hits := b.hits.put key counted
      let hits := if answer = .ok 0 then hits.moveToEnd key else hits
      (answer, { limiter with buckets := buckets.put bucket { b with hits } })
    | none =>
      -- `popitem` of an empty dictionary
      if limiter.maxKeys = 0 then
        (.error .keyError, { limiter with buckets := buckets.put bucket { b with hits := OrderedDict.empty } })
      else
        let (answer, counted) := count [] limit window now
        let hits := (makeRoom b.hits limiter.maxKeys).put key counted
        (answer, { limiter with buckets := buckets.put bucket { b with hits } })

-- One bucket's `sweep`
def sweep (limiter : Limiter) (bucket : Text) (now : Rat) (budget : Int) : Limiter :=
  { limiter with buckets := limiter.buckets.mapValues fun name b => if name = bucket then b.sweep now budget else b }

-- A new key comes where there is no room for one.
def evicts (limiter : Limiter) (bucket key : Text) (window now : Rat) : Bool :=
  match (limiter.prepared bucket window now).get bucket with
  | none => false
  | some b => (b.hits.get key).isNone && limiter.maxKeys ≤ b.hits.size

end Limiter

/-! ## Calls -/

structure Limit where
  attempts : Int
  window : Rat
  positive : 1 ≤ attempts

inductive LimiterCall
  | hit (bucket key : Text) (now : Rat)
  | sweep (bucket : Text) (now : Rat) (budget : Int)

def LimiterCall.now : LimiterCall → Rat
  | .hit _ _ now => now
  | .sweep _ now _ => now

structure Answered where
  bucket : Text
  key : Text
  now : Rat
  answer : Except LimiterError Rat

-- The limiter and what it has answered, oldest first
structure Doors where
  limiter : Limiter
  answers : List Answered
  latest : Option Rat

def Doors.new (maxKeys : Nat) : Doors := ⟨Limiter.new maxKeys, [], none⟩

def Doors.step (limits : Text → Limit) (s : Doors) (call : LimiterCall) : Doors :=
  match call with
  | .hit bucket key now =>
    let (answer, limiter) := s.limiter.hit bucket key (limits bucket).attempts (limits bucket).window now
    ⟨limiter, s.answers ++ [⟨bucket, key, now, answer⟩], some now⟩
  | .sweep bucket now budget => ⟨s.limiter.sweep bucket now budget, s.answers, some now⟩

end QVault.Security
