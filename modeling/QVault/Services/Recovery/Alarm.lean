import QVault.Lib.Runs
import QVault.Services.Recovery.Requests

/-!
# Wrong codes side by side

`_count_attempt` and `_after_failure` of `qvault/services/recovery_service.py`, one statement at a time:
the row of an attempt is committed before its derivation, and what counts the rows, looks for an alarm
and raises one are statements that those of other attempts may come between.
-/

namespace QVault.Recovery.Alarm
open Recovery

inductive Stage
  | inserted
  | counted (recent : Nat)
  -- It found no alarm of this level.
  | clear (recent level : Nat)
  | done (recent : Nat)

-- An attempt with a wrong code, at the instant it began
structure Attempt where
  userId : Int
  now : Int
  stage : Stage

structure Tables where
  failures : List KitFailure
  pauses : List KitPause
  attempts : List Attempt

inductive Step
  | insert (userId now : Int)
  | count (attempt : Nat)
  | look (attempt : Nat)
  | raise (attempt : Nat)

namespace Tables
variable (s : Tables)

def recent (userId now : Int) : Nat :=
  (s.failures.filter fun f => f.userId = userId ∧ now - throttleWindow < f.createdAt).length

def heard (userId : Int) (level : Nat) (now : Int) : Bool :=
  s.pauses.any fun p => p.userId = userId && level ≤ p.level && now - throttleWindow < p.createdAt

def moved (attempt : Nat) (a : Attempt) (stage : Stage) : Tables :=
  { s with attempts := s.attempts.set attempt { a with stage := stage } }

-- `_count_attempt`
def insert (userId now : Int) : Tables :=
  { s with
    failures := s.failures ++ [⟨nextId (s.failures.map (·.id)), userId, now⟩]
    attempts := s.attempts ++ [⟨userId, now, .inserted⟩] }

def count (attempt : Nat) : Tables :=
  match s.attempts[attempt]? with
  | some ⟨userId, now, .inserted⟩ => s.moved attempt ⟨userId, now, .inserted⟩ (.counted (s.recent userId now))
  | _ => s

def look (attempt : Nat) : Tables :=
  match s.attempts[attempt]? with
  | some ⟨userId, now, .counted recent⟩ =>
    match alarmLevel recent with
    | none => s.moved attempt ⟨userId, now, .counted recent⟩ (.done recent)
    | some level =>
      s.moved attempt ⟨userId, now, .counted recent⟩
        (if s.heard userId level now then .done recent else .clear recent level)
  | _ => s

def raise (attempt : Nat) : Tables :=
  match s.attempts[attempt]? with
  | some ⟨userId, now, .clear recent level⟩ =>
    { s.moved attempt ⟨userId, now, .clear recent level⟩ (.done recent) with
      pauses := s.pauses ++ [⟨userId, now + pause, level, now⟩] }
  | _ => s

def next : Step → Tables
  | .insert userId now => s.insert userId now
  | .count attempt => s.count attempt
  | .look attempt => s.look attempt
  | .raise attempt => s.raise attempt

end Tables

def start : Tables := ⟨[], [], []⟩

def run (steps : List Step) : Tables := Runs.run Tables.next start steps

end QVault.Recovery.Alarm
