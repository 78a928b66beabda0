import Mathlib.Data.List.Basic
import QVault.Lib.DirtyWrite
import QVault.Lib.Runs
import QVault.Python.Text

/-!
# The outbox

`qvault/services/delivery_service.py`: emails and pushes queued once for each key, and the workers that claim them,
send them and write back what became of them. Moments are whole microseconds.
-/

namespace QVault.Services.Deliveries
open Python DirtyWrite

def second : Int := 1000000

def lease : Int := 10 * 60 * second
-- Seconds to wait after each failed attempt
def backoff : List Int := [60, 300, 1800, 7200, 21600]
def maxAttempts : Nat := backoff.length + 1
def batch : Nat := 50

inductive Status
  | pending | sending | sent | skipped | dead
  deriving DecidableEq

def Status.final : Status → Bool
  | .pending | .sending => false
  | .sent | .skipped | .dead => true

structure Delivery where
  channel : Text
  kind : Text
  invitationId : Option Nat
  pushTokenId : Option Nat
  dedupeKey : Text
  -- an invitation link's token, wrapped, with its nonce
  secret : Option (Bytes × Bytes)
  -- the token of a phone that was removed since
  pushTo : Option Text
  status : Status
  attempts : Nat
  nextAttemptAt : Option Int
  claimedAt : Option Int
  lastError : Option Text
  sentAt : Option Int
  deriving DecidableEq

-- The columns a unit of work writes back
def Delivery.write (loaded changed row : Delivery) : Delivery where
  channel := patch loaded.channel changed.channel row.channel
  kind := patch loaded.kind changed.kind row.kind
  invitationId := patch loaded.invitationId changed.invitationId row.invitationId
  pushTokenId := patch loaded.pushTokenId changed.pushTokenId row.pushTokenId
  dedupeKey := patch loaded.dedupeKey changed.dedupeKey row.dedupeKey
  secret := patch loaded.secret changed.secret row.secret
  pushTo := patch loaded.pushTo changed.pushTo row.pushTo
  status := patch loaded.status changed.status row.status
  attempts := patch loaded.attempts changed.attempts row.attempts
  nextAttemptAt := patch loaded.nextAttemptAt changed.nextAttemptAt row.nextAttemptAt
  claimedAt := patch loaded.claimedAt changed.claimedAt row.claimedAt
  lastError := patch loaded.lastError changed.lastError row.lastError
  sentAt := patch loaded.sentAt changed.sentAt row.sentAt

@[simp] theorem Delivery.write_loaded (loaded changed : Delivery) : Delivery.write loaded changed loaded = changed := by
  simp [Delivery.write]

/-! ## What becomes of a delivery -/

-- `_finish`
def finish (row : Delivery) (status : Status) (error : Option Text) : Delivery :=
  { row with
    status
    claimedAt := none
    nextAttemptAt := none
    lastError := match error with
      | some words => some (words.take 200)
      | none => row.lastError
    secret := none
    pushTo := none }

-- `_retry`, none where `BACKOFF` has no such index
def retry (row : Delivery) (now : Int) (error : Text) : Option Delivery :=
  if maxAttempts ≤ row.attempts then some (finish row .dead (some error))
  else (backoff[row.attempts - 1]?).map fun wait =>
    { row with
      status := .pending
      claimedAt := none
      lastError := some (error.take 200)
      nextAttemptAt := some (now + wait * second) }

-- What the transport answers
inductive Answer
  | accepted
  | alreadySent (error : Text)
  | refused (error : Text)
  | unavailable (error : Text)

-- What is read of the rest of the database and of the configuration when a delivery is sent
structure Reading where
  -- `public_base_url` and `channel_ready`
  emailReady : Bool
  -- why it should no longer go
  irrelevant : Option Text
  -- whether there are words for the event
  copy : Bool

def sentNow (row : Delivery) (now : Int) (error : Option Text) : Delivery := { finish row .sent error with sentAt := some now }

def answered (row : Delivery) (now : Int) : Answer → Option Delivery
  | .accepted => some (sentNow row now none)
  | .alreadySent error => some (sentNow row now (some error))
  | .refused error => some (finish row .dead (some error))
  | .unavailable error => retry row now error

-- `_deliver_email`
def deliverEmail (row : Delivery) (now : Int) (reading : Reading) (answer : Answer) : Option Delivery :=
  if !reading.emailReady then retry row now (text "email is not set up")
  else match reading.irrelevant with
    | some why => some (finish row .skipped (some why))
    | none =>
      if !reading.copy then some (finish row .skipped (some (text "no email for this event")))
      else answered row now answer

-- `_deliver_push`
def deliverPush (row : Delivery) (now : Int) (reading : Reading) (answer : Answer) : Option Delivery :=
  match reading.irrelevant with
  | some why => some (finish row .skipped (some why))
  | none =>
    if !reading.copy then some (finish row .skipped (some (text "no push for this event")))
    else answered row now answer

-- `_deliver`
def deliver (row : Delivery) (now : Int) (reading : Reading) (answer : Answer) : Option Delivery :=
  if row.channel = text "email" then deliverEmail row now reading answer
  else if row.channel = text "push" then deliverPush row now reading answer
  else some (finish row .dead (some (text "no such channel: " ++ row.channel)))

-- A claim left by a worker that stopped
def lapsed (row : Delivery) : Delivery :=
  if maxAttempts ≤ row.attempts then
    finish row .dead (some (text "the worker stopped while sending it, too many times"))
  else { row with status := .pending, claimedAt := none }

-- `sweep_held_links`, for a row that holds a link
def swept (row : Delivery) : Delivery :=
  if row.status = .pending then finish row .skipped (some (text "the invitation is no longer open"))
  else { row with secret := none }

/-! ## Workers -/

-- A row as it was loaded, and as it will be written
structure Edit where
  id : Nat
  loaded : Delivery
  changed : Delivery

inductive Work
  -- `sweep_held_links` has read what to erase.
  | sweeping (edits : List Edit)
  -- `deliver_due` has read the claims that lapsed, then written them back, then listed what is due.
  | lapsing (now : Int) (edits : List Edit)
  | listing (now : Int)
  | claiming (now : Int) (due : List Nat)
  -- It has claimed a row, then loaded it and is sending.
  | claimed (now : Int) (id : Nat) (due : List Nat)
  | holding (now : Int) (id : Nat) (row : Delivery) (due : List Nat)
  | stopped

structure World where
  now : Int
  -- by id
  rows : List Delivery
  workers : List Work
  -- each send that was begun
  sends : List Nat

def emptyWorld (now : Int) : World := ⟨now, [], [], []⟩

-- The rows that satisfy a query, with their ids
def select (rows : List Delivery) (query : Nat → Delivery → Bool) : List (Nat × Delivery) :=
  (rows.zipIdx.map fun entry => (entry.2, entry.1)).filter fun entry => query entry.1 entry.2

def writeAll (rows : List Delivery) (edits : List Edit) : List Delivery :=
  rows.mapIdx fun id row =>
    match edits.find? fun edit => edit.id = id with
    | some edit => Delivery.write edit.loaded edit.changed row
    | none => row

def lapsedEdits (rows : List Delivery) (now : Int) : List Edit :=
  (select rows fun _ row => row.status = .sending ∧ row.claimedAt.any fun claimed => claimed < now - lease).map
    fun entry => ⟨entry.1, entry.2, lapsed entry.2⟩

-- `open_` says which invitations are pending.
def sweptEdits (rows : List Delivery) (open_ : Option Nat → Bool) : List Edit :=
  (select rows fun _ row => row.kind = text "invitation" ∧ row.secret.isSome ∧ (row.status.final || !open_ row.invitationId)).map
    fun entry => ⟨entry.1, entry.2, swept entry.2⟩

def dueIds (rows : List Delivery) (now : Int) : List Nat :=
  ((select rows fun _ row => row.status = .pending ∧ row.nextAttemptAt.all (· ≤ now)).map (·.1)).take batch

-- `now` is when the tick began, not when the row is claimed.
def claim (row : Delivery) (now : Int) : Delivery :=
  { row with status := .sending, claimedAt := some now, attempts := row.attempts + 1 }

-- What a worker's next step does to the rows, where it is then, and what it begins to send
def proceed (rows : List Delivery) (reading : Reading) (answer : Answer) (broken : Bool) :
    Work → List Delivery × Work × Option Nat
  | .sweeping edits => (writeAll rows edits, .stopped, none)
  | .lapsing now edits => (writeAll rows edits, .listing now, none)
  | .listing now => (rows, .claiming now (dueIds rows now), none)
  | .claiming _ [] => (rows, .stopped, none)
  | .claiming now (id :: due) =>
    match rows[id]? with
    | some row =>
      if row.status = .pending then (rows.set id (claim row now), .claimed now id due, none)
      else (rows, .claiming now due, none)
    | none => (rows, .claiming now due, none)
  | .claimed now id due =>
    match rows[id]? with
    | some row => (rows, .holding now id row due, some id)
    | none => (rows, .stopped, none)
  | .holding now id loaded due =>
    match rows[id]? with
    | some row =>
      -- after an exception of another kind the row is loaded again
      match if broken then (retry row now (text "internal error")).map fun changed => (row, changed)
        else (deliver loaded now reading answer).map fun changed => (loaded, changed) with
      | some (loaded, changed) => (rows.set id (Delivery.write loaded changed row), .claiming now due, none)
      | none => (rows, .stopped, none)
    | none => (rows, .stopped, none)
  | .stopped => (rows, .stopped, none)

-- `revoke_push_token` of a removed phone, in the outbox
def keepPush (security : Text → Bool) (tokenId : Nat) (token : Text) (row : Delivery) : Delivery :=
  if row.pushTokenId = some tokenId ∧ row.status = .pending ∧ security row.kind = true then { row with pushTo := some token }
  else row

-- `_SECURITY`
def security (kind : Text) : Bool :=
  [text "device_enrolled", text "password_changed", text "device_removed", text "device_pairing_refused",
    text "password_guessed", text "recovery_waiting", text "recovery_cancelled", text "recovery_completed",
    text "recovery_kit_changed"].contains kind

-- A row as a trigger queues it
def queued (channel kind : Text) (invitationId pushTokenId : Option Nat) (dedupeKey : Text) (secret : Option (Bytes × Bytes))
    (now : Int) : Delivery :=
  ⟨channel, kind, invitationId, pushTokenId, dedupeKey, secret, none, .pending, 0, some now, none, none, none⟩

inductive Event
  | wait (time : Nat)
  -- `_insert`: a key that is there, or is written meanwhile, is left
  | enqueue (channel kind : Text) (invitationId pushTokenId : Option Nat) (dedupeKey : Text) (secret : Option (Bytes × Bytes))
  | sweep (open_ : Option Nat → Bool)
  -- A worker starts, with the time of now.
  | tick
  | work (worker : Nat) (reading : Reading) (answer : Answer) (broken : Bool)
  | crash (worker : Nat)
  | removePhone (tokenId : Nat) (token : Text)

def step (w : World) : Event → World
  | .wait time => { w with now := w.now + time }
  | .enqueue channel kind invitationId pushTokenId dedupeKey secret =>
    if w.rows.any fun row => row.dedupeKey = dedupeKey then w
    else { w with rows := w.rows ++ [queued channel kind invitationId pushTokenId dedupeKey secret w.now] }
  | .sweep open_ => { w with workers := w.workers ++ [.sweeping (sweptEdits w.rows open_)] }
  | .tick => { w with workers := w.workers ++ [.lapsing w.now (lapsedEdits w.rows w.now)] }
  | .work worker reading answer broken =>
    match w.workers[worker]? with
    | some work =>
      let (rows, work, begun) := proceed w.rows reading answer broken work
      { w with rows, workers := w.workers.set worker work, sends := begun.toList ++ w.sends }
    | none => w
  | .crash worker => { w with workers := w.workers.set worker .stopped }
  | .removePhone tokenId token => { w with rows := w.rows.map (keepPush security tokenId token) }

/-! ## In time -/

-- The write of a send comes within the lease of its tick, and no other write is overtaken.
def WrittenInTime (w : World) : Work → Prop
  | .sweeping edits => ∀ edit ∈ edits, w.rows[edit.id]? = some edit.loaded
  | .lapsing _ edits => ∀ edit ∈ edits, w.rows[edit.id]? = some edit.loaded
  | .holding now _ _ _ => w.now ≤ now + lease
  | _ => True

def InTime (w : World) : Event → Prop
  | .work worker _ _ _ => ∀ work ∈ w.workers[worker]?, WrittenInTime w work
  | _ => True

instance decidableWrittenInTime (w : World) : (work : Work) → Decidable (WrittenInTime w work)
  | .sweeping edits => inferInstanceAs (Decidable (∀ edit ∈ edits, w.rows[edit.id]? = some edit.loaded))
  | .lapsing _ edits => inferInstanceAs (Decidable (∀ edit ∈ edits, w.rows[edit.id]? = some edit.loaded))
  | .holding now _ _ _ => inferInstanceAs (Decidable (w.now ≤ now + lease))
  | .listing _ | .claiming _ _ | .claimed _ _ _ | .stopped => isTrue trivial

instance decidableInTime (w : World) : (event : Event) → Decidable (InTime w event)
  | .work worker _ _ _ => inferInstanceAs (Decidable (∀ work ∈ w.workers[worker]?, WrittenInTime w work))
  | .wait _ | .enqueue _ _ _ _ _ _ | .sweep _ | .tick | .crash _ | .removePhone _ _ => isTrue trivial

end QVault.Services.Deliveries
