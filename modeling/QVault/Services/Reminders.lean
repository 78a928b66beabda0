import QVault.Services.NeedsYou
import QVault.Lib.Runs
import QVault.Lib.UniqueTable

/-!
# Reminders

`send_reminders`, `_remind_one`, `remind_state`, `remind` and `_send` of
`qvault/services/notification_service.py`, run by any number of processes on one notifications table.
-/

namespace QVault.Services.Reminders
open Python

/-! ## Time, in microseconds -/

def day : Int := 86400 * 1000000

def dueSoon : Int := day
def remindEvery : Int := day
def reminderStages : List Nat := [1, 3, 6]

-- Monday is 0, and the first of January 1970 was a Thursday.
def weekday (moment : Int) : Int := (moment / day + 3) % 7

-- The loop of `add_business_days`, with the days still to count. No three days in a row are at weekends.
def businessDays : (fuel : Nat) → (moment : Int) → (left : Nat) → Int
  | 0, moment, _ => moment
  | _, moment, 0 => moment
  | fuel + 1, moment, left + 1 =>
    let next := moment + day
    if weekday next < 5 then businessDays fuel next left else businessDays fuel next (left + 1)

def addBusinessDays (start : Int) (days : Nat) : Int := businessDays (3 * days) start days

-- The last of the stages that are due
def stageDue (raised now : Int) : Option Nat :=
  (reminderStages.filter fun stage => addBusinessDays raised stage ≤ now).getLast?

-- `int((now - raised) / REMIND_EVERY)`: a float, cut off towards zero
def askedDay (raised now : Int) : Int :=
  let days : Rat := (now - raised : Int) / (remindEvery : Int)
  let rounded := (Binary64.round (days < 0) |days|).toRat
  Int.tdiv rounded.num rounded.den

/-! ## The notifications table -/

-- What one call of `_send` tells each of its recipients
structure Delivery where
  kind : Text
  key : Text
  createdAt : Int
  vaultId : Option Int
  proposalId : Option Nat
  actorId : Option Int
  data : Option Json

structure Notification extends Delivery where
  recipientId : Int

-- `uq_notification_dedupe`
def dedupe (row : Notification) : Int × Text := (row.recipientId, row.key)

abbrev Table := UniqueTable dedupe

def reminderKind : Text := "decision_reminder"
def dueSoonKind : Text := "decision_due_soon"

def stageKey (uuid : Text) (stage : Nat) : Text := text "decision_reminder:" ++ uuid ++ text ":" ++ natText stage
def askedKey (uuid : Text) (day : Int) : Text := text "decision_reminder:" ++ uuid ++ text ":asked:" ++ intText day
def dueSoonKey (uuid : Text) : Text := text "decision_due_soon:" ++ uuid

def stageData (stage : Nat) : Json := .dict [("stage", .int stage)]
def askedData : Json := .dict [("asked", .bool true)]

-- The rows a person is told through, with what they have switched off in the inbox
structure Noticeboard where
  now : Int
  database : Database
  switchedOff : List (Int × Text)
  table : Table

namespace Noticeboard
variable (board : Noticeboard)

-- `_wanting` on the channel `in_app`, of kinds that are no security kinds
def wanting (ids : List Int) (kind : Text) : List Int :=
  (ids.filter fun id => !board.switchedOff.contains (id, kind)).insertionSort (· ≤ ·)

-- Whom `_send` writes a row for: those who want it and were not told, as the transaction reads the table
def untold (transaction : Nat) (ids : List Int) (delivery : Delivery) : List Int :=
  (board.wanting ids delivery.kind).filter fun id =>
    !(board.table.seen transaction).any fun row => dedupe row = (id, delivery.key)

def eligible (p : Proposal) : List Int :=
  eligibleIds p (board.database.signersNow p.vaultId) (board.database.allowsRequester p.vaultId)

-- `_waiting_approvers`
def waitingApprovers (p : Proposal) : List Int :=
  (board.eligible p).filter fun id => id != p.creatorId && !p.hasVoted id

-- A decision the run loaded when it started, with the votes of now
def withVotes (p : Proposal) : Proposal :=
  match board.database.proposals.find? fun q => q.id = p.id with
  | some q => { p with signatures := q.signatures }
  | none => p

end Noticeboard

variable (raisedAt : Text → Option Int)

/-! ## The scheduled run -/

-- `_remind_one` up to its call of `_send`, none also where `_raised_at` raises
def remindOne (board : Noticeboard) (now : Int) (p : Proposal) : Option (Delivery × List Int) :=
  let waiting := board.waitingApprovers p
  if waiting.isEmpty || board.database.cannotPass p then none
  else match raisedAt p.createdAtIso with
    | none => none
    | some raised =>
      match p.expiresAt.filter fun expires => expires - now ≤ dueSoon with
      | some expires =>
        if expires - raised ≤ dueSoon then none
        else some (⟨dueSoonKind, dueSoonKey p.proposalUuid, now, some p.vaultId, some p.id, some p.creatorId, none⟩, waiting)
      | none =>
        (stageDue raised now).map fun stage =>
          (⟨reminderKind, stageKey p.proposalUuid stage, now, some p.vaultId, some p.id, none, some (stageData stage)⟩,
            waiting)

-- the decisions `send_reminders` goes through, in the order of their ids
def openDecisions (board : Noticeboard) (now : Int) : List Proposal :=
  (board.database.proposals.filter fun p => p.status = .open && p.expiresAt.all fun expires => now < expires).insertionSort
    fun p q => p.id ≤ q.id

/-! ## The requester's Remind -/

inductive Refusal
  | notRequester | closed (status : Status) | allVoted | cannotPass | tooSoon (last next : Int)

structure RemindState where
  allowed : Bool
  offered : Bool
  waiting : Nat
  refusal : Option Refusal
  lastSent : Option Int
  nextAt : Option Int

-- When the requester last sent a reminder of the decision, among the rows a reader sees
def lastReminder (rows : List Notification) (p : Proposal) (requester : Int) : Option Int :=
  ((rows.filter fun r => r.proposalId = some p.id && r.kind = reminderKind && r.actorId = some requester).map
    (·.createdAt)).max?

def remindState (board : Noticeboard) (rows : List Notification) (p : Proposal) (requester now : Int) : RemindState :=
  let waiting := board.waitingApprovers p
  let last := lastReminder rows p requester
  let next := last.bind fun last => if now - last < remindEvery then some (last + remindEvery) else none
  let status := effectiveStatus board.database.directory p now
  let (offered, refusal) :=
    if p.creatorId ≠ requester then (false, some .notRequester)
    else if status ≠ .open then (false, some (.closed status))
    else if waiting.isEmpty then (false, some .allVoted)
    else if board.database.cannotPass p then (false, some .cannotPass)
    else match last, next with
      | some last, some next => (true, some (.tooSoon last next))
      | _, _ => (true, none)
  ⟨refusal.isNone, offered, waiting.length, refusal, last, next⟩

-- What `remind` sends once it is allowed
def askedDelivery (now raised : Int) (p : Proposal) (requester : Int) : Delivery :=
  ⟨reminderKind, askedKey p.proposalUuid (askedDay raised now), now, some p.vaultId, some p.id, some requester,
    some askedData⟩

/-! ## Processes -/

inductive Job
  -- in `send_reminders`, with the decisions it has still to look at, or at the commit that ends any run
  | reminding (now : Int) (left : List Proposal)
  -- in `remind`, once `remind_state` has allowed it
  | asked (now : Int) (p : Proposal) (requester : Int)
  -- in the loop of `_send`, with the recipients left to write and the decisions left after it
  | sending (delivery : Delivery) (left : List Int) (after : List Proposal)

def idle : Job := .reminding 0 []

structure World extends Noticeboard where
  -- a job stands at the number of its transaction
  jobs : List Job

inductive Event
  | pass (time : Nat)
  -- votes, membership, rules and preferences change, and decisions are raised and closed
  | change (database : Database) (switchedOff : List (Int × Text))
  -- another trigger tells someone something
  | other (row : Notification)
  | run
  | press (proposalId : Nat) (requester : Int)
  | proceed (process : Nat)
  | abort (process : Nat)

-- What no change touches of a decision
def sameDecision (p q : Proposal) : Bool :=
  p.id = q.id && p.proposalUuid = q.proposalUuid && p.vaultId = q.vaultId && p.creatorId = q.creatorId &&
    p.createdAtIso = q.createdAtIso && p.expiresAt = q.expiresAt

def keeps (old new : Database) : Bool := old.proposals.all fun p => new.proposals.any fun q => sameDecision p q

def othersKind (kind : Text) : Bool := kind != reminderKind && kind != dueSoonKind

-- One step of a job: its job after it, and the table
def proceed (board : Noticeboard) (transaction : Nat) : Job → Job × Table
  | .reminding now [] => (.reminding now [], board.table.commit transaction)
  | .reminding now (p :: left) =>
    match remindOne raisedAt board now (board.withVotes p) with
    | none => (.reminding now left, board.table)
    | some (delivery, ids) => (.sending delivery (board.untold transaction ids delivery) left, board.table)
  | .asked now p requester =>
    match raisedAt p.createdAtIso with
    | none => (idle, board.table.undo transaction)
    | some raised =>
      let delivery := askedDelivery now raised p requester
      (.sending delivery (board.untold transaction (board.waitingApprovers (board.withVotes p)) delivery) [], board.table)
  | .sending delivery [] after => (.reminding delivery.createdAt after, board.table)
  | .sending delivery (id :: left) after =>
    let row : Notification := ⟨delivery, id⟩
    match board.table.outcome transaction row with
    | .waits => (.sending delivery (id :: left) after, board.table)
    -- an IntegrityError undoes this insert alone
    | .refused => (.sending delivery left after, board.table)
    | .written => (.sending delivery left after, board.table.insert transaction row)

def step (w : World) : Event → World
  | .pass time => { w with now := w.now + time }
  | .change database switchedOff => if keeps w.database database then { w with database, switchedOff } else w
  | .other row =>
    if othersKind row.kind then { w with table := (w.table.insert w.jobs.length row).commit w.jobs.length } else w
  | .run => { w with jobs := w.jobs ++ [.reminding w.now (openDecisions w.toNoticeboard w.now)] }
  | .press proposalId requester =>
    match w.database.proposals.find? fun p => p.id = proposalId with
    | none => w
    | some p =>
      if (remindState w.toNoticeboard w.table.rows p requester w.now).allowed then
        { w with jobs := w.jobs ++ [.asked w.now p requester] }
      else w
  | .proceed process =>
    match w.jobs[process]? with
    | none => w
    | some job =>
      let (job, table) := proceed raisedAt w.toNoticeboard process job
      { w with jobs := w.jobs.set process job, table }
  | .abort process => { w with jobs := w.jobs.set process idle, table := w.table.undo process }

end QVault.Services.Reminders
