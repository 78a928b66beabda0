import QVault.Services.Checkpoint

/-!
# The log over time

Appends by the application, the scheduler's `maybe_checkpoint`, decision exports, co-signatures
arriving, and somebody editing the ledger's table behind all of them. `signed` remembers the leaves
each checkpoint was signed over.
-/

namespace QVault.Services
open Python

-- `_entries_for`
def entriesFor (ledger : Ledger) (proposalUuid : Text) (signerIds : List Int) : List LedgerEntry :=
  let ids := signerIds.map intText
  let named (e : LedgerEntry) : Bool := e.refId.any ids.contains
  ledger.entries.filter fun e =>
    (e.refType == some (text "proposal") && e.refId == some proposalUuid) ||
    (e.eventType == text "user_registered" && named e) ||
    (e.eventType == text "recovery_completed" && e.refType == some (text "user") && named e)

-- The part of `build_decision_bundle` that finds a checkpoint for the entries or signs one.
def bundleCheckpoint (config : LogConfig) (pin : WitnessPin) (log : Log) (proposalUuid : Text)
    (signerIds : List Int) (timestamp : Text) (seed : Nat) : Log × Outcome :=
  match (entriesFor log.ledger proposalUuid signerIds).getLast? with
  | none => (log, .raised .noEntries)
  | some highest =>
    match log.checkpointCovering config.sha256 pin highest.seq with
    | some checkpoint => (log, .existing checkpoint)
    | none => createCheckpoint config log timestamp seed

structure Signed where
  checkpoint : LogCheckpoint
  leaves : List Bytes

structure LogHistory where
  log : Log
  signed : List Signed

inductive LogEvent
  | append (timestamp : Text) (event : LedgerEvent)
  | rewrite (ledger : Ledger)
  | cosign (cosignatures : List WitnessCosignature)
  | maybeCheckpoint (timestamp : Text) (seed : Nat)
  | exportBundle (proposalUuid : Text) (signerIds : List Int) (timestamp : Text) (seed : Nat)

def LogHistory.start : LogHistory := ⟨Log.empty, []⟩

def LogHistory.after (history : LogHistory) (called : Log × Outcome) : LogHistory :=
  match called.2 with
  | .signed checkpoint leaves => ⟨called.1, history.signed ++ [⟨checkpoint, leaves⟩]⟩
  | _ => ⟨called.1, history.signed⟩

def logStep (config : LogConfig) (pin : WitnessPin) (history : LogHistory) : LogEvent → LogHistory
  | .append timestamp event =>
    match append config.sha256 history.log.ledger timestamp event with
    | .error _ => history
    | .ok ledger => { history with log := { history.log with ledger } }
  | .rewrite ledger => { history with log := { history.log with ledger } }
  | .cosign cosignatures => { history with log := { history.log with cosignatures } }
  | .maybeCheckpoint timestamp seed => history.after (maybeCheckpoint config history.log timestamp seed)
  | .exportBundle proposalUuid signerIds timestamp seed =>
    history.after (bundleCheckpoint config pin history.log proposalUuid signerIds timestamp seed)

end QVault.Services
