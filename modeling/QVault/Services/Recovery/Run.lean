import QVault.Services.Recovery.Credentials

/-!
# Recovery runs

Requests and scheduler runs as sessions on the database, in any order of their statements, at any clock.
-/

namespace QVault.Recovery
open Python Crypto Services Programs Sessions

inductive Operation
  | registerUser (fresh : Fresh) (email password : Text)
  | startWithKit (fresh : Fresh) (email code newPassword : Text)
  | beginVouching (fresh : Fresh) (device : Nat) (purpose : Purpose) (uuid : Text)
  | approve (fresh : Fresh) (device : Nat) (uuid : Text) (purpose : Purpose) (signature : Text)
  | claim (fresh : Fresh) (email code newPassword : Text)
  | confirmKit (token : Bytes) (code : Text)
  | cancelAs (viewer : Int) (uuid : Text)
  | cancelByStatusToken (token : Bytes)
  | cancelFromPhone (device : Nat) (uuid : Text)
  | kitNotSaved (user : Int) (kit : Nat)
  | revokeDevice (device : Nat) (actor : Option Int)
  | tick
  | settle (request : Nat)
  | passwordDoor (user : Int) (password via : Text) (completesFirst commits : Bool)
  | signWithKey (user : Int) (key : Nat) (password : Text) (message : Bytes) (commits : Bool)
  | authenticate (email password : Text)
  | changePassword (fresh : Fresh) (user : Int) (currentPassword newPassword : Text)
  | reissueSigningKey (fresh : Fresh) (user : Int) (password : Text)
  | issueKit (fresh : Fresh) (user : Int) (password : Text)

-- What happens outside recovery: time, who watches whom, wrong passwords elsewhere, phones paired,
-- treasuries, and other entries of the ledger
inductive Outside
  | time (now : Int)
  | watch (watchers : Int → Int → Option Text)
  | lockOut (lockedOut : Int → Bool)
  | enrolDevice (owner : Int) (algId : Text) (publicKey : Bytes) (createdAt : Int) (expiresAt : Option Int)
  | treasuries (rows : List Treasury)
  | logged (event : LedgerEvent)

def recoveryEnding : List Text := ["recovery_completed", "recovery_cancelled", "recovery_rejected", "recovery_expired"]

def Db.enrol (db : Db) (owner : Int) (algId : Text) (publicKey : Bytes) (createdAt : Int) (expiresAt : Option Int) : Db :=
  let keyId := nextId (db.keys.map (·.id))
  { db with
    keys := db.keys ++ [{
      id := keyId, ownerId := owner, role := "sig", algId, publicKey, wrapped := none, nonce := none, domain := .device
      status := .active, canSign := true, canVerify := true, createdAt, retiredAt := none }]
    devices := db.devices ++ [⟨nextId (db.devices.map (·.id)), owner, keyId, createdAt, expiresAt, none⟩] }

def Outside.apply : Outside → Db → Db
  | .time now, db => { db with clock := now }
  | .watch watchers, db => { db with watchers }
  | .lockOut lockedOut, db => { db with lockedOut }
  | .enrolDevice owner algId publicKey createdAt expiresAt, db => db.enrol owner algId publicKey createdAt expiresAt
  | .treasuries rows, db => { db with treasuries := rows }
  | .logged event, db => if event.eventType ∈ recoveryEnding then db else { db with log := db.log ++ [event] }

section Steps
variable (suite : Suite)

def operate (me : Nat) : Operation → Work Unit
  | .registerUser fresh email password => registerUser suite me fresh email password
  | .startWithKit fresh email code newPassword => startWithKit suite fresh me email code newPassword
  | .beginVouching fresh device purpose uuid => beginVouching suite fresh me device purpose uuid
  | .approve fresh device uuid purpose signature => approve suite fresh me device uuid purpose signature
  | .claim fresh email code newPassword => claim suite fresh me email code newPassword
  | .confirmKit token code => confirmKit suite me token code
  | .cancelAs viewer uuid => cancelAs me viewer uuid
  | .cancelByStatusToken token => cancelByStatusToken suite me token
  | .cancelFromPhone device uuid => cancelFromPhone me device uuid
  | .kitNotSaved user kit => kitNotSaved me user kit
  | .revokeDevice device actor => revokeDevice suite me device actor
  | .tick => tick suite me
  | .settle request => settle suite me request
  | .passwordDoor user password via completesFirst commits => passwordDoor suite me user password via completesFirst commits
  | .signWithKey user key password message commits => signWithKey suite me user key password message commits
  | .authenticate email password => authenticate suite me email password
  | .changePassword fresh user current new => changePassword suite me fresh user current new
  | .reissueSigningKey fresh user password => reissueSigningKey suite me fresh user password
  | .issueKit fresh user password => issueKit suite me fresh user password

-- A request: its view, the end of its transaction, and what is settled after it
def launch (me : Nat) (operation : Operation) : Work Unit := do
  discard (attempt (operate suite me operation))
  rollback me
  settlePasswordProofs me

def setup : Setup Db Proofs Refusal Operation Outside where
  memory := []
  launch := launch suite
  release me db := db.release me
  outside := Outside.apply

abbrev Move := Sessions.Move Operation Outside
abbrev System := Sessions.System Db Proofs Refusal

def run (system : System) (moves : List Move) : System := Runs.run (Sessions.System.step (setup suite)) system moves

end Steps

def Db.empty : Db where
  users := []
  keys := []
  devices := []
  kits := ⟨[], by decide⟩
  requests := ⟨[], by decide⟩
  approvals := []
  treasuries := []
  epochs _ := 0
  kitFailures := []
  kitPauses := []
  watchers _ _ := none
  lockedOut _ := false
  log := []
  clock := 0
  held := []
  spent := []
  comparisons := []
  vouchers := []
  proofs := []

def System.empty : System := ⟨Db.empty, []⟩

end QVault.Recovery
