import QVault.Witness.Store
import QVault.Transparency.Statement
import QVault.Transparency.Merkle

/-!
# `POST /cosign`

`witness/app.py`. The handler is cut where it goes to the store, so that two requests can take
turns there: `advance` runs a request from one such point to the next.
-/

namespace QVault.Witness
open Python Crypto Transparency

/-! ## Reading a request -/

inductive StatementProblem
  | notAnObject
  | fieldsWrong (missing unexpected : List Text)
  | emptyOrigin
  | notAnInteger (field : Text)
  | treeSizeTooSmall
  | treeSizeMismatch (treeSize headSeq : Int)
  | not64Characters (field : Text)
  | notHex (field : Text)
  | timestampNotAString
  deriving DecidableEq

def statementFields : List Text :=
  ["head_hash", "head_seq", "origin", "root_hash", "timestamp", "tree_size"]

structure Statement where
  json : Json
  origin : Text
  treeSize : Int
  rootHash : Text
  treeSize_pos : 1 ≤ treeSize

def integerField (fields : List (Text × Json)) (field : Text) : Except StatementProblem Int :=
  match Json.get fields field with
  | .int n => .ok n
  | _ => .error (.notAnInteger field)

def hexField (fields : List (Text × Json)) (field : Text) : Except StatementProblem Text :=
  match Json.get fields field with
  | .str value =>
    if value.length ≠ 64 then .error (.not64Characters field)
    else match fromHex value with
      | .ok _ => .ok value
      | .error _ => .error (.notHex field)
  | _ => .error (.not64Characters field)

-- `_valid_statement`, with the fields the handler reads afterwards
def validStatement (statement : Json) : Except StatementProblem Statement :=
  match statement with
  | .dict fields => do
    let keys := fields.map Prod.fst
    let missing := statementFields.filter fun field => !keys.contains field
    let unexpected := keys.filter fun key => !statementFields.contains key
    if missing ≠ [] ∨ unexpected ≠ [] then
      throw (.fieldsWrong missing (unexpected.insertionSort fun a b => a.le b))
    let origin ← match Json.get fields "origin" with
      | .str origin => if origin = [] then .error .emptyOrigin else .ok origin
      | _ => .error .emptyOrigin
    let treeSize ← integerField fields "tree_size"
    let headSeq ← integerField fields "head_seq"
    if small : treeSize < 1 then throw .treeSizeTooSmall
    else
      if treeSize ≠ headSeq + 1 then throw (.treeSizeMismatch treeSize headSeq)
      let rootHash ← hexField fields "root_hash"
      let _ ← hexField fields "head_hash"
      match Json.get fields "timestamp" with
      | .str _ => return ⟨statement, origin, treeSize, rootHash, Int.not_lt.mp small⟩
      | _ => throw .timestampNotAString
  | _ => .error .notAnObject

structure Request where
  statement : Statement
  logPublicKey : Bytes
  logSignature : Bytes
  logAlgId : Text
  consistencyProof : Json

inductive Refusal
  | statement (problem : StatementProblem)
  | notBase64
  | unknownAlgorithm
  | violation (kind : ViolationKind)
  deriving DecidableEq

inductive Response
  | refused (reason : Refusal)
  | selfVerificationFailed
  | raised (error : PyError)
  | cosigned (signature : Bytes) (treeSize : Int) (reissued : Bool)
  deriving DecidableEq

def base64Field (body : List (Text × Json)) (key : Text) : Option Bytes :=
  match (Json.lookup key body).getD (.str []) with
  | .str value => (b64decode false value).toOption
  | _ => none

-- `request.get_json(silent=True) or {}`
def bodyFields (body : Json) : Except Response (List (Text × Json)) :=
  if !body.truthy then .ok []
  else match body with
    | .dict fields => .ok fields
    | _ => .error (.raised .attributeError)

def readRequest (registry : CryptoRegistry) (body : Json) : Except Response Request := do
  let fields ← bodyFields body
  let statement ← (validStatement (Json.get fields "checkpoint")).mapError
    fun problem => .refused (.statement problem)
  let some logPublicKey := base64Field fields "log_public_key_b64" | throw (.refused .notBase64)
  let some logSignature := base64Field fields "log_signature_b64" | throw (.refused .notBase64)
  let logAlgId := (Json.lookup "log_alg_id" fields).getD (.str [])
  let known ← (registry.hasSignature logAlgId).mapError .raised
  match known, logAlgId with
  | true, .str algId =>
    -- SQLite stores text as UTF-8
    let _ ← (encodeUtf8 statement.origin).mapError .raised
    return ⟨statement, logPublicKey, logSignature, algId,
      (Json.lookup "consistency_proof" fields).getD (.list [])⟩
  | _, _ => throw (.refused .unknownAlgorithm)

/-! ## The decision -/

structure WitnessIdentity where
  name : Text
  algId : Text
  publicKey : Bytes
  sign : Bytes → Bytes

structure Environment where
  registry : CryptoRegistry
  hashChildren : Bytes → Bytes → Bytes
  identity : WitnessIdentity

-- `checkpoint_bytes(statement)` under the offered key
def authentic (env : Environment) (request : Request) : Except PyError Bool := do
  let message ← checkpointBytes request.statement.json
  return env.registry.verify (.str request.logAlgId) request.logPublicKey message request.logSignature

-- what a `for` loop over the value yields
def iterate : Json → Except PyError (List Json)
  | .list items => .ok items
  | .str s => .ok (s.map fun c => .str [c])
  | .dict fields => .ok (fields.map fun field => .str field.1)
  | _ => .error .typeError

def hexItem : Json → Except PyError Bytes
  | .str h => fromHex h
  | _ => .error .typeError

def hexItems (value : Json) : Except PyError (List Bytes) := do (← iterate value).mapM hexItem

inductive Verdict
  | cosign
  | reissue (signature : Bytes)
  | refuse (kind : ViolationKind)

def proven (env : Environment) (request : Request) (latest : CheckpointRow) : Except PyError Verdict := do
  let proof ← hexItems request.consistencyProof
  let oldRoot ← fromHex latest.rootHash
  let newRoot ← fromHex request.statement.rootHash
  return if verifyConsistency env.hashChildren latest.treeSize oldRoot request.statement.treeSize newRoot proof
    then .cosign else .refuse .inconsistent

-- Step 3 of the handler, `latest` being the row it read.
def consistent (env : Environment) (request : Request) (latest : CheckpointRow) :
    Except PyError Verdict :=
  if request.statement.treeSize < latest.treeSize then return .refuse .shrank
  else if request.statement.treeSize = latest.treeSize then
    if latest.rootHash ≠ request.statement.rootHash then return .refuse .fork
    else do
      let stored ← Json.loads latest.statementJson
      if stored.eq request.statement.json then return .reissue latest.cosignature
      else proven env request latest
  else proven env request latest

def maxSqliteInteger : Int := 2 ^ 63 - 1

inductive Signed
  | selfVerificationFailed
  | signed (signature : Bytes)

-- Step 4 up to `store.record`, whose bindings SQLite may refuse.
def sign (env : Environment) (statement : Statement) : Except PyError Signed := do
  let toSign ← witnessBytes (.str env.identity.name) statement.json
  let signature := env.identity.sign toSign
  if !env.registry.verify (.str env.identity.algId) env.identity.publicKey toSign signature then
    return .selfVerificationFailed
  if maxSqliteInteger < statement.treeSize then throw .overflowError
  return .signed signature

inductive Stage
  | identify
  | pin
  | authenticate
  | readLatest
  | decide (latest : Option CheckpointRow)
  | done (response : Response)
  deriving DecidableEq

def refuse (store : WitnessStore) (request : Request) (kind : ViolationKind) : WitnessStore × Stage :=
  (store.recordViolation request.statement.origin kind request.statement.json,
    .done (.refused (.violation kind)))

def countersign (env : Environment) (store : WitnessStore) (request : Request) : WitnessStore × Stage :=
  match sign env request.statement with
  | .error error => (store, .done (.raised error))
  | .ok .selfVerificationFailed => (store, .done .selfVerificationFailed)
  | .ok (.signed signature) =>
    (store.record request.statement.origin request.statement.treeSize request.statement.rootHash
        request.statement.json signature,
      .done (.cosigned signature request.statement.treeSize false))

def advance (env : Environment) (store : WitnessStore) (request : Request) : Stage → WitnessStore × Stage
  | .identify =>
    match store.knownLog request.statement.origin with
    | none => (store, .pin)
    | some pinned =>
      if pinned.logPublicKey ≠ request.logPublicKey then refuse store request .keyChanged
      else (store, .authenticate)
  | .pin =>
    (store.pinLog request.statement.origin request.logAlgId request.logPublicKey, .authenticate)
  | .authenticate =>
    match authentic env request with
    | .error error => (store, .done (.raised error))
    | .ok false => refuse store request .badSignature
    | .ok true => (store, .readLatest)
  | .readLatest => (store, .decide (store.latest request.statement.origin))
  | .decide none => countersign env store request
  | .decide (some latest) =>
    match consistent env request latest with
    | .error error => (store, .done (.raised error))
    | .ok (.refuse kind) => refuse store request kind
    | .ok (.reissue signature) =>
      (store, .done (.cosigned signature request.statement.treeSize true))
    | .ok .cosign => countersign env store request
  | .done response => (store, .done response)

def settle (env : Environment) (request : Request) : Nat → WitnessStore × Stage → WitnessStore × Stage
  | 0, reached => reached
  | n + 1, (store, stage) => settle env request n (advance env store request stage)

-- One request with the store to itself: it is over after five steps.
def cosign (env : Environment) (store : WitnessStore) (body : Json) : WitnessStore × Stage :=
  match readRequest env.registry body with
  | .error response => (store, .done response)
  | .ok request => settle env request 5 (store, .identify)

/-! ## The threaded server -/

structure Thread where
  request : Request
  stage : Stage

structure Server where
  store : WitnessStore
  threads : List Thread

inductive Event
  | request (body : Json)
  | advance (thread : Nat)

def start : Server := ⟨.empty, []⟩

def step (env : Environment) (server : Server) : Event → Server
  | .request body =>
    match readRequest env.registry body with
    | .error _ => server
    | .ok request => { server with threads := server.threads ++ [⟨request, .identify⟩] }
  | .advance i =>
    match server.threads[i]? with
    | none => server
    | some thread =>
      let (store, stage) := advance env server.store thread.request thread.stage
      ⟨store, server.threads.set i { thread with stage }⟩

end QVault.Witness
