import QVault.Proof.Witness.Influence
import QVault.Proof.Merkle.Consistency
import QVault.Lib.Results

/-!
# Co-signatures under concurrent requests

Two requests for one origin only disturb each other where one of them writes between another's read
and its write: at the pin, and between reading the latest co-signed row and recording the next one.
-/

namespace QVault.Proof.Witness
open QVault.Witness QVault.Transparency QVault.Proof.Merkle QVault.Python Runs Results

variable (env : Environment) (emptyRoot : Bytes)

-- The checkpoint is of a log: its root is the root of some list of `tree_size` leaves.
def Genuine (treeSize : Int) (rootHash : Text) : Prop :=
  ∃ leaves : List Bytes, (leaves.length : Int) = treeSize ∧
    fromHex rootHash = .ok (merkleRoot env.hashChildren emptyRoot leaves)

-- Nobody else has written where this step writes since the request read it.
def quiet (server : Server) (i : Nat) : Bool :=
  match server.threads[i]? with
  | none => true
  | some thread =>
    match thread.stage with
    | .pin => (server.store.knownLog thread.request.statement.origin).all fun row =>
        row.logPublicKey == thread.request.logPublicKey
    | .decide latest => latest == server.store.latest thread.request.statement.origin
    | _ => true

def Undisturbed (server : Server) : Event → Prop
  | .request body => ∀ request, readRequest env.registry body = .ok request →
      Genuine env emptyRoot request.statement.treeSize request.statement.rootHash
  | .advance i => quiet server i

def Issued (server : Server) (request : Request) : Prop :=
  ∃ thread ∈ server.threads, thread.request = request ∧
    ∃ signature treeSize reissued, thread.stage = .done (.cosigned signature treeSize reissued)

def OneGrowingLog (server : Server) : Prop :=
  ∀ first second, Issued server first → Issued server second →
    first.statement.origin = second.statement.origin →
    first.statement.treeSize ≤ second.statement.treeSize →
    (∃ Da Db : List Bytes, (Da.length : Int) = first.statement.treeSize ∧
      (Db.length : Int) = second.statement.treeSize ∧
      fromHex first.statement.rootHash = .ok (merkleRoot env.hashChildren emptyRoot Da) ∧
      fromHex second.statement.rootHash = .ok (merkleRoot env.hashChildren emptyRoot Db) ∧ Da <+: Db) ∧
    first.logPublicKey = second.logPublicKey ∧
    authentic env first = .ok true ∧ authentic env second = .ok true

/-! ## The co-signed history of one origin -/

-- Whatever tree the later root is of, the earlier root is the one of its first leaves.
def Extends (size : Int) (rootHash : Text) (size' : Int) (rootHash' : Text) : Prop :=
  size ≤ size' → ∀ leaves : List Bytes, (leaves.length : Int) = size' →
    fromHex rootHash' = .ok (merkleRoot env.hashChildren emptyRoot leaves) →
    fromHex rootHash = .ok (merkleRoot env.hashChildren emptyRoot (leaves.take size.toNat))

theorem extends_refl (size : Int) (rootHash : Text) : Extends env emptyRoot size rootHash size rootHash := by
  intro _ leaves length root
  rw [List.take_of_length_le (by omega)]
  exact root

variable {env emptyRoot}

theorem extends_trans {size size' size'' : Int} {rootHash rootHash' rootHash'' : Text} (nonneg : 0 ≤ size')
    (between : size ≤ size') (grown : size' ≤ size'') (first : Extends env emptyRoot size rootHash size' rootHash')
    (second : Extends env emptyRoot size' rootHash' size'' rootHash'') :
    Extends env emptyRoot size rootHash size'' rootHash'' := by
  intro _ leaves length root
  have middle := second grown leaves length root
  have found := first between (leaves.take size'.toNat) (by rw [List.length_take]; omega) middle
  rwa [List.take_take, min_eq_left (by omega)] at found

theorem extends_of_consistent (collisionFree : Function.Injective2 env.hashChildren) {size size' : Int}
    {rootHash rootHash' : Text} {oldRoot newRoot : Bytes} {proof : List Bytes} (pos : 1 ≤ size)
    (old : fromHex rootHash = .ok oldRoot) (new : fromHex rootHash' = .ok newRoot)
    (accepted : verifyConsistency env.hashChildren size oldRoot size' newRoot proof = true) :
    Extends env emptyRoot size rootHash size' rootHash' := by
  intro _ leaves length root
  rw [new, Except.ok.injEq] at root
  obtain ⟨m, rfl⟩ := Int.eq_ofNat_of_zero_le (show 0 ≤ size by omega)
  rw [← length, root] at accepted
  have sound := verifyConsistency_sound collisionFree (by omega) accepted
  rw [old, sound.2.1, Int.toNat_natCast]

-- At one size the two roots are the same bytes, and either extends the other.
theorem extends_symm {size : Int} {rootHash rootHash' : Text} {root : Bytes}
    (same : fromHex rootHash = .ok root) (same' : fromHex rootHash' = .ok root) :
    Extends env emptyRoot size rootHash size rootHash' := by
  intro _ leaves length genuine
  rw [same', Except.ok.injEq] at genuine
  rw [List.take_of_length_le (by omega), same, genuine]

def Proven (env : Environment) (request : Request) (latest : CheckpointRow) : Prop :=
  ∃ oldRoot newRoot proof, fromHex latest.rootHash = .ok oldRoot ∧
    fromHex request.statement.rootHash = .ok newRoot ∧
    verifyConsistency env.hashChildren latest.treeSize oldRoot request.statement.treeSize newRoot proof = true

theorem proven_cases {request : Request} {latest : CheckpointRow} {verdict : Verdict}
    (decided : proven env request latest = .ok verdict) :
    (∃ kind, verdict = .refuse kind) ∨ (verdict = .cosign ∧ Proven env request latest) := by
  unfold proven at decided
  obtain ⟨proof, -, decided⟩ := bind_eq_ok.mp decided
  obtain ⟨oldRoot, old, decided⟩ := bind_eq_ok.mp decided
  obtain ⟨newRoot, new, decided⟩ := bind_eq_ok.mp decided
  have found := pure_eq_ok.mp decided
  split at found
  · next accepted => exact .inr ⟨found.symm, oldRoot, newRoot, proof, old, new, accepted⟩
  · exact .inl ⟨_, found.symm⟩

theorem consistent_cases {request : Request} {latest : CheckpointRow} {verdict : Verdict}
    (decided : consistent env request latest = .ok verdict) :
    (∃ kind, verdict = .refuse kind) ∨
    (∃ signature, verdict = .reissue signature ∧ request.statement.treeSize = latest.treeSize ∧
      latest.rootHash = request.statement.rootHash) ∨
    (verdict = .cosign ∧ latest.treeSize ≤ request.statement.treeSize ∧ Proven env request latest) := by
  have proved (decided : proven env request latest = .ok verdict)
      (grown : latest.treeSize ≤ request.statement.treeSize) :
      (∃ kind, verdict = .refuse kind) ∨
        (verdict = .cosign ∧ latest.treeSize ≤ request.statement.treeSize ∧ Proven env request latest) := by
    rcases proven_cases decided with refused | ⟨accepted, sound⟩
    · exact .inl refused
    · exact .inr ⟨accepted, grown, sound⟩
  unfold consistent at decided
  split_ifs at decided with shrank same fork
  · exact .inl ⟨_, (pure_eq_ok.mp decided).symm⟩
  · exact .inl ⟨_, (pure_eq_ok.mp decided).symm⟩
  · obtain ⟨stored, -, decided⟩ := bind_eq_ok.mp decided
    split at decided
    · exact .inr (.inl ⟨_, (pure_eq_ok.mp decided).symm, same, not_not.mp fork⟩)
    · exact (proved decided same.ge).imp_right .inr
  · exact (proved decided (not_lt.mp shrank)).imp_right .inr

/-! ## What one step of a request preserves -/

def Pinned (store : WitnessStore) (request : Request) : Prop :=
  ∃ row, store.knownLog request.statement.origin = some row ∧ row.logPublicKey = request.logPublicKey

def Recorded (store : WitnessStore) (request : Request) : Prop :=
  ∃ row ∈ store.checkpoints, row.origin = request.statement.origin ∧
    row.treeSize = request.statement.treeSize ∧ row.rootHash = request.statement.rootHash

def StageHolds (env : Environment) (store : WitnessStore) (request : Request) : Stage → Prop
  | .authenticate => Pinned store request
  | .readLatest | .decide _ => Pinned store request ∧ authentic env request = .ok true
  | .done (.cosigned _ _ _) =>
    Pinned store request ∧ authentic env request = .ok true ∧ Recorded store request
  | _ => True

structure Grown (before after : WitnessStore) : Prop where
  pins : ∀ origin row, before.knownLog origin = some row → after.knownLog origin = some row
  rows : ∀ row ∈ before.checkpoints, row ∈ after.checkpoints

theorem grown_refl (store : WitnessStore) : Grown store store :=
  ⟨fun _ _ known => known, fun _ member => member⟩

theorem grown_record (store : WitnessStore) (origin : Text) (treeSize : Int) (rootHash : Text)
    (statement : Json) (cosignature : Bytes) :
    Grown store (store.record origin treeSize rootHash statement cosignature) :=
  ⟨fun _ _ known => known, fun _ member => List.mem_append_left _ member⟩

theorem grown_pinLog (store : WitnessStore) (origin algId : Text) (publicKey : Bytes) :
    Grown store (store.pinLog origin algId publicKey) := by
  constructor
  · intro other row known
    rw [knownLog_pinLog, if_neg, known]
    rintro ⟨rfl, unknown⟩
    rw [unknown] at known
    cases known
  · intro row member
    rwa [checkpoints_pinLog]

theorem stageHolds_grown {before after : WitnessStore} (grown : Grown before after) {request : Request}
    {stage : Stage} (holds : StageHolds env before request stage) : StageHolds env after request stage := by
  have pinned : Pinned before request → Pinned after request := by
    rintro ⟨row, known, key⟩
    exact ⟨row, grown.pins _ _ known, key⟩
  have recorded : Recorded before request → Recorded after request := by
    rintro ⟨row, member, fields⟩
    exact ⟨row, grown.rows row member, fields⟩
  cases stage with
  | identify => trivial
  | pin => trivial
  | authenticate => exact pinned holds
  | readLatest => exact ⟨pinned holds.1, holds.2⟩
  | decide latest => exact ⟨pinned holds.1, holds.2⟩
  | done response =>
    cases response with
    | cosigned signature treeSize reissued => exact ⟨pinned holds.1, holds.2.1, recorded holds.2.2⟩
    | refused reason => trivial
    | selfVerificationFailed => trivial
    | raised error => trivial

/-! ## The co-signed history is one chain -/

structure Chained (env : Environment) (emptyRoot : Bytes) (store : WitnessStore) : Prop where
  positive : ∀ row ∈ store.checkpoints, 1 ≤ row.treeSize
  extend : ∀ a ∈ store.checkpoints, ∀ b ∈ store.checkpoints, a.origin = b.origin →
    Extends env emptyRoot a.treeSize a.rootHash b.treeSize b.rootHash

theorem chained_record {store : WitnessStore} (chained : Chained env emptyRoot store) (request : Request)
    (signature : Bytes)
    (fits : ∀ row ∈ store.checkpoints, row.origin = request.statement.origin →
      Extends env emptyRoot row.treeSize row.rootHash request.statement.treeSize request.statement.rootHash ∧
      Extends env emptyRoot request.statement.treeSize request.statement.rootHash row.treeSize row.rootHash) :
    Chained env emptyRoot (store.record request.statement.origin request.statement.treeSize
      request.statement.rootHash request.statement.json signature) := by
  constructor
  · intro row member
    rcases List.mem_append.mp member with old | new
    · exact chained.positive row old
    · rw [List.mem_singleton.mp new]
      exact request.statement.treeSize_pos
  · intro a inA b inB same
    rcases List.mem_append.mp inA with oldA | newA <;> rcases List.mem_append.mp inB with oldB | newB
    · exact chained.extend a oldA b oldB same
    · obtain rfl := List.mem_singleton.mp newB
      exact (fits a oldA same).1
    · obtain rfl := List.mem_singleton.mp newA
      exact (fits b oldB same.symm).2
    · obtain rfl := List.mem_singleton.mp newA
      obtain rfl := List.mem_singleton.mp newB
      exact extends_refl _ _ _ _

theorem verifyConsistency_same_size {size : Int} (pos : 1 ≤ size) {oldRoot newRoot : Bytes} {proof : List Bytes}
    (accepted : verifyConsistency env.hashChildren size oldRoot size newRoot proof = true) :
    oldRoot = newRoot := by
  rw [verifyConsistency.eq_def, if_neg (by omega), if_pos rfl] at accepted
  simpa using (Bool.and_eq_true_iff.mp accepted).2

theorem latest_fits (collisionFree : Function.Injective2 env.hashChildren) {store : WitnessStore}
    (chained : Chained env emptyRoot store) {request : Request} {latest : CheckpointRow}
    (found : store.latest request.statement.origin = some latest)
    (grown : latest.treeSize ≤ request.statement.treeSize) (sound : Proven env request latest)
    {row : CheckpointRow} (member : row ∈ store.checkpoints) (same : row.origin = request.statement.origin) :
    Extends env emptyRoot row.treeSize row.rootHash request.statement.treeSize request.statement.rootHash ∧
    Extends env emptyRoot request.statement.treeSize request.statement.rootHash row.treeSize row.rootHash := by
  obtain ⟨stored, origin, largest⟩ := latest_some store request.statement.origin found
  obtain ⟨oldRoot, newRoot, proof, old, new, accepted⟩ := sound
  have pos := chained.positive latest stored
  have below := largest row member same
  constructor
  · exact extends_trans (by omega) below grown
      (chained.extend row member latest stored (same.trans origin.symm))
      (extends_of_consistent collisionFree pos old new accepted)
  · intro shrunk
    have equal : request.statement.treeSize = latest.treeSize := by omega
    rw [equal] at accepted shrunk ⊢
    have roots := verifyConsistency_same_size pos accepted
    rw [← roots] at new
    exact extends_trans (by omega) le_rfl shrunk (extends_symm new old)
      (chained.extend latest stored row member (origin.trans same.symm)) shrunk

theorem countersign_safe {store : WitnessStore} (chained : Chained env emptyRoot store) {request : Request}
    (pinned : Pinned store request) (signed : authentic env request = .ok true)
    (fits : ∀ row ∈ store.checkpoints, row.origin = request.statement.origin →
      Extends env emptyRoot row.treeSize row.rootHash request.statement.treeSize request.statement.rootHash ∧
      Extends env emptyRoot request.statement.treeSize request.statement.rootHash row.treeSize row.rootHash) :
    Grown store (countersign env store request).1 ∧
      Chained env emptyRoot (countersign env store request).1 ∧
      StageHolds env (countersign env store request).1 request (countersign env store request).2 := by
  unfold countersign
  split
  · exact ⟨grown_refl store, chained, trivial⟩
  · exact ⟨grown_refl store, chained, trivial⟩
  · refine ⟨grown_record _ _ _ _ _ _, chained_record chained request _ fits, pinned, signed, ?_⟩
    exact ⟨_, List.mem_append_right _ List.mem_cons_self, rfl, rfl, rfl⟩

theorem advance_safe (collisionFree : Function.Injective2 env.hashChildren) {store : WitnessStore}
    (chained : Chained env emptyRoot store) {request : Request} {stage : Stage}
    (holds : StageHolds env store request stage)
    (pinFree : stage = .pin → ∀ row, store.knownLog request.statement.origin = some row →
      row.logPublicKey = request.logPublicKey)
    (current : ∀ latest, stage = .decide latest → latest = store.latest request.statement.origin) :
    Grown store (advance env store request stage).1 ∧
      Chained env emptyRoot (advance env store request stage).1 ∧
      StageHolds env (advance env store request stage).1 request (advance env store request stage).2 := by
  have refused (kind : ViolationKind) : Grown store (refuse store request kind).1 ∧
      Chained env emptyRoot (refuse store request kind).1 ∧
      StageHolds env (refuse store request kind).1 request (refuse store request kind).2 :=
    ⟨⟨fun _ _ known => known, fun _ member => member⟩, ⟨chained.positive, chained.extend⟩, trivial⟩
  cases stage with
  | identify =>
    rw [advance]
    cases known : store.knownLog request.statement.origin with
    | none => exact ⟨grown_refl store, chained, trivial⟩
    | some row =>
      simp only
      split
      · exact refused .keyChanged
      · next same => exact ⟨grown_refl store, chained, row, known, not_not.mp same⟩
  | pin =>
    refine ⟨grown_pinLog _ _ _ _, ?_, ?_⟩
    · constructor
      · simpa only [advance, checkpoints_pinLog] using chained.positive
      · simpa only [advance, checkpoints_pinLog] using chained.extend
    · cases known : store.knownLog request.statement.origin with
      | none => exact ⟨_, knownLog_pinLog_self store _ _ _ known, rfl⟩
      | some row =>
        refine ⟨row, ?_, pinFree rfl row known⟩
        rw [advance, pinLog_known store _ _ _ known, known]
  | authenticate =>
    rw [advance]
    cases signed : authentic env request with
    | error error => exact ⟨grown_refl store, chained, trivial⟩
    | ok valid =>
      cases valid with
      | false => exact refused .badSignature
      | true => exact ⟨grown_refl store, chained, holds, signed⟩
  | readLatest => exact ⟨grown_refl store, chained, holds⟩
  | decide read =>
    have found := current read rfl
    cases read with
    | none =>
      have noRows := latest_none store _ found.symm
      refine countersign_safe chained holds.1 holds.2 ?_
      intro row member same
      have listed : row ∈ store.history request.statement.origin := by
        simp [WitnessStore.history, member, same]
      rw [noRows] at listed
      cases listed
    | some latest =>
      rw [advance]
      cases decided : consistent env request latest with
      | error error => exact ⟨grown_refl store, chained, trivial⟩
      | ok verdict =>
        rcases consistent_cases decided with ⟨kind, rfl⟩ | ⟨signature, rfl, size, root⟩ | ⟨rfl, grown, sound⟩
        · exact refused kind
        · obtain ⟨stored, origin, -⟩ := latest_some store _ found.symm
          exact ⟨grown_refl store, chained, holds.1, holds.2, latest, stored, origin, size.symm, root⟩
        · exact countersign_safe chained holds.1 holds.2 fun row member same =>
            latest_fits collisionFree chained found.symm grown sound member same
  | done response => exact ⟨grown_refl store, chained, holds⟩

/-! ## Whole runs -/

structure Safe (env : Environment) (emptyRoot : Bytes) (server : Server) : Prop where
  chained : Chained env emptyRoot server.store
  holds : ∀ thread ∈ server.threads, StageHolds env server.store thread.request thread.stage
  genuine : ∀ thread ∈ server.threads,
    Genuine env emptyRoot thread.request.statement.treeSize thread.request.statement.rootHash

theorem safe_start : Safe env emptyRoot start := by
  constructor
  · constructor
    · intro row member
      cases member
    · intro row member
      cases member
  · intro thread member
    cases member
  · intro thread member
    cases member

theorem quiet_step {server : Server} {i : Nat} {thread : Thread} (calm : quiet server i = true)
    (found : server.threads[i]? = some thread) :
    (thread.stage = .pin → ∀ row, server.store.knownLog thread.request.statement.origin = some row →
      row.logPublicKey = thread.request.logPublicKey) ∧
    (∀ latest, thread.stage = .decide latest →
      latest = server.store.latest thread.request.statement.origin) := by
  simp only [quiet, found] at calm
  constructor
  · intro stage row known
    simpa [stage, known] using calm
  · intro latest stage
    simpa [stage] using calm

theorem safe_step (collisionFree : Function.Injective2 env.hashChildren) (server : Server) (event : Event)
    (safe : Safe env emptyRoot server) (undisturbed : Undisturbed env emptyRoot server event) :
    Safe env emptyRoot (step env server event) := by
  cases event with
  | request body =>
    rw [step]
    cases read : readRequest env.registry body with
    | error response => exact safe
    | ok request =>
      refine ⟨safe.chained, ?_, ?_⟩
      · intro thread member
        rcases List.mem_append.mp member with old | new
        · exact safe.holds thread old
        · rw [List.mem_singleton.mp new]
          trivial
      · intro thread member
        rcases List.mem_append.mp member with old | new
        · exact safe.genuine thread old
        · rw [List.mem_singleton.mp new]
          exact undisturbed request read
  | advance i =>
    rw [step]
    cases found : server.threads[i]? with
    | none => exact safe
    | some thread =>
      have member : thread ∈ server.threads := List.mem_of_getElem? found
      obtain ⟨pinFree, current⟩ := quiet_step undisturbed found
      obtain ⟨grown, chained, next⟩ :=
        advance_safe collisionFree safe.chained (safe.holds thread member) pinFree current
      refine ⟨chained, ?_, ?_⟩
      · intro other inside
        rcases List.mem_or_eq_of_mem_set inside with old | rfl
        · exact stageHolds_grown grown (safe.holds other old)
        · exact next
      · intro other inside
        rcases List.mem_or_eq_of_mem_set inside with old | rfl
        · exact safe.genuine other old
        · exact safe.genuine thread member

theorem oneGrowingLog_of_safe {server : Server} (safe : Safe env emptyRoot server) :
    OneGrowingLog env emptyRoot server := by
  rintro _ _ ⟨first, inFirst, rfl, _, _, _, doneFirst⟩ ⟨second, inSecond, rfl, _, _, _, doneSecond⟩ origin grown
  have holdsFirst := safe.holds first inFirst
  have holdsSecond := safe.holds second inSecond
  rw [doneFirst] at holdsFirst
  rw [doneSecond] at holdsSecond
  obtain ⟨⟨pin, known, key⟩, signed, row, stored, rowOrigin, rowSize, rowRoot⟩ := holdsFirst
  obtain ⟨⟨pin', known', key'⟩, signed', row', stored', rowOrigin', rowSize', rowRoot'⟩ := holdsSecond
  have onePin : pin = pin' := by
    rw [origin, known'] at known
    exact (Option.some.inj known).symm
  refine ⟨?_, by rw [← key, ← key', onePin], signed, signed'⟩
  obtain ⟨Db, length, root⟩ := safe.genuine second inSecond
  have extend := safe.chained.extend row stored row' stored' (by rw [rowOrigin, rowOrigin', origin])
  rw [rowSize, rowRoot, rowSize', rowRoot'] at extend
  have pos := first.request.statement.treeSize_pos
  refine ⟨Db.take first.request.statement.treeSize.toNat, Db, ?_, length, extend grown Db length root, root,
    List.take_prefix _ _⟩
  rw [List.length_take]
  omega

section Sample

def growthOffer : Json := signedOffer [1] (sampleStatement 2 (sampleDigest 2)) [sampleDigest 3]

def forkOffer : Json := signedOffer [1] (sampleStatement 1 (sampleDigest 4)) []

theorem genuine_of_read {env : Environment} {emptyRoot : Bytes} {body : Json} (treeSize : Int)
    (rootHash : Text) (read : (readRequest env.registry body).toOption.map
      (fun request => (request.statement.treeSize, request.statement.rootHash)) = some (treeSize, rootHash))
    (genuine : Genuine env emptyRoot treeSize rootHash) :
    ∀ request, readRequest env.registry body = .ok request →
      Genuine env emptyRoot request.statement.treeSize request.statement.rootHash := by
  intro request found
  rw [found, Except.toOption, Option.map_some, Option.some.injEq, Prod.mk.injEq] at read
  rw [read.1, read.2]
  exact genuine

-- The sample offers, the leaves of the log each is about, and the digest that stands for its root
def sampleLogs : List (Json × List Bytes × UInt8) :=
  [(logOffer, [sampleDigest 1], 1), (growthOffer, [sampleDigest 1, sampleDigest 3], 2), (forkOffer, [sampleDigest 4], 4)]

theorem sampleOffers_genuine : ∀ row ∈ sampleLogs, ∀ request, readRequest sampleEnvironment.registry row.1 = .ok request →
    Genuine sampleEnvironment [] request.statement.treeSize request.statement.rootHash := by
  have evaluated : ∀ row ∈ sampleLogs, (readRequest sampleEnvironment.registry row.1).toOption.map
        (fun request => (request.statement.treeSize, request.statement.rootHash)) =
          some ((row.2.1.length : Int), hexText (sampleDigest row.2.2)) ∧
      (fromHex (hexText (sampleDigest row.2.2))).toOption = some (merkleRoot sampleEnvironment.hashChildren [] row.2.1) := by
    decide +kernel
  intro row listed
  obtain ⟨read, root⟩ := evaluated row listed
  refine genuine_of_read _ _ read ⟨row.2.1, rfl, ?_⟩
  cases found : fromHex (hexText (sampleDigest row.2.2)) with
  | ok bytes =>
    rw [found] at root
    exact congrArg _ (Option.some.inj root)
  | error problem =>
    rw [found] at root
    cases root

theorem sampleEnvironment_collisionFree : Function.Injective2 sampleEnvironment.hashChildren :=
  FreeHash.pairBytesNaming_injective rfl

def logGrows : List Event :=
  [.request logOffer, .advance 0, .advance 0, .advance 0, .advance 0, .advance 0,
    .request growthOffer, .advance 1, .advance 1, .advance 1, .advance 1]

def OffersGenuine (events : List Event) : Prop :=
  ∀ body, .request body ∈ events → ∀ request, readRequest sampleEnvironment.registry body = .ok request →
    Genuine sampleEnvironment [] request.statement.treeSize request.statement.rootHash

def alwaysQuiet (server : Server) : List Event → Bool
  | [] => true
  | event :: rest =>
    (match event with
      | .request _ => true
      | .advance i => quiet server i) && alwaysQuiet (step sampleEnvironment server event) rest

theorem guarded_of_alwaysQuiet {server : Server} {events : List Event} (genuine : OffersGenuine events)
    (calm : alwaysQuiet server events = true) :
    Guarded (step sampleEnvironment) (Undisturbed sampleEnvironment []) server events := by
  induction events generalizing server with
  | nil => trivial
  | cons event rest ih =>
    rw [alwaysQuiet.eq_def, Bool.and_eq_true] at calm
    refine ⟨?_, ih (fun body member => genuine body (List.mem_cons_of_mem _ member)) calm.2⟩
    cases event with
    | request body => exact genuine body List.mem_cons_self
    | advance i => exact calm.1

theorem logGrows_genuine : OffersGenuine logGrows := by
  intro body member
  simp only [logGrows, List.mem_cons, Event.request.injEq, reduceCtorEq, List.not_mem_nil, or_false,
    false_or] at member
  rcases member with rfl | rfl
  · exact sampleOffers_genuine (logOffer, [sampleDigest 1], 1) (by simp [sampleLogs])
  · exact sampleOffers_genuine (growthOffer, [sampleDigest 1, sampleDigest 3], 2) (by simp [sampleLogs])

def responses (events : List Event) : List Stage :=
  (run (step sampleEnvironment) start events).threads.map Thread.stage

-- Both requests read that nothing is co-signed yet before either records its checkpoint.
def forkRace : List Event :=
  [.request logOffer, .request forkOffer, .advance 0, .advance 0, .advance 0, .advance 0,
    .advance 1, .advance 1, .advance 1, .advance 0, .advance 1]

theorem issued_of_responses (events : List Event) (i : Nat) (origin : Text) (treeSize : Int)
    (rootHash : Text) (found : (run (step sampleEnvironment) start events).threads[i]?.map (fun thread =>
      (thread.stage matches .done (.cosigned _ _ _), thread.request.statement.origin,
        thread.request.statement.treeSize, thread.request.statement.rootHash)) =
      some (true, origin, treeSize, rootHash)) :
    ∃ request, Issued (run (step sampleEnvironment) start events) request ∧
      request.statement.origin = origin ∧ request.statement.treeSize = treeSize ∧
      request.statement.rootHash = rootHash := by
  rw [Option.map_eq_some_iff] at found
  obtain ⟨thread, at_i, fields⟩ := found
  simp only [Prod.mk.injEq] at fields
  obtain ⟨done, sameOrigin, sameSize, sameRoot⟩ := fields
  refine ⟨thread.request, ⟨thread, List.mem_of_getElem? at_i, rfl, ?_⟩, sameOrigin, sameSize, sameRoot⟩
  split at done
  · next signature treeSize reissued stage => exact ⟨_, _, _, stage⟩
  · cases done

end Sample

end QVault.Proof.Witness
