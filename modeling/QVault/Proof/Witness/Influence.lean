import QVault.Proof.Witness.Store
import QVault.Witness.App
import QVault.Lib.Runs
import QVault.Lib.FreeHash

/-!
# What a request without the log's signature can change

A request that finds its origin pinned leaves nothing behind but a violation. One that finds no pin
pins the key it offers, and only then is its signature looked at.
-/

namespace QVault.Proof.Witness
open QVault.Witness QVault.Python Runs

variable (env : Environment)

def Authenticated (body : Json) : Prop :=
  ∃ request, readRequest env.registry body = .ok request ∧ authentic env request = .ok true

structure Uninfluenced (before after : WitnessStore) : Prop where
  pinned : ∀ origin, after.knownLog origin = before.knownLog origin
  cosigned : ∀ origin, after.history origin = before.history origin
  evidence : before.violations <+: after.violations

-- The request is refused as unreadable, or its origin has a key already.
def OriginKnown (store : WitnessStore) (body : Json) : Prop :=
  ∀ request, readRequest env.registry body = .ok request →
    store.knownLog request.statement.origin ≠ none

def serve (store : WitnessStore) (body : Json) : WitnessStore := (cosign env store body).1

theorem uninfluenced_refl (store : WitnessStore) : Uninfluenced store store :=
  ⟨fun _ => rfl, fun _ => rfl, List.prefix_refl _⟩

theorem uninfluenced_refuse (store : WitnessStore) (request : Request) (kind : ViolationKind) :
    Uninfluenced store (refuse store request kind).1 :=
  ⟨fun _ => rfl, fun _ => rfl, List.prefix_append _ _⟩

/-! ## The handler from the store's point of view -/

section Handler
variable {env} {store : WitnessStore} {body : Json} {request : Request}

theorem cosign_unread {response : Response} (unread : readRequest env.registry body = .error response) :
    cosign env store body = (store, .done response) := by
  simp [cosign, unread]

theorem settle_done (n : Nat) {reached : WitnessStore × Stage} {response : Response}
    (done : reached.2 = .done response) : settle env request n reached = reached := by
  obtain ⟨store, stage⟩ := reached
  induction n with
  | zero => rfl
  | succ n ih =>
    have still : advance env store request stage = (store, stage) := by
      simp only at done
      rw [done]
      rfl
    rw [settle, still, ih]

theorem countersign_done : ∃ response, (countersign env store request).2 = .done response := by
  unfold countersign
  split <;> exact ⟨_, rfl⟩

theorem decide_done (env : Environment) (store : WitnessStore) (request : Request)
    (latest : Option CheckpointRow) : ∃ response, (advance env store request (.decide latest)).2 = .done response := by
  cases latest with
  | none => exact countersign_done
  | some latest =>
    rw [advance]
    split
    · exact ⟨_, rfl⟩
    · exact ⟨_, rfl⟩
    · exact ⟨_, rfl⟩
    · exact countersign_done

-- The handler from the signature check on.
def authenticated (env : Environment) (store : WitnessStore) (request : Request) : WitnessStore × Stage :=
  match authentic env request with
  | .error error => (store, .done (.raised error))
  | .ok false => refuse store request .badSignature
  | .ok true => advance env store request (.decide (store.latest request.statement.origin))

theorem settle_authenticate (n : Nat) :
    settle env request (n + 3) (store, .authenticate) = authenticated env store request := by
  rw [settle, authenticated, advance]
  cases authentic env request with
  | error error => exact settle_done _ rfl
  | ok valid =>
    cases valid with
    | false => exact settle_done _ rfl
    | true =>
      obtain ⟨response, done⟩ :=
        decide_done env store request (store.latest request.statement.origin)
      exact settle_done n done

theorem cosign_known {row : OriginRow} (read : readRequest env.registry body = .ok request)
    (known : store.knownLog request.statement.origin = some row) :
    cosign env store body =
      if row.logPublicKey ≠ request.logPublicKey then refuse store request .keyChanged
      else authenticated env store request := by
  have first : advance env store request .identify =
      if row.logPublicKey ≠ request.logPublicKey then refuse store request .keyChanged
      else (store, .authenticate) := by
    simp only [advance, known]
  simp only [cosign, read]
  rw [settle, first]
  split
  · exact settle_done 4 rfl
  · exact settle_authenticate 1

theorem cosign_unknown (read : readRequest env.registry body = .ok request)
    (unknown : store.knownLog request.statement.origin = none) :
    cosign env store body =
      authenticated env
        (store.pinLog request.statement.origin request.logAlgId request.logPublicKey) request := by
  have first : advance env store request .identify = (store, .pin) := by
    simp only [advance, unknown]
  simp only [cosign, read]
  rw [settle, first, settle, advance]
  exact settle_authenticate 0

end Handler

/-! ## One request -/

section Influence
variable (store : WitnessStore)

theorem countersign_knownLog (request : Request) (origin : Text) :
    (countersign env store request).1.knownLog origin = store.knownLog origin := by
  unfold countersign
  split <;> rfl

theorem countersign_history (request : Request) {origin : Text}
    (different : origin ≠ request.statement.origin) :
    (countersign env store request).1.history origin = store.history origin := by
  unfold countersign
  split
  · rfl
  · rfl
  · simp [WitnessStore.history, WitnessStore.record, different.symm]

theorem decide_knownLog (request : Request) (latest : Option CheckpointRow) (origin : Text) :
    (advance env store request (.decide latest)).1.knownLog origin = store.knownLog origin := by
  cases latest with
  | none => exact countersign_knownLog env store request origin
  | some latest =>
    rw [advance]
    split
    · rfl
    · rfl
    · rfl
    · exact countersign_knownLog env store request origin

theorem decide_history (request : Request) (latest : Option CheckpointRow) {origin : Text}
    (different : origin ≠ request.statement.origin) :
    (advance env store request (.decide latest)).1.history origin = store.history origin := by
  cases latest with
  | none => exact countersign_history env store request different
  | some latest =>
    rw [advance]
    split
    · rfl
    · rfl
    · rfl
    · exact countersign_history env store request different

theorem uninfluenced_authenticated {request : Request} (unsigned : authentic env request ≠ .ok true) :
    Uninfluenced store (authenticated env store request).1 := by
  unfold authenticated
  cases signed : authentic env request with
  | error error => exact uninfluenced_refl store
  | ok valid =>
    cases valid with
    | false => exact uninfluenced_refuse store request .badSignature
    | true => exact absurd signed unsigned

theorem uninfluenced_iff {body : Json} (unauthenticated : ¬ Authenticated env body) :
    Uninfluenced store (serve env store body) ↔ OriginKnown env store body := by
  unfold serve OriginKnown
  cases read : readRequest env.registry body with
  | error response =>
    rw [cosign_unread read]
    simp [uninfluenced_refl]
  | ok request =>
    have unsigned : authentic env request ≠ .ok true := by
      intro signed
      exact unauthenticated ⟨request, read, signed⟩
    cases known : store.knownLog request.statement.origin with
    | none =>
      rw [cosign_unknown read known]
      have kept := uninfluenced_authenticated env
        (store.pinLog request.statement.origin request.logAlgId request.logPublicKey) unsigned
      constructor
      · intro same
        have pinned := same.pinned request.statement.origin
        rw [kept.pinned, knownLog_pinLog_self _ _ _ _ known, known] at pinned
        simp at pinned
      · intro claimed
        exact absurd known (claimed request rfl)
    | some row =>
      rw [cosign_known read known]
      constructor
      · intro _ other same
        cases same
        simp [known]
      · intro
        split
        · exact uninfluenced_refuse store request .keyChanged
        · exact uninfluenced_authenticated env store unsigned

end Influence

/-! ## Sequences of requests -/

section Sequence
variable (bodies : List Json)

def SignedFor (origin : Text) (publicKey : Bytes) : Prop :=
  ∃ body ∈ bodies, ∃ request, readRequest env.registry body = .ok request ∧
    request.statement.origin = origin ∧ request.logPublicKey = publicKey ∧
    authentic env request = .ok true

structure Vouched (store : WitnessStore) : Prop where
  pinned : ∀ origin row, store.knownLog origin = some row → SignedFor env bodies origin row.logPublicKey
  cosigned : ∀ origin, store.knownLog origin = none → store.history origin = []

theorem vouched_empty : Vouched env bodies .empty :=
  ⟨by intro origin row known; simp [WitnessStore.knownLog, WitnessStore.empty] at known,
    fun _ _ => rfl⟩

variable {env bodies}

theorem vouched_uninfluenced {before after : WitnessStore} (vouched : Vouched env bodies before)
    (same : Uninfluenced before after) : Vouched env bodies after := by
  constructor
  · intro origin row known
    rw [same.pinned] at known
    exact vouched.pinned origin row known
  · intro origin unknown
    rw [same.pinned] at unknown
    rw [same.cosigned]
    exact vouched.cosigned origin unknown

theorem vouched_pinLog {store : WitnessStore} (vouched : Vouched env bodies store) {origin algId : Text}
    {publicKey : Bytes} (signed : SignedFor env bodies origin publicKey) :
    Vouched env bodies (store.pinLog origin algId publicKey) := by
  constructor
  · intro other row known
    rw [knownLog_pinLog] at known
    split at known
    · next new =>
      rw [Option.some.injEq] at known
      rw [← known, new.1]
      exact signed
    · exact vouched.pinned other row known
  · intro other unknown
    rw [knownLog_pinLog] at unknown
    split at unknown
    · simp at unknown
    · rw [WitnessStore.history, checkpoints_pinLog]
      exact vouched.cosigned other unknown

theorem vouched_decide {store : WitnessStore} (vouched : Vouched env bodies store) {request : Request}
    {row : OriginRow} (known : store.knownLog request.statement.origin = some row)
    (latest : Option CheckpointRow) :
    Vouched env bodies (advance env store request (.decide latest)).1 := by
  constructor
  · intro origin other pinned
    rw [decide_knownLog] at pinned
    exact vouched.pinned origin other pinned
  · intro origin unknown
    rw [decide_knownLog] at unknown
    have different : origin ≠ request.statement.origin := by
      rintro rfl
      simp [known] at unknown
    rw [decide_history env store request latest different]
    exact vouched.cosigned origin unknown

theorem vouched_serve (store : WitnessStore) (body : Json) (member : body ∈ bodies)
    (vouched : Vouched env bodies store)
    (condition : Authenticated env body ∨ OriginKnown env store body) :
    Vouched env bodies (serve env store body) := by
  by_cases authentic : Authenticated env body
  · obtain ⟨request, read, signed⟩ := authentic
    have signedFor : SignedFor env bodies request.statement.origin request.logPublicKey :=
      ⟨body, member, request, read, rfl, rfl, signed⟩
    unfold serve
    cases known : store.knownLog request.statement.origin with
    | none =>
      rw [cosign_unknown read known, authenticated, signed]
      exact vouched_decide (vouched_pinLog vouched signedFor)
        (knownLog_pinLog_self store _ _ _ known) _
    | some row =>
      rw [cosign_known read known, authenticated, signed]
      split
      · exact vouched_uninfluenced vouched (uninfluenced_refuse store request .keyChanged)
      · exact vouched_decide vouched known _
  · exact vouched_uninfluenced vouched
      ((uninfluenced_iff env store authentic).mpr (condition.resolve_left authentic))

theorem first_checkpoint_not_refused {store : WitnessStore} (vouched : Vouched env bodies store)
    {body : Json} {request : Request} (read : readRequest env.registry body = .ok request)
    (signed : authentic env request = .ok true)
    (first : ∀ publicKey, ¬ SignedFor env bodies request.statement.origin publicKey) (reason : Refusal) :
    (cosign env store body).2 ≠ .done (.refused reason) := by
  have unknown : store.knownLog request.statement.origin = none := by
    cases known : store.knownLog request.statement.origin with
    | none => rfl
    | some row => exact absurd (vouched.pinned _ row known) (first row.logPublicKey)
  have noHistory : (store.pinLog request.statement.origin request.logAlgId request.logPublicKey).latest
      request.statement.origin = none := by
    apply latest_of_history_nil
    rw [WitnessStore.history, checkpoints_pinLog]
    exact vouched.cosigned _ unknown
  rw [cosign_unknown read unknown, authenticated, signed]
  simp only [noHistory, advance, countersign]
  split <;> simp

end Sequence

/-- What an unauthenticated request leaves alone, and when. -/
theorem unauthenticated_influence :
    (∀ store body, ¬ Authenticated env body →
      (Uninfluenced store (serve env store body) ↔ OriginKnown env store body)) ∧
    ∀ bodies, Guarded (serve env) (fun store body => Authenticated env body ∨ OriginKnown env store body)
        .empty bodies →
      (∀ origin row, (run (serve env) .empty bodies).knownLog origin = some row →
        SignedFor env bodies origin row.logPublicKey) ∧
      ∀ body request, readRequest env.registry body = .ok request → authentic env request = .ok true →
        (∀ publicKey, ¬ SignedFor env bodies request.statement.origin publicKey) →
        ∀ reason, (cosign env (run (serve env) .empty bodies) body).2 ≠ .done (.refused reason) := by
  refine ⟨fun store body => uninfluenced_iff env store, ?_⟩
  intro bodies guarded
  have vouched : Vouched env bodies (run (serve env) .empty bodies) :=
    run_invariant_of_mem .empty bodies vouched_serve (vouched_empty env bodies) guarded
  exact ⟨vouched.pinned, fun body request read signed first reason =>
    first_checkpoint_not_refused vouched read signed first reason⟩

/-! ## A small deployment

A signature is the key followed by the message, and the only digest with a name of its own is that
of the two leaves of the second checkpoint. -/

section Sample
open QVault.Transparency QVault.Crypto

def sampleRegistry : CryptoRegistry where
  signature algId :=
    if algId = text "ML-DSA-65" then some fun publicKey message signature => signature == publicKey ++ message
    else none

def sampleDigest (b : UInt8) : Bytes := List.replicate 32 b

def sampleEnvironment : Environment where
  registry := sampleRegistry
  hashChildren := FreeHash.pairBytesNaming (sampleDigest 1) (sampleDigest 3) (sampleDigest 2)
  identity := ⟨"witness-1", "ML-DSA-65", [7], fun message => 7 :: message⟩

def sampleStatement (treeSize : Int) (root : Bytes) : Json :=
  checkpointStatement "log.example" treeSize (hexText root) (treeSize - 1) (hexText (sampleDigest 9))
    "2026-01-01T00:00:00+00:00"

def sampleOffer (publicKey signature : Bytes) (statement : Json) (proof : List Bytes) : Json :=
  .dict [("checkpoint", statement), ("log_alg_id", "ML-DSA-65"),
    ("log_public_key_b64", .str (b64encode publicKey)), ("log_signature_b64", .str (b64encode signature)),
    ("consistency_proof", .list (proof.map fun digest => .str (hexText digest)))]

def signedOffer (publicKey : Bytes) (statement : Json) (proof : List Bytes) : Json :=
  sampleOffer publicKey (publicKey ++ (checkpointBytes statement).toOption.getD []) statement proof

def logOffer : Json := signedOffer [1] (sampleStatement 1 (sampleDigest 1)) []

def intruderOffer : Json := sampleOffer [66] [] (sampleStatement 1 (sampleDigest 1)) []

theorem authenticated_iff (env : Environment) (body : Json) :
    Authenticated env body ↔
      (readRequest env.registry body).toOption.map (authentic env) = some (.ok true) := by
  unfold Authenticated
  cases readRequest env.registry body <;> simp [Except.toOption]

theorem sampleOffers_authenticated :
    Authenticated sampleEnvironment logOffer ∧ ¬ Authenticated sampleEnvironment intruderOffer := by
  rw [authenticated_iff, authenticated_iff]
  decide +kernel

theorem unauthenticated_influence_intruder :
    Uninfluenced (serve sampleEnvironment .empty logOffer)
        (serve sampleEnvironment (serve sampleEnvironment .empty logOffer) intruderOffer) ∧
      SignedFor sampleEnvironment [logOffer] "log.example" [1] := by
  have known : OriginKnown sampleEnvironment (serve sampleEnvironment .empty logOffer) intruderOffer := by
    intro request read
    have pinned : (readRequest sampleEnvironment.registry intruderOffer).toOption.map
        (fun request => ((serve sampleEnvironment .empty logOffer).knownLog request.statement.origin).isSome) =
          some true := by decide +kernel
    rw [read, Except.toOption, Option.map_some, Option.some.injEq] at pinned
    exact Option.isSome_iff_ne_none.mp pinned
  constructor
  · exact ((unauthenticated_influence sampleEnvironment).1 _ intruderOffer
      sampleOffers_authenticated.2).mpr known
  · exact ((unauthenticated_influence sampleEnvironment).2 [logOffer] ⟨.inl sampleOffers_authenticated.1, trivial⟩).1
      "log.example" ⟨"log.example", "ML-DSA-65", [1]⟩ (by decide +kernel)

-- The pin comes before the signature check: one unsigned request locks the real log out.
theorem unauthenticated_first_contact_locks_out :
    ¬ Authenticated sampleEnvironment intruderOffer ∧ Authenticated sampleEnvironment logOffer ∧
      ¬ Uninfluenced .empty (serve sampleEnvironment .empty intruderOffer) ∧
      (cosign sampleEnvironment (serve sampleEnvironment .empty intruderOffer) logOffer).2 =
        .done (.refused (.violation .keyChanged)) := by
  refine ⟨sampleOffers_authenticated.2, sampleOffers_authenticated.1, ?_, by decide +kernel⟩
  intro same
  have pinned := same.pinned "log.example"
  have changed : (serve sampleEnvironment .empty intruderOffer).knownLog "log.example" ≠
      WitnessStore.empty.knownLog "log.example" := by decide +kernel
  exact changed pinned

end Sample

end QVault.Proof.Witness
