import QVault.Proof.Services.Recovery.Acts

/-!
# What each operation does

The acts each operation is made of, one lemma for an operation.
-/

namespace QVault.Proof.Recovery
open QVault.Recovery QVault.Python QVault.Crypto Programs Sessions Transactions Relation

variable {suite : Suite} {kinds : List Kind} {me : Nat}

section Requests
variable (locks : Kind.lock ∈ kinds)
include locks

theorem does_phoneCompletionProblem (r : Request) (now : Int) : Does suite kinds (phoneCompletionProblem suite me r now) := by
  refine does_look_then fun db => ?_
  split
  · exact keeps_pure _
  split
  · exact keeps_bind (does_lockTreasuries locks _) fun _ => does_look_then fun _ => keeps_pure _
  · exact keeps_pure _

theorem does_complete (completes : Kind.complete ∈ kinds) (id : Nat) (now : Int) :
    Does suite kinds (complete suite me id now) := by
  refine does_look_then fun db => ?_
  split
  · next r =>
    refine keeps_bind ?_ fun _ => keeps_bind (does_testAndHold locks _ _) fun held => ?_
    · split
      · exact does_hold locks _
      · exact keeps_pure _
    split
    · refine does_look_then fun db => ?_
      split
      · refine keeps_bind ?_ fun found => does_transact locks (act_within completes fun _ _ _ done => .complete done)
        split
        · exact keeps_pure _
        · exact does_phoneCompletionProblem locks _ _
      · exact keeps_pure _
    · exact keeps_bind (does_rollback locks) fun _ => keeps_pure _
  · exact keeps_pure _

theorem does_completeIfDue (completes : Kind.complete ∈ kinds) (userId now : Int) :
    Does suite kinds (completeIfDue suite me userId now) := by
  refine does_look_then fun db => ?_
  split
  · exact keeps_pure _
  · refine keeps_bind (does_complete locks completes _ _) fun ended => ?_
    split <;> exact keeps_pure _

theorem does_preparePasswordWrite (completes : Kind.complete ∈ kinds) (userId now : Int) :
    Does suite kinds (preparePasswordWrite suite me userId now) := by
  refine keeps_bind (does_completeIfDue locks completes _ _) fun ended => keeps_bind (does_hold locks _) fun _ => ?_
  split
  · exact keeps_pure _
  · exact does_look_then fun _ => keeps_pure _

theorem does_settle (completes : Kind.complete ∈ kinds) (id : Nat) : Does suite kinds (settle suite me id) := by
  refine does_clock_then fun now => does_look_then fun db => ?_
  split
  · exact keeps_pure _
  split
  · exact does_discard (does_complete locks completes _ _)
  · exact keeps_pure _

theorem does_cancelAs (cancels : Kind.cancel ∈ kinds) (viewer : Int) (uuid : Text) :
    Does suite kinds (cancelAs me viewer uuid) := by
  refine does_look_then fun db => ?_
  split
  · split
    · exact does_cancelRequest locks cancels _ _
    split
    · exact keeps_raise _
    · exact does_cancelRequest locks cancels _ _
  · exact keeps_raise _

theorem does_cancelByStatusToken (cancels : Kind.cancel ∈ kinds) (token : Bytes) :
    Does suite kinds (cancelByStatusToken suite me token) := by
  refine does_look_then fun db => ?_
  split
  · exact does_cancelRequest locks cancels _ _
  · exact keeps_raise _

theorem does_cancelFromPhone (cancels : Kind.cancel ∈ kinds) (device : Nat) (uuid : Text) :
    Does suite kinds (cancelFromPhone me device uuid) := by
  refine does_look_then fun db => ?_
  split
  · split
    · dsimp only
      split
      · exact does_cancelRequest locks cancels _ _
      split
      · exact keeps_raise _
      split
      · exact keeps_raise _
      · exact does_cancelRequest locks cancels _ _
    · exact keeps_raise _
  · exact keeps_raise _

theorem does_kitNotSaved (cancels : Kind.cancel ∈ kinds) (revokes : Kind.revokeKit ∈ kinds) (user : Int) (kit : Nat) :
    Does suite kinds (kitNotSaved me user kit) := by
  refine does_clock_then fun now => does_look_then fun db => ?_
  split
  · split
    · exact keeps_pure _
    · refine keeps_bind (does_markAll locks _ _) fun marks => does_transact locks ?_
      refine andThen_within ?_ fun _ => applyAll_within cancels _ _
      exact andThen_within (act_within revokes fun _ _ _ done => .revokeKit done) fun _ => within_pure acts_refl _
  · exact keeps_pure _

theorem does_kitToOpen (stales : Kind.stale ∈ kinds) (email : Text) : Does suite kinds (kitToOpen suite me email) := by
  refine does_look_then fun db => ?_
  split
  · split
    · split
      · exact keeps_pure _
      · exact keeps_bind (does_transact locks (act_within stales fun _ _ _ done => .stale done)) fun _ => keeps_pure _
    · exact keeps_pure _
  · exact keeps_pure _

theorem does_startWithKit (stales : Kind.stale ∈ kinds) (attempts : Kind.attempt ∈ kinds) (cancels : Kind.cancel ∈ kinds)
    (starts : Kind.start ∈ kinds) (fresh : Fresh) (email code password : Text) :
    Does suite kinds (startWithKit suite fresh me email code password) := by
  refine does_clock_then fun now => ?_
  split
  · refine keeps_bind (does_kitToOpen locks stales _) fun found => ?_
    split
    · refine keeps_bind (does_transact locks (act_within attempts fun _ _ _ done => .attempt done)) fun attempt => ?_
      split
      · exact keeps_bind (does_transact locks (act_within attempts fun _ _ _ done => .failure done)) fun _ => keeps_raise _
      · exact keeps_raise _
      · refine keeps_bind (does_transact locks (act_within attempts fun _ _ _ done => .forget done)) fun _ => ?_
        refine does_look_then fun db => ?_
        dsimp only
        split
        · split
          · exact keeps_raise _
          split
          · exact keeps_raise _
          refine keeps_bind (keeps_orRaise _) fun opened => ?_
          split
          · exact keeps_raise _
          refine keeps_bind ?_ fun superseded => does_look_then fun db => does_transact locks ?_
          · split
            · exact does_markCancel locks _ _ _
            · exact keeps_pure _
          · exact andThen_within (applyAll_within cancels _ _) fun _ => act_within starts fun _ _ _ done => .start done
        · exact keeps_raise _
    · exact keeps_raise _
  · exact keeps_raise _

end Requests

section Vouching
variable (locks : Kind.lock ∈ kinds)
include locks

theorem does_beginVouching (asks : Kind.ask ∈ kinds) (fresh : Fresh) (device : Nat) (purpose : Purpose) (uuid : Text) :
    Does suite kinds (beginVouching suite fresh me device purpose uuid) := by
  refine does_clock_then fun now => does_look_then fun db => ?_
  split
  · split
    · exact keeps_raise _
    dsimp only
    split
    · exact keeps_raise _
    cases purpose with
    | webReset =>
      refine does_look_then fun db => ?_
      split
      · exact keeps_raise _
      split
      · exact keeps_raise _
      · exact does_transact locks (act_within asks fun _ _ _ done => .askReset done)
    | kitConfirm =>
      refine does_look_then fun db => ?_
      split
      · split
        · exact keeps_raise _
        split
        · split
          · exact keeps_raise _
          dsimp only
          split
          · exact keeps_raise _
          split
          · exact keeps_raise _
          · exact does_transact locks (act_within asks fun _ _ _ done => .askConfirm done)
        · exact keeps_raise _
      · exact keeps_raise _
  · exact keeps_raise _

theorem does_approve (ends : Kind.endApproval ∈ kinds) (grants : Kind.grant ∈ kinds) (fresh : Fresh) (device : Nat)
    (uuid : Text) (purpose : Purpose) (signature : Text) :
    Does suite kinds (approve suite fresh me device uuid purpose signature) := by
  refine does_clock_then fun now => does_look_then fun db => ?_
  split
  · split
    · split
      · exact keeps_raise _
      dsimp only
      split
      · split
        · exact keeps_bind (does_transact locks (act_within ends fun _ _ _ done => .endApproval done)) fun _ => keeps_raise _
        split
        · exact keeps_raise _
        · exact keeps_raise _
        split
        · exact keeps_raise _
        split
        · exact keeps_raise _
        split
        · exact keeps_raise _
        refine does_look_then fun db => ?_
        split
        · exact keeps_raise _
        · exact does_transact locks (act_within grants fun _ _ _ done => .grant done)
      · exact keeps_raise _
    · exact keeps_raise _
  · exact keeps_raise _

theorem does_tryCode (spends : Kind.spend ∈ kinds) (compares : Kind.compare ∈ kinds) (runs : Kind.runOut ∈ kinds)
    (named : Named) (candidate : Option Approval) (code : Text) (typedAt : Int) :
    Does suite kinds (tryCode suite me named candidate code typedAt) := by
  cases candidate with
  | none => exact keeps_pure _
  | some found =>
    refine keeps_bind (does_transact locks (act_within spends fun _ _ _ done => .spend done)) fun took => ?_
    split
    · exact keeps_pure _
    refine keeps_bind ⟨fun before _ => acts_one compares (.compare before _), fun _ => trivial⟩ fun matched => ?_
    split
    · exact keeps_pure _
    refine does_look_then fun db => ?_
    split
    · exact keeps_pure _
    refine keeps_bind ?_ fun _ => keeps_pure _
    split
    · exact does_transact locks (act_within runs fun _ _ _ done => .runOut done)
    · exact keeps_pure _

theorem does_claim (spends : Kind.spend ∈ kinds) (compares : Kind.compare ∈ kinds) (runs : Kind.runOut ∈ kinds)
    (rejects : Kind.reject ∈ kinds) (claims : Kind.claim ∈ kinds) (fresh : Fresh) (email code password : Text) :
    Does suite kinds (claim suite fresh me email code password) := by
  have rejected : ∀ (r : Request) approval reason refusal, Does suite kinds
      (do transact me [r.id] (endPreclaim r approval reason); (raise refusal : Work Unit)) := by
    intro r approval reason refusal
    exact keeps_bind (does_transact locks (act_within rejects fun _ _ _ done => .reject done)) fun _ => keeps_raise _
  refine does_clock_then fun now => keeps_bind (keeps_orRaise _) fun code => does_look_then fun db => ?_
  refine keeps_bind (does_tryCode locks spends compares runs _ _ _ _) fun found => ?_
  split
  · refine does_look_then fun db => ?_
    split
    · split
      · refine does_look_then fun later => ?_
        split
        · exact rejected _ _ _ _
        dsimp only
        split
        · exact keeps_raise _
        refine keeps_bind (does_lockTreasuries locks _) fun _ => does_look_then fun db => ?_
        split
        · exact rejected _ _ _ _
        · exact does_transact locks (act_within claims fun _ _ _ done => .claim done)
      · exact keeps_raise _
    · exact keeps_raise _
  · exact keeps_raise _

theorem does_confirmKit (spends : Kind.spend ∈ kinds) (compares : Kind.compare ∈ kinds) (runs : Kind.runOut ∈ kinds)
    (confirms : Kind.confirm ∈ kinds) (token : Bytes) (code : Text) :
    Does suite kinds (confirmKit suite me token code) := by
  refine does_clock_then fun now => does_look_then fun db => ?_
  split
  · refine keeps_bind (keeps_orRaise _) fun code => ?_
    split
    · dsimp only
      split
      · exact keeps_raise _
      split
      · exact keeps_raise _
      refine does_look_then fun db => keeps_bind (does_tryCode locks spends compares runs _ _ _ _) fun found => ?_
      split
      · refine does_look_then fun db => ?_
        split
        · split
          · exact keeps_raise _
          · exact does_transact locks (act_within confirms fun _ _ _ done => .confirm done)
        · exact keeps_raise _
      · exact keeps_raise _
    · exact keeps_raise _
  · exact keeps_raise _

theorem does_markAssisted (now : Int) (requests : List Request) : Does suite kinds (markAssisted me now requests) := by
  induction requests with
  | nil => exact keeps_pure _
  | cons r rest ih =>
    refine does_look_then fun db => keeps_bind ?_ fun _ => keeps_bind ih fun _ => keeps_pure _
    split
    · exact does_markCancel locks _ _ _
    · exact keeps_pure _

theorem does_revokeDevice (cancels : Kind.cancel ∈ kinds) (retires : Kind.retire ∈ kinds) (device : Nat)
    (actor : Option Int) : Does suite kinds (revokeDevice suite me device actor) := by
  refine does_clock_then fun now => does_look_then fun db => ?_
  split
  · split
    · exact keeps_raise _
    refine keeps_bind (does_markAssisted locks _ _) fun marks => does_transact locks ?_
    refine andThen_within (act_within retires fun _ _ _ done => .retire done) fun _ => ?_
    exact andThen_within (applyAll_within cancels _ _) fun _ => act_within retires fun _ _ _ done => .logRetired done
  · exact keeps_raise _

theorem does_markUnclaimed (requests : List Request) : Does suite kinds (markUnclaimed me requests) := by
  induction requests with
  | nil => exact keeps_pure _
  | cons r rest ih => exact keeps_bind (does_testAndHold locks _ _) fun _ => keeps_bind ih fun _ => keeps_pure _

omit locks in
theorem yields_markUnclaimed (requests : List Request) :
    Yields (fun unclaimed => unclaimed ⊆ requests) (markUnclaimed me requests) := by
  induction requests with
  | nil => exact yields_pure (List.Subset.refl _)
  | cons r rest ih =>
    refine yields_bind (yields_any _) fun moved _ => yields_bind ih fun others sub => yields_pure ?_
    split
    · exact List.cons_subset_cons r sub
    · exact List.subset_cons_of_subset r sub

theorem does_sweep (cancels : Kind.cancel ∈ kinds) (expires : Kind.expire ∈ kinds) (now : Int) :
    Does suite kinds (sweep me now) := by
  refine does_look_then fun db => keeps_bind_of_yields (does_markUnclaimed locks _) (yields_markUnclaimed _) fun unclaimed stale => ?_
  refine does_look_then fun db => keeps_bind (does_markAll locks _ _) fun marks => does_transact locks ?_
  refine andThen_within ?_ fun _ => applyAll_within cancels _ _
  refine within_forM acts_refl acts_trans fun r listed => act_within expires fun _ _ _ done => .expire ?_ done
  have chosen := (List.mem_filter.mp (stale listed)).2
  simp only [Bool.and_eq_true] at chosen
  exact chosen.1

theorem does_tick (cancels : Kind.cancel ∈ kinds) (expires : Kind.expire ∈ kinds) (completes : Kind.complete ∈ kinds) :
    Does suite kinds (tick suite me) := by
  have all : ∀ now requests, Does suite kinds (completeAll suite me now requests) := by
    intro now requests
    induction requests with
    | nil => exact keeps_pure _
    | cons r rest ih =>
      refine keeps_bind (does_discard (keeps_attempt (does_complete locks completes _ _))) fun _ => ?_
      exact keeps_bind (does_rollback locks) fun _ => ih
  refine does_clock_then fun now => ?_
  refine keeps_bind (does_discard (keeps_attempt (does_sweep locks cancels expires _))) fun _ => ?_
  exact keeps_bind (does_rollback locks) fun _ => does_look_then fun db => all _ _

end Vouching

section Credentials
variable (locks : Kind.lock ∈ kinds) (notes : Kind.note ∈ kinds)

theorem does_loadUser (userId : Int) : Does suite kinds (loadUser userId) := by
  refine does_look_then fun db => ?_
  split
  · exact keeps_pure _
  · exact keeps_raise _

theorem does_guardPassword (userId : Int) : Does suite kinds (guardPassword userId) := by
  refine does_look_then fun db => ?_
  split
  · exact keeps_raise _
  · exact keeps_pure _

theorem does_completeThenReload (locks : Kind.lock ∈ kinds) (completes : Kind.complete ∈ kinds) (user : User) :
    Does suite kinds (completeThenReload suite me user) := by
  refine does_clock_then fun now => does_look_then fun db => ?_
  split
  · exact keeps_pure _
  · exact keeps_bind (does_discard (does_complete locks completes _ _)) fun _ => does_loadUser _

include notes

theorem does_noteProof (user : User) (via : Text) : Does suite kinds (noteProof user via) :=
  ⟨fun before _ => acts_one notes (.note before _), fun _ => trivial⟩

include locks

theorem does_provePassword (user : User) (password via : Text) :
    Does suite kinds (provePassword suite me user password via) := by
  refine keeps_bind (does_guardPassword _) fun _ => ?_
  split
  · exact keeps_bind (does_noteProof notes _ _) fun _ => does_passwordProven locks _ _
  · exact keeps_raise _

theorem does_unlockSecretKey (user : User) (key : Key) (password : Text) :
    Does suite kinds (unlockSecretKey suite me user key password) := by
  unfold unlockSecretKey
  split
  · refine keeps_bind (does_guardPassword _) fun _ => does_look_then fun db => does_clock_then fun now => ?_
    split
    · exact keeps_raise _
    split
    · exact keeps_raise _
    refine keeps_bind (does_noteProof notes _ _) fun _ => ?_
    exact keeps_bind (does_passwordProven locks _ _) fun _ => keeps_pure _
  · exact keeps_raise _

theorem does_unlockAll (user : User) (password : Text) (keys : List Key) :
    Does suite kinds (unlockAll suite me user password keys) := by
  induction keys with
  | nil => exact keeps_pure _
  | cons key rest ih =>
    exact keeps_bind (does_unlockSecretKey locks notes _ _ _) fun _ => keeps_bind ih fun _ => keeps_pure _

variable (cancels : Kind.cancel ∈ kinds)
include cancels

theorem does_passwordDoor (completes : Kind.complete ∈ kinds) (userId : Int) (password via : Text)
    (completesFirst commits : Bool) : Does suite kinds (passwordDoor suite me userId password via completesFirst commits) := by
  refine keeps_bind (does_loadUser _) fun user => keeps_bind ?_ fun user => ?_
  · split
    · exact does_completeThenReload locks completes _
    · exact keeps_pure _
  refine keeps_bind (does_provePassword locks notes _ _ _) fun marks => ?_
  split
  · exact does_transact locks (applyAll_within cancels _ _)
  · exact does_rollback locks

theorem does_signWithKey (userId : Int) (key : Nat) (password : Text) (message : Bytes) (commits : Bool) :
    Does suite kinds (signWithKey suite me userId key password message commits) := by
  refine keeps_bind (does_loadUser _) fun user => does_look_then fun db => ?_
  split
  · refine keeps_bind (does_unlockSecretKey locks notes _ _ _) fun unlocked => ?_
    dsimp only
    split
    · exact keeps_raise _
    split
    · exact does_transact locks (applyAll_within cancels _ _)
    · exact does_rollback locks
  · exact keeps_raise _

omit cancels in
theorem does_authenticate (completes : Kind.complete ∈ kinds) (email password : Text) :
    Does suite kinds (authenticate suite me email password) := by
  refine does_look_then fun db => ?_
  split
  · refine keeps_bind (does_completeThenReload locks completes _) fun user => does_look_then fun db => ?_
    dsimp only
    split
    · refine does_look_then fun db => ?_
      split
      · exact keeps_pure _
      exact keeps_bind (does_noteProof notes _ _) fun _ => does_discard (does_passwordProven locks _ _)
    · exact keeps_pure _
  · exact keeps_pure _

theorem does_changePassword (completes : Kind.complete ∈ kinds) (changes : Kind.change ∈ kinds) (fresh : Fresh)
    (userId : Int) (current new : Text) : Does suite kinds (changePassword suite me fresh userId current new) := by
  refine keeps_bind (does_guardPassword _) fun _ => does_clock_then fun now => ?_
  refine keeps_bind (does_discard (does_preparePasswordWrite locks completes _ _)) fun _ => ?_
  refine keeps_bind (does_loadUser _) fun user => ?_
  split
  · exact keeps_raise _
  refine does_look_then fun db => keeps_bind (does_unlockAll locks notes _ _ _) fun unlocked => does_transact locks ?_
  exact andThen_within (applyAll_within cancels _ _) fun _ => act_within changes fun _ _ _ done => .change done

theorem does_reissueSigningKey (completes : Kind.complete ∈ kinds) (replaces : Kind.replaceKey ∈ kinds) (fresh : Fresh)
    (userId : Int) (password : Text) : Does suite kinds (reissueSigningKey suite me fresh userId password) := by
  refine keeps_bind (does_guardPassword _) fun _ => does_clock_then fun now => ?_
  refine keeps_bind (does_discard (does_preparePasswordWrite locks completes _ _)) fun _ => ?_
  refine keeps_bind (does_loadUser _) fun user => ?_
  split
  · exact keeps_raise _
  refine keeps_bind (does_noteProof notes _ _) fun _ => keeps_bind (does_passwordProven locks _ _) fun marks => ?_
  refine does_transact locks ?_
  exact andThen_within (applyAll_within cancels _ _) fun _ => act_within replaces fun _ _ _ done => .replaceKey done

theorem does_issueKit (completes : Kind.complete ∈ kinds) (replaces : Kind.replaceKit ∈ kinds) (fresh : Fresh)
    (userId : Int) (password : Text) : Does suite kinds (issueKit suite me fresh userId password) := by
  refine does_clock_then fun now => ?_
  dsimp only
  refine keeps_bind (does_preparePasswordWrite locks completes _ _) fun replaced => ?_
  split
  · exact keeps_raise _
  refine keeps_bind (does_loadUser _) fun user => does_look_then fun db => ?_
  split
  · exact keeps_raise _
  refine keeps_bind (does_unlockAll locks notes _ _ _) fun unlocked => does_transact locks ?_
  exact andThen_within (applyAll_within cancels _ _) fun _ => act_within replaces fun _ _ _ done => .replaceKit done

end Credentials

/-! ## Requests to the application -/

def kindsOf : Operation → List Kind
  | .registerUser .. => [.lock, .cancel, .register]
  | .startWithKit .. => [.lock, .cancel, .stale, .attempt, .start]
  | .beginVouching .. => [.lock, .cancel, .ask]
  | .approve .. => [.lock, .cancel, .endApproval, .grant]
  | .claim .. => [.lock, .cancel, .spend, .compare, .runOut, .reject, .claim]
  | .confirmKit .. => [.lock, .cancel, .spend, .compare, .runOut, .confirm]
  | .cancelAs .. | .cancelByStatusToken .. | .cancelFromPhone .. => [.lock, .cancel]
  | .kitNotSaved .. => [.lock, .cancel, .revokeKit]
  | .revokeDevice .. => [.lock, .cancel, .retire]
  | .tick => [.lock, .cancel, .expire, .complete]
  | .settle _ => [.lock, .cancel, .complete]
  | .passwordDoor .. | .authenticate .. => [.lock, .cancel, .note, .complete]
  | .signWithKey .. => [.lock, .cancel, .note]
  | .changePassword .. => [.lock, .cancel, .note, .complete, .change]
  | .reissueSigningKey .. => [.lock, .cancel, .note, .complete, .replaceKey]
  | .issueKit .. => [.lock, .cancel, .note, .complete, .replaceKit]

theorem does_registerUser (locks : Kind.lock ∈ kinds) (registers : Kind.register ∈ kinds) (fresh : Fresh)
    (email password : Text) : Does suite kinds (registerUser suite me fresh email password) := by
  unfold registerUser
  dsimp only
  refine does_look_then fun db => ?_
  split
  · exact keeps_raise _
  · exact does_transact locks (act_within registers fun _ _ _ done => .register done)

theorem does_launch {work : Work Unit} (locks : Kind.lock ∈ kinds) (cancels : Kind.cancel ∈ kinds)
    (does : Does suite kinds work) :
    Does suite kinds (do discard (attempt work); rollback me; settlePasswordProofs me) :=
  keeps_bind (does_discard (keeps_attempt does)) fun _ =>
    keeps_bind (does_rollback locks) fun _ => does_settlePasswordProofs locks cancels

theorem locks_of (operation : Operation) : Kind.lock ∈ kindsOf operation := by cases operation <;> simp [kindsOf]

theorem cancels_of (operation : Operation) : Kind.cancel ∈ kindsOf operation := by cases operation <;> simp [kindsOf]

theorem does_operate (operation : Operation) : Does suite (kindsOf operation) (operate suite me operation) := by
  have locks := locks_of operation
  have cancels := cancels_of operation
  cases operation with
  | registerUser fresh email password => exact does_registerUser locks (by simp [kindsOf]) _ _ _
  | startWithKit fresh email code password =>
    exact does_startWithKit locks (by simp [kindsOf]) (by simp [kindsOf]) cancels (by simp [kindsOf]) _ _ _ _
  | beginVouching fresh device purpose uuid => exact does_beginVouching locks (by simp [kindsOf]) _ _ _ _
  | approve fresh device uuid purpose signature =>
    exact does_approve locks (by simp [kindsOf]) (by simp [kindsOf]) _ _ _ _ _
  | claim fresh email code password =>
    exact does_claim locks (by simp [kindsOf]) (by simp [kindsOf]) (by simp [kindsOf]) (by simp [kindsOf]) (by simp [kindsOf])
      _ _ _ _
  | confirmKit token code =>
    exact does_confirmKit locks (by simp [kindsOf]) (by simp [kindsOf]) (by simp [kindsOf]) (by simp [kindsOf]) _ _
  | cancelAs viewer uuid => exact does_cancelAs locks cancels _ _
  | cancelByStatusToken token => exact does_cancelByStatusToken locks cancels _
  | cancelFromPhone device uuid => exact does_cancelFromPhone locks cancels _ _
  | kitNotSaved user kit => exact does_kitNotSaved locks cancels (by simp [kindsOf]) _ _
  | revokeDevice device actor => exact does_revokeDevice locks cancels (by simp [kindsOf]) _ _
  | tick => exact does_tick locks cancels (by simp [kindsOf]) (by simp [kindsOf])
  | settle request => exact does_settle locks (by simp [kindsOf]) _
  | passwordDoor user password via first commits =>
    exact does_passwordDoor locks (by simp [kindsOf]) cancels (by simp [kindsOf]) _ _ _ _ _
  | signWithKey user key password message commits => exact does_signWithKey locks (by simp [kindsOf]) cancels _ _ _ _ _
  | authenticate email password => exact does_authenticate locks (by simp [kindsOf]) (by simp [kindsOf]) _ _
  | changePassword fresh user current new =>
    exact does_changePassword locks (by simp [kindsOf]) cancels (by simp [kindsOf]) (by simp [kindsOf]) _ _ _ _
  | reissueSigningKey fresh user password =>
    exact does_reissueSigningKey locks (by simp [kindsOf]) cancels (by simp [kindsOf]) (by simp [kindsOf]) _ _ _
  | issueKit fresh user password =>
    exact does_issueKit locks (by simp [kindsOf]) cancels (by simp [kindsOf]) (by simp [kindsOf]) _ _ _

theorem launch_does (operation : Operation) : Does suite (kindsOf operation) (launch suite me operation) :=
  does_launch (locks_of operation) (cancels_of operation) (does_operate operation)

end QVault.Proof.Recovery
