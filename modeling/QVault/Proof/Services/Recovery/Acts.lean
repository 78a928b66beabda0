import QVault.Services.Recovery.Run

/-!
# What a session can do

Every transaction of every operation is made of the acts below, whatever the operation was given and
whatever it read before.
-/

namespace QVault.Proof.Recovery
open QVault.Recovery QVault.Python QVault.Crypto Programs Sessions Transactions Relation

inductive Kind
  | lock | stale | attempt | cancel | revokeKit | start | ask | grant | endApproval | spend | compare | runOut | reject
  | claim | confirm | retire | expire | complete | note | register | change | replaceKey | replaceKit
  deriving DecidableEq

inductive Act (suite : Suite) : Kind → Db → Db → Prop
  | lock (before : Db) (held : List (Resource × Nat)) : Act suite .lock before { before with held }
  | stale {before after : Db} {kit : Kit} (done : markStale kit before = .ok ((), after)) : Act suite .stale before after
  | attempt {before after : Db} {userId now : Int} {id : Nat} (done : countAttempt userId now before = .ok (id, after)) :
      Act suite .attempt before after
  | forget {before after : Db} {id : Nat} (done : forgetAttempt id before = .ok ((), after)) : Act suite .attempt before after
  | failure {before after : Db} {userId now : Int} (done : afterFailure suite userId now before = .ok ((), after)) :
      Act suite .attempt before after
  | cancel {before after : Db} {c : Cancellation} {mark : Mark} (done : applyCancel c mark before = .ok ((), after)) :
      Act suite .cancel before after
  | revokeKit {before after : Db} {id : Nat} {reason : Text} {now : Int} {b : Bool}
      (done : revokeKit id reason now false before = .ok (b, after)) : Act suite .revokeKit before after
  | start {before after : Db} {fresh : Fresh} {user : User} {kit : Kit} {password : Text} {now : Int}
      {wraps : List RequestWrap} (done : startRequest suite fresh user kit password now wraps before = .ok ((), after)) :
      Act suite .start before after
  | askReset {before after : Db} {fresh : Fresh} {device : Device} {now : Int}
      (done : askReset fresh device now before = .ok ((), after)) : Act suite .ask before after
  | askConfirm {before after : Db} {device : Device} {request : Nat} {now : Int}
      (done : insertApproval (pendingApproval .kitConfirm device request now) before = .ok ((), after)) :
      Act suite .ask before after
  | grant {before after : Db} {fresh : Fresh} {r : Request} {approval : Approval} {device : Device} {key : Key}
      {signature : Bytes} {now : Int}
      (done : grantApproval suite fresh r approval device key signature now before = .ok ((), after)) :
      Act suite .grant before after
  | endApproval {before after : Db} {id : Nat} (done : endApproval id before = .ok ((), after)) :
      Act suite .endApproval before after
  | spend {before after : Db} {session id : Nat} {named : Named} {b : Bool}
      (done : spendTry session named id before = .ok (b, after)) : Act suite .spend before after
  | compare (before : Db) (c : Comparison) : Act suite .compare before { before with comparisons := before.comparisons ++ [c] }
  | runOut {before after : Db} {approval : Approval} (done : runOut approval before = .ok ((), after)) :
      Act suite .runOut before after
  | reject {before after : Db} {r : Request} {approval : Approval} {reason : Text}
      (done : endPreclaim r approval reason before = .ok ((), after)) : Act suite .reject before after
  | claim {before after : Db} {fresh : Fresh} {r : Request} {approval : Approval} {password : Text} {now : Int}
      (done : claimRequest suite fresh r approval password now before = .ok ((), after)) : Act suite .claim before after
  | confirm {before after : Db} {r : Request} {approval : Approval} {completes now : Int}
      (done : confirmRequest suite r approval completes now before = .ok ((), after)) : Act suite .confirm before after
  | retire {before after : Db} {device : Device} {requests : List Request}
      (done : retireDevice device requests before = .ok ((), after)) : Act suite .retire before after
  | logRetired {before after : Db} {device : Device} {actor : Option Int}
      (done : logDeviceRevoked suite device actor before = .ok ((), after)) : Act suite .retire before after
  | expire {before after : Db} {now : Int} {r : Request} (unclaimed : r.state.isPreclaim = true)
      (done : expireUnclaimed now r before = .ok ((), after)) : Act suite .expire before after
  | complete {before after : Db} {id : Nat} {now : Int} {found : Option Text} {b : Bool}
      (done : finishCompletion suite id now found before = .ok (b, after)) : Act suite .complete before after
  | note (before : Db) (proof : PasswordProof) : Act suite .note before { before with proofs := before.proofs ++ [proof] }
  | register {before after : Db} {fresh : Fresh} {email password : Text}
      (done : insertUser suite fresh email password before = .ok ((), after)) : Act suite .register before after
  | change {before after : Db} {fresh : Fresh} {user : User} {password : Text} {unlocked : List (Key × Bytes)}
      (done : changeCredential suite fresh user password unlocked before = .ok ((), after)) : Act suite .change before after
  | replaceKey {before after : Db} {fresh : Fresh} {user : User} {password : Text}
      (done : replaceKey suite fresh user password before = .ok ((), after)) : Act suite .replaceKey before after
  | replaceKit {before after : Db} {fresh : Fresh} {user : User} {now : Int} {unlocked : List (Key × Bytes)}
      (done : replaceKit suite fresh user now unlocked before = .ok ((), after)) : Act suite .replaceKit before after

def Acts (suite : Suite) (kinds : List Kind) : Db → Db → Prop :=
  ReflTransGen fun before after => ∃ kind ∈ kinds, Act suite kind before after

section Rules
variable {suite : Suite} {kinds : List Kind}

theorem acts_one {kind : Kind} {before after : Db} (listed : kind ∈ kinds) (act : Act suite kind before after) :
    Acts suite kinds before after :=
  ReflTransGen.single ⟨kind, listed, act⟩

theorem acts_refl (db : Db) : Acts suite kinds db db := ReflTransGen.refl

theorem acts_trans (first second third : Db) (one : Acts suite kinds first second) (two : Acts suite kinds second third) :
    Acts suite kinds first third :=
  one.trans two

theorem acts_mono {more : List Kind} (sub : kinds ⊆ more) {before after : Db} (acts : Acts suite kinds before after) :
    Acts suite more before after := by
  induction acts with
  | refl => exact acts_refl _
  | tail _ act ih =>
    obtain ⟨kind, listed, act⟩ := act
    exact acts_trans _ _ _ ih (acts_one (sub listed) act)

theorem act_within {α : Type} {kind : Kind} {t : Tx α} (listed : kind ∈ kinds)
    (act : ∀ before a after, t before = .ok (a, after) → Act suite kind before after) : Within (Acts suite kinds) t :=
  fun before a after done => acts_one listed (act before a after done)

theorem applyAll_within (cancels : Kind.cancel ∈ kinds) (c : Cancellation) (marks : List Mark) :
    Within (Acts suite kinds) (applyAll c marks) :=
  within_forM acts_refl acts_trans fun _ _ => act_within cancels fun _ _ _ done => .cancel done

theorem andThen_within {α β : Type} {t : Tx α} {rest : α → Tx β} (first : Within (Acts suite kinds) t)
    (second : ∀ a, Within (Acts suite kinds) (rest a)) : Within (Acts suite kinds) (t >>= rest) :=
  within_bind acts_trans first second

end Rules

/-! ## Sessions -/

section Sessions
variable {suite : Suite} {kinds : List Kind} {me : Nat} {α β : Type}

abbrev Does (suite : Suite) (kinds : List Kind) (work : Work α) : Prop := Keeps (Acts suite kinds) work

theorem does_look : Does suite kinds look := keeps_look acts_refl

theorem does_clock : Does suite kinds clock := keeps_bind does_look fun _ => keeps_pure _

theorem does_look_then {rest : Db → Work α} (then_ : ∀ db, Does suite kinds (rest db)) : Does suite kinds (look >>= rest) :=
  keeps_bind does_look then_

theorem does_clock_then {rest : Int → Work α} (then_ : ∀ now, Does suite kinds (rest now)) :
    Does suite kinds (clock >>= rest) :=
  keeps_bind does_clock then_

theorem does_discard {work : Work α} (does : Does suite kinds work) : Does suite kinds (discard work) :=
  keeps_bind does fun _ => keeps_pure _

theorem does_hold (locks : Kind.lock ∈ kinds) (resource : Resource) : Does suite kinds (hold me resource) :=
  ⟨fun before _ => acts_one locks (.lock before _), fun _ => trivial⟩

theorem does_testAndHold (locks : Kind.lock ∈ kinds) (id : Nat) (still : Request → Bool) :
    Does suite kinds (testAndHold me id still) := by
  refine ⟨fun before _ => ?_, fun _ => trivial⟩
  dsimp only
  split
  · exact acts_one locks (.lock before _)
  · exact acts_refl before

theorem does_transact {t : Tx α} {rows : List Nat} (locks : Kind.lock ∈ kinds) (within : Within (Acts suite kinds) t) :
    Does suite kinds (transact me rows t) :=
  keeps_commit acts_trans (fun before => acts_one locks (.lock before _)) within

theorem does_rollback (locks : Kind.lock ∈ kinds) : Does suite kinds (rollback me) :=
  does_transact locks (within_pure acts_refl ())

theorem does_holdAll (locks : Kind.lock ∈ kinds) (resources : List Resource) : Does suite kinds (holdAll me resources) := by
  induction resources with
  | nil => exact keeps_pure _
  | cons resource rest ih => exact keeps_bind (does_hold locks resource) fun _ => ih

theorem does_lockTreasuries (locks : Kind.lock ∈ kinds) (userId : Int) : Does suite kinds (lockTreasuries me userId) :=
  does_look_then fun _ => does_holdAll locks _

theorem does_markCancel (locks : Kind.lock ∈ kinds) (id : Nat) (observed : RequestState) (now : Int) :
    Does suite kinds (markCancel me id observed now) := by
  unfold markCancel
  split
  · exact keeps_pure _
  refine keeps_bind (does_testAndHold locks _ _) fun held => ?_
  split
  · exact keeps_pure _
  refine does_look_then fun db => ?_
  split
  · exact keeps_pure _
  split
  · exact keeps_pure _
  refine keeps_bind (does_testAndHold locks _ _) fun held => ?_
  split <;> exact keeps_pure _

theorem does_markAll (locks : Kind.lock ∈ kinds) (now : Int) (requests : List Request) :
    Does suite kinds (markAll me now requests) := by
  induction requests with
  | nil => exact keeps_pure _
  | cons r rest ih => exact keeps_bind (does_markCancel locks _ _ _) fun _ => keeps_bind ih fun _ => keeps_pure _

theorem does_cancelRequest (locks : Kind.lock ∈ kinds) (cancels : Kind.cancel ∈ kinds) (r : Request) (c : Cancellation) :
    Does suite kinds (cancelRequest me r c) := by
  refine does_clock_then fun now => keeps_bind (does_markCancel locks _ _ _) fun mark => ?_
  cases mark with
  | none => exact keeps_raise _
  | some mark => exact does_transact locks (act_within cancels fun _ _ _ done => .cancel done)

theorem does_passwordProven (locks : Kind.lock ∈ kinds) (userId : Int) (via : Text) :
    Does suite kinds (passwordProven me userId via) := by
  refine does_look_then fun db => ?_
  dsimp only
  split
  · exact keeps_pure _
  refine keeps_bind keeps_getMemory fun proofs => keeps_bind (keeps_setMemory _) fun _ => ?_
  exact does_clock_then fun _ => does_markAll locks _ _

theorem does_settleProofs (locks : Kind.lock ∈ kinds) (proofs : Proofs) : Does suite kinds (settleProofs me proofs) := by
  induction proofs with
  | nil => exact keeps_pure _
  | cons proof rest ih =>
    refine keeps_bind ?_ fun _ => keeps_bind ih fun _ => keeps_pure _
    refine does_look_then fun db => ?_
    split
    · exact keeps_pure _
    exact does_clock_then fun _ => keeps_bind (does_markAll locks _ _) fun _ => keeps_pure _

theorem does_settlePasswordProofs (locks : Kind.lock ∈ kinds) (cancels : Kind.cancel ∈ kinds) :
    Does suite kinds (settlePasswordProofs me) := by
  refine keeps_bind keeps_getMemory fun proofs => ?_
  cases proofs with
  | nil => exact keeps_pure _
  | cons proof rest =>
    refine keeps_bind (keeps_setMemory _) fun _ => keeps_bind (does_rollback locks) fun _ => keeps_bind (does_settleProofs locks _) fun marks => ?_
    refine does_transact locks (within_forM acts_refl acts_trans fun _ _ => ?_)
    exact act_within cancels fun _ _ _ done => .cancel done

end Sessions

end QVault.Proof.Recovery
