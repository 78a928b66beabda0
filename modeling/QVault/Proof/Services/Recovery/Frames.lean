import QVault.Proof.Services.Recovery.Operations

/-!
# What an act leaves alone
-/

namespace QVault.Proof.Recovery
open QVault.Recovery QVault.Python QVault.Crypto Programs Sessions Transactions
open QVault.Services (LedgerEvent)

def endingLog (db : Db) : List LedgerEvent := db.log.filter fun event => event.eventType ∈ recoveryEnding

-- `endings` is the part of the log that tells how requests ended, `asking` how many approvals were asked for.
inductive Part
  | users | keys | devices | kits | requests | approvals | asking | treasuries | clock | endings | spent | comparisons | vouchers | proofs

def Part.same : Part → Db → Db → Prop
  | .users, before, after => after.users = before.users
  | .keys, before, after => after.keys = before.keys
  | .devices, before, after => after.devices = before.devices
  | .kits, before, after => after.kits = before.kits
  | .requests, before, after => after.requests = before.requests
  | .approvals, before, after => after.approvals = before.approvals
  | .asking, before, after => after.approvals.length = before.approvals.length
  | .treasuries, before, after => after.treasuries = before.treasuries
  | .clock, before, after => after.clock = before.clock
  | .endings, before, after => endingLog after = endingLog before
  | .spent, before, after => after.spent = before.spent
  | .comparisons, before, after => after.comparisons = before.comparisons
  | .vouchers, before, after => after.vouchers = before.vouchers
  | .proofs, before, after => after.proofs = before.proofs

def Touches (parts : List Part) (before after : Db) : Prop := ∀ part, part ∉ parts → part.same before after

variable {suite : Suite} {parts : List Part} {α β : Type}

theorem touches_refl (db : Db) : Touches parts db db := by
  intro part _
  cases part <;> rfl

theorem touches_trans (first second third : Db) (one : Touches parts first second) (two : Touches parts second third) :
    Touches parts first third := by
  intro part absent
  have before := one part absent
  have after := two part absent
  cases part <;> exact after.trans before

theorem touches_mono {more : List Part} (sub : parts ⊆ more) {before after : Db} (touches : Touches parts before after) :
    Touches more before after :=
  fun part absent => touches part fun listed => absent (sub listed)

abbrev Touching (parts : List Part) (t : Tx α) : Prop := Within (Touches parts) t

section Statements

theorem touching_pure (a : α) : Touching parts (pure a : Tx α) := within_pure touches_refl a

theorem touching_throw (refusal : Refusal) : Touching parts (throw refusal : Tx α) := within_throw refusal

theorem touching_bind {t : Tx α} {rest : α → Tx β} (first : Touching parts t) (second : ∀ a, Touching parts (rest a)) :
    Touching parts (t >>= rest) :=
  within_bind touches_trans first second

theorem touching_get {rest : Db → Tx α} (then_ : ∀ db, Touching parts (rest db)) :
    Touching parts ((get : Tx Db) >>= rest) :=
  touching_bind (within_get touches_refl) then_

theorem touching_discard {t : Tx α} (touching : Touching parts t) : Touching parts (discard t) :=
  touching_bind touching fun _ => touching_pure _

theorem touching_forM {each : α → Tx Unit} (items : List α) (touching : ∀ a, Touching parts (each a)) :
    Touching parts (items.forM each) :=
  within_forM touches_refl touches_trans fun a _ => touching a

-- A write that leaves every part outside `parts` as it is
theorem touching_modify {change : Db → Db} (leaves : ∀ db, Touches parts db (change db)) :
    Touching parts (modify change : Tx Unit) :=
  within_modify leaves

theorem touching_append {event : Text} {userId actorId : Int} {payload : List (Text × Json)}
    (quiet : event ∉ recoveryEnding ∨ Part.endings ∈ parts) : Touching parts (append event userId actorId payload) := by
  apply touching_modify
  intro db part absent
  cases part with
  | endings =>
    rcases quiet with quiet | listed
    · simp [Part.same, endingLog, List.filter_append, quiet]
    · exact absurd listed absent
  | _ => rfl

theorem touching_writeRequests (rows : List Request) (listed : Part.requests ∈ parts) : Touching parts (writeRequests rows) := by
  unfold writeRequests
  split
  · refine touching_modify fun db part absent => ?_
    cases part <;> first | rfl | exact absurd listed absent
  · exact touching_throw _

theorem touching_updateRequest (id : Nat) (change : Request → Request) (listed : Part.requests ∈ parts) :
    Touching parts (updateRequest id change) :=
  touching_get fun _ => touching_writeRequests _ listed

theorem touching_compareAndSet (id : Nat) (still : Request → Bool) (change : Request → Request)
    (listed : Part.requests ∈ parts) : Touching parts (compareAndSet id still change) := by
  refine touching_get fun db => ?_
  split
  · split
    · exact touching_bind (touching_updateRequest _ _ listed) fun _ => touching_pure _
    · exact touching_pure _
  · exact touching_pure _

theorem touching_updateApprovals (which : Approval → Bool) (change : Approval → Approval)
    (listed : Part.approvals ∈ parts) : Touching parts (updateApprovals which change) := by
  refine touching_modify fun db part absent => ?_
  cases part <;> first | rfl | exact absurd listed absent | simp [Part.same]

theorem touching_compareAndSetApproval (id : Nat) (still : Approval → Bool) (change : Approval → Approval)
    (listed : Part.approvals ∈ parts) : Touching parts (compareAndSetApproval id still change) := by
  refine touching_get fun db => ?_
  split
  · split
    · exact touching_bind (touching_updateApprovals _ _ listed) fun _ => touching_pure _
    · exact touching_pure _
  · exact touching_pure _

theorem touching_insertApproval (make : Nat → Approval) (listed : Part.approvals ∈ parts) (asks : Part.asking ∈ parts) :
    Touching parts (insertApproval make) := by
  refine touching_modify fun db part absent => ?_
  cases part <;> first | rfl | exact absurd listed absent | exact absurd asks absent

theorem touching_updateKit (id : Nat) (change : Kit → Kit) (listed : Part.kits ∈ parts) :
    Touching parts (updateKit id change) := by
  refine touching_get fun db => ?_
  unfold writeKits
  split
  · refine touching_modify fun db part absent => ?_
    cases part <;> first | rfl | exact absurd listed absent
  · exact touching_throw _

theorem touching_updateKey (id : Nat) (change : Key → Key) (listed : Part.keys ∈ parts) :
    Touching parts (updateKey id change) := by
  refine touching_modify fun db part absent => ?_
  cases part <;> first | rfl | exact absurd listed absent

theorem touching_updateUser (id : Int) (change : User → User) (listed : Part.users ∈ parts) :
    Touching parts (updateUser id change) := by
  refine touching_modify fun db part absent => ?_
  cases part <;> first | rfl | exact absurd listed absent

theorem touching_bumpEpoch (userId : Int) : Touching parts (bumpEpoch userId) := by
  refine touching_modify fun db part absent => ?_
  cases part <;> rfl

theorem touching_addKey (make : Nat → Key) (listed : Part.keys ∈ parts) : Touching parts (addKey make) := by
  refine touching_get fun db => touching_bind (touching_modify fun db part absent => ?_) fun _ => touching_pure _
  cases part <;> first | rfl | exact absurd listed absent

end Statements

section Kits
variable (kits : Part.kits ∈ parts)
include kits

theorem touching_revokeKit (id : Nat) (reason : Text) (now : Int) (onlyActive : Bool) :
    Touching parts (revokeKit id reason now onlyActive) := by
  refine touching_get fun db => ?_
  split
  · split
    · refine touching_bind (touching_updateKit _ _ kits) fun _ => ?_
      exact touching_bind (touching_append (.inl (by decide))) fun _ => touching_pure _
    · exact touching_pure _
  · exact touching_pure _

theorem touching_markStale (kit : Kit) : Touching parts (markStale kit) := by
  unfold markStale
  split
  · exact touching_bind (touching_updateKit _ _ kits) fun _ => touching_append (.inl (by decide))
  · exact touching_pure _

theorem touching_addWrap (fresh : Fresh) (kit : Kit) (key : Key) (secretKey : Bytes) :
    Touching parts (addWrap suite fresh kit key secretKey) := by
  unfold addWrap
  split
  · exact touching_throw _
  · exact touching_updateKit _ _ kits

theorem touching_onNewKey (fresh : Fresh) (userId : Int) (key : Key) (secretKey : Bytes) :
    Touching parts (onNewKey suite fresh userId key secretKey) := by
  refine touching_get fun db => ?_
  split
  · exact touching_pure _
  · split
    · exact touching_addWrap kits _ _ _ _
    · exact touching_markStale kits _

theorem touching_forgetUnneededWraps (userId : Int) : Touching parts (forgetUnneededWraps userId) := by
  refine touching_get fun db => ?_
  split
  · exact touching_pure _
  · exact touching_updateKit _ _ kits

theorem touching_burnKit (r : Request) (now : Int) : Touching parts (burnKit r now) := by
  unfold burnKit
  split
  · split
    · exact touching_discard (touching_revokeKit kits _ _ _ _)
    · exact touching_pure _
  · exact touching_pure _

theorem touching_replaceKit (fresh : Fresh) (user : User) (now : Int) (unlocked : List (Key × Bytes)) :
    Touching parts (replaceKit suite fresh user now unlocked) := by
  refine touching_bind (touching_get fun db => ?_) fun _ => touching_bind (touching_get fun db => ?_) fun kit => ?_
  · split
    · refine touching_bind (touching_revokeKit kits _ _ _ _) fun revoked => ?_
      split
      · exact touching_pure _
      · exact touching_throw _
    · exact touching_pure _
  · dsimp only
    split
    · refine touching_bind ?_ fun _ => touching_pure _
      unfold writeKits
      split
      · refine touching_modify fun db part absent => ?_
        cases part <;> first | rfl | exact absurd kits absent
      · exact touching_throw _
    · exact touching_throw _
  · refine touching_bind (touching_forM _ fun pair => touching_addWrap kits _ _ _ _) fun _ => touching_get fun db => ?_
    split
    · exact touching_append (.inl (by decide))
    · exact touching_throw _

end Kits

section Keys
variable (keys : Part.keys ∈ parts)
include keys

theorem touching_generateSigningKey (kits : Part.kits ∈ parts) (fresh : Fresh) (user : User) (password : Text) :
    Touching parts (generateSigningKey suite fresh user password) := by
  refine touching_get fun db => touching_bind (touching_addKey _ keys) fun key => ?_
  exact touching_bind (touching_onNewKey kits _ _ _ _) fun _ => touching_pure _

theorem touching_insertUser (kits : Part.kits ∈ parts) (users : Part.users ∈ parts) (fresh : Fresh)
    (email password : Text) : Touching parts (insertUser suite fresh email password) := by
  intro before a after done
  simp only [insertUser, bind_ok] at done
  obtain ⟨db, between, read, done⟩ := done
  cases read
  split at done
  · cases done
  · simp only [bind_ok] at done
    obtain ⟨_, inserted, set_, done⟩ := done
    cases set_
    have added : Touches parts before { before with users := before.users ++
        [newUser suite fresh email password ((before.users.map (·.id)).foldl max 0 + 1)] } := by
      intro part absent
      cases part <;> first | rfl | exact absurd users absent
    refine touches_trans _ _ _ added ?_
    obtain ⟨key, generated, made, logged⟩ := done
    refine touches_trans _ _ _ (touching_generateSigningKey keys kits _ _ _ _ _ _ made) ?_
    exact touching_append (.inl (by decide)) _ _ _ logged

theorem touching_changeCredential (users : Part.users ∈ parts) (fresh : Fresh) (user : User) (password : Text)
    (unlocked : List (Key × Bytes)) : Touching parts (changeCredential suite fresh user password unlocked) := by
  refine touching_bind (touching_forM _ fun pair => touching_updateKey _ _ keys) fun _ => ?_
  refine touching_bind (touching_updateUser _ _ users) fun _ => touching_bind (touching_bumpEpoch _) fun _ => ?_
  exact touching_append (.inl (by decide))

theorem touching_replaceKey (kits : Part.kits ∈ parts) (fresh : Fresh) (user : User) (password : Text) :
    Touching parts (replaceKey suite fresh user password) := by
  refine touching_get fun db => touching_bind (touching_generateSigningKey keys kits _ _ _) fun new => ?_
  refine touching_get fun later => touching_bind ?_ fun _ => ?_
  · split
    · split
      · exact touching_updateKey _ _ keys
      · exact touching_pure _
    · exact touching_pure _
  · exact touching_bind (touching_forgetUnneededWraps kits _) fun _ => touching_append (.inl (by decide))

theorem touching_applyKitCompletion (r : Request) (now : Int) : Touching parts (applyKitCompletion suite r now) := by
  refine touching_get fun db => touching_bind (touching_forM _ fun w => ?_) fun _ => ?_
  · unfold applyWrap
    split <;> exact touching_updateKey _ _ keys
  · split
    · exact touching_throw _
    · exact touching_pure _

theorem touching_applyPhoneCompletion (kits : Part.kits ∈ parts) (r : Request) (now : Int) :
    Touching parts (applyPhoneCompletion suite r now) := by
  refine touching_get fun db => touching_bind (touching_forM _ fun w => touching_updateKey _ _ keys) fun _ => ?_
  refine touching_get fun later => touching_bind (touching_addKey _ keys) fun key => touching_get fun last => ?_
  refine touching_bind ?_ fun _ => touching_pure _
  split
  · exact touching_discard (touching_revokeKit kits _ _ _ _)
  · exact touching_pure _

omit keys in
theorem touching_setCredential (users : Part.users ∈ parts) (r : Request) : Touching parts (setCredential r) := by
  unfold setCredential
  split
  · exact touching_updateUser _ _ users
  · exact touching_throw _

end Keys

section Approvals
variable (approvals : Part.approvals ∈ parts)
include approvals

theorem touching_endApproval (id : Nat) : Touching parts (endApproval id) := touching_updateApprovals _ _ approvals

theorem touching_endLiveApprovals (request : Nat) : Touching parts (endLiveApprovals request) :=
  touching_updateApprovals _ _ approvals

theorem touching_useApproval (id : Nat) (now : Int) : Touching parts (useApproval id now) :=
  touching_compareAndSetApproval _ _ _ approvals

theorem touching_spendTry (spent : Part.spent ∈ parts) (session : Nat) (named : Named) (id : Nat) :
    Touching parts (spendTry session named id) := by
  refine touching_bind (touching_compareAndSetApproval _ _ _ approvals) fun took => touching_bind ?_ fun _ => touching_pure _
  split
  · refine touching_modify fun db part absent => ?_
    cases part <;> first | rfl | exact absurd spent absent
  · exact touching_pure _

theorem touching_retireDevice (devices : Part.devices ∈ parts) (keys : Part.keys ∈ parts) (device : Device)
    (requests : List Request) : Touching parts (retireDevice device requests) := by
  refine touching_bind (touching_modify fun db part absent => ?_) fun _ => touching_bind ?_ fun _ => ?_
  · cases part <;> first | rfl | exact absurd devices absent
  · exact touching_get fun db => touching_updateKey _ _ keys
  · exact touching_forM _ fun r => touching_endLiveApprovals approvals _

end Approvals

theorem touching_logDeviceRevoked (device : Device) (actor : Option Int) :
    Touching parts (logDeviceRevoked suite device actor) := by
  refine touching_get fun db => touching_modify fun db part absent => ?_
  have quiet : text "device_revoked" ∉ recoveryEnding := by decide
  cases part with
  | endings => simpa [Part.same, endingLog, List.filter_append] using quiet
  | _ => rfl

section Requests
variable (requests : Part.requests ∈ parts)
include requests

theorem touching_erasePending (id : Nat) : Touching parts (erasePending id) := touching_updateRequest _ _ requests

theorem touching_insertRequest (make : Nat → Request) : Touching parts (insertRequest make) :=
  touching_get fun _ => touching_bind (touching_writeRequests _ requests) fun _ => touching_pure _

theorem touching_startRequest (fresh : Fresh) (user : User) (kit : Kit) (password : Text) (now : Int)
    (wraps : List RequestWrap) : Touching parts (startRequest suite fresh user kit password now wraps) := by
  refine touching_bind (touching_insertRequest requests _) fun r => ?_
  exact touching_bind (touching_append (.inl (by decide))) fun _ => touching_append (.inl (by decide))

theorem touching_grantedRequest (id : Nat) (purpose : Purpose) (now : Int) :
    Touching parts (grantedRequest id purpose now) := by
  unfold grantedRequest
  split
  · refine touching_bind (touching_compareAndSet _ _ _ requests) fun moved => ?_
    split
    · exact touching_pure _
    · exact touching_throw _
  · refine touching_get fun db => ?_
    split
    · exact touching_pure _
    · exact touching_throw _

variable (approvals : Part.approvals ∈ parts)
include approvals

theorem touching_askReset (asks : Part.asking ∈ parts) (fresh : Fresh) (device : Device) (now : Int) :
    Touching parts (askReset fresh device now) :=
  touching_bind (touching_insertRequest requests _) fun _ => touching_insertApproval _ approvals asks

omit requests approvals in
theorem touching_logGranted (r : Request) (approval : Approval) (signature : Bytes) :
    Touching parts (logGranted suite r approval signature) := by
  refine touching_bind ?_ fun _ => touching_append (.inl (by decide))
  split
  · exact touching_append (.inl (by decide))
  · exact touching_pure _

theorem touching_grantApproval (vouchers : Part.vouchers ∈ parts) (fresh : Fresh) (r : Request) (approval : Approval)
    (device : Device) (key : Key) (signature : Bytes) (now : Int) :
    Touching parts (grantApproval suite fresh r approval device key signature now) := by
  refine touching_bind (touching_grantedRequest requests _ _ _) fun _ => touching_get fun db => ?_
  split
  · exact touching_throw _
  · refine touching_bind (touching_compareAndSetApproval _ _ _ approvals) fun signed => ?_
    split
    · refine touching_bind (touching_modify fun db part absent => ?_) fun _ => touching_logGranted _ _ _
      cases part <;> first | rfl | exact absurd vouchers absent
    · exact touching_throw _

theorem touching_claimRequest (fresh : Fresh) (r : Request) (approval : Approval) (password : Text) (now : Int) :
    Touching parts (claimRequest suite fresh r approval password now) := by
  refine touching_get fun db => touching_bind (touching_useApproval approvals _ _) fun used => touching_bind ?_ fun _ => ?_
  · split
    · exact touching_pure _
    · exact touching_throw _
  refine touching_bind (touching_compareAndSet _ _ _ requests) fun moved => touching_bind ?_ fun _ => ?_
  · split
    · exact touching_pure _
    · exact touching_throw _
  refine touching_get fun db => touching_bind (touching_updateRequest _ _ requests) fun _ => ?_
  exact touching_bind (touching_append (.inl (by decide))) fun _ => touching_append (.inl (by decide))

theorem touching_confirmRequest (r : Request) (approval : Approval) (completes now : Int) :
    Touching parts (confirmRequest suite r approval completes now) := by
  refine touching_bind (touching_useApproval approvals _ _) fun used => ?_
  refine touching_bind (touching_compareAndSet _ _ _ requests) fun moved => ?_
  split
  · exact touching_append (.inl (by decide))
  · exact touching_throw _

variable (endings : Part.endings ∈ parts)
include endings

omit requests approvals in
theorem touching_logEnded (event : Text) (id : Nat) (reason : Text) : Touching parts (logEnded event id reason) := by
  refine touching_get fun db => ?_
  split
  · exact touching_append (.inr endings)
  · exact touching_pure _

theorem touching_runOut (approval : Approval) : Touching parts (runOut approval) := by
  refine touching_bind (touching_endApproval approvals _) fun _ => touching_get fun db => ?_
  split
  · refine touching_bind (touching_compareAndSet _ _ _ requests) fun ended => ?_
    split
    · exact touching_logEnded endings _ _ _
    · exact touching_pure _
  · exact touching_pure _

theorem touching_endPreclaim (r : Request) (approval : Approval) (reason : Text) :
    Touching parts (endPreclaim r approval reason) := by
  refine touching_bind (touching_endApproval approvals _) fun _ => touching_get fun db => ?_
  refine touching_bind (touching_compareAndSet _ _ _ requests) fun ended => ?_
  split
  · exact touching_logEnded endings _ _ _
  · exact touching_pure _

theorem touching_expireUnclaimed (now : Int) (r : Request) : Touching parts (expireUnclaimed now r) := by
  refine touching_bind (touching_compareAndSet _ _ _ requests) fun ended => ?_
  split
  · refine touching_bind (touching_endLiveApprovals approvals _) fun _ => ?_
    split
    · exact touching_logEnded endings _ _ _
    · exact touching_pure _
  · exact touching_pure _

theorem touching_applyCancel (kits : Part.kits ∈ parts) (c : Cancellation) (mark : Mark) :
    Touching parts (applyCancel c mark) := by
  refine touching_bind (touching_compareAndSet _ _ _ requests) fun moved => ?_
  split
  · refine touching_bind (touching_erasePending requests _) fun _ => ?_
    refine touching_bind (touching_endLiveApprovals approvals _) fun _ => touching_get fun db => ?_
    split
    · exact touching_pure _
    · exact touching_pure _
    · exact touching_bind (touching_burnKit kits _ _) fun _ => touching_append (.inr endings)
  · exact touching_pure _

theorem touching_finishCompletion (users : Part.users ∈ parts) (keys : Part.keys ∈ parts) (kits : Part.kits ∈ parts)
    (id : Nat) (now : Int) (found : Option Text) : Touching parts (finishCompletion suite id now found) := by
  refine touching_bind (touching_compareAndSet _ _ _ requests) fun moved => ?_
  split
  · refine touching_get fun db => ?_
    split
    · exact touching_pure _
    · refine touching_bind ?_ fun spent => touching_bind ?_ fun _ => touching_pure _
      · split
        · exact touching_revokeKit kits _ _ _ _
        · exact touching_pure _
        · exact touching_pure _
      · split
        · refine touching_bind (touching_updateRequest _ _ requests) fun _ => ?_
          exact touching_bind (touching_erasePending requests _) fun _ => touching_append (.inr endings)
        · refine touching_bind ?_ fun facts => touching_bind (touching_setCredential users _) fun _ => ?_
          · split
            · exact touching_applyPhoneCompletion keys kits _ _
            · exact touching_applyKitCompletion keys _ _
          refine touching_bind (touching_bumpEpoch _) fun _ => touching_bind (touching_append (.inr endings)) fun _ => ?_
          exact touching_bind (touching_erasePending requests _) fun _ => touching_endLiveApprovals approvals _
  · exact touching_pure _

end Requests

/-! ## Acts -/

def touched : Kind → List Part
  | .lock | .attempt => []
  | .stale | .revokeKit | .replaceKit => [.kits]
  | .start => [.requests]
  | .ask => [.requests, .approvals, .asking]
  | .claim | .confirm => [.requests, .approvals]
  | .grant => [.requests, .approvals, .vouchers]
  | .endApproval => [.approvals]
  | .spend => [.approvals, .spent]
  | .compare => [.comparisons]
  | .runOut | .reject | .expire => [.requests, .approvals, .endings]
  | .cancel => [.requests, .approvals, .endings, .kits]
  | .retire => [.devices, .keys, .approvals]
  | .complete => [.requests, .approvals, .endings, .kits, .keys, .users]
  | .note => [.proofs]
  | .register => [.users, .keys, .kits]
  | .change => [.users, .keys]
  | .replaceKey => [.keys, .kits]

theorem touching_countAttempt (userId now : Int) : Touching parts (countAttempt userId now) := by
  refine touching_get fun db => touching_bind (touching_modify fun db part absent => ?_) fun _ => touching_pure _
  cases part <;> rfl

theorem touching_forgetAttempt (id : Nat) : Touching parts (forgetAttempt id) := by
  refine touching_modify fun db part absent => ?_
  cases part <;> rfl

theorem touching_afterFailure (userId now : Int) : Touching parts (afterFailure suite userId now) := by
  refine touching_get fun db => ?_
  dsimp only
  split
  · exact touching_pure _
  · split
    · exact touching_pure _
    · refine touching_bind (touching_modify fun db part absent => ?_) fun _ => touching_append (.inl (by decide))
      cases part <;> rfl

theorem act_touches {kind : Kind} {before after : Db} (act : Act suite kind before after) :
    Touches (touched kind) before after := by
  cases act with
  | lock held =>
    intro part _
    cases part <;> rfl
  | compare c =>
    intro part absent
    cases part <;> first | rfl | exact absurd (by simp [touched]) absent
  | note proof =>
    intro part absent
    cases part <;> first | rfl | exact absurd (by simp [touched]) absent
  | stale done => exact touching_markStale (by simp [touched]) _ _ _ _ done
  | attempt done => exact touching_countAttempt _ _ _ _ _ done
  | forget done => exact touching_forgetAttempt _ _ _ _ done
  | failure done => exact touching_afterFailure _ _ _ _ _ done
  | cancel done =>
    exact touching_applyCancel (by simp [touched]) (by simp [touched]) (by simp [touched]) (by simp [touched]) _ _ _ _ _ done
  | revokeKit done => exact touching_revokeKit (by simp [touched]) _ _ _ _ _ _ _ done
  | start done => exact touching_startRequest (by simp [touched]) _ _ _ _ _ _ _ _ _ done
  | askReset done => exact touching_askReset (by simp [touched]) (by simp [touched]) (by simp [touched]) _ _ _ _ _ _ done
  | askConfirm done => exact touching_insertApproval _ (by simp [touched]) (by simp [touched]) _ _ _ done
  | grant done =>
    exact touching_grantApproval (by simp [touched]) (by simp [touched]) (by simp [touched]) _ _ _ _ _ _ _ _ _ _ done
  | endApproval done => exact touching_endApproval (by simp [touched]) _ _ _ _ done
  | spend done => exact touching_spendTry (by simp [touched]) (by simp [touched]) _ _ _ _ _ _ done
  | runOut done => exact touching_runOut (by simp [touched]) (by simp [touched]) (by simp [touched]) _ _ _ _ done
  | reject done => exact touching_endPreclaim (by simp [touched]) (by simp [touched]) (by simp [touched]) _ _ _ _ _ _ done
  | claim done => exact touching_claimRequest (by simp [touched]) (by simp [touched]) _ _ _ _ _ _ _ _ done
  | confirm done => exact touching_confirmRequest (by simp [touched]) (by simp [touched]) _ _ _ _ _ _ _ done
  | retire done => exact touching_retireDevice (by simp [touched]) (by simp [touched]) (by simp [touched]) _ _ _ _ _ done
  | logRetired done => exact touching_logDeviceRevoked _ _ _ _ _ done
  | expire _ done => exact touching_expireUnclaimed (by simp [touched]) (by simp [touched]) (by simp [touched]) _ _ _ _ _ done
  | complete done =>
    exact touching_finishCompletion (by simp [touched]) (by simp [touched]) (by simp [touched]) (by simp [touched])
      (by simp [touched]) (by simp [touched]) _ _ _ _ _ _ done
  | register done => exact touching_insertUser (by simp [touched]) (by simp [touched]) (by simp [touched]) _ _ _ _ _ _ done
  | change done => exact touching_changeCredential (by simp [touched]) (by simp [touched]) _ _ _ _ _ _ _ done
  | replaceKey done => exact touching_replaceKey (by simp [touched]) (by simp [touched]) _ _ _ _ _ _ done
  | replaceKit done => exact touching_replaceKit (by simp [touched]) _ _ _ _ _ _ _ done

end QVault.Proof.Recovery
