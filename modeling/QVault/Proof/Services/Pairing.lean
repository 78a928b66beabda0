import QVault.Services.Pairing

/-!
# What a pairing adds

A row is never claimed twice and never comes back, so the key that a person was shown on the web is the key that is
added, whatever other phones and sessions do between the two.
-/

namespace QVault.Proof.Pairing
open QVault.Python QVault.Services QVault.Services.Pairing Runs

variable {crypto : Crypto} {row row' loaded : Pairing} {w w' : World} {now : Int} {id : Nat}

/-! ## What a phone has proved -/

-- A signature with the key over the account, the code, the key and the digest
def Proven (crypto : Crypto) (uuid : Text) (userId : Int) (algId : Text) (publicKey digest : Bytes) : Prop :=
  ∃ (publicKeyB64 digestText : Text) (message signature : Bytes),
    b64decode true publicKeyB64 = .ok publicKey ∧ fromHex digestText = .ok digest ∧
    devicePairingBytes ⟨userId, uuid, algId, publicKeyB64, digestText⟩ = .ok message ∧
    crypto.verify algId publicKey message signature = true

theorem proofOk_proven {publicKey digest signature : Bytes} {body : ClaimBody}
    (ok : proofOk crypto row publicKey body signature = true) (key : b64decode true body.publicKeyB64 = .ok publicKey)
    (hex : fromHex body.pendingTokenDigest = .ok digest) :
    Proven crypto row.uuid row.userId body.algId publicKey digest := by
  unfold proofOk at ok
  split at ok
  next message built => exact ⟨_, _, message, signature, key, hex, built, ok⟩
  next => cases ok

theorem toOption_eq_some {α : Type} {result : Except PyError α} {value : α} (got : result.toOption = some value) :
    result = .ok value := by
  cases result with
  | error => cases got
  | ok => exact congrArg _ (Option.some.inj got)

theorem checkNewDeviceKey_decoded {keys : List Bytes} {body : ClaimBody} {publicKey signature : Bytes}
    (checked : checkNewDeviceKey crypto keys body = some (publicKey, signature)) :
    b64decode true body.publicKeyB64 = .ok publicKey := by
  unfold checkNewDeviceKey at checked
  simp only [Option.bind_eq_bind, Option.bind_none, Option.bind_eq_some_iff, Option.ite_none_left_eq_some, Option.pure_def,
    Option.some.injEq, Prod.mk.injEq] at checked
  obtain ⟨-, sizes, -, key, decoded, signature, -, -, -, -, rfl, rfl⟩ := checked
  exact toOption_eq_some decoded

theorem checkClaim_proven {epoch : Int} {body : ClaimBody} {claimed : Claimed}
    (checked : checkClaim crypto w now epoch id row body = some claimed) :
    Proven crypto row.uuid row.userId claimed.algId claimed.publicKey claimed.pendingTokenHash := by
  unfold checkClaim at checked
  simp only [Option.bind_eq_bind, Option.bind_none, Option.bind_eq_some_iff, Option.ite_none_left_eq_some,
    Option.pure_def, Option.some.injEq] at checked
  obtain ⟨-, name, -, decoded, keyChecked, -, digest, hex, -, -, proved, rfl⟩ := checked
  have ok : proofOk crypto row decoded.1 body decoded.2 = true := by simpa using proved
  exact proofOk_proven ok (checkNewDeviceKey_decoded keyChecked) (toOption_eq_some hex)

/-! ## What becomes of a row -/

-- A row after a while: who showed it and when stays, a claim is never replaced, and an end is final.
structure Later (row row' : Pairing) : Prop where
  uuid : row'.uuid = row.uuid
  userId : row'.userId = row.userId
  bindingHash : row'.bindingHash = row.bindingHash
  epochAtCreate : row'.epochAtCreate = row.epochAtCreate
  createdAt : row'.createdAt = row.createdAt
  claimDeadline : row'.claimDeadline = row.claimDeadline
  ended : row.state.live = false → row'.state = row.state
  claimed : row.state ≠ .open → row'.state ≠ .open
  algId : row.state ≠ .open → row'.algId = row.algId
  publicKeySha256 : row.state ≠ .open → row'.publicKeySha256 = row.publicKeySha256
  confirmDeadline : row.state ≠ .open → row'.confirmDeadline = row.confirmDeadline
  phone : row.state ≠ .open → row'.state = .claimed ∨ row'.state = .confirmed →
    row'.publicKey = row.publicKey ∧ row'.deviceName = row.deviceName

theorem Later.refl (row : Pairing) : Later row row :=
  ⟨rfl, rfl, rfl, rfl, rfl, rfl, fun _ => rfl, id, fun _ => rfl, fun _ => rfl, fun _ => rfl, fun _ _ => ⟨rfl, rfl⟩⟩

theorem Later.holding {row row' : Pairing} (later : Later row row') (claimed : row.state ≠ .open)
    (holds : row'.state = .claimed ∨ row'.state = .confirmed) : row.state = .claimed ∨ row.state = .confirmed := by
  cases state : row.state with
  | «open» => exact absurd state claimed
  | claimed => exact .inl rfl
  | confirmed => exact .inr rfl
  | contested | declined | cancelled | expired =>
    rw [later.ended (by rw [state]; rfl), state] at holds
    simp at holds

theorem Later.trans {first second third : Pairing} (one : Later first second) (two : Later second third) :
    Later first third where
  uuid := two.uuid.trans one.uuid
  userId := two.userId.trans one.userId
  bindingHash := two.bindingHash.trans one.bindingHash
  epochAtCreate := two.epochAtCreate.trans one.epochAtCreate
  createdAt := two.createdAt.trans one.createdAt
  claimDeadline := two.claimDeadline.trans one.claimDeadline
  ended dead := (two.ended (one.ended dead ▸ dead)).trans (one.ended dead)
  claimed taken := two.claimed (one.claimed taken)
  algId taken := (two.algId (one.claimed taken)).trans (one.algId taken)
  publicKeySha256 taken := (two.publicKeySha256 (one.claimed taken)).trans (one.publicKeySha256 taken)
  confirmDeadline taken := (two.confirmDeadline (one.claimed taken)).trans (one.confirmDeadline taken)
  phone taken holds := by
    have first := one.phone taken (two.holding (one.claimed taken) holds)
    have second := two.phone (one.claimed taken) holds
    exact ⟨second.1.trans first.1, second.2.trans first.2⟩

/-- What a phone claimed with, proved, and the time the web has to confirm it. -/
structure HoldsClaim (crypto : Crypto) (row : Pairing) : Prop where
  proven : ∃ algId publicKey digest, row.algId = some algId ∧ row.publicKey = some publicKey ∧
    row.publicKeySha256 = some (sha256Hex crypto publicKey) ∧ row.pendingTokenHash = some digest ∧
    Proven crypto row.uuid row.userId algId publicKey digest
  inTime : ∃ since, since < row.claimDeadline ∧ row.confirmDeadline = some (since + confirmTime)

structure Sound (crypto : Crypto) (row : Pairing) : Prop where
  claimDeadline : row.claimDeadline = row.createdAt + claimTime
  claim : row.state = .claimed ∨ row.state = .confirmed → HoldsClaim crypto row

structure Change (crypto : Crypto) (row row' : Pairing) : Prop where
  later : Later row row'
  sound : Sound crypto row → Sound crypto row'

theorem Change.refl (row : Pairing) : Change crypto row row := ⟨.refl row, id⟩

theorem Change.trans {first second third : Pairing} (one : Change crypto first second) (two : Change crypto second third) :
    Change crypto first third :=
  ⟨one.later.trans two.later, fun sound => two.sound (one.sound sound)⟩

/-! ## Each write -/

theorem ends_change {state : State} (live : row.state.live = true) (dead : state.live = false) (unconfirmed : state ≠ .confirmed)
    (reason : Option Text) (moment : Option Int) (publicKey : Option Bytes) (name : Option Text) :
    Change crypto row
      { row with state, finishReason := reason, finishedAt := moment, publicKey := publicKey, deviceName := name } := by
  have unopened : state ≠ .open := by
    rintro rfl
    cases dead
  have released : ¬ (state = .claimed ∨ state = .confirmed) := by
    rintro (rfl | rfl)
    · cases dead
    · exact unconfirmed rfl
  have alive : row.state.live ≠ false := by rw [live]; exact Bool.noConfusion
  constructor
  · exact ⟨rfl, rfl, rfl, rfl, rfl, rfl, (absurd · alive), fun _ => unopened, fun _ => rfl, fun _ => rfl, fun _ => rfl,
      fun _ holds => absurd holds released⟩
  · exact fun sound => ⟨sound.claimDeadline, (absurd · released)⟩

-- What is noted on a row beside its claim
theorem notes_change (row : Pairing) (scannedAt reuseReportedAt : Option Int) (wrongAttempts : Nat) :
    Change crypto row
      { row with scannedAt := scannedAt, reuseReportedAt := reuseReportedAt, wrongAttempts := wrongAttempts } :=
  ⟨⟨rfl, rfl, rfl, rfl, rfl, rfl, fun _ => rfl, id, fun _ => rfl, fun _ => rfl, fun _ => rfl, fun _ _ => ⟨rfl, rfl⟩⟩,
    fun sound => ⟨sound.claimDeadline, fun holds => ⟨(sound.claim holds).proven, (sound.claim holds).inTime⟩⟩⟩

theorem endRow_change {state : State} (loaded : State) (reason : Text) (now : Int) (row : Pairing) (dead : state.live = false)
    (unconfirmed : state ≠ .confirmed) : Change crypto row (endRow loaded state reason now row) := by
  unfold endRow
  split_ifs with writes
  · exact ends_change (writes.2 ▸ writes.1) dead unconfirmed _ _ _ _
  · exact .refl row

theorem contest_change (now : Int) (row : Pairing) : Change crypto row (contest now row) := by
  unfold contest
  split_ifs with writes
  · exact ends_change (by rw [writes.1]; rfl) rfl State.noConfusion _ _ _ _
  · exact .refl row

theorem used_change (loaded : Pairing) (now : Int) (row : Pairing) : Change crypto row (used loaded now row) := by
  unfold used reportReuse
  split_ifs
  · exact notes_change row _ _ _
  · exact .refl row

theorem inspect_change (loaded : Pairing) (now epoch : Int) (row : Pairing) :
    Change crypto row (inspect loaded now epoch row) := by
  unfold inspect
  split_ifs
  · exact contest_change now row
  · exact used_change loaded now row
  · exact notes_change row _ _ _
  · exact .refl row

theorem claimRow_change {claimed : Claimed} (unclaimed : row.state = .open) (inTime : now < row.claimDeadline)
    (proven : Proven crypto row.uuid row.userId claimed.algId claimed.publicKey claimed.pendingTokenHash) :
    Change crypto row (claimRow crypto now claimed row) := by
  have alive : row.state.live ≠ false := by rw [unclaimed]; exact Bool.noConfusion
  constructor
  · exact ⟨rfl, rfl, rfl, rfl, rfl, rfl, (absurd · alive), (absurd unclaimed ·), (absurd unclaimed ·), (absurd unclaimed ·),
      (absurd unclaimed ·), fun taken => absurd unclaimed taken⟩
  · intro sound
    exact ⟨sound.claimDeadline, fun _ => ⟨⟨_, _, _, rfl, rfl, rfl, rfl, proven⟩, now, inTime, rfl⟩⟩

-- The phone that holds the claim has signed another digest.
theorem redigest_change {digest : Bytes} {algId : Text} {publicKey : Bytes} (later : Later loaded row)
    (claimed : loaded.state = .claimed) (alg : loaded.algId = some algId) (key : loaded.publicKey = some publicKey)
    (proven : Proven crypto loaded.uuid loaded.userId algId publicKey digest) :
    Change crypto row (redigest loaded now digest row) := by
  have taken : loaded.state ≠ .open := by rw [claimed]; exact State.noConfusion
  unfold redigest
  split_ifs with writes
  · constructor
    · exact ⟨rfl, rfl, rfl, rfl, rfl, rfl, fun _ => rfl, id, fun _ => rfl, fun _ => rfl, fun _ => rfl, fun _ _ => ⟨rfl, rfl⟩⟩
    · intro sound
      have holds := sound.claim (.inl writes.1)
      obtain ⟨algId', publicKey', digest', alg', key', hash', -, -⟩ := holds.proven
      obtain rfl := Option.some.inj (((later.algId taken).trans alg).symm.trans alg')
      obtain rfl := Option.some.inj (((later.phone taken (.inl writes.1)).1.trans key).symm.trans key')
      rw [← later.uuid, ← later.userId] at proven
      exact ⟨sound.claimDeadline, fun _ => ⟨⟨_, _, _, alg', key', hash', rfl, proven⟩, holds.inTime⟩⟩
  · exact .refl row

theorem claimAgain_change {body : ClaimBody} (later : Later loaded row) (claimed : loaded.state = .claimed) :
    Change crypto row (claimAgain crypto w now id loaded body row) := by
  unfold claimAgain
  split
  next publicKey signature decoded _ =>
    split_ifs with differs unproved
    · exact contest_change now row
    · exact contest_change now row
    · split
      next digest hex =>
        split_ifs with known
        · exact .refl row
        · obtain ⟨key, alg⟩ : loaded.publicKey = some publicKey ∧ loaded.algId = some body.algId :=
            ⟨not_not.mp fun other => differs (.inl other), not_not.mp fun other => differs (.inr (.inl other))⟩
          exact redigest_change later claimed alg key (proofOk_proven (Bool.not_eq_false _ ▸ unproved) decoded hex)
      next => exact .refl row
  next => exact contest_change now row

theorem wrong_change (loaded : Pairing) (reason : Text) (now : Int) (row : Pairing) :
    Change crypto row (wrong loaded reason now row) := by
  have counted : Change crypto row { row with wrongAttempts := loaded.wrongAttempts + 1 } := notes_change row _ _ _
  unfold wrong
  dsimp only
  split_ifs
  · exact counted.trans (endRow_change _ _ _ _ rfl State.noConfusion)
  · exact counted

-- The row keeps its claim when it is confirmed.
theorem confirmed_change (claimed : row.state = .claimed) (reason : Option Text) (moment : Option Int) :
    Change crypto row { row with state := .confirmed, finishReason := reason, finishedAt := moment } := by
  have alive : row.state.live ≠ false := by rw [claimed]; exact Bool.noConfusion
  constructor
  · exact ⟨rfl, rfl, rfl, rfl, rfl, rfl, (absurd · alive), fun _ => State.noConfusion, fun _ => rfl, fun _ => rfl,
      fun _ => rfl, fun _ _ => ⟨rfl, rfl⟩⟩
  · intro sound
    have holds := sound.claim (.inl claimed)
    exact ⟨sound.claimDeadline, fun _ => ⟨holds.proven, holds.inTime⟩⟩

theorem cancelLive_change (userId : Int) (reason : Text) (now : Int) (row : Pairing) :
    Change crypto row (cancelLive userId reason now row) := by
  unfold cancelLive
  split_ifs
  · exact endRow_change _ _ _ _ rfl State.noConfusion
  · exact .refl row

theorem swept_change (kept : swept now row = some row') : Change crypto row row' := by
  unfold swept at kept
  dsimp only at kept
  split_ifs at kept with past old old
  · obtain rfl := Option.some.inj kept
    have live : row.state.live = true := by
      rcases past with ⟨state, -⟩ | ⟨state, -⟩ <;> rw [state] <;> rfl
    exact ends_change live rfl State.noConfusion _ _ _ _
  · obtain rfl := Option.some.inj kept
    exact .refl row

/-! ## Rows under the requests -/

theorem write_row (w : World) (id other : Nat) (change : Pairing → Pairing) :
    (w.write id change).row other = if id = other then (w.row id).map change else w.row other := by
  unfold World.row World.write
  rw [List.getElem?_modify]
  by_cases same : id = other
  · subst same
    rw [if_pos rfl]
    cases w.rows[id]? with
    | none => rfl
    | some row => simp
  · rw [if_neg same]
    cases w.rows[other]? <;> simp [same]

structure Follows (crypto : Crypto) (w w' : World) : Prop where
  length : w.rows.length ≤ w'.rows.length
  row : ∀ (id : Nat) (row' : Pairing), id < w.rows.length → w'.row id = some row' →
    ∃ row, w.row id = some row ∧ Change crypto row row'

theorem Follows.of_rows (same : w'.rows = w.rows) : Follows crypto w w' where
  length := by rw [same]
  row id row' _ found := ⟨row', by unfold World.row at found ⊢; rwa [same] at found, .refl row'⟩

theorem follows_write {change : Pairing → Pairing} (changes : ∀ row, w.row id = some row → Change crypto row (change row)) :
    Follows crypto w (w.write id change) where
  length := (List.length_modify ..).ge
  row other row' _ found := by
    rw [write_row] at found
    split_ifs at found with same
    · subst same
      obtain ⟨row, before, rfl⟩ := Option.map_eq_some_iff.mp found
      exact ⟨row, before, changes row before⟩
    · exact ⟨row', found, .refl row'⟩

-- A row that was loaded, and what may have become of it
structure Seen (crypto : Crypto) (w : World) (id : Nat) (loaded : Pairing) : Prop where
  inside : id < w.rows.length
  sound : Sound crypto loaded
  later : ∀ row, w.row id = some row → Later loaded row

theorem Seen.keep (seen : Seen crypto w id loaded) (follows : Follows crypto w w') : Seen crypto w' id loaded where
  inside := seen.inside.trans_le follows.length
  sound := seen.sound
  later row' found := by
    obtain ⟨row, before, change⟩ := follows.row id row' seen.inside found
    exact (seen.later row before).trans change.later

/-- The code and the password were right for what was loaded. -/
structure Accepted (crypto : Crypto) (began : Int) (loaded : Pairing) (typed : Typed) (seen : Bytes) : Prop where
  claimed : stateOf loaded began = .claimed
  digest : loaded.pendingTokenHash = some seen
  publicKeySha256 : loaded.publicKeySha256 = some typed.publicKeySha256
  code : typedCode typed = checkCode crypto loaded.uuid typed.publicKeySha256 (hexText seen)
  password : typed.password = .right

theorem checkConfirm_accepted {epoch : Int} {typed : Typed} {seen : Bytes}
    (accepts : checkConfirm crypto loaded now epoch typed = .accept seen) : Accepted crypto now loaded typed seen := by
  unfold checkConfirm at accepts
  split_ifs at accepts with _ claimed
  split at accepts
  next digest hash digest_eq hash_eq =>
    split_ifs at accepts with hashes code
    cases password : typed.password <;> rw [password] at accepts <;> cases accepts
    obtain rfl := not_not.mp hashes
    rw [Bool.or_eq_true, not_or, bne_iff_ne, not_not] at code
    exact ⟨not_not.mp claimed, digest_eq, hash_eq, code.2, password⟩
  next => cases accepts

theorem stateOf_claimed {row : Pairing} (claimed : stateOf row now = .claimed) :
    row.state = .claimed ∧ ∀ deadline, row.confirmDeadline = some deadline → now < deadline := by
  unfold stateOf at claimed
  split_ifs at claimed with expired late'
  refine ⟨claimed, fun deadline there => ?_⟩
  by_contra late
  exact late' ⟨claimed, by rw [deadlinePassed, there, Option.any_some, decide_eq_true (not_lt.mp late)]⟩

-- Each request is where its checks allow it to be.
inductive Fits (crypto : Crypto) (w : World) : Job → Prop
  | begun {now : Int} {query : Query} {op : Op}
    (own : ∀ typed, op = .confirm typed → ∃ userId uuid, query = .shown userId typed.binding uuid) :
    Fits crypto w (.begun now query op)
  | loaded {now : Int} {id : Nat} {row : Pairing} {epoch : Int} {op : Op} (seen : Seen crypto w id row)
    (own : ∀ typed, op = .confirm typed → row.bindingHash = bindingHash crypto typed.binding) :
    Fits crypto w (.loaded now id row epoch op)
  | claiming {now : Int} {id : Nat} {body : ClaimBody} {claimed : Claimed} {loaded : Pairing} (seen : Seen crypto w id loaded)
    (proven : Proven crypto loaded.uuid loaded.userId claimed.algId claimed.publicKey claimed.pendingTokenHash) :
    Fits crypto w (.claiming now id body claimed)
  | confirming {now : Int} {id : Nat} {row : Pairing} {typed : Typed} {digest : Bytes} (seen : Seen crypto w id row)
    (own : row.bindingHash = bindingHash crypto typed.binding) (accepted : Accepted crypto now row typed digest) :
    Fits crypto w (.confirming now id row typed digest)
  | done : Fits crypto w .done

theorem Fits.keep {job : Job} (fits : Fits crypto w job) (follows : Follows crypto w w') : Fits crypto w' job := by
  cases fits with
  | begun own => exact .begun own
  | loaded seen own => exact .loaded (seen.keep follows) own
  | claiming seen proven => exact .claiming (seen.keep follows) proven
  | confirming seen own accepted => exact .confirming (seen.keep follows) own accepted
  | done => exact .done

/-- A device that was added is the phone that was shown, and its row has ended confirmed. -/
structure Kept (crypto : Crypto) (w : World) (added : Added) : Prop where
  seen : Seen crypto w added.pairing added.row
  own : added.row.bindingHash = bindingHash crypto added.typed.binding
  accepted : Accepted crypto added.began added.row added.typed added.device.tokenHash
  epoch : added.epoch = added.row.epochAtCreate
  device : added.device =
    ⟨added.row.userId, added.row.deviceName, added.row.algId, added.row.publicKey, added.device.tokenHash⟩
  confirmed : ∀ row, w.row added.pairing = some row → row.state = .confirmed

theorem Kept.keep {added : Added} (kept : Kept crypto w added) (follows : Follows crypto w w') : Kept crypto w' added where
  seen := kept.seen.keep follows
  own := kept.own
  accepted := kept.accepted
  epoch := kept.epoch
  device := kept.device
  confirmed row' found := by
    obtain ⟨row, before, change⟩ := follows.row _ row' kept.seen.inside found
    have confirmed := kept.confirmed row before
    exact (change.later.ended (by rw [confirmed]; rfl)).trans confirmed

structure Safe (crypto : Crypto) (w : World) : Prop where
  sound : ∀ id row, w.row id = some row → Sound crypto row
  epoch : ∀ id row, w.row id = some row → row.state.live = true → w.epochs row.userId = row.epochAtCreate
  jobs : ∀ job ∈ w.jobs, Fits crypto w job
  added : ∀ added ∈ w.added, Kept crypto w added
  once : (w.added.map Added.pairing).Nodup

/-! ## One step of a request -/

structure Proceeded (crypto : Crypto) (w w' : World) (job' : Job) : Prop where
  follows : Follows crypto w w'
  epochs : w'.epochs = w.epochs
  length : w'.rows.length = w.rows.length
  fits : Fits crypto w' job'
  -- A device is only added for a row that was claimed until then.
  added : w'.added = w.added ∨ ∃ added row, w'.added = added :: w.added ∧ Kept crypto w' added ∧
    w.row added.pairing = some row ∧ row.state = .claimed

theorem Proceeded.idle {job' : Job} (fits : Fits crypto w job') : Proceeded crypto w w job' :=
  ⟨.of_rows rfl, rfl, rfl, fits, .inl rfl⟩

theorem Proceeded.write {change : Pairing → Pairing}
    (changes : ∀ row, w.row id = some row → Change crypto row (change row)) : Proceeded crypto w (w.write id change) .done :=
  ⟨follows_write changes, rfl, List.length_modify .., .done, .inl rfl⟩

theorem row_inside (found : w.row id = some row) : id < w.rows.length := by
  by_contra outside
  unfold World.row at found
  rw [List.getElem?_eq_none (not_lt.mp outside)] at found
  cases found

theorem find_row {query : Pairing → Bool} (found : w.find query = some (id, row)) : w.row id = some row ∧ query row = true := by
  obtain ⟨⟨entry, place⟩, listed, meets⟩ := List.exists_of_findSome?_eq_some found
  obtain ⟨row', rfl, meets⟩ := Option.bind_eq_some_iff.mp meets
  have there : w.rows[place]? = some (some row') := List.mem_zipIdx_iff_getElem?.mp listed
  split_ifs at meets with asked
  cases meets
  exact ⟨by unfold World.row; rw [there]; rfl, asked⟩

theorem seen_row (safe : Safe crypto w) (found : w.row id = some row) : Seen crypto w id row where
  inside := row_inside found
  sound := safe.sound id row found
  later row' found' := by
    obtain rfl := Option.some.inj (found.symm.trans found')
    exact .refl row

theorem load_fits {query : Query} {op : Op} (safe : Safe crypto w)
    (own : ∀ typed, op = .confirm typed → ∃ userId uuid, query = .shown userId typed.binding uuid) :
    Fits crypto w (load crypto w now query op) := by
  unfold load
  split
  next found =>
    obtain ⟨there, meets⟩ := find_row found
    refine .loaded (seen_row safe there) fun typed confirms => ?_
    obtain ⟨userId, uuid, rfl⟩ := own typed confirms
    exact (of_decide_eq_true meets).2.2
  next => exact .done

theorem answer_proceeded {epoch : Int} {op : Op} (seen : Seen crypto w id loaded)
    (own : ∀ typed, op = .confirm typed → loaded.bindingHash = bindingHash crypto typed.binding) :
    Proceeded crypto w (answer crypto w now id loaded epoch op).1 (answer crypto w now id loaded epoch op).2 := by
  cases op with
  | inspect => exact .write fun row _ => inspect_change loaded now epoch row
  | claim body =>
    unfold answer
    dsimp only
    split_ifs with claimed ended
    · exact .write fun row there => claimAgain_change (seen.later row there) (stateOf_claimed claimed).1
    · exact .write fun row _ => used_change loaded now row
    · cases checked : checkClaim crypto w now epoch id loaded body with
      | none => exact .idle .done
      | some claim => exact .idle (.claiming seen (checkClaim_proven checked))
  | withdraw | decline | cancel =>
    unfold answer
    dsimp only
    split_ifs
    · exact .write fun row _ => endRow_change _ _ _ row rfl State.noConfusion
    · exact .idle .done
  | signOut reason => exact .write fun row _ => endRow_change _ _ _ row rfl State.noConfusion
  | confirm typed =>
    unfold answer
    dsimp only
    cases checked : checkConfirm crypto loaded now epoch typed with
    | refuse => exact .idle .done
    | wrong reason => exact .write fun row _ => wrong_change loaded reason now row
    | accept digest => exact .idle (.confirming seen (own typed rfl) (checkConfirm_accepted checked))

theorem claimStep_proceeded {body : ClaimBody} {claimed : Claimed} (safe : Safe crypto w) (seen : Seen crypto w id loaded)
    (proven : Proven crypto loaded.uuid loaded.userId claimed.algId claimed.publicKey claimed.pendingTokenHash) :
    Proceeded crypto w (claimStep crypto w now id body claimed).1 (claimStep crypto w now id body claimed).2 := by
  unfold claimStep
  cases there : w.row id with
  | none => exact .idle .done
  | some row =>
    dsimp only
    split_ifs with taken unclaimed again
    · exact .idle .done
    · refine .write fun row' there' => ?_
      obtain rfl := Option.some.inj (there.symm.trans there')
      have later := seen.later row there
      rw [← later.uuid, ← later.userId] at proven
      exact claimRow_change unclaimed.1 unclaimed.2 proven
    · exact .idle (.loaded (seen_row safe there) fun typed => Op.noConfusion)
    · exact .idle .done

theorem confirmRow_proceeded {typed : Typed} {digest : Bytes} (safe : Safe crypto w) (seen : Seen crypto w id loaded)
    (own : loaded.bindingHash = bindingHash crypto typed.binding) (accepted : Accepted crypto now loaded typed digest) :
    Proceeded crypto w (confirmRow w now id loaded typed digest) .done := by
  unfold confirmRow
  cases there : w.row id with
  | none => exact .idle .done
  | some row =>
    dsimp only
    split_ifs with known claimed
    · exact .idle .done
    · have later := seen.later row there
      have unopened : loaded.state ≠ .open := by rw [(stateOf_claimed accepted.claimed).1]; exact State.noConfusion
      have phone := later.phone unopened (.inl claimed.1)
      have wrote : Follows crypto w (w.write id fun _ =>
          { row with state := .confirmed, finishReason := some (text "confirmed"), finishedAt := some now }) := by
        refine follows_write fun row' there' => ?_
        obtain rfl := Option.some.inj (there.symm.trans there')
        exact confirmed_change claimed.1 _ _
      have after : Seen crypto _ id loaded := seen.keep wrote
      refine ⟨⟨wrote.length, wrote.row⟩, rfl, List.length_modify .., .done, .inr ⟨_, row, rfl, ?_, there, claimed.1⟩⟩
      refine ⟨⟨after.inside, after.sound, after.later⟩, own, accepted, ?_, ?_, ?_⟩
      · exact (later.userId ▸ safe.epoch id row there (by rw [claimed.1]; rfl)).trans later.epochAtCreate
      · simp only [later.userId, later.algId unopened, phone.1, phone.2]
      · intro row' found
        have found : (w.write id fun _ =>
          { row with state := .confirmed, finishReason := some (text "confirmed"), finishedAt := some now }).row id = some row' := found
        rw [write_row, if_pos rfl, there] at found
        obtain rfl := Option.some.inj found
        rfl
    · exact .idle .done

/-! ## Every step -/

structure Stepped (crypto : Crypto) (w w' : World) : Prop where
  follows : Follows crypto w w'
  fresh : ∀ id row, w.rows.length ≤ id → w'.row id = some row →
    Sound crypto row ∧ (row.state.live = true → w'.epochs row.userId = row.epochAtCreate)
  epochs : ∀ id row, w'.row id = some row → row.state.live = true → id < w.rows.length →
    w'.epochs row.userId = w.epochs row.userId
  jobs : ∀ job ∈ w'.jobs, job ∈ w.jobs ∨ Fits crypto w' job
  added : w'.added = w.added ∨ ∃ added row, w'.added = added :: w.added ∧ Kept crypto w' added ∧
    w.row added.pairing = some row ∧ row.state = .claimed

theorem safe_stepped (safe : Safe crypto w) (stepped : Stepped crypto w w') : Safe crypto w' where
  sound id row' found := by
    rcases lt_or_ge id w.rows.length with inside | outside
    · obtain ⟨row, before, change⟩ := stepped.follows.row id row' inside found
      exact change.sound (safe.sound id row before)
    · exact (stepped.fresh id row' outside found).1
  epoch id row' found live := by
    rcases lt_or_ge id w.rows.length with inside | outside
    · obtain ⟨row, before, change⟩ := stepped.follows.row id row' inside found
      have lived : row.state.live = true := by
        by_contra ended
        rw [change.later.ended (Bool.not_eq_true _ ▸ ended)] at live
        exact ended live
      rw [stepped.epochs id row' found live inside, change.later.userId, safe.epoch id row before lived,
        change.later.epochAtCreate]
    · exact (stepped.fresh id row' outside found).2 live
  jobs job listed := (stepped.jobs job listed).elim (fun old => (safe.jobs job old).keep stepped.follows) id
  added a listed := by
    rcases stepped.added with same | ⟨new, row, adds, kept, -, -⟩
    · exact (safe.added a (same ▸ listed)).keep stepped.follows
    · rcases List.mem_cons.mp (adds ▸ listed) with rfl | old
      · exact kept
      · exact (safe.added a old).keep stepped.follows
  once := by
    rcases stepped.added with same | ⟨new, row, adds, -, there, claimed⟩
    · exact same ▸ safe.once
    · rw [adds, List.map_cons, List.nodup_cons]
      refine ⟨fun known => ?_, safe.once⟩
      -- What was added before has confirmed its row.
      obtain ⟨old, listed, same⟩ := List.mem_map.mp known
      have confirmed := (safe.added old listed).confirmed row (same ▸ there)
      rw [claimed] at confirmed
      cases confirmed

theorem old_rows {length : Nat} {P : Nat → Pairing → Prop} (same : w'.rows.length = length) (id : Nat) (row : Pairing)
    (outside : length ≤ id) (found : w'.row id = some row) : P id row :=
  absurd (row_inside found) (by omega)

theorem Stepped.same (rows : w'.rows = w.rows) (epochs : w'.epochs = w.epochs) (added : w'.added = w.added)
    (jobs : ∀ job ∈ w'.jobs, job ∈ w.jobs ∨ Fits crypto w' job) : Stepped crypto w w' :=
  ⟨.of_rows rows, old_rows (by rw [rows]), fun id row _ _ _ => by rw [epochs], jobs, .inl added⟩

theorem begin_stepped {query : Query} {op : Op}
    (own : ∀ typed, op = .confirm typed → ∃ userId uuid, query = .shown userId typed.binding uuid) :
    Stepped crypto w (w.begin query op) := by
  refine .same rfl rfl rfl fun job listed => ?_
  rcases List.mem_append.mp listed with old | new
  · exact .inl old
  · obtain rfl := List.mem_singleton.mp new
    exact .inr (.begun own)

theorem create_stepped {row : Pairing} (sound : Sound crypto row) (epoch : w.epochs row.userId = row.epochAtCreate) :
    Stepped crypto w { w with rows := w.rows ++ [some row] } := by
  refine ⟨⟨by rw [List.length_append]; omega, fun id row' inside found => ?_⟩, fun id row' outside found => ?_,
    fun _ _ _ _ _ => rfl, fun _ => .inl, .inl rfl⟩
  · unfold World.row at found ⊢
    rw [List.getElem?_append_left inside] at found
    exact ⟨row', found, .refl row'⟩
  · unfold World.row at found
    rw [List.getElem?_append_right outside] at found
    cases place : id - w.rows.length with
    | zero =>
      rw [place] at found
      obtain rfl := Option.some.inj found
      exact ⟨sound, fun _ => epoch⟩
    | succ =>
      rw [place] at found
      cases found

theorem row_map (w : World) (id : Nat) {change : Option Pairing → Option Pairing} (gone : change none = none) :
    (w.rows.map change)[id]?.join = change (w.row id) := by
  unfold World.row
  rw [List.getElem?_map]
  cases w.rows[id]? with
  | none => exact gone.symm
  | some entry => rfl

theorem sweep_stepped (w : World) (now : Int) : Stepped crypto w { w with rows := w.rows.map (·.bind (swept now)) } := by
  refine ⟨⟨by rw [List.length_map], fun id row' _ found => ?_⟩, old_rows (List.length_map _), fun _ _ _ _ _ => rfl,
    fun _ => .inl, .inl rfl⟩
  have found := (row_map w id rfl).symm.trans found
  obtain ⟨row, before, kept⟩ := Option.bind_eq_some_iff.mp found
  exact ⟨row, before, swept_change kept⟩

-- No code that was shown under the old credential is left alive.
theorem bumpEpoch_stepped (w : World) (userId : Int) : Stepped crypto w (step crypto w (.bumpEpoch userId)) := by
  have cancels : ∀ id row', (step crypto w (.bumpEpoch userId)).row id = some row' →
      ∃ row, w.row id = some row ∧ row' = cancelLive userId (text "credential_changed") w.now row := by
    intro id row' found
    have found := (row_map w id rfl).symm.trans found
    obtain ⟨row, before, rfl⟩ := Option.map_eq_some_iff.mp found
    exact ⟨row, before, rfl⟩
  refine ⟨⟨by rw [step, List.length_map], fun id row' _ found => ?_⟩, old_rows (by rw [step, List.length_map]),
    fun id row' found live _ => ?_, fun _ => .inl, .inl rfl⟩
  · obtain ⟨row, before, rfl⟩ := cancels id row' found
    exact ⟨row, before, cancelLive_change _ _ _ row⟩
  · obtain ⟨row, before, rfl⟩ := cancels id row' found
    unfold cancelLive endRow at live ⊢
    split_ifs at live ⊢ with own lives
    · cases live
    · exact absurd ⟨live, rfl⟩ lives
    · exact if_neg own

theorem act_stepped {job : Nat} {request : Job} (safe : Safe crypto w) (fits : Fits crypto w request) :
    Stepped crypto w { (proceed crypto w request).1 with jobs := w.jobs.set job (proceed crypto w request).2 } := by
  have proceeded : Proceeded crypto w (proceed crypto w request).1 (proceed crypto w request).2 := by
    cases fits with
    | begun own => exact .idle (load_fits safe own)
    | loaded seen own => exact answer_proceeded seen own
    | claiming seen proven => exact claimStep_proceeded safe seen proven
    | confirming seen own accepted => exact confirmRow_proceeded safe seen own accepted
    | done => exact .idle .done
  refine ⟨⟨proceeded.follows.length, proceeded.follows.row⟩, old_rows proceeded.length,
    fun _ row _ _ _ => congrFun proceeded.epochs row.userId, fun other listed => ?_, ?_⟩
  · rcases List.mem_or_eq_of_mem_set listed with old | rfl
    · exact .inl old
    · exact .inr (proceeded.fits.keep (.of_rows rfl))
  · rcases proceeded.added with same | ⟨new, row, adds, kept, there, claimed⟩
    · exact .inl same
    · exact .inr ⟨new, row, adds, kept.keep (.of_rows rfl), there, claimed⟩

theorem step_stepped (w : World) (event : Event) (safe : Safe crypto w) : Stepped crypto w (step crypto w event) := by
  cases event with
  | wait time => exact .same rfl rfl rfl fun _ => .inl
  | create uuid userId salt binding tag =>
    unfold step
    dsimp only
    split_ifs
    · exact .same rfl rfl rfl fun _ => .inl
    · exact create_stepped ⟨rfl, fun holds => by simp [shown] at holds⟩ rfl
  | scan token scan =>
    refine begin_stepped fun typed confirms => ?_
    cases scan <;> cases confirms
  | withdraw pendingToken => exact begin_stepped fun typed => Op.noConfusion
  | web userId binding uuid web =>
    refine begin_stepped fun typed confirms => ?_
    cases web <;> cases confirms
    exact ⟨userId, uuid, rfl⟩
  | signOut userId binding reason => exact begin_stepped fun typed => Op.noConfusion
  | sweep => exact sweep_stepped w w.now
  | bumpEpoch userId => exact bumpEpoch_stepped w userId
  | otherKey publicKey => exact .same rfl rfl rfl fun _ => .inl
  | otherDevice tokenHash => exact .same rfl rfl rfl fun _ => .inl
  | act job =>
    cases there : w.jobs[job]? with
    | none =>
      rw [step, there]
      exact .same rfl rfl rfl fun _ => .inl
    | some request =>
      rw [step, there]
      exact act_stepped safe (safe.jobs request (List.mem_of_getElem? there))

/-! ## Every run -/

theorem safe_empty (start : Int) : Safe crypto (emptyWorld start) where
  sound id row found := by cases found
  epoch id row found := by cases found
  jobs job listed := absurd listed List.not_mem_nil
  added a listed := absurd listed List.not_mem_nil
  once := List.nodup_nil

theorem safe_run (start : Int) (events : List Event) : Safe crypto (run (step crypto) (emptyWorld start) events) :=
  run_invariant (fun w event safe _ => safe_stepped safe (step_stepped w event safe)) _ events (safe_empty start)
    (guarded_of_forall (fun _ _ _ => trivial) _)

-- A row that has ended in a state, if it is kept, and the devices that may be there for it
structure Ended (crypto : Crypto) (id : Nat) (state : State) (devices : List Added) (w : World) : Prop where
  safe : Safe crypto w
  inside : id < w.rows.length
  row : ∀ row, w.row id = some row → row.state = state
  devices : ∀ added ∈ w.added, added.pairing = id → added ∈ devices

theorem ended_step {state : State} {devices : List Added} (dead : state.live = false) (w : World) (event : Event)
    (ended : Ended crypto id state devices w) : Ended crypto id state devices (step crypto w event) := by
  have stepped := step_stepped w event ended.safe
  refine ⟨safe_stepped ended.safe stepped, ended.inside.trans_le stepped.follows.length, fun row' found => ?_, ?_⟩
  · obtain ⟨row, before, change⟩ := stepped.follows.row id row' ended.inside found
    have same := ended.row row before
    exact (change.later.ended (same ▸ dead)).trans same
  · rcases stepped.added with same | ⟨new, row, adds, -, there, claimed⟩
    · exact same ▸ ended.devices
    · rw [adds]
      intro added listed own
      rcases List.mem_cons.mp listed with rfl | old
      · rw [own] at there
        rw [← ended.row row there, claimed] at dead
        cases dead
      · exact ended.devices added old own

theorem ended_run {state : State} {devices : List Added} (dead : state.live = false) (events : List Event)
    (ended : Ended crypto id state devices w) : Ended crypto id state devices (run (step crypto) w events) :=
  run_invariant (fun w event ended _ => ended_step dead w event ended) w events ended
    (guarded_of_forall (fun _ _ _ => trivial) _)

-- The claim of the phone that holds the row already
def Retry (crypto : Crypto) (row : Pairing) (body : ClaimBody) : Prop :=
  ∃ publicKey signature, b64decode true body.publicKeyB64 = .ok publicKey ∧ b64decode true body.popSignatureB64 = .ok signature ∧
    row.publicKey = some publicKey ∧ row.algId = some body.algId ∧ hexLine 64 body.pendingTokenDigest = true ∧
    proofOk crypto row publicKey body signature = true

-- A scan, or a claim that is no retry
inductive SecondUse (crypto : Crypto) (loaded : Pairing) : Op → Prop
  | inspect : SecondUse crypto loaded .inspect
  | claim {body : ClaimBody} (other : ¬ Retry crypto loaded body) : SecondUse crypto loaded (.claim body)

theorem claimAgain_contests {body : ClaimBody} (other : ¬ Retry crypto loaded body) :
    claimAgain crypto w now id loaded body row = contest now row := by
  unfold claimAgain
  split
  next publicKey signature decoded decoded' =>
    split_ifs with differs unproved
    · rfl
    · rfl
    · rw [not_or, not_or, not_not, not_not, Bool.not_eq_false] at differs
      exact absurd ⟨publicKey, signature, decoded, decoded', differs.1, differs.2.1, differs.2.2,
        Bool.not_eq_false _ ▸ unproved⟩ other
  next => rfl

theorem answer_secondUse {epoch : Int} {op : Op} (second : SecondUse crypto loaded op) (claimed : stateOf loaded now = .claimed) :
    (answer crypto w now id loaded epoch op).1 = w.write id (contest now) := by
  cases second with
  | inspect =>
    have contests : inspect loaded now epoch = contest now := funext fun row => if_pos claimed
    unfold answer
    dsimp only
    rw [contests]
  | @claim body other =>
    have contests : claimAgain crypto w now id loaded body = contest now := funext fun row => claimAgain_contests other
    unfold answer
    dsimp only
    rw [if_pos claimed, contests]

-- Whatever the row was when the second use came, it is contested or has ended otherwise.
theorem secondUse_ends {job : Nat} {epoch : Int} {op : Op} (safe : Safe crypto w)
    (there : w.jobs[job]? = some (.loaded now id loaded epoch op)) (claimed : stateOf loaded now = .claimed)
    (second : SecondUse crypto loaded op) (none_added : ∀ added ∈ w.added, added.pairing ≠ id) :
    ∃ state : State, state.live = false ∧ Ended crypto id state [] (step crypto w (.act job)) := by
  have stepped := step_stepped w (.act job) safe
  have seen : Seen crypto w id loaded := by
    have fits := safe.jobs _ (List.mem_of_getElem? there)
    cases fits with
    | loaded seen own => exact seen
  obtain ⟨state, inTime⟩ := stateOf_claimed claimed
  have unopened : loaded.state ≠ .open := by
    rw [state]
    exact State.noConfusion
  have answered : (answer crypto w now id loaded epoch op).1 = w.write id (contest now) := answer_secondUse second claimed
  have acted : ∀ other, (step crypto w (.act job)).row other = (w.write id (contest now)).row other := by
    intro other
    rw [← answered, step, there]
    rfl
  have same : (step crypto w (.act job)).added = w.added := by
    rw [step, there]
    show (answer crypto w now id loaded epoch op).1.added = w.added
    rw [answered]
    rfl
  have ends : ∀ state : State, (∀ row, (step crypto w (.act job)).row id = some row → row.state = state) →
      Ended crypto id state [] (step crypto w (.act job)) := fun state rows =>
    ⟨safe_stepped safe stepped, seen.inside.trans_le stepped.follows.length, rows,
      fun added listed own => absurd own (none_added added (same ▸ listed))⟩
  cases before : w.row id with
  | none =>
    refine ⟨.expired, rfl, ends _ fun row found => ?_⟩
    rw [acted, write_row, if_pos rfl, before] at found
    cases found
  | some row =>
    have later := seen.later row before
    by_cases holds : row.state = .claimed
    · refine ⟨.contested, rfl, ends _ fun row' found => ?_⟩
      rw [acted, write_row, if_pos rfl, before] at found
      obtain rfl := Option.some.inj found
      obtain ⟨since, -, deadline⟩ := (seen.sound.claim (.inl state)).inTime
      have early : Pairing.inTime row now = true := by
        rw [Pairing.inTime, later.confirmDeadline unopened, deadline]
        exact decide_eq_true (inTime _ deadline)
      rw [contest, if_pos ⟨holds, early⟩]
    · refine ⟨row.state, ?_, ends _ fun row' found => ?_⟩
      · cases final : row.state with
        | «open» => exact absurd final (later.claimed unopened)
        | claimed => exact absurd final holds
        | _ => rfl
      · rw [acted, write_row, if_pos rfl, before] at found
        obtain rfl := Option.some.inj found
        rw [contest, if_neg fun both => holds both.1]

/-- A second use of a code that a phone has claimed, answered before the web's confirmation, ends it for good: whatever
happens after it, no device is ever added by this code. -/
theorem second_use_adds_nothing (crypto : Crypto) (start : Int) (events rest : List Event) (job id : Nat) (now epoch : Int)
    (loaded : Pairing) (op : Op)
    (there : (run (step crypto) (emptyWorld start) events).jobs[job]? = some (.loaded now id loaded epoch op))
    (claimed : stateOf loaded now = .claimed) (second : SecondUse crypto loaded op)
    (unconfirmed : ∀ added ∈ (run (step crypto) (emptyWorld start) events).added, added.pairing ≠ id) :
    (∀ row, (run (step crypto) (emptyWorld start) (events ++ .act job :: rest)).row id = some row → row.state.live = false) ∧
    ∀ added ∈ (run (step crypto) (emptyWorld start) (events ++ .act job :: rest)).added, added.pairing ≠ id := by
  obtain ⟨state, dead, ended⟩ := secondUse_ends (safe_run start events) there claimed second unconfirmed
  have later := ended_run dead rest ended
  rw [run_append, run_cons]
  exact ⟨fun row found => later.row row found ▸ dead, fun added listed own => List.not_mem_nil (later.devices added listed own)⟩

/-! ## Signing out -/

-- A phone claims the code of a web session, and another one scans it before the confirmation.
def sampleCrypto : Crypto := ⟨fun bytes => bytes.take 9, fun uuid _ => uuid, fun _ => some (1, 1), fun _ _ _ _ => true⟩

def sampleBody : ClaimBody :=
  ⟨some (text "phone"), text "ML-DSA-65", text "AQ==", List.replicate 64 (codePoint '0'), text "AQ=="⟩

def sampleClaim : List Event :=
  [.create (text "u") 7 [] (text "b") none, .scan (text "u") (.claim sampleBody), .act 0, .act 0, .act 0]

def sampleConfirm : Web := .confirm (sha256Hex sampleCrypto [1]) (text "338544") .right

def sampleRow : Pairing :=
  claimRow sampleCrypto 0 ⟨text "ML-DSA-65", [1], text "phone", List.replicate 32 0⟩
    (shown sampleCrypto (text "u") 7 [] (text "b") none 0 0)

example :
    (run (step sampleCrypto) (emptyWorld 0) (sampleClaim ++ [.web 7 (text "b") (text "u") sampleConfirm, .act 1, .act 1, .act 1])).added.map
      Added.pairing = [0] := by decide +kernel

def sampleScanned : List Event := sampleClaim ++ [.scan (text "u") .inspect, .act 1]

def sampleRest : List Event := [.web 7 (text "b") (text "u") sampleConfirm, .act 2, .act 2, .act 2]

theorem sampleScanned_loaded :
    (run (step sampleCrypto) (emptyWorld 0) sampleScanned).jobs[1]? = some (.loaded 0 0 sampleRow 0 .inspect) := by
  decide +kernel

theorem sampleScanned_added : (run (step sampleCrypto) (emptyWorld 0) sampleScanned).added.map Added.pairing = [] := by
  decide +kernel

theorem second_use_adds_nothing_sample :
    (run (step sampleCrypto) (emptyWorld 0) (sampleScanned ++ .act 1 :: sampleRest)).added.all
      (fun added => added.pairing != 0) = true := by
  have unconfirmed : ∀ added ∈ (run (step sampleCrypto) (emptyWorld 0) sampleScanned).added, added.pairing ≠ 0 := by
    rw [List.map_eq_nil_iff.mp sampleScanned_added]
    exact fun _ listed => absurd listed List.not_mem_nil
  have nothing := (second_use_adds_nothing sampleCrypto 0 sampleScanned sampleRest 1 0 0 0 sampleRow .inspect
    sampleScanned_loaded (by decide +kernel) .inspect unconfirmed).2
  exact List.all_eq_true.mpr fun added listed => bne_iff_ne.mpr (nothing added listed)

-- The session that shows the code signs out, and nothing is added by it any more.
def sampleSignOut : List Event := sampleClaim ++ [.signOut 7 (text "b") (text "signed_out"), .act 1]

theorem sampleSignOut_loaded : (run (step sampleCrypto) (emptyWorld 0) sampleSignOut).jobs[1]? =
    some (.loaded 0 0 sampleRow 0 (.signOut (text "signed_out"))) := by
  decide +kernel

theorem sampleSignOut_row : (run (step sampleCrypto) (emptyWorld 0) sampleSignOut).row 0 = some sampleRow := by
  decide +kernel

end QVault.Proof.Pairing
