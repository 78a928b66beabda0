import QVault.Proof.Services.Recovery.Turns

/-!
# Whose rows they are

People, keys and devices are never renamed, and their identifiers are used once.
-/

namespace QVault.Proof.Recovery
open QVault.Recovery QVault.Python QVault.Crypto Programs Sessions Transactions

structure SameUser (before after : User) : Prop where
  id : after.id = before.id
  email : after.email = before.email

structure SameKey (before after : Key) : Prop where
  id : after.id = before.id
  owner : after.ownerId = before.ownerId
  role : after.role = before.role
  alg : after.algId = before.algId
  publicKey : after.publicKey = before.publicKey

structure SameDevice (before after : Device) : Prop where
  id : after.id = before.id
  owner : after.ownerId = before.ownerId
  key : after.keyId = before.keyId
  created : after.createdAt = before.createdAt
  expires : after.expiresAt = before.expiresAt

structure Identifiers (db : Db) : Prop where
  users : (db.users.map (·.id)).Nodup
  keys : (db.keys.map (·.id)).Nodup
  devices : (db.devices.map (·.id)).Nodup

structure Renames (before after : Db) : Prop where
  users : ∀ u ∈ before.users, ∃ u' ∈ after.users, SameUser u u'
  keys : ∀ k ∈ before.keys, ∃ k' ∈ after.keys, SameKey k k'
  devices : ∀ d ∈ before.devices, ∃ d' ∈ after.devices, SameDevice d d'

def Identified (before after : Db) : Prop := Identifiers before → Identifiers after ∧ Renames before after

theorem identifiers_empty : Identifiers Db.empty := ⟨List.nodup_nil, List.nodup_nil, List.nodup_nil⟩

theorem renames_refl (db : Db) : Renames db db where
  users u listed := ⟨u, listed, rfl, rfl⟩
  keys k listed := ⟨k, listed, rfl, rfl, rfl, rfl, rfl⟩
  devices d listed := ⟨d, listed, rfl, rfl, rfl, rfl, rfl⟩

theorem renames_trans {first second third : Db} (one : Renames first second) (two : Renames second third) :
    Renames first third where
  users u listed := by
    obtain ⟨u', listed', same⟩ := one.users u listed
    obtain ⟨u'', listed'', same'⟩ := two.users u' listed'
    exact ⟨u'', listed'', same'.id.trans same.id, same'.email.trans same.email⟩
  keys k listed := by
    obtain ⟨k', listed', same⟩ := one.keys k listed
    obtain ⟨k'', listed'', same'⟩ := two.keys k' listed'
    exact ⟨k'', listed'', same'.id.trans same.id, same'.owner.trans same.owner, same'.role.trans same.role,
      same'.alg.trans same.alg, same'.publicKey.trans same.publicKey⟩
  devices d listed := by
    obtain ⟨d', listed', same⟩ := one.devices d listed
    obtain ⟨d'', listed'', same'⟩ := two.devices d' listed'
    exact ⟨d'', listed'', same'.id.trans same.id, same'.owner.trans same.owner, same'.key.trans same.key,
      same'.created.trans same.created, same'.expires.trans same.expires⟩

theorem identified_refl (db : Db) : Identified db db := fun ids => ⟨ids, renames_refl db⟩

theorem identified_trans (first second third : Db) (one : Identified first second) (two : Identified second third) :
    Identified first third := by
  intro ids
  obtain ⟨between, same⟩ := one ids
  obtain ⟨final, same'⟩ := two between
  exact ⟨final, renames_trans same same'⟩

theorem identified_of_eq {before after : Db} (users : after.users = before.users) (keys : after.keys = before.keys)
    (devices : after.devices = before.devices) : Identified before after := by
  intro ids
  refine ⟨⟨users ▸ ids.users, keys ▸ ids.keys, devices ▸ ids.devices⟩, ?_, ?_, ?_⟩
  · rw [users]
    exact (renames_refl before).users
  · rw [keys]
    exact (renames_refl before).keys
  · rw [devices]
    exact (renames_refl before).devices

theorem key_unique {db : Db} (ids : Identifiers db) {k l : Key} (one : k ∈ db.keys) (two : l ∈ db.keys) (same : k.id = l.id) :
    k = l :=
  List.inj_on_of_nodup_map ids.keys one two same

theorem device_unique {db : Db} (ids : Identifiers db) {d e : Device} (one : d ∈ db.devices) (two : e ∈ db.devices)
    (same : d.id = e.id) : d = e :=
  List.inj_on_of_nodup_map ids.devices one two same

theorem user_unique {db : Db} (ids : Identifiers db) {u v : User} (one : u ∈ db.users) (two : v ∈ db.users)
    (same : u.id = v.id) : u = v :=
  List.inj_on_of_nodup_map ids.users one two same

theorem device_found {db : Db} {id : Nat} {d : Device} (found : db.device? id = some d) : d ∈ db.devices ∧ d.id = id :=
  ⟨List.mem_of_find?_eq_some found, by simpa using List.find?_some found⟩

theorem key_found {db : Db} {id : Nat} {k : Key} (found : db.key? id = some k) : k ∈ db.keys ∧ k.id = id :=
  ⟨List.mem_of_find?_eq_some found, by simpa using List.find?_some found⟩

theorem user_found {db : Db} {id : Int} {u : User} (found : db.user? id = some u) : u ∈ db.users ∧ u.id = id :=
  ⟨List.mem_of_find?_eq_some found, by simpa using List.find?_some found⟩

/-! ## Statements -/

variable {suite : Suite} {α β : Type}

abbrev Identifying (t : Tx α) : Prop := Within Identified t

theorem identifying_of_touching (parts : List Part) {t : Tx α} (users : Part.users ∉ parts) (keys : Part.keys ∉ parts)
    (devices : Part.devices ∉ parts) (touching : Touching parts t) : Identifying t :=
  fun _ _ _ done => identified_of_eq (touching _ _ _ done _ users) (touching _ _ _ done _ keys) (touching _ _ _ done _ devices)

theorem identifying_pure (a : α) : Identifying (pure a : Tx α) := within_pure identified_refl a

theorem identifying_throw (refusal : Refusal) : Identifying (throw refusal : Tx α) := within_throw refusal

theorem identifying_bind {t : Tx α} {rest : α → Tx β} (first : Identifying t) (second : ∀ a, Identifying (rest a)) :
    Identifying (t >>= rest) :=
  within_bind identified_trans first second

theorem identifying_get {rest : Db → Tx α} (then_ : ∀ db, Identifying (rest db)) :
    Identifying ((get : Tx Db) >>= rest) :=
  identifying_bind (within_get identified_refl) then_

theorem identifying_forM {each : α → Tx Unit} (items : List α) (identifying : ∀ a, Identifying (each a)) :
    Identifying (items.forM each) :=
  within_forM identified_refl identified_trans fun a _ => identifying a

theorem identifying_append {event : Text} {userId actorId : Int} {payload : List (Text × Json)} :
    Identifying (append event userId actorId payload) :=
  identifying_of_touching [.endings] (by simp) (by simp) (by simp) (touching_append (.inr (by simp)))

theorem identifying_revokeKit (id : Nat) (reason : Text) (now : Int) (onlyActive : Bool) :
    Identifying (revokeKit id reason now onlyActive) :=
  identifying_of_touching [.kits] (by simp) (by simp) (by simp) (touching_revokeKit (by simp) _ _ _ _)

theorem map_names {α κ : Type} (name : α → κ) (rows : List α) (change : α → α) (same : ∀ a, name (change a) = name a) :
    (rows.map change).map name = rows.map name := by
  rw [List.map_map]
  exact List.map_congr_left fun a _ => same a

theorem identifying_updateKey {id : Nat} {change : Key → Key} (same : ∀ k, SameKey k (change k)) :
    Identifying (updateKey id change) := by
  apply within_modify
  intro db ids
  have each : ∀ k, SameKey k (if k.id = id then change k else k) := by
    intro k
    split
    · exact same k
    · exact ⟨rfl, rfl, rfl, rfl, rfl⟩
  refine ⟨⟨ids.users, ?_, ids.devices⟩, (renames_refl db).users, ?_, (renames_refl db).devices⟩
  · dsimp only
    rw [map_names _ _ _ fun k => (each k).id]
    exact ids.keys
  · exact fun k listed => ⟨_, List.mem_map_of_mem listed, each k⟩

theorem identifying_updateUser {id : Int} {change : User → User} (same : ∀ u, SameUser u (change u)) :
    Identifying (updateUser id change) := by
  apply within_modify
  intro db ids
  have each : ∀ u, SameUser u (if u.id = id then change u else u) := by
    intro u
    split
    · exact same u
    · exact ⟨rfl, rfl⟩
  refine ⟨⟨?_, ids.keys, ids.devices⟩, ?_, (renames_refl db).keys, (renames_refl db).devices⟩
  · dsimp only
    rw [map_names _ _ _ fun u => (each u).id]
    exact ids.users
  · exact fun u listed => ⟨_, List.mem_map_of_mem listed, each u⟩

theorem nodup_append_next {α : Type} (name : α → Nat) {rows : List α} (nodup : (rows.map name).Nodup) {row : α}
    (named : name row = nextId (rows.map name)) : ((rows ++ [row]).map name).Nodup := by
  rw [List.map_append, List.nodup_append]
  refine ⟨nodup, by simp, ?_⟩
  intro id listed other alone same
  rw [List.map_singleton, List.mem_singleton, named] at alone
  exact lt_irrefl _ (alone ▸ same ▸ lt_nextId listed)

theorem addKey_ok {make : Nat → Key} {before after : Db} {key : Key} (done : addKey make before = .ok (key, after)) :
    key = make (nextId (before.keys.map (·.id))) ∧ after = { before with keys := before.keys ++ [key] } := by
  obtain ⟨db, between, read, done⟩ := bind_ok.mp done
  cases read
  obtain ⟨_, written, write, done⟩ := bind_ok.mp done
  cases write
  cases done
  exact ⟨rfl, rfl⟩

theorem identifying_addKey {make : Nat → Key} (named : ∀ id, (make id).id = id) : Identifying (addKey make) := by
  intro before key after done ids
  obtain ⟨made, written⟩ := addKey_ok done
  subst written
  refine ⟨⟨ids.users, nodup_append_next _ ids.keys (made ▸ named _), ids.devices⟩, (renames_refl before).users, ?_,
    (renames_refl before).devices⟩
  exact fun k listed => ⟨k, List.mem_append_left _ listed, rfl, rfl, rfl, rfl, rfl⟩

theorem identifying_generateSigningKey (fresh : Fresh) (user : User) (password : Text) :
    Identifying (generateSigningKey suite fresh user password) := by
  refine identifying_get fun db => identifying_bind (identifying_addKey fun id => rfl) fun key => ?_
  refine identifying_bind ?_ fun _ => identifying_pure _
  exact identifying_of_touching [.kits] (by simp) (by simp) (by simp) (touching_onNewKey (by simp) _ _ _ _)

theorem lt_next {ids : List Int} {id : Int} (listed : id ∈ ids) : id < ids.foldl max 0 + 1 := by
  have above : ∀ (ids : List Int) (start : Int), start ≤ ids.foldl max start ∧ ∀ id ∈ ids, id ≤ ids.foldl max start := by
    intro ids
    induction ids with
    | nil => exact fun start => ⟨le_rfl, by simp⟩
    | cons first rest ih =>
      intro start
      obtain ⟨below, all⟩ := ih (max start first)
      refine ⟨(le_max_left _ _).trans below, ?_⟩
      intro id listed
      rcases List.mem_cons.mp listed with same | later
      · rw [same]
        exact (le_max_right _ _).trans below
      · exact all id later
  exact Int.lt_add_one_of_le ((above ids 0).2 id listed)

theorem identifying_insertUser (fresh : Fresh) (email password : Text) :
    Identifying (insertUser suite fresh email password) := by
  intro before a after done
  obtain ⟨db, between, read, done⟩ := bind_ok.mp done
  cases read
  split at done
  · cases done
  · obtain ⟨_, inserted, set_, done⟩ := bind_ok.mp done
    cases set_
    obtain ⟨key, generated, made, logged⟩ := bind_ok.mp done
    have added : Identified before { before with users := before.users ++
        [newUser suite fresh email password ((before.users.map (·.id)).foldl max 0 + 1)] } := by
      intro ids
      refine ⟨⟨?_, ids.keys, ids.devices⟩, ?_, (renames_refl before).keys, (renames_refl before).devices⟩
      · dsimp only
        rw [List.map_append, List.nodup_append]
        refine ⟨ids.users, by simp, ?_⟩
        intro id listed other alone same
        rw [List.map_singleton, List.mem_singleton] at alone
        have below := lt_next listed
        rw [same, alone] at below
        exact lt_irrefl _ below
      · exact fun u listed => ⟨u, List.mem_append_left _ listed, rfl, rfl⟩
    refine identified_trans _ _ _ added (identified_trans _ _ _ (identifying_generateSigningKey _ _ _ _ _ _ made) ?_)
    exact identifying_append _ _ _ logged

theorem identifying_changeCredential (fresh : Fresh) (user : User) (password : Text) (unlocked : List (Key × Bytes)) :
    Identifying (changeCredential suite fresh user password unlocked) := by
  refine identifying_bind (identifying_forM _ fun pair => identifying_updateKey fun k => ⟨rfl, rfl, rfl, rfl, rfl⟩) fun _ => ?_
  refine identifying_bind (identifying_updateUser fun u => ⟨rfl, rfl⟩) fun _ => identifying_bind ?_ fun _ => identifying_append
  exact identifying_of_touching [] (by simp) (by simp) (by simp) (touching_bumpEpoch _)

theorem identifying_replaceKey (fresh : Fresh) (user : User) (password : Text) :
    Identifying (replaceKey suite fresh user password) := by
  refine identifying_get fun db => identifying_bind (identifying_generateSigningKey _ _ _) fun new => ?_
  refine identifying_get fun later => identifying_bind ?_ fun _ => identifying_bind ?_ fun _ => identifying_append
  · split
    · split
      · exact identifying_updateKey fun k => ⟨rfl, rfl, rfl, rfl, rfl⟩
      · exact identifying_pure _
    · exact identifying_pure _
  · exact identifying_of_touching [.kits] (by simp) (by simp) (by simp) (touching_forgetUnneededWraps (by simp) _)

theorem identifying_loseKey (id : Nat) (now : Int) : Identifying (updateKey id (loseKey now)) :=
  identifying_updateKey fun k => ⟨rfl, rfl, rfl, rfl, rfl⟩

theorem identifying_applyKitCompletion (r : Request) (now : Int) : Identifying (applyKitCompletion suite r now) := by
  refine identifying_get fun db => identifying_bind (identifying_forM _ fun w => ?_) fun _ => ?_
  · unfold applyWrap
    split
    · exact identifying_updateKey fun k => ⟨rfl, rfl, rfl, rfl, rfl⟩
    · exact identifying_loseKey _ _
  · split
    · exact identifying_throw _
    · exact identifying_pure _

theorem identifying_applyPhoneCompletion (r : Request) (now : Int) : Identifying (applyPhoneCompletion suite r now) := by
  refine identifying_get fun db => identifying_bind (identifying_forM _ fun w => identifying_loseKey _ _) fun _ => ?_
  refine identifying_get fun later => identifying_bind (identifying_addKey fun id => rfl) fun key => identifying_get fun last => ?_
  refine identifying_bind ?_ fun _ => identifying_pure _
  split
  · exact identifying_bind (identifying_revokeKit _ _ _ _) fun _ => identifying_pure _
  · exact identifying_pure _

theorem identifying_setCredential (r : Request) : Identifying (setCredential r) := by
  unfold setCredential
  split
  · exact identifying_updateUser fun u => ⟨rfl, rfl⟩
  · exact identifying_throw _

theorem identifying_finishCompletion (id : Nat) (now : Int) (found : Option Text) :
    Identifying (finishCompletion suite id now found) := by
  have rowOnly : ∀ {α : Type} {t : Tx α}, Touching [.requests, .endings, .approvals] t → Identifying t :=
    identifying_of_touching [.requests, .endings, .approvals] (by simp) (by simp) (by simp)
  refine identifying_bind (rowOnly (touching_compareAndSet _ _ _ (by simp))) fun moved => ?_
  split
  · refine identifying_get fun db => ?_
    split
    · exact identifying_pure _
    · refine identifying_bind ?_ fun spent => identifying_bind ?_ fun _ => identifying_pure _
      · split
        · exact identifying_revokeKit _ _ _ _
        · exact identifying_pure _
        · exact identifying_pure _
      · split
        · refine identifying_bind (rowOnly (touching_updateRequest _ _ (by simp))) fun _ => ?_
          exact identifying_bind (rowOnly (touching_erasePending (by simp) _)) fun _ => identifying_append
        · refine identifying_bind ?_ fun facts => identifying_bind (identifying_setCredential _) fun _ => ?_
          · split
            · exact identifying_applyPhoneCompletion _ _
            · exact identifying_applyKitCompletion _ _
          refine identifying_bind (rowOnly (touching_bumpEpoch _)) fun _ => identifying_bind identifying_append fun _ => ?_
          refine identifying_bind (rowOnly (touching_erasePending (by simp) _)) fun _ => ?_
          exact rowOnly (touching_endLiveApprovals (by simp) _)
  · exact identifying_pure _

theorem identifying_retireDevice (device : Device) (requests : List Request) : Identifying (retireDevice device requests) := by
  refine identifying_bind (within_modify fun db ids => ?_) fun _ => identifying_bind ?_ fun _ => ?_
  · have each : ∀ d, SameDevice d (if d.id = device.id then { d with revokedAt := some db.clock } else d) := by
      intro d
      split <;> exact ⟨rfl, rfl, rfl, rfl, rfl⟩
    refine ⟨⟨ids.users, ids.keys, ?_⟩, (renames_refl db).users, (renames_refl db).keys, ?_⟩
    · dsimp only
      rw [map_names _ _ _ fun d => (each d).id]
      exact ids.devices
    · exact fun d listed => ⟨_, List.mem_map_of_mem listed, each d⟩
  · exact identifying_get fun db => identifying_updateKey fun k => ⟨rfl, rfl, rfl, rfl, rfl⟩
  · refine identifying_forM _ fun r => ?_
    exact identifying_of_touching [.approvals] (by simp) (by simp) (by simp) (touching_endLiveApprovals (by simp) _)

/-! ## Acts -/

theorem act_identified {kind : Kind} {before after : Db} (act : Act suite kind before after) : Identified before after := by
  have frame := act_touches act
  cases act with
  | retire done => exact identifying_retireDevice _ _ _ _ _ done
  | logRetired done =>
    have quiet : Touches [] before after := touching_logDeviceRevoked _ _ _ _ _ done
    exact identified_of_eq (quiet .users (by simp)) (quiet .keys (by simp)) (quiet .devices (by simp))
  | complete done => exact identifying_finishCompletion _ _ _ _ _ _ done
  | register done => exact identifying_insertUser _ _ _ _ _ _ done
  | change done => exact identifying_changeCredential _ _ _ _ _ _ _ done
  | replaceKey done => exact identifying_replaceKey _ _ _ _ _ _ done
  | _ => exact identified_of_eq (frame .users (by simp [touched])) (frame .keys (by simp [touched])) (frame .devices (by simp [touched]))

theorem enrol_identified (db : Db) (owner : Int) (algId : Text) (publicKey : Bytes) (createdAt : Int) (expiresAt : Option Int) :
    Identified db (db.enrol owner algId publicKey createdAt expiresAt) := by
  intro ids
  refine ⟨⟨ids.users, nodup_append_next _ ids.keys rfl, nodup_append_next _ ids.devices rfl⟩, (renames_refl db).users, ?_, ?_⟩
  · exact fun k listed => ⟨k, List.mem_append_left _ listed, rfl, rfl, rfl, rfl, rfl⟩
  · exact fun d listed => ⟨d, List.mem_append_left _ listed, rfl, rfl, rfl, rfl, rfl⟩

theorem outside_identified (change : Outside) (db : Db) : Identified db (change.apply db) := by
  cases change with
  | enrolDevice owner algId publicKey createdAt expiresAt => exact enrol_identified _ _ _ _ _ _
  | logged event =>
    simp only [Outside.apply]
    split <;> exact identified_of_eq rfl rfl rfl
  | _ => exact identified_of_eq rfl rfl rfl

end QVault.Proof.Recovery
