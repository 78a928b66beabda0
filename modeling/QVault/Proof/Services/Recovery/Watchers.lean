import QVault.Lib.Alone
import QVault.Services.Recovery.Watchers
import QVault.Proof.Services.Recovery.Turns

/-!
# Whoever sees a reset can stop it

The banners list the waiting requests of the viewer and of those the viewer watches, and `cancel_as`
takes the viewer's cancel of these.
-/

namespace QVault.Proof.Recovery.Watchers
open QVault.Recovery QVault.Workspaces Python Programs Sessions Transactions

/-! ## The prefilter -/

section Prefilter
variable {w : Workspaces.World} {userId viewerId : Int}

theorem signsIn_iff {v : VaultRow} : signsIn v userId = true ↔ userId ∈ v.signerMembers.map (·.userId) := by
  simp only [signsIn, VaultRow.signerMembers, List.any_eq_true, Bool.and_eq_true, decide_eq_true_eq, List.mem_map,
    List.mem_filter]
  constructor
  · rintro ⟨m, listed, who, signs⟩
    exact ⟨m, ⟨listed, signs⟩, who⟩
  · rintro ⟨m, ⟨listed, signs⟩, who⟩
    exact ⟨m, listed, who, signs⟩

-- The home of a vault is a workspace of its owner.
theorem home_owner {v : VaultRow} {home : Nat} (isHome : w.homeWorkspaceId v = some home) :
    ∃ m ∈ w.members.rows, m.userId = v.ownerId ∧ m.workspaceId = home := by
  unfold World.homeWorkspaceId World.ownersWorkspaceId at isHome
  have joined : ∀ {rows : List Membership}, ((byJoined rows).head?.map (·.workspaceId)) = some home →
      ∃ m ∈ rows, m.workspaceId = home := by
    intro rows first
    obtain ⟨m, head, where_⟩ := Option.map_eq_some_iff.mp first
    exact ⟨m, (List.mem_insertionSort _).mp (List.mem_of_head? head), where_⟩
  cases current : w.currentWorkspace v.ownerId with
  | some workspaceId =>
    rw [current] at isHome
    obtain ⟨m, listed, where_⟩ := joined (current.trans isHome)
    rw [List.mem_filter, decide_eq_true_eq] at listed
    exact ⟨m, listed.1, listed.2.1, where_⟩
  | none =>
    rw [current] at isHome
    obtain ⟨m, listed, where_⟩ := joined isHome
    rw [List.mem_filter, decide_eq_true_eq] at listed
    exact ⟨m, listed.1, listed.2, where_⟩

theorem mem_managedPeople {m m' : Membership} (mine : m ∈ w.members.rows) (me : m.userId = viewerId)
    (role : manages m.role = true) (active : m.active = true) (theirs : m' ∈ w.members.rows)
    (same : m'.workspaceId = m.workspaceId) : m'.userId ∈ managedPeople w viewerId := by
  have managed : m.workspaceId ∈ managedIds w viewerId :=
    List.mem_map.mpr ⟨m, List.mem_filter.mpr ⟨mine, by simp [me, role, active]⟩, rfl⟩
  refine List.mem_map.mpr ⟨m', List.mem_filter.mpr ⟨theirs, ?_⟩, rfl⟩
  rw [same]
  exact List.contains_iff_mem.mpr managed

theorem mem_possiblyWatched {v : VaultRow} (listed : v ∈ w.vaults) (signs : signsIn v userId = true)
    (reach : v.ownerId ∈ managedPeople w viewerId ∨ signsIn v viewerId = true) : userId ∈ possiblyWatched w viewerId := by
  refine List.mem_append_right _ (List.mem_flatMap.mpr ⟨v, List.mem_filter.mpr ⟨listed, ?_⟩, signsIn_iff.mp signs⟩)
  rcases reach with owner | mine
  · simp [owner]
  · simp [mine]

theorem possiblyWatched_of_watchers (watched : (watchers w userId viewerId).isSome) : userId ∈ possiblyWatched w viewerId := by
  unfold watchers at watched
  split at watched
  · cases watched
  · split at watched
    · rename_i manager
      obtain ⟨m, row, me⟩ := List.mem_map.mp (List.contains_iff_mem.mp manager)
      obtain ⟨mine, facts⟩ := List.mem_filter.mp row
      simp only [Bool.and_eq_true, List.contains_iff_mem] at facts
      rcases List.mem_append.mp facts.1.1 with home | own
      · obtain ⟨v, signing, isHome⟩ := List.mem_filterMap.mp home
        obtain ⟨listed, signs⟩ := List.mem_filter.mp signing
        obtain ⟨owner, row', who, where_⟩ := home_owner isHome
        exact mem_possiblyWatched listed signs (.inl (who ▸ mem_managedPeople mine me facts.1.2 facts.2 row' where_))
      · obtain ⟨m', row', where_⟩ := List.mem_map.mp own
        obtain ⟨theirs, who⟩ := List.mem_filter.mp row'
        simp only [Bool.and_eq_true, decide_eq_true_eq] at who
        exact List.mem_append_left _ (who.1 ▸ mem_managedPeople mine me facts.1.2 facts.2 theirs where_)
    · split at watched
      · rename_i cosigner
        obtain ⟨v, signing, among⟩ := List.mem_flatMap.mp (List.contains_iff_mem.mp cosigner)
        obtain ⟨listed, signs⟩ := List.mem_filter.mp signing
        exact mem_possiblyWatched listed signs (.inr (signsIn_iff.mpr (List.mem_filter.mp among).1))
      · cases watched

end Prefilter

/-! ## The banners -/

section Banners
variable (d : Deployment) (viewerId : Int)

-- Waiting, and not yet due
def isPending (now : Int) (r : Request) : Bool := r.state = .waiting && r.completesAt.any (now < ·)

def mayStop (r : Request) : Bool := r.userId = viewerId || (watchers d.world r.userId viewerId).isSome

variable {d viewerId}

theorem roleOf_isSome (r : Request) : (d.roleOf viewerId r).isSome = mayStop d viewerId r := by
  unfold Deployment.roleOf mayStop
  split
  · rename_i own
    simp [own]
  · rename_i other
    simp [other]

theorem bannerFor_request {r : Request} {b : Banner} (shown : d.bannerFor viewerId r = some b) : b.request = r := by
  unfold Deployment.bannerFor at shown
  simp only [Option.bind_eq_bind, Option.bind_eq_some_iff, Option.pure_def, Option.some.injEq] at shown
  obtain ⟨role, _, user, _, completesAt, _, rfl⟩ := shown
  rfl

theorem bannerFor_isSome {r : Request} {now : Int} (listed : r ∈ d.db.requests.1) (pending : isPending now r = true) :
    (d.bannerFor viewerId r).isSome = mayStop d viewerId r := by
  have user := d.requesters r listed
  simp only [isPending, Bool.and_eq_true, Option.any_eq_true] at pending
  obtain ⟨-, completesAt, due, -⟩ := pending
  rw [← roleOf_isSome, Deployment.bannerFor, due]
  obtain ⟨user, found⟩ := Option.isSome_iff_exists.mp user
  rw [found]
  cases d.roleOf viewerId r <;> rfl

theorem banners_rows {rows : List Request} :
    (rows.filterMap (d.bannerFor viewerId)).map (·.request) = rows.filter fun r => (d.bannerFor viewerId r).isSome := by
  induction rows with
  | nil => rfl
  | cons r rest ih =>
    cases shown : d.bannerFor viewerId r with
    | none => simp [shown, ih]
    | some b => simp [shown, ih, bannerFor_request shown]

theorem banners_listed (now : Int) :
    ((d.bannersFor viewerId now).map (·.request)).Perm
      (d.db.requests.1.filter fun r => isPending now r && mayStop d viewerId r) := by
  have sorted := (List.perm_insertionSort (fun a b : Request => a.completesAt.getD 0 ≤ b.completesAt.getD 0)
    (d.db.requests.1.filter fun r => isPending now r &&
      (r.userId = viewerId || (possiblyWatched d.world viewerId).contains r.userId))).filter
    fun r => (d.bannerFor viewerId r).isSome
  have narrowed : ∀ r ∈ d.db.requests.1, ((d.bannerFor viewerId r).isSome &&
      (isPending now r && (r.userId = viewerId || (possiblyWatched d.world viewerId).contains r.userId))) =
      (isPending now r && mayStop d viewerId r) := by
    intro r listed
    cases pending : isPending now r with
    | false => simp
    | true =>
      rw [bannerFor_isSome listed pending]
      by_cases own : r.userId = viewerId
      · simp [mayStop, own]
      · cases watched : (watchers d.world r.userId viewerId).isSome with
        | false => simp [mayStop, own, watched]
        | true => simp [possiblyWatched_of_watchers watched]
  rw [List.filter_filter, List.filter_congr narrowed] at sorted
  rw [Deployment.bannersFor, banners_rows]
  exact sorted

end Banners

/-! ## The cancel -/

section Cancel

-- A row that changes keeps its keys, and does not come under an index it was not under.
theorem keys_sublist {α β : Type} {rows : List α} {change : α → α} {key : α → β} {indexed : α → Bool}
    (keys : ∀ r, key (change r) = key r) (kept : ∀ r, indexed (change r) = true → indexed r = true) :
    (((rows.map change).filter indexed).map key).Sublist ((rows.filter indexed).map key) := by
  induction rows with
  | nil => exact .slnil
  | cons r rest ih =>
    rw [List.map_cons]
    cases after : indexed (change r) with
    | true => simpa [after, kept r after, keys] using ih
    | false =>
      cases before : indexed r with
      | true => simpa [after, before] using ih.cons _
      | false => simpa [after, before] using ih

theorem keys_updated {α β : Type} {rows : List α} {which : α → Prop} [DecidablePred which] {change : α → α} {key : α → β}
    (keys : ∀ r, key (change r) = key r) : (rows.map fun r => if which r then change r else r).map key = rows.map key := by
  rw [List.map_map]
  refine List.map_congr_left fun r _ => ?_
  simp only [Function.comp_apply]
  split
  · exact keys r
  · rfl

theorem total_updateRequest (id : Nat) {change : Request → Request}
    (ids : ∀ r, (change r).id = r.id) (uuids : ∀ r, (change r).uuid = r.uuid) (users : ∀ r, (change r).userId = r.userId)
    (opens : ∀ r, (change r).state.isOpen = true → r.state.isOpen = true) : Total (updateRequest id change) := by
  intro db
  have indexes : RequestIndexes (db.requests.1.map fun r => if r.id = id then change r else r) := by
    refine ⟨?_, ?_, ?_⟩
    · rw [keys_updated ids]
      exact db.requests.2.ids
    · rw [keys_updated uuids]
      exact db.requests.2.uuids
    · refine db.requests.2.openUsers.sublist (keys_sublist (fun r => ?_) fun r => ?_)
      · split
        · exact users r
        · rfl
      · split
        · exact opens r
        · exact fun same => same
  refine ⟨(), { db with requests := ⟨_, indexes⟩ }, bind_ok.mpr ⟨db, db, rfl, ?_⟩⟩
  rw [writeRequests, dif_pos indexes]
  rfl

theorem total_updateKit (id : Nat) {change : Kit → Kit} (ids : ∀ k, (change k).id = k.id)
    (uuids : ∀ k, (change k).uuid = k.uuid) (users : ∀ k, (change k).userId = k.userId)
    (active : ∀ k, (change k).state = .active → k.state = .active) : Total (updateKit id change) := by
  intro db
  have indexes : KitIndexes (db.kits.1.map fun k => if k.id = id then change k else k) := by
    refine ⟨?_, ?_, ?_⟩
    · rw [keys_updated ids]
      exact db.kits.2.ids
    · rw [keys_updated uuids]
      exact db.kits.2.uuids
    · refine db.kits.2.activeUsers.sublist (keys_sublist (fun k => ?_) fun k => ?_)
      · split
        · exact users k
        · rfl
      · split
        · simpa using active k
        · exact fun same => same
  refine ⟨(), { db with kits := ⟨_, indexes⟩ }, bind_ok.mpr ⟨db, db, rfl, ?_⟩⟩
  rw [writeKits, dif_pos indexes]
  rfl

theorem total_revokeKit (id : Nat) (reason : Text) (now : Int) (onlyActive : Bool) :
    Total (revokeKit id reason now onlyActive) := by
  refine total_bind total_get fun db => ?_
  split
  · split
    · refine total_bind (total_updateKit id (fun _ => rfl) (fun _ => rfl) (fun _ => rfl) nofun) fun _ => ?_
      exact total_bind (total_modify _) fun _ => total_pure _
    · exact total_pure _
  · exact total_pure _

theorem total_burnKit (r : Request) (now : Int) : Total (burnKit r now) := by
  unfold burnKit
  split
  · split
    · exact total_bind (total_revokeKit _ _ _ _) fun _ => total_pure _
    · exact total_pure _
  · exact total_pure _

theorem total_compareAndSet (id : Nat) (still : Request → Bool) {change : Request → Request}
    (update : Total (updateRequest id change)) : Total (compareAndSet id still change) := by
  refine total_bind total_get fun db => ?_
  split
  · split
    · exact total_bind update fun _ => total_pure _
    · exact total_pure _
  · exact total_pure _

theorem total_cancel (c : Cancellation) (mark : Mark) : Total (applyCancel c mark) := by
  have cancelled : Total (updateRequest mark.id (·.cancel c mark.now)) :=
    total_updateRequest _ (fun _ => rfl) (fun _ => rfl) (fun _ => rfl) fun r opens => Bool.noConfusion opens
  have erased : Total (erasePending mark.id) :=
    total_updateRequest _ (fun _ => rfl) (fun _ => rfl) (fun _ => rfl) fun _ same => same
  refine total_bind (total_compareAndSet _ _ cancelled) fun changed => ?_
  split
  · refine total_bind erased fun _ => total_bind (total_modify _) fun _ => total_bind total_get fun db => ?_
    split
    · exact total_pure _
    · exact total_pure _
    · exact total_bind (total_burnKit _ _) fun _ => total_modify _
  · exact total_pure _

variable {db : Db} (me : Nat) {r : Request}

theorem alone_transact {α : Type} {rows : List Nat} {t : Tx α} (total : Total t)
    (free : ∀ id ∈ rows, db.free me (.request id) = true) (memory : Proofs) :
    ∃ a after, alone (transact me rows t) db memory = some (.ok a, after, memory) :=
  alone_commit total memory (List.all_eq_true.mpr free)

theorem alone_testAndHold (atRest : db.held = []) (id : Nat) (still : Request → Bool) (memory : Proofs) :
    alone (testAndHold me id still) db memory = some (.ok ((db.request? id).any still),
      if (db.request? id).any still then { db with held := (.request id, me) :: db.held } else db, memory) := by
  have free : db.free me (.request id) = true := by simp [Db.free, atRest]
  simp [testAndHold, alone, free]

theorem alone_markCancel (atRest : db.held = []) (listed : r ∈ db.requests.1) (now : Int) (memory : Proofs) :
    alone (markCancel me r.id r.state now) db memory =
      some (.ok (if stillCancellable r.state now r then some ⟨r.id, r.state, now⟩ else none),
        if stillCancellable r.state now r then { db with held := (.request r.id, me) :: db.held } else db, memory) := by
  have found := request_of_mem listed
  have held := alone_testAndHold me atRest r.id (stillCancellable r.state now) memory
  rw [found, Option.any_some] at held
  unfold markCancel
  cases cancellable : r.state.isCancellable with
  | false =>
    have fixed : stillCancellable r.state now r = false := by
      cases state : r.state <;> first | rfl | simp [state, RequestState.isCancellable, RequestState.isPreclaim] at cancellable
    simp [fixed, pure]
  | true =>
    cases still : stillCancellable r.state now r with
    | true =>
      rw [still] at held
      simp only [Bool.not_true, Bool.false_eq_true, if_false, if_true, alone_bind, held]
      rfl
    | false =>
      -- The second reading finds the row as it was.
      rw [still] at held
      simp only [Bool.not_true, Bool.false_eq_true, if_false, alone_bind, held, alone_look, found, cancellable]
      rfl

theorem alone_cancelRequest (atRest : db.held = []) (listed : r ∈ db.requests.1) (c : Cancellation) (memory : Proofs) :
    (∃ after kept, alone (cancelRequest me r c) db memory = some (.ok (), after, kept)) ↔
      stillCancellable r.state db.clock r = true := by
  have marked := alone_markCancel me atRest listed db.clock memory
  unfold cancelRequest clock
  simp only [alone_bind, alone_look, pure, alone_done, marked]
  cases still : stillCancellable r.state db.clock r with
  | false => simp [raise]
  | true =>
    simp only [if_true, iff_true]
    have free : ∀ id ∈ [r.id], Db.free { db with held := (.request r.id, me) :: db.held } me (.request id) = true := by
      simp [Db.free, atRest]
    obtain ⟨_, after, ends⟩ := alone_transact me (total_cancel c ⟨r.id, r.state, db.clock⟩) free memory
    exact ⟨after, memory, ends⟩

-- `cancel_as` takes the viewer's cancel, with no one else at work.
def Accepts (db : Db) (viewerId : Int) (uuid : Text) : Prop :=
  ∀ me, ∃ after kept, alone (cancelAs me viewerId uuid) db [] = some (.ok (), after, kept)

theorem requestByUuid_of_mem (listed : r ∈ db.requests.1) : db.requestByUuid r.uuid = some r := by
  cases found : db.requestByUuid r.uuid with
  | none => exact absurd (List.find?_eq_none.mp found r listed) (by simp)
  | some s =>
    have named : s.uuid = r.uuid := by simpa using List.find?_some found
    rw [uuid_unique (List.mem_of_find?_eq_some found) listed named]

theorem accepts_iff {d : Deployment} {viewerId : Int} (listed : r ∈ d.db.requests.1) :
    Accepts d.db viewerId r.uuid ↔ mayStop d viewerId r = true ∧ stillCancellable r.state d.db.clock r = true := by
  have cancels := fun (me : Nat) (c : Cancellation) => alone_cancelRequest me d.atRest listed c []
  unfold Accepts cancelAs
  simp only [alone_bind, alone_look, requestByUuid_of_mem listed, d.watch]
  by_cases own : viewerId = r.userId
  · simp only [own, if_true, cancels, mayStop]
    simp
  · have other : r.userId ≠ viewerId := fun same => own same.symm
    simp only [own, if_false, mayStop, other]
    cases role : watchers d.world r.userId viewerId with
    | none => simp [raise]
    | some role => simp [cancels]

end Cancel

/-! ## The same people -/

def blankRequest (state : RequestState) : Request where
  id := 1
  uuid := "r"
  userId := 1
  route := .phone
  state := state
  startedById := none
  kitId := none
  createdAt := 0
  claimedAt := none
  windowStartsAt := none
  completesAt := some (hours 24)
  finishedAt := none
  cancelledById := none
  cancelledAs := none
  cancelReason := none
  kitBurned := false
  endReason := none
  statusTokenHash := none
  pending := .erased
  oldKeyId := none
  requestCode := none
  wraps := []

-- Two people share a workspace that the second owns, and the first has one request.
def shared : Workspaces.World :=
  { Workspaces.World.empty with
    workspaces := [⟨1, "acme", "acme"⟩]
    members := ⟨[⟨⟨.member, true⟩, 1, 1, 1, 0⟩, ⟨⟨.owner, true⟩, 2, 1, 2, 0⟩], by decide⟩ }

def oneRequest (state : RequestState) (indexes : RequestIndexes [blankRequest state]) : Deployment where
  db := { Db.empty with
    users := [⟨1, "ada", "", [], ""⟩, ⟨2, "bob", "", [], ""⟩]
    requests := ⟨[blankRequest state], indexes⟩
    watchers := watchers shared }
  world := shared
  requesters := by
    intro r listed
    rw [List.mem_singleton.mp listed]
    rfl
  watch := rfl
  atRest := rfl

end QVault.Proof.Recovery.Watchers
