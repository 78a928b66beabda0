import QVault.Proof.Services.VaultPeople

/-!
# A vault keeps enough signers

Each operation on a vault's people is guarded, but by the rows its guard reads. While every write would
still pass its own guard on the rows it finds, a vault with as many signers as its threshold keeps as many.
-/

namespace QVault.Proof.VaultSigners
open QVault.Python QVault.Services QVault.Workspaces QVault.Proof.Workspaces QVault.Proof.VaultPeople Results Runs

variable {estate after : Estate} {vaultId userId actorId thresholdM : Int} {vault : VaultRow} {characters : Characters}

-- As many of the vault's members sign as its threshold asks.
def Quorate (estate : Estate) (vaultId : Int) : Prop :=
  ∃ v ∈ estate.vault vaultId, ∃ t ∈ estate.thresholdOf vaultId, t ≤ v.signerMembers.length

def Positive (estate : Estate) : Prop := ∀ p ∈ estate.policies, 1 ≤ p.thresholdM

/-! ## Rows by their id -/

theorem logged_vault {event : Text} {payload : List (Text × Json)} {other : Int} :
    (estate.logged event vaultId actorId payload).vault other = estate.vault other := rfl

theorem logged_thresholdOf {event : Text} {payload : List (Text × Json)} {other : Int} :
    (estate.logged event vaultId actorId payload).thresholdOf other = estate.thresholdOf other := rfl

theorem updateVault_vault (edit : List VaultMember → List VaultMember) (other : Int) :
    (estate.updateVault vaultId edit).vault other = (estate.vault other).map fun v =>
      if other = vaultId then { v with members := edit v.members } else v := by
  unfold Estate.updateVault Estate.vault
  simp only [List.find?_map]
  have same : ((fun v : VaultRow => decide (v.id = other)) ∘ fun v : VaultRow =>
      if v.id = vaultId then { v with members := edit v.members } else v) = fun v => decide (v.id = other) := by
    funext v
    simp only [Function.comp_apply]
    split <;> rfl
  rw [same]
  cases found : estate.world.vaults.find? fun v => decide (v.id = other) with
  | none => rfl
  | some v =>
    have id : v.id = other := by simpa using List.find?_some found
    simp only [Option.map_some, id]

theorem updateVault_thresholdOf (edit : List VaultMember → List VaultMember) (other : Int) :
    (estate.updateVault vaultId edit).thresholdOf other = estate.thresholdOf other := rfl

theorem updatePolicy_vault (other : Int) : (estate.updatePolicy vaultId thresholdM).vault other = estate.vault other := rfl

theorem updatePolicy_thresholdOf (other : Int) :
    (estate.updatePolicy vaultId thresholdM).thresholdOf other = (estate.thresholdOf other).map fun t =>
      if other = vaultId then thresholdM else t := by
  unfold Estate.updatePolicy Estate.thresholdOf
  simp only [List.find?_map]
  have same : ((fun p : VaultPolicy => decide (p.vaultId = other)) ∘ fun p : VaultPolicy =>
      if p.vaultId = vaultId then { p with thresholdM } else p) = fun p => decide (p.vaultId = other) := by
    funext p
    simp only [Function.comp_apply]
    split <;> rfl
  rw [same]
  cases found : estate.policies.find? fun p => decide (p.vaultId = other) with
  | none => rfl
  | some p =>
    have id : p.vaultId = other := by simpa using List.find?_some found
    simp only [Option.map_some, id]
    split <;> rfl

/-! ## Writes -/

-- The guard of the operation, made again where its write finds the rows
def StillPasses (estate : Estate) (vaultId : Int) : VaultWrite → Prop
  | .add _ _ => True
  | .changeRole userId _ role => ∀ v ∈ estate.vault vaultId,
      (∃ m ∈ v.members, m.userId = userId ∧ m.role.signs) → ¬ role.signs → (guardSignerCount estate v userId).isOk
  | .remove userId _ => ∀ v ∈ estate.vault vaultId,
      (∃ m ∈ v.members, m.userId = userId ∧ m.role.signs) → (guardSignerCount estate v userId).isOk
  | .setThreshold _ thresholdM => ∀ v ∈ estate.vault vaultId, thresholdM ≤ v.signerMembers.length

theorem guardSignerCount_isOk (passed : (guardSignerCount estate vault userId).isOk) :
    ∃ t ∈ estate.thresholdOf vault.id, t ≤ (vault.signerMembers.filter fun m => m.userId ≠ userId).length := by
  unfold guardSignerCount at passed
  split at passed
  · cases passed
  · rename_i t found
    dsimp only at passed
    split at passed
    · cases passed
    · rename_i enough
      exact ⟨t, found, not_lt.mp enough⟩

theorem signerMembers_length (v : VaultRow) : v.signerMembers.length = v.members.countP fun m => m.role.signs :=
  List.countP_eq_length_filter.symm

-- Without a person, whoever else signed still signs.
theorem remaining_length (v : VaultRow) (userId : Int) :
    (v.signerMembers.filter fun m => m.userId ≠ userId).length =
      v.members.countP fun m => m.role.signs && decide (m.userId ≠ userId) := by
  unfold VaultRow.signerMembers
  rw [List.filter_filter, ← List.countP_eq_length_filter]
  exact List.countP_congr fun m _ => by rw [Bool.and_comm]

theorem remaining_all {v : VaultRow} (none' : ¬ ∃ m ∈ v.members, m.userId = userId ∧ m.role.signs) :
    (v.signerMembers.filter fun m => m.userId ≠ userId).length = v.signerMembers.length := by
  rw [remaining_length, signerMembers_length]
  refine List.countP_congr fun m listed => ?_
  have other : m.role.signs = true → m.userId ≠ userId := fun signs same => none' ⟨m, listed, same, signs⟩
  simpa using other

-- The signers who remain are as many as the threshold, whether or not the person was one.
theorem remaining_quorate {t : Int} (threshold : estate.thresholdOf vault.id = some t)
    (enough : t ≤ vault.signerMembers.length)
    (passes : (∃ m ∈ vault.members, m.userId = userId ∧ m.role.signs) → (guardSignerCount estate vault userId).isOk) :
    t ≤ (vault.signerMembers.filter fun m => m.userId ≠ userId).length := by
  by_cases signing : ∃ m ∈ vault.members, m.userId = userId ∧ m.role.signs
  · obtain ⟨t', found, left⟩ := guardSignerCount_isOk (passes signing)
    obtain rfl : t = t' := Option.some.inj (threshold.symm.trans found)
    exact left
  · rw [remaining_all signing]
    exact enough

theorem changeRole_signers {role : MemberRole} (v : VaultRow) (signs : role.signs = true) :
    v.signerMembers.length ≤ ({ v with members := v.members.map fun m =>
      if m.userId = userId then { m with role } else m } : VaultRow).signerMembers.length := by
  rw [signerMembers_length, signerMembers_length, List.countP_map]
  refine List.countP_mono_left fun m _ signed => ?_
  simp only [Function.comp_apply]
  split
  · exact signs
  · exact signed

theorem changeRole_remaining {role : MemberRole} (v : VaultRow) :
    (v.signerMembers.filter fun m => m.userId ≠ userId).length ≤ ({ v with members := v.members.map fun m =>
      if m.userId = userId then { m with role } else m } : VaultRow).signerMembers.length := by
  rw [remaining_length, signerMembers_length, List.countP_map]
  refine List.countP_mono_left fun m _ signed => ?_
  simp only [Bool.and_eq_true, decide_eq_true_eq] at signed
  simp only [Function.comp_apply, if_neg signed.2]
  exact signed.1

-- One vault's members change, and enough of them sign.
theorem edit_quorate (edit : List VaultMember → List VaultMember) {event : Text} {payload : List (Text × Json)}
    {other : Int} (quorate : Quorate estate other)
    (enough : ∀ v ∈ estate.vault vaultId, ∀ t ∈ estate.thresholdOf vaultId, t ≤ v.signerMembers.length →
      t ≤ ({ v with members := edit v.members } : VaultRow).signerMembers.length) :
    Quorate ((estate.updateVault vaultId edit).logged event vaultId actorId payload) other := by
  obtain ⟨v, found, t, threshold, quorum⟩ := quorate
  refine ⟨if other = vaultId then { v with members := edit v.members } else v, ?_, t, threshold, ?_⟩
  · rw [logged_vault, updateVault_vault, Option.mem_def.mp found]
    rfl
  · by_cases same : other = vaultId
    · subst same
      rw [if_pos rfl]
      exact enough v found t threshold quorum
    · rw [if_neg same]
      exact quorum

theorem writeVault_quorate {write : VaultWrite} {other : Int} (quorate : Quorate estate other)
    (passes : StillPasses estate vaultId write) (done : writeVault estate vaultId actorId write = .ok after) :
    Quorate after other := by
  cases write with
  | add user role =>
    simp only [writeVault] at done
    split at done
    · cases done
    · split at done
      · cases done
      · cases done
        refine edit_quorate (· ++ [⟨user.id, role⟩]) quorate fun v _ t _ enough => enough.trans ?_
        simp [VaultRow.signerMembers]
  | changeRole userId previous role =>
    simp only [writeVault] at done
    split at done
    · cases done
    · cases done
      refine edit_quorate (List.map fun m => if m.userId = userId then { m with role } else m) quorate
        fun v found t threshold enough => ?_
      have id : v.id = vaultId := (vault_some found).2
      by_cases signs : role.signs = true
      · exact enough.trans (mod_cast changeRole_signers v signs)
      · have left := remaining_quorate (id ▸ threshold) enough fun signing => passes v found signing signs
        exact left.trans (mod_cast changeRole_remaining v)
  | remove userId role =>
    cases done
    refine edit_quorate (List.filter fun m => m.userId ≠ userId) quorate fun v found t threshold enough => ?_
    have id : v.id = vaultId := (vault_some found).2
    have left := remaining_quorate (id ▸ threshold) enough (passes v found)
    rw [remaining_length] at left
    rwa [signerMembers_length, List.countP_filter]
  | setThreshold previous thresholdM =>
    cases done
    obtain ⟨v, found, t, threshold, quorum⟩ := quorate
    refine ⟨v, found, if other = vaultId then thresholdM else t, ?_, ?_⟩
    · rw [logged_thresholdOf, updatePolicy_thresholdOf, Option.mem_def.mp threshold]
      rfl
    · by_cases same : other = vaultId
      · subst same
        rw [if_pos rfl]
        exact passes v found
      · rw [if_neg same]
        exact quorum

theorem createVault_quorate {ownerId other : Int} {name kemAlg : Text} (quorate : Quorate estate other)
    (done : createVault characters estate ownerId name kemAlg thresholdM = .ok after) : Quorate after other := by
  unfold createVault at done
  split at done
  · cases done
  · split at done
    · cases done
    · split at done
      · cases done
      · cases done
        obtain ⟨v, found, t, threshold, quorum⟩ := quorate
        refine ⟨v, ?_, t, ?_, quorum⟩
        · simp only [Estate.logged, Estate.vault, Option.mem_def, List.find?_append]
          rw [show estate.world.vaults.find? (fun v => v.id = other) = some v from found]
          rfl
        · obtain ⟨p, listed, same⟩ := Option.map_eq_some_iff.mp threshold
          simp only [Estate.logged, Estate.thresholdOf, Option.mem_def, List.find?_append, listed]
          exact congrArg some same

/-! ## Thresholds -/

def AsksOne : VaultWrite → Prop
  | .setThreshold _ thresholdM => 1 ≤ thresholdM
  | _ => True

theorem guardVault_asksOne {request : VaultRequest} {write : VaultWrite}
    (passed : guardVault characters estate vaultId request = .ok (some write)) : AsksOne write := by
  cases request with
  | addMember email role =>
    simp only [guardVault, addMemberGuard] at passed
    split at passed <;> try cases passed
    split at passed <;> try cases passed
    split at passed <;> try cases passed
    split at passed
    · cases passed
    · split at passed <;> cases passed
      trivial
  | changeMemberRole userId role =>
    simp only [guardVault, changeMemberRoleGuard] at passed
    split at passed <;> try cases passed
    split at passed <;> try cases passed
    split at passed <;> try cases passed
    split at passed
    · cases passed
    · split at passed
      · cases passed
      · split at passed
        · obtain ⟨_, _, passed⟩ := bind_eq_ok.mp passed
          cases passed
          trivial
        · split at passed <;> try cases passed
          split at passed <;> cases passed
          trivial
  | removeMember userId =>
    simp only [guardVault, removeVaultMemberGuard] at passed
    split at passed <;> try cases passed
    split at passed <;> try cases passed
    split at passed
    · cases passed
    · split at passed
      · obtain ⟨_, _, passed⟩ := bind_eq_ok.mp passed
        cases passed
        trivial
      · cases passed
        trivial
  | setThreshold thresholdM =>
    simp only [guardVault, setThresholdGuard] at passed
    split at passed <;> try cases passed
    split at passed
    · cases passed
    · rename_i atLeastOne
      split at passed
      · cases passed
      · split at passed <;> try cases passed
        split at passed
        · cases passed
        · cases passed
          exact not_lt.mp atLeastOne

theorem writeVault_positive {write : VaultWrite} (positive : Positive estate) (asks : AsksOne write)
    (done : writeVault estate vaultId actorId write = .ok after) : Positive after := by
  cases write with
  | add user role =>
    simp only [writeVault] at done
    split at done
    · cases done
    · split at done <;> cases done
      exact positive
  | changeRole userId previous role =>
    simp only [writeVault] at done
    split at done <;> cases done
    exact positive
  | remove userId role =>
    cases done
    exact positive
  | setThreshold previous thresholdM =>
    cases done
    intro p listed
    obtain ⟨old, there, same⟩ := List.mem_map.mp listed
    split at same
    · rw [← same]
      exact asks
    · rw [← same]
      exact positive old there

theorem createVault_positive {ownerId : Int} {name kemAlg : Text} (positive : Positive estate)
    (done : createVault characters estate ownerId name kemAlg thresholdM = .ok after) : Positive after := by
  unfold createVault at done
  split at done
  · cases done
  · split at done
    · cases done
    · rename_i atLeastOne
      split at done <;> cases done
      intro p listed
      rcases List.mem_append.mp listed with old | new
      · exact positive p old
      · rw [List.mem_singleton.mp new]
        exact not_lt.mp atLeastOne

/-! ## Runs -/

structure Bounded (s : Contended) : Prop where
  policies : Positive s.estate
  passed : ∀ operation ∈ s.passed, AsksOne operation.write

theorem contend_bounded (s : Contended) (move : VaultMove) (bounded : Bounded s) : Bounded (contend characters s move) := by
  cases move with
  | createVault ownerId name kemAlg thresholdM =>
    simp only [contend]
    split
    · rename_i estate done
      exact ⟨createVault_positive bounded.policies done, bounded.passed⟩
    · exact bounded
  | guard vaultId actorId request =>
    simp only [contend]
    split
    · rename_i write passed
      refine ⟨bounded.policies, fun operation listed => ?_⟩
      rcases List.mem_append.mp listed with old | new
      · exact bounded.passed operation old
      · rw [List.mem_singleton.mp new]
        exact guardVault_asksOne passed
    · exact bounded
    · exact bounded
  | write index =>
    simp only [contend]
    have fewer : ∀ operation ∈ s.passed.eraseIdx index, AsksOne operation.write :=
      fun operation listed => bounded.passed operation (List.mem_of_mem_eraseIdx listed)
    split
    · exact bounded
    · rename_i operation found
      split
      · rename_i estate done
        exact ⟨writeVault_positive bounded.policies (bounded.passed operation (List.mem_of_getElem? found)) done, fewer⟩
      · exact ⟨bounded.policies, fewer⟩
  | elsewhere world => exact ⟨bounded.policies, bounded.passed⟩

-- A write still passes its operation's guard on the rows that it finds.
def KeepsQuorum (s : Contended) : VaultMove → Prop
  | .write index => ∀ operation ∈ s.passed[index]?, StillPasses s.estate operation.vaultId operation.write
  | _ => True

theorem contend_quorate (s : Contended) (move : VaultMove) (quorate : Quorate s.estate vaultId)
    (condition : KeepsQuorum s move) : Quorate (contend characters s move).estate vaultId := by
  cases move with
  | createVault ownerId name kemAlg thresholdM =>
    simp only [contend]
    split
    · rename_i estate done
      exact createVault_quorate quorate done
    · exact quorate
  | guard vaultId actorId request =>
    simp only [contend]
    split <;> exact quorate
  | write index =>
    simp only [contend]
    split
    · exact quorate
    · rename_i operation found
      split
      · rename_i estate done
        exact writeVault_quorate quorate (condition operation found) done
      · exact quorate
  | elsewhere world => exact quorate

theorem vaults_stay_quorate (events later : List VaultMove)
    (guarded : Guarded (contend characters) KeepsQuorum (run (contend characters) Contended.empty events) later) :
    let s := run (contend characters) Contended.empty events
    let s' := run (contend characters) s later
    Positive s'.estate ∧ ∀ vaultId, Quorate s.estate vaultId → Quorate s'.estate vaultId := by
  refine ⟨?_, fun vaultId quorate => run_invariant contend_quorate _ later quorate guarded⟩
  have bounded : Bounded (run (contend characters) Contended.empty (events ++ later)) :=
    run_invariant (fun s move bounded _ => contend_bounded s move bounded) _ _
      ⟨fun p listed => (nomatch listed), fun p listed => (nomatch listed)⟩ (guarded_of_forall (fun _ _ _ => trivial) _)
  rw [run_append] at bounded
  exact bounded.policies

section Sample

instance (vaultId : Int) : Decidable (Quorate estate vaultId) :=
  inferInstanceAs (Decidable (∃ v ∈ estate.vault vaultId, ∃ t ∈ estate.thresholdOf vaultId, t ≤ v.signerMembers.length))

instance (write : VaultWrite) : Decidable (StillPasses estate vaultId write) := by
  cases write <;> unfold StillPasses <;> infer_instance

instance (s : Contended) (move : VaultMove) : Decidable (KeepsQuorum s move) := by
  cases move <;> unfold KeepsQuorum <;> infer_instance

def threeAccounts : World :=
  (run (peopleStep latinCharacters id) Estate.empty
    [.registerUser "ann@q.org" "Ann", .registerUser "bea@q.org" "Bea", .registerUser "cam@q.org" "Cam"]).world

-- Two of Ann, Bea and Cam approve.
def twoOfThree : List VaultMove :=
  [.elsewhere threeAccounts, .createVault 1 "Plans" "ML-KEM-768" 2,
    .guard 1 1 (.addMember "bea@q.org" "signer"), .write 0, .guard 1 1 (.addMember "cam@q.org" "signer"), .write 0]

theorem vaults_stay_quorate_twoOfThree :
    Quorate (run (contend latinCharacters) (run (contend latinCharacters) Contended.empty twoOfThree)
      [.guard 1 1 (.removeMember 2), .write 0]).estate 1 :=
  (vaults_stay_quorate twoOfThree [.guard 1 1 (.removeMember 2), .write 0] (by decide)).2 1 (by decide)

-- Bea and Cam are removed at once, each while the other still counts.
theorem two_removals_deadlock :
    Quorate (run (contend latinCharacters) Contended.empty twoOfThree).estate 1 ∧
      ¬ Quorate (run (contend latinCharacters) Contended.empty (twoOfThree ++
        [.guard 1 1 (.removeMember 2), .guard 1 1 (.removeMember 3), .write 0, .write 0])).estate 1 := by
  decide

end Sample

end QVault.Proof.VaultSigners
