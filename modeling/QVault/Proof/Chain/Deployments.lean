import QVault.Chain.Deployments
import QVault.Lib.WriteOnce
import QVault.Lib.Results

/-!
# The deployment record only grows

What is recorded of a treasury is a write-once map of its configurations under a fixed identity.
-/

namespace QVault.Proof.Chain.Deployments

open QVault.Python (Text)
open QVault.Chain (checksumAddress)
open QVault.Chain.Deployments
open WriteOnce

variable {V : Type} [DecidableEq V]

/-! ## Sorting keeps the last entry of a nonce -/

omit [DecidableEq V] in
theorem filter_mergeSort (laters : List (Later V)) (nonce : Int) :
    (laters.mergeSort byNonce).filter (·.configNonce = nonce) = laters.filter (·.configNonce = nonce) := by
  have equal : (laters.filter (·.configNonce = nonce)).Pairwise (byNonce · ·) := by
    apply List.pairwise_of_forall_mem_list
    intro first inside second inside'
    have at_nonce := of_decide_eq_true (List.mem_filter.mp inside).2
    have at_nonce' := of_decide_eq_true (List.mem_filter.mp inside').2
    exact decide_eq_true (at_nonce.trans at_nonce'.symm).le
  have kept : (laters.filter (·.configNonce = nonce)).Sublist (laters.mergeSort byNonce) := by
    apply List.sublist_mergeSort _ _ equal List.filter_sublist
    · intro first second third before later
      exact decide_eq_true ((of_decide_eq_true before).trans (of_decide_eq_true later))
    · intro first second
      rw [Bool.or_eq_true]
      exact (le_total first.configNonce second.configNonce).imp (fun le => decide_eq_true le) fun le => decide_eq_true le
  have filtered := kept.filter (·.configNonce = nonce)
  rw [List.filter_filter] at filtered
  simp only [Bool.and_self] at filtered
  exact (filtered.eq_of_length ((List.mergeSort_perm laters byNonce).filter _).length_eq.symm).symm

omit [DecidableEq V] in
theorem get_puts (laters : List (Later V)) (known : OrderedDict Int (Configuration V)) (nonce : Int) :
    (laters.foldl (fun known later => known.put later.configNonce later.configuration) known).get nonce =
      (((laters.filter (·.configNonce = nonce)).getLast?).map Later.configuration).or (known.get nonce) := by
  induction laters using List.reverseRecOn with
  | nil => rfl
  | append_singleton laters later ih =>
    rw [List.foldl_append, List.foldl_cons, List.foldl_nil, List.filter_append]
    by_cases here : later.configNonce = nonce
    · rw [List.filter_singleton, decide_eq_true here, here, OrderedDict.get_put_self]
      simp
    · rw [List.filter_singleton, decide_eq_false here, OrderedDict.get_put_other (Ne.symm here), ih]
      simp

/-! ## What is known of a treasury -/

def known (entry : TreasuryEntry V) (nonce : Int) : Option (Configuration V) := (configurations entry).get nonce

def identity (entry : TreasuryEntry V) : Option V × Option V × Option V := (entry.vaultId, entry.verifier, entry.deploymentTx)

-- An entry as it is offered: a configuration nonce, and no list of configurations of its own
structure Plain (entry : TreasuryEntry V) : Prop where
  natural : 0 ≤ entry.nonceOf
  single : entry.configurations = none

omit [DecidableEq V] in
theorem known_plain {entry : TreasuryEntry V} (plain : Plain entry) :
    known entry = offer (fun _ => none) entry.nonceOf (offered entry) := by
  funext nonce
  rw [known, configurations, plain.single, Option.getD_none, List.foldl_nil, offer_free rfl]
  by_cases here : nonce = entry.nonceOf
  · rw [here, OrderedDict.get_put_self, Function.update_self]
  · rw [OrderedDict.get_put_other here, OrderedDict.get_empty, Function.update_of_ne here]

omit [DecidableEq V] in
theorem known_withConfiguration {entry : TreasuryEntry V} {nonce : Int} {configuration : Configuration V}
    (free : known entry nonce = none) : known (withConfiguration entry nonce configuration) = offer (known entry) nonce configuration := by
  funext other
  rw [offer_free free, known, configurations, withConfiguration, Option.getD_some, get_puts, filter_mergeSort, List.filter_append]
  by_cases here : other = nonce
  · rw [here, Function.update_self]
    simp [Later.configuration]
  · rw [Function.update_of_ne here, known, configurations, get_puts, List.filter_singleton, decide_eq_false (Ne.symm here)]
    simp only [Bool.cond_false, List.append_nil]
    rfl

theorem firstDifference_none {first second : TreasuryEntry V} :
    firstDifference (identityKeys first) (identityKeys second) = none ↔ identity first = identity second := by
  simp [firstDifference, identityKeys, identity]

/-! ## One merge -/

section Treasuries
variable {keccak256 : List UInt8 → BitVec 256} {record record' : Record V} {address checksummed : Text}
  {entry existing : TreasuryEntry V}

-- What a merge does, with the entry there was
theorem mergeTreasury_ok {added : Bool} (merged : mergeTreasury keccak256 record address entry = .ok (record', added)) :
    ∃ checksummed, checksumAddress keccak256 address = some checksummed ∧
      ((record.treasuries.get checksummed = none ∧ record' = { record with treasuries := record.treasuries.put checksummed entry }) ∨
      ∃ existing, record.treasuries.get checksummed = some existing ∧ identity existing = identity entry ∧ 0 ≤ entry.nonceOf ∧
        ((known existing entry.nonceOf = some (offered entry) ∧ record' = record) ∨
        (known existing entry.nonceOf = none ∧ record' = { record with
          treasuries := record.treasuries.put checksummed (withConfiguration existing entry.nonceOf (offered entry)) }))) := by
  rw [mergeTreasury] at merged
  cases valid : checksumAddress keccak256 address with
  | none =>
    rw [valid] at merged
    cases merged
  | some checksummed =>
    refine ⟨checksummed, rfl, ?_⟩
    rw [valid] at merged
    dsimp only at merged
    cases found : record.treasuries.get checksummed with
    | none =>
      rw [found] at merged
      cases merged
      exact .inl ⟨rfl, rfl⟩
    | some existing =>
      refine .inr ⟨existing, rfl, ?_⟩
      rw [found] at merged
      dsimp only at merged
      cases same : firstDifference (identityKeys existing) (identityKeys entry) with
      | some difference =>
        rw [same] at merged
        cases merged
      | none =>
        rw [same] at merged
        dsimp only at merged
        refine ⟨firstDifference_none.mp same, ?_⟩
        by_cases negative : entry.nonceOf < 0
        · rw [if_pos negative] at merged
          cases merged
        · rw [if_neg negative] at merged
          refine ⟨not_lt.mp negative, ?_⟩
          cases at_nonce : (configurations existing).get entry.nonceOf with
          | none =>
            rw [at_nonce] at merged
            cases merged
            exact .inr ⟨at_nonce, rfl⟩
          | some configuration =>
            rw [at_nonce] at merged
            dsimp only at merged
            by_cases other : configuration ≠ offered entry
            · rw [if_pos other] at merged
              cases merged
            · rw [if_neg other] at merged
              cases merged
              rw [not_not.mp other] at at_nonce
              exact .inl ⟨at_nonce, rfl⟩

theorem mergeTreasury_new (valid : checksumAddress keccak256 address = some checksummed)
    (absent : record.treasuries.get checksummed = none) : mergeTreasury keccak256 record address entry =
      .ok ({ record with treasuries := record.treasuries.put checksummed entry }, true) := by
  rw [mergeTreasury, valid]
  dsimp only
  rw [absent]

theorem mergeTreasury_again (valid : checksumAddress keccak256 address = some checksummed)
    (found : record.treasuries.get checksummed = some existing) (same : identity existing = identity entry)
    (natural : 0 ≤ entry.nonceOf) (at_nonce : known existing entry.nonceOf = some (offered entry)) :
    mergeTreasury keccak256 record address entry = .ok (record, false) := by
  rw [mergeTreasury, valid]
  dsimp only
  rw [found]
  dsimp only
  rw [firstDifference_none.mpr same]
  dsimp only
  rw [if_neg (not_lt.mpr natural), show (configurations existing).get entry.nonceOf = some (offered entry) from at_nonce]
  exact if_neg (fun other => other rfl)

theorem mergeTreasury_later (valid : checksumAddress keccak256 address = some checksummed)
    (found : record.treasuries.get checksummed = some existing) (same : identity existing = identity entry)
    (natural : 0 ≤ entry.nonceOf) (free : known existing entry.nonceOf = none) :
    mergeTreasury keccak256 record address entry = .ok ({ record with
      treasuries := record.treasuries.put checksummed (withConfiguration existing entry.nonceOf (offered entry)) }, true) := by
  rw [mergeTreasury, valid]
  dsimp only
  rw [found]
  dsimp only
  rw [firstDifference_none.mpr same]
  dsimp only
  rw [if_neg (not_lt.mpr natural), show (configurations existing).get entry.nonceOf = none from free]

-- An entry that contradicts what is recorded of its treasury
def Contradicts (existing entry : TreasuryEntry V) : Prop :=
  identity existing ≠ identity entry ∨ ∃ recorded, known existing entry.nonceOf = some recorded ∧ recorded ≠ offered entry

theorem mergeTreasury_refused (valid : checksumAddress keccak256 address = some checksummed)
    (found : record.treasuries.get checksummed = some existing) (contradicts : Contradicts existing entry) :
    ∃ e, mergeTreasury keccak256 record address entry = .error e := by
  cases merged : mergeTreasury keccak256 record address entry with
  | error e => exact ⟨e, rfl⟩
  | ok result =>
    exfalso
    obtain ⟨checksummed', valid', new | ⟨existing', found', same, -, there | ⟨free, -⟩⟩⟩ := mergeTreasury_ok merged
    · rw [valid] at valid'
      cases valid'
      rw [found] at new
      cases new.1
    all_goals
      rw [valid] at valid'
      cases valid'
      rw [found] at found'
      cases found'
      obtain different | ⟨recorded, at_nonce, other⟩ := contradicts
      · exact different same
    · rw [there.1] at at_nonce
      cases at_nonce
      exact other rfl
    · rw [free] at at_nonce
      cases at_nonce

/-! ## Treasuries over a run -/

-- The later entry says all that the earlier one said.
def Extends (earlier later : TreasuryEntry V) : Prop :=
  ∀ nonce configuration, known earlier nonce = some configuration → known later nonce = some configuration

theorem mergeTreasury_extends {added : Bool} (merged : mergeTreasury keccak256 record address entry = .ok (record', added))
    {place : Text} (found : record.treasuries.get place = some existing) :
    ∃ later, record'.treasuries.get place = some later ∧ Extends existing later := by
  obtain ⟨checksummed, -, ⟨absent, rfl⟩ | ⟨recorded, there, -, -, ⟨-, rfl⟩ | ⟨free, rfl⟩⟩⟩ := mergeTreasury_ok merged
  · have elsewhere : place ≠ checksummed := by
      rintro rfl
      rw [found] at absent
      cases absent
    exact ⟨existing, (OrderedDict.get_put_other elsewhere).trans found, fun _ _ same => same⟩
  · exact ⟨existing, found, fun _ _ same => same⟩
  · obtain rfl | elsewhere := eq_or_ne place checksummed
    · rw [found] at there
      cases there
      refine ⟨_, OrderedDict.get_put_self, ?_⟩
      intro nonce configuration before
      rw [known_withConfiguration free]
      exact offer_keeps before
    · exact ⟨existing, (OrderedDict.get_put_other elsewhere).trans found, fun _ _ same => same⟩

theorem markTreasuryUnlinked_extends {moment : String} (marked : markTreasuryUnlinked keccak256 record address moment = .ok record')
    {place : Text} (found : record.treasuries.get place = some existing) :
    ∃ later, record'.treasuries.get place = some later ∧ Extends existing later := by
  rw [markTreasuryUnlinked] at marked
  cases valid : checksumAddress keccak256 address with
  | none =>
    rw [valid] at marked
    cases marked
  | some checksummed =>
    rw [valid] at marked
    dsimp only at marked
    cases there : record.treasuries.get checksummed with
    | none =>
      rw [there] at marked
      cases marked
    | some recorded =>
      rw [there] at marked
      dsimp only at marked
      split at marked
      · cases marked
        obtain rfl | elsewhere := eq_or_ne place checksummed
        · rw [found] at there
          cases there
          exact ⟨_, OrderedDict.get_put_self, fun _ _ same => same⟩
        · exact ⟨existing, (OrderedDict.get_put_other elsewhere).trans found, fun _ _ same => same⟩
      · cases marked
        exact ⟨existing, found, fun _ _ same => same⟩

end Treasuries

/-! ## Contracts -/

section Contracts
variable {state state' : Record V × List String} {named : String × ContractEntry V} {existing : ContractEntry V}

theorem firstDifference_contract {first second : ContractEntry V} :
    firstDifference (contractKeys first) (contractKeys second) = none ↔ contractKeys first = contractKeys second := by
  simp [firstDifference, contractKeys]

theorem mergeContract_ok (merged : mergeContract state named = .ok state') :
    (state.1.contracts.get named.1 = none ∧
      state' = ({ state.1 with contracts := state.1.contracts.put named.1 named.2 }, state.2 ++ [named.1])) ∨
    ∃ existing, state.1.contracts.get named.1 = some existing ∧ contractKeys existing = contractKeys named.2 ∧ state' = state := by
  rw [mergeContract] at merged
  cases found : state.1.contracts.get named.1 with
  | none =>
    rw [found] at merged
    cases merged
    exact .inl ⟨rfl, rfl⟩
  | some existing =>
    rw [found] at merged
    dsimp only at merged
    cases same : firstDifference (contractKeys existing) (contractKeys named.2) with
    | none =>
      rw [same] at merged
      cases merged
      exact .inr ⟨existing, rfl, firstDifference_contract.mp same, rfl⟩
    | some difference =>
      rw [same] at merged
      cases merged

theorem mergeContract_treasuries (merged : mergeContract state named = .ok state') : state'.1.treasuries = state.1.treasuries := by
  obtain ⟨-, rfl⟩ | ⟨_, -, -, rfl⟩ := mergeContract_ok merged
  · rfl
  · rfl

theorem mergeContract_keeps (merged : mergeContract state named = .ok state') {name : String}
    (found : state.1.contracts.get name = some existing) : state'.1.contracts.get name = some existing := by
  obtain ⟨absent, rfl⟩ | ⟨_, -, -, rfl⟩ := mergeContract_ok merged
  · have elsewhere : name ≠ named.1 := by
      rintro rfl
      rw [found] at absent
      cases absent
    exact (OrderedDict.get_put_other elsewhere).trans found
  · exact found

-- Every name merged stands there with what was offered for it.
theorem mergeContract_there (merged : mergeContract state named = .ok state') :
    ∃ recorded, state'.1.contracts.get named.1 = some recorded ∧ contractKeys recorded = contractKeys named.2 := by
  obtain ⟨-, rfl⟩ | ⟨existing, found, same, rfl⟩ := mergeContract_ok merged
  · exact ⟨named.2, OrderedDict.get_put_self, rfl⟩
  · exact ⟨existing, found, same⟩

theorem mergeContract_again (found : state.1.contracts.get named.1 = some existing)
    (same : contractKeys existing = contractKeys named.2) : mergeContract state named = .ok state := by
  rw [mergeContract, found]
  dsimp only
  rw [firstDifference_contract.mpr same]

theorem mergeEach_treasuries {entries : List (String × ContractEntry V)} (merged : entries.foldlM mergeContract state = .ok state') :
    state'.1.treasuries = state.1.treasuries := by
  induction entries generalizing state with
  | nil =>
    cases merged
    rfl
  | cons named entries ih =>
    rw [List.foldlM_cons] at merged
    obtain ⟨between, first, rest⟩ := Results.bind_eq_ok.mp merged
    exact (ih rest).trans (mergeContract_treasuries first)

theorem mergeEach_keeps {entries : List (String × ContractEntry V)} (merged : entries.foldlM mergeContract state = .ok state')
    {name : String} (found : state.1.contracts.get name = some existing) : state'.1.contracts.get name = some existing := by
  induction entries generalizing state with
  | nil =>
    cases merged
    exact found
  | cons named entries ih =>
    rw [List.foldlM_cons] at merged
    obtain ⟨between, first, rest⟩ := Results.bind_eq_ok.mp merged
    exact ih rest (mergeContract_keeps first found)

theorem mergeEach_there {entries : List (String × ContractEntry V)} (merged : entries.foldlM mergeContract state = .ok state') :
    ∀ named ∈ entries, ∃ recorded, state'.1.contracts.get named.1 = some recorded ∧ contractKeys recorded = contractKeys named.2 := by
  induction entries generalizing state with
  | nil => exact fun _ none => absurd none List.not_mem_nil
  | cons first entries ih =>
    rw [List.foldlM_cons] at merged
    obtain ⟨between, start, rest⟩ := Results.bind_eq_ok.mp merged
    intro named inside
    obtain rfl | later := List.mem_cons.mp inside
    · obtain ⟨recorded, there, same⟩ := mergeContract_there start
      exact ⟨recorded, mergeEach_keeps rest there, same⟩
    · exact ih rest named later

theorem mergeEach_again {entries : List (String × ContractEntry V)}
    (there : ∀ named ∈ entries, ∃ recorded, state.1.contracts.get named.1 = some recorded ∧ contractKeys recorded = contractKeys named.2) :
    entries.foldlM mergeContract state = .ok state := by
  induction entries with
  | nil => rfl
  | cons named entries ih =>
    obtain ⟨recorded, found, same⟩ := there named List.mem_cons_self
    rw [List.foldlM_cons, mergeContract_again found same]
    exact ih fun named inside => there named (List.mem_cons_of_mem _ inside)

theorem mergeContracts_refused {record : Record V} {entries : OrderedDict String (ContractEntry V)} {name : String}
    {entry : ContractEntry V} (found : record.contracts.get name = some existing) (offered : entries.get name = some entry)
    (different : contractKeys existing ≠ contractKeys entry) : ∃ e, mergeContracts record entries = .error e := by
  cases merged : mergeContracts record entries with
  | error e => exact ⟨e, rfl⟩
  | ok result =>
    have kept := mergeEach_keeps merged found
    obtain ⟨recorded, there, same⟩ := mergeEach_there merged (name, entry) (OrderedDict.get_eq_some.mp offered)
    rw [kept] at there
    cases there
    exact absurd same different

end Contracts

/-! ## Runs -/

section Runs
variable {keccak256 : List UInt8 → BitVec 256}

theorem after_extends (record : Record V) (call : Call V) {place : Text} {existing : TreasuryEntry V}
    (found : record.treasuries.get place = some existing) :
    ∃ later, (after keccak256 record call).treasuries.get place = some later ∧ Extends existing later := by
  rw [after]
  cases applied : call.apply keccak256 record with
  | error e => exact ⟨existing, found, fun _ _ same => same⟩
  | ok record' =>
    cases call with
    | mergeTreasury address entry =>
      obtain ⟨⟨next, added⟩, merged, rfl⟩ := Results.map_eq_ok.mp applied
      exact mergeTreasury_extends merged found
    | mergeContracts entries =>
      obtain ⟨⟨next, added⟩, merged, rfl⟩ := Results.map_eq_ok.mp applied
      have same : next.treasuries = record.treasuries := mergeEach_treasuries merged
      exact ⟨existing, same ▸ found, fun _ _ same => same⟩
    | markUnlinked address moment => exact markTreasuryUnlinked_extends applied found

theorem run_extends {record : Record V} {calls : List (Call V)} {place : Text} {existing : TreasuryEntry V}
    (found : record.treasuries.get place = some existing) :
    ∃ later, (run keccak256 record calls).treasuries.get place = some later ∧ Extends existing later := by
  induction calls generalizing record existing with
  | nil => exact ⟨existing, found, fun _ _ same => same⟩
  | cons call calls ih =>
    obtain ⟨between, there, first⟩ : ∃ later, (after keccak256 record call).treasuries.get place = some later ∧
        Extends existing later := after_extends record call found
    obtain ⟨later, last, rest⟩ := ih there
    exact ⟨later, last, fun nonce configuration before => rest nonce configuration (first nonce configuration before)⟩

theorem after_contract (record : Record V) (call : Call V) {name : String} {existing : ContractEntry V}
    (found : record.contracts.get name = some existing) : (after keccak256 record call).contracts.get name = some existing := by
  rw [after]
  cases applied : call.apply keccak256 record with
  | error e => exact found
  | ok record' =>
    cases call with
    | mergeTreasury address entry =>
      obtain ⟨⟨next, added⟩, merged, rfl⟩ := Results.map_eq_ok.mp applied
      obtain ⟨_, -, ⟨-, rfl⟩ | ⟨_, -, -, -, ⟨-, rfl⟩ | ⟨-, rfl⟩⟩⟩ := mergeTreasury_ok merged
      · exact found
      · exact found
      · exact found
    | mergeContracts entries =>
      obtain ⟨⟨next, added⟩, merged, rfl⟩ := Results.map_eq_ok.mp applied
      exact mergeEach_keeps merged found
    | markUnlinked address moment =>
      rw [Call.apply, markTreasuryUnlinked] at applied
      split at applied
      · cases applied
      · split at applied
        · cases applied
        · split at applied
          · cases applied
            exact found
          · cases applied
            exact found

theorem run_contract {record : Record V} {calls : List (Call V)} {name : String} {existing : ContractEntry V}
    (found : record.contracts.get name = some existing) : (run keccak256 record calls).contracts.get name = some existing := by
  induction calls generalizing record with
  | nil => exact found
  | cons call calls ih => exact ih (after_contract record call found)

end Runs

/-! ## Orders -/

section Orders
variable {keccak256 : List UInt8 → BitVec 256}

-- All that the record says of a treasury: its identity and its configurations
abbrev Said (V : Type) := Option ((Option V × Option V × Option V) × (Int → Option (Configuration V)))

def said (record : Record V) (place : Text) : Said V :=
  (record.treasuries.get place).map fun entry => (identity entry, known entry)

def hear (before : Said V) (entry : TreasuryEntry V) : Said V :=
  match before with
  | none => some (identity entry, known entry)
  | some (identity', known') => if identity' = identity entry then some (identity', offer known' entry.nonceOf (offered entry)) else before

-- A merge is heard where its address points, refused or not.
theorem said_after (record : Record V) (address : Text) {entry : TreasuryEntry V} (plain : Plain entry) (place : Text) :
    said (after keccak256 record (.mergeTreasury address entry)) place =
      if checksumAddress keccak256 address = some place then hear (said record place) entry else said record place := by
  cases valid : checksumAddress keccak256 address with
  | none =>
    rw [if_neg nofun, after, Call.apply, mergeTreasury, valid]
    rfl
  | some checksummed =>
    obtain rfl | elsewhere := eq_or_ne checksummed place
    · rw [if_pos rfl, said, said]
      cases found : record.treasuries.get checksummed with
      | none =>
        rw [after, Call.apply, mergeTreasury_new valid found]
        exact congrArg (Option.map _) OrderedDict.get_put_self
      | some existing =>
        by_cases same : identity existing = identity entry
        · rw [Option.map_some, hear, if_pos same]
          cases at_nonce : known existing entry.nonceOf with
          | none =>
            rw [after, Call.apply, mergeTreasury_later valid found same plain.natural at_nonce, ← known_withConfiguration at_nonce]
            exact congrArg (Option.map _) OrderedDict.get_put_self
          | some recorded =>
            have kept : offer (known existing) entry.nonceOf (offered entry) = known existing :=
              offer_known (by rw [at_nonce, Option.isSome_some])
            rw [kept]
            by_cases other : recorded = offered entry
            · rw [after, Call.apply, mergeTreasury_again valid found same plain.natural (other ▸ at_nonce)]
              exact congrArg (Option.map _) found
            · obtain ⟨e, refused⟩ := mergeTreasury_refused valid found (.inr ⟨recorded, at_nonce, other⟩)
              rw [after, Call.apply, refused]
              exact congrArg (Option.map _) found
        · obtain ⟨e, refused⟩ := mergeTreasury_refused valid found (.inl same)
          rw [Option.map_some, hear, if_neg same, after, Call.apply, refused]
          exact congrArg (Option.map _) found
    · rw [if_neg (fun same => elsewhere (Option.some.inj same)), after]
      cases applied : Call.apply keccak256 record (.mergeTreasury address entry) with
      | error e => rfl
      | ok record' =>
        obtain ⟨⟨next, added⟩, merged, rfl⟩ := Results.map_eq_ok.mp applied
        obtain ⟨there, valid', new⟩ := mergeTreasury_ok merged
        rw [valid] at valid'
        cases valid'
        obtain ⟨-, rfl⟩ | ⟨_, -, -, -, ⟨-, rfl⟩ | ⟨-, rfl⟩⟩ := new
        · exact congrArg (Option.map _) (OrderedDict.get_put_other elsewhere.symm)
        · rfl
        · exact congrArg (Option.map _) (OrderedDict.get_put_other elsewhere.symm)

def AgreeOn (first second : TreasuryEntry V) : Prop :=
  identity first = identity second ∧ (first.nonceOf = second.nonceOf → offered first = offered second)

theorem hear_comm (before : Said V) {first second : TreasuryEntry V} (first_plain : Plain first) (second_plain : Plain second)
    (agree : AgreeOn first second) : hear (hear before first) second = hear (hear before second) first := by
  obtain ⟨same, configurations⟩ := agree
  cases before with
  | none =>
    rw [hear, hear, hear, hear, if_pos same, if_pos same.symm, known_plain first_plain, known_plain second_plain, same,
      offer_comm configurations]
  | some heard =>
    obtain ⟨identity', known'⟩ := heard
    by_cases there : identity' = identity first
    · rw [hear, if_pos there, hear, if_pos (there.trans same), hear, if_pos (there.trans same), hear, if_pos there,
        offer_comm configurations]
    · have there' : identity' ≠ identity second := fun other => there (other.trans same.symm)
      rw [hear, if_neg there, hear, if_neg there', hear, if_neg there]

-- Two offers contradict each other only under one address.
def Compatible (keccak256 : List UInt8 → BitVec 256) (first second : Text × TreasuryEntry V) : Prop :=
  checksumAddress keccak256 first.1 = checksumAddress keccak256 second.1 → AgreeOn first.2 second.2

def mergeAll (keccak256 : List UInt8 → BitVec 256) (record : Record V) (offers : List (Text × TreasuryEntry V)) : Record V :=
  run keccak256 record (offers.map fun offer => .mergeTreasury offer.1 offer.2)

theorem said_mergeAll {record : Record V} {offers : List (Text × TreasuryEntry V)} (plain : ∀ offer ∈ offers, Plain offer.2)
    (place : Text) : said (mergeAll keccak256 record offers) place = offers.foldl
      (fun before offer => if checksumAddress keccak256 offer.1 = some place then hear before offer.2 else before) (said record place) := by
  induction offers generalizing record with
  | nil => rfl
  | cons offer offers ih =>
    rw [List.foldl_cons, ← said_after record offer.1 (plain offer List.mem_cons_self) place]
    exact ih fun other inside => plain other (List.mem_cons_of_mem _ inside)

theorem mergeAll_perm (record : Record V) {offers offers' : List (Text × TreasuryEntry V)} (plain : ∀ offer ∈ offers, Plain offer.2)
    (compatible : ∀ first ∈ offers, ∀ second ∈ offers, Compatible keccak256 first second) (reordered : offers.Perm offers')
    (place : Text) : said (mergeAll keccak256 record offers) place = said (mergeAll keccak256 record offers') place := by
  rw [said_mergeAll plain, said_mergeAll fun offer inside => plain offer (reordered.mem_iff.mpr inside)]
  apply reordered.foldl_eq'
  intro first first_inside second second_inside before
  by_cases here : checksumAddress keccak256 first.1 = some place
  · rw [if_pos here]
    by_cases there : checksumAddress keccak256 second.1 = some place
    · rw [if_pos there, if_pos there, if_pos here]
      exact hear_comm before (plain first first_inside) (plain second second_inside)
        (compatible first first_inside second second_inside (here.trans there.symm))
    · rw [if_neg there, if_neg there, if_pos here]
  · rw [if_neg here, if_neg here]

theorem mergeAll_known (record : Record V) {offers offers' : List (Text × TreasuryEntry V)} (plain : ∀ offer ∈ offers, Plain offer.2)
    (compatible : ∀ first ∈ offers, ∀ second ∈ offers, Compatible keccak256 first second) (reordered : offers.Perm offers')
    (place : Text) : ((mergeAll keccak256 record offers).treasuries.get place).map known =
      ((mergeAll keccak256 record offers').treasuries.get place).map known := by
  have same := congrArg (Option.map Prod.snd) (mergeAll_perm record plain compatible reordered place)
  rwa [said, said, Option.map_map, Option.map_map] at same

end Orders

/-! ## The whole -/

section Whole
variable {keccak256 : List UInt8 → BitVec 256} {record record' : Record V} {address : Text} {entry : TreasuryEntry V} {added : Bool}

theorem mergeTreasury_recorded (plain : Plain entry) (merged : mergeTreasury keccak256 record address entry = .ok (record', added)) :
    ∃ checksummed recorded, checksumAddress keccak256 address = some checksummed ∧
      record'.treasuries.get checksummed = some recorded ∧ identity recorded = identity entry ∧
      known recorded entry.nonceOf = some (offered entry) := by
  obtain ⟨checksummed, valid, ⟨-, rfl⟩ | ⟨existing, found, same, -, ⟨there, rfl⟩ | ⟨free, rfl⟩⟩⟩ := mergeTreasury_ok merged
  · refine ⟨checksummed, entry, valid, OrderedDict.get_put_self, rfl, ?_⟩
    rw [known_plain plain]
    exact offer_new rfl
  · exact ⟨checksummed, existing, valid, found, same, there⟩
  · refine ⟨checksummed, _, valid, OrderedDict.get_put_self, same, ?_⟩
    rw [known_withConfiguration free]
    exact offer_new free

theorem mergeTreasury_idempotent (plain : Plain entry) (merged : mergeTreasury keccak256 record address entry = .ok (record', added)) :
    mergeTreasury keccak256 record' address entry = .ok (record', false) := by
  obtain ⟨checksummed, recorded, valid, found, same, there⟩ := mergeTreasury_recorded plain merged
  exact mergeTreasury_again valid found same plain.natural there

theorem mergeContracts_idempotent {entries : OrderedDict String (ContractEntry V)} {names : List String}
    (merged : mergeContracts record entries = .ok (record', names)) : mergeContracts record' entries = .ok (record', []) := by
  have each : entries.entries.foldlM mergeContract (record, []) = .ok (record', names) := merged
  have there := mergeEach_there each
  exact mergeEach_again there

theorem after_refused {call : Call V} (refused : ∃ e, call.apply keccak256 record = .error e) : after keccak256 record call = record := by
  obtain ⟨e, refused⟩ := refused
  rw [after, refused]

end Whole

theorem record_grows (keccak256 : List UInt8 → BitVec 256) :
    (∀ (record : Record V) (calls : List (Call V)),
      (∀ address entry, record.treasuries.get address = some entry →
        ∃ later, (run keccak256 record calls).treasuries.get address = some later ∧
          ∀ nonce configuration, (configurations entry).get nonce = some configuration →
            (configurations later).get nonce = some configuration) ∧
      ∀ name entry, record.contracts.get name = some entry → (run keccak256 record calls).contracts.get name = some entry) ∧
    (∀ (record : Record V) (address checksummed : Text) (existing entry : TreasuryEntry V),
      checksumAddress keccak256 address = some checksummed → record.treasuries.get checksummed = some existing →
      Contradicts existing entry → (∃ e, mergeTreasury keccak256 record address entry = .error e) ∧
        after keccak256 record (.mergeTreasury address entry) = record) ∧
    (∀ (record : Record V) (entries : OrderedDict String (ContractEntry V)) (name : String) (existing entry : ContractEntry V),
      record.contracts.get name = some existing → entries.get name = some entry → contractKeys existing ≠ contractKeys entry →
      (∃ e, mergeContracts record entries = .error e) ∧ after keccak256 record (.mergeContracts entries) = record) ∧
    (∀ (record record' : Record V) (address : Text) (entry : TreasuryEntry V) (added : Bool), Plain entry →
      mergeTreasury keccak256 record address entry = .ok (record', added) →
      mergeTreasury keccak256 record' address entry = .ok (record', false) ∧
      ∃ checksummed recorded, checksumAddress keccak256 address = some checksummed ∧
        record'.treasuries.get checksummed = some recorded ∧
        (configurations recorded).get entry.nonceOf = some ⟨entry.threshold, entry.signers.getD []⟩) ∧
    (∀ (record record' : Record V) (entries : OrderedDict String (ContractEntry V)) (names : List String),
      mergeContracts record entries = .ok (record', names) → mergeContracts record' entries = .ok (record', [])) ∧
    ∀ (record : Record V) (offers offers' : List (Text × TreasuryEntry V)), (∀ offer ∈ offers, Plain offer.2) →
      (∀ first ∈ offers, ∀ second ∈ offers, Compatible keccak256 first second) → offers.Perm offers' →
      ∀ address, ((mergeAll keccak256 record offers).treasuries.get address).map (fun entry => (configurations entry).get) =
        ((mergeAll keccak256 record offers').treasuries.get address).map (fun entry => (configurations entry).get) := by
  refine ⟨?_, ?_, ?_, ?_, ?_, ?_⟩
  · intro record calls
    exact ⟨fun _ _ found => run_extends found, fun _ _ found => run_contract found⟩
  · intro record address checksummed existing entry valid found contradicts
    have refused := mergeTreasury_refused valid found contradicts
    refine ⟨refused, after_refused ?_⟩
    obtain ⟨e, refused⟩ := refused
    exact ⟨e, by rw [Call.apply, refused]; rfl⟩
  · intro record entries name existing entry found offered different
    have refused := mergeContracts_refused found offered different
    refine ⟨refused, after_refused ?_⟩
    obtain ⟨e, refused⟩ := refused
    exact ⟨e, by rw [Call.apply, refused]; rfl⟩
  · intro record record' address entry added plain merged
    obtain ⟨checksummed, recorded, valid, found, -, there⟩ := mergeTreasury_recorded plain merged
    exact ⟨mergeTreasury_idempotent plain merged, checksummed, recorded, valid, found, there⟩
  · intro record record' entries names merged
    exact mergeContracts_idempotent merged
  · intro record offers offers' plain compatible reordered address
    exact mergeAll_known record plain compatible reordered address

end QVault.Proof.Chain.Deployments
