import Mathlib.Data.List.Nodup
import Mathlib.Tactic

/-!
# Dictionaries that keep an order

A list of keys and values in which each key stands once. A value is replaced where it stands, a new
key comes last, and a key can be moved to the end.
-/

structure OrderedDict (κ ν : Type*) where
  entries : List (κ × ν)
  distinct : (entries.map Prod.fst).Nodup

namespace OrderedDict

variable {κ ν : Type*} [DecidableEq κ] (d : OrderedDict κ ν) {k other : κ} {v : ν}

def empty : OrderedDict κ ν := ⟨[], List.nodup_nil⟩

def size : Nat := d.entries.length

def get (k : κ) : Option ν := (d.entries.find? fun e => e.1 = k).map Prod.snd

def erase (k : κ) : OrderedDict κ ν :=
  ⟨d.entries.filter fun e => e.1 ≠ k, d.distinct.sublist (List.filter_sublist.map _)⟩

-- The entries after the first `n`
def drop (n : Nat) : OrderedDict κ ν := ⟨d.entries.drop n, d.distinct.sublist ((List.drop_sublist n _).map _)⟩

def mapValues (f : κ → ν → ν) : OrderedDict κ ν :=
  ⟨d.entries.map fun e => (e.1, f e.1 e.2), by
    rw [List.map_map]
    exact d.distinct⟩

def addLast (k : κ) (v : ν) : OrderedDict κ ν :=
  ⟨(d.erase k).entries ++ [(k, v)], by
    rw [List.map_append, List.nodup_append]
    refine ⟨(d.erase k).distinct, List.nodup_singleton _, ?_⟩
    intro a listed b new same
    obtain ⟨e, among, key⟩ := List.mem_map.mp listed
    rw [List.map_singleton, List.mem_singleton] at new
    have kept := (List.mem_filter.mp among).2
    simp only [decide_eq_true_eq] at kept
    exact kept (key.trans (same.trans new))⟩

def put (k : κ) (v : ν) : OrderedDict κ ν :=
  if (d.get k).isSome then d.mapValues fun key old => if key = k then v else old else d.addLast k v

def moveToEnd (k : κ) : OrderedDict κ ν :=
  match d.get k with
  | some v => d.addLast k v
  | none => d

-- A dictionary of what a list names, the last value of a key being its value
def ofPairs (pairs : List (κ × ν)) : OrderedDict κ ν := pairs.foldl (fun d e => d.put e.1 e.2) empty

/-! ## What is found -/

variable {d}

@[simp] theorem get_empty : (empty : OrderedDict κ ν).get k = none := rfl

theorem get_eq_some : d.get k = some v ↔ (k, v) ∈ d.entries := by
  unfold get
  constructor
  · intro found
    obtain ⟨e, first, value⟩ := Option.map_eq_some_iff.mp found
    have key : e.1 = k := by simpa using List.find?_some first
    rw [← key, ← value]
    exact List.mem_of_find?_eq_some first
  · intro listed
    cases found : d.entries.find? fun e => decide (e.1 = k) with
    | none =>
      have absent := List.find?_eq_none.mp found (k, v) listed
      simp at absent
    | some e =>
      have key : e.1 = k := by simpa using List.find?_some found
      have same := List.inj_on_of_nodup_map d.distinct (List.mem_of_find?_eq_some found) listed key
      rw [Option.map_some, same]

theorem get_addLast_self : (d.addLast k v).get k = some v :=
  get_eq_some.mpr (List.mem_append_right _ (List.mem_singleton_self _))

theorem get_addLast_other (different : other ≠ k) : (d.addLast k v).get other = d.get other := by
  refine Option.ext fun value => ?_
  rw [get_eq_some, get_eq_some]
  simp [addLast, erase, different]

theorem get_mapValues {f : κ → ν → ν} : (d.mapValues f).get k = (d.get k).map (f k) := by
  unfold get mapValues
  simp only [List.find?_map]
  have same : ((fun e : κ × ν => decide (e.1 = k)) ∘ fun e : κ × ν => (e.1, f e.1 e.2)) = fun e => decide (e.1 = k) := rfl
  rw [same]
  cases found : d.entries.find? fun e => decide (e.1 = k) with
  | none => rfl
  | some e =>
    have key : e.1 = k := by simpa using List.find?_some found
    simp [key]

theorem get_put_self : (d.put k v).get k = some v := by
  unfold put
  split
  · rename_i known
    obtain ⟨old, found⟩ := Option.isSome_iff_exists.mp known
    simp [get_mapValues, found]
  · exact get_addLast_self

theorem get_put_other (different : other ≠ k) : (d.put k v).get other = d.get other := by
  unfold put
  split
  · simp [get_mapValues, different]
  · exact get_addLast_other different

theorem get_moveToEnd : (d.moveToEnd k).get other = d.get other := by
  unfold moveToEnd
  split
  · rename_i v found
    by_cases same : other = k
    · rw [same, get_addLast_self, found]
    · exact get_addLast_other same
  · rfl

-- Entries leave from the front, and the keys that stay keep their values.
theorem get_drop_some {n : Nat} (found : (d.drop n).get k = some v) : d.get k = some v :=
  get_eq_some.mpr (List.mem_of_mem_drop (get_eq_some.mp found))

theorem get_drop {n : Nat} (found : d.get k = some v) (kept : (k, v) ∉ d.entries.take n) :
    (d.drop n).get k = some v := by
  refine get_eq_some.mpr ?_
  have listed := get_eq_some.mp found
  rw [← List.take_append_drop n d.entries, List.mem_append] at listed
  exact listed.resolve_left kept

theorem get_puts {pairs : List (κ × ν)} (found : (pairs.foldl (fun d e => d.put e.1 e.2) d).get k = some v) :
    (k, v) ∈ pairs ∨ d.get k = some v := by
  induction pairs generalizing d with
  | nil => exact .inr found
  | cons e rest ih =>
    rcases ih found with listed | found
    · exact .inl (List.mem_cons_of_mem _ listed)
    · by_cases same : k = e.1
      · rw [same, get_put_self] at found
        exact .inl (by simp [same, ← Option.some.inj found])
      · exact .inr (by rwa [get_put_other same] at found)

theorem get_puts_known {pairs : List (κ × ν)} (known : k ∈ pairs.map Prod.fst ∨ (d.get k).isSome) :
    ((pairs.foldl (fun d e => d.put e.1 e.2) d).get k).isSome := by
  induction pairs generalizing d with
  | nil => exact known.resolve_left (by simp)
  | cons e rest ih =>
    refine ih ?_
    by_cases same : k = e.1
    · exact .inr (by simp [same, get_put_self])
    · rw [get_put_other same]
      exact known.imp_left fun listed => (List.mem_cons.mp listed).resolve_left same

theorem get_ofPairs {pairs : List (κ × ν)} (found : (ofPairs pairs).get k = some v) : (k, v) ∈ pairs :=
  (get_puts found).resolve_right (by simp)

-- Where a key has one value only, that is its value.
theorem get_ofPairs_single {pairs : List (κ × ν)} (listed : (k, v) ∈ pairs) (single : ∀ w, (k, w) ∈ pairs → w = v) :
    (ofPairs pairs).get k = some v := by
  have known := get_puts_known (d := empty) (.inl (List.mem_map.mpr ⟨_, listed, rfl⟩))
  obtain ⟨w, found⟩ := Option.isSome_iff_exists.mp known
  have same := single w (get_ofPairs found)
  rw [← same]
  exact found

/-! ## How many keys there are -/

theorem size_addLast_known (known : (d.get k).isSome) : (d.addLast k v).size = d.size := by
  obtain ⟨old, found⟩ := Option.isSome_iff_exists.mp known
  have listed := get_eq_some.mp found
  have once : (d.entries.countP fun e => decide (e.1 = k)) = 1 := by
    have counted : (d.entries.map Prod.fst).count k = 1 :=
      List.count_eq_one_of_mem d.distinct (List.mem_map.mpr ⟨(k, old), listed, rfl⟩)
    rw [List.count, List.countP_map] at counted
    rw [← counted]
    exact List.countP_congr fun e _ => by simp
  have split := List.length_eq_countP_add_countP (fun e : κ × ν => decide (e.1 = k)) (l := d.entries)
  simp only [size, addLast, erase, List.length_append, List.length_singleton, ← List.countP_eq_length_filter]
  have rest : (d.entries.countP fun e => decide (e.1 ≠ k)) = d.entries.countP fun e => ¬ decide (e.1 = k) :=
    List.countP_congr fun e _ => by simp
  rw [rest]
  omega

theorem size_addLast_new (new : d.get k = none) : (d.addLast k v).size = d.size + 1 := by
  have same : (d.entries.filter fun e => decide (e.1 ≠ k)) = d.entries := by
    refine List.filter_eq_self.mpr fun e listed => ?_
    simp only [decide_eq_true_eq]
    intro key
    have found : d.get k = some e.2 := get_eq_some.mpr (key ▸ listed)
    rw [new] at found
    cases found
  change ((d.entries.filter fun e => decide (e.1 ≠ k)) ++ [(k, v)]).length = d.entries.length + 1
  rw [same, List.length_append, List.length_singleton]

omit [DecidableEq κ] in
theorem size_mapValues {f : κ → ν → ν} : (d.mapValues f).size = d.size := List.length_map ..

theorem size_put_known (known : (d.get k).isSome) : (d.put k v).size = d.size := by
  rw [put, if_pos known, size_mapValues]

theorem size_put_new (new : d.get k = none) : (d.put k v).size = d.size + 1 := by
  rw [put, if_neg (by simp [new]), size_addLast_new new]

theorem size_moveToEnd : (d.moveToEnd k).size = d.size := by
  unfold moveToEnd
  split
  · rename_i found
    exact size_addLast_known (by simp [found])
  · rfl

omit [DecidableEq κ] in
theorem size_drop (n : Nat) : (d.drop n).size = d.size - n := List.length_drop ..

end OrderedDict
