import QVault.Proof.Chain.Transform

/-!
# An expanded key determines the key

`_decode_t1` and `_pack` keep every bit, and `_ntt` between them loses nothing.
-/

namespace QVault.Proof.Chain.KeyExpansion

open QVault.Chain.KeyExpansion

/-! ## Bytes -/

theorem fromLittle_lt (bytes : List UInt8) : fromLittle bytes < 256 ^ bytes.length := by
  have length : bytes.length = (bytes.map UInt8.toNat).length := (List.length_map ..).symm
  rw [fromLittle, length]
  apply Nat.ofDigits_lt_base_pow_length (by norm_num)
  intro digit member
  obtain ⟨byte, -, rfl⟩ := List.mem_map.mp member
  exact byte.toNat_lt

theorem fromLittle_injective {bytes bytes' : List UInt8} (lengths : bytes.length = bytes'.length)
    (same : fromLittle bytes = fromLittle bytes') : bytes = bytes' := by
  have small : ∀ bytes : List UInt8, ∀ digit ∈ bytes.map UInt8.toNat, digit < 256 := by
    intro bytes digit member
    obtain ⟨byte, -, rfl⟩ := List.mem_map.mp member
    exact byte.toNat_lt
  have digits := Nat.ofDigits_inj_of_len_eq (by norm_num) (by rwa [List.length_map, List.length_map]) (small bytes) (small bytes') same
  exact List.map_injective_iff.mpr (fun _ _ => UInt8.toNat_inj.mp) digits

/-! ## Fields of ten bits -/

theorem field_testBit (packed c : Nat) {b : Nat} (inside : b < 10) :
    (packed >>> (10 * c) &&& 0x3FF).testBit b = packed.testBit (10 * c + b) := by
  rw [Nat.testBit_and, Nat.testBit_shiftRight, show 0x3FF = 2 ^ 10 - 1 from rfl, Nat.testBit_two_pow_sub_one, decide_eq_true inside,
    Bool.and_true]

theorem fields_injective {packed packed' count : Nat} (small : packed < 2 ^ (10 * count)) (small' : packed' < 2 ^ (10 * count))
    (same : ∀ c < count, packed >>> (10 * c) &&& 0x3FF = packed' >>> (10 * c) &&& 0x3FF) : packed = packed' := by
  apply Nat.eq_of_testBit_eq
  intro i
  by_cases inside : i < 10 * count
  · have place : 10 * (i / 10) + i % 10 = i := Nat.div_add_mod i 10
    have bit : i % 10 < 10 := Nat.mod_lt i (by norm_num)
    have fields := congrArg (Nat.testBit · (i % 10)) (same (i / 10) (by omega))
    rwa [field_testBit _ _ bit, field_testBit _ _ bit, place] at fields
  · have width : 2 ^ (10 * count) ≤ 2 ^ i := Nat.pow_le_pow_right two_pos (not_lt.mp inside)
    rw [Nat.testBit_lt_two_pow (small.trans_le width), Nat.testBit_lt_two_pow (small'.trans_le width)]

def t1Slice (publicKey : List UInt8) (i : Nat) : List UInt8 := (publicKey.drop (rhoBytes + i * t1PolyBytes)).take t1PolyBytes

def t1Poly (publicKey : List UInt8) (i : Nat) : List Nat :=
  (List.range n).map fun c => fromLittle (t1Slice publicKey i) >>> (10 * c) &&& 0x3FF

theorem decodeT1_eq (publicKey : List UInt8) : decodeT1 publicKey = (List.range k).map (t1Poly publicKey) := rfl

theorem t1Slice_length {publicKey : List UInt8} (full : publicKey.length = publicKeyBytes) {i : Nat} (inside : i < k) :
    (t1Slice publicKey i).length = t1PolyBytes := by
  rw [t1Slice, List.length_take, List.length_drop, full, publicKeyBytes]
  rw [k] at *
  rw [t1PolyBytes]
  omega

theorem t1Poly_injective {publicKey publicKey' : List UInt8} (full : publicKey.length = publicKeyBytes)
    (full' : publicKey'.length = publicKeyBytes) {i : Nat} (inside : i < k) (same : t1Poly publicKey i = t1Poly publicKey' i) :
    t1Slice publicKey i = t1Slice publicKey' i := by
  have lengths := t1Slice_length full inside
  have lengths' := t1Slice_length full' inside
  apply fromLittle_injective (lengths.trans lengths'.symm)
  have width : 256 ^ t1PolyBytes = 2 ^ (10 * n) := by
    rw [show 256 = 2 ^ 8 from rfl, ← pow_mul, show 8 * t1PolyBytes = 10 * n from rfl]
  refine fields_injective (show fromLittle (t1Slice publicKey i) < 2 ^ (10 * n) from ?_)
    (show fromLittle (t1Slice publicKey' i) < 2 ^ (10 * n) from ?_) ?_
  · rw [← width, ← lengths]
    exact fromLittle_lt _
  · rw [← width, ← lengths']
    exact fromLittle_lt _
  · intro c below
    exact List.map_inj_left.mp same c (List.mem_range.mpr below)

-- The six slices are the whole part.
theorem t1Part_of_slices {publicKey publicKey' : List UInt8} (full : publicKey.length = publicKeyBytes)
    (full' : publicKey'.length = publicKeyBytes) (same : ∀ i < k, t1Slice publicKey i = t1Slice publicKey' i) :
    t1Part publicKey = t1Part publicKey' := by
  apply List.ext_getElem?
  intro p
  rw [t1Part, t1Part, List.getElem?_drop, List.getElem?_drop]
  by_cases inside : p < k * t1PolyBytes
  · have slice := congrArg (·[p % t1PolyBytes]?) (same (p / t1PolyBytes) (Nat.div_lt_of_lt_mul (by rwa [mul_comm])))
    have place : rhoBytes + p / t1PolyBytes * t1PolyBytes + p % t1PolyBytes = rhoBytes + p := by
      rw [add_assoc, Nat.div_add_mod']
    have below : p % t1PolyBytes < t1PolyBytes := Nat.mod_lt p (by norm_num [t1PolyBytes])
    rwa [t1Slice, t1Slice, List.getElem?_take_of_lt below, List.getElem?_take_of_lt below, List.getElem?_drop, List.getElem?_drop,
      place] at slice
  · have past : publicKeyBytes ≤ rhoBytes + p := Nat.add_le_add_left (not_lt.mp inside) _
    rw [List.getElem?_eq_none (by rwa [full]), List.getElem?_eq_none (by rwa [full'])]

theorem decodeT1_injective {publicKey publicKey' : List UInt8} (full : publicKey.length = publicKeyBytes)
    (full' : publicKey'.length = publicKeyBytes) (same : decodeT1 publicKey = decodeT1 publicKey') :
    t1Part publicKey = t1Part publicKey' := by
  apply t1Part_of_slices full full'
  intro i inside
  rw [decodeT1_eq, decodeT1_eq] at same
  exact t1Poly_injective full full' inside (List.map_inj_left.mp same i (List.mem_range.mpr inside))

/-! ## Words of eight coefficients -/

-- The words hold the coefficients' bits; a coefficient that is not there yet is 0.
def Packs (coefficients words : List Nat) : Prop :=
  words.length = n / 8 ∧ ∀ w < n / 8, ∀ f < 8, ∀ b < 32,
    (words.getD w 0).testBit (32 * f + b) = (coefficients.getD (8 * w + f) 0).testBit b

theorem getD_concat (coefficients : List Nat) (c i : Nat) :
    (coefficients ++ [c]).getD i 0 = if i = coefficients.length then c else coefficients.getD i 0 := by
  rw [List.getD_eq_getElem?_getD, List.getD_eq_getElem?_getD, List.getElem?_append]
  split
  · rw [if_neg (by omega)]
  · rename_i past
    rw [List.getElem?_eq_none (not_lt.mp past)]
    by_cases here : i = coefficients.length
    · rw [if_pos here, here, Nat.sub_self]
      rfl
    · rw [if_neg here, List.getElem?_eq_none (by rw [List.length_singleton]; omega)]

theorem getD_modify {words : List Nat} (change : Nat → Nat) {i : Nat} (inside : i < words.length) (w : Nat) :
    (words.modify i change).getD w 0 = if w = i then change (words.getD w 0) else words.getD w 0 := by
  rw [List.getD_eq_getElem?_getD, List.getD_eq_getElem?_getD, List.getElem?_modify]
  by_cases here : w = i
  · subst here
    rw [if_pos rfl, List.getElem?_eq_getElem inside]
    simp
  · simp [here, Ne.symm here]

-- A coefficient moved to its own field leaves the other fields of the word alone.
theorem moved_testBit {c f f' b : Nat} (small : c < 2 ^ 32) (inside : b < 32) :
    (c <<< (32 * f')).testBit (32 * f + b) = (decide (f = f') && c.testBit b) := by
  rw [Nat.testBit_shiftLeft]
  obtain before | rfl | after := lt_trichotomy f f'
  · rw [decide_eq_false (by omega), decide_eq_false before.ne, Bool.false_and, Bool.false_and]
  · rw [decide_eq_true (by omega), decide_eq_true rfl, Nat.add_sub_cancel_left]
  · have width : 2 ^ 32 ≤ 2 ^ (32 * f + b - 32 * f') := Nat.pow_le_pow_right two_pos (by omega)
    rw [Nat.testBit_lt_two_pow (small.trans_le width), decide_eq_false after.ne', Bool.and_false, Bool.false_and]

theorem packStep_packs {coefficients words : List Nat} {c : Nat} (small : c < 2 ^ 32) (room : coefficients.length < n)
    (before : Packs coefficients words) : Packs (coefficients ++ [c]) (packStep words (c, coefficients.length)) := by
  obtain ⟨length, bits⟩ := before
  refine ⟨by rw [packStep, List.length_modify, length], ?_⟩
  intro w w_inside f f_inside b b_inside
  have old := bits w w_inside f f_inside b b_inside
  have word : coefficients.length / 8 < words.length := by
    rw [length]
    exact Nat.div_lt_div_of_lt_of_dvd (by norm_num [n]) room
  rw [packStep, getD_modify _ word, getD_concat]
  by_cases here : w = coefficients.length / 8
  · rw [if_pos here, Nat.testBit_or, old, moved_testBit small b_inside]
    by_cases field : f = coefficients.length % 8
    · have place : 8 * w + f = coefficients.length := by omega
      rw [decide_eq_true field, if_pos place, place, List.getD_eq_getElem?_getD, List.getElem?_eq_none le_rfl, Option.getD_none,
        Nat.zero_testBit, Bool.false_or, Bool.true_and]
    · rw [decide_eq_false field, if_neg (by omega), Bool.false_and, Bool.or_false]
  · rw [if_neg here, if_neg (by omega), old]

theorem pack_packs {coefficients : List Nat} (small : ∀ c ∈ coefficients, c < 2 ^ 32) (room : coefficients.length ≤ n) :
    Packs coefficients (pack coefficients) := by
  induction coefficients using List.reverseRecOn with
  | nil =>
    refine ⟨List.length_replicate, ?_⟩
    intro w w_inside f _ b _
    rw [pack, List.zipIdx_nil, List.foldl_nil, List.getD_eq_getElem?_getD, List.getElem?_replicate, if_pos w_inside]
    simp
  | append_singleton coefficients c ih =>
    rw [List.length_append, List.length_singleton] at room
    have before := ih (fun c member => small c (List.mem_append_left _ member)) (by omega)
    have step := packStep_packs (small c (by simp)) (by omega) before
    rw [pack, List.zipIdx_append, List.foldl_append, zero_add]
    exact step

theorem pack_injective {coefficients coefficients' : List Nat} (full : coefficients.length = n) (full' : coefficients'.length = n)
    (small : ∀ c ∈ coefficients, c < 2 ^ 32) (small' : ∀ c ∈ coefficients', c < 2 ^ 32)
    (same : pack coefficients = pack coefficients') : coefficients = coefficients' := by
  have packs := (pack_packs small full.le).2
  have packs' := (pack_packs small' full'.le).2
  apply List.ext_getElem (full.trans full'.symm)
  intro p inside inside'
  apply Nat.eq_of_testBit_eq
  intro b
  by_cases field : b < 32
  · have place : 8 * (p / 8) + p % 8 = p := Nat.div_add_mod p 8
    have word : p / 8 < n / 8 := Nat.div_lt_div_of_lt_of_dvd (by norm_num [n]) (full ▸ inside)
    have bits := packs (p / 8) word (p % 8) (Nat.mod_lt p (by norm_num)) b field
    rw [same, packs' (p / 8) word (p % 8) (Nat.mod_lt p (by norm_num)) b field, place, List.getD_eq_getElem?_getD,
      List.getD_eq_getElem?_getD, List.getElem?_eq_getElem inside, List.getElem?_eq_getElem inside'] at bits
    exact bits.symm
  · have width : 2 ^ 32 ≤ 2 ^ b := Nat.pow_le_pow_right two_pos (not_lt.mp field)
    rw [Nat.testBit_lt_two_pow ((small _ (List.getElem_mem inside)).trans_le width),
      Nat.testBit_lt_two_pow ((small' _ (List.getElem_mem inside')).trans_le width)]

/-! ## The expansion -/

theorem shifted_reduced {c : Nat} (small : c < 1024) : c <<< d % q = c * 8192 := by
  rw [Nat.shiftLeft_eq, d, show 2 ^ 13 = 8192 from rfl, q, Nat.mod_eq_of_lt (by omega)]

theorem toNat_lt {w : List Int} (reduced : Reduced w) : ∀ c ∈ w.map Int.toNat, c < 2 ^ 32 := by
  intro c member
  obtain ⟨c', inside, rfl⟩ := List.mem_map.mp member
  have range := reduced c' inside
  rw [q] at range
  omega

theorem toNat_injective {w w' : List Int} (reduced : Reduced w) (reduced' : Reduced w') (same : w.map Int.toNat = w'.map Int.toNat) :
    w = w' := by
  have back : ∀ w : List Int, Reduced w → (w.map Int.toNat).map Int.ofNat = w := by
    intro w reduced
    rw [List.map_map]
    apply (List.map_congr_left _).trans (List.map_id w)
    intro c inside
    exact Int.toNat_of_nonneg (reduced c inside).1
  rw [← back w reduced, ← back w' reduced', same]

theorem expandPoly_injective {poly poly' : List Nat} (full : poly.length = n) (full' : poly'.length = n)
    (small : ∀ c ∈ poly, c < 1024) (small' : ∀ c ∈ poly', c < 1024) (same : expandPoly poly = expandPoly poly') : poly = poly' := by
  have shifted : ∀ poly : List Nat, (∀ c ∈ poly, c < 1024) →
      Reduced (poly.map fun c => ((c <<< d % q : Nat) : Int)) := by
    intro poly small c member
    obtain ⟨c', inside, rfl⟩ := List.mem_map.mp member
    have below := small c' inside
    rw [shifted_reduced below, q]
    omega
  have lengths : ∀ poly : List Nat, poly.length = n →
      ((ntt (poly.map fun c => ((c <<< d % q : Nat) : Int))).map Int.toNat).length = n := by
    intro poly full
    rw [List.length_map, ntt_length, List.length_map, full]
  have words := pack_injective (lengths poly full) (lengths poly' full') (toNat_lt (ntt_reduced _)) (toNat_lt (ntt_reduced _)) same
  have transforms := toNat_injective (ntt_reduced _) (ntt_reduced _) words
  have shifts := ntt_injective (by rwa [List.length_map]) (by rwa [List.length_map]) (shifted poly small) (shifted poly' small') transforms
  apply List.ext_getElem (full.trans full'.symm)
  intro p inside inside'
  have entries := congrArg (·[p]?) shifts
  rw [List.getElem?_map, List.getElem?_map, List.getElem?_eq_getElem inside, List.getElem?_eq_getElem inside', Option.map_some,
    Option.map_some, Option.some.injEq, shifted_reduced (small _ (List.getElem_mem inside)),
    shifted_reduced (small' _ (List.getElem_mem inside'))] at entries
  omega

theorem t1Poly_length (publicKey : List UInt8) (i : Nat) : (t1Poly publicKey i).length = n := by
  rw [t1Poly, List.length_map, List.length_range]

theorem t1Poly_small (publicKey : List UInt8) (i : Nat) : ∀ c ∈ t1Poly publicKey i, c < 1024 := by
  intro c member
  obtain ⟨f, -, rfl⟩ := List.mem_map.mp member
  exact Nat.lt_of_le_of_lt Nat.and_le_right (by norm_num)

theorem expandPublicKey_ok {shake : Shake} {fuel : Nat} {publicKey : List UInt8} {expanded : Expanded}
    (made : expandPublicKey shake fuel publicKey = .ok expanded) :
    publicKey.length = publicKeyBytes ∧ expanded.t1Hat = (decodeT1 publicKey).map expandPoly := by
  rw [expandPublicKey, trOf, checkLength] at made
  split at made
  · cases made
  · rename_i full
    cases made
    exact ⟨not_not.mp full, rfl⟩

theorem expansion_determines {shake shake' : Shake} {fuel fuel' : Nat} {publicKey publicKey' : List UInt8}
    {expanded expanded' : Expanded} (made : expandPublicKey shake fuel publicKey = .ok expanded)
    (made' : expandPublicKey shake' fuel' publicKey' = .ok expanded') (same : expanded.t1Hat = expanded'.t1Hat) :
    t1Part publicKey = t1Part publicKey' := by
  obtain ⟨full, t1Hat⟩ := expandPublicKey_ok made
  obtain ⟨full', t1Hat'⟩ := expandPublicKey_ok made'
  rw [t1Hat, t1Hat', decodeT1_eq, decodeT1_eq, List.map_map, List.map_map] at same
  apply t1Part_of_slices full full'
  intro i inside
  apply t1Poly_injective full full' inside
  have polys := List.map_inj_left.mp same i (List.mem_range.mpr inside)
  rw [Function.comp_apply, Function.comp_apply] at polys
  exact expandPoly_injective (t1Poly_length _ i) (t1Poly_length _ i) (t1Poly_small _ i) (t1Poly_small _ i) polys

open Polynomial in
theorem expansion_lossless :
    (∀ w : List Int, w.length = n → (ntt w).length = n ∧
      ∀ i < n, (ntt w).getD i 0 = valueAt w (zeta ^ (2 * bitrev8 i + 1) : Nat) % q) ∧
    (∀ u v w : List Int, u.length = n → v.length = n → w.length = n →
      (X ^ 256 + 1 : (ZMod q)[X]) ∣ polynomial w - polynomial u * polynomial v →
      ∀ i < n, (ntt w).getD i 0 = (ntt u).getD i 0 * (ntt v).getD i 0 % q) ∧
    (∀ u v : List Int, u.length = n → v.length = n → Reduced u → Reduced v → ntt u = ntt v → u = v) ∧
    (∀ publicKey publicKey' : List UInt8, publicKey.length = publicKeyBytes → publicKey'.length = publicKeyBytes →
      decodeT1 publicKey = decodeT1 publicKey' → t1Part publicKey = t1Part publicKey') ∧
    (∀ coefficients coefficients' : List Nat, coefficients.length = n → coefficients'.length = n →
      (∀ c ∈ coefficients, c < 2 ^ 32) → (∀ c ∈ coefficients', c < 2 ^ 32) → pack coefficients = pack coefficients' →
      coefficients = coefficients') ∧
    ∀ (shake : Shake) (fuel fuel' : Nat) (publicKey publicKey' : List UInt8) (expanded expanded' : Expanded),
      expandPublicKey shake fuel publicKey = .ok expanded → expandPublicKey shake fuel' publicKey' = .ok expanded' →
      t1Part publicKey ≠ t1Part publicKey' → expanded.t1Hat ≠ expanded'.t1Hat := by
  refine ⟨?_, ?_, ?_, ?_, ?_, ?_⟩
  · intro w full
    exact ⟨ntt_length.trans full, fun i inside => ntt_value full inside⟩
  · intro u v w u_full v_full w_full product i inside
    exact ntt_product u_full v_full w_full product inside
  · intro u v u_full v_full u_reduced v_reduced
    exact ntt_injective u_full v_full u_reduced v_reduced
  · intro publicKey publicKey' full full'
    exact decodeT1_injective full full'
  · intro coefficients coefficients' full full' small small'
    exact pack_injective full full' small small'
  · intro shake fuel fuel' publicKey publicKey' expanded expanded' made made' different same
    exact different (expansion_determines made made' same)

-- The polynomial `X` has the points themselves as its values.
theorem expansion_lossless_sample : (ntt (0 :: 1 :: List.replicate 254 0)).getD 3 0 =
    valueAt (0 :: 1 :: List.replicate 254 0) (zeta ^ (2 * bitrev8 3 + 1) : Nat) % q :=
  (expansion_lossless.1 _ (by rw [List.length_cons, List.length_cons, List.length_replicate, n])).2 3 (by norm_num [n])

end QVault.Proof.Chain.KeyExpansion
