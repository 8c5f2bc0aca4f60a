import Mathlib.Algebra.BigOperators.Group.Finset.Sigma
import Mathlib.Data.Finset.Powerset
import Mathlib.Data.List.GetD
import Mathlib.Order.Interval.Finset.Nat

/-!
# Equally likely samples

A sample keeps some of the places of a stream, in the slots of a buffer. Where every set
of that many places is kept by equally many histories, and the next place goes to a slot
drawn among as many numbers as there are places, if there is such a slot, then every set is
again kept by equally many.
-/

namespace Tckr

universe u v

/-- Every set of so many places out of the first ones is kept by equally many histories. -/
structure EquallyLikely {ι : Type u} (capacity places : Nat) (histories : Finset ι)
    (kept : ι → List Nat) (each : Nat) : Prop where
  length : ∀ h ∈ histories, (kept h).length = capacity
  nodup : ∀ h ∈ histories, (kept h).Nodup
  lt : ∀ h ∈ histories, ∀ x ∈ kept h, x < places
  count : ∀ T ∈ (Finset.range places).powersetCard capacity,
    (histories.filter fun h => (kept h).toFinset = T).card = each

/-- Put a place in a slot, if there is such a slot. -/
def putAt (kept : List Nat) (slot place : Nat) : List Nat :=
  if slot < kept.length then kept.set slot place else kept

section PutAt

variable {kept : List Nat} {slot place : Nat}

@[simp] theorem putAt_length : (putAt kept slot place).length = kept.length := by
  unfold putAt
  split
  · exact List.length_set
  · rfl

/-- A place in a slot takes the place of what was there. -/
theorem toFinset_set (hnodup : kept.Nodup) (hslot : slot < kept.length) :
    (kept.set slot place).toFinset = insert place (kept.toFinset.erase kept[slot]) := by
  ext x
  simp only [List.mem_toFinset, Finset.mem_insert, Finset.mem_erase]
  constructor
  · intro hx
    obtain ⟨i, hi, rfl⟩ := List.mem_iff_getElem.mp hx
    rw [List.length_set] at hi
    rw [List.getElem_set]
    split
    · exact .inl rfl
    · rename_i hne
      exact .inr ⟨fun heq => hne ((hnodup.getElem_inj_iff).mp heq).symm, List.getElem_mem hi⟩
  · rintro (rfl | ⟨hne, hx⟩)
    · exact List.mem_set hslot x
    · obtain ⟨i, hi, rfl⟩ := List.mem_iff_getElem.mp hx
      have hother : slot ≠ i := fun heq => hne (by subst heq; rfl)
      have hkept : (kept.set slot place)[i]? = some kept[i] := by
        rw [List.getElem?_set_ne hother, List.getElem?_eq_getElem hi]
      exact List.mem_of_getElem? hkept

theorem putAt_nodup (hnodup : kept.Nodup) (hnew : place ∉ kept) :
    (putAt kept slot place).Nodup := by
  unfold putAt
  split
  · exact hnodup.set hnew
  · exact hnodup

theorem mem_of_mem_putAt {x : Nat} (h : x ∈ putAt kept slot place) : x ∈ kept ∨ x = place := by
  unfold putAt at h
  split at h
  · exact List.mem_or_eq_of_mem_set h
  · exact .inl h

/-- A place is kept where its slot exists. -/
theorem mem_putAt_iff (hnew : place ∉ kept) :
    place ∈ putAt kept slot place ↔ slot < kept.length := by
  unfold putAt
  split
  · rename_i hslot
    exact iff_of_true (List.mem_set hslot place) hslot
  · rename_i hslot
    exact iff_of_false hnew hslot

end PutAt

namespace EquallyLikely

variable {ι : Type u} {capacity places each : Nat} {histories : Finset ι} {kept : ι → List Nat}

/-- The histories of a sample without the new place: those of the sample, with a number beyond
the slots. -/
theorem filter_old (h : EquallyLikely capacity places histories kept each) {T : Finset Nat}
    (hnew : places ∉ T) :
    ((histories ×ˢ Finset.range (places + 1)).filter fun p =>
        (putAt (kept p.1) p.2 places).toFinset = T) =
      (histories.filter fun i => (kept i).toFinset = T) ×ˢ
        Finset.Ico capacity (places + 1) := by
  ext ⟨i, slot⟩
  simp only [Finset.mem_filter, Finset.mem_product, Finset.mem_range, Finset.mem_Ico]
  constructor
  · rintro ⟨⟨hi, hslot⟩, hT⟩
    have hfresh : places ∉ kept i := fun hmem => absurd (h.lt i hi _ hmem) (Nat.lt_irrefl _)
    have hbeyond : ¬ slot < (kept i).length := fun hlt =>
      hnew (hT ▸ List.mem_toFinset.mpr ((mem_putAt_iff hfresh).mpr hlt))
    rw [putAt, if_neg hbeyond] at hT
    rw [h.length i hi] at hbeyond
    exact ⟨⟨hi, hT⟩, Nat.not_lt.mp hbeyond, hslot⟩
  · rintro ⟨⟨hi, hT⟩, hbeyond, hslot⟩
    refine ⟨⟨hi, hslot⟩, ?_⟩
    rw [putAt, if_neg (by rw [h.length i hi]; omega)]
    exact hT

/-- Where the new place is kept, the sample was that of the others and of the place it
replaced. -/
theorem putAt_eq_iff (h : EquallyLikely capacity places histories kept each) {T : Finset Nat}
    (hnew : places ∈ T) {i : ι} (hi : i ∈ histories) {slot : Nat} (hslot : slot < capacity) :
    (putAt (kept i) slot places).toFinset = T ↔
      (kept i).toFinset = insert ((kept i).getD slot 0) (T.erase places) ∧
        (kept i).getD slot 0 ∉ T := by
  have hlength := h.length i hi
  have hslot : slot < (kept i).length := by omega
  have hget : (kept i).getD slot 0 = (kept i)[slot] := List.getD_eq_getElem _ _ hslot
  have hmem : (kept i)[slot] ∈ (kept i).toFinset := List.mem_toFinset.mpr (List.getElem_mem hslot)
  have hlt := h.lt i hi _ (List.getElem_mem hslot)
  have hfresh : places ∉ (kept i).toFinset := fun hmem =>
    absurd (h.lt i hi _ (List.mem_toFinset.mp hmem)) (Nat.lt_irrefl _)
  rw [putAt, if_pos hslot, toFinset_set (h.nodup i hi) hslot, hget]
  constructor
  · rintro rfl
    rw [Finset.erase_insert (fun hin => hfresh (Finset.mem_of_mem_erase hin)),
      Finset.insert_erase hmem]
    refine ⟨rfl, fun hin => ?_⟩
    rcases Finset.mem_insert.mp hin with heq | hin
    · omega
    · exact absurd rfl (Finset.ne_of_mem_erase hin)
  · rintro ⟨hkept, hout⟩
    rw [hkept, Finset.erase_insert (fun hin => hout (Finset.mem_of_mem_erase hin)),
      Finset.insert_erase hnew]

/-- The histories of a sample with the new place: for every place it may have replaced, those of
the sample with that one in its stead. -/
theorem card_filter_new (h : EquallyLikely capacity places histories kept each)
    (hplaces : capacity ≤ places) {T : Finset Nat} (hnew : places ∈ T) :
    ((histories ×ˢ Finset.range (places + 1)).filter fun p =>
        (putAt (kept p.1) p.2 places).toFinset = T).card =
      (((Finset.range places) \ T).sigma fun x =>
        histories.filter fun i => (kept i).toFinset = insert x (T.erase places)).card := by
  have hslot {i : ι} {slot : Nat} (hi : i ∈ histories)
      (hT : (putAt (kept i) slot places).toFinset = T) : slot < capacity := by
    by_contra hbeyond
    rw [putAt, if_neg (by rw [h.length i hi]; omega)] at hT
    rw [← hT, List.mem_toFinset] at hnew
    exact absurd (h.lt i hi _ hnew) (Nat.lt_irrefl _)
  refine Finset.card_nbij' (fun p => ⟨(kept p.1).getD p.2 0, p.1⟩)
    (fun q => (q.2, (kept q.2).idxOf q.1)) ?_ ?_ ?_ ?_
  · rintro ⟨i, slot⟩ hp
    simp only [Finset.coe_filter, Finset.mem_product, Finset.mem_range, Set.mem_ofPred_eq] at hp
    obtain ⟨⟨hi, -⟩, hT⟩ := hp
    have hlt := hslot hi hT
    obtain ⟨hkept, hout⟩ := (h.putAt_eq_iff hnew hi hlt).mp hT
    have hplace : (kept i).getD slot 0 < places := by
      rw [List.getD_eq_getElem _ _ (by rw [h.length i hi]; exact hlt)]
      exact h.lt i hi _ (List.getElem_mem _)
    simp only [Finset.coe_sigma, Set.mem_sigma_iff, Finset.coe_sdiff, Finset.coe_range,
      Set.mem_sdiff, Set.mem_Iio, Finset.mem_coe, Finset.mem_filter]
    exact ⟨⟨hplace, hout⟩, hi, hkept⟩
  · rintro ⟨x, i⟩ hq
    simp only [Finset.coe_sigma, Set.mem_sigma_iff, Finset.coe_sdiff, Finset.coe_range,
      Set.mem_sdiff, Set.mem_Iio, Finset.mem_coe, Finset.mem_filter] at hq
    obtain ⟨⟨hx, hout⟩, hi, hkept⟩ := hq
    have hmem : x ∈ kept i := List.mem_toFinset.mp (hkept ▸ Finset.mem_insert_self _ _)
    have hlt : (kept i).idxOf x < capacity := h.length i hi ▸ List.idxOf_lt_length_of_mem hmem
    have hget : (kept i).getD ((kept i).idxOf x) 0 = x := by
      rw [List.getD_eq_getElem _ _ (List.idxOf_lt_length_of_mem hmem), List.getElem_idxOf]
    simp only [Finset.coe_filter, Finset.mem_product, Finset.mem_range, Set.mem_ofPred_eq]
    refine ⟨⟨hi, by omega⟩, (h.putAt_eq_iff hnew hi hlt).mpr ?_⟩
    rw [hget]
    exact ⟨hkept, hout⟩
  · rintro ⟨i, slot⟩ hp
    simp only [Finset.coe_filter, Finset.mem_product, Finset.mem_range, Set.mem_ofPred_eq] at hp
    obtain ⟨⟨hi, -⟩, hT⟩ := hp
    have hlt : slot < (kept i).length := h.length i hi ▸ hslot hi hT
    simp only [List.getD_eq_getElem _ _ hlt, Prod.mk.injEq, true_and]
    exact (h.nodup i hi).idxOf_getElem slot hlt
  · rintro ⟨x, i⟩ hq
    simp only [Finset.coe_sigma, Set.mem_sigma_iff, Finset.coe_sdiff, Finset.coe_range,
      Set.mem_sdiff, Set.mem_Iio, Finset.mem_coe, Finset.mem_filter] at hq
    obtain ⟨-, hi, hkept⟩ := hq
    have hmem : x ∈ kept i := List.mem_toFinset.mp (hkept ▸ Finset.mem_insert_self _ _)
    simp only [List.getD_eq_getElem _ _ (List.idxOf_lt_length_of_mem hmem), List.getElem_idxOf]

/-- The next place is kept as likely as any other. -/
theorem put (h : EquallyLikely capacity places histories kept each) (hcapacity : 1 ≤ capacity)
    (hplaces : capacity ≤ places) :
    EquallyLikely capacity (places + 1) (histories ×ˢ Finset.range (places + 1))
      (fun p => putAt (kept p.1) p.2 places) ((places + 1 - capacity) * each) where
  length p hp := by
    rw [putAt_length]
    exact h.length p.1 (Finset.mem_product.mp hp).1
  nodup p hp := by
    have hi := (Finset.mem_product.mp hp).1
    exact putAt_nodup (h.nodup p.1 hi) fun hmem => absurd (h.lt p.1 hi _ hmem) (Nat.lt_irrefl _)
  lt p hp x hx := by
    have hi := (Finset.mem_product.mp hp).1
    rcases mem_of_mem_putAt hx with hx | rfl
    · exact (h.lt p.1 hi x hx).trans (Nat.lt_succ_self _)
    · exact Nat.lt_succ_self _
  count T hT := by
    obtain ⟨hsub, hcard⟩ := Finset.mem_powersetCard.mp hT
    have hrange : T.erase places ⊆ Finset.range places := fun x hx => by
      obtain ⟨hne, hx⟩ := Finset.mem_erase.mp hx
      have hlt := Finset.mem_range.mp (hsub hx)
      exact Finset.mem_range.mpr (by omega)
    by_cases hnew : places ∈ T
    · have hsize : (T.erase places).card = capacity - 1 := by
        rw [Finset.card_erase_of_mem hnew, hcard]
      have houtside : (Finset.range places \ T).card = places + 1 - capacity := by
        have hsplit : Finset.range places \ T = Finset.range places \ T.erase places := by
          ext x
          simp only [Finset.mem_sdiff, Finset.mem_range, Finset.mem_erase, and_congr_right_iff,
            not_and]
          exact fun hx => ⟨fun hout _ => hout, fun hout => hout hx.ne⟩
        rw [hsplit, Finset.card_sdiff_of_subset hrange, Finset.card_range, hsize]
        omega
      rw [h.card_filter_new hplaces hnew, Finset.card_sigma, ← houtside]
      refine Finset.sum_const_nat fun x hx => h.count _ ?_
      obtain ⟨hx, hout⟩ := Finset.mem_sdiff.mp hx
      refine Finset.mem_powersetCard.mpr ⟨Finset.insert_subset hx hrange, ?_⟩
      rw [Finset.card_insert_of_notMem fun hin => hout (Finset.mem_of_mem_erase hin), hsize]
      omega
    · rw [h.filter_old hnew, Finset.card_product, Nat.card_Ico, Nat.mul_comm]
      rw [Finset.erase_eq_of_notMem hnew] at hrange
      rw [h.count T (Finset.mem_powersetCard.mpr ⟨hrange, hcard⟩)]

/-- A buffer that has just been filled keeps the one set there is. -/
theorem start {h : ι} (hkept : kept h = List.range capacity) :
    EquallyLikely capacity capacity {h} kept 1 where
  length i hi := by
    rw [Finset.mem_singleton.mp hi, hkept, List.length_range]
  nodup i hi := by
    rw [Finset.mem_singleton.mp hi, hkept]
    exact List.nodup_range
  lt i hi x hx := by
    rw [Finset.mem_singleton.mp hi, hkept] at hx
    exact List.mem_range.mp hx
  count T hT := by
    obtain ⟨hsub, hcard⟩ := Finset.mem_powersetCard.mp hT
    have hall : T = Finset.range capacity :=
      Finset.eq_of_subset_of_card_le hsub (by rw [hcard, Finset.card_range])
    have hset : (kept h).toFinset = T := by
      rw [hkept, hall]
      ext x
      simp
    rw [Finset.filter_singleton, if_pos hset, Finset.card_singleton]

/-- Histories by another name keep what they kept. -/
theorem map {κ : Type v} (h : EquallyLikely capacity places histories kept each) (e : ι ↪ κ)
    {kept' : κ → List Nat} (hkept : ∀ i ∈ histories, kept' (e i) = kept i) :
    EquallyLikely capacity places (histories.map e) kept' each where
  length j hj := by
    obtain ⟨i, hi, rfl⟩ := Finset.mem_map.mp hj
    rw [hkept i hi]
    exact h.length i hi
  nodup j hj := by
    obtain ⟨i, hi, rfl⟩ := Finset.mem_map.mp hj
    rw [hkept i hi]
    exact h.nodup i hi
  lt j hj := by
    obtain ⟨i, hi, rfl⟩ := Finset.mem_map.mp hj
    rw [hkept i hi]
    exact h.lt i hi
  count T hT := by
    rw [Finset.filter_map, Finset.card_map, ← h.count T hT]
    congr 1
    refine Finset.filter_congr fun i hi => ?_
    rw [Function.comp_apply, hkept i hi]

end EquallyLikely

end Tckr
