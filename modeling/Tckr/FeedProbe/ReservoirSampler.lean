import Mathlib.Data.Nat.Choose.Basic
import Mathlib.Tactic.Ring
import Tckr.Core.Reservoir

/-!
# The reservoir

The probe keeps a bounded sample of what it measures. A draw is what `NextDouble` times
the number of samples seen comes to: a number below it. Over all such draws every set of
places in the stream is equally often the one that is kept, so a percentile of the sample
estimates that of the stream without a bias.
-/

namespace Tckr.FeedProbe

open Nat

/-- A bounded buffer of samples, and how many were offered. -/
structure ReservoirSampler (α : Type) where
  capacity : Nat
  buffer : List α := []
  seen : Nat := 0
  capacity_pos : 1 ≤ capacity
  buffer_le : buffer.length ≤ capacity

namespace ReservoirSampler

variable {α β : Type}

/-- An empty reservoir. -/
def create (capacity : Nat) (h : 1 ≤ capacity) : ReservoirSampler α where
  capacity
  capacity_pos := h
  buffer_le := Nat.zero_le _

/-- Keep a sample while there is room; then put it in the slot drawn, if there is such a slot. What
is left are the draws not made. -/
def add (value : α) (s : ReservoirSampler α) (slots : List Nat) :
    Option (ReservoirSampler α × List Nat) :=
  if h : s.buffer.length < s.capacity then
    some ({ s with
      buffer := s.buffer ++ [value]
      seen := s.seen + 1
      buffer_le := by rw [List.length_append]; exact h }, slots)
  else match slots with
    | [] => none
    | slot :: slots =>
      some ({ s with
        buffer := if slot < s.capacity then s.buffer.set slot value else s.buffer
        seen := s.seen + 1
        buffer_le := by split <;> simp [s.buffer_le] }, slots)

/-- The samples of a stream, one after another. -/
def addAll : List α → ReservoirSampler α → List Nat → Option (ReservoirSampler α × List Nat)
  | [], s, slots => some (s, slots)
  | value :: values, s, slots => (s.add value slots).bind fun result =>
      addAll values result.1 result.2

/-- The samples kept. -/
def snapshot (s : ReservoirSampler α) : List α := s.buffer

/-- The draws behind a full buffer: each a number below the samples seen so far. -/
def draws (capacity : Nat) : Nat → Finset (List Nat)
  | 0 => {[]}
  | more + 1 => (draws capacity more ×ˢ Finset.range (capacity + more + 1)).map
      ⟨fun p => p.1 ++ [p.2], fun p q h => by
        obtain ⟨hinit, hlast⟩ := List.append_inj' h rfl
        exact Prod.ext hinit (List.singleton_inj.mp hlast)⟩

/-- The places a reservoir keeps of the first ones of a stream. -/
def kept (capacity : Nat) (h : 1 ≤ capacity) (places : Nat) (slots : List Nat) : List Nat :=
  ((addAll (List.range places) (create capacity h) slots).map fun result =>
    result.1.snapshot).getD []

/-! ## One sample -/

section Add

variable {s t : ReservoirSampler α} {value : α} {slots rest : List Nat}

/-- Draws to come change nothing. -/
theorem add_more (h : s.add value slots = some (t, rest)) (more : List Nat) :
    s.add value (slots ++ more) = some (t, rest ++ more) := by
  unfold add at h ⊢
  split at h
  · rename_i hroom
    simp only [Option.some.injEq, Prod.mk.injEq] at h
    obtain ⟨rfl, rfl⟩ := h
    rw [dif_pos hroom]
  · rename_i hfull
    rw [dif_neg hfull]
    cases slots with
    | nil => cases h
    | cons slot slots =>
      simp only [Option.some.injEq, Prod.mk.injEq] at h
      obtain ⟨rfl, rfl⟩ := h
      rfl

theorem addAll_more {values : List α} (h : addAll values s slots = some (t, rest))
    (more : List Nat) : addAll values s (slots ++ more) = some (t, rest ++ more) := by
  induction values generalizing s slots with
  | nil =>
    simp only [addAll, Option.some.injEq, Prod.mk.injEq] at h ⊢
    exact ⟨h.1, by rw [h.2]⟩
  | cons value values ih =>
    rw [addAll, Option.bind_eq_some_iff] at h
    obtain ⟨⟨u, between⟩, hu, h⟩ := h
    rw [addAll, add_more hu more, Option.bind_some]
    exact ih h

/-- A stream is sampled in parts. -/
theorem addAll_append {values more : List α} (h : addAll values s slots = some (t, rest)) :
    addAll (values ++ more) s slots = addAll more t rest := by
  induction values generalizing s slots with
  | nil =>
    simp only [addAll, Option.some.injEq, Prod.mk.injEq] at h
    obtain ⟨rfl, rfl⟩ := h
    rfl
  | cons value values ih =>
    rw [addAll, Option.bind_eq_some_iff] at h
    obtain ⟨⟨u, between⟩, hu, h⟩ := h
    rw [List.cons_append, addAll, hu, Option.bind_some]
    exact ih h

/-- A buffer with room keeps a sample. -/
theorem add_room (hroom : s.buffer.length < s.capacity) (value : α) (slots : List Nat) :
    ∃ t, s.add value slots = some (t, slots) ∧ t.buffer = s.buffer ++ [value] ∧
      t.seen = s.seen + 1 ∧ t.capacity = s.capacity := by
  rw [add.eq_def, dif_pos hroom]
  exact ⟨_, rfl, rfl, rfl, rfl⟩

/-- A full buffer puts a sample in the slot drawn. -/
theorem add_full (hfull : s.buffer.length = s.capacity) (value : α) (slot : Nat)
    (rest : List Nat) : ∃ t, s.add value (slot :: rest) = some (t, rest) ∧
      t.buffer = (if slot < s.capacity then s.buffer.set slot value else s.buffer) ∧
      t.seen = s.seen + 1 ∧ t.capacity = s.capacity := by
  rw [add.eq_def, dif_neg (by omega)]
  exact ⟨_, rfl, rfl, rfl, rfl⟩

/-- While there is room everything is kept. -/
theorem addAll_room {values : List α} (h : s.buffer.length + values.length ≤ s.capacity)
    (slots : List Nat) : ∃ t, addAll values s slots = some (t, slots) ∧
      t.buffer = s.buffer ++ values ∧ t.seen = s.seen + values.length ∧
      t.capacity = s.capacity := by
  induction values generalizing s with
  | nil => exact ⟨s, rfl, (List.append_nil _).symm, rfl, rfl⟩
  | cons value values ih =>
    rw [List.length_cons] at h
    have hroom : s.buffer.length < s.capacity := by omega
    obtain ⟨u, hu, hbuffer, hseen, hcapacity⟩ := add_room hroom value slots
    obtain ⟨t, ht, htbuffer, htseen, htcapacity⟩ :=
      @ih u (by rw [hbuffer, hcapacity, List.length_append, List.length_singleton]; omega)
    refine ⟨t, ?_, ?_, ?_, htcapacity.trans hcapacity⟩
    · rw [addAll, hu, Option.bind_some]
      exact ht
    · rw [htbuffer, hbuffer, List.append_assoc, List.singleton_append]
    · rw [htseen, hseen, List.length_cons]
      omega

end Add

/-! ## The places kept -/

section Places

variable {capacity : Nat} (h : 1 ≤ capacity)

/-- Behind every list of draws the buffer is full. -/
theorem exists_addAll {more : Nat} {slots : List Nat} (hslots : slots ∈ draws capacity more) :
    ∃ s, addAll (List.range (capacity + more)) (create capacity h) slots = some (s, []) ∧
      s.buffer.length = capacity ∧ s.seen = capacity + more ∧ s.capacity = capacity := by
  induction more generalizing slots with
  | zero =>
    obtain rfl := Finset.mem_singleton.mp hslots
    have hroom : (create capacity h : ReservoirSampler Nat).buffer.length +
        (List.range capacity).length ≤ capacity := by simp [create]
    obtain ⟨s, hs, hbuffer, hseen, hcapacity⟩ := addAll_room hroom []
    exact ⟨s, hs, by simp [hbuffer, create], by simp [hseen, create], hcapacity⟩
  | succ more ih =>
    obtain ⟨⟨before, slot⟩, hp, rfl⟩ := Finset.mem_map.mp hslots
    obtain ⟨s, hs, hlength, hseen, hcapacity⟩ := ih (Finset.mem_product.mp hp).1
    obtain ⟨t, ht, hbuffer, htseen, htcapacity⟩ := add_full (hlength.trans hcapacity.symm)
      (capacity + more) slot []
    refine ⟨t, ?_, ?_, ?_, htcapacity.trans hcapacity⟩
    · rw [← Nat.add_assoc, List.range_succ]
      refine (addAll_append (addAll_more hs [slot])).trans ?_
      rw [addAll, List.nil_append, ht]
      rfl
    · rw [hbuffer]
      split <;> simp [hlength]
    · rw [htseen, hseen, Nat.add_assoc]

/-- One more draw puts one more place in its slot. -/
theorem kept_succ {more : Nat} {slots : List Nat} (hslots : slots ∈ draws capacity more)
    (slot : Nat) : kept capacity h (capacity + more + 1) (slots ++ [slot]) =
      putAt (kept capacity h (capacity + more) slots) slot (capacity + more) := by
  obtain ⟨s, hs, hlength, -, hcapacity⟩ := exists_addAll h hslots
  obtain ⟨t, ht, hbuffer, -⟩ := add_full (hlength.trans hcapacity.symm)
    (capacity + more) slot []
  have hrun : addAll (List.range (capacity + more + 1)) (create capacity h) (slots ++ [slot]) =
      some (t, []) := by
    rw [List.range_succ]
    refine (addAll_append (addAll_more hs [slot])).trans ?_
    rw [addAll, List.nil_append, ht]
    rfl
  rw [kept, kept, hrun, hs]
  simp only [Option.map_some, Option.getD_some, snapshot, hbuffer, putAt, hlength, hcapacity]

/-- Every set of places is kept by equally many lists of draws. -/
theorem equallyLikely_kept (more : Nat) :
    EquallyLikely capacity (capacity + more) (draws capacity more)
      (kept capacity h (capacity + more)) more ! := by
  induction more with
  | zero =>
    have hroom : (create capacity h : ReservoirSampler Nat).buffer.length +
        (List.range capacity).length ≤ capacity := by simp [create]
    obtain ⟨s, hs, hbuffer, -⟩ := addAll_room hroom []
    refine EquallyLikely.start ?_
    rw [Nat.add_zero, kept, hs, Option.map_some, Option.getD_some, snapshot, hbuffer]
    rfl
  | succ more ih =>
    have hnext := ih.put h (Nat.le_add_right _ _)
    have hways : capacity + more + 1 - capacity = more + 1 := by omega
    rw [hways, ← Nat.factorial_succ] at hnext
    exact hnext.map _ fun p hp => kept_succ h (Finset.mem_product.mp hp).1 p.2

/-- The number of lists of draws. -/
theorem card_draws (capacity more : Nat) :
    (draws capacity more).card * capacity ! = (capacity + more)! := by
  induction more with
  | zero => simp [draws]
  | succ more ih =>
    rw [draws, Finset.card_map, Finset.card_product, Finset.card_range, Nat.mul_right_comm, ih,
      ← Nat.add_assoc, Nat.factorial_succ, Nat.mul_comm]

/-- What a reservoir keeps are the samples at the places it would keep. -/
theorem addAll_map (f : α → β) {s : ReservoirSampler α} (s' : ReservoirSampler β)
    (hcapacity : s'.capacity = s.capacity) (hseen : s'.seen = s.seen)
    (hbuffer : s'.buffer = s.buffer.map f) {values : List α} {slots rest : List Nat}
    {t : ReservoirSampler α} (ht : addAll values s slots = some (t, rest)) :
    ∃ t', addAll (values.map f) s' slots = some (t', rest) ∧ t'.buffer = t.buffer.map f ∧
      t'.seen = t.seen := by
  induction values generalizing s s' slots with
  | nil =>
    simp only [addAll, Option.some.injEq, Prod.mk.injEq] at ht
    obtain ⟨rfl, rfl⟩ := ht
    exact ⟨s', rfl, hbuffer, hseen⟩
  | cons value values ih =>
    rw [addAll, Option.bind_eq_some_iff] at ht
    obtain ⟨⟨u, between⟩, hu, ht⟩ := ht
    have hlength : s'.buffer.length = s.buffer.length := by rw [hbuffer, List.length_map]
    obtain ⟨u', hu', hbuffer', hseen', hcapacity'⟩ : ∃ u' : ReservoirSampler β,
        s'.add (f value) slots = some (u', between) ∧ u'.buffer = u.buffer.map f ∧
          u'.seen = u.seen ∧ u'.capacity = u.capacity := by
      by_cases hroom : s.buffer.length < s.capacity
      · obtain ⟨v, hv, hvbuffer, hvseen, hvcapacity⟩ := add_room hroom value slots
        obtain ⟨v', hv', hvbuffer', hvseen', hvcapacity'⟩ :=
          add_room (by omega : s'.buffer.length < s'.capacity) (f value) slots
        rw [hv, Option.some.injEq, Prod.mk.injEq] at hu
        obtain ⟨rfl, rfl⟩ := hu
        exact ⟨v', hv', by simp [hvbuffer', hvbuffer, hbuffer], by omega, by omega⟩
      · have hfull : s.buffer.length = s.capacity := le_antisymm s.buffer_le (not_lt.mp hroom)
        cases slots with
        | nil =>
          rw [add.eq_def, dif_neg hroom] at hu
          cases hu
        | cons slot slots =>
          obtain ⟨v, hv, hvbuffer, hvseen, hvcapacity⟩ := add_full hfull value slot slots
          obtain ⟨v', hv', hvbuffer', hvseen', hvcapacity'⟩ :=
            add_full (by omega : s'.buffer.length = s'.capacity) (f value) slot slots
          rw [hv, Option.some.injEq, Prod.mk.injEq] at hu
          obtain ⟨rfl, rfl⟩ := hu
          refine ⟨v', hv', ?_, by omega, by omega⟩
          rw [hvbuffer', hvbuffer, hcapacity, hbuffer]
          split <;> simp [List.map_set]
    rw [List.map_cons, addAll, hu', Option.bind_some]
    exact ih u' hcapacity' hseen' hbuffer' ht

end Places

/-- A reservoir keeps a short stream as it is. Of a longer one, over all lists of draws, it keeps
the samples at a set of places, each set of the size of the buffer equally often. -/
theorem snapshot_equally_likely {capacity : Nat} (h : 1 ≤ capacity) (values : List α) :
    (values.length ≤ capacity → ∃ s, addAll values (create capacity h) [] = some (s, []) ∧
      s.snapshot = values) ∧
    (capacity ≤ values.length →
      (∀ slots ∈ draws capacity (values.length - capacity), ∃ s,
        addAll values (create capacity h) slots = some (s, []) ∧ s.seen = values.length ∧
        s.snapshot.map some = (kept capacity h values.length slots).map (values[·]?)) ∧
      ∀ T ∈ (Finset.range values.length).powersetCard capacity,
        ((draws capacity (values.length - capacity)).filter fun slots =>
            (kept capacity h values.length slots).toFinset = T).card *
          values.length.choose capacity = (draws capacity (values.length - capacity)).card) := by
  refine ⟨fun hshort => ?_, fun hlong => ?_⟩
  · have hroom : (create capacity h : ReservoirSampler α).buffer.length + values.length ≤
        capacity := by simpa [create] using hshort
    obtain ⟨s, hs, hbuffer, -⟩ := addAll_room hroom []
    exact ⟨s, hs, by rw [snapshot, hbuffer]; rfl⟩
  · have hlength : capacity + (values.length - capacity) = values.length := by omega
    have hlikely := equallyLikely_kept h (values.length - capacity)
    rw [hlength] at hlikely
    refine ⟨fun slots hslots => ?_, fun T hT => ?_⟩
    · obtain ⟨s, hs, -, hseen, -⟩ := exists_addAll h hslots
      rw [hlength] at hs hseen
      have hne : values ≠ [] := List.length_pos_iff.mp (by omega)
      have hstream : (List.range values.length).map (fun i => values.getD i (values.head hne)) =
          values := by
        refine List.ext_getElem (by simp) fun i hi _ => ?_
        simp only [List.length_map, List.length_range] at hi
        simp [hi]
      obtain ⟨t, ht, hbuffer, htseen⟩ := addAll_map
        (fun i => values.getD i (values.head hne)) (create capacity h) rfl rfl rfl hs
      rw [hstream] at ht
      refine ⟨t, ht, htseen.trans hseen, ?_⟩
      have hkept : kept capacity h values.length slots = s.buffer := by
        rw [kept, hs]
        rfl
      rw [snapshot, hbuffer, hkept, List.map_map]
      refine List.map_congr_left fun i hi => ?_
      have hlt := hlikely.lt slots hslots i (hkept ▸ hi)
      simp [hlt]
    · rw [hlikely.count T hT]
      have hcard := card_draws capacity (values.length - capacity)
      rw [hlength, ← Nat.choose_mul_factorial_mul_factorial hlong] at hcard
      refine Nat.eq_of_mul_eq_mul_right (Nat.factorial_pos capacity) ?_
      rw [hcard]
      ring

/-- Of four samples two are kept, each of the six pairs by two of the twelve lists of draws. -/
theorem snapshot_equally_likely_four : (draws 2 2).card = 12 ∧
    ((addAll [100, 200, 300, 400] (create 2 (by decide)) [0, 3]).map fun result =>
      result.1.snapshot) = some [300, 200] ∧
    ∀ T ∈ (Finset.range 4).powersetCard 2, ((draws 2 2).filter fun slots =>
      (kept 2 (by decide) 4 slots).toFinset = T).card * 6 = (draws 2 2).card :=
  ⟨by decide +kernel, by decide +kernel,
    ((snapshot_equally_likely (by decide : 1 ≤ 2) [100, 200, 300, 400]).2 (by decide)).2⟩

end ReservoirSampler

end Tckr.FeedProbe
