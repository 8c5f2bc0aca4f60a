import Mathlib.Data.List.Basic

/-!
# Maps that change while they are walked

A map keeps its entries in the places where they were put. A removed entry leaves its
place empty and a new key takes a new place at the end, so a walk over the map is a
position: it meets the entries that are still there when it comes to them, those that
were added on the way included. What holds of the entries a walk has passed, and of all
that are added, holds of every entry once the walk has come to the end.
-/

namespace Tckr

universe u v

variable {κ : Type u} {ν : Type v}

/-- Entries of distinct keys, in their places. -/
structure LiveMap (κ : Type u) (ν : Type v) where
  slots : List (Option (κ × ν))
  distinct : ∀ {i j : Nat} {k : κ} {v w : ν}, slots[i]? = some (some (k, v)) →
    slots[j]? = some (some (k, w)) → i = j

namespace LiveMap

/-- The entry in a place. -/
def At (m : LiveMap κ ν) (i : Nat) (k : κ) (v : ν) : Prop := m.slots[i]? = some (some (k, v))

/-- An entry of the map. -/
def Has (m : LiveMap κ ν) (k : κ) (v : ν) : Prop := ∃ i, m.At i k v

/-- A walk that has come to a position has met the property in every entry it passed. -/
def Passed (m : LiveMap κ ν) (i : Nat) (P : κ → ν → Prop) : Prop :=
  ∀ x k v, x < i → m.At x k v → P k v

def empty : LiveMap κ ν where
  slots := []
  distinct h := by
    rw [List.getElem?_nil] at h
    cases h

instance : Inhabited (LiveMap κ ν) := ⟨empty⟩

def isEmpty (m : LiveMap κ ν) : Bool := m.slots.all Option.isNone

/-- The first entry of the places from a position on, with the position after it. -/
def scan : Nat → List (Option (κ × ν)) → Option (Nat × κ × ν)
  | _, [] => none
  | i, some (k, v) :: _ => some (i + 1, k, v)
  | i, none :: slots => scan (i + 1) slots

/-- One step of a walk. -/
def next (m : LiveMap κ ν) (i : Nat) : Option (Nat × κ × ν) := scan i (m.slots.drop i)

section

variable [DecidableEq κ]

/-- The value of the entry of a key. -/
def valueIn (k : κ) : Option (κ × ν) → Option ν
  | some (l, v) => if l = k then some v else none
  | none => none

def get? (m : LiveMap κ ν) (k : κ) : Option ν := m.slots.findSome? (valueIn k)

/-- The place of a key is emptied. -/
def emptied (k : κ) : Option (κ × ν) → Option (κ × ν)
  | some (l, v) => if l = k then none else some (l, v)
  | none => none

/-- The value in the place of a key is replaced. -/
def replaced (k : κ) (v : ν) : Option (κ × ν) → Option (κ × ν)
  | some (l, w) => if l = k then some (l, v) else some (l, w)
  | none => none

theorem emptied_eq_some {k l : κ} {v : ν} {slot : Option (κ × ν)} :
    emptied k slot = some (l, v) ↔ l ≠ k ∧ slot = some (l, v) := by
  cases slot with
  | none => simp only [emptied, reduceCtorEq, and_false]
  | some entry =>
    obtain ⟨l', v'⟩ := entry
    rw [emptied]
    split_ifs with heq
    · simp only [Option.some.injEq, Prod.mk.injEq, false_iff, not_and]
      rintro hne rfl
      exact absurd heq hne
    · simp only [Option.some.injEq, Prod.mk.injEq, iff_and_self, and_imp]
      rintro rfl -
      exact heq

theorem replaced_eq_some {k l : κ} {v w : ν} {slot : Option (κ × ν)} :
    replaced k v slot = some (l, w) ↔
      l = k ∧ w = v ∧ (∃ u, slot = some (l, u)) ∨ l ≠ k ∧ slot = some (l, w) := by
  cases slot with
  | none => simp only [replaced, reduceCtorEq, exists_false, and_false, or_self]
  | some entry =>
    obtain ⟨l', v'⟩ := entry
    rw [replaced]
    split_ifs with heq
    · simp only [Option.some.injEq, Prod.mk.injEq]
      grind
    · simp only [Option.some.injEq, Prod.mk.injEq]
      grind

/-- The elements of a list with one more at the end. -/
theorem getElem?_concat_eq_some {α : Type u} {l : List α} {a b : α} {i : Nat} :
    (l ++ [a])[i]? = some b ↔ l[i]? = some b ∨ i = l.length ∧ a = b := by
  rcases Nat.lt_or_ge i l.length with hlt | hge
  · have hne : i ≠ l.length := Nat.ne_of_lt hlt
    rw [List.getElem?_append_left hlt]
    simp only [hne, false_and, or_false]
  · rw [List.getElem?_append_right hge, List.getElem?_singleton, List.getElem?_eq_none hge]
    by_cases hlast : i = l.length
    · rw [if_pos (by omega)]
      simp only [hlast, true_and, Option.some.injEq, reduceCtorEq, false_or]
    · rw [if_neg (by omega)]
      simp only [hlast, false_and, reduceCtorEq, or_false]

/-- Remove the entry of a key. -/
def delete (m : LiveMap κ ν) (k : κ) : LiveMap κ ν where
  slots := m.slots.map (emptied k)
  distinct {i j l v w} hi hj := by
    simp only [List.getElem?_map, Option.map_eq_some_iff, emptied_eq_some] at hi hj
    obtain ⟨slot, hslot, -, rfl⟩ := hi
    obtain ⟨slot', hslot', -, rfl⟩ := hj
    exact m.distinct hslot hslot'

/-- Overwrite the value of a key in its place. -/
def overwrite (m : LiveMap κ ν) (k : κ) (v : ν) : LiveMap κ ν where
  slots := m.slots.map (replaced k v)
  distinct {i j l w w'} hi hj := by
    simp only [List.getElem?_map, Option.map_eq_some_iff, replaced_eq_some] at hi hj
    obtain ⟨slot, hslot, ⟨-, -, u, rfl⟩ | ⟨-, rfl⟩⟩ := hi
    all_goals
      obtain ⟨slot', hslot', ⟨-, -, u', rfl⟩ | ⟨-, rfl⟩⟩ := hj
      all_goals exact m.distinct hslot hslot'

theorem at_delete {m : LiveMap κ ν} {i : Nat} {k l : κ} {v : ν} :
    (m.delete k).At i l v ↔ l ≠ k ∧ m.At i l v := by
  simp only [At, delete, List.getElem?_map, Option.map_eq_some_iff, emptied_eq_some]
  constructor
  · rintro ⟨slot, hslot, hne, rfl⟩
    exact ⟨hne, hslot⟩
  · rintro ⟨hne, hslot⟩
    exact ⟨_, hslot, hne, rfl⟩

theorem at_overwrite {m : LiveMap κ ν} {i : Nat} {k l : κ} {v w : ν} :
    (m.overwrite k v).At i l w ↔ l = k ∧ w = v ∧ (∃ u, m.At i l u) ∨ l ≠ k ∧ m.At i l w := by
  simp only [At, overwrite, List.getElem?_map, Option.map_eq_some_iff, replaced_eq_some]
  constructor
  · rintro ⟨slot, hslot, ⟨rfl, rfl, u, rfl⟩ | ⟨hne, rfl⟩⟩
    · exact .inl ⟨rfl, rfl, u, hslot⟩
    · exact .inr ⟨hne, hslot⟩
  · rintro (⟨rfl, rfl, u, hslot⟩ | ⟨hne, hslot⟩)
    · exact ⟨_, hslot, .inl ⟨rfl, rfl, u, rfl⟩⟩
    · exact ⟨_, hslot, .inr ⟨hne, rfl⟩⟩

/-- The value of a key is the one of its entry. -/
theorem get?_eq_some_iff {m : LiveMap κ ν} {k : κ} {v : ν} : m.get? k = some v ↔ m.Has k v := by
  have hvalue (slot : Option (κ × ν)) (w : ν) :
      valueIn k slot = some w ↔ slot = some (k, w) := by
    cases slot with
    | none => simp only [valueIn, reduceCtorEq]
    | some entry =>
      obtain ⟨l, u⟩ := entry
      rw [valueIn]
      split_ifs with heq
      · simp only [heq, Option.some.injEq, Prod.mk.injEq, true_and]
      · simp only [Option.some.injEq, Prod.mk.injEq, heq, false_and]
  rw [get?]
  constructor
  · intro hfound
    obtain ⟨slot, hmem, hslot⟩ := List.exists_of_findSome?_eq_some hfound
    rw [hvalue] at hslot
    obtain ⟨i, hi⟩ := List.mem_iff_getElem?.mp hmem
    exact ⟨i, hi.trans (congrArg some hslot)⟩
  · rintro ⟨i, hi⟩
    cases hfound : m.slots.findSome? (valueIn k) with
    | none =>
      have hnone := List.findSome?_eq_none_iff.mp hfound _ (List.mem_of_getElem? hi)
      rw [(hvalue _ v).mpr rfl] at hnone
      cases hnone
    | some w =>
      obtain ⟨slot, hmem, hslot⟩ := List.exists_of_findSome?_eq_some hfound
      rw [hvalue] at hslot
      obtain ⟨j, hj⟩ := List.mem_iff_getElem?.mp hmem
      rw [hslot] at hj
      have hplace := m.distinct hi hj
      rw [hplace, At, hj] at hi
      exact congrArg some (Prod.mk.inj (Option.some.inj (Option.some.inj hi))).2

/-- Overwrite the value of a key, or put the key in a new place. -/
def set (m : LiveMap κ ν) (k : κ) (v : ν) : LiveMap κ ν :=
  if h : (m.get? k).isSome then m.overwrite k v
  else
    { slots := m.slots ++ [some (k, v)]
      distinct := by
        have habsent {i : Nat} {w : ν} (hi : m.slots[i]? = some (some (k, w))) : False :=
          h (Option.isSome_iff_exists.mpr ⟨w, get?_eq_some_iff.mpr ⟨i, hi⟩⟩)
        intro i j l w w' hi hj
        simp only [getElem?_concat_eq_some, Option.some.injEq, Prod.mk.injEq] at hi hj
        rcases hi with hi | ⟨hi, rfl, -⟩
        · rcases hj with hj | ⟨-, rfl, -⟩
          · exact m.distinct hi hj
          · exact (habsent hi).elim
        · rcases hj with hj | ⟨hj, -⟩
          · exact (habsent hj).elim
          · rw [hi, hj] }

theorem set_of_has {m : LiveMap κ ν} {k : κ} {u : ν} (h : m.Has k u) (v : ν) :
    m.set k v = m.overwrite k v :=
  dif_pos (Option.isSome_iff_exists.mpr ⟨u, get?_eq_some_iff.mpr h⟩)

/-- A new key takes the place after the last. -/
theorem at_set_of_absent {m : LiveMap κ ν} {i : Nat} {k l : κ} {v w : ν} (h : m.get? k = none) :
    (m.set k v).At i l w ↔ m.At i l w ∨ i = m.slots.length ∧ l = k ∧ w = v := by
  have habsent : ¬(m.get? k).isSome = true := by
    rw [h]
    exact Bool.false_ne_true
  rw [set, dif_neg habsent]
  simp only [At, getElem?_concat_eq_some, Option.some.injEq, Prod.mk.injEq, eq_comm (a := l),
    eq_comm (a := w)]

theorem has_delete {m : LiveMap κ ν} {k l : κ} {v : ν} :
    (m.delete k).Has l v ↔ l ≠ k ∧ m.Has l v := by
  simp only [Has, at_delete, exists_and_left]

theorem has_set_of_absent {m : LiveMap κ ν} {k l : κ} {v w : ν} (h : m.get? k = none) :
    (m.set k v).Has l w ↔ m.Has l w ∨ l = k ∧ w = v := by
  simp only [Has, at_set_of_absent h, exists_or]
  constructor
  · rintro (hplace | ⟨i, -, hkey⟩)
    · exact .inl hplace
    · exact .inr hkey
  · rintro (hplace | hkey)
    · exact .inl hplace
    · exact .inr ⟨m.slots.length, rfl, hkey⟩

/-- Keys keep their places. -/
theorem At.set {m : LiveMap κ ν} {i : Nat} {l : κ} {w : ν} (h : m.At i l w) (k : κ) (v : ν) :
    ∃ u, (m.set k v).At i l u := by
  cases hget : m.get? k with
  | none => exact ⟨w, (at_set_of_absent hget).mpr (.inl h)⟩
  | some u =>
    rw [set_of_has (get?_eq_some_iff.mp hget)]
    by_cases heq : l = k
    · exact ⟨v, at_overwrite.mpr (.inl ⟨heq, rfl, w, h⟩)⟩
    · exact ⟨w, at_overwrite.mpr (.inr ⟨heq, h⟩)⟩

/-- Two values of one key are the same. -/
theorem Has.unique {m : LiveMap κ ν} {k : κ} {v w : ν} (hv : m.Has k v) (hw : m.Has k w) :
    v = w := by
  rw [← get?_eq_some_iff] at hv hw
  exact Option.some.inj (hv.symm.trans hw)

/-- A key that is set has its new value, and every other key the one it had. -/
theorem get?_set (m : LiveMap κ ν) (k l : κ) (v : ν) :
    (m.set k v).get? l = if l = k then some v else m.get? l := by
  apply Option.ext
  intro w
  split_ifs with heq
  · subst heq
    rw [get?_eq_some_iff, Option.some.injEq]
    cases hget : m.get? l with
    | none =>
      have habsent : ¬m.Has l w := by simp [← get?_eq_some_iff, hget]
      simp [has_set_of_absent hget, habsent, eq_comm]
    | some u =>
      have hhas := get?_eq_some_iff.mp hget
      obtain ⟨i, hi⟩ := hhas
      rw [set_of_has ⟨i, hi⟩]
      simp only [Has, at_overwrite, true_and, ne_eq, not_true_eq_false, false_and, or_false]
      exact ⟨fun ⟨_, hw, _⟩ => hw.symm, fun hw => ⟨i, hw.symm, u, hi⟩⟩
  · rw [get?_eq_some_iff, get?_eq_some_iff]
    cases hget : m.get? k with
    | none => simp [has_set_of_absent hget, heq]
    | some u =>
      rw [set_of_has (get?_eq_some_iff.mp hget)]
      simp [Has, at_overwrite, heq]

end

/-! ## Walks -/

theorem isEmpty_iff {m : LiveMap κ ν} : m.isEmpty = true ↔ ∀ k v, ¬m.Has k v := by
  rw [isEmpty, List.all_eq_true]
  constructor
  · rintro hall k v ⟨i, hi⟩
    exact absurd (hall _ (List.mem_of_getElem? hi)) Bool.false_ne_true
  · intro hnone slot hmem
    obtain ⟨i, hi⟩ := List.mem_iff_getElem?.mp hmem
    cases slot with
    | none => rfl
    | some entry => exact (hnone entry.1 entry.2 ⟨i, hi⟩).elim

/-- A step of a walk leads past the next entry that is still there. -/
theorem scan_eq_some {slots : List (Option (κ × ν))} {i j : Nat} {k : κ} {v : ν}
    (h : scan i slots = some (j, k, v)) : ∃ n, j = i + n + 1 ∧ slots[n]? = some (some (k, v)) ∧
      ∀ x < n, slots[x]? = some none := by
  induction slots generalizing i with
  | nil => cases h
  | cons slot slots ih =>
    cases slot with
    | some entry =>
      obtain ⟨rfl, rfl, rfl⟩ : i + 1 = j ∧ entry.1 = k ∧ entry.2 = v := by
        simpa only [scan, Option.some.injEq, Prod.mk.injEq] using h
      exact ⟨0, rfl, rfl, fun x hx => absurd hx (Nat.not_lt_zero x)⟩
    | none =>
      obtain ⟨n, rfl, hplace, hbefore⟩ := ih h
      refine ⟨n + 1, by omega, hplace, fun x hx => ?_⟩
      cases x with
      | zero => rfl
      | succ x => exact hbefore x (by omega)

theorem scan_eq_none {slots : List (Option (κ × ν))} {i : Nat} (h : scan i slots = none) :
    ∀ slot ∈ slots, slot = none := by
  induction slots generalizing i with
  | nil => exact fun slot hmem => absurd hmem List.not_mem_nil
  | cons slot slots ih =>
    cases slot with
    | some entry => cases h
    | none => exact List.forall_mem_cons.mpr ⟨rfl, ih h⟩

section

variable {m : LiveMap κ ν} {i j : Nat} {k : κ} {v : ν} {P : κ → ν → Prop}

theorem passed_zero : m.Passed 0 P := fun x _ _ hx => absurd hx (Nat.not_lt_zero x)

theorem Passed.imp {Q : κ → ν → Prop} (h : m.Passed i P)
    (himp : ∀ k v, m.Has k v → P k v → Q k v) : m.Passed i Q :=
  fun x k v hx hat => himp k v ⟨x, hat⟩ (h x k v hx hat)

/-- The entry a walk comes to is one of the map. -/
theorem has_of_next (h : m.next i = some (j, k, v)) : m.Has k v := by
  obtain ⟨n, -, hplace, -⟩ := scan_eq_some h
  rw [List.getElem?_drop] at hplace
  exact ⟨i + n, hplace⟩

/-- An entry that a walk has not passed is the next one or still to come. -/
theorem eq_or_le_of_next {x : Nat} {l : κ} {w : ν} (h : m.next i = some (j, k, v)) (hx : i ≤ x)
    (hat : m.At x l w) : l = k ∨ j ≤ x := by
  obtain ⟨n, rfl, hplace, hbetween⟩ := scan_eq_some h
  obtain ⟨y, rfl⟩ := Nat.exists_eq_add_of_le hx
  rw [At, ← List.getElem?_drop] at hat
  rcases Nat.lt_trichotomy y n with hlt | rfl | hgt
  · rw [hbetween y hlt] at hat
    cases Option.some.inj hat
  · rw [hplace] at hat
    exact .inl (Prod.mk.inj (Option.some.inj (Option.some.inj hat))).1.symm
  · exact .inr (by omega)

/-- A walk at its end has passed every entry. -/
theorem lt_of_next_eq_none {x : Nat} {l : κ} {w : ν} (h : m.next i = none) (hat : m.At x l w) :
    x < i := by
  by_contra hle
  obtain ⟨y, rfl⟩ := Nat.exists_eq_add_of_le (Nat.not_lt.mp hle)
  rw [At, ← List.getElem?_drop] at hat
  cases scan_eq_none h _ (List.mem_of_getElem? hat)

/-- A walk that meets the property in the next entry has met it so far. -/
theorem Passed.next (hpassed : m.Passed i P) (h : m.next i = some (j, k, v)) (hP : P k v) :
    m.Passed j P := by
  obtain ⟨n, rfl, hplace, hbetween⟩ := scan_eq_some h
  intro x l w hx hat
  rcases Nat.lt_or_ge x i with hbefore | hafter
  · exact hpassed x l w hbefore hat
  · obtain ⟨y, rfl⟩ := Nat.exists_eq_add_of_le hafter
    rw [At, ← List.getElem?_drop] at hat
    rcases (by omega : y < n ∨ y = n) with hlt | rfl
    · rw [hbetween y hlt] at hat
      cases Option.some.inj hat
    · rw [hplace] at hat
      obtain ⟨rfl, rfl⟩ := Prod.mk.inj (Option.some.inj (Option.some.inj hat))
      exact hP

/-- What a walk has met in every entry it passed is, at its end, met in all. -/
theorem Passed.forall (hpassed : m.Passed i P) (h : m.next i = none) (hhas : m.Has k v) :
    P k v := by
  obtain ⟨x, hat⟩ := hhas
  exact hpassed x k v (lt_of_next_eq_none h hat) hat

variable [DecidableEq κ]

theorem Passed.delete (h : m.Passed i P) (k : κ) : (m.delete k).Passed i P :=
  fun x l w hx hat => h x l w hx (at_delete.mp hat).2

/-- An entry with the property does not disturb a walk, wherever it is put. -/
theorem Passed.set (h : m.Passed i P) (hP : P k v) : (m.set k v).Passed i P := by
  intro x l w hx hat
  cases hget : m.get? k with
  | none =>
    rcases (at_set_of_absent hget).mp hat with hat | ⟨-, rfl, rfl⟩
    · exact h x l w hx hat
    · exact hP
  | some u =>
    rw [set_of_has (get?_eq_some_iff.mp hget), at_overwrite] at hat
    rcases hat with ⟨rfl, rfl, -⟩ | ⟨-, hat⟩
    · exact hP
    · exact h x l w hx hat

/-- Overwriting mends what was wrong with the entry of the key. -/
theorem Passed.set_of_or {u : ν} (h : m.Passed i fun l w => l = k ∨ P l w) (hhas : m.Has k u)
    (hP : P k v) : (m.set k v).Passed i P := by
  intro x l w hx hat
  rw [set_of_has hhas, at_overwrite] at hat
  rcases hat with ⟨rfl, rfl, -⟩ | ⟨hne, hat⟩
  · exact hP
  · exact (h x l w hx hat).resolve_left hne

end

end LiveMap

end Tckr
