import Mathlib.Data.List.TakeWhile

/-!
# Delay lines

A delay line holds its elements back until they are due and gives them up from the
front. What it gives up by some time is settled by its due part at any later time,
so two lines that agree on what is due by then cannot be told apart until then.
-/

namespace Tckr.DelayLine

universe u

variable {α : Type u} (release : α → Nat) {t T : Nat} {line late : List α}

/-- The element is due at time `t`. -/
def isDue (t : Nat) (a : α) : Bool := decide (release a ≤ t)

/-- What the line gives up by time `t`. -/
def due (t : Nat) (line : List α) : List α := line.takeWhile (isDue release t)

/-- What the line holds back at time `t`. -/
def held (t : Nat) (line : List α) : List α := line.dropWhile (isDue release t)

@[simp] theorem isDue_iff {a : α} : isDue release t a = true ↔ release a ≤ t := decide_eq_true_iff

variable {release}

theorem due_append_held (t : Nat) (line : List α) :
    due release t line ++ held release t line = line := List.takeWhile_append_dropWhile

theorem held_map {β : Type u} (f : β → α) (t : Nat) (line : List β) :
    held release t (line.map f) = (held (release ∘ f) t line).map f := List.dropWhile_map

theorem mem_due {a : α} (ha : a ∈ due release t line) : a ∈ line ∧ release a ≤ t :=
  ⟨(List.takeWhile_prefix _).subset ha, (isDue_iff release).mp (List.mem_takeWhile_imp ha)⟩

theorem mem_of_mem_held {a : α} (ha : a ∈ held release t line) : a ∈ line :=
  (List.dropWhile_suffix _).subset ha

/-- What is due by a time is due by any later one. -/
theorem due_due (h : t ≤ T) : due release t (due release T line) = due release t line := by
  rw [due, due, List.takeWhile_takeWhile, due]
  congr 1
  funext a
  rw [Bool.eq_iff_iff, decide_eq_true_iff, isDue_iff, isDue_iff]
  exact ⟨And.left, fun ha => ⟨ha, ha.trans h⟩⟩

/-- Giving up what is due leaves what becomes due later. -/
theorem due_held (h : t ≤ T) :
    due release T (held release t line) = held release t (due release T line) := by
  unfold due held
  induction line with
  | nil => rfl
  | cons a line ih =>
    by_cases ht : isDue release t a = true
    · have hT : isDue release T a = true :=
        (isDue_iff release).mpr (((isDue_iff release).mp ht).trans h)
      rw [List.dropWhile_cons_of_pos ht, List.takeWhile_cons_of_pos hT,
        List.dropWhile_cons_of_pos ht, ih]
    · rw [List.dropWhile_cons_of_neg ht]
      by_cases hT : isDue release T a = true
      · rw [List.takeWhile_cons_of_pos hT, List.dropWhile_cons_of_neg ht]
      · rw [List.takeWhile_cons_of_neg hT, List.dropWhile_nil]

/-- What comes too late changes nothing that is due. -/
theorem due_append_late (h : ∀ a ∈ late, T < release a) :
    due release T (line ++ late) = due release T line := by
  have hlate : late.takeWhile (isDue release T) = [] := by
    cases late with
    | nil => rfl
    | cons a late =>
      apply List.takeWhile_cons_of_neg
      rw [isDue_iff, not_le]
      exact h a List.mem_cons_self
  rw [due, List.takeWhile_append, hlate, due]
  split_ifs with hall
  · rw [List.append_nil, (List.takeWhile_prefix _).eq_of_length hall]
  · rfl

theorem due_eq_self (h : ∀ a ∈ line, release a ≤ T) : due release T line = line := by
  rw [due, List.takeWhile_eq_self_iff]
  intro a ha
  exact (isDue_iff release).mpr (h a ha)

/-- What is not due yet is held back. -/
theorem mem_held {a : α} (ha : a ∈ line) (h : t < release a) : a ∈ held release t line := by
  rw [← due_append_held t line, List.mem_append] at ha
  refine ha.resolve_left fun hdue => ?_
  have hle := (isDue_iff release).mp (List.mem_takeWhile_imp hdue)
  exact absurd hle (not_le.mpr h)

end Tckr.DelayLine
