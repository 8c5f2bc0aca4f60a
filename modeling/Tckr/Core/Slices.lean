import Mathlib.Algebra.Order.Field.Rat
import Mathlib.Tactic.Linarith
import Mathlib.Tactic.FieldSimp

/-!
# Slices

A range cut at increasing places falls into slices that meet without a gap and without an
overlap: every place lies in exactly one. Cut in proportion, a range at least as long as
the number of slices leaves none of them empty. A mean lies between the bounds of what it
is taken of.
-/

namespace Tckr.Slices

/-- The place belongs to the slice between two cuts. -/
def Holds (cut : Nat → Nat) (i place : Nat) : Prop := cut i ≤ place ∧ place < cut (i + 1)

section Cuts

variable {cut : Nat → Nat} {n place : Nat}

theorem cut_le_cut (hlt : ∀ i, cut i < cut (i + 1)) {i j : Nat} (hij : i ≤ j) : cut i ≤ cut j := by
  induction j, hij using Nat.le_induction with
  | base => exact Nat.le_refl (cut i)
  | succ j _ ih => exact Nat.le_of_lt (Nat.lt_of_le_of_lt ih (hlt j))

/-- A place lies in one slice at most. -/
theorem eq_of_holds (hlt : ∀ i, cut i < cut (i + 1)) {i j : Nat} (hi : Holds cut i place)
    (hj : Holds cut j place) : i = j := by
  obtain hbelow | heq | habove := Nat.lt_trichotomy i j
  · have hle := cut_le_cut hlt (Nat.succ_le_of_lt hbelow)
    exact absurd (Nat.lt_of_lt_of_le hi.2 hle) (Nat.not_lt.mpr hj.1)
  · exact heq
  · have hle := cut_le_cut hlt (Nat.succ_le_of_lt habove)
    exact absurd (Nat.lt_of_lt_of_le hj.2 hle) (Nat.not_lt.mpr hi.1)

/-- A place between the first cut and the last lies in a slice. -/
theorem exists_holds (hfirst : cut 0 ≤ place) (hlast : place < cut n) :
    ∃ i < n, Holds cut i place := by
  induction n with
  | zero => exact absurd hlast (Nat.not_lt.mpr hfirst)
  | succ n ih =>
    by_cases hplace : place < cut n
    · obtain ⟨i, hi, hholds⟩ := ih hplace
      exact ⟨i, Nat.lt_succ_of_lt hi, hholds⟩
    · exact ⟨n, Nat.lt_succ_self n, Nat.not_lt.mp hplace, hlast⟩

/-- A place between the first cut and the last lies in exactly one slice. -/
theorem existsUnique_holds (hlt : ∀ i, cut i < cut (i + 1)) (hfirst : cut 0 ≤ place)
    (hlast : place < cut n) : ∃! i, i < n ∧ Holds cut i place := by
  obtain ⟨i, hi, hholds⟩ := exists_holds hfirst hlast
  exact ⟨i, ⟨hi, hholds⟩, fun j hj => eq_of_holds hlt hj.2 hholds⟩

end Cuts

/-! ## Cuts in proportion -/

/-- The cut after `i` of `slices` parts of `length`. -/
def proportional (length slices i : Nat) : Nat := i * length / slices

theorem proportional_zero (length slices : Nat) : proportional length slices 0 = 0 := by
  rw [proportional, Nat.zero_mul, Nat.zero_div]

theorem proportional_self {slices : Nat} (hpos : 0 < slices) (length : Nat) :
    proportional length slices slices = length :=
  Nat.mul_div_cancel_left length hpos

/-- A range at least as long as the number of slices leaves none empty. -/
theorem proportional_lt_succ {length slices : Nat} (hpos : 0 < slices) (hle : slices ≤ length)
    (i : Nat) : proportional length slices i < proportional length slices (i + 1) := by
  have hnext : i * length + slices ≤ (i + 1) * length := by
    rw [Nat.add_mul, Nat.one_mul]
    omega
  calc
    i * length / slices < i * length / slices + 1 := Nat.lt_succ_self _
    _ = (i * length + slices) / slices := (Nat.add_div_right _ hpos).symm
    _ ≤ (i + 1) * length / slices := Nat.div_le_div_right hnext

/-! ## Means -/

/-- A sum lies between so many times the bounds. -/
theorem sum_between {lo hi : ℚ} {xs : List ℚ} (h : ∀ x ∈ xs, lo ≤ x ∧ x ≤ hi) :
    lo * xs.length ≤ xs.sum ∧ xs.sum ≤ hi * xs.length := by
  induction xs with
  | nil => simp
  | cons x xs ih =>
    obtain ⟨⟨hlo, hhi⟩, hrest⟩ := List.forall_mem_cons.mp h
    obtain ⟨hlower, hupper⟩ := ih hrest
    rw [List.sum_cons, List.length_cons]
    push_cast
    constructor
    · linarith
    · linarith

theorem mean_between {lo hi : ℚ} {xs : List ℚ} (hxs : xs ≠ []) (h : ∀ x ∈ xs, lo ≤ x ∧ x ≤ hi) :
    lo ≤ xs.sum / xs.length ∧ xs.sum / xs.length ≤ hi := by
  have hpos : (0 : ℚ) < xs.length := Nat.cast_pos.mpr (List.length_pos_iff.mpr hxs)
  rw [le_div_iff₀ hpos, div_le_iff₀ hpos]
  exact sum_between h

end Tckr.Slices
