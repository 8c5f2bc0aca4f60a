import Mathlib.Data.List.Range
import Mathlib.Data.List.Count

/-!
# Numbered streams with losses

A sender numbers everything it is offered 1, 2, 3, ... and loses part of it. If
what survives keeps its order, then a survivor's number and its rank differ by
exactly the losses numbered below it, so a receiver can read the losses off the
numbers. A receiver of any numbers at all counts a hole once if it counts below each
new highest number.
-/

namespace Tckr

/-- In an increasing list as many entries lie below an entry as come before it. -/
theorem countP_lt_getElem {l : List Nat} (h : l.Pairwise (· < ·)) (i : Nat) (hi : i < l.length) :
    l.countP (· < l[i]) = i := by
  induction l generalizing i with
  | nil => exact absurd hi (Nat.not_lt_zero i)
  | cons x l ih =>
    obtain ⟨hx, hl⟩ := List.pairwise_cons.mp h
    cases i with
    | zero =>
      have hnone : l.countP (· < x) = 0 := by
        rw [List.countP_eq_zero]
        intro y hy
        have := hx y hy
        simp only [decide_eq_true_eq]
        omega
      simp only [List.getElem_cons_zero, List.countP_cons, hnone, Nat.lt_irrefl, decide_false,
        Bool.false_eq_true, ite_false]
    | succ i =>
      have hi' : i < l.length := Nat.lt_of_succ_lt_succ hi
      have hlt : x < l[i] := hx _ (List.getElem_mem hi')
      simp only [List.getElem_cons_succ, List.countP_cons, ih hl i hi', hlt, decide_true, ite_true]

/-- Below `x` lie `x - 1` of the numbers from 1 to `n`. -/
theorem countP_lt_range' {n x : Nat} (hx : x ≤ n + 1) :
    (List.range' 1 n).countP (· < x) = x - 1 := by
  induction n with
  | zero => simp only [List.range'_zero, List.countP_nil]; omega
  | succ n ih =>
    rw [List.range'_1_concat, List.countP_append, List.countP_singleton]
    by_cases hlast : x ≤ n + 1
    · have hnot : ¬ 1 + n < x := by omega
      rw [ih hlast]
      simp only [hnot, decide_false, Bool.false_eq_true, ite_false, Nat.add_zero]
    · have hxn : x = n + 2 := by omega
      have hall : (List.range' 1 n).countP (· < x) = n := by
        have hlen : (List.range' 1 n).countP (· < x) = (List.range' 1 n).length := by
          rw [List.countP_eq_length]
          intro y hy
          have := List.mem_range'_1.mp hy
          simp only [decide_eq_true_eq]
          omega
        rw [hlen, List.length_range']
      have hlast' : 1 + n < x := by omega
      rw [hall]
      simp only [hlast', decide_true, ite_true]
      omega

/-- A prefix of consecutive numbers is consecutive. -/
theorem eq_range'_of_append {xs ys : List Nat} {start n : Nat}
    (h : xs ++ ys = List.range' start n) : xs = List.range' start xs.length := by
  have hlen : xs.length + ys.length = n := by
    simpa only [List.length_append, List.length_range'] using congrArg List.length h
  have hsplit := List.range'_append_1 (s := start) (m := xs.length) (n := ys.length)
  rw [hlen, ← h] at hsplit
  exact (List.append_inj_left hsplit (by rw [List.length_range'])).symm

section Losses

variable {kept lost : List Nat} {n : Nat}

/-- The rank of a survivor and the losses numbered below it account for its number. -/
theorem number_eq_rank_add_losses (hk : kept.Pairwise (· < ·))
    (hp : (kept ++ lost).Perm (List.range' 1 n)) (i : Nat) (hi : i < kept.length) :
    kept[i] = i + 1 + lost.countP (· < kept[i]) := by
  have hmem : kept[i] ∈ List.range' 1 n :=
    hp.mem_iff.mp (List.mem_append_left _ (List.getElem_mem hi))
  obtain ⟨hlow, hhigh⟩ := List.mem_range'_1.mp hmem
  have hcount := hp.countP_eq (· < kept[i])
  rw [List.countP_append, countP_lt_getElem hk i hi, countP_lt_range' (by omega)] at hcount
  omega

/-- No number is lost twice, and none that survived is lost. -/
theorem losses_nodup (hp : (kept ++ lost).Perm (List.range' 1 n)) :
    lost.Nodup ∧ ∀ x ∈ kept, x ∉ lost := by
  have hnodup : (kept ++ lost).Nodup := hp.nodup_iff.mpr List.nodup_range'
  rw [List.nodup_append] at hnodup
  exact ⟨hnodup.2.1, fun x hx hl => hnodup.2.2 x hx x hl rfl⟩

end Losses

/-! ## The highest number seen -/

/-- The highest number seen, none being zero. -/
def highest (xs : List Nat) : Nat := xs.foldl max 0

/-- The numbers left out below each new highest number. -/
def holes (xs : List Nat) : Nat :=
  (xs.foldl (fun p x => (max p.1 x, p.2 + (x - p.1 - 1))) ((0, 0) : Nat × Nat)).2

@[simp] theorem highest_append_singleton (xs : List Nat) (x : Nat) :
    highest (xs ++ [x]) = max (highest xs) x := List.foldl_append

theorem foldl_holes (xs : List Nat) :
    xs.foldl (fun p x => (max p.1 x, p.2 + (x - p.1 - 1))) ((0, 0) : Nat × Nat) =
      (highest xs, holes xs) := by
  induction xs using List.reverseRecOn with
  | nil => rfl
  | append_singleton xs x ih =>
    rw [holes, highest_append_singleton, List.foldl_append, ih]
    rfl

/-- A number adds the hole below it if it is a new highest, and nothing otherwise. -/
@[simp] theorem holes_append_singleton (xs : List Nat) (x : Nat) :
    holes (xs ++ [x]) = holes xs + (x - highest xs - 1) := by
  rw [holes, List.foldl_append, foldl_holes]
  rfl

theorem le_highest {xs : List Nat} {x : Nat} (h : x ∈ xs) : x ≤ highest xs := by
  induction xs using List.reverseRecOn with
  | nil => cases h
  | append_singleton xs y ih =>
    rw [highest_append_singleton]
    rcases List.mem_append.mp h with h | h
    · exact (ih h).trans (le_max_left _ _)
    · exact List.mem_singleton.mp h ▸ le_max_right _ _

/-- The highest number is one of them, or there is none. -/
theorem highest_mem (xs : List Nat) : highest xs ∈ xs ∨ highest xs = 0 := by
  induction xs using List.reverseRecOn with
  | nil => exact .inr rfl
  | append_singleton xs x ih =>
    rw [highest_append_singleton, List.mem_append, List.mem_singleton]
    rcases le_total (highest xs) x with hle | hle
    · exact .inl (.inr (max_eq_right hle))
    · rw [max_eq_left hle]
      exact ih.imp_left .inl

theorem holes_le_highest (xs : List Nat) : holes xs ≤ highest xs := by
  induction xs using List.reverseRecOn with
  | nil => exact le_rfl
  | append_singleton xs x ih =>
    rw [holes_append_singleton, highest_append_singleton]
    omega

/-- Numbers from one that only rise leave out all that did not arrive. -/
theorem holes_add_length {xs : List Nat} (hpos : ∀ x ∈ xs, 1 ≤ x) (h : xs.Pairwise (· < ·)) :
    holes xs + xs.length = highest xs := by
  induction xs using List.reverseRecOn with
  | nil => rfl
  | append_singleton xs x ih =>
    obtain ⟨hxs, -, hlast⟩ := List.pairwise_append.mp h
    have hrest := ih (fun y hy => hpos y (List.mem_append_left _ hy)) hxs
    have hx : highest xs < x := by
      rcases highest_mem xs with hmem | hzero
      · exact hlast _ hmem x (List.mem_singleton_self x)
      · rw [hzero]
        exact hpos x (by simp)
    rw [holes_append_singleton, highest_append_singleton, List.length_append, List.length_singleton]
    omega

end Tckr
