import Mathlib.Algebra.BigOperators.Group.Finset.Basic
import Mathlib.Algebra.Group.Action.Defs
import Mathlib.Order.Interval.Finset.Nat

/-!
# Multiply and shift, with rejection

A draw below `size` is scaled to an outcome below `n`: the product with `n` is divided by
`size`, and the draw is rejected when the remainder falls below `size % n`. An outcome
owns the products of one block of `size`, and what is left of the block after the
rejection is as long as `size / n` steps of `n`: so every outcome is hit equally often.
-/

namespace Tckr.MultiplyShift

variable {size n : Nat}

/-- The outcome a draw is scaled to. -/
def outcome (size n draw : Nat) : Nat := draw * n / size

/-- The draw is not rejected. -/
def Accepted (size n draw : Nat) : Prop := size % n ≤ draw * n % size

instance (draw : Nat) : Decidable (Accepted size n draw) := inferInstanceAs (Decidable (_ ≤ _))

theorem outcome_lt {draw : Nat} (hdraw : draw < size) (hn : 0 < n) : outcome size n draw < n := by
  rw [outcome, Nat.div_lt_iff_lt_mul (by omega), Nat.mul_comm n]
  exact Nat.mul_lt_mul_of_pos_right hdraw hn

/-- The draws of an outcome are those whose product falls into the rest of its block. -/
theorem accepted_iff {draw r : Nat} (hdraw : draw < size) :
    Accepted size n draw ∧ outcome size n draw = r ↔
      r * size + size % n ≤ draw * n ∧ draw * n < r * size + size := by
  have hsplit := Nat.div_add_mod (draw * n) size
  have hmod := Nat.mod_lt (draw * n) (by omega : 0 < size)
  rw [Nat.mul_comm] at hsplit
  unfold Accepted outcome
  constructor
  · rintro ⟨haccepted, rfl⟩
    omega
  · rintro ⟨hlower, hupper⟩
    have hr : draw * n / size = r := by
      apply Nat.div_eq_of_lt_le
      · omega
      · rw [Nat.add_mul, Nat.one_mul]
        exact hupper
    rw [hr] at hsplit
    exact ⟨by omega, hr⟩

/-- Between a number and as many steps of `n` above it lie so many multiples of `n`. -/
theorem mem_steps_iff {a q draw : Nat} (hn : 0 < n) :
    a ≤ draw * n ∧ draw * n < a + n * q ↔
      (a + n - 1) / n ≤ draw ∧ draw < (a + n - 1) / n + q := by
  have hceil : (a + n * q + n - 1) / n = (a + n - 1) / n + q := by
    rw [← Nat.add_mul_div_left (a + n - 1) q hn]
    congr 1
    omega
  have hle (b : Nat) : b ≤ draw * n ↔ (b + n - 1) / n ≤ draw := by
    rw [Nat.div_le_iff_le_mul_add_pred hn, Nat.mul_comm n]
    omega
  rw [hle a, ← Nat.not_le, hle (a + n * q), hceil, Nat.not_le]

/-- Every outcome is hit by equally many draws. -/
theorem card_accepted {r : Nat} (hn : 0 < n) (hr : r < n) :
    ((Finset.range size).filter fun draw => Accepted size n draw ∧ outcome size n draw = r).card =
      size / n := by
  have hblock : size = size % n + n * (size / n) := (Nat.mod_add_div size n).symm
  have hset : ((Finset.range size).filter fun draw =>
      Accepted size n draw ∧ outcome size n draw = r) =
      Finset.Ico ((r * size + size % n + n - 1) / n)
        ((r * size + size % n + n - 1) / n + size / n) := by
    ext draw
    rw [Finset.mem_filter, Finset.mem_range, Finset.mem_Ico, ← mem_steps_iff hn]
    constructor
    · rintro ⟨hdraw, hhit⟩
      obtain ⟨hlower, hupper⟩ := (accepted_iff hdraw).mp hhit
      exact ⟨hlower, by omega⟩
    · rintro ⟨hlower, hupper⟩
      have hdraw : draw < size := by
        by_contra hle
        have hbig : size * n ≤ draw * n := Nat.mul_le_mul_right n (Nat.not_lt.mp hle)
        have hblocks : (r + 1) * size ≤ n * size := Nat.mul_le_mul_right size hr
        rw [Nat.add_mul, Nat.one_mul, Nat.mul_comm n] at hblocks
        omega
      exact ⟨hdraw, (accepted_iff hdraw).mpr ⟨hlower, by omega⟩⟩
  rw [hset, Nat.card_Ico, Nat.add_sub_cancel_left]

/-- At least half of the draws are accepted. -/
theorem half_le_card_accepted (hn : 0 < n) (hle : n ≤ size) :
    size ≤ 2 * ((Finset.range size).filter (Accepted size n)).card := by
  have hfibres : ((Finset.range size).filter (Accepted size n)).card =
      (Finset.range n).sum fun _ => size / n := by
    rw [Finset.card_eq_sum_card_fiberwise (f := outcome size n) (t := Finset.range n)]
    · refine Finset.sum_congr rfl fun r hr => ?_
      rw [Finset.filter_filter, card_accepted hn (Finset.mem_range.mp hr)]
    · intro draw hdraw
      have hlt := Finset.mem_range.mp (Finset.mem_filter.mp hdraw).1
      exact Finset.mem_coe.mpr (Finset.mem_range.mpr (outcome_lt hlt hn))
  rw [hfibres, Finset.sum_const, Finset.card_range, smul_eq_mul]
  have hsplit := Nat.div_add_mod size n
  have hmod := Nat.mod_lt size hn
  have hquotient : 1 ≤ size / n := (Nat.one_le_div_iff hn).mpr hle
  have hrest : n ≤ n * (size / n) := Nat.le_mul_of_pos_right n hquotient
  omega

end Tckr.MultiplyShift
