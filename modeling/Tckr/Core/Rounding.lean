import Mathlib.Data.Rat.Floor
import Mathlib.Tactic.Linarith
import Mathlib.Tactic.Ring

/-!
# Rounding to integers

Truncation toward zero and rounding half away from zero, with the quotients of
natural numbers that compute them. Truncating at an even subdivision first does not
change where a number rounds to: the half points are among the points kept.
-/

namespace Tckr

universe u

variable {K : Type u} [Field K] [LinearOrder K]

section

variable [FloorRing K]

/-- The integer part, toward zero. -/
def truncate (x : K) : ℤ := if 0 ≤ x then ⌊x⌋ else -⌊-x⌋

/-- The nearest integer, halves away from zero. -/
def halfAway (x : K) : ℤ := if 0 ≤ x then ⌊x + 1 / 2⌋ else -⌊-x + 1 / 2⌋

theorem truncate_of_nonneg {x : K} (h : 0 ≤ x) : truncate x = ⌊x⌋ := if_pos h

theorem halfAway_of_nonneg {x : K} (h : 0 ≤ x) : halfAway x = ⌊x + 1 / 2⌋ := if_pos h

end

variable [IsStrictOrderedRing K]

/-- A law that holds of the numbers from zero on and is odd holds of all. -/
theorem of_nonneg_of_neg {P : K → Prop} (hnonneg : ∀ x, 0 ≤ x → P x) (hneg : ∀ x, P (-x) → P x)
    (x : K) : P x := by
  rcases le_total 0 x with hx | hx
  · exact hnonneg x hx
  · exact hneg x (hnonneg (-x) (neg_nonneg.mpr hx))

variable [FloorRing K]

theorem halfAway_zero : halfAway (0 : K) = 0 := by
  rw [halfAway_of_nonneg le_rfl, zero_add, Int.floor_eq_zero_iff, Set.mem_Ico]
  constructor
  · linarith
  · linarith

theorem truncate_zero : truncate (0 : K) = 0 := by
  rw [truncate_of_nonneg le_rfl, Int.floor_zero]

theorem truncate_neg (x : K) : truncate (-x) = -truncate x := by
  rcases lt_trichotomy x 0 with hx | rfl | hx
  · rw [truncate, if_pos (neg_nonneg.mpr hx.le), truncate, if_neg hx.not_ge, neg_neg]
  · rw [neg_zero, truncate_zero, neg_zero]
  · rw [truncate, if_neg (neg_neg_of_pos hx).not_ge, truncate, if_pos hx.le, neg_neg]

theorem halfAway_neg (x : K) : halfAway (-x) = -halfAway x := by
  rcases lt_trichotomy x 0 with hx | rfl | hx
  · rw [halfAway, if_pos (neg_nonneg.mpr hx.le), halfAway, if_neg hx.not_ge, neg_neg]
  · rw [neg_zero, halfAway_zero, neg_zero]
  · rw [halfAway, if_neg (neg_neg_of_pos hx).not_ge, halfAway, if_pos hx.le, neg_neg]

theorem halfAway_nonneg {x : K} (h : 0 ≤ x) : 0 ≤ halfAway x := by
  rw [halfAway_of_nonneg h, Int.floor_nonneg]
  linarith

/-- A number is cut to a positive one exactly when it is one or more. -/
theorem truncate_pos_iff {x : K} : 0 < truncate x ↔ 1 ≤ x := by
  unfold truncate
  split
  · exact Int.floor_pos
  · rename_i h
    constructor
    · intro hpos
      have hfloor : 0 ≤ ⌊-x⌋ := Int.floor_nonneg.mpr (neg_nonneg.mpr (not_le.mp h).le)
      omega
    · exact fun hone => absurd (zero_le_one.trans hone) h

/-- Rounding moves a number by at most a half. -/
theorem abs_sub_halfAway_le (x : K) : |x - halfAway x| ≤ 1 / 2 := by
  refine of_nonneg_of_neg (P := fun x : K => |x - halfAway x| ≤ 1 / 2) (fun x hx => ?_)
    (fun x hx => ?_) x
  · rw [halfAway_of_nonneg hx, abs_le]
    have hle := Int.floor_le (x + 1 / 2)
    have hlt := Int.lt_floor_add_one (x + 1 / 2)
    constructor
    · linarith
    · linarith
  · rw [halfAway_neg, Int.cast_neg, ← neg_add', abs_neg, ← sub_eq_add_neg] at hx
    exact hx

/-- Rounding keeps the order. -/
theorem halfAway_mono {x y : K} (hxy : x ≤ y) : halfAway x ≤ halfAway y := by
  rcases le_or_gt 0 x with hx | hx
  · rw [halfAway_of_nonneg hx, halfAway_of_nonneg (hx.trans hxy)]
    exact Int.floor_mono (by linarith)
  · have hnonpos : halfAway x ≤ 0 := by
      have h := halfAway_nonneg (neg_nonneg.mpr hx.le)
      rw [halfAway_neg] at h
      omega
    rcases le_or_gt 0 y with hy | hy
    · exact hnonpos.trans (halfAway_nonneg hy)
    · rw [halfAway, if_neg hx.not_ge, halfAway, if_neg hy.not_ge]
      exact neg_le_neg (Int.floor_mono (by linarith))

/-- Truncating at an even subdivision first does not change where a number rounds to. -/
theorem halfAway_truncate {m : ℕ} (hm : 0 < m) (x : K) :
    halfAway ((truncate (x * (2 * m : ℕ)) : K) / (2 * m : ℕ)) = halfAway x := by
  have hpos : (0 : K) < (2 * m : ℕ) := Nat.cast_pos.mpr (Nat.mul_pos Nat.two_pos hm)
  refine of_nonneg_of_neg
    (P := fun x : K => halfAway ((truncate (x * (2 * m : ℕ)) : K) / (2 * m : ℕ)) = halfAway x)
    (fun x hx => ?_) (fun x hx => ?_) x
  · have hfloor : 0 ≤ ⌊x * (2 * m : ℕ)⌋ := Int.floor_nonneg.mpr (mul_nonneg hx hpos.le)
    have hcast : (0 : K) ≤ (⌊x * (2 * m : ℕ)⌋ : K) := Int.cast_nonneg hfloor
    rw [truncate_of_nonneg (mul_nonneg hx hpos.le), halfAway_of_nonneg (div_nonneg hcast hpos.le),
      halfAway_of_nonneg hx]
    have hkept : (⌊x * (2 * m : ℕ)⌋ : K) / (2 * m : ℕ) + 1 / 2 =
        ((⌊x * (2 * m : ℕ)⌋ + m : ℤ) : K) / (2 * m : ℕ) := by
      push_cast
      have : (m : K) ≠ 0 := Nat.cast_ne_zero.mpr hm.ne'
      field_simp
    have hwhole : x + 1 / 2 = (x * (2 * m : ℕ) + (m : ℤ)) / (2 * m : ℕ) := by
      push_cast
      have : (m : K) ≠ 0 := Nat.cast_ne_zero.mpr hm.ne'
      field_simp
    rw [hkept, hwhole, Int.floor_div_natCast, Int.floor_div_natCast, Int.floor_intCast,
      Int.floor_add_intCast]
  · rw [neg_mul, truncate_neg, Int.cast_neg, neg_div, halfAway_neg, halfAway_neg] at hx
    exact neg_inj.mp hx

/-! ## Quotients -/

theorem truncate_intCast (n : ℤ) : truncate (n : K) = n := by
  unfold truncate
  split
  · exact Int.floor_intCast n
  · rw [← Int.cast_neg, Int.floor_intCast, neg_neg]

theorem truncate_natCast_div (a b : ℕ) : truncate ((a : K) / b) = (a / b : ℕ) := by
  rw [truncate_of_nonneg (div_nonneg (Nat.cast_nonneg a) (Nat.cast_nonneg b)),
    Int.floor_div_natCast, Int.floor_natCast, Int.natCast_div]

theorem truncate_intCast_div (a : ℤ) (b : ℕ) : truncate ((a : K) / b) = a.tdiv b := by
  obtain ⟨n, rfl | rfl⟩ := a.eq_nat_or_neg
  · rw [Int.cast_natCast, truncate_natCast_div, Int.ofNat_tdiv]
  · rw [Int.cast_neg, Int.cast_natCast, neg_div, truncate_neg, truncate_natCast_div, Int.neg_tdiv,
      Int.ofNat_tdiv]

/-- The quotient after half the divisor is added, where that is whole. -/
theorem halfAway_natCast_div_even (a : ℕ) {m : ℕ} (hm : 0 < m) :
    halfAway ((a : K) / (2 * m : ℕ)) = ((a + m) / (2 * m) : ℕ) := by
  have hpos : (m : K) ≠ 0 := Nat.cast_ne_zero.mpr hm.ne'
  have hsum : (a : K) / (2 * m : ℕ) + 1 / 2 = ((a + m : ℕ) : K) / (2 * m : ℕ) := by
    push_cast
    field_simp
  rw [halfAway_of_nonneg (div_nonneg (Nat.cast_nonneg a) (Nat.cast_nonneg _)), hsum,
    Int.floor_div_natCast, Int.floor_natCast, Int.natCast_div]

/-- The quotient, plus one where the remainder is at least half the divisor. -/
theorem halfAway_natCast_div (a : ℕ) {b : ℕ} (hb : 0 < b) :
    halfAway ((a : K) / b) = (if b ≤ a % b * 2 then a / b + 1 else a / b : ℕ) := by
  have hdouble : (a : K) / b = ((2 * a : ℕ) : K) / (2 * b : ℕ) := by
    have : (b : K) ≠ 0 := Nat.cast_ne_zero.mpr hb.ne'
    push_cast
    field_simp
  rw [hdouble, halfAway_natCast_div_even _ hb]
  congr 1
  have hlt := Nat.mod_lt a hb
  have hsplit := Nat.div_add_mod a b
  have hwhole : ∀ k, (a / b + k) * (2 * b) = 2 * (b * (a / b)) + 2 * (b * k) := fun k => by ring
  split
  · rename_i hge
    apply Nat.div_eq_of_lt_le
    · rw [hwhole 1]
      omega
    · rw [Nat.add_assoc, hwhole 2]
      omega
  · rename_i hless
    apply Nat.div_eq_of_lt_le
    · rw [← Nat.add_zero (a / b), hwhole 0]
      omega
    · rw [hwhole 1]
      omega

theorem natAbs_halfAway_intCast_div (a : ℤ) {b : ℕ} (hb : 0 < b) :
    (halfAway ((a : K) / b)).natAbs =
      if b ≤ a.natAbs % b * 2 then a.natAbs / b + 1 else a.natAbs / b := by
  have hnat := halfAway_natCast_div (K := K) a.natAbs hb
  rcases le_total 0 a with h | h
  · have habs : (a : K) = (a.natAbs : K) := by
      rw [Nat.cast_natAbs, abs_of_nonneg h]
    rw [habs, hnat, Int.natAbs_natCast]
  · have habs : (a : K) = -(a.natAbs : K) := by
      rw [Nat.cast_natAbs, abs_of_nonpos h, Int.cast_neg, neg_neg]
    rw [habs, neg_div, halfAway_neg, hnat, Int.natAbs_neg, Int.natAbs_natCast]

/-- A number that does not round to zero keeps its sign. -/
theorem halfAway_neg_iff {x : K} (h : halfAway x ≠ 0) : halfAway x < 0 ↔ x < 0 := by
  constructor
  · intro hneg
    by_contra hx
    exact absurd (halfAway_nonneg (not_lt.mp hx)) hneg.not_ge
  · intro hx
    have hle := halfAway_mono hx.le
    rw [halfAway_zero] at hle
    exact lt_of_le_of_ne hle h

end Tckr
