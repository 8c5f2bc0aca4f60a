import Mathlib.Algebra.Order.Ring.Nat
import Mathlib.Data.List.Chain
import Mathlib.Tactic.Linarith

/-!
# Multiples under wraparound

A range of multiples of one size, each reduced modulo a base. The reduced values
are multiples again, and keep a floor, exactly when no base is crossed inside the
range and the bases below the range are together a multiple of the size: the first
multiple past a base always lands short of one whole size. A multiply-shift draw
reaches every value of its range. Ordered readings of a clock that wraps to signed
residues stay ordered exactly when no wrap lies between them.
-/

namespace Tckr

/-- The multiples `first * size` to `last * size` lie between the same two multiples of the
base, the lower one is a multiple of the size, and the floor lies above it. -/
structure Fits (base size floor first last : Nat) : Prop where
  level : last * size / base = first * size / base
  dvd : size ∣ base * (first * size / base)
  floor_le : floor * size + base * (first * size / base) ≤ first * size

instance (base size floor first last : Nat) : Decidable (Fits base size floor first last) :=
  decidable_of_iff (last * size / base = first * size / base ∧
      size ∣ base * (first * size / base) ∧
      floor * size + base * (first * size / base) ≤ first * size)
    ⟨fun h => ⟨h.1, h.2.1, h.2.2⟩, fun h => ⟨h.level, h.dvd, h.floor_le⟩⟩

/-- The least multiple that reaches a target overshoots it by less than one size. -/
theorem exists_least_multiple {size target last : Nat} (hsize : 0 < size)
    (h : target ≤ last * size) :
    ∃ n ≤ last, target ≤ n * size ∧ n * size < target + size := by
  have hexists : ∃ n, target ≤ n * size := ⟨last, h⟩
  refine ⟨Nat.find hexists, Nat.find_min' hexists h, Nat.find_spec hexists, ?_⟩
  rcases Nat.eq_zero_or_pos (Nat.find hexists) with hzero | hpos
  · rw [hzero]
    omega
  · have hpred : (Nat.find hexists - 1) * size < target :=
      not_le.mp (Nat.find_min hexists (Nat.sub_one_lt hpos.ne'))
    have hsucc : (Nat.find hexists - 1) * size + size = Nat.find hexists * size := by
      rw [← Nat.succ_mul, Nat.succ_eq_add_one, Nat.sub_add_cancel hpos]
    omega

section Fits

variable {base size floor first last : Nat}

/-- Between the same two multiples of the base, reduction is one subtraction. -/
theorem Fits.mod_eq (h : Fits base size floor first last) {n : Nat} (hfirst : first ≤ n)
    (hlast : n ≤ last) : n * size % base + base * (first * size / base) = n * size := by
  have hlower : first * size / base ≤ n * size / base :=
    Nat.div_le_div_right (Nat.mul_le_mul_right size hfirst)
  have hupper : n * size / base ≤ last * size / base :=
    Nat.div_le_div_right (Nat.mul_le_mul_right size hlast)
  have hlevel : n * size / base = first * size / base :=
    le_antisymm (hupper.trans h.level.le) hlower
  rw [← hlevel]
  exact Nat.mod_add_div (n * size) base

/-- A range that fits keeps its multiples and its floor. -/
theorem Fits.kept (h : Fits base size floor first last) {n : Nat} (hfirst : first ≤ n)
    (hlast : n ≤ last) : size ∣ n * size % base ∧ floor * size ≤ n * size % base := by
  have hmod := h.mod_eq hfirst hlast
  have hfloor := h.floor_le
  have hmul : first * size ≤ n * size := Nat.mul_le_mul_right size hfirst
  constructor
  · refine (Nat.dvd_add_left h.dvd).mp ?_
    rw [hmod]
    exact Nat.dvd_mul_left size n
  · omega

/-- The first multiple past a base lands short of one whole size. -/
theorem exists_short (hsize : 0 < size) {k : Nat} (hfirst : first * size < base * k)
    (hlast : base * k ≤ last * size) : ∃ n, first ≤ n ∧ n ≤ last ∧ n * size % base < size := by
  obtain ⟨n, hle, hreach, hnear⟩ := exists_least_multiple hsize hlast
  refine ⟨n, (Nat.lt_of_mul_lt_mul_right (hfirst.trans_le hreach)).le, hle, ?_⟩
  have hrest : n * size = n * size - base * k + base * k := by omega
  rw [hrest, Nat.add_mul_mod_self_left]
  exact (Nat.mod_le _ _).trans_lt (by omega)

/-- A range keeps its multiples and a floor of at least one size exactly when it fits. -/
theorem fits_iff (hsize : 0 < size) (hbase : 0 < base) (hfloor : 1 ≤ floor)
    (hle : first ≤ last) : Fits base size floor first last ↔
      ∀ n, first ≤ n → n ≤ last → size ∣ n * size % base ∧ floor * size ≤ n * size % base := by
  refine ⟨fun h n hfirst hlast => h.kept hfirst hlast, fun h => ?_⟩
  obtain ⟨hdvd, hkept⟩ := h first le_rfl hle
  have hmod := Nat.mod_add_div (first * size) base
  refine ⟨?_, ?_, ?_⟩
  · by_contra hne
    -- A base is crossed inside the range, so some multiple lands below the floor.
    have hmono : first * size / base ≤ last * size / base :=
      Nat.div_le_div_right (Nat.mul_le_mul_right size hle)
    have hcross : first * size / base + 1 ≤ last * size / base := by omega
    have hbelow : first * size < base * (first * size / base + 1) :=
      Nat.lt_mul_div_succ (first * size) hbase
    have habove : base * (first * size / base + 1) ≤ last * size :=
      (Nat.mul_le_mul_left base hcross).trans (Nat.mul_div_le (last * size) base)
    obtain ⟨n, hfirst, hlast, hshort⟩ := exists_short hsize hbelow habove
    have hfloor' : size ≤ floor * size := Nat.le_mul_of_pos_left size hfloor
    have := (h n hfirst hlast).2
    omega
  · refine (Nat.dvd_add_right hdvd).mp ?_
    rw [hmod]
    exact Nat.dvd_mul_left size first
  · omega

end Fits

/-- A multiply-shift of some draw below the base is any given value below the outcomes. -/
theorem exists_scaled_eq {base outcomes v : Nat} (hv : v < outcomes) (hle : outcomes ≤ base) :
    ∃ draw < base, draw * outcomes / base = v := by
  have hpos : 0 < outcomes := by omega
  have hbase : 0 < base := hpos.trans_le hle
  obtain ⟨draw, -, hreach, hnear⟩ :=
    exists_least_multiple hpos (Nat.le_mul_of_pos_right (v * base) hpos)
  refine ⟨draw, ?_, ?_⟩
  · have hmul : v * base + base ≤ base * outcomes := by
      rw [← Nat.succ_mul, Nat.mul_comm base]
      exact Nat.mul_le_mul_right base hv
    exact Nat.lt_of_mul_lt_mul_right (a := outcomes) (by omega)
  · rw [Nat.div_eq_iff hbase]
    omega

/-! ## Signed residues -/

/-- No wrap lies between two readings of a signed clock. -/
def SameWrap (base : Nat) (x y : Int) : Prop := x.bdiv base = y.bdiv base

instance (base : Nat) : Trans (SameWrap base) (SameWrap base) (SameWrap base) := ⟨Eq.trans⟩

/-- Readings between two wraps of a signed clock. -/
def SameWindow (base : Nat) (xs : List Int) : Prop := xs.Pairwise (SameWrap base)

section SameWindow

variable {base : Nat} {x y : Int} {xs : List Int}

/-- Between two wraps residues keep the order. -/
theorem bmod_le_bmod (h : x ≤ y) (hwindow : SameWrap base x y) :
    x.bmod base ≤ y.bmod base := by
  rw [Int.bmod_eq_self_sub_mul_bdiv x, Int.bmod_eq_self_sub_mul_bdiv y, hwindow]
  omega

/-- A wrap takes a reading back by more than it went forward. -/
theorem bdiv_eq_of_bmod_le (hle : x ≤ y) (hgap : y < x + base)
    (h : x.bmod base ≤ y.bmod base) : SameWrap base x y := by
  have hx := Int.bmod_add_bdiv x base
  have hy := Int.bmod_add_bdiv y base
  have hbase : 0 < (base : Int) := by omega
  have hlower := Int.le_bmod (x := x) (m := base) (by omega)
  have hupper := Int.bmod_lt (x := y) (m := base) (by omega)
  have hforward : 0 ≤ y.bdiv base - x.bdiv base := by
    by_contra hneg
    have hdown : (base : Int) * (y.bdiv base - x.bdiv base) ≤ base * (-1) :=
      mul_le_mul_of_nonneg_left (by omega) hbase.le
    rw [mul_sub] at hdown
    omega
  have hback : (base : Int) * (y.bdiv base - x.bdiv base) < base * 1 := by
    rw [mul_sub]
    omega
  have hnear := lt_of_mul_lt_mul_left hback hbase.le
  unfold SameWrap
  omega

/-- Ordered readings between two wraps stay ordered. -/
theorem SameWindow.pairwise_bmod (h : SameWindow base xs) (hsorted : xs.Pairwise (· ≤ ·)) :
    (xs.map (·.bmod base)).Pairwise (· ≤ ·) := by
  rw [List.pairwise_map]
  exact (hsorted.and h).imp fun ⟨hle, hwindow⟩ => bmod_le_bmod hle hwindow

/-- Ordered readings less than a whole base apart stay ordered exactly when no wrap lies between
them. -/
theorem pairwise_bmod_iff (hsorted : xs.Pairwise (· ≤ ·))
    (hgap : xs.IsChain fun x y => y < x + (base : Int)) :
    (xs.map (·.bmod base)).Pairwise (· ≤ ·) ↔ SameWindow base xs := by
  refine ⟨fun h => ?_, fun h => h.pairwise_bmod hsorted⟩
  rw [List.pairwise_map] at h
  have hchain : xs.IsChain (SameWrap base) := by
    rw [List.isChain_iff_getElem] at hgap ⊢
    intro i hi
    obtain ⟨hle, hmod⟩ := (hsorted.and h).isChain.getElem i hi
    exact bdiv_eq_of_bmod_le hle (hgap i hi) hmod
  exact (List.isChain_iff_pairwise (R := SameWrap base)).mp hchain

end SameWindow

end Tckr
