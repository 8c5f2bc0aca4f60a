import Mathlib.Order.Basic
import Mathlib.Algebra.Order.Ring.Int

/-!
# Changes of a step function

A function of the instants that keeps its value until it changes. Where it takes two
values there is a change in between, so it is constant where nothing changes, and over
less than the gap between two changes it changes once at most.
-/

namespace Tckr.Changes

universe u

variable {V : Type u} {f : Int → V} {gap t v w : Int}

/-- The value is another one from an instant on. -/
def ChangesAt (f : Int → V) (c : Int) : Prop := f (c - 1) ≠ f c

/-- Two changes are at least a gap apart. -/
def Spaced (f : Int → V) (gap : Int) : Prop :=
  ∀ c d, c < d → ChangesAt f c → ChangesAt f d → c + gap ≤ d

/-- Between two values lies a change. -/
theorem exists_change (h : t ≤ v) (hne : f t ≠ f v) : ∃ c, t < c ∧ c ≤ v ∧ ChangesAt f c := by
  induction v, h using Int.leInduction with
  | base => exact absurd rfl hne
  | succ v h ih =>
    by_cases hlast : f v = f (v + 1)
    · obtain ⟨c, hafter, hbefore, hchange⟩ := ih (hlast ▸ hne)
      exact ⟨c, hafter, by omega, hchange⟩
    · refine ⟨v + 1, by omega, le_rfl, ?_⟩
      rw [ChangesAt, Int.add_sub_cancel]
      exact hlast

/-- Over a gap a spaced function changes at most once. -/
theorem Spaced.eq_or_eq (hspaced : Spaced f gap) (htv : t ≤ v) (hvw : v ≤ w) (hgap : w - t ≤ gap) :
    f t = f v ∨ f v = f w := by
  by_contra hne
  obtain ⟨hfirst, hlast⟩ := not_or.mp hne
  obtain ⟨c, hafter, hbefore, hchange⟩ := exists_change htv hfirst
  obtain ⟨d, hafter', hbefore', hchange'⟩ := exists_change hvw hlast
  have happart := hspaced c d (by omega) hchange hchange'
  omega

end Tckr.Changes
