import Mathlib.Algebra.Order.Ring.Int
import Mathlib.Tactic.Linarith

/-!
# Checked integer arithmetic

Signed arithmetic of a given width in which a result out of range and a division
by zero are faults. A computation without a fault has the exact value, so it is
described by the exact operations and by the conditions under which each of them
stays in range.
-/

namespace Tckr

universe u v

/-- Why an operation has no exact result. -/
inductive Fault where
  | divideByZero
  | overflow
  deriving DecidableEq, Repr

namespace Checked

variable (width : Nat)

/-- The integers of a width. -/
def InRange (x : Int) : Prop := -2 ^ (width - 1) ≤ x ∧ x < 2 ^ (width - 1)

instance (x : Int) : Decidable (InRange width x) :=
  inferInstanceAs (Decidable (_ ∧ _))

/-- An exact result, where it is in range. -/
def fit (x : Int) : Except Fault Int := if InRange width x then .ok x else .error .overflow

def add (a b : Int) : Except Fault Int := fit width (a + b)

def sub (a b : Int) : Except Fault Int := fit width (a - b)

def mul (a b : Int) : Except Fault Int := fit width (a * b)

/-- Division truncates towards zero. -/
def div (a b : Int) : Except Fault Int :=
  if b = 0 then .error .divideByZero else fit width (a.tdiv b)

variable {width} {a b x y : Int}

theorem fit_eq_ok : fit width x = .ok y ↔ InRange width x ∧ x = y := by
  unfold fit
  split
  · rename_i h
    simp only [h, true_and, Except.ok.injEq]
  · rename_i h
    simp only [h, false_and, reduceCtorEq]

theorem add_eq_ok : add width a b = .ok y ↔ InRange width (a + b) ∧ a + b = y := fit_eq_ok

theorem sub_eq_ok : sub width a b = .ok y ↔ InRange width (a - b) ∧ a - b = y := fit_eq_ok

theorem mul_eq_ok : mul width a b = .ok y ↔ InRange width (a * b) ∧ a * b = y := fit_eq_ok

/-- Dividing what is in range, and not negative, is exact unless it is by zero. -/
theorem div_eq_ok (hrange : InRange width a) (ha : 0 ≤ a) (hb : 0 ≤ b) :
    div width a b = .ok y ↔ b ≠ 0 ∧ a / b = y := by
  unfold div
  split
  · rename_i h
    simp only [h, ne_eq, not_true, false_and, reduceCtorEq]
  · rename_i h
    have hle : a / b ≤ a := Int.ediv_le_self b ha
    have hnonneg : 0 ≤ a / b := Int.ediv_nonneg ha hb
    have hfits : InRange width (a / b) :=
      ⟨le_trans (neg_nonpos.mpr (by positivity)) hnonneg, hle.trans_lt hrange.2⟩
    rw [Int.tdiv_eq_ediv_of_nonneg ha, fit_eq_ok]
    simp only [hfits, h, ne_eq, not_false_eq_true, true_and]

/-- A computation in sequence has a result exactly when each of its parts does. -/
theorem bind_eq_ok {α : Type u} {β : Type u} {c : Except Fault α} {f : α → Except Fault β} {r : β} :
    (c >>= f) = .ok r ↔ ∃ a, c = .ok a ∧ f a = .ok r := by
  cases c with
  | error e => exact ⟨nofun, fun ⟨_, h, _⟩ => absurd h nofun⟩
  | ok a => exact ⟨fun h => ⟨a, rfl, h⟩, fun ⟨_, h, hf⟩ => Except.ok.inj h ▸ hf⟩

end Checked

end Tckr
