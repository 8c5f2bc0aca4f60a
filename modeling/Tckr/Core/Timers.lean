import Mathlib.Order.Defs.LinearOrder

/-!
# Timers

The timers of a script, each with the handle it was set under and the instant at which it
is due. Whatever is due fires in the order of the instants, and what was set first fires
first among several due at once.
-/

namespace Tckr

/-- The armed timers, oldest first. -/
structure Timers (τ : Type) where
  armed : List (Nat × τ) := []
  nextHandle : Nat := 0
  deriving DecidableEq

namespace Timers

variable {τ : Type}

/-- A timer under the next handle. -/
def setTimeout (timers : Timers τ) (due : τ) : Timers τ where
  armed := timers.armed ++ [(timers.nextHandle, due)]
  nextHandle := timers.nextHandle + 1

def clearTimeout (timers : Timers τ) (handle : Nat) : Timers τ :=
  { timers with armed := timers.armed.filter fun timer => timer.1 ≠ handle }

/-- Every timer but one is left alone, and the one is set. -/
theorem setTimeout_of_armed_eq_nil {timers : Timers τ} (harmed : timers.armed = []) (due : τ) :
    (timers.setTimeout due).armed = [(timers.nextHandle, due)] := by
  rw [setTimeout, harmed]
  rfl

theorem clearTimeout_of_armed_eq {timers : Timers τ} {handle : Nat} {due : τ}
    (harmed : timers.armed = [(handle, due)]) : (timers.clearTimeout handle).armed = [] := by
  simp [clearTimeout, harmed]

section Order

variable [LinearOrder τ]

/-- The timer of a list that is due first. -/
def earliestOf : List (Nat × τ) → Option (Nat × τ)
  | [] => none
  | timer :: rest =>
    match earliestOf rest with
    | some other => if other.2 < timer.2 then some other else some timer
    | none => some timer

/-- The timer that is due first. -/
def earliest? (timers : Timers τ) : Option (Nat × τ) := earliestOf timers.armed

theorem earliest?_of_armed_eq {timers : Timers τ} {timer : Nat × τ}
    (harmed : timers.armed = [timer]) : timers.earliest? = some timer := by
  rw [earliest?, harmed]
  rfl

end Order

end Timers

end Tckr
