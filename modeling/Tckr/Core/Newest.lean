import Mathlib.Data.Set.Insert
import Mathlib.Order.Defs.LinearOrder

/-!
# The newest value seen

A place that keeps the newer of two values holds one of the values it has seen, and none
of them is newer. What two such places hold is merged by keeping the newer of the two,
whichever is kept where they are equally new, and the merged place has seen what either
has.
-/

namespace Tckr

universe u v

variable {α : Type u} {κ : Type v} [LinearOrder κ]

/-- The place holds a newest of the values seen, and nothing only where none was seen. -/
structure Newest (key : α → κ) (seen : Set α) (held : Option α) : Prop where
  mem : ∀ a ∈ held, a ∈ seen
  newest : ∀ a ∈ held, ∀ x ∈ seen, key x ≤ key a
  isSome : seen.Nonempty → held.isSome = true

/-- The newer of what is held and a value, what is held where they are equally new. -/
def heldOrNewer (key : α → κ) (held : Option α) (a : α) : Option α :=
  match held with
  | some old => if key a ≤ key old then some old else some a
  | none => some a

/-- The newer of what is held and a value, the value where they are equally new. -/
def newerOrHeld (key : α → κ) (held : Option α) (a : α) : Option α :=
  match held with
  | some old => if key a < key old then some old else some a
  | none => some a

/-- Of what is held and a value, one is kept that the other is not newer than. -/
def KeepsNewer (key : α → κ) (held : Option α) (a : α) (kept : Option α) : Prop :=
  (kept = some a ∧ ∀ old ∈ held, key old ≤ key a) ∨ ∃ old ∈ held, kept = some old ∧ key a ≤ key old

namespace Newest

variable {key : α → κ} {seen fresh : Set α} {held kept : Option α} {a : α}

theorem empty (key : α → κ) : Newest key ∅ none where
  mem _ ha := absurd ha (by simp)
  newest _ ha := absurd ha (by simp)
  isSome hseen := absurd hseen Set.not_nonempty_empty

theorem singleton (key : α → κ) (a : α) : Newest key {a} (some a) where
  mem b hb := by simpa using hb.symm
  newest b hb x hx := by
    rw [Option.mem_some_iff] at hb
    rw [Set.mem_singleton_iff.mp hx, hb]
  isSome _ := rfl

/-- Where nothing is held, nothing was seen. -/
theorem eq_empty (h : Newest key seen none) : seen = ∅ := by
  by_contra hseen
  have hsome := h.isSome (Set.nonempty_iff_ne_empty.mpr hseen)
  simp at hsome

/-- Keeping the newer of two newest values keeps a newest of all. -/
theorem union (h : Newest key seen held) (hfresh : Newest key fresh (some a))
    (hkept : KeepsNewer key held a kept) : Newest key (seen ∪ fresh) kept := by
  obtain ⟨rfl, hold⟩ | ⟨old, hheld, rfl, hle⟩ := hkept
  · refine ⟨fun b hb => .inr (hfresh.mem b hb), fun b hb x hx => ?_, fun _ => rfl⟩
    obtain rfl : a = b := by simpa using hb
    obtain hx | hx := hx
    · cases held with
      | none =>
        rw [h.eq_empty] at hx
        exact hx.elim
      | some old => exact (h.newest old rfl x hx).trans (hold old rfl)
    · exact hfresh.newest a rfl x hx
  · refine ⟨fun b hb => ?_, fun b hb x hx => ?_, fun _ => rfl⟩
    · obtain rfl : old = b := by simpa using hb
      exact .inl (h.mem old hheld)
    · obtain rfl : old = b := by simpa using hb
      obtain hx | hx := hx
      · exact h.newest old hheld x hx
      · exact (hfresh.newest a rfl x hx).trans hle

end Newest

theorem keepsNewer_heldOrNewer (key : α → κ) (held : Option α) (a : α) :
    KeepsNewer key held a (heldOrNewer key held a) := by
  cases held with
  | none => exact .inl ⟨rfl, by simp⟩
  | some old =>
    by_cases hle : key a ≤ key old
    · exact .inr ⟨old, rfl, if_pos hle, hle⟩
    · exact .inl ⟨if_neg hle, by simpa using (not_le.mp hle).le⟩

theorem keepsNewer_newerOrHeld (key : α → κ) (held : Option α) (a : α) :
    KeepsNewer key held a (newerOrHeld key held a) := by
  cases held with
  | none => exact .inl ⟨rfl, by simp⟩
  | some old =>
    by_cases hlt : key a < key old
    · exact .inr ⟨old, rfl, if_pos hlt, hlt.le⟩
    · exact .inl ⟨if_neg hlt, by simpa using not_lt.mp hlt⟩

/-- Replacing what is held keeps the newer as long as the value is no older. -/
theorem keepsNewer_some {key : α → κ} {held : Option α} {a : α}
    (h : ∀ old ∈ held, key old ≤ key a) : KeepsNewer key held a (some a) := .inl ⟨rfl, h⟩

end Tckr
