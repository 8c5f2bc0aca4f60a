import Mathlib.Order.Bounds.Defs
import Mathlib.Order.MinMax

/-!
# Edits

One edit inserts, deletes or replaces one letter of a word, anywhere in it. The distance of
two words is the least number of edits that lead from the one to the other, and it is what
the recurrence over the first letters computes.
-/

namespace Tckr

variable {α : Type*}

/-- One edit, at the front or further on. -/
inductive Edit : List α → List α → Prop
  | insert (x : α) (a : List α) : Edit a (x :: a)
  | delete (x : α) (a : List α) : Edit (x :: a) a
  | substitute (x y : α) (a : List α) : Edit (x :: a) (y :: a)
  | keep (x : α) {a b : List α} : Edit a b → Edit (x :: a) (x :: b)

/-- So many edits one after the other. -/
inductive Edits : Nat → List α → List α → Prop
  | refl (a : List α) : Edits 0 a a
  | step {n : Nat} {a b c : List α} : Edit a b → Edits n b c → Edits (n + 1) a c

namespace Edit

variable {a b : List α}

theorem symm (h : Edit a b) : Edit b a := by
  induction h with
  | insert x a => exact .delete x a
  | delete x a => exact .insert x a
  | substitute x y a => exact .substitute y x a
  | keep x _ ih => exact .keep x ih

theorem append_left (c : List α) (h : Edit a b) : Edit (c ++ a) (c ++ b) := by
  induction c with
  | nil => exact h
  | cons x c ih => exact .keep x ih

/-- An edit of the reversed word is the same edit, met from the other end. -/
theorem reverse (h : Edit a b) : Edit a.reverse b.reverse := by
  have happend {a b : List α} (c : List α) (h : Edit a b) : Edit (a ++ c) (b ++ c) := by
    induction h with
    | insert x a => exact .insert x (a ++ c)
    | delete x a => exact .delete x (a ++ c)
    | substitute x y a => exact .substitute x y (a ++ c)
    | keep x _ ih => exact .keep x ih
  induction h with
  | insert x a =>
    have hlast := append_left a.reverse (.insert x [])
    rwa [List.append_nil, ← List.reverse_cons] at hlast
  | delete x a =>
    have hlast := append_left a.reverse (.delete x [])
    rwa [List.append_nil, ← List.reverse_cons] at hlast
  | substitute x y a =>
    have hlast := append_left a.reverse (.substitute x y [])
    rwa [← List.reverse_cons, ← List.reverse_cons] at hlast
  | keep x _ ih =>
    rw [List.reverse_cons, List.reverse_cons]
    exact happend [x] ih

end Edit

namespace Edits

variable {m n : Nat} {a b c : List α}

theorem trans (h : Edits m a b) (h' : Edits n b c) : Edits (m + n) a c := by
  induction h with
  | refl a => rwa [Nat.zero_add]
  | @step m a b _ hedit _ ih =>
    rw [Nat.add_right_comm]
    exact .step hedit (ih h')

theorem of_edit (h : Edit a b) : Edits 1 a b := .step h (.refl b)

theorem symm (h : Edits n a b) : Edits n b a := by
  induction h with
  | refl a => exact .refl a
  | step hedit _ ih => exact ih.trans (of_edit hedit.symm)

theorem reverse (h : Edits n a b) : Edits n a.reverse b.reverse := by
  induction h with
  | refl a => exact .refl a.reverse
  | step hedit _ ih => exact .step hedit.reverse ih

theorem keep (x : α) (h : Edits n a b) : Edits n (x :: a) (x :: b) := by
  induction h with
  | refl a => exact .refl (x :: a)
  | step hedit _ ih => exact .step (.keep x hedit) ih

theorem zero_iff : Edits 0 a b ↔ a = b := by
  constructor
  · rintro ⟨⟩
    rfl
  · rintro rfl
    exact .refl a

end Edits

/-! ## The recurrence -/

section Distance

variable [DecidableEq α]

/-- The distance of two words, by their first letters. -/
def distance : List α → List α → Nat
  | [], b => b.length
  | x :: a, [] => (x :: a).length
  | x :: a, y :: b =>
    min (min (distance a (y :: b) + 1) (distance (x :: a) b + 1))
      (distance a b + if x = y then 0 else 1)
termination_by a b => a.length + b.length

variable {a b c : List α}

@[simp] theorem distance_nil_left (b : List α) : distance [] b = b.length := by
  rw [distance]

@[simp] theorem distance_nil_right (a : List α) : distance a [] = a.length := by
  cases a with
  | nil => rw [distance]
  | cons x a => rw [distance]

theorem distance_cons_cons (x y : α) (a b : List α) :
    distance (x :: a) (y :: b) = min (min (distance a (y :: b) + 1) (distance (x :: a) b + 1))
      (distance a b + if x = y then 0 else 1) := by
  rw [distance]

theorem distance_cons_left_le (x : α) (a b : List α) :
    distance (x :: a) b ≤ distance a b + 1 := by
  cases b with
  | nil => simp
  | cons y b =>
    rw [distance_cons_cons]
    omega

theorem distance_cons_right_le (y : α) (a b : List α) :
    distance a (y :: b) ≤ distance a b + 1 := by
  cases a with
  | nil => simp
  | cons x a =>
    rw [distance_cons_cons]
    omega

theorem distance_cons_cons_le (x y : α) (a b : List α) :
    distance (x :: a) (y :: b) ≤ distance a b + 1 := by
  rw [distance_cons_cons]
  split
  · omega
  · omega

theorem distance_keep_le (x : α) (a b : List α) : distance (x :: a) (x :: b) ≤ distance a b := by
  rw [distance_cons_cons, if_pos rfl]
  omega

/-- One edit brings a word closer to another by one at most. -/
theorem distance_le_of_edit (h : Edit a b) (c : List α) : distance a c ≤ distance b c + 1 := by
  induction h generalizing c with
  | delete x a => exact distance_cons_left_le x a c
  | insert x a =>
    induction c with
    | nil =>
      simp
      omega
    | cons z c ih =>
      have hright := distance_cons_right_le z a c
      rw [distance_cons_cons x z a c]
      omega
  | substitute x y a =>
    induction c with
    | nil => simp
    | cons z c ih =>
      have hleft := distance_cons_left_le x a (z :: c)
      have hright := distance_cons_right_le z (x :: a) c
      have hboth := distance_cons_cons_le x z a c
      rw [distance_cons_cons y z a c]
      omega
  | @keep x a b hedit ih =>
    induction c with
    | nil =>
      have hlength := ih []
      simp only [distance_nil_right] at hlength
      simp only [distance_nil_right, List.length_cons]
      omega
    | cons z c ihc =>
      have hskip := ih (z :: c)
      have hrest := ih c
      have hleft := distance_cons_left_le x a (z :: c)
      have hright := distance_cons_right_le z (x :: a) c
      rw [distance_cons_cons x z b c]
      rw [distance_cons_cons x z a c] at hleft hright ⊢
      omega

theorem distance_self (a : List α) : distance a a = 0 := by
  induction a with
  | nil => simp
  | cons x a ih => exact Nat.le_zero.mp (ih ▸ distance_keep_le x a a)

theorem distance_le_of_edits {n : Nat} (h : Edits n a b) : distance a b ≤ n := by
  induction h with
  | refl a => exact Nat.le_of_eq (distance_self a)
  | step hedit _ ih => exact Nat.le_trans (distance_le_of_edit hedit _) (Nat.succ_le_succ ih)

/-- The recurrence tells how to get there. -/
theorem edits_distance (a b : List α) : Edits (distance a b) a b := by
  have hnil (b : List α) : Edits b.length [] b := by
    induction b with
    | nil => exact .refl []
    | cons y b ih => exact ih.trans (.of_edit (.insert y b))
  induction a generalizing b with
  | nil =>
    rw [distance_nil_left]
    exact hnil b
  | cons x a ih =>
    induction b with
    | nil =>
      rw [distance_nil_right]
      exact (hnil (x :: a)).symm
    | cons y b ihb =>
      have hdelete : Edits (distance a (y :: b) + 1) (x :: a) (y :: b) :=
        .step (.delete x a) (ih (y :: b))
      have hinsert : Edits (distance (x :: a) b + 1) (x :: a) (y :: b) :=
        ihb.trans (.of_edit (.insert y b))
      have hkeep : Edits (distance a b + if x = y then 0 else 1) (x :: a) (y :: b) := by
        split
        · next heq =>
          subst heq
          exact (ih b).keep x
        · exact ((ih b).keep x).trans (.of_edit (.substitute x y b))
      rw [distance_cons_cons]
      obtain hmin | hmin := min_choice (min (distance a (y :: b) + 1) (distance (x :: a) b + 1))
        (distance a b + if x = y then 0 else 1)
      · rw [hmin]
        obtain hmin | hmin := min_choice (distance a (y :: b) + 1) (distance (x :: a) b + 1)
        · rw [hmin]
          exact hdelete
        · rw [hmin]
          exact hinsert
      · rw [hmin]
        exact hkeep

/-- The distance is the least number of edits. -/
theorem isLeast_distance (a b : List α) : IsLeast {n | Edits n a b} (distance a b) :=
  ⟨edits_distance a b, fun _ h => distance_le_of_edits h⟩

theorem distance_reverse (a b : List α) : distance a.reverse b.reverse = distance a b := by
  have hle (a b : List α) : distance a.reverse b.reverse ≤ distance a b :=
    distance_le_of_edits (edits_distance a b).reverse
  have hge := hle a.reverse b.reverse
  rw [List.reverse_reverse, List.reverse_reverse] at hge
  exact Nat.le_antisymm (hle a b) hge

theorem distance_comm (a b : List α) : distance a b = distance b a :=
  Nat.le_antisymm (distance_le_of_edits (edits_distance b a).symm)
    (distance_le_of_edits (edits_distance a b).symm)

theorem distance_eq_zero_iff : distance a b = 0 ↔ a = b := by
  constructor
  · intro h
    have hedits := edits_distance a b
    rw [h] at hedits
    exact Edits.zero_iff.mp hedits
  · rintro rfl
    exact distance_self a

theorem distance_triangle (a b c : List α) : distance a c ≤ distance a b + distance b c :=
  distance_le_of_edits ((edits_distance a b).trans (edits_distance b c))

end Distance

end Tckr
