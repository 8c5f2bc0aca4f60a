import Mathlib.Data.List.Basic
import Mathlib.Tactic.SplitIfs

/-!
# Ranking by a comparator

A comparator says by a number's sign which of two comes first. Sorting by it is stable, and
the first so many of the sorted list are the best there are.
-/

namespace Tckr

universe u v

/-- A consistent comparison: not positive where the first may stand before the second. -/
structure Comparator (α : Type u) where
  compare : α → α → Int
  swap : ∀ a b, 0 < compare a b ↔ compare b a < 0
  trans : ∀ a b c, compare a b ≤ 0 → compare b c ≤ 0 → compare a c ≤ 0

namespace Comparator

variable {α : Type u} {β : Type v}

/-- By a number, the least first. -/
def ofKey (f : α → Int) : Comparator α where
  compare a b := f a - f b
  swap a b := by omega
  trans a b c := by omega

/-- By what is read off. -/
def on (c : Comparator β) (f : α → β) : Comparator α where
  compare a b := c.compare (f a) (f b)
  swap a b := c.swap (f a) (f b)
  trans x y z := c.trans (f x) (f y) (f z)

variable (c d : Comparator α)

/-- Where a comparison is level, so is the one the other way. -/
theorem level_comm {a b : α} : c.compare a b = 0 ↔ c.compare b a = 0 := by
  have hab := c.swap a b
  have hba := c.swap b a
  omega

/-- Between two that are level nothing lies lower or higher. -/
theorem level_of_level {x y z : α} (hxy : c.compare x y ≤ 0) (hyz : c.compare y z ≤ 0)
    (hxz : c.compare x z = 0) : c.compare x y = 0 ∧ c.compare y z = 0 := by
  have hlevel := c.level_comm.mp hxz
  have hzx : c.compare z x ≤ 0 := by omega
  have hyx : c.compare y x ≤ 0 := c.trans y z x hyz hzx
  have hzy : c.compare z y ≤ 0 := c.trans z x y hzx hxy
  have hswap := c.swap y x
  have hswap' := c.swap z y
  omega

/-- By a second comparator where the first is level. -/
def thenBy : Comparator α where
  compare a b := if c.compare a b ≠ 0 then c.compare a b else d.compare a b
  swap a b := by
    have hc := c.swap a b
    have hd := d.swap a b
    have hlevel : c.compare a b = 0 ↔ c.compare b a = 0 := c.level_comm
    split_ifs <;> omega
  trans x y z hxy hyz := by
    have hd := d.trans x y z
    have hfirst : c.compare x y ≤ 0 := by split_ifs at hxy <;> omega
    have hsecond : c.compare y z ≤ 0 := by split_ifs at hyz <;> omega
    have hboth := c.trans x y z hfirst hsecond
    have hleft := c.level_of_level hfirst hsecond
    split_ifs at hxy hyz ⊢ <;> omega

/-- A stable sort. -/
def sort (l : List α) : List α := l.mergeSort fun a b => decide (c.compare a b ≤ 0)

theorem le_trans (a b e : α) (hab : decide (c.compare a b ≤ 0) = true)
    (hbe : decide (c.compare b e ≤ 0) = true) : decide (c.compare a e ≤ 0) = true := by
  simp only [decide_eq_true_eq] at hab hbe ⊢
  exact c.trans a b e hab hbe

theorem le_total (a b : α) :
    (decide (c.compare a b ≤ 0) || decide (c.compare b a ≤ 0)) = true := by
  have hswap := c.swap a b
  simp only [Bool.or_eq_true, decide_eq_true_eq]
  omega

/-- The list is the other one, sorted stably: what stands in order in it stands so still. -/
structure Sorts (l sorted : List α) : Prop where
  perm : sorted.Perm l
  ordered : sorted.Pairwise fun a b => c.compare a b ≤ 0
  stable : ∀ ordered : List α, ordered.Sublist l →
    ordered.Pairwise (fun a b => c.compare a b ≤ 0) → ordered.Sublist sorted

theorem sorts_sort (l : List α) : c.Sorts l (c.sort l) where
  perm := l.mergeSort_perm _
  ordered := by
    have hordered := List.pairwise_mergeSort c.le_trans c.le_total l
    exact hordered.imp of_decide_eq_true
  stable ordered hsublist hordered :=
    List.sublist_mergeSort c.le_trans c.le_total (hordered.imp decide_eq_true) hsublist

/-- Sorting by what is read off is reading it off what is sorted. -/
theorem map_sort_on (c : Comparator β) (f : α → β) (l : List α) :
    ((c.on f).sort l).map f = c.sort (l.map f) :=
  List.map_mergeSort fun _ _ _ _ => rfl

end Comparator

end Tckr
