import Mathlib.Algebra.Order.Group.Abs
import Mathlib.Algebra.Order.Group.Int
import Mathlib.Data.List.Basic

/-!
# Figures of a stream

What is kept of a stream of amounts: how many there were, the least, the greatest,
the last, and the widest move from one to the next. Where the amounts belong to
keys, each key has the figures of its own amounts.
-/

namespace Tckr

universe u v

variable {κ : Type u} {α : Type v}

/-- The figures of a stream. -/
structure Figures (α : Type v) where
  count : Int
  least : α
  greatest : α
  last : α
  /-- The widest move between consecutive amounts. -/
  widest : α
  deriving DecidableEq, Repr

/-- How far each amount is from the one before. -/
def moves [AddGroup α] [Lattice α] : α → List α → List α
  | _, [] => []
  | last, amount :: amounts => |amount - last| :: moves amount amounts

theorem moves_append_singleton [AddGroup α] [Lattice α] (first amount : α) (amounts : List α) :
    moves first (amounts ++ [amount]) =
      moves first amounts ++ [|amount - amounts.getLastD first|] := by
  induction amounts generalizing first with
  | nil => rfl
  | cons b amounts ih =>
    rw [List.cons_append, moves, ih b, moves, List.cons_append, List.getLastD_cons]

/-- Later amounts keep the moves there were. -/
theorem mem_moves_append [AddGroup α] [Lattice α] {first move : α} {amounts : List α}
    (h : move ∈ moves first amounts) (later : List α) : move ∈ moves first (amounts ++ later) := by
  induction amounts generalizing first with
  | nil => cases h
  | cons b amounts ih =>
    rw [moves, List.mem_cons] at h
    rw [List.cons_append, moves, List.mem_cons]
    exact h.imp_right ih

namespace Figures

variable [AddGroup α] [LinearOrder α]

/-- The figures of a first amount and those that follow. -/
def of (first : α) (amounts : List α) : Figures α where
  count := amounts.length + 1
  least := amounts.foldl min first
  greatest := amounts.foldl max first
  last := amounts.getLastD first
  widest := (moves first amounts).foldl max 0

/-- The figures after one more amount. -/
def note (f : Figures α) (amount : α) : Figures α where
  count := f.count + 1
  least := min f.least amount
  greatest := max f.greatest amount
  last := amount
  widest := max f.widest |amount - f.last|

theorem of_append_singleton (first amount : α) (amounts : List α) :
    of first (amounts ++ [amount]) = (of first amounts).note amount := by
  unfold of note
  rw [List.getLastD_concat, moves_append_singleton, List.foldl_append, List.foldl_append,
    List.foldl_append, List.length_append, List.length_singleton]
  push_cast
  rfl

end Figures

/-- The greatest of a list is below a bound exactly when all of it is. -/
theorem foldl_max_lt_iff [LinearOrder α] {l : List α} {start bound : α} :
    l.foldl max start < bound ↔ start < bound ∧ ∀ a ∈ l, a < bound := by
  induction l generalizing start with
  | nil => simp only [List.foldl_nil, List.not_mem_nil, false_implies, implies_true, and_true]
  | cons a l ih =>
    rw [List.foldl_cons, ih, max_lt_iff, List.forall_mem_cons, and_assoc]

section Keyed

variable [DecidableEq κ]

/-- The amounts of a key. -/
def own (k : κ) (log : List (κ × α)) : List α := (log.filter fun e => e.1 = k).map Prod.snd

theorem own_append (k : κ) (log later : List (κ × α)) :
    own k (log ++ later) = own k log ++ own k later := by
  rw [own, List.filter_append, List.map_append]
  rfl

theorem own_append_self (k : κ) (a : α) (log : List (κ × α)) :
    own k (log ++ [(k, a)]) = own k log ++ [a] := by
  simp only [own, List.filter_append, List.map_append, List.filter_cons, decide_true, if_true,
    List.filter_nil, List.map_cons, List.map_nil]

theorem own_append_of_ne {k k' : κ} (h : k' ≠ k) (a : α) (log : List (κ × α)) :
    own k (log ++ [(k', a)]) = own k log := by
  simp only [own, List.filter_append, List.filter_cons, h, decide_false, Bool.false_eq_true,
    if_false, List.filter_nil, List.append_nil]

theorem own_eq_nil {k : κ} {log : List (κ × α)} : own k log = [] ↔ k ∉ log.map Prod.fst := by
  rw [own, List.map_eq_nil_iff, List.filter_eq_nil_iff, List.mem_map]
  constructor
  · rintro h ⟨e, he, rfl⟩
    exact h e he (decide_eq_true rfl)
  · intro h e he hk
    exact h ⟨e, he, of_decide_eq_true hk⟩

end Keyed

end Tckr
