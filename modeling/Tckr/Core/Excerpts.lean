import Mathlib.Data.List.Range
import Mathlib.Data.List.Sublists

/-!
# Excerpts

An excerpt keeps some of the entries of a source in their order, each beside its place,
counted from 1. What holds of the source in order holds of every excerpt of it.
-/

namespace Tckr

universe u

variable {α : Type u} {source : List α} {entries more : List (Nat × α)}

/-- The entry stands in the source at its place. -/
def StandsIn (source : List α) (e : Nat × α) : Prop := 1 ≤ e.1 ∧ source[e.1 - 1]? = some e.2

/-- Entries of a source with their places, in order. -/
structure Excerpt (source : List α) (entries : List (Nat × α)) : Prop where
  ordered : (entries.map Prod.fst).Pairwise (· < ·)
  stands : ∀ e ∈ entries, StandsIn source e

namespace StandsIn

variable {e : Nat × α}

/-- A longer source has its entries where they were. -/
theorem append (h : StandsIn source e) (later : List α) : StandsIn (source ++ later) e := by
  refine ⟨h.1, ?_⟩
  have hlt : e.1 - 1 < source.length := (List.getElem?_eq_some_iff.mp h.2).1
  rw [List.getElem?_append_left hlt]
  exact h.2

/-- An entry of what follows stands that much further on. -/
theorem prepend (h : StandsIn source e) (earlier : List α) :
    StandsIn (earlier ++ source) (earlier.length + e.1, e.2) := by
  obtain ⟨hone, hget⟩ := h
  refine ⟨by dsimp only; omega, ?_⟩
  have hplace : earlier.length + e.1 - 1 = earlier.length + (e.1 - 1) := by omega
  dsimp only
  rw [hplace, List.getElem?_append_right (Nat.le_add_right _ _), Nat.add_sub_cancel_left]
  exact hget

end StandsIn

/-- The entries of a list, numbered from a place on. -/
def placed (first : Nat) : List α → List (Nat × α)
  | [] => []
  | x :: xs => (first, x) :: placed (first + 1) xs

/-- What is appended stands behind what was there. -/
theorem standsIn_placed (before xs : List α) :
    ∀ e ∈ placed (before.length + 1) xs, StandsIn (before ++ xs) e := by
  induction xs generalizing before with
  | nil => exact fun e he => absurd he List.not_mem_nil
  | cons x xs ih =>
    intro e he
    rcases List.mem_cons.mp he with rfl | he
    · refine ⟨Nat.succ_pos _, ?_⟩
      simp
    · have hrest := ih (before ++ [x]) e (by rwa [List.length_append, List.length_singleton])
      rwa [List.append_assoc, List.singleton_append] at hrest

namespace Excerpt

theorem nil (source : List α) : Excerpt source [] :=
  ⟨List.Pairwise.nil, fun _ he => absurd he List.not_mem_nil⟩

/-- An excerpt of a source is one of every source that begins with it. -/
theorem append (h : Excerpt source entries) (later : List α) : Excerpt (source ++ later) entries :=
  ⟨h.ordered, fun e he => (h.stands e he).append later⟩

/-- An excerpt of what follows is one of the whole, that much further on. -/
theorem prepend (h : Excerpt source entries) (earlier : List α) :
    Excerpt (earlier ++ source) (entries.map fun e => (earlier.length + e.1, e.2)) := by
  refine ⟨?_, fun e he => ?_⟩
  · have hordered := List.pairwise_map.mp h.ordered
    rw [List.map_map, List.pairwise_map]
    refine hordered.imp fun {x y} hlt => ?_
    exact Nat.add_lt_add_left hlt _
  · obtain ⟨e, hmem, rfl⟩ := List.mem_map.mp he
    exact (h.stands e hmem).prepend earlier

/-- Entries beyond a place are a sublist of what follows it. -/
theorem sublist_drop (h : Excerpt source entries) {k : Nat} (hk : ∀ e ∈ entries, k < e.1) :
    (entries.map Prod.snd).Sublist (source.drop k) := by
  induction entries generalizing k with
  | nil => exact List.nil_sublist _
  | cons e entries ih =>
    obtain ⟨hfirst, hrest⟩ := List.pairwise_cons.mp h.ordered
    obtain ⟨hone, hget⟩ := h.stands e List.mem_cons_self
    have hlt := hk e List.mem_cons_self
    have hbehind := ih ⟨hrest, fun x hx => h.stands x (List.mem_cons_of_mem e hx)⟩
      fun x hx => hfirst _ (List.mem_map_of_mem hx)
    obtain ⟨hbound, hget⟩ := List.getElem?_eq_some_iff.mp hget
    have hnext : e.1 - 1 + 1 = e.1 := by omega
    have hskip : k + (e.1 - 1 - k) = e.1 - 1 := by omega
    have hhead : source.drop (e.1 - 1) = e.2 :: source.drop e.1 := by
      rw [List.drop_eq_getElem_cons hbound, hget, hnext]
    have hdrop : ((source.drop k).drop (e.1 - 1 - k)) = e.2 :: source.drop e.1 := by
      rw [List.drop_drop, hskip, hhead]
    rw [List.map_cons]
    exact (hbehind.cons_cons e.2).trans (hdrop ▸ List.drop_sublist _ _)

/-- The entries of an excerpt are a sublist of the source. -/
theorem sublist (h : Excerpt source entries) : (entries.map Prod.snd).Sublist source :=
  h.sublist_drop (k := 0) fun e he => (h.stands e he).1

/-- What holds of any two entries of the source in order holds of any two of an excerpt. -/
theorem pairwise {R : α → α → Prop} (h : Excerpt source entries) (hR : source.Pairwise R) :
    (entries.map Prod.snd).Pairwise R := hR.sublist h.sublist

end Excerpt

end Tckr
