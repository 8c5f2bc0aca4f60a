import Mathlib.Data.List.Pairwise
import Mathlib.Order.Lattice

/-!
# Half-open windows

Windows over a linear order, each from its start to before its end. When they stand in
order without overlaps a point is in at most one of them, so the first match of a scan
is the only one, and the order they were given in does not matter.
-/

namespace Tckr.Windows

variable {α ι : Type} [LinearOrder α]

section

variable (lo hi : ι → α)

/-- A window holds the points from its start to before its end. -/
def Contains (i : ι) (t : α) : Prop := lo i ≤ t ∧ t < hi i

/-- Real windows in order, each over before the next starts. -/
structure Apart (l : List ι) : Prop where
  real : ∀ i ∈ l, lo i < hi i
  chain : l.IsChain fun i j => hi i ≤ lo j

end

variable {lo hi : ι → α} {l l' : List ι} {t : α}

theorem Apart.tail {i : ι} (h : Apart lo hi (i :: l)) : Apart lo hi l where
  real j hj := h.real j (List.mem_cons_of_mem i hj)
  chain := h.chain.of_cons

/-- A window is over before every later one starts. -/
theorem Apart.pairwise (h : Apart lo hi l) : l.Pairwise fun i j => hi i ≤ lo j := by
  induction l with
  | nil => exact List.Pairwise.nil
  | cons i l ih =>
    have hl := ih h.tail
    refine List.pairwise_cons.mpr ⟨fun j hj => ?_, hl⟩
    cases l with
    | nil => cases hj
    | cons k l =>
      have hik : hi i ≤ lo k := (List.isChain_cons_cons.mp h.chain).1
      rcases List.mem_cons.mp hj with rfl | hj
      · exact hik
      · calc hi i ≤ lo k := hik
          _ ≤ hi k := (h.real k (by simp)).le
          _ ≤ lo j := (List.pairwise_cons.mp hl).1 j hj

/-- The first window starts first. -/
theorem Apart.head_le {i : ι} (h : Apart lo hi (i :: l)) {j : ι} (hj : j ∈ i :: l) :
    lo i ≤ lo j := by
  rcases List.mem_cons.mp hj with rfl | hj
  · exact le_rfl
  · calc lo i ≤ hi i := (h.real i List.mem_cons_self).le
      _ ≤ lo j := (List.pairwise_cons.mp h.pairwise).1 j hj

/-- A point is in at most one window. -/
theorem Apart.eq_of_contains (h : Apart lo hi l) {i j : ι} (hmem : i ∈ l) (hmem' : j ∈ l)
    (hit : Contains lo hi i t) (hjt : Contains lo hi j t) : i = j := by
  induction l with
  | nil => cases hmem
  | cons k l ih =>
    have hafter {m : ι} (hm : m ∈ l) : hi k ≤ lo m := (List.pairwise_cons.mp h.pairwise).1 m hm
    rcases List.mem_cons.mp hmem with rfl | hi' <;> rcases List.mem_cons.mp hmem' with rfl | hj'
    · rfl
    · exact absurd (hit.2.trans_le (hafter hj')) hjt.1.not_gt
    · exact absurd (hjt.2.trans_le (hafter hi')) hit.1.not_gt
    · exact ih h.tail hi' hj'

/-- Windows that start together are the same. -/
theorem Apart.eq_of_start (h : Apart lo hi l) {i j : ι} (hmem : i ∈ l) (hmem' : j ∈ l)
    (heq : lo i = lo j) : i = j :=
  @eq_of_contains _ _ _ lo hi l (lo i) h i j hmem hmem' ⟨le_rfl, h.real i hmem⟩
    ⟨heq.ge, heq ▸ h.real j hmem'⟩

/-- Sorting by the starts undoes every reordering. -/
theorem Apart.eq_of_perm (h : Apart lo hi l) (hperm : l'.Perm l)
    (hl' : l'.Pairwise fun i j => lo i ≤ lo j) : l' = l := by
  have hl : l.Pairwise fun i j => lo i ≤ lo j := by
    refine h.pairwise.imp_of_mem fun {i j} hmem _ hle => ?_
    exact (h.real i hmem).le.trans hle
  exact hperm.eq_of_pairwise (fun i j hmem hmem' hij hji =>
    h.eq_of_start (hperm.subset hmem) hmem' (le_antisymm hij hji)) hl' hl

end Tckr.Windows
