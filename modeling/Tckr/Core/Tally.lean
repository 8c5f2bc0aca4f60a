import Mathlib.Algebra.BigOperators.Group.List.Basic
import Mathlib.Algebra.Ring.Int.Defs
import Mathlib.Data.List.Induction
import Mathlib.Order.Lattice

/-!
# A running total and its cuts

Timed entries add up to a total, and a cut states what they add up to at its own
time. Whoever holds a cut and the entries after it knows the total. A new entry
adds to it as long as it is newer than every cut; a new cut replaces it as long as
it is newer than every other and covers every entry.
-/

namespace Tckr

universe u v w

/-- Entries with a time and an amount, and cuts with a time and a total. -/
structure Tally (ε : Type u) (κ : Type v) (τ : Type w) where
  time : ε → τ
  amount : ε → Int
  cutTime : κ → τ
  total : κ → Int

namespace Tally

variable {ε : Type u} {κ : Type v} {τ : Type w} [LinearOrder τ] (c : Tally ε κ τ)

/-- The newer of two cuts; of two of one time, the second. -/
def later (best : Option κ) (cut : κ) : Option κ :=
  match best with
  | none => some cut
  | some b => if c.cutTime cut < c.cutTime b then some b else some cut

/-- The newest cut; of several of one time, the last. -/
def newest (cuts : List κ) : Option κ := cuts.foldl c.later none

/-- The entries newer than the newest cut. -/
def newer (cuts : List κ) (entries : List ε) : List ε :=
  match c.newest cuts with
  | none => entries
  | some cut => entries.filter fun e => c.cutTime cut < c.time e

/-- What the newest cut states, and the amounts of the entries newer than it. -/
def volume (cuts : List κ) (entries : List ε) : Int :=
  ((c.newest cuts).map c.total).getD 0 + ((c.newer cuts entries).map c.amount).sum

/-- An entry that no cut of the list states already. -/
def Fresh (cuts : List κ) (e : ε) : Prop := ∀ cut ∈ cuts, c.cutTime cut < c.time e

/-- A cut that states all there was before it. -/
structure Covers (cut : κ) (cuts : List κ) (entries : List ε) : Prop where
  cuts : ∀ b ∈ cuts, c.cutTime b ≤ c.cutTime cut
  entries : ∀ e ∈ entries, c.time e ≤ c.cutTime cut

instance (cuts : List κ) (e : ε) : Decidable (c.Fresh cuts e) :=
  inferInstanceAs (Decidable (∀ cut ∈ cuts, c.cutTime cut < c.time e))

instance (cut : κ) (cuts : List κ) (entries : List ε) : Decidable (c.Covers cut cuts entries) :=
  decidable_of_iff ((∀ b ∈ cuts, c.cutTime b ≤ c.cutTime cut) ∧
    ∀ e ∈ entries, c.time e ≤ c.cutTime cut) ⟨fun h => ⟨h.1, h.2⟩, fun h => ⟨h.1, h.2⟩⟩

variable {c} {cuts : List κ} {entries : List ε} {cut : κ} {e : ε}

@[simp] theorem newest_nil : c.newest [] = none := rfl

@[simp] theorem newest_append : c.newest (cuts ++ [cut]) = c.later (c.newest cuts) cut := by
  rw [newest, List.foldl_append]
  rfl

/-- The newest cut is one of the cuts. -/
theorem mem_of_newest (h : c.newest cuts = some cut) : cut ∈ cuts := by
  induction cuts using List.reverseRecOn generalizing cut with
  | nil => cases h
  | append_singleton cuts b ih =>
    rw [newest_append] at h
    cases hbest : c.newest cuts with
    | none =>
      rw [hbest] at h
      cases h
      simp
    | some best =>
      rw [hbest, later] at h
      split at h
      · cases h
        exact List.mem_append_left _ (ih hbest)
      · cases h
        simp

/-- A cut at least as new as every other is the newest. -/
theorem newest_append_of_le (h : ∀ b ∈ cuts, c.cutTime b ≤ c.cutTime cut) :
    c.newest (cuts ++ [cut]) = some cut := by
  rw [newest_append]
  cases hbest : c.newest cuts with
  | none => rfl
  | some best => exact if_neg (not_lt.mpr (h best (mem_of_newest hbest)))

/-- A fresh entry is among the newer ones. -/
theorem newer_append_of_fresh (h : c.Fresh cuts e) :
    c.newer cuts (entries ++ [e]) = c.newer cuts entries ++ [e] := by
  unfold newer
  cases hbest : c.newest cuts with
  | none => rfl
  | some best =>
    have hnewer : c.cutTime best < c.time e := h best (mem_of_newest hbest)
    simp [hnewer]

/-- A fresh entry adds its amount. -/
theorem volume_append_of_fresh (h : c.Fresh cuts e) :
    c.volume cuts (entries ++ [e]) = c.volume cuts entries + c.amount e := by
  rw [volume, newer_append_of_fresh h, volume]
  simp [add_assoc]

/-- No entry is newer than a cut that covers them all. -/
theorem newer_append_of_covers (h : c.Covers cut cuts entries) :
    c.newer (cuts ++ [cut]) entries = [] := by
  rw [newer, newest_append_of_le h.cuts, List.filter_eq_nil_iff]
  intro e he
  simpa using h.entries e he

/-- A cut that covers everything states the total. -/
theorem volume_append_of_covers (h : c.Covers cut cuts entries) :
    c.volume (cuts ++ [cut]) entries = c.total cut := by
  rw [volume, newer_append_of_covers h, newest_append_of_le h.cuts]
  simp

end Tally

end Tckr
