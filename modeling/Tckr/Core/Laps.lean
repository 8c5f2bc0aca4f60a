import Mathlib.Algebra.BigOperators.Group.List.Basic
import Mathlib.Algebra.Order.Ring.Int
import Mathlib.Logic.Function.Basic

/-!
# Slots that are used lap after lap

A ring of slots keeps what belongs to the last positions of an endless line, each
position in the slot of its remainder. While the head moves on slot by slot, cleaned
of the lap before, the ring says of every recent position what a function of the line
says; a stale position shares its slot with a recent one.
-/

namespace Tckr.Laps

variable {n : Nat} [NeZero n] {M : Type}

section

variable (n)

/-- The slot of a position. -/
def slot (b : Int) : Fin n :=
  ⟨(b % n).toNat, by
    have hpos : (0 : Int) < n := Int.natCast_pos.mpr (Nat.pos_of_neZero n)
    have hlt := Int.emod_lt_of_pos b hpos
    omega⟩

/-- A position among the last up to the head. -/
def Recent (head b : Int) : Prop := head - n < b ∧ b ≤ head

instance (head b : Int) : Decidable (Recent n head b) := inferInstanceAs (Decidable (_ ∧ _))

end

theorem slot_eq_iff {b c : Int} : slot n b = slot n c ↔ b % n = c % n := by
  have hpos : (n : Int) ≠ 0 := Int.natCast_ne_zero.mpr (NeZero.ne n)
  have hb := Int.emod_nonneg b hpos
  have hc := Int.emod_nonneg c hpos
  rw [slot, slot, Fin.mk.injEq]
  omega

/-- Recent positions have different slots. -/
theorem eq_of_slot_eq {head b c : Int} (hb : Recent n head b) (hc : Recent n head c)
    (h : slot n b = slot n c) : b = c := by
  obtain ⟨k, hk⟩ : (n : Int) ∣ b - c :=
    Int.dvd_of_emod_eq_zero (Int.emod_eq_emod_iff_emod_sub_eq_zero.mp (slot_eq_iff.mp h))
  have hpos : (0 : Int) < n := Int.natCast_pos.mpr (Nat.pos_of_neZero n)
  obtain ⟨hb, hb'⟩ := hb
  obtain ⟨hc, hc'⟩ := hc
  have hlt : k < 1 := lt_of_mul_lt_mul_left (by omega : (n : Int) * k < n * 1) hpos.le
  have hgt : -1 < k := lt_of_mul_lt_mul_left (by omega : (n : Int) * -1 < n * k) hpos.le
  obtain rfl : k = 0 := by omega
  omega

variable {slots : Fin n → M} {head : Int} {f : Int → M}

/-- The slots say of every recent position what the function says. -/
def Holds (slots : Fin n → M) (head : Int) (f : Int → M) : Prop :=
  ∀ b, Recent n head b → slots (slot n b) = f b

/-- Writing a recent position writes the function there. -/
theorem Holds.update (h : Holds slots head f) {b : Int} (hb : Recent n head b) (v : M) :
    Holds (Function.update slots (slot n b) v) head (Function.update f b v) := by
  intro c hc
  by_cases hcb : c = b
  · rw [hcb, Function.update_self, Function.update_self]
  · have hslot : slot n c ≠ slot n b := fun heq => hcb (eq_of_slot_eq hc hb heq)
    rw [Function.update_of_ne hslot, Function.update_of_ne hcb, h c hc]

/-- The head moves on by one when the slot it enters is written. -/
theorem Holds.next (h : Holds slots head f) :
    Holds (Function.update slots (slot n (head + 1)) (f (head + 1))) (head + 1) f := by
  have hhead : Recent n (head + 1) (head + 1) := by
    have hpos := Nat.pos_of_neZero n
    constructor <;> omega
  intro c hc
  by_cases hc1 : c = head + 1
  · rw [hc1, Function.update_self]
  · have hslot : slot n c ≠ slot n (head + 1) := fun heq => hc1 (eq_of_slot_eq hc hhead heq)
    obtain ⟨hlo, hhi⟩ := hc
    rw [Function.update_of_ne hslot, h c ⟨by omega, by omega⟩]

/-- Write a value in the slots of so many positions in turn. -/
def fill (v : M) : Nat → Int → (Fin n → M) → Fin n → M
  | 0, _, slots => slots
  | count + 1, b, slots => fill v count (b + 1) (Function.update slots (slot n b) v)

/-- The head moves on over positions that have nothing yet. -/
theorem Holds.fill {v : M} {count : Nat} (h : Holds slots head f)
    (hnew : ∀ b, head < b → b ≤ head + count → f b = v) :
    Holds (fill v count (head + 1) slots) (head + count) f := by
  induction count generalizing slots head with
  | zero => simpa [Laps.fill] using h
  | succ count ih =>
    have hnext := h.next
    rw [hnew (head + 1) (by omega) (by omega)] at hnext
    have hrest := ih hnext fun b hlo hhi => hnew b (by omega) (by omega)
    have hcount : head + ((count + 1 : Nat) : Int) = head + 1 + count := by omega
    rw [hcount]
    exact hrest

/-- A head that leaves a whole lap behind finds nothing there. -/
theorem holds_const {v : M} (hnew : ∀ b, Recent n head b → f b = v) :
    Holds (fun _ : Fin n => v) head f := fun b hb => (hnew b hb).symm

/-! ## Amounts at positions -/

section Tally

variable [AddCommMonoid M] {log : List (Int × M)}

/-- The sum of the amounts at the positions that are asked for. -/
def tally (log : List (Int × M)) (p : Int → Bool) : M :=
  ((log.filter fun e => p e.1).map Prod.snd).sum

/-- The sum of the amounts at a position. -/
def tallyAt (log : List (Int × M)) (b : Int) : M := tally log fun c => c = b

theorem tally_append (log log' : List (Int × M)) (p : Int → Bool) :
    tally (log ++ log') p = tally log p + tally log' p := by
  rw [tally, List.filter_append, List.map_append, List.sum_append, tally, tally]

theorem tally_singleton (b : Int) (v : M) (p : Int → Bool) :
    tally [(b, v)] p = if p b then v else 0 := by
  cases hp : p b with
  | true => simp [tally, hp]
  | false => simp [tally, hp]

/-- An amount is added at its position and nowhere else. -/
theorem tallyAt_append_singleton (log : List (Int × M)) (b : Int) (v : M) :
    tallyAt (log ++ [(b, v)]) = Function.update (tallyAt log) b (tallyAt log b + v) := by
  funext c
  rw [tallyAt, tally_append, tally_singleton]
  by_cases hc : c = b
  · rw [hc, Function.update_self, if_pos (by simp), tallyAt]
  · rw [Function.update_of_ne hc, if_neg (by simpa using Ne.symm hc), add_zero, tallyAt]

theorem tallyAt_eq_zero {b : Int} (h : ∀ e ∈ log, e.1 < b) : tallyAt log b = 0 := by
  have hnone : (log.filter fun e => decide (e.1 = b)) = [] := by
    rw [List.filter_eq_nil_iff]
    intro e he
    have hlt := h e he
    simp only [decide_eq_true_eq]
    omega
  rw [tallyAt, tally, hnone, List.map_nil, List.sum_nil]

/-- Amounts at two kinds of positions that exclude each other add up. -/
theorem tally_or {p q : Int → Bool} (h : ∀ b, p b = true → q b = false) :
    tally log (fun b => p b || q b) = tally log p + tally log q := by
  induction log with
  | nil => simp [tally]
  | cons e log ih =>
    have hcons (r : Int → Bool) :
        tally (e :: log) r = (if r e.1 then e.2 else 0) + tally log r := by
      rw [← List.singleton_append, tally_append, tally_singleton]
    rw [hcons, hcons, hcons, ih]
    cases hp : p e.1 with
    | true => simp [h e.1 hp, add_assoc]
    | false =>
      simp only [Bool.false_or, Bool.false_eq_true, if_false, zero_add]
      rw [add_left_comm]

/-- Positions in a row add up to what is between the first and the last. -/
theorem sum_tallyAt (log : List (Int × M)) (first : Int) (count : Nat) :
    ((List.range count).map fun i : Nat => tallyAt log (first + i)).sum =
      tally log fun b => first ≤ b && b < first + count := by
  induction count with
  | zero =>
    have hnone : (fun b : Int => first ≤ b && b < first + (0 : Nat)) = fun _ => false := by
      funext b
      simp only [Bool.and_eq_false_iff, decide_eq_false_iff_not]
      omega
    rw [hnone, tally, List.filter_false]
    rfl
  | succ count ih =>
    have hsplit : (fun b : Int => first ≤ b && b < first + (count + 1 : Nat)) =
        fun b => (first ≤ b && b < first + count) || b = first + count := by
      funext b
      rw [Bool.eq_iff_iff]
      simp only [Bool.and_eq_true, Bool.or_eq_true, decide_eq_true_eq]
      omega
    rw [List.range_succ, List.map_append, List.sum_append, ih, List.map_singleton,
      List.sum_singleton, hsplit, tally_or, tallyAt]
    intro b hb
    simp only [Bool.and_eq_true, decide_eq_true_eq] at hb
    simp only [decide_eq_false_iff_not]
    omega

end Tally

end Tckr.Laps
