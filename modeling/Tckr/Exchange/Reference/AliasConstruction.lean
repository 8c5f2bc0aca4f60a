import Mathlib.Algebra.BigOperators.Ring.List
import Tckr.Core.AliasTable
import Tckr.Exchange.Generation.Reversion

/-!
# Building the alias table

The constructor of the weighted picker as a machine of its loops' steps: filling two
stacks that share one buffer, pairing until one of them is empty, and draining what
is left. Weights are exact rationals; an index out of range stops the machine. Beside
the arrays it keeps every bucket written, with the probability its threshold is
rounded from, which no step reads.
-/

namespace Tckr.Generation

open AliasTable

/-! ## The constructor -/

/-- The largest 32-bit threshold. -/
def uintMaxValue : Nat := 4294967295

/-- A probability scaled into the range of the coin. -/
def toThreshold (probability : ℚ) : Nat :=
  if probability ≤ 0 then 0
  else if roundHalfEven (probability * 4294967296) ≥ uintMaxValue then uintMaxValue
  else (roundHalfEven (probability * 4294967296)).toNat

/-- The loop a construction is in. -/
inductive Phase where
  | filling (next : Nat)
  | pairing
  | drainingLarge
  | drainingSmall
  | done
  deriving DecidableEq, Repr

/-- The locals and arrays of the constructor, and the buckets written so far. -/
structure Build where
  scaled : List ℚ
  work : List Nat
  smallTop : Nat
  largeTop : Nat
  thresholds : List Nat
  aliases : List Nat
  phase : Phase
  written : List (Entry Nat ℚ) := []
  deriving DecidableEq

namespace Build

variable (b : Build)

/-- `work[smallTop++] = i` -/
def pushSmall (i : Nat) : Option Build :=
  if b.smallTop < b.work.length then
    some { b with work := b.work.set b.smallTop i, smallTop := b.smallTop + 1 }
  else none

/-- `work[--largeTop] = i` -/
def pushLarge (i : Nat) : Option Build :=
  if 0 < b.largeTop ∧ b.largeTop - 1 < b.work.length then
    some { b with work := b.work.set (b.largeTop - 1) i, largeTop := b.largeTop - 1 }
  else none

/-- An index below one is small, any other large. -/
def push (i : Nat) : Option Build :=
  (b.scaled[i]?).bind fun q => if q < 1 then b.pushSmall i else b.pushLarge i

/-- `work[--smallTop]` -/
def popSmall : Option (Nat × Build) :=
  if 0 < b.smallTop then
    (b.work[b.smallTop - 1]?).map fun i => (i, { b with smallTop := b.smallTop - 1 })
  else none

/-- `work[largeTop++]` -/
def popLarge : Option (Nat × Build) :=
  (b.work[b.largeTop]?).map fun i => (i, { b with largeTop := b.largeTop + 1 })

/-- Write a bucket's threshold and alias. -/
def assign (bucket : Nat) (share : ℚ) (threshold partner : Nat) : Option Build :=
  if bucket < b.thresholds.length ∧ bucket < b.aliases.length then
    some { b with
      thresholds := b.thresholds.set bucket threshold
      aliases := b.aliases.set bucket partner
      written := b.written ++ [⟨bucket, share, partner⟩] }
  else none

/-- `scaled[large] -= 1 - share` -/
def donate (large : Nat) (share : ℚ) : Option Build :=
  (b.scaled[large]?).map fun q => { b with scaled := b.scaled.set large (q - (1 - share)) }

/-- Pair a small index with a large one. -/
def pair : Option Build :=
  b.popSmall.bind fun (small, b) =>
  b.popLarge.bind fun (large, b) =>
  (b.scaled[small]?).bind fun share =>
  (b.assign small share (toThreshold share) large).bind fun b =>
  (b.donate large share).bind fun b => b.push large

/-- One step of the loop the construction is in. -/
def step : Option Build :=
  match b.phase with
  | .filling 0 => some { b with phase := .pairing }
  | .filling (i + 1) => (b.push i).map fun b => { b with phase := .filling i }
  | .pairing =>
    if 0 < b.smallTop ∧ b.largeTop < b.scaled.length then b.pair
    else some { b with phase := .drainingLarge }
  | .drainingLarge =>
    if b.largeTop < b.scaled.length then
      b.popLarge.bind fun (large, b) => b.assign large 1 uintMaxValue large
    else some { b with phase := .drainingSmall }
  | .drainingSmall =>
    if 0 < b.smallTop then
      b.popSmall.bind fun (small, b) => b.assign small 1 uintMaxValue small
    else some { b with phase := .done }
  | .done => some b

/-- A number of steps. -/
def run : Nat → Build → Option Build
  | 0, b => some b
  | n + 1, b => b.step.bind (run n)

/-- Weights scaled to a mean of one. -/
def scale (weights : List ℚ) : List ℚ := weights.map (· * (weights.length / weights.sum))

/-- Before the first loop. -/
def start (weights : List ℚ) : Build where
  scaled := scale weights
  work := List.replicate weights.length 0
  smallTop := 0
  largeTop := weights.length
  thresholds := List.replicate weights.length 0
  aliases := List.replicate weights.length 0
  phase := .filling weights.length

end Build

/-- Why a picker is not built. -/
inductive PickerError where
  | empty
  | weight (index : Nat)
  | indexOutOfRange
  deriving DecidableEq, Repr

/-- Build the alias table; the steps of all loops together are at most this many. -/
def WeightedSymbolPicker.construct (weights : List ℚ) : Except PickerError WeightedSymbolPicker :=
  if weights = [] then .error .empty
  else match weights.findIdx? (· ≤ 0) with
  | some index => .error (.weight index)
  | none =>
    match Build.run (3 * weights.length + 4) (Build.start weights) with
    | none => .error .indexOutOfRange
    | some b =>
      if h : b.thresholds.length = b.aliases.length ∧ 0 < b.aliases.length ∧
          ∀ i ∈ b.aliases, i < b.aliases.length then
        .ok ⟨b.thresholds, b.aliases, h.1, h.2.1, h.2.2⟩
      else .error .indexOutOfRange

/-! ## Two stacks in one buffer -/

namespace Build

variable {b t : Build} {i : Nat}

/-- The small stack, its top first. -/
def small (b : Build) : List Nat := (b.work.take b.smallTop).reverse

/-- The large stack, its top first. -/
def large (b : Build) : List Nat := b.work.drop b.largeTop

/-- The stacks lie side by side in the buffer. -/
structure Stacks (b : Build) : Prop where
  smallTop_le : b.smallTop ≤ b.largeTop
  largeTop_le : b.largeTop ≤ b.work.length

theorem Stacks.small_length (h : Stacks b) : b.small.length = b.smallTop := by
  have hle := h.smallTop_le.trans h.largeTop_le
  simp [small, hle]

theorem large_length (b : Build) : b.large.length = b.work.length - b.largeTop := by
  simp [large]

/-- Pushing a small index where there is room touches its own stack only. -/
theorem pushSmall_eq (h : Stacks b) (hroom : b.smallTop < b.largeTop) (i : Nat) :
    ∃ t, b.pushSmall i = some t ∧ Stacks t ∧ t.small = i :: b.small ∧ t.large = b.large ∧
      t = { b with work := t.work, smallTop := t.smallTop } ∧ t.work.length = b.work.length := by
  have hlt : b.smallTop < b.work.length := hroom.trans_le h.largeTop_le
  refine ⟨{ b with work := b.work.set b.smallTop i, smallTop := b.smallTop + 1 },
    by rw [pushSmall, if_pos hlt], ⟨hroom, ?_⟩, ?_, ?_, rfl, ?_⟩
  · simpa using h.largeTop_le
  · simp [small, List.take_add_one, List.take_set_of_le, hlt]
  · simp [large, List.drop_set_of_lt hroom]
  · simp

/-- Pushing a large index where there is room touches its own stack only. -/
theorem pushLarge_eq (h : Stacks b) (hroom : b.smallTop < b.largeTop) (i : Nat) :
    ∃ t, b.pushLarge i = some t ∧ Stacks t ∧ t.small = b.small ∧ t.large = i :: b.large ∧
      t = { b with work := t.work, largeTop := t.largeTop } ∧ t.work.length = b.work.length := by
  have htop := h.largeTop_le
  have hguard : 0 < b.largeTop ∧ b.largeTop - 1 < b.work.length := by omega
  refine ⟨{ b with work := b.work.set (b.largeTop - 1) i, largeTop := b.largeTop - 1 },
    by rw [pushLarge, if_pos hguard], ⟨?_, ?_⟩, ?_, ?_, rfl, ?_⟩
  · dsimp only
    omega
  · simp only [List.length_set]
    omega
  · rw [small, small, List.take_set_of_le (by dsimp only; omega)]
  · have hlt : b.largeTop - 1 < (b.work.set (b.largeTop - 1) i).length := by simp; omega
    have hsucc : b.largeTop - 1 + 1 = b.largeTop := by omega
    dsimp only [large]
    rw [List.drop_eq_getElem_cons hlt, List.getElem_set_self, hsucc,
      List.drop_set_of_lt (by omega)]
  · simp

/-- Popping the small stack takes its top. -/
theorem popSmall_eq (h : Stacks b) {s : Nat} {small : List Nat} (hsmall : b.small = s :: small) :
    ∃ t, b.popSmall = some (s, t) ∧ Stacks t ∧ t.small = small ∧
      t = { b with smallTop := b.smallTop - 1 } ∧ 0 < b.smallTop := by
  have hlength := h.small_length
  rw [hsmall, List.length_cons] at hlength
  have hle := h.smallTop_le
  have hlt : b.smallTop - 1 < b.work.length := by have := h.largeTop_le; omega
  have htake : b.work.take b.smallTop =
      b.work.take (b.smallTop - 1) ++ [b.work[b.smallTop - 1]] := by
    rw [List.take_append_getElem hlt]
    congr 1
    omega
  rw [Build.small, htake, List.reverse_append, List.reverse_singleton, List.singleton_append,
    List.cons.injEq] at hsmall
  refine ⟨{ b with smallTop := b.smallTop - 1 }, ?_, ⟨?_, h.largeTop_le⟩, hsmall.2, rfl, by omega⟩
  · rw [popSmall, if_pos (by omega), List.getElem?_eq_getElem hlt, Option.map_some, hsmall.1]
  · dsimp only
    omega

/-- Popping the large stack takes its top. -/
theorem popLarge_eq (h : Stacks b) {l : Nat} {large : List Nat} (hlarge : b.large = l :: large) :
    ∃ t, b.popLarge = some (l, t) ∧ Stacks t ∧ t.large = large ∧
      t = { b with largeTop := b.largeTop + 1 } ∧ b.largeTop < b.work.length := by
  have hlt : b.largeTop < b.work.length := by
    have hlength := b.large_length
    rw [hlarge, List.length_cons] at hlength
    omega
  rw [Build.large, List.drop_eq_getElem_cons hlt, List.cons.injEq] at hlarge
  refine ⟨{ b with largeTop := b.largeTop + 1 }, ?_, ⟨?_, hlt⟩, hlarge.2, rfl, hlt⟩
  · rw [popLarge, List.getElem?_eq_getElem hlt, Option.map_some, hlarge.1]
  · exact h.smallTop_le.trans (Nat.le_succ _)

/-- Pushing where there is room puts an index on the stack its weight says. -/
theorem push_eq (h : Stacks b) (hroom : b.smallTop < b.largeTop) {i : Nat} {q : ℚ}
    (hq : b.scaled[i]? = some q) :
    ∃ t, b.push i = some t ∧ Stacks t ∧
      t.small = (if q < 1 then i :: b.small else b.small) ∧
      t.large = (if q < 1 then b.large else i :: b.large) ∧
      t = { b with work := t.work, smallTop := t.smallTop, largeTop := t.largeTop } ∧
      t.work.length = b.work.length := by
  rw [push, hq, Option.bind_some]
  by_cases hlt : q < 1
  · obtain ⟨t, ht, hstacks, hsmall, hlarge, heq, hlength⟩ := pushSmall_eq h hroom i
    refine ⟨t, by rw [if_pos hlt, ht], hstacks, by rw [if_pos hlt, hsmall],
      by rw [if_pos hlt, hlarge], ?_, hlength⟩
    rw [heq]
  · obtain ⟨t, ht, hstacks, hsmall, hlarge, heq, hlength⟩ := pushLarge_eq h hroom i
    refine ⟨t, by rw [if_neg hlt, ht], hstacks, by rw [if_neg hlt, hsmall],
      by rw [if_neg hlt, hlarge], ?_, hlength⟩
    rw [heq]

/-! ## The arrays -/

/-- Every bucket written stands in the arrays. -/
def Arrays (b : Build) (entries : List (Entry Nat ℚ)) : Prop :=
  ∀ e ∈ entries, b.thresholds[e.bucket]? = some (toThreshold e.share) ∧
    b.aliases[e.bucket]? = some e.partner

/-- Writing a bucket that was not written before keeps the ones that were. -/
theorem assign_eq {entries : List (Entry Nat ℚ)} {bucket partner : Nat} (share : ℚ)
    (hthresholds : bucket < b.thresholds.length) (haliases : bucket < b.aliases.length)
    (hfresh : bucket ∉ entries.map (·.bucket)) (h : Arrays b entries) :
    ∃ t, b.assign bucket share (toThreshold share) partner = some t ∧
      t = { b with
        thresholds := t.thresholds
        aliases := t.aliases
        written := b.written ++ [⟨bucket, share, partner⟩] } ∧
      t.thresholds.length = b.thresholds.length ∧ t.aliases.length = b.aliases.length ∧
      Arrays t (entries ++ [⟨bucket, share, partner⟩]) := by
  refine ⟨{ b with
    thresholds := b.thresholds.set bucket (toThreshold share)
    aliases := b.aliases.set bucket partner
    written := b.written ++ [⟨bucket, share, partner⟩] },
    by rw [assign, if_pos ⟨hthresholds, haliases⟩], rfl, List.length_set, List.length_set, ?_⟩
  intro e he
  dsimp only
  rcases List.mem_append.mp he with hold | hnew
  · have hne : bucket ≠ e.bucket := fun heq => hfresh (heq ▸ List.mem_map_of_mem hold)
    rw [List.getElem?_set_ne hne, List.getElem?_set_ne hne]
    exact h e hold
  · obtain rfl := List.mem_singleton.mp hnew
    dsimp only
    rw [List.getElem?_set_self hthresholds, List.getElem?_set_self haliases]
    exact ⟨rfl, rfl⟩

theorem toThreshold_one : toThreshold 1 = uintMaxValue := by
  have hround : roundHalfEven (1 * 4294967296) = 4294967296 := by
    rw [one_mul]
    exact roundHalfEven_intCast 4294967296
  rw [toThreshold, if_neg (by norm_num), hround, if_pos (by decide)]

/-! ## The loops and the pairing -/

/-- A construction stands where an abstract pairing does. -/
structure Simulates (n : Nat) (b : Build) (p : Pairing Nat ℚ) : Prop where
  sideBySide : Stacks b
  work_length : b.work.length = n
  scaled_length : b.scaled.length = n
  thresholds_length : b.thresholds.length = n
  aliases_length : b.aliases.length = n
  small_eq : b.small = p.small
  large_eq : b.large = p.large
  scaled_eq : ∀ i < n, b.scaled[i]? = some (p.weight i)
  written_eq : b.written = p.entries
  arrays : Arrays b p.entries

section Simulates

variable {n : Nat} {w : Nat → ℚ} {p : Pairing Nat ℚ} {s l : Nat} {small large : List Nat}

/-- An index still to be placed is in range, and its bucket is not written yet. -/
theorem fresh_of_live (h : Conserves (List.range n) w p) (hi : i ∈ p.live) :
    i < n ∧ i ∉ p.entries.map (·.bucket) := by
  refine ⟨List.mem_range.mp (h.perm.mem_iff.mp (List.mem_append_left _ hi)), fun hmem => ?_⟩
  have hnodup := h.perm.nodup_iff.mpr List.nodup_range
  exact List.disjoint_of_nodup_append hnodup hi hmem

/-- The pairing loop pairs. -/
theorem Simulates.pair (h : Simulates n b p) (hp : Conserves (List.range n) w p)
    (hsmall : p.small = s :: small) (hlarge : p.large = l :: large) :
    ∃ t, b.pair = some t ∧ t.phase = b.phase ∧ Simulates n t (p.donate s l small large) := by
  have hs := fresh_of_live hp (i := s) (by simp [Pairing.live, hsmall])
  have hl := fresh_of_live hp (i := l) (by simp [Pairing.live, hlarge])
  have hne : s ≠ l := by
    have hnodup := (hp.perm.nodup_iff.mpr List.nodup_range).of_append_left
    rw [Pairing.live, hsmall, hlarge] at hnodup
    exact fun heq => (List.nodup_cons.mp hnodup).1
      (List.mem_append_right _ (heq ▸ List.mem_cons_self))
  obtain ⟨b₁, hpop, hstacks₁, hsmall₁, heq₁, hpos⟩ :=
    popSmall_eq h.sideBySide (h.small_eq.trans hsmall)
  have hlarge₁ : b₁.large = l :: large := by
    rw [heq₁, ← hlarge, ← h.large_eq, Build.large, Build.large]
  obtain ⟨b₂, hpop', hstacks₂, hlarge₂, heq₂, -⟩ := popLarge_eq hstacks₁ hlarge₁
  have hsmall₂ : b₂.small = small := by rw [← hsmall₁, heq₂, Build.small, Build.small]
  have hb₂ : b₂ = { b with smallTop := b.smallTop - 1, largeTop := b.largeTop + 1 } := by
    rw [heq₂, heq₁]
  have hshare : b₂.scaled[s]? = some (p.weight s) := by
    rw [hb₂]
    exact h.scaled_eq s hs.1
  have harrays₂ : Arrays b₂ p.entries := by
    rw [hb₂]
    exact h.arrays
  obtain ⟨b₃, hassign, heq₃, hthresholds, haliases, harrays⟩ :=
    @assign_eq b₂ _ s l (p.weight s)
      (by rw [hb₂]; exact h.thresholds_length.symm ▸ hs.1)
      (by rw [hb₂]; exact h.aliases_length.symm ▸ hs.1) hs.2 harrays₂
  have hscaled₃ : b₃.scaled = b.scaled := by rw [heq₃, hb₂]
  have hlt : l < b.scaled.length := h.scaled_length.symm ▸ hl.1
  have hdonate : b₃.donate l (p.weight s) = some { b₃ with
      scaled := b.scaled.set l (p.weight l - (1 - p.weight s)) } := by
    rw [Build.donate, hscaled₃, h.scaled_eq l hl.1, Option.map_some]
  have hstacks₃ : Stacks { b₃ with
      scaled := b.scaled.set l (p.weight l - (1 - p.weight s)) } := by
    rw [heq₃]
    exact ⟨hstacks₂.smallTop_le, hstacks₂.largeTop_le⟩
  have hroom : b₃.smallTop < b₃.largeTop := by
    have hle := h.sideBySide.smallTop_le
    rw [heq₃, hb₂]
    dsimp only
    omega
  obtain ⟨t, hpush, hstacks, htsmall, htlarge, heq, hwork⟩ :=
    push_eq hstacks₃ hroom (List.getElem?_set_self hlt)
  have hb₃ : b₃ = { b₂ with
      thresholds := b₃.thresholds
      aliases := b₃.aliases
      written := b.written ++ [⟨s, p.weight s, l⟩] } := by
    rw [heq₃, hb₂]
  have hscaled : t.scaled = b.scaled.set l (p.weight l - (1 - p.weight s)) := by rw [heq]
  refine ⟨t, ?_, by rw [heq, hb₃, hb₂], hstacks, ?_, ?_, ?_, ?_, ?_, ?_, ?_, ?_, ?_⟩
  · simp only [Build.pair, hpop, hpop', hshare, hassign, hdonate, hpush, Option.bind_some]
  · rw [hwork, hb₃, hb₂]
    exact h.work_length
  · rw [hscaled, List.length_set, h.scaled_length]
  · rw [heq]
    exact hthresholds.trans (by rw [hb₂]; exact h.thresholds_length)
  · rw [heq]
    exact haliases.trans (by rw [hb₂]; exact h.aliases_length)
  · have hkept : b₃.small = small := by rw [← hsmall₂, hb₃, Build.small, Build.small]
    rw [htsmall, Pairing.donate_small, ← hkept]
    rfl
  · have hkept : b₃.large = large := by rw [← hlarge₂, hb₃, Build.large, Build.large]
    rw [htlarge, Pairing.donate_large, ← hkept]
    rfl
  · intro i hi
    rw [hscaled, Pairing.donate_weight]
    by_cases hil : l = i
    · subst hil
      rw [List.getElem?_set_self hlt, Function.update_self]
    · rw [List.getElem?_set_ne hil, Function.update_of_ne (Ne.symm hil), h.scaled_eq i hi]
  · rw [heq, hb₃, Pairing.donate_entries, h.written_eq]
  · rw [Pairing.donate_entries, heq]
    exact harrays

/-- Draining gives a large index its whole bucket. -/
theorem Simulates.keep (h : Simulates n b p) (hp : Conserves (List.range n) w p)
    (hlarge : p.large = l :: large) :
    ∃ t, (b.popLarge.bind fun (large, b) => b.assign large 1 uintMaxValue large) = some t ∧
      t.phase = b.phase ∧ t.largeTop = b.largeTop + 1 ∧ Simulates n t (p.keep l large) := by
  have hl := fresh_of_live hp (i := l) (by simp [Pairing.live, hlarge])
  obtain ⟨b₁, hpop, hstacks₁, hlarge₁, hb₁, -⟩ :=
    popLarge_eq h.sideBySide (h.large_eq.trans hlarge)
  have harrays₁ : Arrays b₁ p.entries := by
    rw [hb₁]
    exact h.arrays
  obtain ⟨t, hassign, heq, hthresholds, haliases, harrays⟩ :=
    @assign_eq b₁ _ l l 1 (by rw [hb₁]; exact h.thresholds_length.symm ▸ hl.1)
      (by rw [hb₁]; exact h.aliases_length.symm ▸ hl.1) hl.2 harrays₁
  rw [toThreshold_one] at hassign
  have hstacks : Stacks t := by
    rw [heq]
    exact ⟨hstacks₁.smallTop_le, hstacks₁.largeTop_le⟩
  refine ⟨t, by simp only [hpop, Option.bind_some, hassign], by rw [heq, hb₁], by rw [heq, hb₁],
    hstacks, ?_, ?_, ?_, ?_, ?_, ?_, ?_, ?_, harrays⟩
  · rw [heq, hb₁]
    exact h.work_length
  · rw [heq, hb₁]
    exact h.scaled_length
  · rw [hthresholds, hb₁]
    exact h.thresholds_length
  · rw [haliases, hb₁]
    exact h.aliases_length
  · rw [heq, hb₁]
    exact h.small_eq
  · rw [← hlarge₁, heq, Build.large, Build.large]
    rfl
  · rw [heq, hb₁]
    exact h.scaled_eq
  · rw [heq, hb₁, Pairing.keep, ← h.written_eq]

end Simulates

/-! ## Filling the stacks -/

/-- The scaled weight of an index. -/
def weightOf (weights : List ℚ) (i : Nat) : ℚ := (scale weights).getD i 0

/-- The indices from the next one to push on lie on the stacks, in order. -/
structure Filling (weights : List ℚ) (next : Nat) (b : Build) : Prop where
  sideBySide : Stacks b
  next_le : next ≤ weights.length
  work_length : b.work.length = weights.length
  thresholds_length : b.thresholds.length = weights.length
  aliases_length : b.aliases.length = weights.length
  scaled_eq : b.scaled = scale weights
  written_eq : b.written = []
  small_eq : b.small =
    (List.range' next (weights.length - next)).filter fun i => weightOf weights i < 1
  large_eq : b.large =
    (List.range' next (weights.length - next)).filter fun i => !decide (weightOf weights i < 1)

section Filling

variable {weights : List ℚ} {next : Nat}

@[simp] theorem scale_length (weights : List ℚ) : (scale weights).length = weights.length :=
  List.length_map _

theorem scale_getElem? {i : Nat} (h : i < weights.length) :
    (scale weights)[i]? = some (weightOf weights i) := by
  have hlt : i < (scale weights).length := by rwa [scale_length]
  rw [weightOf, List.getD_eq_getElem _ _ hlt, List.getElem?_eq_getElem hlt]

/-- Nothing has been pushed at first. -/
theorem filling_start (weights : List ℚ) : Filling weights weights.length (start weights) := by
  refine ⟨⟨Nat.zero_le _, ?_⟩, le_rfl, ?_, ?_, ?_, rfl, rfl, ?_, ?_⟩ <;>
    simp [start, Build.small, Build.large]

/-- The indices on the stacks leave room for the others. -/
theorem Filling.room (h : Filling weights next b) :
    b.smallTop + (weights.length - b.largeTop) = weights.length - next := by
  have hsmall := h.sideBySide.small_length
  have hlarge := b.large_length
  have hsplit := List.length_eq_length_filter_add (l := List.range' next (weights.length - next))
    fun i => decide (weightOf weights i < 1)
  rw [h.small_eq] at hsmall
  rw [h.large_eq, h.work_length] at hlarge
  rw [List.length_range'] at hsplit
  omega

/-- The filling loop pushes the next index. -/
theorem Filling.push (h : Filling weights (next + 1) b) :
    ∃ t, b.push next = some t ∧ Filling weights next t := by
  have hnext := h.next_le
  have hroom := h.room
  have htop := h.sideBySide.largeTop_le
  rw [h.work_length] at htop
  have hq : b.scaled[next]? = some (weightOf weights next) := by
    rw [h.scaled_eq, scale_getElem? hnext]
  obtain ⟨t, ht, hstacks, hsmall, hlarge, heq, hwork⟩ := push_eq h.sideBySide (by omega) hq
  have hrange : List.range' next (weights.length - next) =
      next :: List.range' (next + 1) (weights.length - (next + 1)) := by
    rw [show weights.length - next = weights.length - (next + 1) + 1 by omega, List.range'_succ]
  refine ⟨t, ht, hstacks, by omega, hwork.trans h.work_length, ?_, ?_, ?_, ?_, ?_, ?_⟩
  · rw [heq]
    exact h.thresholds_length
  · rw [heq]
    exact h.aliases_length
  · rw [heq]
    exact h.scaled_eq
  · rw [heq]
    exact h.written_eq
  · rw [hsmall, hrange, List.filter_cons, h.small_eq]
    by_cases hlt : weightOf weights next < 1 <;> simp [hlt]
  · rw [hlarge, hrange, List.filter_cons, h.large_eq]
    by_cases hlt : weightOf weights next < 1 <;> simp [hlt]

/-- Positive weights stay positive when they are scaled, and their mean becomes one. -/
theorem weightOf_facts (hne : weights ≠ []) (hpos : ∀ q ∈ weights, 0 < q) :
    (∀ i < weights.length, 0 < weightOf weights i) ∧
      ((List.range weights.length).map (weightOf weights)).sum = weights.length := by
  have hsum : 0 < weights.sum := List.sum_pos weights hpos hne
  have hcount : (0 : ℚ) < weights.length := by exact_mod_cast List.length_pos_iff.mpr hne
  constructor
  · intro i hi
    have hlt : i < (scale weights).length := by rwa [scale_length]
    rw [weightOf, List.getD_eq_getElem _ _ hlt]
    simp only [scale, List.getElem_map]
    exact mul_pos (hpos _ (List.getElem_mem hi)) (div_pos hcount hsum)
  · have hmap : (List.range weights.length).map (weightOf weights) = scale weights := by
      apply List.ext_getElem (by simp)
      intro i hi hi'
      rw [List.getElem_map, List.getElem_range, weightOf, List.getD_eq_getElem _ _ hi']
    rw [hmap, scale, List.sum_map_mul_right, List.map_id', mul_div_cancel₀ _ hsum.ne']

/-- Once every index is pushed, the stacks are the start of a pairing. -/
theorem Filling.simulates (h : Filling weights 0 b) (hne : weights ≠ [])
    (hpos : ∀ q ∈ weights, 0 < q) :
    ∃ p, Simulates weights.length b p ∧
      Conserves (List.range weights.length) (weightOf weights) p := by
  obtain ⟨hweight, htotal⟩ := weightOf_facts hne hpos
  have hrange : List.range' 0 (weights.length - 0) = List.range weights.length := by
    rw [Nat.sub_zero, List.range_eq_range']
  refine ⟨⟨b.small, b.large, weightOf weights, []⟩, ⟨h.sideBySide, h.work_length, ?_,
    h.thresholds_length, h.aliases_length, rfl, rfl, ?_, h.written_eq, ?_⟩,
    Conserves.start ?_ ?_ ?_ ?_ ?_⟩
  · rw [h.scaled_eq, scale_length]
  · intro i hi
    rw [h.scaled_eq, scale_getElem? hi]
  · intro e he
    cases he
  · rw [h.small_eq, h.large_eq, hrange]
    exact List.filter_append_perm _ _
  · intro i hi
    rw [h.small_eq] at hi
    simpa using (List.mem_filter.mp hi).2
  · intro i hi
    rw [h.large_eq] at hi
    simpa using (List.mem_filter.mp hi).2
  · exact fun i hi => hweight i (List.mem_range.mp hi)
  · rw [htotal, List.length_range]

end Filling

/-! ## The whole construction -/

/-- What holds in each loop. -/
def Invariant (weights : List ℚ) (b : Build) : Prop :=
  match b.phase with
  | .filling next => Filling weights next b
  | .pairing => ∃ p, Simulates weights.length b p ∧
      Conserves (List.range weights.length) (weightOf weights) p
  | .drainingLarge => ∃ p, Simulates weights.length b p ∧
      Conserves (List.range weights.length) (weightOf weights) p ∧ p.small = []
  | .drainingSmall | .done => ∃ p, Simulates weights.length b p ∧
      Conserves (List.range weights.length) (weightOf weights) p ∧ p.live = []

/-- The steps left, at most. -/
def rank (n : Nat) (b : Build) : Nat :=
  match b.phase with
  | .filling next => next + 2 * n + 4
  | .pairing => b.smallTop + (n - b.largeTop) + n + 3
  | .drainingLarge => n - b.largeTop + 2
  | .drainingSmall => b.smallTop + 1
  | .done => 0

section Whole

variable {weights : List ℚ}

/-- In every loop the stacks lie side by side in the buffer. -/
theorem Invariant.stacks (h : Invariant weights b) :
    Stacks b ∧ b.work.length = weights.length := by
  unfold Invariant at h
  split at h
  · exact ⟨h.sideBySide, h.work_length⟩
  all_goals
    obtain ⟨p, hsim, -⟩ := h
    exact ⟨hsim.sideBySide, hsim.work_length⟩

/-- The stacks hold what a pairing has left. -/
theorem Simulates.tops {n : Nat} {p : Pairing Nat ℚ} (h : Simulates n b p) :
    b.smallTop = p.small.length ∧ n - b.largeTop = p.large.length := by
  have hsmall := h.sideBySide.small_length
  have hlarge := b.large_length
  rw [h.small_eq] at hsmall
  rw [h.large_eq, h.work_length] at hlarge
  exact ⟨hsmall.symm, hlarge.symm⟩

/-- Moving to the next loop touches nothing else. -/
theorem Simulates.withPhase {n : Nat} {p : Pairing Nat ℚ} (h : Simulates n b p) (phase : Phase) :
    Simulates n { b with phase } p :=
  ⟨⟨h.sideBySide.smallTop_le, h.sideBySide.largeTop_le⟩, h.work_length, h.scaled_length,
    h.thresholds_length, h.aliases_length, h.small_eq, h.large_eq, h.scaled_eq, h.written_eq,
    h.arrays⟩

/-- A step of the pairing loop. -/
theorem step_pairing (hphase : b.phase = .pairing) (h : Invariant weights b) :
    ∃ t, b.step = some t ∧ Invariant weights t ∧
      rank weights.length t < rank weights.length b := by
  simp only [Invariant, hphase] at h
  obtain ⟨p, hsim, hp⟩ := h
  obtain ⟨htopSmall, htopLarge⟩ := hsim.tops
  have hlength := hsim.scaled_length
  have htop := hsim.sideBySide.largeTop_le.trans_eq hsim.work_length
  cases hsmall : p.small with
  | nil =>
    have hguard : ¬ (0 < b.smallTop ∧ b.largeTop < b.scaled.length) := by
      rw [htopSmall, hsmall, List.length_nil]
      omega
    refine ⟨{ b with phase := .drainingLarge }, by simp [step, hphase, hguard],
      ⟨p, hsim.withPhase _, hp, hsmall⟩, ?_⟩
    simp only [rank, hphase]
    omega
  | cons s small =>
    cases hlarge : p.large with
    | nil =>
      exact absurd (hp.small_eq_nil hlarge) (by simp [hsmall])
    | cons l large =>
      obtain ⟨t, hpair, htphase, htsim⟩ := hsim.pair hp hsmall hlarge
      have hguard : 0 < b.smallTop ∧ b.largeTop < b.scaled.length := by
        rw [hsmall, List.length_cons] at htopSmall
        rw [hlarge, List.length_cons] at htopLarge
        omega
      have htp := hp.donate List.nodup_range hsmall hlarge
      refine ⟨t, by rw [step, hphase]; dsimp only; rw [if_pos hguard, hpair], ?_, ?_⟩
      · simp only [Invariant, htphase, hphase]
        exact ⟨_, htsim, htp⟩
      · obtain ⟨httopSmall, httopLarge⟩ := htsim.tops
        have hfewer := (p.donate_live_perm s l small large).length_eq
        rw [Pairing.live, List.length_append] at hfewer
        simp only [List.length_cons, List.length_append] at hfewer
        rw [hsmall, List.length_cons] at htopSmall
        rw [hlarge, List.length_cons] at htopLarge
        simp only [rank, htphase, hphase]
        omega

/-- A step of any loop keeps what holds there, and comes closer to the end. -/
theorem step_invariant (hne : weights ≠ []) (hpos : ∀ q ∈ weights, 0 < q)
    (h : Invariant weights b) (hphase : b.phase ≠ .done) :
    ∃ t, b.step = some t ∧ Invariant weights t ∧
      rank weights.length t < rank weights.length b := by
  cases hcase : b.phase with
  | done => exact absurd hcase hphase
  | pairing => exact step_pairing hcase h
  | filling next =>
    simp only [Invariant, hcase] at h
    have hroom := h.room
    cases next with
    | zero =>
      obtain ⟨p, hsim, hp⟩ := h.simulates hne hpos
      refine ⟨{ b with phase := .pairing }, by simp [step, hcase], ⟨p, hsim.withPhase _, hp⟩, ?_⟩
      simp only [rank, hcase]
      omega
    | succ next =>
      obtain ⟨t, ht, hfilling⟩ := h.push
      refine ⟨{ t with phase := .filling next }, by simp [step, hcase, ht], ?_, ?_⟩
      · exact ⟨⟨hfilling.sideBySide.smallTop_le, hfilling.sideBySide.largeTop_le⟩,
          hfilling.next_le, hfilling.work_length, hfilling.thresholds_length,
          hfilling.aliases_length, hfilling.scaled_eq, hfilling.written_eq, hfilling.small_eq,
          hfilling.large_eq⟩
      · simp only [rank, hcase]
        omega
  | drainingLarge =>
    simp only [Invariant, hcase] at h
    obtain ⟨p, hsim, hp, hsmall⟩ := h
    obtain ⟨htopSmall, htopLarge⟩ := hsim.tops
    have hlength := hsim.scaled_length
    cases hlarge : p.large with
    | nil =>
      have hguard : ¬ b.largeTop < b.scaled.length := by
        rw [hlarge, List.length_nil] at htopLarge
        omega
      refine ⟨{ b with phase := .drainingSmall }, by simp [step, hcase, hguard],
        ⟨p, hsim.withPhase _, hp, by simp [Pairing.live, hsmall, hlarge]⟩, ?_⟩
      rw [hsmall, List.length_nil] at htopSmall
      simp only [rank, hcase]
      omega
    | cons l large =>
      have hguard : b.largeTop < b.scaled.length := by
        rw [hlarge, List.length_cons] at htopLarge
        omega
      obtain ⟨t, hkeep, htphase, htop, htsim⟩ := hsim.keep hp hlarge
      refine ⟨t, by rw [step, hcase]; dsimp only; rw [if_pos hguard, hkeep], ?_, ?_⟩
      · simp only [Invariant, htphase, hcase]
        exact ⟨_, htsim, hp.keep List.nodup_range hsmall hlarge, hsmall⟩
      · simp only [rank, htphase, hcase]
        omega
  | drainingSmall =>
    simp only [Invariant, hcase] at h
    obtain ⟨p, hsim, hp, hlive⟩ := h
    have htopSmall := hsim.tops.1
    rw [(List.append_eq_nil_iff.mp hlive).1, List.length_nil] at htopSmall
    refine ⟨{ b with phase := .done }, by simp [step, hcase, htopSmall],
      ⟨p, hsim.withPhase _, hp, hlive⟩, ?_⟩
    simp only [rank, hcase]
    omega

/-- Every number of steps goes through, and enough of them reach the end. -/
theorem run_invariant (hne : weights ≠ []) (hpos : ∀ q ∈ weights, 0 < q) (k : Nat)
    (h : Invariant weights b) : ∃ t, run k b = some t ∧ Invariant weights t ∧
      (rank weights.length b ≤ k → t.phase = .done) := by
  induction k generalizing b with
  | zero =>
    refine ⟨b, rfl, h, fun hrank => ?_⟩
    cases hcase : b.phase <;> simp only [rank, hcase] at hrank <;> first | rfl | omega
  | succ k ih =>
    by_cases hphase : b.phase = .done
    · have hstep : b.step = some b := by rw [step, hphase]
      have hzero : rank weights.length b ≤ k := by simp [rank, hphase]
      obtain ⟨t, ht, hinvariant, hdone⟩ := ih h
      exact ⟨t, by rw [run, hstep, Option.bind_some, ht], hinvariant, fun _ => hdone hzero⟩
    · obtain ⟨u, hstep, hu, hlt⟩ := step_invariant hne hpos h hphase
      obtain ⟨t, ht, hinvariant, hdone⟩ := ih hu
      exact ⟨t, by rw [run, hstep, Option.bind_some, ht], hinvariant, fun hrank =>
        hdone (by omega)⟩

/-- A finished table: every bucket is written once, and the arrays hold what was written. -/
structure Finished (weights : List ℚ) (b : Build) : Prop where
  thresholds_length : b.thresholds.length = weights.length
  aliases_length : b.aliases.length = weights.length
  exact : Exact (List.range weights.length) (weightOf weights) b.written
  arrays : Arrays b b.written

/-- The first loop starts with nothing pushed. -/
theorem invariant_start (weights : List ℚ) : Invariant weights (start weights) :=
  filling_start weights

/-- The construction ends, with a finished table. -/
theorem exists_finished (hne : weights ≠ []) (hpos : ∀ q ∈ weights, 0 < q) :
    ∃ b, run (3 * weights.length + 4) (start weights) = some b ∧ b.phase = .done ∧
      Finished weights b := by
  have hrank : rank weights.length (start weights) ≤ 3 * weights.length + 4 := by
    simp only [rank, start]
    omega
  obtain ⟨b, hb, hinvariant, hdone⟩ :=
    run_invariant hne hpos (3 * weights.length + 4) (invariant_start weights)
  have hphase := hdone hrank
  simp only [Invariant, hphase] at hinvariant
  obtain ⟨p, hsim, hp, hlive⟩ := hinvariant
  have hexact := hp.exact hlive
  rw [← hsim.written_eq] at hexact
  exact ⟨b, hb, hphase, hsim.thresholds_length, hsim.aliases_length, hexact,
    hsim.written_eq ▸ hsim.arrays⟩

/-- For every positive weight vector the construction runs to its end with its stacks side by
side in the buffer at every step; every bucket is written exactly once, and the table gives
every index its share of the total weight. -/
theorem aliasTable_exact (hne : weights ≠ []) (hpos : ∀ q ∈ weights, 0 < q) :
    (∀ k, ∃ b, run k (start weights) = some b ∧ b.smallTop ≤ b.largeTop ∧
        b.largeTop ≤ weights.length ∧ b.work.length = weights.length) ∧
      ∃ b, run (3 * weights.length + 4) (start weights) = some b ∧ b.phase = .done ∧
        (b.written.map (·.bucket)).Perm (List.range weights.length) ∧
        (∀ e ∈ b.written, 0 < e.share ∧ e.share ≤ 1 ∧ e.partner < weights.length ∧
          b.thresholds[e.bucket]? = some (toThreshold e.share) ∧
          b.aliases[e.bucket]? = some e.partner) ∧
        ∀ i q, weights[i]? = some q → mass b.written i / weights.length = q / weights.sum := by
  constructor
  · intro k
    obtain ⟨b, hb, hinvariant, -⟩ := run_invariant hne hpos k (invariant_start weights)
    obtain ⟨hstacks, hlength⟩ := hinvariant.stacks
    exact ⟨b, hb, hstacks.smallTop_le, hlength ▸ hstacks.largeTop_le, hlength⟩
  · obtain ⟨b, hb, hphase, hfinished⟩ := exists_finished hne hpos
    refine ⟨b, hb, hphase, hfinished.exact.perm, fun e he => ?_, fun i q hq => ?_⟩
    · obtain ⟨hshare, hle⟩ := hfinished.exact.share_mem e he
      obtain ⟨hpartner, -⟩ := hfinished.exact.partner_of e he
      obtain ⟨hthreshold, halias⟩ := hfinished.arrays e he
      exact ⟨hshare, hle, List.mem_range.mp hpartner, hthreshold, halias⟩
    · obtain ⟨hi, hqi⟩ := List.getElem?_eq_some_iff.mp hq
      have hcount : (weights.length : ℚ) ≠ 0 :=
        Nat.cast_ne_zero.mpr (List.length_pos_iff.mpr hne).ne'
      have hlt : i < (scale weights).length := by rwa [scale_length]
      rw [hfinished.exact.mass_eq i (List.mem_range.mpr hi), weightOf,
        List.getD_eq_getElem _ _ hlt]
      simp only [scale, List.getElem_map, hqi]
      field_simp

end Whole

theorem aliasTable_exact_three : ∃ b, run 13 (start [1, 2, 6]) = some b ∧
    mass b.written 0 / 3 = 1 / 9 ∧ mass b.written 2 / 3 = 6 / 9 := by
  have hpos : ∀ q ∈ ([1, 2, 6] : List ℚ), 0 < q := by decide
  obtain ⟨-, b, hb, -, -, -, hmass⟩ := aliasTable_exact (List.cons_ne_nil 1 [2, 6]) hpos
  have hzero := hmass 0 1 rfl
  have htwo := hmass 2 6 rfl
  norm_num at hzero htwo
  exact ⟨b, hb, by linarith, by linarith⟩

end Build

end Tckr.Generation
