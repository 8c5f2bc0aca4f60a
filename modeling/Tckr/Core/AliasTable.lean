import Mathlib.Algebra.BigOperators.Group.List.Basic
import Mathlib.Algebra.Order.BigOperators.Group.List
import Mathlib.Data.List.Nodup
import Mathlib.Tactic.Linarith
import Mathlib.Tactic.Ring

/-!
# Alias tables

Vose's construction over any index type and any ordered field. The weights have
mean one. An index below one is paired with one that is not: it keeps its weight as
its bucket's own share, and the partner takes the rest of the bucket out of its own
weight. What each index has been given and what it still holds together stay its
weight, and the weights held stay as many as their holders; so when no pair is left
every holder holds exactly one, and the table gives each index its weight.
-/

namespace Tckr.AliasTable

universe u v

variable {ι : Type u} {K : Type v} [DecidableEq ι] [Field K]

/-- A bucket's own share, and the index that takes the rest. -/
structure Entry (ι : Type u) (K : Type v) where
  bucket : ι
  share : K
  partner : ι
  deriving DecidableEq, Repr

/-- What a bucket gives an index. -/
def Entry.mass (e : Entry ι K) (i : ι) : K :=
  (if e.bucket = i then e.share else 0) + (if e.partner = i then 1 - e.share else 0)

/-- What a table gives an index. -/
def mass (entries : List (Entry ι K)) (i : ι) : K := (entries.map (·.mass i)).sum

@[simp] theorem mass_append_singleton (entries : List (Entry ι K)) (e : Entry ι K) (i : ι) :
    mass (entries ++ [e]) i = mass entries i + e.mass i := by
  simp [mass]

/-- The indices still to be placed, what they hold, and the buckets filled so far. -/
structure Pairing (ι : Type u) (K : Type v) where
  small : List ι
  large : List ι
  weight : ι → K
  entries : List (Entry ι K) := []

namespace Pairing

/-- The indices still to be placed. -/
def live (p : Pairing ι K) : List ι := p.small ++ p.large

variable [LinearOrder K]

/-- Fill the bucket of a small index, and give the rest of it to a large one. -/
def donate (p : Pairing ι K) (s l : ι) (small large : List ι) : Pairing ι K :=
  let rest := p.weight l - (1 - p.weight s)
  let weight := Function.update p.weight l rest
  let entries := p.entries ++ [⟨s, p.weight s, l⟩]
  if rest < 1 then { small := l :: small, large, weight, entries }
  else { small, large := l :: large, weight, entries }

/-- Give an index that is left over its whole bucket. -/
def keep (p : Pairing ι K) (l : ι) (large : List ι) : Pairing ι K :=
  { p with large, entries := p.entries ++ [⟨l, 1, l⟩] }

section Donate

variable (p : Pairing ι K) (s l : ι) (small large : List ι)

@[simp] theorem donate_weight : (p.donate s l small large).weight =
    Function.update p.weight l (p.weight l - (1 - p.weight s)) := by
  unfold donate
  dsimp only
  split <;> rfl

@[simp] theorem donate_entries : (p.donate s l small large).entries =
    p.entries ++ [⟨s, p.weight s, l⟩] := by
  unfold donate
  dsimp only
  split <;> rfl

theorem donate_small : (p.donate s l small large).small =
    if p.weight l - (1 - p.weight s) < 1 then l :: small else small := by
  unfold donate
  dsimp only
  split <;> rfl

theorem donate_large : (p.donate s l small large).large =
    if p.weight l - (1 - p.weight s) < 1 then large else l :: large := by
  unfold donate
  dsimp only
  split <;> rfl

/-- The large index stays, on one of the stacks. -/
theorem donate_live_perm : (p.donate s l small large).live.Perm (l :: (small ++ large)) := by
  rw [live, donate_small, donate_large]
  split
  · exact List.Perm.refl _
  · exact List.perm_middle

theorem mem_donate_small {i : ι} (h : i ∈ (p.donate s l small large).small) :
    i = l ∧ p.weight l - (1 - p.weight s) < 1 ∨ i ∈ small := by
  rw [donate_small] at h
  split at h
  · rename_i hrest
    exact (List.mem_cons.mp h).imp_left fun hi => ⟨hi, hrest⟩
  · exact .inr h

theorem mem_donate_large {i : ι} (h : i ∈ (p.donate s l small large).large) :
    i = l ∧ 1 ≤ p.weight l - (1 - p.weight s) ∨ i ∈ large := by
  rw [donate_large] at h
  split at h
  · exact .inr h
  · rename_i hrest
    exact (List.mem_cons.mp h).imp_left fun hi => ⟨hi, not_lt.mp hrest⟩

variable {s l small large}

/-- The indices placed and to be placed are the same. -/
theorem donate_placed_perm (hlive : p.live.Perm (s :: l :: (small ++ large))) :
    ((p.donate s l small large).live ++ (p.donate s l small large).entries.map (·.bucket)).Perm
      (p.live ++ p.entries.map (·.bucket)) := by
  have hbuckets : ((p.donate s l small large).entries.map (·.bucket)) =
      p.entries.map (·.bucket) ++ [s] := by simp
  rw [hbuckets]
  calc ((p.donate s l small large).live ++ (p.entries.map (·.bucket) ++ [s])).Perm
        (l :: (small ++ large) ++ (p.entries.map (·.bucket) ++ [s])) :=
          (p.donate_live_perm s l small large).append_right _
    _ |>.Perm (s :: (l :: (small ++ large) ++ p.entries.map (·.bucket))) := by
        rw [← List.append_assoc]
        exact List.perm_append_singleton s _
    _ |>.Perm (p.live ++ p.entries.map (·.bucket)) := hlive.symm.append_right _

/-- What an index has been given and what it still holds stay the same together. -/
theorem donate_mass_add (hlive : p.live.Perm (s :: l :: (small ++ large)))
    (hnodup : (s :: l :: (small ++ large)).Nodup) (i : ι) :
    mass (p.donate s l small large).entries i +
        (if i ∈ (p.donate s l small large).live then (p.donate s l small large).weight i else 0) =
      mass p.entries i + (if i ∈ p.live then p.weight i else 0) := by
  have hs : s ∉ l :: (small ++ large) := (List.nodup_cons.mp hnodup).1
  have hne : s ≠ l := fun heq => hs (heq ▸ List.mem_cons_self)
  rw [donate_entries, mass_append_singleton, donate_weight]
  simp only [(p.donate_live_perm s l small large).mem_iff, hlive.mem_iff, Entry.mass]
  by_cases his : i = s
  · subst his
    simp only [if_true, hne.symm, if_false, hs, List.mem_cons_self]
    ring
  · by_cases hil : i = l
    · subst hil
      have hmem : i ∈ s :: i :: (small ++ large) := List.mem_cons_of_mem _ List.mem_cons_self
      simp only [hne, if_false, if_true, List.mem_cons_self, Function.update_self, hmem]
      ring
    · have hsame : i ∈ s :: l :: (small ++ large) ↔ i ∈ l :: (small ++ large) := by
        rw [List.mem_cons, or_iff_right his]
      rw [Function.update_of_ne hil]
      simp only [hsame, Ne.symm his, Ne.symm hil, if_false, add_zero]

/-- A bucket is filled with what is held. -/
theorem donate_sum (hlive : p.live.Perm (s :: l :: (small ++ large)))
    (hnodup : (s :: l :: (small ++ large)).Nodup) :
    ((p.donate s l small large).live.map (p.donate s l small large).weight).sum + 1 =
      (p.live.map p.weight).sum := by
  have hl : l ∉ small ++ large := (List.nodup_cons.mp (List.nodup_cons.mp hnodup).2).1
  have hothers : (small ++ large).map (Function.update p.weight l
      (p.weight l - (1 - p.weight s))) = (small ++ large).map p.weight :=
    List.map_congr_left fun i hi =>
      Function.update_of_ne (fun heq : i = l => hl (heq ▸ hi)) _ _
  rw [donate_weight, ((p.donate_live_perm s l small large).map _).sum_eq,
    (hlive.map p.weight).sum_eq, List.map_cons, List.sum_cons, hothers, Function.update_self,
    List.map_cons, List.map_cons, List.sum_cons, List.sum_cons]
  ring

end Donate

section Keep

variable (p : Pairing ι K) {l : ι} {large : List ι}

omit [LinearOrder K] in
/-- What an index has been given and what it still holds stay the same together. -/
theorem keep_mass_add (hsmall : p.small = []) (hlarge : p.large = l :: large)
    (hl : l ∉ large) (hone : p.weight l = 1) (i : ι) :
    mass (p.keep l large).entries i +
        (if i ∈ (p.keep l large).live then (p.keep l large).weight i else 0) =
      mass p.entries i + (if i ∈ p.live then p.weight i else 0) := by
  simp only [keep, live, hsmall, hlarge, List.nil_append, mass_append_singleton, Entry.mass]
  by_cases hil : l = i
  · subst hil
    simp only [if_true, hl, if_false, List.mem_cons_self, hone]
    ring
  · have hsame : i ∈ l :: large ↔ i ∈ large := by
      rw [List.mem_cons, or_iff_right (Ne.symm hil)]
    simp only [hil, if_false, hsame, add_zero]

end Keep

end Pairing

omit [DecidableEq ι] [Field K] in
/-- An index that has a partner has one in a longer table. -/
theorem paired_append {entries : List (Entry ι K)} {e : Entry ι K} {i : ι} :
    (∃ e' ∈ entries, e'.partner = i) → ∃ e' ∈ entries ++ [e], e'.partner = i :=
  fun ⟨e', he', hpartner⟩ => ⟨e', List.mem_append_left _ he', hpartner⟩

variable [LinearOrder K]

/-- What holds between two steps: nothing is lost, and the stacks are what they are called. -/
structure Conserves (all : List ι) (w : ι → K) (p : Pairing ι K) : Prop where
  perm : (p.live ++ p.entries.map (·.bucket)).Perm all
  small_lt : ∀ i ∈ p.small, p.weight i < 1
  large_ge : ∀ i ∈ p.large, 1 ≤ p.weight i
  pos : ∀ i ∈ p.live, 0 < p.weight i
  mass_add : ∀ i ∈ all, mass p.entries i + (if i ∈ p.live then p.weight i else 0) = w i
  total : (p.live.map p.weight).sum = p.live.length
  share_mem : ∀ e ∈ p.entries, 0 < e.share ∧ e.share ≤ 1
  large_of : ∀ i ∈ p.large, 1 ≤ w i
  partner_of : ∀ e ∈ p.entries, e.partner ∈ all ∧ 1 ≤ w e.partner
  weight_or : ∀ i ∈ p.live, p.weight i = w i ∨ ∃ e ∈ p.entries, e.partner = i
  share_or : ∀ e ∈ p.entries, e.share = w e.bucket ∨ ∃ e' ∈ p.entries, e'.partner = e.bucket

/-- Indices split at one, each holding its own weight, with a mean of one. -/
theorem Conserves.start {all small large : List ι} {w : ι → K}
    (hperm : (small ++ large).Perm all) (hsmall : ∀ i ∈ small, w i < 1)
    (hlarge : ∀ i ∈ large, 1 ≤ w i) (hpos : ∀ i ∈ all, 0 < w i)
    (htotal : (all.map w).sum = all.length) : Conserves all w ⟨small, large, w, []⟩ where
  perm := by simpa [Pairing.live] using hperm
  small_lt := hsmall
  large_ge := hlarge
  pos i hi := hpos i (hperm.mem_iff.mp hi)
  mass_add i hi := by simp [mass, Pairing.live, -List.mem_append, hperm.mem_iff, hi]
  total := by
    rw [Pairing.live, (hperm.map w).sum_eq, htotal, hperm.length_eq]
  share_mem := by simp
  large_of := hlarge
  partner_of := by simp
  weight_or i _ := .inl (Eq.refl (w i))
  share_or := by simp

section Steps

variable [IsStrictOrderedRing K] {all small large : List ι} {w : ι → K} {p : Pairing ι K}
  {s l : ι}

/-- A pairing keeps everything. -/
theorem Conserves.donate (h : Conserves all w p) (hall : all.Nodup) (hsmall : p.small = s :: small)
    (hlarge : p.large = l :: large) : Conserves all w (p.donate s l small large) := by
  have hlive : p.live.Perm (s :: l :: (small ++ large)) := by
    rw [Pairing.live, hsmall, hlarge, List.cons_append]
    exact List.Perm.cons s List.perm_middle
  have hnodup : (s :: l :: (small ++ large)).Nodup :=
    hlive.nodup_iff.mp ((h.perm.nodup_iff.mpr hall).of_append_left)
  have hl : l ∉ small ++ large := (List.nodup_cons.mp (List.nodup_cons.mp hnodup).2).1
  have hmem := p.donate_live_perm s l small large
  have hslive : s ∈ p.live := hlive.mem_iff.mpr List.mem_cons_self
  have hllive : l ∈ p.live := hlive.mem_iff.mpr (List.mem_cons_of_mem _ List.mem_cons_self)
  have hq : p.weight s < 1 := h.small_lt s (hsmall ▸ List.mem_cons_self)
  have hr : 1 ≤ p.weight l := h.large_ge l (hlarge ▸ List.mem_cons_self)
  have hqpos : 0 < p.weight s := h.pos s hslive
  have hlw : 1 ≤ w l := h.large_of l (hlarge ▸ List.mem_cons_self)
  have hother {i : ι} (hi : i ∈ small ++ large) : i ≠ l := fun heq => hl (heq ▸ hi)
  have hlater {i : ι} (hi : i ∈ small ++ large) : i ∈ p.live :=
    hlive.mem_iff.mpr (List.mem_cons_of_mem _ (List.mem_cons_of_mem _ hi))
  constructor
  case perm => exact (p.donate_placed_perm hlive).trans h.perm
  case small_lt =>
    intro i hi
    rw [Pairing.donate_weight]
    rcases p.mem_donate_small s l small large hi with ⟨rfl, hlt⟩ | hi
    · rwa [Function.update_self]
    · rw [Function.update_of_ne (hother (List.mem_append_left _ hi))]
      exact h.small_lt i (hsmall ▸ List.mem_cons_of_mem _ hi)
  case large_ge =>
    intro i hi
    rw [Pairing.donate_weight]
    rcases p.mem_donate_large s l small large hi with ⟨rfl, hge⟩ | hi
    · rwa [Function.update_self]
    · rw [Function.update_of_ne (hother (List.mem_append_right _ hi))]
      exact h.large_ge i (hlarge ▸ List.mem_cons_of_mem _ hi)
  case pos =>
    intro i hi
    rw [Pairing.donate_weight]
    rcases List.mem_cons.mp (hmem.mem_iff.mp hi) with rfl | hi
    · rw [Function.update_self]
      linarith
    · rw [Function.update_of_ne (hother hi)]
      exact h.pos i (hlater hi)
  case mass_add => exact fun i hi => (p.donate_mass_add hlive hnodup i).trans (h.mass_add i hi)
  case total =>
    have hsum := p.donate_sum hlive hnodup
    have hlength := hlive.length_eq
    rw [List.length_cons] at hlength
    rw [h.total, hlength, Nat.cast_succ] at hsum
    rw [hmem.length_eq]
    linarith
  case share_mem =>
    rw [Pairing.donate_entries, List.forall_mem_append, List.forall_mem_singleton]
    exact ⟨h.share_mem, hqpos, hq.le⟩
  case large_of =>
    intro i hi
    rcases p.mem_donate_large s l small large hi with ⟨rfl, -⟩ | hi
    · exact hlw
    · exact h.large_of i (hlarge ▸ List.mem_cons_of_mem _ hi)
  case partner_of =>
    rw [Pairing.donate_entries, List.forall_mem_append, List.forall_mem_singleton]
    exact ⟨h.partner_of, h.perm.mem_iff.mp (List.mem_append_left _ hllive), hlw⟩
  case weight_or =>
    intro i hi
    rw [Pairing.donate_entries, Pairing.donate_weight]
    rcases List.mem_cons.mp (hmem.mem_iff.mp hi) with rfl | hi
    · exact .inr ⟨_, List.mem_append_right _ List.mem_cons_self, rfl⟩
    · rw [Function.update_of_ne (hother hi)]
      exact (h.weight_or i (hlater hi)).imp_right paired_append
  case share_or =>
    rw [Pairing.donate_entries, List.forall_mem_append, List.forall_mem_singleton]
    exact ⟨fun e he => (h.share_or e he).imp_right paired_append,
      (h.weight_or s hslive).imp_right paired_append⟩

/-! ## What is left over -/

/-- Weights of at least one, as many as their sum, are all one. -/
theorem length_le_sum {l : List K} (h : ∀ x ∈ l, 1 ≤ x) :
    (l.length : K) ≤ l.sum ∧ (l.sum = l.length → ∀ x ∈ l, x = 1) := by
  induction l with
  | nil => simp
  | cons x l ih =>
    obtain ⟨hx, hl⟩ := List.forall_mem_cons.mp h
    obtain ⟨hle, hall⟩ := ih hl
    rw [List.length_cons, List.sum_cons, Nat.cast_succ]
    refine ⟨by linarith, fun hsum => List.forall_mem_cons.mpr ⟨by linarith, ?_⟩⟩
    exact hall (by linarith)

/-- Weights below one are more than their sum. -/
theorem sum_lt_length {l : List K} (h : ∀ x ∈ l, x < 1) (hne : l ≠ []) : l.sum < l.length := by
  induction l with
  | nil => exact absurd rfl hne
  | cons x l ih =>
    obtain ⟨hx, hl⟩ := List.forall_mem_cons.mp h
    rw [List.length_cons, List.sum_cons, Nat.cast_succ]
    by_cases hnil : l = []
    · simpa [hnil] using hx
    · have := ih hl hnil
      linarith

/-- When no large index is left there is no small one either. -/
theorem Conserves.small_eq_nil (h : Conserves all w p) (hlarge : p.large = []) :
    p.small = [] := by
  have htotal := h.total
  rw [Pairing.live, hlarge, List.append_nil] at htotal
  by_contra hne
  have hlt := sum_lt_length (l := p.small.map p.weight)
    (by simpa using h.small_lt) (by simpa using hne)
  rw [List.length_map, htotal] at hlt
  exact lt_irrefl _ hlt

/-- When no small index is left every large one holds exactly one. -/
theorem Conserves.weight_eq_one (h : Conserves all w p) (hsmall : p.small = []) :
    ∀ i ∈ p.large, p.weight i = 1 := by
  have htotal := h.total
  rw [Pairing.live, hsmall, List.nil_append] at htotal
  have hall := (length_le_sum (l := p.large.map p.weight) (by simpa using h.large_ge)).2
    (by rw [htotal, List.length_map])
  simpa using hall

/-- Giving an index that is left over its whole bucket keeps everything. -/
theorem Conserves.keep (h : Conserves all w p) (hall : all.Nodup) (hsmall : p.small = [])
    (hlarge : p.large = l :: large) : Conserves all w (p.keep l large) := by
  have hlive : p.live = l :: large := by rw [Pairing.live, hsmall, hlarge, List.nil_append]
  have hkept : (p.keep l large).live = large := by
    simp [Pairing.live, Pairing.keep, hsmall]
  have hentries : (p.keep l large).entries = p.entries ++ [⟨l, 1, l⟩] := rfl
  have hweight : (p.keep l large).weight = p.weight := rfl
  have hnodup : (l :: large).Nodup :=
    hlive ▸ (h.perm.nodup_iff.mpr hall).of_append_left
  have hl : l ∉ large := (List.nodup_cons.mp hnodup).1
  have hone : p.weight l = 1 := h.weight_eq_one hsmall l (hlarge ▸ List.mem_cons_self)
  have hllive : l ∈ p.live := hlive ▸ List.mem_cons_self
  have hlater {i : ι} (hi : i ∈ large) : i ∈ p.live := hlive ▸ List.mem_cons_of_mem _ hi
  have hlw : 1 ≤ w l := h.large_of l (hlarge ▸ List.mem_cons_self)
  constructor
  case perm =>
    rw [hkept, hentries, List.map_append, List.map_singleton, ← List.append_assoc]
    refine (List.perm_append_singleton l _).trans ?_
    rw [← List.cons_append, ← hlive]
    exact h.perm
  case small_lt =>
    intro i hi
    exact h.small_lt i hi
  case large_ge => exact fun i hi => h.large_ge i (hlarge ▸ List.mem_cons_of_mem _ hi)
  case pos =>
    intro i hi
    exact h.pos i (hlater (hkept ▸ hi))
  case mass_add =>
    exact fun i hi => (p.keep_mass_add hsmall hlarge hl hone i).trans (h.mass_add i hi)
  case total =>
    have hold := h.total
    rw [hlive, List.map_cons, List.sum_cons, hone, List.length_cons, Nat.cast_succ] at hold
    rw [hkept, hweight]
    linarith
  case share_mem =>
    rw [hentries, List.forall_mem_append, List.forall_mem_singleton]
    exact ⟨h.share_mem, one_pos, le_rfl⟩
  case large_of => exact fun i hi => h.large_of i (hlarge ▸ List.mem_cons_of_mem _ hi)
  case partner_of =>
    rw [hentries, List.forall_mem_append, List.forall_mem_singleton]
    exact ⟨h.partner_of, h.perm.mem_iff.mp (List.mem_append_left _ hllive), hlw⟩
  case weight_or =>
    intro i hi
    exact (h.weight_or i (hlater (hkept ▸ hi))).imp_right paired_append
  case share_or =>
    rw [hentries, List.forall_mem_append, List.forall_mem_singleton]
    exact ⟨fun e he => (h.share_or e he).imp_right paired_append,
      .inr ⟨_, List.mem_append_right _ List.mem_cons_self, rfl⟩⟩

/-! ## The finished table -/

/-- A table that gives every index its weight. -/
structure Exact (all : List ι) (w : ι → K) (entries : List (Entry ι K)) : Prop where
  perm : (entries.map (·.bucket)).Perm all
  mass_eq : ∀ i ∈ all, mass entries i = w i
  share_mem : ∀ e ∈ entries, 0 < e.share ∧ e.share ≤ 1
  partner_of : ∀ e ∈ entries, e.partner ∈ all ∧ 1 ≤ w e.partner
  share_or : ∀ e ∈ entries, e.share = w e.bucket ∨ ∃ e' ∈ entries, e'.partner = e.bucket

omit [IsStrictOrderedRing K] in
/-- When nothing is left the table is exact. -/
theorem Conserves.exact (h : Conserves all w p) (hlive : p.live = []) :
    Exact all w p.entries where
  perm := by simpa [hlive] using h.perm
  mass_eq i hi := by simpa [hlive] using h.mass_add i hi
  share_mem := h.share_mem
  partner_of := h.partner_of
  share_or := h.share_or

end Steps

end Tckr.AliasTable
