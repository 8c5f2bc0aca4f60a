import Mathlib.Data.List.Nodup

/-!
# Insertion-ordered sets and maps

Collections that enumerate their elements in the order of first insertion, each
element or key once. Re-inserting keeps the old place; removing gives it up.
-/

namespace Tckr

universe u v

/-- Distinct elements in insertion order. -/
structure OrderedSet (α : Type u) where
  /-- The elements, oldest first. -/
  elems : List α
  nodup : elems.Nodup
  deriving DecidableEq

namespace OrderedSet

variable {α : Type u}

def empty : OrderedSet α := ⟨[], List.nodup_nil⟩

instance : Inhabited (OrderedSet α) := ⟨empty⟩

instance : Membership α (OrderedSet α) := ⟨fun s a => a ∈ s.elems⟩

theorem mem_def {s : OrderedSet α} {a : α} : a ∈ s ↔ a ∈ s.elems := Iff.rfl

variable [DecidableEq α]

instance (a : α) (s : OrderedSet α) : Decidable (a ∈ s) := inferInstanceAs (Decidable (a ∈ s.elems))

/-- Insert an element at the end unless it is there. -/
def add (s : OrderedSet α) (a : α) : OrderedSet α :=
  if h : a ∈ s.elems then s
  else ⟨s.elems ++ [a], s.nodup.append (List.nodup_singleton a) (by
    rw [List.disjoint_singleton]
    exact h)⟩

/-- Remove an element. -/
def delete (s : OrderedSet α) (a : α) : OrderedSet α := ⟨s.elems.erase a, s.nodup.erase a⟩

/-- Insert elements in order. -/
def addAll (s : OrderedSet α) (as : List α) : OrderedSet α := as.foldl add s

/-- Remove elements in order. -/
def deleteAll (s : OrderedSet α) (as : List α) : OrderedSet α := as.foldl delete s

@[simp] theorem mem_add {s : OrderedSet α} {a b : α} : b ∈ s.add a ↔ b ∈ s ∨ b = a := by
  unfold add
  split_ifs with h
  · constructor
    · exact Or.inl
    · rintro (hb | rfl)
      · exact hb
      · exact h
  · exact List.mem_append.trans (or_congr_right List.mem_singleton)

@[simp] theorem mem_delete {s : OrderedSet α} {a b : α} : b ∈ s.delete a ↔ b ∈ s ∧ b ≠ a := by
  rw [mem_def, delete, s.nodup.mem_erase_iff, and_comm]
  rfl

@[simp] theorem mem_addAll {s : OrderedSet α} {as : List α} {b : α} :
    b ∈ s.addAll as ↔ b ∈ s ∨ b ∈ as := by
  induction as generalizing s with
  | nil => exact ⟨Or.inl, fun h => h.resolve_right List.not_mem_nil⟩
  | cons a as ih => rw [addAll, List.foldl_cons, ← addAll, ih, mem_add, List.mem_cons, or_assoc]

@[simp] theorem mem_deleteAll {s : OrderedSet α} {as : List α} {b : α} :
    b ∈ s.deleteAll as ↔ b ∈ s ∧ b ∉ as := by
  induction as generalizing s with
  | nil => exact ⟨fun h => ⟨h, List.not_mem_nil⟩, And.left⟩
  | cons a as ih =>
    rw [deleteAll, List.foldl_cons, ← deleteAll, ih, mem_delete, List.mem_cons, not_or, and_assoc]

end OrderedSet

/-- Values under distinct keys, in the order the keys came. -/
structure OrderedMap (κ : Type u) (ν : Type v) where
  /-- The entries, oldest key first. -/
  entries : List (κ × ν)
  nodup : (entries.map Prod.fst).Nodup
  deriving DecidableEq

namespace OrderedMap

variable {κ : Type u} {ν : Type v}

def empty : OrderedMap κ ν := ⟨[], List.nodup_nil⟩

instance : Inhabited (OrderedMap κ ν) := ⟨empty⟩

def keys (m : OrderedMap κ ν) : List κ := m.entries.map Prod.fst

def values (m : OrderedMap κ ν) : List ν := m.entries.map Prod.snd

/-- The same keys with other values. -/
def mapValues (f : ν → ν) (m : OrderedMap κ ν) : OrderedMap κ ν where
  entries := m.entries.map fun e => (e.1, f e.2)
  nodup := by
    rw [List.map_map]
    exact m.nodup

@[simp] theorem keys_mapValues (f : ν → ν) (m : OrderedMap κ ν) :
    (m.mapValues f).keys = m.keys := by
  rw [keys, mapValues, List.map_map]
  rfl

variable [DecidableEq κ]

/-- The value under a key. -/
def get? (m : OrderedMap κ ν) (k : κ) : Option ν :=
  (m.entries.find? fun e => e.1 = k).map Prod.snd

/-- Overwrite the value under a key in its place, or append the key. -/
def set (m : OrderedMap κ ν) (k : κ) (v : ν) : OrderedMap κ ν :=
  if h : k ∈ m.keys then
    ⟨m.entries.map fun e => if e.1 = k then (k, v) else e, by
      have hfst : (m.entries.map fun e => if e.1 = k then (k, v) else e).map Prod.fst = m.keys := by
        rw [List.map_map]
        apply List.map_congr_left
        intro e _
        by_cases he : e.1 = k
        · simp only [Function.comp_apply, he, ite_true]
        · simp only [Function.comp_apply, he, ite_false]
      rw [hfst]
      exact m.nodup⟩
  else
    ⟨m.entries ++ [(k, v)], by
      rw [List.map_append]
      exact m.nodup.append (List.nodup_singleton k) (List.disjoint_singleton.mpr h)⟩

theorem get?_eq_some_of_mem {m : OrderedMap κ ν} {k : κ} {v : ν} (h : m.get? k = some v) :
    v ∈ m.values := by
  rw [get?, Option.map_eq_some_iff] at h
  obtain ⟨e, he, rfl⟩ := h
  exact List.mem_map_of_mem (List.mem_of_find?_eq_some he)

@[simp] theorem get?_mapValues (f : ν → ν) (m : OrderedMap κ ν) (k : κ) :
    (m.mapValues f).get? k = (m.get? k).map f := by
  rw [get?, mapValues, List.find?_map, Option.map_map, get?, Option.map_map]
  rfl

/-- A key is present exactly when it has a value. -/
theorem isSome_get? {m : OrderedMap κ ν} {k : κ} : (m.get? k).isSome = true ↔ k ∈ m.keys := by
  rw [get?, Option.isSome_map, List.find?_isSome, keys, List.mem_map]
  constructor
  · rintro ⟨e, he, hk⟩
    exact ⟨e, he, of_decide_eq_true hk⟩
  · rintro ⟨e, he, hk⟩
    exact ⟨e, he, decide_eq_true hk⟩

@[simp] theorem mem_keys_set {m : OrderedMap κ ν} {k l : κ} {v : ν} :
    l ∈ (m.set k v).keys ↔ l ∈ m.keys ∨ l = k := by
  unfold set
  split_ifs with h
  · have hmap : (m.entries.map fun e => if e.1 = k then (k, v) else e).map Prod.fst = m.keys := by
      rw [List.map_map]
      apply List.map_congr_left
      intro e _
      by_cases he : e.1 = k
      · simp only [Function.comp_apply, he, ite_true]
      · simp only [Function.comp_apply, he, ite_false]
    rw [keys, hmap]
    constructor
    · exact Or.inl
    · rintro (hl | rfl)
      · exact hl
      · exact h
  · rw [keys, List.map_append, List.mem_append]
    exact or_congr_right List.mem_singleton

/-- An entry's value is the one under its key. -/
theorem get?_eq_some_iff {m : OrderedMap κ ν} {k : κ} {v : ν} :
    m.get? k = some v ↔ (k, v) ∈ m.entries := by
  rw [get?, Option.map_eq_some_iff]
  constructor
  · rintro ⟨⟨l, w⟩, he, rfl⟩
    have hkey := List.find?_some he
    obtain rfl : l = k := by simpa only [decide_eq_true_eq] using hkey
    exact List.mem_of_find?_eq_some he
  · intro hmem
    obtain ⟨e, he⟩ := Option.isSome_iff_exists.mp
      (List.find?_isSome.mpr ⟨(k, v), hmem, decide_eq_true rfl⟩ :
        (m.entries.find? fun e => e.1 = k).isSome = true)
    have hfound := List.find?_some he
    have hkey : e.1 = k := by simpa only [decide_eq_true_eq] using hfound
    have hsame : e = (k, v) :=
      List.inj_on_of_nodup_map m.nodup (List.mem_of_find?_eq_some he) hmem hkey
    exact ⟨e, he, by rw [hsame]⟩

theorem mem_entries_set {m : OrderedMap κ ν} {k l : κ} {v w : ν} :
    (l, w) ∈ (m.set k v).entries ↔ l = k ∧ w = v ∨ l ≠ k ∧ (l, w) ∈ m.entries := by
  unfold set
  split_ifs with h
  · rw [List.mem_map]
    constructor
    · rintro ⟨e, he, heq⟩
      by_cases hk : e.1 = k
      · rw [if_pos hk, Prod.mk.injEq] at heq
        exact .inl ⟨heq.1.symm, heq.2.symm⟩
      · rw [if_neg hk] at heq
        subst heq
        exact .inr ⟨hk, he⟩
    · rintro (⟨rfl, rfl⟩ | ⟨hl, hmem⟩)
      · obtain ⟨e, he, hk⟩ := List.mem_map.mp h
        exact ⟨e, he, if_pos hk⟩
      · exact ⟨(l, w), hmem, if_neg hl⟩
  · rw [List.mem_append, List.mem_singleton, Prod.mk.injEq]
    constructor
    · rintro (hmem | hnew)
      · refine .inr ⟨?_, hmem⟩
        rintro rfl
        exact h (List.mem_map_of_mem hmem)
      · exact .inl hnew
    · rintro (hnew | ⟨-, hmem⟩)
      · exact .inr hnew
      · exact .inl hmem

@[simp] theorem get?_set_self (m : OrderedMap κ ν) (k : κ) (v : ν) : (m.set k v).get? k = some v :=
  get?_eq_some_iff.mpr (mem_entries_set.mpr (.inl ⟨rfl, rfl⟩))

theorem get?_set_of_ne (m : OrderedMap κ ν) {k l : κ} (v : ν) (h : l ≠ k) :
    (m.set k v).get? l = m.get? l := by
  refine Option.ext fun w => ?_
  rw [get?_eq_some_iff, get?_eq_some_iff, mem_entries_set]
  exact ⟨fun hmem => (hmem.resolve_left fun hnew => h hnew.1).2, fun hmem => .inr ⟨h, hmem⟩⟩

theorem length_set_of_mem {m : OrderedMap κ ν} (k : κ) (v : ν) (h : k ∈ m.keys) :
    (m.set k v).values.length = m.values.length := by
  rw [set, dif_pos h, values, values, List.length_map, List.length_map, List.length_map]

theorem length_set_of_notMem {m : OrderedMap κ ν} (k : κ) (v : ν) (h : k ∉ m.keys) :
    (m.set k v).values.length = m.values.length + 1 := by
  rw [set, dif_neg h, values, values, List.length_map, List.length_append, List.length_map]
  rfl

theorem mem_values_set {m : OrderedMap κ ν} {k : κ} {v w : ν} (h : w ∈ (m.set k v).values) :
    w = v ∨ w ∈ m.values := by
  unfold set at h
  split_ifs at h
  · obtain ⟨e, he, rfl⟩ := List.mem_map.mp h
    obtain ⟨e', he', rfl⟩ := List.mem_map.mp he
    by_cases hk : e'.1 = k
    · simp only [hk, ite_true, true_or]
    · simp only [hk, ite_false]
      exact Or.inr (List.mem_map_of_mem he')
  · rw [values, List.map_append, List.mem_append] at h
    rcases h with h | h
    · exact Or.inr h
    · exact Or.inl (List.mem_singleton.mp h)

end OrderedMap

end Tckr
