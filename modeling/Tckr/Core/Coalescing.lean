import Mathlib.Logic.Function.Basic
import Tckr.Core.Collections

/-!
# Coalesced updates

A queue that keeps one merged update for each key stands for the updates pushed
into it: if acting with a merge is acting with its parts in turn, then flushing
the queue has the effect of the pushes in order, whatever the order of the keys.
-/

namespace Tckr

universe u v w

/-- Keyed updates that can be merged, and what they do to the value under their key. -/
structure Coalescer (κ : Type u) (τ : Type v) (σ : Type w) where
  key : τ → κ
  merge : τ → τ → τ
  act : τ → σ → σ
  key_merge : ∀ a b, key (merge a b) = key b
  act_merge : ∀ a b x, key a = key b → act (merge a b) x = act b (act a x)

namespace Coalescer

variable {κ : Type u} {τ : Type v} {σ : Type w} (c : Coalescer κ τ σ)

/-- Every queued update is under its own key. -/
def Keyed (pending : OrderedMap κ τ) : Prop := ∀ k a, (k, a) ∈ pending.entries → c.key a = k

theorem keyed_empty : c.Keyed .empty := fun _ _ h => absurd h List.not_mem_nil

variable {c} in
/-- No two queued updates have the same key. -/
theorem Keyed.nodup {pending : OrderedMap κ τ} (h : c.Keyed pending) :
    (pending.values.map c.key).Nodup := by
  have hkeys : pending.values.map c.key = pending.entries.map Prod.fst := by
    rw [OrderedMap.values, List.map_map]
    exact List.map_congr_left fun e he => h e.1 e.2 he
  exact hkeys ▸ pending.nodup

variable [DecidableEq κ]

/-- Act with one update on the value under its key. -/
def apply (f : κ → σ) (a : τ) : κ → σ := Function.update f (c.key a) (c.act a (f (c.key a)))

/-- Queue an update, merging it into the one queued under its key. -/
def push (pending : OrderedMap κ τ) (a : τ) : OrderedMap κ τ :=
  match pending.get? (c.key a) with
  | some existing => pending.set (c.key a) (c.merge existing a)
  | none => pending.set (c.key a) a

/-- Act with everything queued. -/
def flush (pending : OrderedMap κ τ) (f : κ → σ) : κ → σ := pending.values.foldl c.apply f

variable {c} {pending : OrderedMap κ τ}

/-- A queued update is found under its own key. -/
theorem Keyed.key_eq (h : c.Keyed pending) {k : κ} {a : τ} (ha : pending.get? k = some a) :
    c.key a = k :=
  h k a (OrderedMap.get?_eq_some_iff.mp ha)

theorem Keyed.set (h : c.Keyed pending) (a : τ) {k : κ} (hk : c.key a = k) :
    c.Keyed (pending.set k a) := by
  intro l b hb
  rcases OrderedMap.mem_entries_set.mp hb with ⟨rfl, rfl⟩ | ⟨-, hb⟩
  · exact hk
  · exact h l b hb

theorem Keyed.push (h : c.Keyed pending) (a : τ) : c.Keyed (c.push pending a) := by
  unfold Coalescer.push
  split
  · exact h.set _ (c.key_merge _ a)
  · exact h.set a rfl

/-- Updates of other keys leave a value alone. -/
theorem foldl_apply_of_notMem {k : κ} {as : List τ} (h : k ∉ as.map c.key) (f : κ → σ) :
    as.foldl c.apply f k = f k := by
  induction as generalizing f with
  | nil => rfl
  | cons a as ih =>
    rw [List.map_cons, List.mem_cons, not_or] at h
    rw [List.foldl_cons, ih h.2, apply, Function.update_of_ne h.1]

/-- Among updates with distinct keys only one acts on a value. -/
theorem foldl_apply_of_mem {as : List τ} (hn : (as.map c.key).Nodup) {a : τ} (ha : a ∈ as)
    (f : κ → σ) : as.foldl c.apply f (c.key a) = c.act a (f (c.key a)) := by
  induction as generalizing f with
  | nil => exact absurd ha List.not_mem_nil
  | cons b as ih =>
    rw [List.map_cons, List.nodup_cons] at hn
    rw [List.foldl_cons]
    rcases List.mem_cons.mp ha with rfl | ha
    · rw [foldl_apply_of_notMem hn.1, apply, Function.update_self]
    · have hne : c.key a ≠ c.key b := fun heq => hn.1 (heq ▸ List.mem_map_of_mem ha)
      rw [ih hn.2 ha, apply, Function.update_of_ne hne]

/-- A flush acts on a key with the update queued under it. -/
theorem Keyed.flush_of_some (h : c.Keyed pending) {k : κ} {a : τ} (ha : pending.get? k = some a)
    (f : κ → σ) : c.flush pending f k = c.act a (f k) := by
  obtain rfl := h.key_eq ha
  exact foldl_apply_of_mem h.nodup (OrderedMap.get?_eq_some_of_mem ha) f

/-- A flush leaves a key alone that has nothing queued. -/
theorem Keyed.flush_of_none (h : c.Keyed pending) {k : κ} (ha : pending.get? k = none)
    (f : κ → σ) : c.flush pending f k = f k := by
  refine foldl_apply_of_notMem (fun hk => ?_) f
  obtain ⟨a, hmem, hkey⟩ := List.mem_map.mp hk
  obtain ⟨⟨l, b⟩, hentry, rfl⟩ := List.mem_map.mp hmem
  obtain rfl : l = k := (h l b hentry).symm.trans hkey
  rw [OrderedMap.get?_eq_some_iff.mpr hentry] at ha
  cases ha

/-- Pushing an update and flushing is flushing and acting with the update. -/
theorem Keyed.flush_push (h : c.Keyed pending) (a : τ) (f : κ → σ) :
    c.flush (c.push pending a) f = c.apply (c.flush pending f) a := by
  have hpush := h.push a
  funext k
  by_cases hk : k = c.key a
  · subst hk
    rw [apply, Function.update_self]
    cases hget : pending.get? (c.key a) with
    | some existing =>
      have hset : (c.push pending a).get? (c.key a) = some (c.merge existing a) := by
        simp only [Coalescer.push, hget, OrderedMap.get?_set_self]
      rw [hpush.flush_of_some hset, h.flush_of_some hget, c.act_merge _ _ _ (h.key_eq hget)]
    | none =>
      have hset : (c.push pending a).get? (c.key a) = some a := by
        simp only [Coalescer.push, hget, OrderedMap.get?_set_self]
      rw [hpush.flush_of_some hset, h.flush_of_none hget]
  · have hsame : (c.push pending a).get? k = pending.get? k := by
      unfold Coalescer.push
      split <;> exact pending.get?_set_of_ne _ hk
    rw [apply, Function.update_of_ne hk]
    cases hget : pending.get? k with
    | some b => rw [hpush.flush_of_some (hsame.trans hget), h.flush_of_some hget]
    | none => rw [hpush.flush_of_none (hsame.trans hget), h.flush_of_none hget]

/-- What a push adds to the queue is either an update or a merge into one. -/
theorem length_push (pending : OrderedMap κ τ) (a : τ) :
    (c.push pending a).values.length =
      if (pending.get? (c.key a)).isSome then pending.values.length
      else pending.values.length + 1 := by
  unfold Coalescer.push
  split
  · rename_i hget
    rw [hget, Option.isSome_some, if_pos rfl,
      OrderedMap.length_set_of_mem _ _ (OrderedMap.isSome_get?.mp (by rw [hget]; rfl))]
  · rename_i hget
    have hnot : c.key a ∉ pending.keys := fun hmem => by
      have hsome := OrderedMap.isSome_get?.mpr hmem
      rw [hget] at hsome
      cases hsome
    rw [hget, OrderedMap.length_set_of_notMem _ _ hnot]
    rfl

end Coalescer

end Tckr
