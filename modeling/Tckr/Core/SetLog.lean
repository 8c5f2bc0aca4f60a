import Mathlib.Data.Finset.Basic
import Mathlib.Data.Finset.SDiff

/-!
# Replicating a set through a queue and a wire

One side wants a set and announces its changes; the other replays what reaches it.
A change is either put straight on the wire or queued behind it. The two sides end
up with the same set when the queue never contradicts what is wanted, the wire has
announced nothing beyond it, and everything wanted has been announced.
-/

namespace Tckr

universe u

/-- A change to a set. -/
inductive SetOp (α : Type u)
  | insert (as : List α)
  | remove (as : List α)

namespace SetOp

variable {α : Type u} [DecidableEq α]

/-- The set after the change. -/
def apply (held : Finset α) : SetOp α → Finset α
  | .insert as => held ∪ as.toFinset
  | .remove as => held \ as.toFinset

/-- What the change says about an element, if it names it. -/
def word (a : α) : SetOp α → Option Bool
  | .insert as => if a ∈ as then some true else none
  | .remove as => if a ∈ as then some false else none

theorem mem_apply {held : Finset α} {op : SetOp α} {a : α} :
    a ∈ op.apply held ↔ op.word a = some true ∨ op.word a = none ∧ a ∈ held := by
  cases op with
  | insert as =>
    simp only [apply, word, Finset.mem_union, List.mem_toFinset]
    by_cases ha : a ∈ as
    · simp only [ha, or_true, ite_true, true_or]
    · simp only [ha, or_false, ite_false, reduceCtorEq, true_and, false_or]
  | remove as =>
    simp only [apply, word, Finset.mem_sdiff, List.mem_toFinset]
    by_cases ha : a ∈ as
    · simp only [ha, not_true_eq_false, and_false, ite_true, Option.some.injEq, reduceCtorEq,
        false_and, or_false, Bool.false_eq_true]
    · simp only [ha, not_false_eq_true, and_true, ite_false, reduceCtorEq, true_and, false_or]

/-- The set after changes in order. -/
def replay (held : Finset α) (ops : List (SetOp α)) : Finset α := ops.foldl apply held

/-- The last word on an element, if any change names it. -/
def lastWord (a : α) : List (SetOp α) → Option Bool
  | [] => none
  | op :: ops => (lastWord a ops).or (op.word a)

@[simp] theorem lastWord_nil (a : α) : lastWord a [] = none := rfl

theorem lastWord_append (a : α) (ops ops' : List (SetOp α)) :
    lastWord a (ops ++ ops') = (lastWord a ops').or (lastWord a ops) := by
  induction ops with
  | nil => rw [List.nil_append, lastWord_nil, Option.or_none]
  | cons op ops ih => rw [List.cons_append, lastWord, lastWord, ih, Option.or_assoc]

theorem lastWord_concat (a : α) (ops : List (SetOp α)) (op : SetOp α) :
    lastWord a (ops ++ [op]) = (op.word a).or (lastWord a ops) := by
  rw [lastWord_append]
  rfl

/-- Replaying keeps the last word on every element. -/
theorem mem_replay {held : Finset α} {ops : List (SetOp α)} {a : α} :
    a ∈ replay held ops ↔ lastWord a ops = some true ∨ lastWord a ops = none ∧ a ∈ held := by
  induction ops generalizing held with
  | nil => simp only [replay, List.foldl_nil, lastWord_nil, reduceCtorEq, true_and, false_or]
  | cons op ops ih =>
    rw [replay, List.foldl_cons, ← replay, ih, mem_apply, lastWord]
    cases lastWord a ops with
    | none => simp only [reduceCtorEq, true_and, false_or, Option.none_or]
    | some b => simp only [reduceCtorEq, false_and, or_false, Option.some_or]

/-! ## Wanting, queueing and sending -/

/-- The queue says nothing untrue of the wanted set, and where it is silent the wire
has announced nothing beyond it. -/
structure Tracks (want : Finset α) (queue wire : List (SetOp α)) : Prop where
  queued : ∀ a b, lastWord a queue = some b → (b = true ↔ a ∈ want)
  announced : ∀ a, lastWord a queue = none → lastWord a wire = some true → a ∈ want

/-- Everything wanted has been announced, on the wire or in the queue. -/
def Covers (want : Finset α) (queue wire : List (SetOp α)) : Prop :=
  ∀ a ∈ want, lastWord a queue = none → lastWord a wire = some true

/-- No queued change has the opposite last word on an element the change names. -/
def Unopposed (queue : List (SetOp α)) : SetOp α → Prop
  | .insert as => ∀ a ∈ as, lastWord a queue ≠ some false
  | .remove as => ∀ a ∈ as, lastWord a queue ≠ some true

instance (queue : List (SetOp α)) (op : SetOp α) : Decidable (op.Unopposed queue) := by
  cases op with
  | insert as => exact inferInstanceAs (Decidable (∀ a ∈ as, lastWord a queue ≠ some false))
  | remove as => exact inferInstanceAs (Decidable (∀ a ∈ as, lastWord a queue ≠ some true))

theorem Unopposed.word {queue : List (SetOp α)} {op : SetOp α} (h : op.Unopposed queue) {a : α}
    {b : Bool} (hb : op.word a = some b) : lastWord a queue ≠ some (!b) := by
  cases op with
  | insert as =>
    rw [SetOp.word] at hb
    split_ifs at hb with ha
    cases hb
    exact h a ha
  | remove as =>
    rw [SetOp.word] at hb
    split_ifs at hb with ha
    cases hb
    exact h a ha

variable {want : Finset α} {queue wire : List (SetOp α)}

/-- What is tracked and covered is what replaying wire and queue leads to. -/
theorem Tracks.replay_eq (h : Tracks want queue wire) (hc : Covers want queue wire) :
    replay ∅ (wire ++ queue) = want := by
  ext a
  rw [mem_replay, lastWord_append]
  cases hq : lastWord a queue with
  | none =>
    simp only [Option.none_or, Finset.notMem_empty, and_false, or_false]
    constructor
    · exact h.announced a hq
    · intro ha
      exact hc a ha hq
  | some b =>
    simp only [Option.some_or, Option.some.injEq, reduceCtorEq, false_and, or_false]
    exact h.queued a b hq

theorem tracks_nil : Tracks (∅ : Finset α) [] [] := by
  constructor
  · intro a b h
    cases h
  · intro a _ h
    cases h

/-- Starting over on a fresh wire. -/
theorem Tracks.restart (h : Tracks want queue wire) : Tracks want queue [] := by
  refine ⟨h.queued, ?_⟩
  intro a _ hw
  cases hw

theorem Tracks.enqueue (h : Tracks want queue wire) (op : SetOp α) :
    Tracks (op.apply want) (queue ++ [op]) wire := by
  constructor
  · intro a b hb
    rw [lastWord_concat] at hb
    rw [mem_apply]
    cases hw : op.word a with
    | none =>
      rw [hw, Option.none_or] at hb
      simp only [reduceCtorEq, true_and, false_or]
      exact h.queued a b hb
    | some b' =>
      rw [hw, Option.some_or, Option.some.injEq] at hb
      simp only [hb, Option.some.injEq, reduceCtorEq, false_and, or_false]
  · intro a hq hw
    rw [lastWord_concat, Option.or_eq_none_iff] at hq
    rw [mem_apply]
    exact Or.inr ⟨hq.1, h.announced a hq.2 hw⟩

theorem Covers.enqueue (h : Covers want queue wire) (op : SetOp α) :
    Covers (op.apply want) (queue ++ [op]) wire := by
  intro a ha hq
  rw [lastWord_concat, Option.or_eq_none_iff] at hq
  rw [mem_apply, hq.1] at ha
  exact h a (ha.resolve_left (Option.some_ne_none true).symm).2 hq.2

/-- A change that no queued one opposes may overtake the queue. -/
theorem Tracks.send (h : Tracks want queue wire) {op : SetOp α} (hop : op.Unopposed queue) :
    Tracks (op.apply want) queue (wire ++ [op]) := by
  constructor
  · intro a b hb
    rw [mem_apply]
    cases hw : op.word a with
    | none =>
      simp only [reduceCtorEq, true_and, false_or]
      exact h.queued a b hb
    | some b' =>
      have hne := hop.word hw
      rw [hb, ne_eq, Option.some.injEq] at hne
      simp only [Option.some.injEq, reduceCtorEq, false_and, or_false]
      cases b with
      | false =>
        cases b' with
        | false => exact Iff.rfl
        | true => exact absurd rfl hne
      | true =>
        cases b' with
        | false => exact absurd rfl hne
        | true => exact Iff.rfl
  · intro a hq hw
    rw [lastWord_concat] at hw
    rw [mem_apply]
    cases ho : op.word a with
    | none =>
      rw [ho, Option.none_or] at hw
      exact Or.inr ⟨rfl, h.announced a hq hw⟩
    | some b =>
      rw [ho, Option.some_or] at hw
      exact Or.inl hw

theorem Covers.send (h : Covers want queue wire) (op : SetOp α) :
    Covers (op.apply want) queue (wire ++ [op]) := by
  intro a ha hq
  rw [mem_apply] at ha
  rw [lastWord_concat]
  rcases ha with ha | ⟨ho, ha⟩
  · rw [ha, Option.some_or]
  · rw [ho, Option.none_or]
    exact h a ha hq

/-- The whole queue goes out. -/
theorem Tracks.flush (h : Tracks want queue wire) : Tracks want [] (wire ++ queue) := by
  constructor
  · intro a b hb
    cases hb
  · intro a _ hw
    rw [lastWord_append] at hw
    cases hq : lastWord a queue with
    | none =>
      rw [hq, Option.none_or] at hw
      exact h.announced a hq hw
    | some b =>
      rw [hq, Option.some_or, Option.some.injEq] at hw
      exact (h.queued a b hq).mp hw

theorem Covers.flush (h : Tracks want queue wire) (hc : Covers want queue wire) :
    Covers want [] (wire ++ queue) := by
  intro a ha _
  rw [lastWord_append]
  cases hq : lastWord a queue with
  | none => exact hc a ha hq
  | some b => rw [Option.some_or, (h.queued a b hq).mpr ha]

/-! ## Announcing everything again -/

theorem apply_insert_self {as : List α} (has : as.toFinset = want) :
    (SetOp.insert as).apply want = want := by
  rw [apply, has, Finset.union_self]

/-- Announcing what is wanted contradicts nothing queued. -/
theorem Tracks.unopposed_insert (h : Tracks want queue wire) {as : List α}
    (has : as.toFinset = want) : (SetOp.insert as).Unopposed queue := by
  intro a ha hq
  have hwant : a ∈ want := has ▸ List.mem_toFinset.mpr ha
  exact absurd ((h.queued a false hq).mpr hwant) Bool.false_ne_true

theorem covers_enqueue_insert {as : List α} (has : as.toFinset = want) :
    Covers want (queue ++ [.insert as]) wire := by
  intro a ha hq
  rw [lastWord_concat, word, if_pos (List.mem_toFinset.mp (has ▸ ha)), Option.some_or] at hq
  cases hq

theorem covers_send_insert {as : List α} (has : as.toFinset = want) :
    Covers want queue (wire ++ [.insert as]) := by
  intro a ha _
  rw [lastWord_concat, word, if_pos (List.mem_toFinset.mp (has ▸ ha)), Option.some_or]

end SetOp

end Tckr
