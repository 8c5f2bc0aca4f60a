import Mathlib.Data.List.DropRight
import Tckr.MarketWatch.Contracts.DecimalArithmetic

/-!
# The buffer behind a chart

Two arrays of a fixed length, written in place. While there is room a point goes behind
the last one; from then on everything moves one place to the left first. What is read back
is always the most recent points, as many as the arrays hold.
-/

namespace Tckr.MarketWatch

/-- A series of the chart. -/
structure RingBuffer where
  capacity : Nat
  times : List ℚ
  values : List ℚ
  count : Nat
  times_length : times.length = capacity
  values_length : values.length = capacity
  count_le : count ≤ capacity
  capacity_pos : 0 < capacity

/-- `copyWithin(0, 1)`: everything one place to the left, and the last one stays, too. -/
def copyWithin (xs : List ℚ) : List ℚ := xs.drop 1 ++ xs.drop (xs.length - 1)

@[simp] theorem length_copyWithin (xs : List ℚ) : (copyWithin xs).length = xs.length := by
  rw [copyWithin, List.length_append, List.length_drop, List.length_drop]
  omega

/-- A point pushed behind the last one of two arrays. -/
theorem copyWithin_set {xs : List ℚ} (hxs : 0 < xs.length) (x : ℚ) :
    (copyWithin xs).set (xs.length - 1) x = xs.drop 1 ++ [x] := by
  have hlength : (xs.drop 1).length = xs.length - 1 := List.length_drop
  have hlast : (xs.drop (xs.length - 1)).length = 1 := by
    rw [List.length_drop]
    omega
  obtain ⟨last, hsingle⟩ := List.length_eq_one_iff.mp hlast
  rw [copyWithin, hsingle, List.set_append_right _ _ (Nat.le_of_eq hlength), hlength, Nat.sub_self]
  rfl

namespace RingBuffer

/-- The constructor; `none` is a `RangeError`. -/
def ofCapacity (capacity : Nat) : Option RingBuffer :=
  if h : 0 < capacity then
    some {
      capacity
      times := List.replicate capacity 0
      values := List.replicate capacity 0
      count := 0
      times_length := List.length_replicate
      values_length := List.length_replicate
      count_le := Nat.zero_le capacity
      capacity_pos := h }
  else none

def push (b : RingBuffer) (timeMs price : ℚ) : RingBuffer :=
  if h : b.count < b.capacity then
    { b with
      times := b.times.set b.count timeMs
      values := b.values.set b.count price
      count := b.count + 1
      times_length := by rw [List.length_set, b.times_length]
      values_length := by rw [List.length_set, b.values_length]
      count_le := h }
  else
    { b with
      times := (copyWithin b.times).set (b.capacity - 1) timeMs
      values := (copyWithin b.values).set (b.capacity - 1) price
      times_length := by rw [List.length_set, length_copyWithin, b.times_length]
      values_length := by rw [List.length_set, length_copyWithin, b.values_length] }

def clear (b : RingBuffer) : RingBuffer := { b with count := 0, count_le := Nat.zero_le b.capacity }

/-- The points a reader sees, oldest first. -/
def contents (b : RingBuffer) : List (ℚ × ℚ) := (b.times.zip b.values).take b.count

@[simp] theorem capacity_push (b : RingBuffer) (timeMs price : ℚ) :
    (b.push timeMs price).capacity = b.capacity := by
  unfold push
  split
  · rfl
  · rfl

@[simp] theorem capacity_clear (b : RingBuffer) : b.clear.capacity = b.capacity := rfl

@[simp] theorem contents_clear (b : RingBuffer) : b.clear.contents = [] := List.take_zero

@[simp] theorem length_contents (b : RingBuffer) : b.contents.length = b.count := by
  have hcount := b.count_le
  simp [contents, b.times_length, b.values_length]
  omega

/-! ## The most recent points -/

section Recent

variable {α : Type} {n : Nat}

theorem rtake_of_length_le {xs : List α} (h : xs.length ≤ n) : xs.rtake n = xs := by
  rw [List.rtake, Nat.sub_eq_zero_of_le h, List.drop_zero]

/-- What has been dropped before would be dropped now. -/
theorem rtake_rtake_append (xs ys : List α) : (xs.rtake n ++ ys).rtake n = (xs ++ ys).rtake n := by
  simp only [List.rtake_eq_reverse_take_reverse, List.reverse_append, List.reverse_reverse,
    List.take_append, List.take_take, List.length_reverse]
  rw [Nat.min_eq_left (Nat.sub_le n ys.length)]

theorem length_rtake (xs : List α) : (xs.rtake n).length = min n xs.length := by
  rw [List.rtake, List.length_drop]
  omega

end Recent

theorem contents_push_of_lt {b : RingBuffer} (h : b.count < b.capacity) (timeMs price : ℚ) :
    (b.push timeMs price).contents = b.contents ++ [(timeMs, price)] := by
  have htimes : b.count < b.times.length := by rw [b.times_length]; exact h
  have hvalues : b.count < b.values.length := by rw [b.values_length]; exact h
  have hpush : (b.push timeMs price).contents =
      ((b.times.set b.count timeMs).zip (b.values.set b.count price)).take (b.count + 1) := by
    simp [contents, push, h]
  have hlength : (b.times.take b.count).length = (b.values.take b.count).length := by
    rw [List.length_take, List.length_take, b.times_length, b.values_length]
  have hold : ((b.times.take b.count).zip (b.values.take b.count)).length = b.count := by
    rw [List.length_zip, ← hlength, Nat.min_self, List.length_take]
    omega
  have htake : (b.times.take b.count).zip (b.values.take b.count) = b.contents :=
    List.take_zipWith.symm
  rw [hpush, List.set_eq_take_append_cons_drop, if_pos htimes, List.set_eq_take_append_cons_drop,
    if_pos hvalues, List.zip_append hlength, List.zip_cons_cons, List.take_append, hold,
    List.take_of_length_le (by omega), Nat.add_sub_cancel_left, htake]
  rfl

theorem contents_push_of_full {b : RingBuffer} (h : ¬b.count < b.capacity) (timeMs price : ℚ) :
    (b.push timeMs price).contents = b.contents.drop 1 ++ [(timeMs, price)] := by
  have hcount : b.count = b.capacity := by
    have hle := b.count_le
    omega
  have hpos := b.capacity_pos
  have htimes : (copyWithin b.times).set (b.capacity - 1) timeMs = b.times.drop 1 ++ [timeMs] := by
    rw [← b.times_length]
    exact copyWithin_set (by rw [b.times_length]; exact hpos) timeMs
  have hvalues : (copyWithin b.values).set (b.capacity - 1) price = b.values.drop 1 ++ [price] := by
    rw [← b.values_length]
    exact copyWithin_set (by rw [b.values_length]; exact hpos) price
  have hpush : (b.push timeMs price).contents =
      ((b.times.drop 1 ++ [timeMs]).zip (b.values.drop 1 ++ [price])).take b.count := by
    simp [contents, push, h, htimes, hvalues]
  have hlength : (b.times.drop 1).length = (b.values.drop 1).length := by
    rw [List.length_drop, List.length_drop, b.times_length, b.values_length]
  have hwhole : (b.times.zip b.values).length = b.count := by
    rw [List.length_zip, b.times_length, b.values_length, Nat.min_self, hcount]
  have hdrop : (b.times.drop 1).zip (b.values.drop 1) = (b.times.zip b.values).drop 1 :=
    List.drop_zipWith.symm
  rw [hpush, List.zip_append hlength, hdrop, contents, List.take_of_length_le]
  · rw [List.take_of_length_le (Nat.le_of_eq hwhole)]
    rfl
  · rw [List.length_append, List.length_drop, hwhole]
    simp only [List.zip_cons_cons, List.zip_nil_right, List.length_singleton]
    omega

/-- A push keeps the most recent points. -/
theorem contents_push (b : RingBuffer) (timeMs price : ℚ) :
    (b.push timeMs price).contents = (b.contents ++ [(timeMs, price)]).rtake b.capacity := by
  by_cases h : b.count < b.capacity
  · rw [contents_push_of_lt h, rtake_of_length_le]
    rw [List.length_append, length_contents]
    exact h
  · have hcount : b.contents.length = b.capacity := by
      have hle := b.count_le
      rw [length_contents]
      omega
    have hpos := b.capacity_pos
    rw [contents_push_of_full h, List.rtake, List.length_append, hcount, Nat.add_sub_cancel_left,
      List.length_singleton, List.drop_append_of_le_length (by omega)]

/-- A run of pushes keeps the most recent points. -/
theorem contents_foldl_push (b : RingBuffer) (points : List (ℚ × ℚ)) :
    (points.foldl (fun b point => b.push point.1 point.2) b).contents =
        (b.contents ++ points).rtake b.capacity ∧
      (points.foldl (fun b point => b.push point.1 point.2) b).capacity = b.capacity := by
  induction points generalizing b with
  | nil =>
    rw [List.append_nil, rtake_of_length_le (b.length_contents.trans_le b.count_le)]
    exact ⟨rfl, rfl⟩
  | cons point points ih =>
    obtain ⟨hcontents, hcapacity⟩ := ih (b.push point.1 point.2)
    rw [contents_push, capacity_push, rtake_rtake_append, List.append_assoc] at hcontents
    rw [capacity_push] at hcapacity
    exact ⟨hcontents, hcapacity⟩

end RingBuffer

end Tckr.MarketWatch
