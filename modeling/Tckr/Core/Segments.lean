import Mathlib.Data.List.Basic

/-!
# Segmented sequences

A buffer made of several memory segments read as one sequence. Slicing walks the
segments; what it yields is the slice of the concatenation, so nothing computed
from slices, lengths and copies can depend on where the segments meet. A layout
cuts a string into segments at given sizes, and every segmentation is a layout.
-/

namespace Tckr

universe u

/-- A sequence stored in consecutive segments. -/
structure ReadOnlySequence (β : Type u) where
  /-- The segments, in order. -/
  segments : List (List β)
  deriving DecidableEq, Repr

namespace ReadOnlySequence

variable {β : Type u}

/-- What the segments hold together. -/
def toList (s : ReadOnlySequence β) : List β := s.segments.flatten

/-- The number of symbols over all segments. -/
def length (s : ReadOnlySequence β) : Nat := s.segments.foldr (fun seg n => seg.length + n) 0

/-- Skip symbols, dropping the segments they exhaust. -/
def dropSegments : Nat → List (List β) → List (List β)
  | _, [] => []
  | n, seg :: segs =>
      if n < seg.length then seg.drop n :: segs else dropSegments (n - seg.length) segs

/-- Keep symbols, cutting the segment they end in. -/
def takeSegments : Nat → List (List β) → List (List β)
  | _, [] => []
  | n, seg :: segs =>
      if n ≤ seg.length then [seg.take n] else seg :: takeSegments (n - seg.length) segs

/-- The sequence from a position on. -/
def sliceFrom (s : ReadOnlySequence β) (start : Nat) : ReadOnlySequence β :=
  ⟨dropSegments start s.segments⟩

/-- The part of the given length from a position on. -/
def slice (s : ReadOnlySequence β) (start length : Nat) : ReadOnlySequence β :=
  ⟨takeSegments length (dropSegments start s.segments)⟩

/-- Whether one segment holds everything. -/
def isSingleSegment (s : ReadOnlySequence β) : Bool := s.segments.length ≤ 1

/-- The first segment. -/
def firstSpan (s : ReadOnlySequence β) : List β := s.segments.headD []

theorem length_toList (s : ReadOnlySequence β) : s.toList.length = s.length := by
  rw [toList, length]
  induction s.segments with
  | nil => rfl
  | cons seg segs ih => rw [List.flatten_cons, List.length_append, List.foldr_cons, ih]

theorem flatten_dropSegments (n : Nat) (segs : List (List β)) :
    (dropSegments n segs).flatten = segs.flatten.drop n := by
  induction segs generalizing n with
  | nil => simp only [dropSegments, List.flatten_nil, List.drop_nil]
  | cons seg segs ih =>
      rw [dropSegments]
      split_ifs with h
      · rw [List.flatten_cons, List.flatten_cons, List.drop_append_of_le_length (Nat.le_of_lt h)]
      · rw [ih, List.flatten_cons, List.drop_append, List.drop_of_length_le (Nat.le_of_not_lt h),
          List.nil_append]

theorem flatten_takeSegments (n : Nat) (segs : List (List β)) :
    (takeSegments n segs).flatten = segs.flatten.take n := by
  induction segs generalizing n with
  | nil => simp only [takeSegments, List.flatten_nil, List.take_nil]
  | cons seg segs ih =>
      rw [takeSegments]
      split_ifs with h
      · rw [List.flatten_cons, List.flatten_cons, List.flatten_nil, List.append_nil,
          List.take_append_of_le_length h]
      · rw [List.flatten_cons, ih, List.flatten_cons, List.take_append,
          List.take_of_length_le (Nat.le_of_not_le h)]

@[simp] theorem toList_sliceFrom (s : ReadOnlySequence β) (start : Nat) :
    (s.sliceFrom start).toList = s.toList.drop start := flatten_dropSegments start s.segments

@[simp] theorem toList_slice (s : ReadOnlySequence β) (start length : Nat) :
    (s.slice start length).toList = (s.toList.drop start).take length := by
  rw [toList, slice, flatten_takeSegments, flatten_dropSegments, toList]

/-- In a single segment everything is in the first span. -/
theorem firstSpan_eq_toList {s : ReadOnlySequence β} (h : s.isSingleSegment = true) :
    s.firstSpan = s.toList := by
  obtain ⟨segs⟩ := s
  match segs with
  | [] => rfl
  | [seg] => simp only [firstSpan, toList, List.headD_cons, List.flatten_cons, List.flatten_nil,
      List.append_nil]
  | _ :: _ :: _ => simp only [isSingleSegment, List.length_cons, decide_eq_true_eq] at h; omega

/-! ## Layouts -/

/-- Cut a string into segments of the given sizes, the last one taking the rest. -/
def layout : List Nat → List β → ReadOnlySequence β
  | [], bs => ⟨[bs]⟩
  | n :: ns, bs => ⟨bs.take n :: (layout ns (bs.drop n)).segments⟩

@[simp] theorem toList_layout (sizes : List Nat) (bs : List β) :
    (layout sizes bs).toList = bs := by
  induction sizes generalizing bs with
  | nil => simp only [layout, toList, List.flatten_cons, List.flatten_nil, List.append_nil]
  | cons n ns ih =>
      have h := ih (bs.drop n)
      rw [toList] at h
      rw [layout, toList, List.flatten_cons, h, List.take_append_drop]

end ReadOnlySequence

end Tckr
