import Tckr.Core.Edits

/-!
# The closest instruments

How far a query is from a symbol: `editDistance` fills the table of distances one row at a
time, in place, and keeps the one overwritten cell it still needs. Strings are sequences of
UTF-16 code units.
-/

namespace Tckr.MarketWatch

/-- A string, by its code units. -/
abbrev CodeUnits := List UInt16

/-- The body of the inner loop: the row, and the cell above the one before. -/
def editCell (a b : CodeUnits) (i : Nat) (state : List Nat × Nat) (j : Nat) : List Nat × Nat :=
  let (row, diagonal) := state
  let above := row.getD j 0
  let cost := if a[i - 1]? = b[j - 1]? then 0 else 1
  (row.set j (min (min (row.getD j 0 + 1) (row.getD (j - 1) 0 + 1)) (diagonal + cost)), above)

/-- The body of the outer loop. -/
def editRow (a b : CodeUnits) (row : List Nat) (i : Nat) : List Nat :=
  let diagonal := row.getD 0 0
  ((List.range' 1 b.length).foldl (editCell a b i) (row.set 0 i, diagonal)).1

def editDistance (a b : CodeUnits) : Nat :=
  ((List.range' 1 a.length).foldl (editRow a b) (List.range (b.length + 1))).getD b.length 0

/-! ## The table -/

/-- The distance of the first `i` units from the first `j`. -/
def table (a b : CodeUnits) (i j : Nat) : Nat := distance (a.take i).reverse (b.take j).reverse

section Table

variable {a b : CodeUnits} {i j : Nat}

theorem table_zero_left (hj : j ≤ b.length) : table a b 0 j = j := by
  simp [table, hj]

theorem table_zero_right (hi : i ≤ a.length) : table a b i 0 = i := by
  simp [table, hi]

theorem table_succ_succ (hi : i < a.length) (hj : j < b.length) :
    table a b (i + 1) (j + 1) = min (min (table a b i (j + 1) + 1) (table a b (i + 1) j + 1))
      (table a b i j + if a[i]? = b[j]? then 0 else 1) := by
  have ha : (a.take (i + 1)).reverse = a[i] :: (a.take i).reverse := by
    rw [List.take_succ_eq_append_getElem hi, List.reverse_append]
    rfl
  have hb : (b.take (j + 1)).reverse = b[j] :: (b.take j).reverse := by
    rw [List.take_succ_eq_append_getElem hj, List.reverse_append]
    rfl
  simp only [table, ha, hb, distance_cons_cons, List.getElem?_eq_getElem hi,
    List.getElem?_eq_getElem hj, Option.some_inj]

theorem table_length : table a b a.length b.length = distance a b := by
  rw [table, List.take_length, List.take_length, distance_reverse]

/-- The row up to column `j` is new, and from there on it is still the one above. The
diagonal is the cell of the row above that was overwritten last. -/
structure HalfNew (a b : CodeUnits) (i j : Nat) (state : List Nat × Nat) : Prop where
  length : state.1.length = b.length + 1
  new : ∀ k ≤ j, state.1.getD k 0 = table a b (i + 1) k
  old : ∀ k, j < k → k ≤ b.length → state.1.getD k 0 = table a b i k
  diagonal : state.2 = table a b i j

/-- The row is that of the table. -/
structure Filled (a b : CodeUnits) (i : Nat) (row : List Nat) : Prop where
  length : row.length = b.length + 1
  cells : ∀ k ≤ b.length, row.getD k 0 = table a b i k

theorem getD_set_self {row : List Nat} {k value : Nat} (hk : k < row.length) :
    (row.set k value).getD k 0 = value := by
  simp [List.getD_eq_getElem?_getD, hk]

theorem getD_set_of_ne {row : List Nat} {k l value : Nat} (hne : k ≠ l) :
    (row.set k value).getD l 0 = row.getD l 0 := by
  simp [List.getD_eq_getElem?_getD, hne]

/-- A new row starts with the column of insertions. -/
theorem halfNew_zero {row : List Nat} (hi : i < a.length) (h : Filled a b i row) :
    HalfNew a b i 0 (row.set 0 (i + 1), row.getD 0 0) where
  length := by rw [List.length_set, h.length]
  new k hk := by
    obtain rfl := Nat.le_zero.mp hk
    rw [getD_set_self (by rw [h.length]; omega), table_zero_right hi]
  old k hk hle := by
    rw [getD_set_of_ne (by omega), h.cells k hle]
  diagonal := h.cells 0 (Nat.zero_le _)

/-- One cell more of the row is new. -/
theorem HalfNew.editCell {state : List Nat × Nat} (h : HalfNew a b i j state) (hi : i < a.length)
    (hj : j < b.length) : HalfNew a b i (j + 1) (editCell a b (i + 1) state (j + 1)) := by
  have hcell : min (min (state.1.getD (j + 1) 0 + 1) (state.1.getD j 0 + 1))
      (state.2 + if a[i]? = b[j]? then 0 else 1) = table a b (i + 1) (j + 1) := by
    rw [h.old (j + 1) (Nat.lt_succ_self j) hj, h.new j (Nat.le_refl j), h.diagonal,
      table_succ_succ hi hj]
  have hrow : (MarketWatch.editCell a b (i + 1) state (j + 1)).1 =
      state.1.set (j + 1) (table a b (i + 1) (j + 1)) := by
    rw [← hcell]
    rfl
  constructor
  · rw [hrow, List.length_set, h.length]
  · intro k hk
    rw [hrow]
    obtain hlt | rfl := Nat.lt_or_eq_of_le hk
    · rw [getD_set_of_ne (by omega), h.new k (by omega)]
    · rw [getD_set_self (by rw [h.length]; omega)]
  · intro k hk hle
    rw [hrow, getD_set_of_ne (by omega), h.old k (by omega) hle]
  · exact h.old (j + 1) (Nat.lt_succ_self j) hj

/-- After so many columns so many cells are new. -/
theorem HalfNew.foldl {state : List Nat × Nat} (h : HalfNew a b i 0 state) (hi : i < a.length)
    (hj : j ≤ b.length) :
    HalfNew a b i j ((List.range' 1 j).foldl (MarketWatch.editCell a b (i + 1)) state) := by
  induction j with
  | zero => exact h
  | succ j ih =>
    rw [List.range'_1_concat, List.foldl_append, Nat.add_comm 1 j]
    exact (ih (by omega)).editCell hi hj

/-- The outer loop's body fills the next row. -/
theorem Filled.editRow {row : List Nat} (h : Filled a b i row) (hi : i < a.length) :
    Filled a b (i + 1) (editRow a b row (i + 1)) := by
  have hrow := (halfNew_zero hi h).foldl hi (Nat.le_refl b.length)
  exact ⟨hrow.length, hrow.new⟩

theorem filled_zero : Filled a b 0 (List.range (b.length + 1)) where
  length := List.length_range
  cells k hk := by
    rw [table_zero_left hk, List.getD_eq_getElem?_getD, List.getElem?_range (by omega)]
    rfl

theorem filled_foldl (hi : i ≤ a.length) :
    Filled a b i ((List.range' 1 i).foldl (editRow a b) (List.range (b.length + 1))) := by
  induction i with
  | zero => exact filled_zero
  | succ i ih =>
    rw [List.range'_1_concat, List.foldl_append, Nat.add_comm 1 i]
    exact (ih (by omega)).editRow hi

/-- The last cell of the last row is the distance. -/
theorem editDistance_eq_distance (a b : CodeUnits) : editDistance a b = distance a b := by
  rw [editDistance, (filled_foldl (Nat.le_refl a.length)).cells b.length (Nat.le_refl _),
    table_length]

end Table

/-- `editDistance` is the least number of insertions, deletions and substitutions, and a
metric. -/
theorem editDistance_isLeast :
    (∀ a b : CodeUnits, IsLeast {n | Edits n a b} (editDistance a b)) ∧
    (∀ a b : CodeUnits, editDistance a b = editDistance b a) ∧
    (∀ a b : CodeUnits, editDistance a b = 0 ↔ a = b) ∧
    ∀ a b c : CodeUnits, editDistance a c ≤ editDistance a b + editDistance b c := by
  simp only [editDistance_eq_distance]
  exact ⟨isLeast_distance, distance_comm, fun a b => distance_eq_zero_iff, distance_triangle⟩

/-- From "comy" to "comi" in one step, from "kitten" to "sitting" in three. -/
example :
    editDistance [99, 111, 109, 121] [99, 111, 109, 105] = 1 ∧
      editDistance [107, 105, 116, 116, 101, 110] [115, 105, 116, 116, 105, 110, 103] = 3 := by
  decide

end Tckr.MarketWatch
