import Tckr.Core.Slices

/-!
# The downsampled series of a sparkline

A session's prices reduced to so many points: the first and the last are kept, and the ones
between are cut into as many slices as there are points left, each drawn as its mean.
Numbers are exact rationals.
-/

namespace Tckr.MarketWatch

/-- Where a bucket starts. -/
def bucketStart (inner buckets i : Nat) : Nat := 1 + i * inner / buckets

/-- Where a bucket ends. -/
def bucketEnd (inner buckets i : Nat) : Nat := 1 + (i + 1) * inner / buckets

/-- The mean of the values from one index to before another. -/
def bucketMean (values : List ℚ) (start stop : Nat) : ℚ :=
  let sum := (List.range' start (stop - start)).foldl (fun sum j => sum + values.getD j 0) 0
  sum / ((stop : ℚ) - start)

def downsampleSeries (values : List ℚ) (maxPoints : Nat) : List ℚ :=
  if values.length ≤ maxPoints then values
  else
    let inner := values.length - 2
    let buckets := maxPoints - 2
    let means := (List.range buckets).map fun i =>
      bucketMean values (bucketStart inner buckets i) (bucketEnd inner buckets i)
    values.getD 0 0 :: means ++ [values.getD (values.length - 1) 0]

/-- The index lies in the bucket. -/
def InBucket (inner buckets i j : Nat) : Prop :=
  bucketStart inner buckets i ≤ j ∧ j < bucketEnd inner buckets i

section Buckets

variable {inner buckets : Nat}

theorem bucketStart_eq (inner buckets i : Nat) :
    bucketStart inner buckets i = 1 + Slices.proportional inner buckets i := rfl

theorem bucketEnd_eq_bucketStart_succ (inner buckets i : Nat) :
    bucketEnd inner buckets i = bucketStart inner buckets (i + 1) := rfl

theorem bucketStart_lt_bucketEnd (hpos : 0 < buckets) (hle : buckets ≤ inner) (i : Nat) :
    bucketStart inner buckets i < bucketEnd inner buckets i :=
  Nat.add_lt_add_left (Slices.proportional_lt_succ hpos hle i) 1

theorem bucketStart_le_bucketStart (hpos : 0 < buckets) (hle : buckets ≤ inner) {i i' : Nat}
    (h : i ≤ i') : bucketStart inner buckets i ≤ bucketStart inner buckets i' :=
  @Slices.cut_le_cut (bucketStart inner buckets)
    (fun i => bucketStart_lt_bucketEnd hpos hle i) i i' h

theorem bucketStart_zero (inner buckets : Nat) : bucketStart inner buckets 0 = 1 := by
  rw [bucketStart_eq, Slices.proportional_zero]

theorem bucketStart_buckets (hpos : 0 < buckets) (inner : Nat) :
    bucketStart inner buckets buckets = 1 + inner := by
  rw [bucketStart_eq, Slices.proportional_self hpos]

/-- No bucket reaches beyond the interior. -/
theorem bucketEnd_le (hpos : 0 < buckets) (hle : buckets ≤ inner) {i : Nat} (hi : i < buckets) :
    bucketEnd inner buckets i ≤ 1 + inner := by
  rw [bucketEnd_eq_bucketStart_succ, ← bucketStart_buckets hpos inner]
  exact bucketStart_le_bucketStart hpos hle hi

theorem one_le_bucketStart (inner buckets i : Nat) : 1 ≤ bucketStart inner buckets i :=
  Nat.le_add_right 1 _

/-- Every index of the interior lies in one bucket. -/
theorem existsUnique_inBucket (hpos : 0 < buckets) (hle : buckets ≤ inner) {j : Nat}
    (hfirst : 1 ≤ j) (hlast : j < 1 + inner) :
    ∃! i, i < buckets ∧ InBucket inner buckets i j := by
  refine @Slices.existsUnique_holds (bucketStart inner buckets) _ _
    (fun i => bucketStart_lt_bucketEnd hpos hle i) ?_ ?_
  · rw [bucketStart_zero]
    exact hfirst
  · rw [bucketStart_buckets hpos]
    exact hlast

end Buckets

/-! ## The values -/

section Values

variable {values : List ℚ} {maxPoints : Nat}

/-- A bucket's mean is the mean of its slice of the series. -/
theorem bucketMean_eq {start stop : Nat} (hlt : start < stop) (hle : stop ≤ values.length) :
    bucketMean values start stop =
      ((values.drop start).take (stop - start)).sum /
        ((values.drop start).take (stop - start)).length := by
  have hvalues : (List.range' start (stop - start)).map (fun j => values.getD j 0) =
      (values.drop start).take (stop - start) := by
    apply List.ext_getElem
    · simp
      omega
    · intro k hk hk'
      simp at hk hk'
      have hj : start + k < values.length := by omega
      simp [hj]
  have hsum (js : List Nat) (from' : ℚ) : js.foldl (fun sum j => sum + values.getD j 0) from' =
      from' + (js.map fun j => values.getD j 0).sum := by
    induction js generalizing from' with
    | nil => simp
    | cons j js ih => rw [List.foldl_cons, ih, List.map_cons, List.sum_cons, add_assoc]
  have hlength : ((values.drop start).take (stop - start)).length = stop - start := by
    rw [List.length_take, List.length_drop]
    omega
  rw [bucketMean, hsum, hvalues, zero_add, hlength, Nat.cast_sub (Nat.le_of_lt hlt)]

/-- A bucket's mean lies between the bounds of the series. -/
theorem bucketMean_between {lo hi : ℚ} (h : ∀ x ∈ values, lo ≤ x ∧ x ≤ hi) {start stop : Nat}
    (hlt : start < stop) (hle : stop ≤ values.length) :
    lo ≤ bucketMean values start stop ∧ bucketMean values start stop ≤ hi := by
  rw [bucketMean_eq hlt hle]
  refine Slices.mean_between ?_ fun x hx => h x (List.mem_of_mem_drop (List.mem_of_mem_take hx))
  rw [← List.length_pos_iff, List.length_take, List.length_drop]
  omega

theorem downsampleSeries_of_lt (h : maxPoints < values.length) :
    downsampleSeries values maxPoints = values.getD 0 0 ::
      (List.range (maxPoints - 2)).map (fun i => bucketMean values
        (bucketStart (values.length - 2) (maxPoints - 2) i)
        (bucketEnd (values.length - 2) (maxPoints - 2) i)) ++
      [values.getD (values.length - 1) 0] := by
  rw [downsampleSeries, if_neg (Nat.not_le.mpr h)]

end Values

/-- A series longer than the points asked for is drawn by its ends and by the means of
slices of all that is between them. -/
theorem downsampleSeries_partitions (values : List ℚ) (maxPoints : Nat) (hpoints : 3 ≤ maxPoints)
    (hlonger : maxPoints < values.length) :
    (∀ i < maxPoints - 2,
      bucketStart (values.length - 2) (maxPoints - 2) i <
        bucketEnd (values.length - 2) (maxPoints - 2) i) ∧
    (∀ i, i + 1 < maxPoints - 2 →
      bucketEnd (values.length - 2) (maxPoints - 2) i =
        bucketStart (values.length - 2) (maxPoints - 2) (i + 1)) ∧
    (∀ i < maxPoints - 2, ∀ j, InBucket (values.length - 2) (maxPoints - 2) i j →
      1 ≤ j ∧ j < values.length - 1) ∧
    (∀ j, 1 ≤ j → j < values.length - 1 →
      ∃! i, i < maxPoints - 2 ∧ InBucket (values.length - 2) (maxPoints - 2) i j) ∧
    (downsampleSeries values maxPoints).length = maxPoints ∧
    (downsampleSeries values maxPoints).head? = values.head? ∧
    (downsampleSeries values maxPoints).getLast? = values.getLast? ∧
    ∀ lo hi, (∀ x ∈ values, lo ≤ x ∧ x ≤ hi) →
      ∀ x ∈ downsampleSeries values maxPoints, lo ≤ x ∧ x ≤ hi := by
  have hpos : 0 < maxPoints - 2 := by omega
  have hle : maxPoints - 2 ≤ values.length - 2 := by omega
  have hgetD {j : Nat} (hj : j < values.length) : values[j]? = some (values.getD j 0) := by
    rw [List.getD_eq_getElem?_getD, List.getElem?_eq_getElem hj]
    rfl
  have hfirst : values.head? = some (values.getD 0 0) := by
    rw [List.head?_eq_getElem?, hgetD (by omega)]
  have hlast : values.getLast? = some (values.getD (values.length - 1) 0) := by
    rw [List.getLast?_eq_getElem?, hgetD (by omega)]
  refine ⟨fun i _ => bucketStart_lt_bucketEnd hpos hle i,
    fun i _ => bucketEnd_eq_bucketStart_succ _ _ i, ?_, ?_, ?_, ?_, ?_, ?_⟩
  · intro i hi j hj
    have hstart := one_le_bucketStart (values.length - 2) (maxPoints - 2) i
    have hend := bucketEnd_le hpos hle hi
    obtain ⟨hlower, hupper⟩ := hj
    omega
  · intro j hlower hupper
    exact existsUnique_inBucket hpos hle hlower (by omega)
  · rw [downsampleSeries_of_lt hlonger]
    simp
    omega
  · rw [downsampleSeries_of_lt hlonger, hfirst]
    rfl
  · rw [downsampleSeries_of_lt hlonger, hlast, List.getLast?_append]
    rfl
  · intro lo hi hbounds x hx
    rw [downsampleSeries_of_lt hlonger, List.cons_append, List.mem_cons, List.mem_append,
      List.mem_singleton, List.mem_map] at hx
    obtain rfl | ⟨i, hi', rfl⟩ | rfl := hx
    · exact hbounds _ (List.mem_of_mem_head? (Option.mem_def.mpr hfirst))
    · have hend := bucketEnd_le hpos hle (List.mem_range.mp hi')
      exact bucketMean_between hbounds (bucketStart_lt_bucketEnd hpos hle i) (by omega)
    · exact hbounds _ (List.mem_of_mem_getLast? (Option.mem_def.mpr hlast))

/-- Five values drawn as three points. -/
theorem downsampleSeries_partitions_three :
    3 ≤ 3 ∧ 3 < [1, 2, 4, 6, 3].length ∧ downsampleSeries [1, 2, 4, 6, 3] 3 = [1, 4, 3] ∧
      (downsampleSeries [1, 2, 4, 6, 3] 3).length = 3 :=
  ⟨by decide, by decide, by decide +kernel,
    (downsampleSeries_partitions [1, 2, 4, 6, 3] 3 (by decide) (by decide)).2.2.2.2.1⟩

end Tckr.MarketWatch
