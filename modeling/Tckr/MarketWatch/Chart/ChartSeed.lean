import Mathlib.Tactic.Linarith
import Tckr.MarketWatch.Chart.RingBuffer

/-!
# Seeding a chart

A fresh chart is filled with the history of the session and with the live price behind it,
where that is newer. A chart of one point is no line, so a lone point is doubled. The code
asks for a lone point of the history only where there is no live price: beside one that is
not newer it stays alone.
-/

namespace Tckr.MarketWatch

structure ChartHistoryPoint where
  t : ℚ
  p : DecimalString
  deriving DecidableEq

/-- `Number(price)`. -/
def toPlotValue (price : DecimalString) : ℚ := price.value

/-- A lone price and the same price one second earlier. -/
def seedFlatPoint (b : RingBuffer) (timeMs price : ℚ) : RingBuffer :=
  (b.push (timeMs - 1000) price).push timeMs price

/-- The points of the history are pushed one by one. -/
def pushHistory (b : RingBuffer) (history : List ChartHistoryPoint) : RingBuffer :=
  history.foldl (fun b point => b.push point.t (toPlotValue point.p)) b

def seedBuffer (b : RingBuffer) (history : Option (List ChartHistoryPoint))
    (seed : Option ChartHistoryPoint) : RingBuffer :=
  let b := pushHistory b (history.getD [])
  match seed with
  | some seed =>
    if b.count = 0 then seedFlatPoint b seed.t (toPlotValue seed.p)
    else if b.times.getD (b.count - 1) 0 < seed.t then b.push seed.t (toPlotValue seed.p)
    else b
  | none =>
    if b.count = 1 then
      let onlyT := b.times.getD 0 0
      let onlyV := b.values.getD 0 0
      seedFlatPoint b.clear onlyT onlyV
    else b

/-! ## What a seeded chart shows -/

/-- A point as it is plotted. -/
def ChartHistoryPoint.plotted (point : ChartHistoryPoint) : ℚ × ℚ := (point.t, toPlotValue point.p)

/-- The live price, where it is newer than the history's last point. -/
def newerSeed (history : List ChartHistoryPoint) (seed : Option ChartHistoryPoint) :
    Option ChartHistoryPoint :=
  seed.filter fun seed => history.getLast?.all fun last => last.t < seed.t

/-- The history, and behind it the live price where it is newer. -/
def line (history : List ChartHistoryPoint) (seed : Option ChartHistoryPoint) : List (ℚ × ℚ) :=
  (history ++ (newerSeed history seed).toList).map ChartHistoryPoint.plotted

/-- A lone point stands for a flat line of one second. -/
def doubled : List (ℚ × ℚ) → List (ℚ × ℚ)
  | [point] => [(point.1 - 1000, point.2), point]
  | points => points

/-- A seeded chart is in order, shows what it was given, and is a line unless it was given
nothing. -/
structure Drawable (b : RingBuffer) (capacity : Nat) (history : List ChartHistoryPoint)
    (seed : Option ChartHistoryPoint) : Prop where
  ordered : (b.contents.map Prod.fst).Pairwise (· ≤ ·)
  contents : b.contents = (doubled (line history seed)).rtake capacity
  drawable : history = [] ∧ seed = none ∧ b.count = 0 ∨ 2 ≤ b.count

/-- The history is one point, and the live price beside it is not newer. -/
def LoneBesideSeed (history : List ChartHistoryPoint) (seed : Option ChartHistoryPoint) : Prop :=
  ∃ only live, history = [only] ∧ seed = some live ∧ live.t ≤ only.t

/-! ## The buffer's last point -/

section Seed

variable {b : RingBuffer} {history : List ChartHistoryPoint} {seed : Option ChartHistoryPoint}

theorem pushHistory_spec (hempty : b.count = 0) (history : List ChartHistoryPoint) :
    (pushHistory b history).contents = (history.map ChartHistoryPoint.plotted).rtake b.capacity ∧
      (pushHistory b history).capacity = b.capacity := by
  have hnil : b.contents = [] := by
    rw [← List.length_eq_zero_iff, b.length_contents, hempty]
  have hfold : pushHistory b history = (history.map ChartHistoryPoint.plotted).foldl
      (fun b point => b.push point.1 point.2) b := by
    rw [List.foldl_map]
    rfl
  have hspec := b.contents_foldl_push (history.map ChartHistoryPoint.plotted)
  rw [hnil, List.nil_append, ← hfold] at hspec
  exact hspec

/-- The last time written is that of the last point. -/
theorem times_getD_last {point : ℚ × ℚ} (hlast : b.contents.getLast? = some point) :
    b.times.getD (b.count - 1) 0 = point.1 := by
  rw [List.getLast?_eq_getElem?, b.length_contents, RingBuffer.contents] at hlast
  obtain ⟨hlt, heq⟩ := List.getElem?_eq_some_iff.mp hlast
  rw [List.getElem_take, List.getElem_zip] at heq
  have htime : b.count - 1 < b.times.length := by
    rw [List.length_take, List.length_zip] at hlt
    omega
  rw [List.getD_eq_getElem?_getD, List.getElem?_eq_getElem htime, ← heq]
  rfl

theorem getLast?_rtake {xs : List (ℚ × ℚ)} {n : Nat} (hn : 0 < n) :
    (xs.rtake n).getLast? = xs.getLast? := by
  rw [List.rtake, List.getLast?_drop]
  split
  · next hle =>
    have hnil : xs = [] := List.length_eq_zero_iff.mp (by omega)
    rw [hnil]
    rfl
  · rfl

theorem contents_seedFlatPoint (hempty : b.contents = []) (hcapacity : 2 ≤ b.capacity)
    (timeMs price : ℚ) :
    (seedFlatPoint b timeMs price).contents = [(timeMs - 1000, price), (timeMs, price)] := by
  rw [seedFlatPoint, RingBuffer.contents_push, RingBuffer.capacity_push, RingBuffer.contents_push,
    hempty, RingBuffer.rtake_rtake_append, RingBuffer.rtake_of_length_le]
  · rfl
  · exact hcapacity

/-- The only point is written in front. -/
theorem getD_zero_of_contents {point : ℚ × ℚ} (hcontents : b.contents = [point]) :
    b.times.getD 0 0 = point.1 ∧ b.values.getD 0 0 = point.2 := by
  have hfirst : b.contents[0]? = some point := by
    rw [hcontents]
    rfl
  obtain ⟨hlt, heq⟩ := List.getElem?_eq_some_iff.mp hfirst
  simp only [RingBuffer.contents, List.getElem_take, List.getElem_zip] at heq
  simp only [RingBuffer.contents, List.length_take, List.length_zip] at hlt
  have htime : 0 < b.times.length := by omega
  have hvalue : 0 < b.values.length := by omega
  rw [List.getD_eq_getElem?_getD, List.getD_eq_getElem?_getD, List.getElem?_eq_getElem htime,
    List.getElem?_eq_getElem hvalue, ← heq]
  exact ⟨rfl, rfl⟩

/-! ## The cases of the code -/

theorem count_pushHistory (hempty : b.count = 0) (history : List ChartHistoryPoint) :
    (pushHistory b history).count = min b.capacity history.length := by
  rw [← RingBuffer.length_contents, (pushHistory_spec hempty history).1, RingBuffer.length_rtake,
    List.length_map]

/-- A history alone, unless it is one point. -/
theorem contents_history (hempty : b.count = 0) (hcapacity : 2 ≤ b.capacity)
    (hlength : history.length ≠ 1) : (seedBuffer b (some history) none).contents =
      (history.map ChartHistoryPoint.plotted).rtake b.capacity := by
  have hcount := count_pushHistory hempty history
  rw [seedBuffer]
  dsimp only [Option.getD_some]
  rw [if_neg (by omega)]
  exact (pushHistory_spec hempty history).1

/-- One point of the history and nothing live. -/
theorem contents_lone_history (hempty : b.count = 0) (hcapacity : 2 ≤ b.capacity)
    (only : ChartHistoryPoint) : (seedBuffer b (some [only]) none).contents =
      doubled [only.plotted] := by
  have hcount := count_pushHistory hempty [only]
  obtain ⟨hcontents, hkept⟩ := pushHistory_spec hempty [only]
  rw [RingBuffer.rtake_of_length_le (by simp; omega)] at hcontents
  obtain ⟨htime, hvalue⟩ := getD_zero_of_contents hcontents
  rw [List.length_singleton, Nat.min_eq_right (by omega)] at hcount
  rw [seedBuffer]
  dsimp only [Option.getD_some]
  rw [if_pos hcount, htime, hvalue, contents_seedFlatPoint (by simp) (by simp; omega)]
  rfl

/-- A live price and no history. -/
theorem contents_lone_seed (hempty : b.count = 0) (hcapacity : 2 ≤ b.capacity)
    (live : ChartHistoryPoint) : (seedBuffer b (some []) (some live)).contents =
      doubled [live.plotted] := by
  have hnil : b.contents = [] := by
    rw [← List.length_eq_zero_iff, b.length_contents, hempty]
  have hpushed : (pushHistory b []).count = 0 := hempty
  rw [seedBuffer]
  dsimp only [Option.getD_some]
  rw [if_pos hpushed]
  exact contents_seedFlatPoint hnil hcapacity live.t (toPlotValue live.p)

/-- A live price behind a history is pushed where it is newer, and doubles nothing. -/
theorem contents_history_seed (hempty : b.count = 0) (hcapacity : 2 ≤ b.capacity)
    (hhistory : history ≠ []) (live : ChartHistoryPoint) :
    (seedBuffer b (some history) (some live)).contents =
      (line history (some live)).rtake b.capacity := by
  have hcount := count_pushHistory hempty history
  have hpos := List.length_pos_iff.mpr hhistory
  obtain ⟨hcontents, hkept⟩ := pushHistory_spec hempty history
  obtain ⟨last, hlast⟩ := Option.ne_none_iff_exists'.mp (mt List.getLast?_eq_none_iff.mp hhistory)
  have htime : (pushHistory b history).times.getD ((pushHistory b history).count - 1) 0 =
      last.t := by
    refine (times_getD_last ?_ : _ = last.plotted.1)
    rw [hcontents, getLast?_rtake (by omega), List.getLast?_map, hlast]
    rfl
  rw [seedBuffer, line, newerSeed, hlast]
  dsimp only [Option.getD_some]
  rw [if_neg (by omega)]
  by_cases hnewer : last.t < live.t
  · have hpushed : (some live).filter (fun seed => (some last).all fun last => last.t < seed.t) =
        some live := by
      simp [Option.filter, hnewer]
    rw [if_pos (htime.symm ▸ hnewer), hpushed, RingBuffer.contents_push, hkept, hcontents,
      RingBuffer.rtake_rtake_append, List.map_append]
    rfl
  · have hold : (some live).filter (fun seed => (some last).all fun last => last.t < seed.t) =
        none := by
      simp [Option.filter, hnewer]
    rw [if_neg (htime.symm ▸ hnewer), hold, hcontents]
    simp

/-! ## Every seed -/

theorem doubled_of_length_ne_one {points : List (ℚ × ℚ)} (h : points.length ≠ 1) :
    doubled points = points := by
  unfold doubled
  split
  · next point => exact absurd rfl h
  · rfl

theorem line_none (history : List ChartHistoryPoint) :
    line history none = history.map ChartHistoryPoint.plotted := by
  simp [line, newerSeed]

/-- Apart from the one case the buffer shows what it was given. -/
theorem contents_seedBuffer (hempty : b.count = 0) (hcapacity : 2 ≤ b.capacity)
    (hlone : ¬LoneBesideSeed history seed) : (seedBuffer b (some history) seed).contents =
      (doubled (line history seed)).rtake b.capacity := by
  cases seed with
  | none =>
    rw [line_none]
    by_cases hlength : history.length = 1
    · obtain ⟨only, rfl⟩ := List.length_eq_one_iff.mp hlength
      rw [contents_lone_history hempty hcapacity, RingBuffer.rtake_of_length_le]
      · rfl
      · exact hcapacity
    · rw [contents_history hempty hcapacity hlength, doubled_of_length_ne_one]
      rw [List.length_map]
      exact hlength
  | some live =>
    by_cases hhistory : history = []
    · subst hhistory
      rw [contents_lone_seed hempty hcapacity, RingBuffer.rtake_of_length_le]
      · rfl
      · exact hcapacity
    · rw [contents_history_seed hempty hcapacity hhistory, doubled_of_length_ne_one]
      intro hlength
      rw [line, List.length_map, List.length_append] at hlength
      have hpos := List.length_pos_iff.mpr hhistory
      obtain ⟨only, rfl⟩ := List.length_eq_one_iff.mp (by omega : history.length = 1)
      have hnewer : only.t < live.t := by
        by_contra hle
        exact hlone ⟨only, live, rfl, rfl, not_lt.mp hle⟩
      simp [newerSeed, Option.filter, hnewer] at hlength

/-- In the one case the point stays alone. -/
theorem count_loneBesideSeed (hempty : b.count = 0) (hcapacity : 2 ≤ b.capacity)
    (hlone : LoneBesideSeed history seed) : (seedBuffer b (some history) seed).count = 1 := by
  obtain ⟨only, live, rfl, rfl, hle⟩ := hlone
  have hold : newerSeed [only] (some live) = none := by
    simp [newerSeed, Option.filter, hle]
  rw [← RingBuffer.length_contents, contents_history_seed hempty hcapacity (by simp), line, hold,
    RingBuffer.length_rtake]
  simp
  omega

/-- No point of an ordered history is newer than its last. -/
theorem le_last {last point : ChartHistoryPoint}
    (hordered : (history.map ChartHistoryPoint.t).Pairwise (· ≤ ·))
    (hlast : history.getLast? = some last) (hpoint : point ∈ history) : point.t ≤ last.t := by
  have hsplit := List.dropLast_append_getLast? last hlast
  rw [← hsplit, List.map_append, List.pairwise_append] at hordered
  rw [← hsplit, List.mem_append, List.mem_singleton] at hpoint
  obtain hearlier | rfl := hpoint
  · exact hordered.2.2 point.t (List.mem_map_of_mem hearlier) last.t (by simp)
  · exact le_refl point.t

/-- What is behind the history is newer than all of it. -/
theorem ordered_line (hordered : (history.map ChartHistoryPoint.t).Pairwise (· ≤ ·)) :
    ((line history seed).map Prod.fst).Pairwise (· ≤ ·) := by
  have htimes : (line history seed).map Prod.fst =
      history.map ChartHistoryPoint.t ++
        (newerSeed history seed).toList.map ChartHistoryPoint.t := by
    rw [line, List.map_map, List.map_append]
    rfl
  rw [htimes, List.pairwise_append]
  refine ⟨hordered, ?_, ?_⟩
  · cases newerSeed history seed with
    | none => exact List.Pairwise.nil
    | some live => exact List.pairwise_singleton _ _
  · intro t ht t' ht'
    obtain ⟨point, hpoint, rfl⟩ := List.mem_map.mp ht
    obtain ⟨live, hlive, rfl⟩ := List.mem_map.mp ht'
    obtain ⟨-, hnewer⟩ := Option.filter_eq_some_iff.mp (Option.mem_toList.mp hlive)
    obtain ⟨last, hlast⟩ := Option.ne_none_iff_exists'.mp
      (mt List.getLast?_eq_none_iff.mp (List.ne_nil_of_mem hpoint))
    rw [hlast] at hnewer
    exact (le_last hordered hlast hpoint).trans (le_of_lt (of_decide_eq_true hnewer))

theorem ordered_doubled {points : List (ℚ × ℚ)}
    (hordered : (points.map Prod.fst).Pairwise (· ≤ ·)) :
    ((doubled points).map Prod.fst).Pairwise (· ≤ ·) := by
  unfold doubled
  split
  · next point => simp
  · exact hordered

theorem two_le_length_doubled {points : List (ℚ × ℚ)} (h : points ≠ []) :
    2 ≤ (doubled points).length := by
  have hpos := List.length_pos_iff.mpr h
  by_cases hlength : points.length = 1
  · obtain ⟨point, rfl⟩ := List.length_eq_one_iff.mp hlength
    exact Nat.le_refl 2
  · rw [doubled_of_length_ne_one hlength]
    omega

theorem line_eq_nil_iff : line history seed = [] ↔ history = [] ∧ seed = none := by
  rw [line, List.map_eq_nil_iff, List.append_eq_nil_iff]
  refine and_congr_right fun hhistory => ?_
  subst hhistory
  cases seed with
  | none => simp [newerSeed]
  | some live => simp [newerSeed, Option.filter]

end Seed

/-- A fresh chart is in order, shows what it was given and is a line or empty, unless the
history is one point and the live price is not newer. -/
theorem seedBuffer_drawable_iff (b : RingBuffer) (hempty : b.count = 0)
    (hcapacity : 2 ≤ b.capacity) (history : Option (List ChartHistoryPoint))
    (hordered : ((history.getD []).map ChartHistoryPoint.t).Pairwise (· ≤ ·))
    (seed : Option ChartHistoryPoint) :
    Drawable (seedBuffer b history seed) b.capacity (history.getD []) seed ↔
      ¬LoneBesideSeed (history.getD []) seed := by
  have hgiven : seedBuffer b history seed = seedBuffer b (some (history.getD [])) seed := rfl
  rw [hgiven]
  constructor
  · rintro ⟨-, -, hdrawable⟩ hlone
    rw [count_loneBesideSeed hempty hcapacity hlone] at hdrawable
    omega
  · intro hlone
    have hcontents := contents_seedBuffer hempty hcapacity hlone
    refine ⟨?_, hcontents, ?_⟩
    · rw [hcontents]
      exact (ordered_doubled (ordered_line hordered)).sublist
        ((List.drop_sublist _ _).map Prod.fst)
    · rw [← RingBuffer.length_contents, hcontents, RingBuffer.length_rtake]
      by_cases hline : line (history.getD []) seed = []
      · obtain ⟨hhistory, hseed⟩ := line_eq_nil_iff.mp hline
        rw [hline]
        exact Or.inl ⟨hhistory, hseed, Nat.min_zero b.capacity⟩
      · have hlength := two_le_length_doubled hline
        exact Or.inr (by omega)

/-- A price of one. -/
def onePound : DecimalString := ⟨['1'], rfl⟩

/-- The smallest buffer that can hold a line, new. -/
def smallestBuffer : RingBuffer where
  capacity := 2
  times := [0, 0]
  values := [0, 0]
  count := 0
  times_length := rfl
  values_length := rfl
  count_le := Nat.zero_le 2
  capacity_pos := Nat.zero_lt_succ 1

/-- One point of the history and a live price a second later are a line. -/
theorem seedBuffer_drawable_later :
    smallestBuffer.count = 0 ∧ 2 ≤ smallestBuffer.capacity ∧
      Drawable (seedBuffer smallestBuffer (some [⟨0, onePound⟩]) (some ⟨1000, onePound⟩)) 2
        [⟨0, onePound⟩] (some ⟨1000, onePound⟩) := by
  refine ⟨rfl, Nat.le_refl 2, (seedBuffer_drawable_iff smallestBuffer rfl (Nat.le_refl 2)
    (some [⟨0, onePound⟩]) (List.pairwise_singleton _ _) _).mpr ?_⟩
  rintro ⟨only, live, honly, hlive, hle⟩
  obtain rfl := (List.cons.inj honly).1
  obtain rfl := Option.some.inj hlive
  exact absurd hle (by decide)

/-- One point of the history and a live price of the same instant are none. -/
theorem not_seedBuffer_drawable :
    ¬∀ (b : RingBuffer), b.count = 0 → 2 ≤ b.capacity →
      ∀ history : Option (List ChartHistoryPoint),
        ((history.getD []).map ChartHistoryPoint.t).Pairwise (· ≤ ·) →
        ∀ seed : Option ChartHistoryPoint,
          Drawable (seedBuffer b history seed) b.capacity (history.getD []) seed := by
  intro h
  obtain ⟨-, -, hdrawable⟩ := h smallestBuffer rfl (Nat.le_refl 2) (some [⟨0, onePound⟩])
    (List.pairwise_singleton _ _) (some ⟨0, onePound⟩)
  have hcount : (seedBuffer smallestBuffer (some [⟨0, onePound⟩]) (some ⟨0, onePound⟩)).count = 1 :=
    count_loneBesideSeed rfl (Nat.le_refl 2) ⟨_, _, rfl, rfl, le_refl 0⟩
  rw [hcount] at hdrawable
  omega

end Tckr.MarketWatch
