import Mathlib.Algebra.Order.Floor.Ring
import Mathlib.Tactic.Linarith
import Tckr.Core.Windows
import Tckr.Exchange.Session.MarketSessionClock

/-!
# The compressed day

The schedules the validator accepts, and what a compressed day makes of them: every
cycle is closed at first and then runs through the session span. Decimals of the
configuration are read exactly. A phase outside the enumeration cannot be stated.
-/

namespace Tckr.Session

/-! ## Validation of the schedule -/

/-- Why a schedule is refused. -/
inductive PhaseFailure where
  /-- A schedule that is always closed, in a mode that consults it. -/
  | empty (mode : MarketSessionMode)
  | closedWindow (index : Nat)
  | endNotAfterStart (index : Nat) (window : MarketPhaseWindow)
  | outsideDay (index : Nat) (window : MarketPhaseWindow)
  | rateMultiplier (index : Nat) (window : MarketPhaseWindow)
  /-- A window that starts before the one before it ends. -/
  | overlap (window previous : MarketPhaseWindow)

/-- The ticks of a day. -/
def dayTicks : Int := 864000000000

/-- What is wrong with one window. -/
def windowFailures (index : Nat) (w : MarketPhaseWindow) : List PhaseFailure :=
  (if w.phase = .closed then [.closedWindow index] else []) ++
  (if w.finish ≤ w.start then [.endNotAfterStart index w] else []) ++
  (if w.start < 0 ∨ dayTicks < w.finish then [.outsideDay index w] else []) ++
  (if w.rateMultiplier ≤ 0 then [.rateMultiplier index w] else [])

/-- The windows that overlap the one before them. -/
def overlapFailures : List MarketPhaseWindow → List PhaseFailure
  | previous :: w :: rest =>
    (if w.start < previous.finish then [.overlap w previous] else []) ++ overlapFailures (w :: rest)
  | _ => []

/-- The failures of every window, from an index on. -/
def windowsFailures (index : Nat) : List MarketPhaseWindow → List PhaseFailure
  | [] => []
  | w :: rest => windowFailures index w ++ windowsFailures (index + 1) rest

/-- Every window is a real interval within a day, and none overlap. -/
def MarketSessionOptions.validatePhases (o : MarketSessionOptions) : List PhaseFailure :=
  if o.phases.isEmpty then if o.mode ≠ .continuous then [.empty o.mode] else []
  else windowsFailures 0 o.phases ++ overlapFailures o.windows

/-- What the validator accepts of a compressed day. -/
structure MarketSessionOptions.Accepted (o : MarketSessionOptions) : Prop where
  duration_mem : 1 ≤ o.compressedDurationMinutes ∧ o.compressedDurationMinutes ≤ 1440
  closedFraction_mem : 0 ≤ o.compressedClosedFraction ∧ o.compressedClosedFraction ≤ 9 / 10
  phases_valid : o.validatePhases = []

theorem windowFailures_eq_nil {index : Nat} {w : MarketPhaseWindow}
    (h : windowFailures index w = []) : w.start < w.finish := by
  simp only [windowFailures, List.append_eq_nil_iff, ite_eq_right_iff, List.cons_ne_nil,
    imp_false] at h
  exact not_le.mp h.1.1.2

theorem windowsFailures_eq_nil {index : Nat} {l : List MarketPhaseWindow}
    (h : windowsFailures index l = []) : ∀ w ∈ l, w.start < w.finish := by
  induction l generalizing index with
  | nil => simp
  | cons w l ih =>
    rw [windowsFailures, List.append_eq_nil_iff] at h
    exact List.forall_mem_cons.mpr ⟨windowFailures_eq_nil h.1, ih h.2⟩

theorem overlapFailures_eq_nil {l : List MarketPhaseWindow} (h : overlapFailures l = []) :
    l.IsChain fun w w' => w.finish ≤ w'.start := by
  induction l with
  | nil => exact .nil
  | cons w l ih =>
    cases l with
    | nil => exact .singleton w
    | cons w' l =>
      rw [overlapFailures, List.append_eq_nil_iff, ite_eq_right_iff] at h
      exact List.isChain_cons_cons.mpr ⟨not_lt.mp fun hlt => List.cons_ne_nil _ _ (h.1 hlt), ih h.2⟩

/-! ## The windows of an accepted schedule -/

namespace MarketSessionOptions

variable {o : MarketSessionOptions}

theorem windows_perm (o : MarketSessionOptions) : o.windows.Perm o.phases :=
  List.perm_insertionSort _ _

theorem mem_windows {w : MarketPhaseWindow} : w ∈ o.windows ↔ w ∈ o.phases :=
  (windows_perm o).mem_iff

theorem windows_pairwise (o : MarketSessionOptions) :
    o.windows.Pairwise fun w w' => w.start ≤ w'.start := by
  have htotal : Std.Total fun w w' : MarketPhaseWindow => w.start ≤ w'.start :=
    ⟨fun w w' => le_total w.start w'.start⟩
  have htrans : IsTrans MarketPhaseWindow fun w w' => w.start ≤ w'.start :=
    ⟨fun _ _ _ h h' => le_trans h h'⟩
  exact List.pairwise_insertionSort _ o.phases

theorem Accepted.phases_ne_nil (h : o.Accepted) (hmode : o.mode = .compressedDay) :
    o.phases ≠ [] := by
  intro hnil
  have hvalid := h.phases_valid
  simp [validatePhases, hnil, hmode] at hvalid

/-- Sorted, the windows stand apart. -/
theorem Accepted.apart (h : o.Accepted) :
    Windows.Apart MarketPhaseWindow.start MarketPhaseWindow.finish o.windows := by
  have hvalid := h.phases_valid
  rw [validatePhases] at hvalid
  split_ifs at hvalid with hempty
  · rw [List.isEmpty_iff] at hempty
    have hnil : o.windows = [] := by rw [← List.perm_nil, ← hempty]; exact windows_perm o
    rw [hnil]
    exact ⟨by simp, .nil⟩
  · rw [List.append_eq_nil_iff] at hvalid
    refine ⟨fun w hw => ?_, overlapFailures_eq_nil hvalid.2⟩
    exact windowsFailures_eq_nil hvalid.1 w (mem_windows.mp hw)

/-- The same schedule in another order has the same windows. -/
theorem Accepted.windows_eq (h : o.Accepted) {phases : List MarketPhaseWindow}
    (hperm : phases.Perm o.phases) : windows { o with phases } = o.windows := by
  refine h.apart.eq_of_perm ?_ (windows_pairwise _)
  exact (windows_perm _).trans (hperm.trans (windows_perm o).symm)

/-- The window in force at a time of day, if any, and only that one. -/
def InForce (phases : List MarketPhaseWindow) (timeOfDay : Int) (r : MarketPhase × ℚ) : Prop :=
  (∃ w ∈ phases, w.start ≤ timeOfDay ∧ timeOfDay < w.finish ∧
    (∀ w' ∈ phases, w'.start ≤ timeOfDay → timeOfDay < w'.finish → w' = w) ∧
    r = (w.phase, w.rateMultiplier)) ∨
  (∀ w ∈ phases, ¬ (w.start ≤ timeOfDay ∧ timeOfDay < w.finish)) ∧ r = (.closed, 0)

/-- The scan finds the window in force. -/
theorem Accepted.inForce_lookUp (h : o.Accepted) (timeOfDay : Int) :
    InForce o.phases timeOfDay (o.lookUp timeOfDay) := by
  unfold lookUp
  cases hfind : o.windows.find? fun w => w.start ≤ timeOfDay && timeOfDay < w.finish with
  | some w =>
    have hmem := mem_windows.mp (List.mem_of_find?_eq_some hfind)
    have hin : w.start ≤ timeOfDay ∧ timeOfDay < w.finish := by simpa using List.find?_some hfind
    refine .inl ⟨w, hmem, hin.1, hin.2, fun w' hmem' hstart hfinish => ?_, rfl⟩
    exact h.apart.eq_of_contains (mem_windows.mpr hmem') (mem_windows.mpr hmem)
      ⟨hstart, hfinish⟩ hin
  | none =>
    refine .inr ⟨fun w hw hin => ?_, rfl⟩
    have hout := List.find?_eq_none.mp hfind w (mem_windows.mpr hw)
    simp [hin] at hout

/-! ## The session span -/

theorem Accepted.windows_ne_nil (h : o.Accepted) (hmode : o.mode = .compressedDay) :
    o.windows ≠ [] := by
  intro hnil
  refine h.phases_ne_nil hmode ?_
  rw [← List.nil_perm, ← hnil]
  exact windows_perm o

/-- The session starts with the earliest window. -/
theorem Accepted.sessionStart_eq (h : o.Accepted) (hmode : o.mode = .compressedDay) :
    ∃ w ∈ o.phases, o.sessionStart = w.start ∧ ∀ w' ∈ o.phases, w.start ≤ w'.start := by
  have happart := h.apart
  unfold sessionStart
  cases hwindows : o.windows with
  | nil => exact absurd hwindows (h.windows_ne_nil hmode)
  | cons w rest =>
    rw [hwindows] at happart
    refine ⟨w, mem_windows.mp (by simp [hwindows]), rfl, fun w' hw' => happart.head_le ?_⟩
    rw [← hwindows]
    exact mem_windows.mpr hw'

/-- The session ends with a window. -/
theorem Accepted.sessionEnd_eq (h : o.Accepted) (hmode : o.mode = .compressedDay) :
    ∃ w ∈ o.phases, o.sessionStart + o.sessionSpan = w.finish ∧
      ∀ w' ∈ o.phases, w'.finish ≤ w.finish := by
  have hne : o.windows.map MarketPhaseWindow.finish ≠ [] := by
    rw [ne_eq, List.map_eq_nil_iff]
    exact h.windows_ne_nil hmode
  obtain ⟨latest, hlatest⟩ := Option.isSome_iff_exists.mp
    (List.isSome_max?_of_ne_nil hne)
  obtain ⟨w, hw, rfl⟩ := List.mem_map.mp (List.max?_mem hlatest)
  refine ⟨w, mem_windows.mp hw, ?_, fun w' hw' => ?_⟩
  · rw [sessionSpan, hlatest, Option.map_some, Option.getD_some]
    omega
  · exact (List.max?_le_iff hlatest).mp le_rfl w'.finish
      (List.mem_map_of_mem (mem_windows.mpr hw'))

theorem Accepted.sessionSpan_pos (h : o.Accepted) (hmode : o.mode = .compressedDay) :
    0 < o.sessionSpan := by
  obtain ⟨w, hw, hstart, -⟩ := h.sessionStart_eq hmode
  obtain ⟨w', -, hend, hlatest⟩ := h.sessionEnd_eq hmode
  have hreal : w.start < w.finish := h.apart.real w (mem_windows.mpr hw)
  have hle := hlatest w hw
  omega

/-! ## The cycle -/

theorem cycleTicks_pos (o : MarketSessionOptions) : 0 < o.cycleTicks := by
  unfold cycleTicks
  omega

theorem closedTicks_nonneg (o : MarketSessionOptions) : 0 ≤ o.closedTicks := by
  have hcycle : (0 : ℚ) ≤ o.cycleTicks := Int.cast_nonneg (cycleTicks_pos o).le
  exact Int.floor_nonneg.mpr (mul_nonneg hcycle (le_max_left _ _))

/-- Some of every cycle is left to the session. -/
theorem closedTicks_lt (o : MarketSessionOptions) : o.closedTicks < o.cycleTicks := by
  have hcycle : (0 : ℚ) < o.cycleTicks := Int.cast_pos.mpr (cycleTicks_pos o)
  have hfraction : max 0 (min o.compressedClosedFraction (9 / 10)) < 1 :=
    max_lt one_pos (lt_of_le_of_lt (min_le_right _ _) (by norm_num))
  exact Int.floor_lt.mpr (mul_lt_of_lt_one_right hcycle hfraction)

/-- The position is the truncated remainder, a cycle later where it is negative. -/
theorem emod_cycleTicks (o : MarketSessionOptions) (elapsed : Int) :
    elapsed % o.cycleTicks = if elapsed.tmod o.cycleTicks < 0
      then elapsed.tmod o.cycleTicks + o.cycleTicks else elapsed.tmod o.cycleTicks := by
  have hcycle := cycleTicks_pos o
  have hlt := Int.tmod_lt_of_pos elapsed hcycle
  have hgt := Int.lt_tmod_of_pos elapsed hcycle
  have hsplit := Int.tmod_add_mul_tdiv elapsed o.cycleTicks
  split_ifs with hneg
  · calc elapsed % o.cycleTicks
        = (elapsed.tmod o.cycleTicks + o.cycleTicks
            + o.cycleTicks * (elapsed.tdiv o.cycleTicks - 1)) % o.cycleTicks := by
          rw [mul_sub, mul_one]; congr 1; omega
      _ = (elapsed.tmod o.cycleTicks + o.cycleTicks) % o.cycleTicks :=
          Int.add_mul_emod_self_left _ _ _
      _ = elapsed.tmod o.cycleTicks + o.cycleTicks := Int.emod_eq_of_lt (by omega) (by omega)
  · calc elapsed % o.cycleTicks
        = (elapsed.tmod o.cycleTicks + o.cycleTicks * elapsed.tdiv o.cycleTicks)
            % o.cycleTicks := by rw [hsplit]
      _ = elapsed.tmod o.cycleTicks % o.cycleTicks := Int.add_mul_emod_self_left _ _ _
      _ = elapsed.tmod o.cycleTicks := Int.emod_eq_of_lt (by omega) hlt

/-- The time of day at a position of the cycle. -/
def timeAt (o : MarketSessionOptions) (position : Int) : Int :=
  if position < o.closedTicks then o.sessionStart - 1
  else o.sessionStart +
    ⌊((position - o.closedTicks) / (o.cycleTicks - o.closedTicks) * o.sessionSpan : ℚ)⌋

/-- Every cycle, before the anchor as after it, maps its positions alike. -/
theorem compressedTimeOfDay_eq (o : MarketSessionOptions) (anchor n : Int) {position : Int}
    (hzero : 0 ≤ position) (hlt : position < o.cycleTicks) :
    o.compressedTimeOfDay anchor (anchor + n * o.cycleTicks + position) = o.timeAt position := by
  have helapsed : (anchor + n * o.cycleTicks + position - anchor) % o.cycleTicks = position := by
    calc (anchor + n * o.cycleTicks + position - anchor) % o.cycleTicks
        = (position + n * o.cycleTicks) % o.cycleTicks := by congr 1; ring
      _ = position % o.cycleTicks := Int.add_mul_emod_self_right _ _ _
      _ = position := Int.emod_eq_of_lt hzero hlt
  rw [compressedTimeOfDay, timeAt, helapsed]

theorem compressedTimeOfDay_add (o : MarketSessionOptions) (anchor now n : Int) :
    o.compressedTimeOfDay anchor (now + n * o.cycleTicks) = o.compressedTimeOfDay anchor now := by
  have helapsed : (now + n * o.cycleTicks - anchor) % o.cycleTicks =
      (now - anchor) % o.cycleTicks := by
    rw [add_sub_right_comm]
    exact Int.add_mul_emod_self_right _ _ _
  rw [compressedTimeOfDay, compressedTimeOfDay, helapsed]

/-- The closed segment maps before every window. -/
theorem Accepted.lookUp_timeAt_closed (h : o.Accepted) (hmode : o.mode = .compressedDay)
    {position : Int} (hclosed : position < o.closedTicks) :
    o.lookUp (o.timeAt position) = (.closed, 0) := by
  obtain ⟨w, -, hstart, hearliest⟩ := h.sessionStart_eq hmode
  rcases h.inForce_lookUp (o.timeAt position) with ⟨w', hmem, hle, -⟩ | ⟨-, hr⟩
  · have hbefore := hearliest w' hmem
    rw [timeAt, if_pos hclosed] at hle
    omega
  · exact hr

/-- The rest of the cycle maps into the session span. -/
theorem Accepted.timeAt_mem (h : o.Accepted) (hmode : o.mode = .compressedDay) {position : Int}
    (hopen : o.closedTicks ≤ position) (hlt : position < o.cycleTicks) :
    o.sessionStart ≤ o.timeAt position ∧
      o.timeAt position < o.sessionStart + o.sessionSpan := by
  have hspan : (0 : ℚ) < o.sessionSpan := Int.cast_pos.mpr (h.sessionSpan_pos hmode)
  have hposition : (0 : ℚ) ≤ position - o.closedTicks := by
    rw [sub_nonneg]; exact_mod_cast hopen
  have hroom : (0 : ℚ) < o.cycleTicks - o.closedTicks := by
    rw [sub_pos]; exact_mod_cast closedTicks_lt o
  have hthrough : ((position - o.closedTicks) / (o.cycleTicks - o.closedTicks) : ℚ) < 1 := by
    rw [div_lt_one hroom]
    exact sub_lt_sub_right (by exact_mod_cast hlt) _
  rw [timeAt, if_neg (not_lt.mpr hopen)]
  constructor
  · exact le_add_of_nonneg_right
      (Int.floor_nonneg.mpr (mul_nonneg (div_nonneg hposition hroom.le) hspan.le))
  · exact Int.add_lt_add_left (Int.floor_lt.mpr (mul_lt_of_lt_one_left hspan hthrough)) _

/-- Within a cycle the mapped time does not go back. -/
theorem Accepted.timeAt_mono (h : o.Accepted) (hmode : o.mode = .compressedDay)
    {position position' : Int} (hle : position ≤ position') (hlt : position' < o.cycleTicks) :
    o.timeAt position ≤ o.timeAt position' := by
  by_cases hopen : o.closedTicks ≤ position
  · have hspan : (0 : ℚ) < o.sessionSpan := Int.cast_pos.mpr (h.sessionSpan_pos hmode)
    have hroom : (0 : ℚ) < o.cycleTicks - o.closedTicks := by
      rw [sub_pos]; exact_mod_cast closedTicks_lt o
    have hcast : (position : ℚ) ≤ position' := Int.cast_le.mpr hle
    rw [timeAt, timeAt, if_neg (not_lt.mpr hopen), if_neg (not_lt.mpr (hopen.trans hle))]
    gcongr
  · by_cases hopen' : o.closedTicks ≤ position'
    · have hstart := (h.timeAt_mem hmode hopen' hlt).1
      rw [timeAt, if_pos (not_le.mp hopen)]
      omega
    · rw [timeAt, timeAt, if_pos (not_le.mp hopen), if_pos (not_le.mp hopen')]

/-- The same windows in the same cycle map every instant alike. -/
theorem compressedTimeOfDay_congr {o' : MarketSessionOptions}
    (hcycle : o'.cycleTicks = o.cycleTicks)
    (hclosed : o'.closedTicks = o.closedTicks) (hwindows : o'.windows = o.windows)
    (anchor now : Int) : o'.compressedTimeOfDay anchor now = o.compressedTimeOfDay anchor now := by
  have hstart : o'.sessionStart = o.sessionStart := by rw [sessionStart, sessionStart, hwindows]
  have hspan : o'.sessionSpan = o.sessionSpan := by
    rw [sessionSpan, sessionSpan, hwindows, hstart]
  rw [compressedTimeOfDay, compressedTimeOfDay, hcycle, hclosed, hstart, hspan]

/-- How a compressed day reads the clock, from an anchor: instants are a whole number of cycles
past it, and a position in a cycle. -/
structure CompressedMapping (o : MarketSessionOptions) (anchor : Int) : Prop where
  /-- The leading segment of every cycle is closed. -/
  closed : ∀ n position, 0 ≤ position → position < o.closedTicks →
    o.resolve anchor (anchor + n * o.cycleTicks + position) = (.closed, 0)
  /-- The rest reads the window in force at a time of day of the session. -/
  session : ∀ n position, o.closedTicks ≤ position → position < o.cycleTicks → ∃ timeOfDay,
    timeOfDay = o.compressedTimeOfDay anchor (anchor + n * o.cycleTicks + position) ∧
    (∃ w ∈ o.phases, w.start ≤ timeOfDay) ∧ (∃ w ∈ o.phases, timeOfDay < w.finish) ∧
    InForce o.phases timeOfDay (o.resolve anchor (anchor + n * o.cycleTicks + position))
  monotone : ∀ n position position', 0 ≤ position → position ≤ position' →
    position' < o.cycleTicks →
    o.compressedTimeOfDay anchor (anchor + n * o.cycleTicks + position) ≤
      o.compressedTimeOfDay anchor (anchor + n * o.cycleTicks + position')
  periodic : ∀ now n,
    o.compressedTimeOfDay anchor (now + n * o.cycleTicks) = o.compressedTimeOfDay anchor now
  /-- The configured order of the windows does not matter. -/
  order_irrelevant : ∀ phases : List MarketPhaseWindow, phases.Perm o.phases → ∀ now,
    compressedTimeOfDay { o with phases } anchor now = o.compressedTimeOfDay anchor now ∧
      resolve { o with phases } anchor now = o.resolve anchor now

/-- Every accepted schedule is mapped so, from every anchor. -/
theorem compressedMapping (h : o.Accepted) (hmode : o.mode = .compressedDay) (anchor : Int) :
    o.CompressedMapping anchor := by
  have hresolve (now : Int) :
      o.resolve anchor now = o.lookUp (o.compressedTimeOfDay anchor now) := by
    rw [resolve, hmode]
  have hnonneg := closedTicks_nonneg o
  have hroom := closedTicks_lt o
  refine ⟨?_, ?_, ?_, fun now n => compressedTimeOfDay_add o anchor now n, ?_⟩
  · intro n position hzero hclosed
    rw [hresolve, compressedTimeOfDay_eq o anchor n hzero (hclosed.trans hroom)]
    exact h.lookUp_timeAt_closed hmode hclosed
  · intro n position hopen hlt
    have htime := compressedTimeOfDay_eq o anchor n (hnonneg.trans hopen) hlt
    obtain ⟨hstart, hend⟩ := h.timeAt_mem hmode hopen hlt
    obtain ⟨w, hw, hearliest, -⟩ := h.sessionStart_eq hmode
    obtain ⟨w', hw', hlatest, -⟩ := h.sessionEnd_eq hmode
    refine ⟨_, rfl, ⟨w, hw, ?_⟩, ⟨w', hw', ?_⟩, ?_⟩
    · rwa [htime, ← hearliest]
    · rwa [htime, ← hlatest]
    · rw [hresolve]
      exact h.inForce_lookUp _
  · intro n position position' hzero hle hlt
    rw [compressedTimeOfDay_eq o anchor n hzero (by omega),
      compressedTimeOfDay_eq o anchor n (hzero.trans hle) hlt]
    exact h.timeAt_mono hmode hle hlt
  · intro phases hperm now
    have hwindows := h.windows_eq hperm
    have htime : compressedTimeOfDay { o with phases } anchor now =
        o.compressedTimeOfDay anchor now :=
      @compressedTimeOfDay_congr o { o with phases } rfl rfl hwindows anchor now
    have hsame : resolve { o with phases } anchor now =
        lookUp { o with phases } (compressedTimeOfDay { o with phases } anchor now) := by
      rw [resolve, hmode]
    refine ⟨htime, ?_⟩
    rw [hsame, hresolve, htime, lookUp, lookUp, hwindows]

/-- The default schedule, its last two windows exchanged. -/
def compressedDefault : MarketSessionOptions where
  mode := .compressedDay
  timeOfDay now := now % dayTicks
  phases :=
    [{ phase := .preOpen, start := 342000000000, finish := 360000000000, rateMultiplier := 1 / 10 },
     { phase := .openingAuction, start := 360000000000, finish := 363000000000,
       rateMultiplier := 3 },
     { phase := .continuousMorning, start := 363000000000, finish := 432000000000,
       rateMultiplier := 6 / 5 },
     { phase := .middayLull, start := 432000000000, finish := 486000000000,
       rateMultiplier := 3 / 5 },
     { phase := .closingAuction, start := 513000000000, finish := 522000000000,
       rateMultiplier := 5 / 2 },
     { phase := .continuousAfternoon, start := 486000000000, finish := 513000000000 }]

theorem compressedMapping_compressedDefault : compressedDefault.CompressedMapping 17 :=
  compressedMapping
    ⟨by decide, by norm_num [compressedDefault], List.isEmpty_iff.mp (by decide +kernel)⟩ rfl 17

end MarketSessionOptions

end Tckr.Session
