import Tckr.Core.Checked
import Tckr.Core.Wrapping
import Tckr.Exchange.Generation.Quantity

/-!
# Timestamps in 64 bits

The clock of the generator in the unchecked arithmetic the code runs with: the
wall clock is read once, the stopwatch for every event, and the synthetic clock
steps. Every timestamp is the signed residue of its exact value, so the stream goes
backwards exactly where a wrap lies between two events. The split conversion of
stopwatch ticks is the exact floor wherever that fits.
-/

namespace Tckr.Generation

/-! ## The clock -/

/-- The 64-bit value that unchecked arithmetic keeps of an integer. -/
def wrap (x : Int) : Int := x.bmod 18446744073709551616

/-- Stopwatch ticks to nanoseconds, whole seconds first. -/
def scaleTicksToNanosUnchecked (frequency : Nat) (elapsed : Int) : Int :=
  let seconds := elapsed.tdiv frequency
  let remainder := wrap (elapsed - wrap (seconds * frequency))
  wrap (wrap (seconds * 1000000000) + (wrap (remainder * 1000000000)).tdiv frequency)

/-- Pin the wall clock to the monotonic clock. -/
def anchorClockUnchecked (o : GenerationOptions) (reading : ClockReading)
    (g : RandomWalkGenerator) : RandomWalkGenerator :=
  { g with
    anchorUnixNanos := wrap (reading.unixTimeMilliseconds * 1000000)
    anchorStopwatchTicks := reading.timestamp
    deterministicNanos := o.deterministicEpochUnixNanos }

/-- Open a new trading session; the first one also anchors the clock. -/
def resetSessionUnchecked (c : GeneratorConfig) (reading : ClockReading)
    (g : RandomWalkGenerator) : Option RandomWalkGenerator :=
  (resetSymbols c.options g.hasOpened c.symbolUniverse.symbols g.states).map fun states =>
    let t := { g with states }
    if g.hasOpened then t
    else { anchorClockUnchecked c.options reading t with hasOpened := true }

/-- Build a generator: fresh states, and the first session opened. -/
def constructUnchecked (c : GeneratorConfig) (reading : ClockReading) :
    Option RandomWalkGenerator :=
  resetSessionUnchecked c reading { states := c.symbolUniverse.symbols.map fun _ => {} }

/-- The event time, and the generator with its clock moved. -/
def nextTimestampNanosUnchecked (c : GeneratorConfig) (timestamp : Int)
    (g : RandomWalkGenerator) : Int × RandomWalkGenerator :=
  if c.options.deterministicTimestamps then
    (g.deterministicNanos, { g with
      deterministicNanos := wrap (g.deterministicNanos + c.options.deterministicStepNanos) })
  else
    let elapsed := wrap (timestamp - g.anchorStopwatchTicks)
    (if nanosPerStopwatchTick c.stopwatchFrequency ≠ 0 then
      wrap (g.anchorUnixNanos + wrap (elapsed * nanosPerStopwatchTick c.stopwatchFrequency))
    else wrap (g.anchorUnixNanos + scaleTicksToNanosUnchecked c.stopwatchFrequency elapsed), g)

/-- Produce one record and advance the state of the symbol it belongs to. -/
def nextUnchecked (c : GeneratorConfig) (d : Draws) (timestamp : Int) (g : RandomWalkGenerator) :
    Option (Nat × TapeRecord × RandomWalkGenerator) :=
  let index := c.symbolUniverse.picker.next d.pick
  match g.states[index]?, c.symbolUniverse.symbols[index]? with
  | some s, some definition =>
    let clock := nextTimestampNanosUnchecked c timestamp g
    some (index, {
        messageType := messageType c.options d
        quantity := quantity c.options d s
        exchangeTimestampNanos := clock.1
        priceScaled := eventPrice c.options d s
        symbol := definition.packed },
      { clock.2 with states := g.states.set index (nextSymbol c.options d s) })
  | _, _ => none

/-- Take one record, or open a new session. -/
def Tape.stepUnchecked (c : GeneratorConfig) (t : Tape) : Action → Option Tape
  | .next d timestamp =>
    (nextUnchecked c d timestamp t.generator).bind fun result =>
    (result.2.2.states[result.1]?).map fun after =>
      { t with
        generator := result.2.2
        events := t.events ++ [⟨t.session, result.1, result.2.1, after⟩] }
  | .reset reading =>
    (resetSessionUnchecked c reading t.generator).map fun g =>
      { t with generator := g, session := t.session + 1 }

/-- The runs of a generator on a 64-bit clock. -/
def uncheckedTape (c : GeneratorConfig) (g : RandomWalkGenerator) : Machine Tape Action where
  init := { generator := g }
  step := Tape.stepUnchecked c

/-- The timestamps of a tape, in order. -/
def Tape.timestamps (t : Tape) : List Int := t.events.map (·.record.exchangeTimestampNanos)

/-- The stopwatch readings of a run: one for each event. -/
def readings : List Action → List Int
  | [] => []
  | .next _ timestamp :: actions => timestamp :: readings actions
  | .reset _ :: actions => readings actions

/-! ## Arithmetic -/

theorem wrap_eq_self {x : Int} (h : Checked.InRange 64 x) : wrap x = x := by
  unfold wrap
  exact Int.bmod_eq_of_le (by unfold Checked.InRange at h; omega)
    (by unfold Checked.InRange at h; omega)

theorem wrap_inRange (x : Int) : Checked.InRange 64 (wrap x) := by
  have hlower := Int.le_bmod (x := x) (m := 18446744073709551616) (by norm_num)
  have hupper := Int.bmod_lt (x := x) (m := 18446744073709551616) (by norm_num)
  unfold Checked.InRange wrap
  omega

/-- The window around zero holds what 64 bits hold. -/
theorem bdiv_eq_zero_iff {x : Int} :
    x.bdiv 18446744073709551616 = 0 ↔ Checked.InRange 64 x := by
  have hsplit : wrap x + _ = x := Int.bmod_add_bdiv x 18446744073709551616
  constructor
  · intro h
    have hrange := wrap_inRange x
    rw [h, mul_zero, add_zero] at hsplit
    rwa [hsplit] at hrange
  · intro h
    rw [wrap_eq_self h] at hsplit
    omega

/-- Whole seconds and the rest of a second make up the exact floor. -/
theorem scale_split {frequency : Int} (e : Int) (h : 0 < frequency) :
    e / frequency * 1000000000 + (e - e / frequency * frequency) * 1000000000 / frequency =
      e * 1000000000 / frequency := by
  have hsplit : e * 1000000000 =
      (e - e / frequency * frequency) * 1000000000 + e / frequency * 1000000000 * frequency := by
    ring
  rw [hsplit, Int.add_mul_ediv_right _ _ h.ne', add_comm]

/-- The split conversion is the exact floor, reduced to 64 bits. -/
theorem scaleTicksToNanosUnchecked_eq {frequency : Nat} (hpos : 1 ≤ frequency)
    (hle : frequency ≤ 9000000000) {e : Int} (he : 0 ≤ e) (helapsed : e ≤ longMaxValue) :
    scaleTicksToNanosUnchecked frequency e = wrap (e * 1000000000 / frequency) := by
  have hfrequency : 0 < (frequency : Int) := by omega
  have hseconds : e / frequency * frequency ≤ e := Int.ediv_mul_le e hfrequency.ne'
  have hwhole : 0 ≤ e / frequency * frequency :=
    mul_nonneg (Int.ediv_nonneg he hfrequency.le) hfrequency.le
  have hrest : e - e / frequency * frequency < frequency := by
    have := Int.lt_ediv_add_one_mul_self e hfrequency
    rw [add_mul, one_mul] at this
    omega
  unfold longMaxValue at helapsed
  have hkept : wrap (e / frequency * frequency) = e / frequency * frequency :=
    wrap_eq_self (by unfold Checked.InRange; omega)
  have hremainder : wrap (e - e / frequency * frequency) = e - e / frequency * frequency :=
    wrap_eq_self (by unfold Checked.InRange; omega)
  have hscaled : wrap ((e - e / frequency * frequency) * 1000000000) =
      (e - e / frequency * frequency) * 1000000000 :=
    wrap_eq_self (by unfold Checked.InRange; omega)
  unfold scaleTicksToNanosUnchecked
  dsimp only
  rw [Int.tdiv_eq_ediv_of_nonneg he, hkept, hremainder, hscaled,
    Int.tdiv_eq_ediv_of_nonneg (by omega), ← scale_split e hfrequency]
  unfold wrap
  exact Int.bmod_add_bmod

/-- The exact time of a reading, from the 64-bit anchor on. -/
def exactNanos (c : GeneratorConfig) (g : RandomWalkGenerator) (timestamp : Int) : Int :=
  g.anchorUnixNanos +
    (timestamp - g.anchorStopwatchTicks) * 1000000000 / c.stopwatchFrequency

/-- A tick of a whole number of nanoseconds scales by one multiplication. -/
theorem nanosPerStopwatchTick_mul {frequency : Nat}
    (h : nanosPerStopwatchTick frequency ≠ 0) (e : Int) :
    e * nanosPerStopwatchTick frequency = e * 1000000000 / frequency := by
  unfold nanosPerStopwatchTick at h ⊢
  split at h
  · rename_i hmod
    have hdvd : (frequency : Int) ∣ 1000000000 := by
      exact_mod_cast Nat.dvd_of_mod_eq_zero (by exact_mod_cast hmod)
    rw [if_pos hmod, Int.mul_ediv_assoc e hdvd]
  · exact absurd rfl h

/-- Both conversions give the exact time, reduced to 64 bits. -/
theorem nextTimestampNanosUnchecked_real {c : GeneratorConfig} {g : RandomWalkGenerator}
    {timestamp : Int} (hreal : c.options.deterministicTimestamps = false)
    (hpos : 1 ≤ c.stopwatchFrequency) (hle : c.stopwatchFrequency ≤ 9000000000)
    (hordered : g.anchorStopwatchTicks ≤ timestamp)
    (helapsed : timestamp - g.anchorStopwatchTicks ≤ longMaxValue) :
    nextTimestampNanosUnchecked c timestamp g = (wrap (exactNanos c g timestamp), g) := by
  have hkept : wrap (timestamp - g.anchorStopwatchTicks) = timestamp - g.anchorStopwatchTicks :=
    wrap_eq_self (by unfold Checked.InRange; unfold longMaxValue at helapsed; omega)
  have hnonneg : 0 ≤ timestamp - g.anchorStopwatchTicks := by omega
  have hadd (a b : Int) : wrap (a + wrap b) = wrap (a + b) := Int.add_bmod_bmod
  unfold nextTimestampNanosUnchecked exactNanos
  simp only [hreal, Bool.false_eq_true, if_false, hkept,
    scaleTicksToNanosUnchecked_eq hpos hle hnonneg helapsed, hadd, Prod.mk.injEq, and_true]
  split
  · rename_i hmultiply
    rw [nanosPerStopwatchTick_mul hmultiply]
  · rfl

/-! ## The stream -/

section Stream

variable {c : GeneratorConfig} {g g' : RandomWalkGenerator}

/-- The readings of the clock that a run of events takes. -/
def stamps (c : GeneratorConfig) : RandomWalkGenerator → List Int → List Int
  | _, [] => []
  | g, timestamp :: timestamps =>
    (nextTimestampNanosUnchecked c timestamp g).1 ::
      stamps c (nextTimestampNanosUnchecked c timestamp g).2 timestamps

/-- Two generators that tell the same time. -/
structure SameClock (g g' : RandomWalkGenerator) : Prop where
  unixNanos : g.anchorUnixNanos = g'.anchorUnixNanos
  stopwatchTicks : g.anchorStopwatchTicks = g'.anchorStopwatchTicks
  deterministic : g.deterministicNanos = g'.deterministicNanos

theorem SameClock.next (h : SameClock g g') (timestamp : Int) :
    (nextTimestampNanosUnchecked c timestamp g).1 = (nextTimestampNanosUnchecked c timestamp g').1 ∧
      SameClock (nextTimestampNanosUnchecked c timestamp g).2
        (nextTimestampNanosUnchecked c timestamp g').2 := by
  unfold nextTimestampNanosUnchecked
  rw [h.unixNanos, h.stopwatchTicks, h.deterministic]
  split
  · exact ⟨rfl, rfl, rfl, rfl⟩
  · exact ⟨rfl, h⟩

theorem SameClock.stamps_eq (h : SameClock g g') (timestamps : List Int) :
    stamps c g timestamps = stamps c g' timestamps := by
  induction timestamps generalizing g g' with
  | nil => rfl
  | cons timestamp timestamps ih =>
    obtain ⟨htime, hnext⟩ := h.next (c := c) timestamp
    rw [stamps, stamps, htime, ih hnext]

/-- An event carries the reading of the clock, and moves the clock only. -/
theorem nextUnchecked_clock {d : Draws} {timestamp : Int} {index : Nat} {r : TapeRecord}
    (h : nextUnchecked c d timestamp g = some (index, r, g')) :
    r.exchangeTimestampNanos = (nextTimestampNanosUnchecked c timestamp g).1 ∧
      SameClock g' (nextTimestampNanosUnchecked c timestamp g).2 ∧ g'.hasOpened = g.hasOpened := by
  have hopened : (nextTimestampNanosUnchecked c timestamp g).2.hasOpened = g.hasOpened := by
    unfold nextTimestampNanosUnchecked
    split <;> rfl
  unfold nextUnchecked at h
  dsimp only at h
  split at h
  · simp only [Option.some.injEq, Prod.mk.injEq] at h
    obtain ⟨-, rfl, rfl⟩ := h
    exact ⟨rfl, ⟨rfl, rfl, rfl⟩, hopened⟩
  · cases h

/-- A later session leaves the clock alone. -/
theorem resetSessionUnchecked_clock {reading : ClockReading} (hopened : g.hasOpened = true)
    (h : resetSessionUnchecked c reading g = some g') :
    SameClock g' g ∧ g'.hasOpened = true := by
  unfold resetSessionUnchecked at h
  simp only [hopened, if_true, Option.map_eq_some_iff] at h
  obtain ⟨states, -, rfl⟩ := h
  exact ⟨⟨rfl, rfl, rfl⟩, rfl⟩

/-- The first session anchors the clock. -/
theorem constructUnchecked_clock {reading : ClockReading}
    (h : constructUnchecked c reading = some g) : g.hasOpened = true ∧
      g.anchorStopwatchTicks = reading.timestamp ∧
      g.deterministicNanos = c.options.deterministicEpochUnixNanos := by
  simp only [constructUnchecked, resetSessionUnchecked, Bool.false_eq_true, if_false,
    Option.map_eq_some_iff] at h
  obtain ⟨states, -, rfl⟩ := h
  exact ⟨rfl, rfl, rfl⟩

/-- The events of a run carry the readings of the clock, whatever sessions open between them. -/
theorem timestamps_runFrom {t u : Tape} {actions : List Action}
    (hopened : t.generator.hasOpened = true)
    (h : (uncheckedTape c g).runFrom t actions = some u) :
    u.timestamps = t.timestamps ++ stamps c t.generator (readings actions) := by
  induction actions generalizing t with
  | nil =>
    rw [Machine.runFrom_nil, Option.some.injEq] at h
    rw [h, readings, stamps, List.append_nil]
  | cons a actions ih =>
    rw [Machine.runFrom_cons, Option.bind_eq_some_iff] at h
    obtain ⟨v, hv, hu⟩ := h
    cases a with
    | next d timestamp =>
      simp only [uncheckedTape, Tape.stepUnchecked, Option.bind_eq_some_iff,
        Option.map_eq_some_iff] at hv
      obtain ⟨⟨index, r, g'⟩, hnext, after, -, rfl⟩ := hv
      obtain ⟨htime, hclock, hopened'⟩ := nextUnchecked_clock hnext
      rw [ih (hopened'.trans hopened) hu, readings, stamps, hclock.stamps_eq]
      simp [Tape.timestamps, htime]
    | reset reading =>
      simp only [uncheckedTape, Tape.stepUnchecked, Option.map_eq_some_iff] at hv
      obtain ⟨g', hg', rfl⟩ := hv
      obtain ⟨hclock, hopened'⟩ := resetSessionUnchecked_clock hopened hg'
      rw [ih hopened' hu, readings, hclock.stamps_eq]
      rfl

/-- The synthetic clock reads the multiples of its step. -/
theorem stamps_deterministic (h : c.options.deterministicTimestamps = true)
    (hrange : Checked.InRange 64 g.deterministicNanos) (timestamps : List Int) :
    stamps c g timestamps = (List.range timestamps.length).map fun (k : Nat) =>
      wrap (g.deterministicNanos + k * c.options.deterministicStepNanos) := by
  induction timestamps generalizing g with
  | nil => rfl
  | cons timestamp timestamps ih =>
    have hnext : nextTimestampNanosUnchecked c timestamp g = (g.deterministicNanos, { g with
        deterministicNanos :=
          wrap (g.deterministicNanos + c.options.deterministicStepNanos) }) := by
      unfold nextTimestampNanosUnchecked
      rw [if_pos h]
    rw [stamps, hnext, ih (wrap_inRange _), List.length_cons, List.range_succ_eq_map,
      List.map_cons, List.map_map]
    congr 1
    · rw [Nat.cast_zero, zero_mul, add_zero, wrap_eq_self hrange]
    · refine List.map_congr_left fun k _ => ?_
      rw [Function.comp_apply, Nat.cast_succ, add_mul, one_mul]
      unfold wrap
      rw [Int.bmod_add_bmod, add_assoc, add_comm (k * _ : Int)]

/-- The monotonic clock reads the exact times. -/
theorem stamps_real (hreal : c.options.deterministicTimestamps = false)
    (hpos : 1 ≤ c.stopwatchFrequency) (hle : c.stopwatchFrequency ≤ 9000000000)
    {timestamps : List Int} (hordered : ∀ e ∈ timestamps, g.anchorStopwatchTicks ≤ e)
    (helapsed : ∀ e ∈ timestamps, e - g.anchorStopwatchTicks ≤ longMaxValue) :
    stamps c g timestamps = timestamps.map fun e => wrap (exactNanos c g e) := by
  induction timestamps with
  | nil => rfl
  | cons e timestamps ih =>
    have hnext := nextTimestampNanosUnchecked_real hreal hpos hle (hordered e List.mem_cons_self)
      (helapsed e List.mem_cons_self)
    rw [stamps, hnext, List.map_cons, ih (fun e he => hordered e (List.mem_cons_of_mem _ he))
      (fun e he => helapsed e (List.mem_cons_of_mem _ he))]

/-- Later readings have later exact times. -/
theorem exactNanos_mono (hpos : 1 ≤ c.stopwatchFrequency) (g : RandomWalkGenerator) {e e' : Int}
    (h : e ≤ e') : exactNanos c g e ≤ exactNanos c g e' := by
  have hfloor : (e - g.anchorStopwatchTicks) * 1000000000 / (c.stopwatchFrequency : Int) ≤
      (e' - g.anchorStopwatchTicks) * 1000000000 / c.stopwatchFrequency :=
    Int.ediv_le_ediv (by omega) (by omega)
  unfold exactNanos
  omega

/-! ## Order -/

/-- The first readings of a synthetic clock. -/
def synthetic (o : GenerationOptions) (n : Nat) : List Int :=
  (List.range n).map fun (k : Nat) => o.deterministicEpochUnixNanos + k * o.deterministicStepNanos

/-- A synthetic clock keeps to its window exactly until its last reading leaves 64 bits. -/
theorem sameWindow_synthetic_iff {o : GenerationOptions}
    (hepoch : Checked.InRange 64 o.deterministicEpochUnixNanos) (n : Nat) :
    SameWindow 18446744073709551616 (synthetic o n) ↔
      o.deterministicEpochUnixNanos + (n - 1 : Nat) * o.deterministicStepNanos ≤
        longMaxValue := by
  have hwithin {k : Nat} : Checked.InRange 64
        (o.deterministicEpochUnixNanos + k * o.deterministicStepNanos) ↔
      o.deterministicEpochUnixNanos + k * o.deterministicStepNanos ≤ longMaxValue := by
    have hforward : 0 ≤ (k * o.deterministicStepNanos : Int) := by positivity
    unfold Checked.InRange longMaxValue at *
    omega
  unfold SameWindow synthetic
  rw [List.pairwise_map]
  constructor
  · intro h
    rcases Nat.eq_zero_or_pos (n - 1) with hzero | hpos
    · rw [hzero, ← hwithin, Nat.cast_zero, zero_mul, add_zero]
      exact hepoch
    · have hlt : n - 1 < (List.range n).length := by rw [List.length_range]; omega
      have hwindow := List.pairwise_iff_getElem.mp h 0 (n - 1) (hpos.trans hlt) hlt hpos
      rw [List.getElem_range, List.getElem_range, Nat.cast_zero, zero_mul, add_zero] at hwindow
      rw [← hwithin, ← bdiv_eq_zero_iff]
      exact hwindow.symm.trans (bdiv_eq_zero_iff.mpr hepoch)
  · intro h
    have hall {k : Nat} (hk : k ∈ List.range n) :
        (o.deterministicEpochUnixNanos + k * o.deterministicStepNanos).bdiv
          18446744073709551616 = 0 := by
      rw [List.mem_range] at hk
      rw [bdiv_eq_zero_iff, hwithin]
      have hmul : (k * o.deterministicStepNanos : Int) ≤
          (n - 1 : Nat) * o.deterministicStepNanos :=
        mul_le_mul_of_nonneg_right (by omega) (Int.natCast_nonneg _)
      omega
    refine List.Pairwise.imp_of_mem (R := fun _ _ => True) ?_
      (List.pairwise_of_forall fun _ _ => trivial)
    exact fun hj hk _ => (hall hj).trans (hall hk).symm

/-- A synthetic clock never steps back, and never by a whole base at once. -/
theorem synthetic_ordered {o : GenerationOptions} (ho : o.Validated) (n : Nat) :
    (synthetic o n).Pairwise (· ≤ ·) ∧
      (synthetic o n).IsChain fun x y : Int => y < x + (18446744073709551616 : Nat) := by
  have hstep := ho.deterministicStepNanos_le
  unfold longMaxValue at hstep
  unfold synthetic
  constructor
  · rw [List.pairwise_map]
    refine List.pairwise_lt_range.imp fun hlt => ?_
    exact Int.add_le_add_left
      (mul_le_mul_of_nonneg_right (by omega) (Int.natCast_nonneg _)) _
  · rw [List.isChain_iff_getElem]
    intro i hi
    rw [List.getElem_map, List.getElem_map, List.getElem_range, List.getElem_range,
      Nat.cast_succ, add_mul, one_mul]
    omega

end Stream

/-- On the synthetic clock the timestamps of a run are ordered exactly when the last of them, in
exact arithmetic, fits in 64 bits. On the monotonic clock they are ordered where no wrap of the
exact times lies between the events, and only there when consecutive ones are less than `2^64`
nanoseconds apart. The split conversion is the exact floor wherever that fits in 64 bits. -/
theorem timestamps_ordered_iff {c : GeneratorConfig} {g : RandomWalkGenerator}
    {reading : ClockReading} {actions : List Action} {t : Tape} (ho : c.options.Validated)
    (hepoch : Checked.InRange 64 c.options.deterministicEpochUnixNanos)
    (hpos : 1 ≤ c.stopwatchFrequency) (hle : c.stopwatchFrequency ≤ 9000000000)
    (hordered : (reading.timestamp :: readings actions).Pairwise (· ≤ ·))
    (hg : constructUnchecked c reading = some g)
    (h : (uncheckedTape c g).run actions = some t) :
    (c.options.deterministicTimestamps = true → (t.timestamps.Pairwise (· ≤ ·) ↔
        c.options.deterministicEpochUnixNanos +
          (t.events.length - 1 : Nat) * c.options.deterministicStepNanos ≤ longMaxValue)) ∧
      (c.options.deterministicTimestamps = false →
        (∀ e ∈ readings actions, e - reading.timestamp ≤ longMaxValue) →
        (SameWindow 18446744073709551616 ((readings actions).map (exactNanos c g)) →
          t.timestamps.Pairwise (· ≤ ·)) ∧
        (((readings actions).map (exactNanos c g)).IsChain
            (fun x y : Int => y < x + (18446744073709551616 : Nat)) →
          t.timestamps.Pairwise (· ≤ ·) →
          SameWindow 18446744073709551616 ((readings actions).map (exactNanos c g)))) ∧
      ∀ e, 0 ≤ e → e ≤ longMaxValue → e * 1000000000 / c.stopwatchFrequency ≤ longMaxValue →
        scaleTicksToNanosUnchecked c.stopwatchFrequency e =
          e * 1000000000 / c.stopwatchFrequency := by
  obtain ⟨hopened, hticks, hclock⟩ := constructUnchecked_clock hg
  have hstamps : t.timestamps = stamps c g (readings actions) := timestamps_runFrom hopened h
  refine ⟨fun hdeterministic => ?_, fun hreal helapsed => ?_, ?_⟩
  · have heq := stamps_deterministic hdeterministic (hclock.symm ▸ hepoch) (readings actions)
    have hlength : t.events.length = (readings actions).length := by
      have hcount := congrArg List.length (hstamps.trans heq)
      rwa [Tape.timestamps, List.length_map, List.length_map, List.length_range] at hcount
    have hsynthetic : t.timestamps = (synthetic c.options t.events.length).map
        (·.bmod 18446744073709551616) := by
      rw [hstamps, heq, hclock, hlength, synthetic, List.map_map]
      rfl
    obtain ⟨hsorted, hgap⟩ := synthetic_ordered ho t.events.length
    rw [hsynthetic, pairwise_bmod_iff hsorted hgap, sameWindow_synthetic_iff hepoch]
  · obtain ⟨hfirst, hsorted⟩ := List.pairwise_cons.mp hordered
    have hexact : t.timestamps = ((readings actions).map (exactNanos c g)).map
        (·.bmod 18446744073709551616) := by
      rw [hstamps, stamps_real hreal hpos hle (fun e he => hticks ▸ hfirst e he)
        (fun e he => hticks ▸ helapsed e he), List.map_map]
      rfl
    have hmono : ((readings actions).map (exactNanos c g)).Pairwise (· ≤ ·) := by
      rw [List.pairwise_map]
      exact hsorted.imp fun hlt => exactNanos_mono hpos g hlt
    rw [hexact]
    exact ⟨fun hwindow => hwindow.pairwise_bmod hmono,
      fun hgap => (pairwise_bmod_iff hmono hgap).mp⟩
  · intro e he hrange hfits
    have hnonneg : 0 ≤ e * 1000000000 / (c.stopwatchFrequency : Int) :=
      Int.ediv_nonneg (by omega) (Int.natCast_nonneg _)
    rw [scaleTicksToNanosUnchecked_eq hpos hle he hrange, wrap_eq_self]
    unfold longMaxValue at hfits
    unfold Checked.InRange
    omega

/-- The two instruments on a synthetic clock. -/
def syntheticClock (step : Nat) : GeneratorConfig :=
  { twoSymbols with
    options := { deterministicTimestamps := true, deterministicStepNanos := step } }

theorem syntheticClock_validated {step : Nat} (h : (step : Int) ≤ longMaxValue) :
    (syntheticClock step).options.Validated := by
  have hdefault := GenerationOptions.validated_default
  exact ⟨hdefault.1, hdefault.2, hdefault.3, hdefault.4, hdefault.5, hdefault.6, hdefault.7,
    hdefault.8, hdefault.9, hdefault.10, hdefault.11, hdefault.12, hdefault.13, hdefault.14,
    hdefault.15, hdefault.16, hdefault.17, hdefault.18, h⟩

theorem timestamps_ordered_iff_twoSessions :
    ∃ g t, constructUnchecked (syntheticClock 40000) ⟨0, 0⟩ = some g ∧
      (uncheckedTape (syntheticClock 40000) g).run twoSessions = some t ∧
      t.timestamps.Pairwise (· ≤ ·) := by
  have hrun : ((constructUnchecked (syntheticClock 40000) ⟨0, 0⟩).bind fun g =>
      ((uncheckedTape (syntheticClock 40000) g).run twoSessions).map (·.events.length)) =
        some 4 := by decide +kernel
  obtain ⟨g, hg, hrun⟩ := Option.bind_eq_some_iff.mp hrun
  obtain ⟨t, ht, hlength⟩ := Option.map_eq_some_iff.mp hrun
  refine ⟨g, t, hg, ht, ?_⟩
  have hiff := (timestamps_ordered_iff (syntheticClock_validated (by decide)) (by decide)
    (by decide) (by decide) (by decide) hg ht).1 rfl
  rw [hiff, hlength]
  decide

/-- With the largest step accepted the second event is timestamped before the first. -/
theorem not_timestamps_ordered : ¬ ∀ (c : GeneratorConfig) (reading : ClockReading)
    (g : RandomWalkGenerator) (actions : List Action) (t : Tape), c.options.Validated →
    Checked.InRange 64 c.options.deterministicEpochUnixNanos →
    1 ≤ c.stopwatchFrequency → c.stopwatchFrequency ≤ 9000000000 →
    (reading.timestamp :: readings actions).Pairwise (· ≤ ·) →
    constructUnchecked c reading = some g → (uncheckedTape c g).run actions = some t →
    t.timestamps.Pairwise (· ≤ ·) := by
  intro h
  have hrun : ((constructUnchecked (syntheticClock 9223372036854775807) ⟨0, 0⟩).bind fun g =>
      ((uncheckedTape (syntheticClock 9223372036854775807) g).run twoSessions).map fun t =>
        t.timestamps.take 2) = some [1735810200000000000, -7487561836854775809] := by
    decide +kernel
  obtain ⟨g, hg, hrun⟩ := Option.bind_eq_some_iff.mp hrun
  obtain ⟨t, ht, htake⟩ := Option.map_eq_some_iff.mp hrun
  have hordered := h (syntheticClock 9223372036854775807) ⟨0, 0⟩ g twoSessions t
    (syntheticClock_validated (by decide)) (by decide) (by decide) (by decide) (by decide) hg ht
  have hprefix := hordered.sublist (List.take_sublist 2 t.timestamps)
  rw [htake] at hprefix
  exact absurd hprefix (by decide)

end Tckr.Generation
