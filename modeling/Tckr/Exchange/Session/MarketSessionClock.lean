import Mathlib.Data.List.Sort
import Mathlib.Data.Rat.Floor

/-!
# The market session clock

The clock resolves the phase in force and the rate it asks for. The conversion to
the exchange's time zone is the platform's, a parameter; a double division is read
exactly. Times are in ticks of 100 ns. The clamp's log line and the flag that
keeps it to one a phase are left out.
-/

namespace Tckr.Session

/-- The phases of a trading day. -/
inductive MarketPhase where
  | closed
  | preOpen
  | openingAuction
  | continuousMorning
  | middayLull
  | continuousAfternoon
  | closingAuction
  deriving DecidableEq, Repr

/-- Where the clock takes the time of day from. -/
inductive MarketSessionMode where
  | continuous
  | scheduled
  | compressedDay
  deriving DecidableEq, Repr

/-- One entry of the schedule, from `start` to before `finish`. -/
structure MarketPhaseWindow where
  phase : MarketPhase
  start : Int
  finish : Int
  rateMultiplier : ℚ := 1

/-- Mode, schedule and the rate ceiling. -/
structure MarketSessionOptions where
  mode : MarketSessionMode := .continuous
  /-- The time of day of an instant in the exchange's time zone. -/
  timeOfDay : Int → Int
  compressedDurationMinutes : Nat := 5
  compressedClosedFraction : ℚ := 1 / 10
  maxEventsPerSecond : ℚ := 100000
  phases : List MarketPhaseWindow

namespace MarketSessionOptions

variable (o : MarketSessionOptions)

/-- The windows by start, equal starts in the configured order. -/
def windows : List MarketPhaseWindow :=
  o.phases.insertionSort fun a b => a.start ≤ b.start

/-- The start of the earliest window. -/
def sessionStart : Int := (o.windows.head?.map MarketPhaseWindow.start).getD 0

/-- From the earliest start to the latest end. -/
def sessionSpan : Int :=
  ((o.windows.map MarketPhaseWindow.finish).max?.map (· - o.sessionStart)).getD 0

/-- The length of a compressed day. -/
def cycleTicks : Int := max o.compressedDurationMinutes 1 * 600000000

/-- The leading closed segment of a compressed day. -/
def closedTicks : Int := ⌊o.cycleTicks * max 0 (min o.compressedClosedFraction (9 / 10))⌋

/-- The phase and the multiplier at a time of day. -/
def lookUp (timeOfDay : Int) : MarketPhase × ℚ :=
  match o.windows.find? fun w => w.start ≤ timeOfDay && timeOfDay < w.finish with
  | some w => (w.phase, w.rateMultiplier)
  | none => (.closed, 0)

/-- A point of the compressed cycle: closed at first, then the session span. -/
def compressedTimeOfDay (anchor now : Int) : Int :=
  let position := (now - anchor) % o.cycleTicks
  if position < o.closedTicks then o.sessionStart - 1
  else
    let through : ℚ := (position - o.closedTicks) / (o.cycleTicks - o.closedTicks)
    o.sessionStart + ⌊through * o.sessionSpan⌋

/-- The phase and the multiplier at an instant. -/
def resolve (anchor now : Int) : MarketPhase × ℚ :=
  match o.mode with
  | .continuous => (.continuousMorning, 1)
  | .compressedDay => o.lookUp (o.compressedTimeOfDay anchor now)
  | .scheduled => o.lookUp (o.timeOfDay now)

end MarketSessionOptions

/-- The anchor of the cycle, and the phase in force. -/
structure MarketSessionClock where
  anchor : Int
  currentPhase : MarketPhase
  currentRateMultiplier : ℚ

/-- A clock built at `now`. -/
def MarketSessionClock.create (o : MarketSessionOptions) (now : Int) : MarketSessionClock where
  anchor := now
  currentPhase := (o.resolve now now).1
  currentRateMultiplier := (o.resolve now now).2

/-- Move the session to `now`; the event raised, if the phase changed, is the pair of phases. -/
def MarketSessionClock.advance (o : MarketSessionOptions) (now : Int) (s : MarketSessionClock) :
    MarketSessionClock × Option (MarketPhase × MarketPhase) :=
  let resolved := o.resolve s.anchor now
  let moved := { s with currentPhase := resolved.1, currentRateMultiplier := resolved.2 }
  (moved, if resolved.1 = s.currentPhase then none else some (s.currentPhase, resolved.1))

/-- The base rate times the multiplier in force, clamped to the ceiling. -/
def MarketSessionClock.effectiveEventsPerSecond (o : MarketSessionOptions) (baseRate : ℚ)
    (s : MarketSessionClock) : ℚ :=
  if baseRate ≤ 0 then 0
  else if baseRate * s.currentRateMultiplier > o.maxEventsPerSecond then o.maxEventsPerSecond
  else if baseRate * s.currentRateMultiplier < 0 then 0
  else baseRate * s.currentRateMultiplier

end Tckr.Session
