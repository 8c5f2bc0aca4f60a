import Mathlib.Data.String.Basic
import Tckr.Core.Machine
import Tckr.MarketWatch.Contracts.IsoUtc
import Tckr.MarketWatch.Contracts.Messages

/-!
# The quote of the detail page

One mounted page, for one symbol: the refs its callbacks write, and the state its
setters queue updates for. An updater runs some time after it was queued, in the order
of the queue, and reads the refs as they are then. Timestamps are compared as text.
-/

namespace Tckr.MarketWatch

/-- What the page shows of a symbol. -/
structure DetailQuote where
  price : DecimalString
  change : DecimalString
  changePercentText : String
  volume : Int
  exchangeTimestamp : String
  stream : Stream
  deriving DecidableEq

/-- The session figures beside it. -/
structure OhlcExtras where
  openPrice : DecimalString
  /-- What the change is measured from. -/
  baseline : DecimalString
  baselineIsPreviousClose : Bool
  high : DecimalString
  low : DecimalString
  exchangeTimestamp : String
  deriving DecidableEq

inductive Phase
  | loading
  | ready
  | notFound
  deriving DecidableEq, Repr

/-- Commas between the groups of three, from the last digit on. -/
def groupThousands : List Char → List Char
  | a :: b :: c :: d :: rest => a :: b :: c :: ',' :: groupThousands (d :: rest)
  | digits => digits

/-- A percentage in ten-thousandths at two decimals, rounded half away from zero, with a
sign unless it rounds to zero. -/
def formatPercentFigure (value : Int) : String :=
  let hundredths := (value.natAbs + 50) / 100
  let sign := if hundredths = 0 then "" else if value < 0 then "-" else "+"
  let digits := (groupThousands (Nat.toDigits 10 (hundredths / 100)).reverse).reverse
  sign ++ String.ofList digits ++ "." ++ padStart (hundredths % 100) 2

example : formatPercentFigure (-2350) = "-0.24" := by decide +kernel

/-- The change baseline a snapshot implies. -/
def snapshotBaseline (snapshot : Snapshot) : DecimalString :=
  snapshot.previousClose.getD snapshot.openPrice

def quoteFromSnapshot (snapshot : Snapshot) : DetailQuote :=
  let baseline := snapshotBaseline snapshot
  { price := snapshot.price
    change := snapshot.price.subtract baseline
    changePercentText := formatPercentFigure (baseline.percentChange snapshot.price)
    volume := snapshot.volume
    exchangeTimestamp := snapshot.exchangeTimestamp
    stream := snapshot.stream }

def extrasFromSnapshot (snapshot : Snapshot) : OhlcExtras where
  openPrice := snapshot.openPrice
  baseline := snapshotBaseline snapshot
  baselineIsPreviousClose := snapshot.previousClose.isSome
  high := snapshot.high
  low := snapshot.low
  exchangeTimestamp := snapshot.exchangeTimestamp

/-- The quote of a tick, with the volume the caller computed. -/
def quoteFromTick (tick : Tick) (baseline : Option DecimalString) (volume : Int) : DetailQuote :=
  let effectiveBaseline := baseline.getD tick.p
  { price := tick.p
    change := tick.p.subtract effectiveBaseline
    changePercentText := formatPercentFigure (effectiveBaseline.percentChange tick.p)
    volume := volume
    exchangeTimestamp := tick.t
    stream := tick.st }

/-- The newer of the quote and the tick, the quote where they are equally new. -/
def mergeTickIntoQuote (prev : Option DetailQuote) (tick : Tick) (baseline : Option DecimalString)
    (volume : Int) : Option DetailQuote :=
  match prev with
  | some prev =>
      if tick.t ≤ prev.exchangeTimestamp then some prev
      else some (quoteFromTick tick baseline volume)
  | none => some (quoteFromTick tick baseline volume)

/-- The newer of the quote and the snapshot, the snapshot where they are equally new. -/
def mergeSnapshotIntoQuote (prev : Option DetailQuote) (snapshot : Snapshot) : Option DetailQuote :=
  match prev with
  | some prev =>
      if snapshot.exchangeTimestamp < prev.exchangeTimestamp then some prev
      else some (quoteFromSnapshot snapshot)
  | none => some (quoteFromSnapshot snapshot)

def mergeSnapshotIntoExtras (prev : Option OhlcExtras) (snapshot : Snapshot) : Option OhlcExtras :=
  match prev with
  | some prev =>
      if snapshot.exchangeTimestamp < prev.exchangeTimestamp then some prev
      else some (extrasFromSnapshot snapshot)
  | none => some (extrasFromSnapshot snapshot)

/-- A queued call of a state setter. -/
inductive StateUpdate
  /-- `setQuote(undefined)` and `setExtras(undefined)`. -/
  | clear
  /-- `setExtras` and `setQuote` of a snapshot. -/
  | snapshot (snapshot : Snapshot)
  /-- `setQuote` of a tick. -/
  | tick (tick : Tick)
  /-- `setPhase`. -/
  | phase (phase : Phase)
  deriving DecidableEq

/-- The page of one symbol, from its mount to its unmount. -/
structure UseDetailQuote where
  symbol : String
  phaseRef : Phase := .loading
  baselineRef : Option DecimalString := none
  queuedTickRef : Option Tick := none
  volumeBaselineRef : Int := 0
  volumeSinceBaselineRef : Int := 0
  /-- The tick the next beat paints. -/
  pendingTick : Option Tick := none
  /-- The calls of the setters whose updaters have not run. -/
  updates : List StateUpdate := []
  phase : Phase := .loading
  quote : Option DetailQuote := none
  extras : Option OhlcExtras := none
  /-- The page has just become ready, and the effect of that has not run. -/
  effectDue : Bool := false
  /-- The ticks handled since the last reset. -/
  ticks : List Tick := []
  /-- The snapshots ingested since the last reset. -/
  snapshots : List Snapshot := []
  /-- The ticks painted by a beat since the last reset. -/
  painted : List Tick := []
  deriving DecidableEq

namespace UseDetailQuote

variable (s : UseDetailQuote)

/-- The volume a tick is merged with. -/
def volume : Int := s.volumeBaselineRef + s.volumeSinceBaselineRef

/-- What an updater of the quote returns, with the refs as they are. -/
def updatedQuote (prev : Option DetailQuote) : StateUpdate → Option DetailQuote
  | .clear => none
  | .snapshot snapshot => mergeSnapshotIntoQuote prev snapshot
  | .tick tick => mergeTickIntoQuote prev tick s.baselineRef s.volume
  | .phase _ => prev

def updatedExtras (prev : Option OhlcExtras) : StateUpdate → Option OhlcExtras
  | .clear => none
  | .snapshot snapshot => mergeSnapshotIntoExtras prev snapshot
  | .tick _ => prev
  | .phase _ => prev

/-- Run the updaters of one queued call. -/
def update (u : StateUpdate) : UseDetailQuote :=
  { s with
    quote := s.updatedQuote s.quote u
    extras := updatedExtras s.extras u
    phase := match u with
      | .phase phase => phase
      | _ => s.phase
    effectDue := match u with
      | .phase .ready => s.effectDue || s.phase ≠ .ready
      | _ => s.effectDue }

/-- Run the updaters of every queued call. -/
def render : UseDetailQuote := s.updates.foldl update { s with updates := [] }

def markNotFound : UseDetailQuote :=
  if s.phaseRef = .notFound then s
  else { s with phaseRef := .notFound, updates := s.updates ++ [.phase .notFound] }

def ingestSnapshot (snapshot : Snapshot) : UseDetailQuote :=
  if snapshot.symbol ≠ s.symbol ∨ s.phaseRef = .notFound then s
  else
    { s with
      baselineRef := some (snapshotBaseline snapshot)
      volumeBaselineRef := snapshot.volume
      volumeSinceBaselineRef := 0
      phaseRef := .ready
      updates := s.updates ++ [.snapshot snapshot, .phase .ready]
      snapshots := s.snapshots ++ [snapshot] }

/-- Keep the newer tick for the next beat, the second where they are equally new. -/
def throttledApplyTick (tick : Tick) : Option Tick :=
  match s.pendingTick with
  | some pending => if pending.t ≤ tick.t then some tick else some pending
  | none => some tick

/-- Count a tick, whatever becomes of its price. -/
def count (tick : Tick) : UseDetailQuote :=
  { s with
    volumeSinceBaselineRef := s.volumeSinceBaselineRef + tick.q
    ticks := s.ticks ++ [tick] }

/-- The callback of `on.tick`: every tick of the symbol is counted as it arrives. -/
def onTick (tick : Tick) : UseDetailQuote :=
  if tick.s ≠ s.symbol ∨ s.phaseRef = .notFound then s
  else if s.phaseRef = .loading then { s.count tick with queuedTickRef := some tick }
  else { s.count tick with pendingTick := s.throttledApplyTick tick }

/-- The callback of the page's beat. -/
def onBeat : UseDetailQuote :=
  match s.pendingTick with
  | none => s
  | some tick =>
      { s with
        pendingTick := none
        updates := s.updates ++ [.tick tick]
        painted := s.painted ++ [tick] }

/-- The callback of `on.entitlement`. -/
def onEntitlement : UseDetailQuote :=
  { s with
    queuedTickRef := none
    pendingTick := none
    baselineRef := none
    volumeBaselineRef := 0
    volumeSinceBaselineRef := 0
    updates := s.updates ++ [.clear]
    ticks := []
    snapshots := []
    painted := [] }

/-- The effect of the page having become ready: paint the tick queued while it loaded. -/
def paintQueued : UseDetailQuote :=
  match s.queuedTickRef with
  | none => { s with effectDue := false }
  | some tick =>
      { s with
        effectDue := false
        queuedTickRef := none
        updates := s.updates ++ [.tick tick] }

inductive Action
  | tick (tick : Tick)
  /-- A snapshot arrives, over REST or pushed. -/
  | snapshot (snapshot : Snapshot)
  | entitlement
  /-- An unknown symbol, a failed snapshot or a universe without the symbol. -/
  | notFound
  | beat
  /-- The updaters of the first queued call run. -/
  | update
  | effect
  deriving DecidableEq

def step : Action → Option UseDetailQuote
  | .tick tick => some (s.onTick tick)
  | .snapshot snapshot => some (s.ingestSnapshot snapshot)
  | .entitlement => some s.onEntitlement
  | .notFound => some s.markNotFound
  | .beat => some s.onBeat
  | .update =>
      match s.updates with
      | [] => none
      | u :: updates => some ({ s with updates := updates }.update u)
  | .effect => if s.effectDue then some s.paintQueued else none

/-- A beat that follows the last event: what was queued before it has run, and what it
queues runs. -/
def displayed : UseDetailQuote :=
  let s := s.render
  (if s.effectDue then s.paintQueued else s).onBeat.render

end UseDetailQuote

/-- The page of a symbol, in every order of its callbacks. -/
def useDetailQuote (symbol : String) : Machine UseDetailQuote UseDetailQuote.Action where
  init := { symbol := symbol }
  step s a := s.step a

end Tckr.MarketWatch
