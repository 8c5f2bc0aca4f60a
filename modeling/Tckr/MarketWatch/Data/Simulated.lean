import Tckr.Core.Machine
import Tckr.MarketWatch.Data.MarketDataSource
import Tckr.MarketWatch.Data.Reconnect
import Tckr.MarketWatch.Data.Tape
import Tckr.MarketWatch.Data.TickDispatcher

/-!
# The simulated source

`SimulatedSource` with the browser around it: its timers, the clock, the store it
writes and the animation frames of its dispatcher. The trading calendar is a
parameter: whether the market is open is a function of the time alone.
-/

namespace Tckr.MarketWatch

inductive MarketState
  | open
  | closed
  deriving DecidableEq, Repr

/-- The market at one instant, with the session it displays. -/
structure MarketStatus where
  state : MarketState
  sessionDateKey : String
  sessionOpenAt : Nat
  sessionCloseAt : Nat

/-- `getMarketStatus`. -/
abbrev Calendar := Nat → MarketStatus

structure SimulatedSourceConfig where
  eventsPerSecond : Nat
  delayedOffsetMs : Nat
  seed : Nat
  demoUser : String
  deriving DecidableEq

/-- A tick held back until its delay has passed. -/
structure DelayedEnvelope where
  tick : Tick
  releaseAt : Nat
  deriving DecidableEq

structure HistoryPoint where
  t : String
  p : DecimalString
  deriving DecidableEq

structure SimulatedSource where
  config : SimulatedSourceConfig
  dispatcher : TickDispatcher := {}
  prng : Mulberry32
  /-- The universe the weighted picker draws from. -/
  picker : List SimSymbol
  runtimeBySymbol : OrderedMap String SymbolRuntime
  subscribed : OrderedSet String := .empty
  delayQueue : List DelayedEnvelope := []
  snapshotRequests : List String := []
  identityValue : Option Identity := none
  /-- When the live engine is due, while it runs. -/
  intervalHandle : Option Nat := none
  /-- When the market clock is due, while connected. -/
  marketClockHandle : Option Nat := none
  currentSessionDateKey : Option String := none
  lastKnownMarketState : Option MarketState := none
  connectAttempt : Nat := 0
  sessionCounter : Nat := 0
  globalEventSeq : Nat := 0
  currentConnectionState : ConnectionState := .closed .normal "not connected yet"
  backoffAttempt : Nat := 0
  dropReconnectTimer : Option Rat := none
  /-- `none` is `-Infinity`. -/
  lastHistorySampleAt : Option Nat := none
  /-- Zero-delay timers of `getSnapshot` still to fire. -/
  drainTimers : Nat := 0
  store : Store
  /-- The ticks handed to `on.tick`. -/
  observed : List Tick := []
  /-- The errors handed to `on.error`. -/
  errors : List ErrorMsg := []
  /-- The events handed to `on.entitlement`. -/
  entitlements : List EntitlementChanged := []
  /-- How the promises of `getSnapshot` settled. -/
  snapshots : List (Except String Snapshot) := []
  /-- How the promises of `getHistory` settled. -/
  histories : List (Except String (List HistoryPoint)) := []
  now : Nat := 0
  deriving DecidableEq

namespace SimulatedSource

def batchIntervalMs : Nat := 50

def marketClockIntervalMs : Nat := 1000

def resolveStream (demoUser : String) : Stream :=
  if demoUser = "user-002" then .delayed else .live

/-- The source as constructed, with the store it has primed. -/
def create (symbols : List SimSymbol) (config : SimulatedSourceConfig) : SimulatedSource where
  config := config
  prng := mulberry32 config.seed
  picker := symbols
  runtimeBySymbol := symbols.foldl
    (fun runtimes definition => runtimes.set definition.symbol (.create definition)) .empty
  store := Store.primeUniverse {} (symbols.map SimSymbol.toDefinition)

def currentStream (s : SimulatedSource) : Stream :=
  (s.identityValue.map Identity.stream).getD (resolveStream s.config.demoUser)

def emitStatus (s : SimulatedSource) (state : ConnectionState) : SimulatedSource :=
  { s with currentConnectionState := state }

def emitError (s : SimulatedSource) (code : ErrorCode) (message : String) : SimulatedSource :=
  { s with errors := s.errors ++ [⟨code, message, none⟩] }

/-! ## Subscriptions -/

def subscribeOne (s : SimulatedSource) (symbol : String) : SimulatedSource :=
  if (s.runtimeBySymbol.get? symbol).isSome then
    { s with subscribed := s.subscribed.add symbol }
  else s.emitError .unknownSymbol ("Unknown symbol: " ++ symbol)

def subscribe (s : SimulatedSource) (symbols : List String) : SimulatedSource :=
  symbols.foldl subscribeOne s

def unsubscribe (s : SimulatedSource) (symbols : List String) : SimulatedSource :=
  { s with subscribed := s.subscribed.deleteAll symbols }

/-! ## Snapshots -/

def buildSnapshot (s : SimulatedSource) (symbol : String) (runtime : SymbolRuntime) : Snapshot :=
  let price := runtime.definition.decimalFromScaled runtime.price
  let openPrice := runtime.definition.decimalFromScaled runtime.openPrice
  { symbol := symbol
    stream := s.currentStream
    price := price
    change := price.subtract openPrice
    changePercent := openPrice.percentChangeText price 2
    openPrice := openPrice
    previousClose := some runtime.definition.referencePrice
    high := runtime.definition.decimalFromScaled runtime.high
    low := runtime.definition.decimalFromScaled runtime.low
    volume := runtime.volume
    lastEventId := runtime.lastEventId
    exchangeTimestamp := runtime.lastTimestamp
    snapshotAge := 0
    simulated := true }

/-- Settle one snapshot request. -/
def answer (s : SimulatedSource) (symbol : String) : SimulatedSource :=
  match s.runtimeBySymbol.get? symbol with
  | none => { s with snapshots := s.snapshots ++ [.error ("Unknown symbol: " ++ symbol)] }
  | some runtime =>
      let snapshot := s.buildSnapshot symbol runtime
      { s with
        store := s.store.applySnapshot snapshot s.now
        snapshots := s.snapshots ++ [.ok snapshot] }

def drainSnapshotRequests (s : SimulatedSource) : SimulatedSource :=
  s.snapshotRequests.foldl answer { s with snapshotRequests := [] }

/-- While the live engine is idle a zero-delay timer drains the request. -/
def getSnapshot (s : SimulatedSource) (symbol : String) : SimulatedSource :=
  { s with
    snapshotRequests := s.snapshotRequests ++ [symbol]
    drainTimers := if s.intervalHandle = none then s.drainTimers + 1 else s.drainTimers }

/-! ## The live engine -/

def emit (s : SimulatedSource) (tick : Tick) : SimulatedSource :=
  if tick.s ∈ s.subscribed then
    { s with
      observed := s.observed ++ [tick]
      dispatcher := s.dispatcher.push tick }
  else s

def deliver (s : SimulatedSource) (tick : Tick) : SimulatedSource :=
  if s.currentStream = .delayed then
    { s with delayQueue := s.delayQueue ++ [⟨tick, s.now + s.config.delayedOffsetMs⟩] }
  else s.emit tick

/-- Release every tick at the head of the queue whose delay has passed. -/
def drainDelayedQueue (s : SimulatedSource) : SimulatedSource :=
  let isDue := fun envelope : DelayedEnvelope => decide (envelope.releaseAt ≤ s.now)
  ((s.delayQueue.takeWhile isDue).map DelayedEnvelope.tick).foldl emit
    { s with delayQueue := s.delayQueue.dropWhile isDue }

def tickKind (roll : Roll) : TickKind :=
  if roll.under 40 then .trade else if roll.under 70 then .bid else .ask

/-- An event of the live engine, with the generator and the runtime it leaves. -/
structure Event where
  prng : Mulberry32
  runtime : SymbolRuntime
  tick : Tick

/-- Draw the next event of an instrument. -/
def draw (s : SimulatedSource) (definition : SimSymbol) (runtime : SymbolRuntime) : Event :=
  let tickSize := definition.tickSize.toScaledInt
  let steps := pickSignedSteps s.prng runtime.price runtime.openPrice liveMaxStepsPerTick
  let price := max (runtime.price + tickSize * steps.1) tickSize
  let kindRoll := steps.2.next
  let lotsRoll := kindRoll.2.next
  let quantity := definition.lotSize * (1 + lotsRoll.1.below 5)
  let eventId := SymbolRuntime.eventId (s.globalEventSeq + 1)
  let timestamp := toISOString s.now
  { prng := lotsRoll.2
    runtime := { runtime with
      price := price
      high := max runtime.high price
      low := min runtime.low price
      volume := runtime.volume + quantity
      lastEventId := eventId
      lastTimestamp := timestamp }
    tick :=
      { s := definition.symbol
        p := runtime.definition.decimalFromScaled price
        q := quantity
        k := tickKind kindRoll.1
        t := timestamp
        id := eventId
        st := s.currentStream } }

def generateFor (s : SimulatedSource) (definition : SimSymbol) (runtime : SymbolRuntime) :
    SimulatedSource :=
  let event := s.draw definition runtime
  { s with
    prng := event.prng
    globalEventSeq := s.globalEventSeq + 1
    runtimeBySymbol := s.runtimeBySymbol.set definition.symbol event.runtime }.deliver event.tick

def generateOne (s : SimulatedSource) : SimulatedSource :=
  let (pickRoll, prng) := s.prng.next
  let s := { s with prng := prng }
  match pick s.picker pickRoll with
  | none => s
  | some definition => match s.runtimeBySymbol.get? definition.symbol with
      | none => s
      | some runtime => s.generateFor definition runtime

section Session

variable (calendar : Calendar)

/-- Overwrite every runtime from a backfill of the session. -/
def backfillAllSymbols (s : SimulatedSource) (sessionDateKey : String)
    (sessionOpenAt targetTime : Nat) : SimulatedSource :=
  { s with runtimeBySymbol := s.runtimeBySymbol.mapValues fun runtime =>
      runtime.backfill s.config.seed sessionDateKey sessionOpenAt targetTime }

/-- Backfill when the session or the market's state has changed. -/
def enterSession (s : SimulatedSource) (status : MarketStatus) : SimulatedSource :=
  if some status.sessionDateKey ≠ s.currentSessionDateKey ∨
      some status.state ≠ s.lastKnownMarketState then
    let target := if status.state = .open then s.now else status.sessionCloseAt
    { s.backfillAllSymbols status.sessionDateKey status.sessionOpenAt target with
      currentSessionDateKey := some status.sessionDateKey
      lastHistorySampleAt := some target }
  else s

/-- Start or stop the live engine. -/
def gateEngine (s : SimulatedSource) (state : MarketState) : SimulatedSource :=
  match state, s.intervalHandle with
  | .open, none => { s with intervalHandle := some (s.now + batchIntervalMs) }
  | .open, some _ => s
  | .closed, _ => { s with intervalHandle := none }

/-- Follow the calendar, and answer what waits for a snapshot. -/
def ensureSessionFor (s : SimulatedSource) : SimulatedSource :=
  let status := calendar s.now
  let entered := { s.enterSession status with lastKnownMarketState := some status.state }
  (entered.gateEngine status.state).drainSnapshotRequests

/-- A history sample is due. -/
def SampleDue (s : SimulatedSource) : Prop :=
  ∀ last ∈ s.lastHistorySampleAt, last + historySampleIntervalMs ≤ s.now

instance (s : SimulatedSource) : Decidable s.SampleDue :=
  inferInstanceAs (Decidable (∀ last ∈ s.lastHistorySampleAt, _))

/-- Sample every instrument. -/
def sampleHistory (s : SimulatedSource) : SimulatedSource :=
  { s with
    runtimeBySymbol := s.runtimeBySymbol.mapValues fun runtime => runtime.sample s.now
    lastHistorySampleAt := some s.now }

/-- `Math.max(1, Math.round(eventsPerSecond * 50 / 1000))`. -/
def perBatch (s : SimulatedSource) : Nat :=
  max 1 ((s.config.eventsPerSecond * batchIntervalMs * 2 + 1000) / 2000)

def generateBatch (s : SimulatedSource) : SimulatedSource :=
  let s := s.ensureSessionFor calendar
  if s.intervalHandle = none then s
  else
    let s := if s.SampleDue then s.sampleHistory else s
    (generateOne^[s.perBatch] s).drainDelayedQueue

/-- The points `getHistory` resolves to: the session's samples, and the live price while
the market is open. -/
def historyPoints (s : SimulatedSource) (runtime : SymbolRuntime) : List HistoryPoint :=
  let points := runtime.history.map fun sample =>
    ⟨toISOString sample.t, runtime.definition.decimalFromScaled sample.price⟩
  let stale := ∀ last ∈ runtime.history.getLast?, last.t < s.now
  if (calendar s.now).state = .open ∧ stale then
    points ++ [⟨toISOString s.now, runtime.definition.decimalFromScaled runtime.price⟩]
  else points

def getHistory (s : SimulatedSource) (symbol : String) : SimulatedSource :=
  let s := s.ensureSessionFor calendar
  { s with histories := s.histories ++ [match s.runtimeBySymbol.get? symbol with
      | none => .error ("Unknown symbol: " ++ symbol)
      | some runtime => .ok (s.historyPoints calendar runtime)] }

/-! ## Connecting and disconnecting -/

def connect (s : SimulatedSource) : SimulatedSource :=
  if s.marketClockHandle.isSome then s
  else
    let s := { s with
      connectAttempt := s.connectAttempt + 1
      currentConnectionState := .connecting (s.connectAttempt + 1)
      sessionCounter := s.sessionCounter + 1
      identityValue := some
        { userId := s.config.demoUser
          stream := resolveStream s.config.demoUser
          sessionId := "sim-session-" ++ toString (s.sessionCounter + 1) } }
    { s.ensureSessionFor calendar with
      marketClockHandle := some (s.now + marketClockIntervalMs)
      backoffAttempt := 0
      currentConnectionState := .connected s.now }

end Session

def disconnect (s : SimulatedSource) : SimulatedSource :=
  { s with
    dropReconnectTimer := none
    marketClockHandle := none
    intervalHandle := none
    currentConnectionState := .closed .normal "client disconnect" }

/-- A switch to another stream clears the store and is announced. -/
def simulateEntitlementChange (s : SimulatedSource) (nextDemoUser : String) : SimulatedSource :=
  let previousStream := s.identityValue.map Identity.stream
  let nextStream := resolveStream nextDemoUser
  let s := { s with
    config := { s.config with demoUser := nextDemoUser }
    identityValue := s.identityValue.map fun identity =>
      { identity with userId := nextDemoUser, stream := nextStream } }
  if previousStream.isSome ∧ previousStream ≠ some nextStream then
    { s with
      store := s.store.resetStream
      entitlements := s.entitlements ++ [⟨nextStream, true, toISOString s.now⟩] }
  else s

/-- Drop the tape; the jitter of the retry is drawn from the source's own generator. -/
def simulateDrop (s : SimulatedSource) (code : CloseCode) : SimulatedSource :=
  if s.marketClockHandle = none then s
  else
    let s := { s with
      marketClockHandle := none
      intervalHandle := none
      currentConnectionState := .closed code "simulated drop" }
    if shouldReconnect code then
      let (roll, prng) := s.prng.next
      let attempt := s.backoffAttempt + 1
      let delay := nextDelay attempt defaultBackoffPolicy ((roll.raw.toNat : Rat) / rollScale)
      { s with
        prng := prng
        backoffAttempt := attempt
        currentConnectionState := .reconnecting attempt delay
        dropReconnectTimer := some (s.now + delay) }
    else s

/-! ## The machine -/

/-- A call of a page, or of a simulator-only hook. -/
inductive Call
  | connect
  | disconnect
  | subscribe (symbols : List String)
  | unsubscribe (symbols : List String)
  | getSnapshot (symbol : String)
  | getHistory (symbol : String)
  | simulateEntitlementChange (nextDemoUser : String)
  | simulateDrop (code : CloseCode)
  deriving DecidableEq

inductive Timer
  | interval
  | marketClock
  | dropReconnect
  | drain
  deriving DecidableEq

inductive Action
  | call (c : Call)
  | timer (t : Timer)
  /-- The requested animation frame. -/
  | frame
  | advance (ms : Nat)
  deriving DecidableEq

section Steps

variable (calendar : Calendar)

def perform (s : SimulatedSource) : Call → SimulatedSource
  | .connect => s.connect calendar
  | .disconnect => s.disconnect
  | .subscribe symbols => s.subscribe symbols
  | .unsubscribe symbols => s.unsubscribe symbols
  | .getSnapshot symbol => s.getSnapshot symbol
  | .getHistory symbol => s.getHistory calendar symbol
  | .simulateEntitlementChange nextDemoUser => s.simulateEntitlementChange nextDemoUser
  | .simulateDrop code => s.simulateDrop code

/-- A timer fires no sooner than it is due; an interval is armed again as it fires. -/
def timerFired (s : SimulatedSource) : Timer → Option SimulatedSource
  | .interval => match s.intervalHandle with
      | some due =>
          if due ≤ s.now then
            some ({ s with
              intervalHandle := some (s.now + batchIntervalMs) }.generateBatch calendar)
          else none
      | none => none
  | .marketClock => match s.marketClockHandle with
      | some due =>
          if due ≤ s.now then
            some ({ s with
              marketClockHandle := some (s.now + marketClockIntervalMs) }.ensureSessionFor calendar)
          else none
      | none => none
  | .dropReconnect => match s.dropReconnectTimer with
      | some due =>
          if due ≤ s.now then some ({ s with dropReconnectTimer := none }.connect calendar)
          else none
      | none => none
  | .drain =>
      if 0 < s.drainTimers then
        some { s with drainTimers := s.drainTimers - 1 }.drainSnapshotRequests
      else none

def step (s : SimulatedSource) : Action → Option SimulatedSource
  | .call c => some (s.perform calendar c)
  | .timer t => s.timerFired calendar t
  | .frame =>
      if s.dispatcher.frameRequested = true then
        let flushed := s.dispatcher.flushNow s.store s.now
        some { s with dispatcher := flushed.1, store := flushed.2 }
      else none
  | .advance ms => some { s with now := s.now + ms }

end Steps

end SimulatedSource

/-- The simulated source over a universe and a calendar, from its construction on. -/
def simulated (symbols : List SimSymbol) (calendar : Calendar) (config : SimulatedSourceConfig) :
    Machine SimulatedSource SimulatedSource.Action where
  init := .create symbols config
  step := SimulatedSource.step calendar

/-- The head of the universe file. -/
def comi : SimSymbol where
  symbol := "COMI"
  name := "Commercial International Holding"
  referencePrice := ⟨['8', '5', '.', '1'], by decide⟩
  tickSize := ⟨['0', '.', '0', '5'], by decide⟩
  lotSize := 100
  weight := 1000

/-- A trading day that never ends. -/
def alwaysOpen : Calendar := fun _ => ⟨.open, "2026-09-14", 0, 16200000⟩

/-- The simulator with one event per batch and a delay of a tenth of a second. -/
def demoConfig (demoUser : String) : SimulatedSourceConfig := ⟨20, 100, 20260912, demoUser⟩

end Tckr.MarketWatch
