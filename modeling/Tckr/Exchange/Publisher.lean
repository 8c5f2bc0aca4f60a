import Tckr.Exchange.Generation.Tape
import Tckr.Exchange.Session.MarketSessionClock
import Tckr.Exchange.Session.Pacing

/-!
# The publisher loop

One iteration advances the session clock, waits for the batch the phase's rate
pays for, generates it, and publishes it. A phase change is logged and nothing
else: the loop never opens a session in the generator. So what a session emits is
bound by the band of the session that was opened last, the one of the generator's
construction, and the two bands agree only as long as nothing has moved.

The passes over the bounded batch buffer are left out: they take the same records
in the same order. Beside the loop's own state a run keeps the trading session,
which no iteration reads.
-/

namespace Tckr.Publisher

open Protocol Session Generation

/-- What the host builds the loop from. -/
structure PublisherConfig where
  session : MarketSessionOptions
  governor : GovernorConfig := {}
  generator : GeneratorConfig
  baseEventsPerSecond : ℚ := 25000

/-- The line a phase change logs. -/
structure PhaseChange where
  previous : MarketPhase
  current : MarketPhase
  rateMultiplier : ℚ
  effectiveEventsPerSecond : ℚ
  deriving DecidableEq

/-- The components the loop drives, what it logged, and what it published. -/
structure Loop where
  clock : MarketSessionClock
  governor : RateGovernor := {}
  generator : RandomWalkGenerator
  log : List PhaseChange := []
  published : List TapeRecord := []
  stopped : Bool := false

/-- What one pass through the loop meets: the time, the governor's polls, and the draws and
stopwatch readings of its events. -/
structure Iteration where
  now : Int
  polls : List Poll
  draws : List (Draws × Int)

/-- One generated record and the symbol it belongs to. -/
structure Emission where
  index : Nat
  record : TapeRecord
  deriving DecidableEq, Repr

/-- Fill a batch with the next records of the tape. -/
def generate (c : GeneratorConfig) :
    List (Draws × Int) → RandomWalkGenerator → Option (List Emission × RandomWalkGenerator)
  | [], g => some ([], g)
  | (d, timestamp) :: draws, g =>
    (next c d timestamp g).bind fun result =>
    (generate c draws result.2.2).map fun rest => (⟨result.1, result.2.1⟩ :: rest.1, rest.2)

/-- The two phases whose prints are crosses. -/
def isAuctionPhase : MarketPhase → Bool
  | .openingAuction | .closingAuction => true
  | .closed | .preOpen | .continuousMorning | .middayLull | .continuousAfternoon => false

/-- The flag of an auction print. -/
def auctionPrintFlag : UInt16 := 1

/-- Mark the trades of a batch as auction prints. -/
def stampAuctionPrints (batch : List TapeRecord) : List TapeRecord :=
  batch.map fun r =>
    if r.messageType = .trade then { r with flags := r.flags ||| auctionPrintFlag } else r

/-- A phase change is logged. -/
def onPhaseChanged (c : PublisherConfig) (clock : MarketSessionClock)
    (change : Option (MarketPhase × MarketPhase)) (s : Loop) : Loop :=
  match change with
  | none => s
  | some (previous, current) => { s with
      log := s.log ++ [⟨previous, current, clock.currentRateMultiplier,
        clock.effectiveEventsPerSecond c.session c.baseEventsPerSecond⟩] }

/-- Advance the clock, before asking for the batch. -/
def advance (c : PublisherConfig) (now : Int) (s : Loop) : Loop :=
  let result := s.clock.advance c.session now
  onPhaseChanged c result.1 result.2 { s with clock := result.1 }

/-- Generate and publish one batch. -/
def publish (c : PublisherConfig) (draws : List (Draws × Int)) (s : Loop) :
    Option (List Emission × Loop) :=
  (generate c.generator draws s.generator).map fun result =>
    let batch := result.1.map Emission.record
    let stamped := if isAuctionPhase s.clock.currentPhase then stampAuctionPrints batch else batch
    (result.1, { s with generator := result.2, published := s.published ++ stamped })

/-- Wait for the batch the rate in force pays for, and publish it; a cancelled wait ends the
loop. -/
def emitBatch (c : PublisherConfig) (polls : List Poll) (draws : List (Draws × Int)) (s : Loop) :
    Option (List Emission × Loop) :=
  let rate := s.clock.effectiveEventsPerSecond c.session c.baseEventsPerSecond
  match waitForNextBatch c.governor rate polls s.governor with
  | some (.due now, t, []) =>
    let result := scheduleBatch c.governor now t rate
    if draws.length = result.1.toNat then publish c draws { s with governor := result.2 } else none
  | some (.canceled, t, []) => some ([], { s with governor := t, stopped := true })
  | _ => none

/-! ## Trading sessions -/

/-- A trading session: every symbol's state when it opened, and what was emitted in it. -/
structure TradingSession where
  opened : List SymbolState
  emitted : List Emission := []
  deriving DecidableEq, Repr

/-- The loop, and the trading session it is in. -/
structure PublisherRun where
  loop : Loop
  session : Option TradingSession := none

/-- A session opens when the phase leaves `closed`, and ends when it returns there. -/
def sessionAfter (previous current : MarketPhase) (states : List SymbolState)
    (session : Option TradingSession) : Option TradingSession :=
  if current = .closed then none
  else if previous = .closed then some { opened := states }
  else session

/-- One pass through the loop. -/
def PublisherRun.step (c : PublisherConfig) (s : PublisherRun) (i : Iteration) :
    Option PublisherRun :=
  if s.loop.stopped then none
  else
    let advanced := advance c i.now s.loop
    let session := sessionAfter s.loop.clock.currentPhase advanced.clock.currentPhase
      advanced.generator.states s.session
    (emitBatch c i.polls i.draws advanced).map fun result =>
      { loop := result.2
        session := session.map fun t => { t with emitted := t.emitted ++ result.1 } }

/-- The runs of the loop over a generator, from the instant the clock was built at. -/
def publisher (c : PublisherConfig) (g : RandomWalkGenerator) (anchor : Int) :
    Machine PublisherRun Iteration where
  init := { loop := { clock := .create c.session anchor, generator := g } }
  step := PublisherRun.step c

/-- The band `ResetSession` would derive for a symbol from where its mid stands. -/
def reanchoredBand (c : GeneratorConfig) (states : List SymbolState) (index : Nat) :
    Option (Int × Int) :=
  (c.symbolUniverse.symbols[index]?).bind fun definition =>
  (states[index]?).bind fun s =>
  (bandSpan c.options s.midPriceScaled (toScaled definition.tickSize)).map fun span =>
    bands s.midPriceScaled (toScaled definition.tickSize) span

/-- The trades of a session in one symbol. -/
def TradingSession.trades (session : TradingSession) (index : Nat) : Nat :=
  session.emitted.countP fun e => e.index = index ∧ e.record.messageType = .trade

end Tckr.Publisher
