import Mathlib.Data.Rat.Floor
import Tckr.Core.Machine
import Tckr.Exchange.Protocol.Writer

/-!
# The random walk generator

The tape of the exchange: a seeded walk for each symbol, with mean reversion, a
daily band and a mix of trades and quotes. Scaled prices and timestamps are read
as integers without a bound; the unsigned reversion arithmetic and the quantity
keep their widths. Doubles and decimals are read as exact rationals. Every
operand of a division is non-negative where the walk reaches it, so that C#'s
division and the one used here agree; a division by zero is an exception, `none`.
-/

namespace Tckr.Generation

open Protocol

/-! ## Fixed point -/

/-- The high 32 bits of a draw. -/
def high (draw : UInt64) : Nat := draw.toNat / 4294967296

/-- The low 32 bits of a draw. -/
def low (draw : UInt64) : Nat := draw.toNat % 4294967296

/-- Lemire's multiply-shift: a value below `outcomes` from a 32-bit draw. -/
def lemire (draw outcomes : Nat) : Nat := draw * outcomes / 4294967296

/-- The midpoint of the 32-bit coin range. -/
def coinHalf : Nat := 2147483648

/-- The largest signed 64-bit integer. -/
def longMaxValue : Int := 9223372036854775807

/-- Rounding to the nearest integer, halves to the even one. -/
def roundHalfEven (q : ℚ) : Int :=
  let f := ⌊q⌋
  if q - f < 1 / 2 then f
  else if q - f > 1 / 2 then f + 1
  else if f % 2 = 0 then f else f + 1

/-- Rounding to the nearest integer, halves away from zero. -/
def roundAwayFromZero (q : ℚ) : Int :=
  if q < 0 then -⌊-q + 1 / 2⌋ else ⌊q + 1 / 2⌋

/-- A probability as a 32-bit threshold. -/
def toQ32 (probability : ℚ) : Nat := (roundHalfEven (probability * 4294967296)).toNat

/-- A price in the fixed point of the wire. -/
def toScaled (price : ℚ) : Int := roundAwayFromZero (price * 10000)

/-- Integer division, which throws at zero. -/
def divide (a b : Int) : Option Int := if b = 0 then none else some (a / b)

/-! ## Configuration -/

/-- Walk shape, message mix and clock. -/
structure GenerationOptions where
  maxTickMove : Nat := 3
  dailyBandBasisPoints : Nat := 1000
  meanReversionStrength : ℚ := 9 / 10
  tradeShare : ℚ := 2 / 5
  bidQuoteShare : ℚ := 3 / 10
  askQuoteShare : ℚ := 3 / 10
  minSpreadTicks : Nat := 1
  maxSpreadTicks : Nat := 4
  minLots : Nat := 1
  maxLots : Nat := 20
  blockTradeProbability : ℚ := 1 / 100
  blockMinLots : Nat := 50
  blockMaxLots : Nat := 200
  deterministicTimestamps : Bool := false
  deterministicStepNanos : Nat := 40000
  deterministicEpochUnixNanos : Int := 1735810200000000000

/-- What the options validator and the constructor accept. -/
structure GenerationOptions.Validated (o : GenerationOptions) : Prop where
  maxTickMove_le : o.maxTickMove ≤ 20
  one_le_dailyBandBasisPoints : 1 ≤ o.dailyBandBasisPoints
  dailyBandBasisPoints_le : o.dailyBandBasisPoints ≤ 10000
  meanReversionStrength_mem : 0 ≤ o.meanReversionStrength ∧ o.meanReversionStrength ≤ 1
  tradeShare_nonneg : 0 ≤ o.tradeShare
  bidQuoteShare_nonneg : 0 ≤ o.bidQuoteShare
  askQuoteShare_nonneg : 0 ≤ o.askQuoteShare
  mix_pos : 0 < o.tradeShare + o.bidQuoteShare + o.askQuoteShare
  one_le_minSpreadTicks : 1 ≤ o.minSpreadTicks
  minSpreadTicks_le : o.minSpreadTicks ≤ o.maxSpreadTicks
  maxSpreadTicks_le : o.maxSpreadTicks ≤ 1000
  one_le_minLots : 1 ≤ o.minLots
  minLots_le : o.minLots ≤ o.maxLots
  maxLots_le : o.maxLots ≤ 2147483647
  blockTradeProbability_mem : 0 ≤ o.blockTradeProbability ∧ o.blockTradeProbability ≤ 1
  one_le_blockMinLots : 1 ≤ o.blockMinLots
  blockMinLots_le : o.blockMinLots ≤ o.blockMaxLots
  blockMaxLots_le : o.blockMaxLots ≤ 2147483647
  deterministicStepNanos_le : (o.deterministicStepNanos : Int) ≤ longMaxValue

namespace GenerationOptions

variable (o : GenerationOptions)

/-- A move of zero ticks is an outcome too. -/
def tickMoveOutcomes : Nat := o.maxTickMove + 1

def reversionStrengthQ32 : Nat := toQ32 o.meanReversionStrength

def spreadOutcomes : Nat := o.maxSpreadTicks - o.minSpreadTicks + 1

def lotOutcomes : Nat := o.maxLots - o.minLots + 1

def blockLotOutcomes : Nat := o.blockMaxLots - o.blockMinLots + 1

def blockThresholdQ32 : Nat := toQ32 o.blockTradeProbability

/-- The sum the mix is normalised by. -/
def mixTotal : ℚ := o.tradeShare + o.bidQuoteShare + o.askQuoteShare

def tradeThresholdQ32 : Nat := toQ32 (o.tradeShare / o.mixTotal)

def bidThresholdQ32 : Nat := toQ32 ((o.tradeShare + o.bidQuoteShare) / o.mixTotal)

end GenerationOptions

/-- Static reference data of one instrument. -/
structure SymbolDefinition where
  packed : Symbol8
  referencePrice : ℚ
  tickSize : ℚ
  lotSize : Nat

/-- What `Validate` accepts; a lot size is a 32-bit integer. -/
structure SymbolDefinition.Validated (d : SymbolDefinition) : Prop where
  referencePrice_pos : 0 < d.referencePrice
  tickSize_pos : 0 < d.tickSize
  one_le_lotSize : 1 ≤ d.lotSize
  lotSize_le : d.lotSize ≤ 2147483647

/-- An alias table: a bucket's own share, and who takes the rest of it. -/
structure WeightedSymbolPicker where
  thresholds : List Nat
  aliases : List Nat
  length_eq : thresholds.length = aliases.length
  length_pos : 0 < aliases.length
  aliases_lt : ∀ i ∈ aliases, i < aliases.length

/-- The symbol a 64-bit draw picks. -/
def WeightedSymbolPicker.next (p : WeightedSymbolPicker) (random : UInt64) : Nat :=
  let bucket := lemire (high random) p.aliases.length
  if low random < p.thresholds.getD bucket 0 then bucket else p.aliases.getD bucket 0

/-- The instruments, and the picker over their weights. -/
structure SymbolUniverse where
  symbols : List SymbolDefinition
  picker : WeightedSymbolPicker
  picker_length : picker.aliases.length = symbols.length

/-- What `LoadFrom` accepts: named and synthetic definitions alike pass `Validate`. -/
structure SymbolUniverse.Loaded (u : SymbolUniverse) : Prop where
  validated : ∀ d ∈ u.symbols, d.Validated
  nodup : (u.symbols.map (·.packed)).Nodup
  length_le : u.symbols.length ≤ 99999

/-- What a generator is built over. -/
structure GeneratorConfig where
  symbolUniverse : SymbolUniverse
  options : GenerationOptions := {}
  stopwatchFrequency : Nat := 1000000000

/-! ## State -/

/-- The walking state of one instrument. -/
structure SymbolState where
  midPriceScaled : Int := 0
  lastTradePriceScaled : Int := 0
  bidScaled : Int := 0
  askScaled : Int := 0
  referencePriceScaled : Int := 0
  lowerBandScaled : Int := 0
  upperBandScaled : Int := 0
  reversionSpanScaled : Int := 0
  reversionMultiplier : Nat := 0
  tickSizeScaled : Int := 0
  lotSize : Nat := 0
  tradesToday : UInt32 := 0
  deriving DecidableEq, Repr

/-- Every symbol's state, and the timestamp clock. -/
structure RandomWalkGenerator where
  states : List SymbolState
  anchorUnixNanos : Int := 0
  anchorStopwatchTicks : Int := 0
  deterministicNanos : Int := 0
  hasOpened : Bool := false
  deriving DecidableEq, Repr

/-! ## Opening a session -/

/-- A price on the tick grid, never below one tick. -/
def snapToTick (price tick : Int) : Option Int :=
  (divide (price + tick / 2) tick).map fun ticks => max 1 ticks * tick

/-- Half the width of the band: on the grid, and wide enough for the widest quote. -/
def bandSpan (o : GenerationOptions) (anchor tick : Int) : Option Int :=
  (divide (anchor * o.dailyBandBasisPoints / 10000) tick).map fun ticks =>
    let minimumSpan := o.maxSpreadTicks * tick
    if ticks * tick < minimumSpan then minimumSpan else ticks * tick

/-- The band, moved up off the floor where it would not be positive. -/
def bands (anchor tick span : Int) : Int × Int :=
  if anchor - span < tick then (tick, tick + 2 * span) else (anchor - span, anchor + span)

/-- The anchor of the new session: reference data at first, then where the walk stands. -/
def sessionAnchor (d : SymbolDefinition) (hasOpened : Bool) (s : SymbolState) : Option Int :=
  if hasOpened then some s.midPriceScaled
  else snapToTick (toScaled d.referencePrice) (toScaled d.tickSize)

/-- Open a session for one symbol. -/
def resetSymbol (o : GenerationOptions) (hasOpened : Bool) (d : SymbolDefinition)
    (s : SymbolState) : Option SymbolState :=
  let tick := toScaled d.tickSize
  (sessionAnchor d hasOpened s).bind fun anchor =>
  (bandSpan o anchor tick).bind fun span =>
  (divide longMaxValue span).map fun multiplier =>
    { midPriceScaled := anchor
      lastTradePriceScaled := anchor
      bidScaled := anchor - tick
      askScaled := anchor + tick
      referencePriceScaled := anchor
      lowerBandScaled := (bands anchor tick span).1
      upperBandScaled := (bands anchor tick span).2
      reversionSpanScaled := span
      reversionMultiplier := multiplier.toNat
      tickSizeScaled := tick
      lotSize := d.lotSize
      tradesToday := 0 }

/-- Open a session for every symbol, in the universe's order. -/
def resetSymbols (o : GenerationOptions) (hasOpened : Bool) :
    List SymbolDefinition → List SymbolState → Option (List SymbolState)
  | d :: ds, s :: ss =>
    (resetSymbol o hasOpened d s).bind fun t => (resetSymbols o hasOpened ds ss).map (t :: ·)
  | _, [] => some []
  | [], _ :: _ => none

/-- A reading of the wall clock and of the stopwatch. -/
structure ClockReading where
  unixTimeMilliseconds : Int
  timestamp : Int

/-- Pin the wall clock to the monotonic clock. -/
def anchorClock (o : GenerationOptions) (reading : ClockReading) (g : RandomWalkGenerator) :
    RandomWalkGenerator :=
  { g with
    anchorUnixNanos := reading.unixTimeMilliseconds * 1000000
    anchorStopwatchTicks := reading.timestamp
    deterministicNanos := o.deterministicEpochUnixNanos }

/-- Open a new trading session; the first one also anchors the clock. -/
def resetSession (c : GeneratorConfig) (reading : ClockReading) (g : RandomWalkGenerator) :
    Option RandomWalkGenerator :=
  (resetSymbols c.options g.hasOpened c.symbolUniverse.symbols g.states).map fun states =>
    let t := { g with states }
    if g.hasOpened then t else { anchorClock c.options reading t with hasOpened := true }

/-- Build a generator: fresh states, and the first session opened. -/
def construct (c : GeneratorConfig) (reading : ClockReading) : Option RandomWalkGenerator :=
  resetSession c reading { states := c.symbolUniverse.symbols.map fun _ => {} }

/-! ## One event -/

/-- The draws of one event; the last is taken only for a trade. -/
structure Draws where
  pick : UInt64
  walk : UInt64
  micro : UInt64
  size : UInt64
  print : UInt64

/-- What one event puts on the tape. -/
structure TapeRecord where
  messageType : FeedMessageType
  flags : UInt16 := 0
  quantity : UInt32
  sequenceNumber : UInt64 := 0
  exchangeTimestampNanos : Int
  priceScaled : Int
  symbol : Symbol8
  deriving DecidableEq, Repr

section Event

variable (o : GenerationOptions) (d : Draws) (s : SymbolState)

/-- How far the price has travelled from the session's anchor. -/
def SymbolState.deviation : Int := s.midPriceScaled - s.referencePriceScaled

/-- The deviation over the span in Q31, saturating at the band edge. -/
def SymbolState.pull : Nat :=
  let product := s.deviation.natAbs * s.reversionMultiplier % 18446744073709551616
  if product / 4294967296 > coinHalf then coinHalf else product / 4294967296

/-- The coins below this move the price towards the anchor. -/
def towardThreshold : Nat := coinHalf + s.pull * o.reversionStrengthQ32 / 4294967296

/-- Above the anchor, closing the gap means moving down; at or below it, up. -/
def moveUp : Bool :=
  xor (decide (low d.walk < towardThreshold o s)) (decide (s.deviation > 0))

/-- The size of the move, in ticks. -/
def moveTicks : Nat := lemire (high d.walk) o.tickMoveOutcomes

/-- Where the walk goes before the band holds it. -/
def unclampedMid : Int :=
  s.midPriceScaled +
    (if moveUp o d s then moveTicks o d * s.tickSizeScaled else -(moveTicks o d) * s.tickSizeScaled)

/-- Where the walk goes. -/
def nextMid : Int :=
  if unclampedMid o d s > s.upperBandScaled then s.upperBandScaled
  else if unclampedMid o d s < s.lowerBandScaled then s.lowerBandScaled
  else unclampedMid o d s

/-- The width of the quote, in ticks. -/
def spreadTicks : Nat := o.minSpreadTicks + lemire (high d.micro) o.spreadOutcomes

/-- The quote around a mid, the half-spread below it rounded up. -/
def quoteAround (mid : Int) : Int × Int :=
  let bid := mid - ((spreadTicks o d + 1) / 2 : Nat) * s.tickSizeScaled
  (bid, bid + spreadTicks o d * s.tickSizeScaled)

/-- Slide a quote back inside the band. -/
def slide (quote : Int × Int) : Int × Int :=
  if quote.2 > s.upperBandScaled then
    let shift := quote.2 - s.upperBandScaled
    (quote.1 - shift, quote.2 - shift)
  else if quote.1 < s.lowerBandScaled then
    let shift := s.lowerBandScaled - quote.1
    (quote.1 + shift, quote.2 + shift)
  else quote

/-- The book after the event. -/
def nextQuote : Int × Int := slide s (quoteAround o d s (nextMid o d s))

/-- The lots of the event: a block, or the normal size. -/
def lots : Nat :=
  if low d.size < o.blockThresholdQ32 then
    o.blockMinLots + lemire (high d.size) o.blockLotOutcomes
  else o.minLots + lemire (high d.size) o.lotOutcomes

/-- The shares of the event. -/
def quantity : UInt32 := UInt32.ofNat (lots o d * s.lotSize)

/-- The type of the message. -/
def messageType : FeedMessageType :=
  if low d.micro < o.tradeThresholdQ32 then .trade
  else if low d.micro < o.bidThresholdQ32 then .bidQuote
  else .askQuote

/-- The price of the message: at or between the quotes for a print, a quote otherwise. -/
def eventPrice : Int :=
  match messageType o d with
  | .trade =>
    (nextQuote o d s).1 + lemire (high d.print) (spreadTicks o d + 1) * s.tickSizeScaled
  | .bidQuote => (nextQuote o d s).1
  | .askQuote | .heartbeat | .sessionStart => (nextQuote o d s).2

/-- The symbol's state after the event. -/
def nextSymbol : SymbolState :=
  let quoted := { s with
    midPriceScaled := nextMid o d s
    bidScaled := (nextQuote o d s).1
    askScaled := (nextQuote o d s).2 }
  match messageType o d with
  | .trade => { quoted with
      lastTradePriceScaled := eventPrice o d s
      tradesToday := s.tradesToday + 1 }
  | .bidQuote | .askQuote | .heartbeat | .sessionStart => quoted

end Event

/-- Exact nanoseconds per stopwatch tick, or zero when there are none. -/
def nanosPerStopwatchTick (frequency : Nat) : Int :=
  if 1000000000 % frequency = 0 then 1000000000 / frequency else 0

/-- Stopwatch ticks to nanoseconds, whole seconds first. -/
def scaleTicksToNanos (frequency : Nat) (elapsed : Int) : Int :=
  let seconds := elapsed / frequency
  let remainder := elapsed - seconds * frequency
  seconds * 1000000000 + remainder * 1000000000 / frequency

/-- The event time, and the generator with its clock moved. -/
def nextTimestampNanos (c : GeneratorConfig) (timestamp : Int) (g : RandomWalkGenerator) :
    Int × RandomWalkGenerator :=
  if c.options.deterministicTimestamps then
    (g.deterministicNanos,
      { g with deterministicNanos := g.deterministicNanos + c.options.deterministicStepNanos })
  else
    let elapsed := timestamp - g.anchorStopwatchTicks
    (if nanosPerStopwatchTick c.stopwatchFrequency ≠ 0 then
      g.anchorUnixNanos + elapsed * nanosPerStopwatchTick c.stopwatchFrequency
    else g.anchorUnixNanos + scaleTicksToNanos c.stopwatchFrequency elapsed, g)

/-- Produce one record and advance the state of the symbol it belongs to. -/
def next (c : GeneratorConfig) (d : Draws) (timestamp : Int) (g : RandomWalkGenerator) :
    Option (Nat × TapeRecord × RandomWalkGenerator) :=
  let index := c.symbolUniverse.picker.next d.pick
  match g.states[index]?, c.symbolUniverse.symbols[index]? with
  | some s, some definition =>
    let clock := nextTimestampNanos c timestamp g
    some (index, {
        messageType := messageType c.options d
        quantity := quantity c.options d s
        exchangeTimestampNanos := clock.1
        priceScaled := eventPrice c.options d s
        symbol := definition.packed },
      { clock.2 with states := g.states.set index (nextSymbol c.options d s) })
  | _, _ => none

end Tckr.Generation
