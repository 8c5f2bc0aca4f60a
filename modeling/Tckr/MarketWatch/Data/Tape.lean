import Tckr.Core.Collections
import Tckr.MarketWatch.Contracts.IsoUtc
import Tckr.MarketWatch.Contracts.Messages

/-!
# The simulated tape

A seeded random walk for every instrument: the live engine moves one instrument by
up to three ticks, and a whole session is reconstructed at once in 30-second slots.
Prices are integers scaled by four decimal places and never fall below one tick.
-/

namespace Tckr.MarketWatch

/-! ## Universe -/

/-- An instrument of the simulated universe. -/
structure SimSymbol where
  symbol : String
  name : String
  referencePrice : DecimalString
  tickSize : DecimalString
  lotSize : Nat
  /-- Its share of the tape, relative to the others'. -/
  weight : Nat
  deriving DecidableEq

namespace SimSymbol

/-- Digits its prices are written with. -/
def decimals (definition : SimSymbol) : Nat :=
  max definition.referencePrice.decimalPlaces definition.tickSize.decimalPlaces

theorem decimals_le (definition : SimSymbol) : definition.decimals ≤ scaleDigits :=
  Nat.max_le.mpr ⟨definition.referencePrice.decimalPlaces_le, definition.tickSize.decimalPlaces_le⟩

/-- A price of the instrument as it is written. -/
def decimalFromScaled (definition : SimSymbol) (scaled : Int) : DecimalString :=
  .fromScaledInt scaled definition.decimals definition.decimals_le

/-- The part of it the store is primed with. -/
def toDefinition (definition : SimSymbol) : SymbolDefinition where
  symbol := definition.symbol
  name := definition.name
  referencePrice := definition.referencePrice

end SimSymbol

/-! ## Randomness -/

/-- The seeded generator. -/
structure Mulberry32 where
  a : UInt32
  deriving DecidableEq, Repr

/-- What a raw draw is divided by. -/
def rollScale : Nat := 4294967296

/-- A draw: `raw / rollScale`, in `[0, 1)`. -/
structure Roll where
  raw : UInt32
  deriving DecidableEq, Repr

def mulberry32 (seed : Nat) : Mulberry32 := ⟨UInt32.ofNat seed⟩

namespace Mulberry32

def next (rng : Mulberry32) : Roll × Mulberry32 :=
  let a := rng.a + 0x6d2b79f5
  let t := (a ^^^ (a >>> 15)) * (a ||| 1)
  let t := t ^^^ (t + (t ^^^ (t >>> 7)) * (t ||| 61))
  (⟨t ^^^ (t >>> 14)⟩, ⟨a⟩)

end Mulberry32

namespace Roll

/-- `Math.floor(roll * n)`. -/
def below (roll : Roll) (n : Nat) : Nat := roll.raw.toNat * n / rollScale

/-- `roll < percent / 100`. -/
def under (roll : Roll) (percent : Nat) : Bool :=
  decide (roll.raw.toNat * 100 < percent * rollScale)

end Roll

/-- The instrument whose cumulative weight is the first to exceed `target / rollScale`. -/
def pickFrom (target : Nat) : Nat → List SimSymbol → Option SimSymbol
  | _, [] => none
  | running, definition :: rest =>
      if target < (running + definition.weight) * rollScale then some definition
      else pickFrom target (running + definition.weight) rest

/-- `WeightedPicker.pick`; an empty universe has nothing to pick. -/
def pick (symbols : List SimSymbol) (roll : Roll) : Option SimSymbol :=
  let total := symbols.foldl (fun total definition => total + definition.weight) 0
  (pickFrom (roll.raw.toNat * total) 0 symbols).or symbols.getLast?

/-- FNV-1a over the base seed, the symbol and the trading day. -/
def hashSeed (baseSeed : Nat) (symbol sessionDateKey : String) : UInt32 :=
  (toString baseSeed ++ ":" ++ symbol ++ ":" ++ sessionDateKey).toList.foldl
    (fun hash c => (hash ^^^ UInt32.ofNat c.toNat) * 0x01000193) 0x811c9dc5

/-! ## The walk -/

/-- Most ticks one slot of a reconstructed session can move. -/
def backfillMaxStepsPerSlot : Nat := 6

/-- Most ticks one live tick can move. -/
def liveMaxStepsPerTick : Nat := 4

def historySampleIntervalMs : Nat := 30000

def historyMaxPoints : Nat := 4000

/-- Ticks to move by, drifting back toward the opening price. Both draws are always
made. -/
def pickSignedSteps (rng : Mulberry32) (price openPrice : Int) (maxSteps : Nat) :
    Int × Mulberry32 :=
  let (stepRoll, rng) := rng.next
  let steps := stepRoll.below maxSteps
  let upPercent := if price > openPrice then 35 else if price < openPrice then 65 else 50
  let (directionRoll, rng) := rng.next
  (if steps = 0 then 0 else if directionRoll.under upPercent then (steps : Int) else -steps, rng)

/-- The session's opening price: the reference price moved by a gap of whole ticks of
at most 0.8 percent. -/
def auctionOpen (definition : SimSymbol) (seed : UInt32) : Int :=
  let reference := definition.referencePrice.toScaledInt
  let tick := definition.tickSize.toScaledInt
  let gapRoll := (Mulberry32.mk (seed ^^^ 0x5f3759df)).next.1
  let maxTicks := max 1 (reference * 8 / (tick * 1000))
  -- `Math.round((roll * 2 - 1) * maxTicks)`
  let gapTicks :=
    ((2 * (gapRoll.raw.toNat : Int) - rollScale) * maxTicks + rollScale / 2) / rollScale
  max (reference + tick * gapTicks) tick

structure HistorySample where
  t : Nat
  price : Int
  deriving DecidableEq

/-- Append a sample, dropping the oldest past the cap. -/
def recordSample (history : List HistorySample) (sample : HistorySample) : List HistorySample :=
  let history := history ++ [sample]
  if history.length > historyMaxPoints then history.tail else history

/-- A session as it is reconstructed up to some slot. -/
structure BackfilledSession where
  openPrice : Int
  price : Int
  high : Int
  low : Int
  volume : Nat
  history : List HistorySample
  deriving DecidableEq

/-- The move of one slot: the price, the range and the volume. -/
def backfillMove (definition : SimSymbol) (rng : Mulberry32) (session : BackfilledSession) :
    Mulberry32 × BackfilledSession :=
  let tick := definition.tickSize.toScaledInt
  let (signedSteps, rng) :=
    pickSignedSteps rng session.price session.openPrice backfillMaxStepsPerSlot
  let price := max (session.price + tick * signedSteps) tick
  let (lotsRoll, rng) := rng.next
  (rng, { session with
    price := price
    high := max session.high price
    low := min session.low price
    volume := session.volume + definition.lotSize * (1 + lotsRoll.below 10) })

/-- One pass of the loop: every slot but the first moves, and every slot is sampled. -/
def backfillSlot (definition : SimSymbol) (sessionOpenAt : Nat)
    (state : Mulberry32 × BackfilledSession) (slot : Nat) : Mulberry32 × BackfilledSession :=
  let (rng, session) :=
    if slot > 0 then backfillMove definition state.1 state.2 else state
  (rng, { session with
    history := recordSample session.history
      ⟨sessionOpenAt + slot * historySampleIntervalMs, session.price⟩ })

/-- The session up to `targetTime`, at the sampling interval. -/
def computeBackfilledSession (definition : SimSymbol) (sessionOpenAt targetTime : Nat)
    (seed : UInt32) : BackfilledSession :=
  let openPrice := auctionOpen definition seed
  let start : BackfilledSession := ⟨openPrice, openPrice, openPrice, openPrice, 0, []⟩
  let totalSlots := (targetTime - sessionOpenAt) / historySampleIntervalMs
  ((List.range (totalSlots + 1)).foldl (backfillSlot definition sessionOpenAt)
    (Mulberry32.mk seed, start)).2

/-! ## Runtime state -/

/-- The state the engine keeps for an instrument. -/
structure SymbolRuntime where
  definition : SimSymbol
  price : Int
  /-- The active session's opening price. -/
  openPrice : Int
  high : Int
  low : Int
  volume : Nat
  lastEventId : String
  lastTimestamp : String
  /-- The active session's samples, oldest first. -/
  history : List HistorySample
  deriving DecidableEq

namespace SymbolRuntime

def eventId (sequence : Nat) : String := "evt-" ++ padStart sequence 12

/-- The runtime a source is constructed with. -/
def create (definition : SimSymbol) : SymbolRuntime :=
  let reference := definition.referencePrice.toScaledInt
  ⟨definition, reference, reference, reference, reference, 0, eventId 0, toISOString 0, []⟩

/-- Overwrite the session from a backfill. -/
def backfill (runtime : SymbolRuntime) (baseSeed : Nat) (sessionDateKey : String)
    (sessionOpenAt targetTime : Nat) : SymbolRuntime :=
  let result := computeBackfilledSession runtime.definition sessionOpenAt targetTime
    (hashSeed baseSeed runtime.definition.symbol sessionDateKey)
  { runtime with
    openPrice := result.openPrice
    price := result.price
    high := result.high
    low := result.low
    volume := result.volume
    history := result.history
    lastTimestamp := toISOString targetTime
    lastEventId := "evt-bf-" ++ sessionDateKey ++ "-" ++ runtime.definition.symbol }

def sample (runtime : SymbolRuntime) (now : Nat) : SymbolRuntime :=
  { runtime with history := recordSample runtime.history ⟨now, runtime.price⟩ }

end SymbolRuntime

end Tckr.MarketWatch
