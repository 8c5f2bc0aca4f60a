import Mathlib.Data.List.Nodup
import Tckr.Core.Collections
import Tckr.Core.Figures
import Tckr.Exchange.Protocol.Writer

/-!
# The probe's table of symbols

Per-symbol counters in parallel arrays, indexed by a slot that a symbol gets at its
first tick. Arrays that are full double in length. Counts and prices are 64 bits wide
and wrap; the absolute value of the least number is an exception.
-/

namespace Tckr.FeedProbe

open Protocol

/-- Why a call throws. -/
inductive TableException where
  /-- `Math.Abs` of the least number. -/
  | overflow
  /-- `Array.Resize` to a negative length. -/
  | outOfRange
  deriving DecidableEq, Repr

/-- The greatest `int`; a product of lengths beyond it wraps to a negative one. -/
def maxInt : Nat := 2147483647

/-- Counters by slot. -/
structure SymbolTable where
  index : OrderedMap Symbol8 Nat := .empty
  symbols : List Symbol8
  counts : List Int64
  minPriceScaled : List Int64
  maxPriceScaled : List Int64
  lastPriceScaled : List Int64
  lastTimestampNanos : List Int64
  maxMoveScaled : List Int64
  slotCount : Nat := 0
  deriving DecidableEq

namespace SymbolTable

/-- An empty table. -/
def create (initialCapacity : Nat) : SymbolTable where
  symbols := List.replicate initialCapacity ⟨0⟩
  counts := List.replicate initialCapacity 0
  minPriceScaled := List.replicate initialCapacity 0
  maxPriceScaled := List.replicate initialCapacity 0
  lastPriceScaled := List.replicate initialCapacity 0
  lastTimestampNanos := List.replicate initialCapacity 0
  maxMoveScaled := List.replicate initialCapacity 0

/-- The capacity of a table that the probe creates. -/
def defaultCapacity : Nat := 512

/-- `Array.Resize` to a greater length; the new slots are zero. -/
def resize (newSize : Nat) (array : List Int64) : List Int64 :=
  array ++ List.replicate (newSize - array.length) 0

/-- Double every array. -/
def grow (t : SymbolTable) : Except TableException SymbolTable :=
  let newSize := t.symbols.length * 2
  if maxInt < newSize then .error .outOfRange
  else .ok { t with
    symbols := t.symbols ++ List.replicate (newSize - t.symbols.length) ⟨0⟩
    counts := resize newSize t.counts
    minPriceScaled := resize newSize t.minPriceScaled
    maxPriceScaled := resize newSize t.maxPriceScaled
    lastPriceScaled := resize newSize t.lastPriceScaled
    lastTimestampNanos := resize newSize t.lastTimestampNanos
    maxMoveScaled := resize newSize t.maxMoveScaled }

/-- The slot of a symbol, a fresh one at first sight. -/
def resolveSlot (t : SymbolTable) (symbol : Symbol8) : Except TableException (SymbolTable × Nat) :=
  match t.index.get? symbol with
  | some slot => .ok (t, slot)
  | none =>
    let slot := t.slotCount
    (if slot = t.symbols.length then t.grow else .ok t).map fun t =>
      ({ t with
        symbols := t.symbols.set slot symbol
        index := t.index.set symbol slot
        slotCount := t.slotCount + 1 }, slot)

/-- `Math.Abs`. -/
def mathAbs (value : Int64) : Except TableException Int64 :=
  if value = Int64.minValue then .error .overflow
  else .ok (if value < 0 then -value else value)

/-- The first price of a slot. -/
def recordFirst (t : SymbolTable) (slot : Nat) (priceScaled : Int64) : SymbolTable :=
  { t with
    minPriceScaled := t.minPriceScaled.set slot priceScaled
    maxPriceScaled := t.maxPriceScaled.set slot priceScaled
    lastPriceScaled := t.lastPriceScaled.set slot priceScaled }

/-- A later price of a slot, with its move. -/
def recordNext (t : SymbolTable) (slot : Nat) (priceScaled move : Int64) : SymbolTable :=
  { t with
    minPriceScaled :=
      if priceScaled < t.minPriceScaled.getD slot 0 then t.minPriceScaled.set slot priceScaled
      else t.minPriceScaled
    maxPriceScaled :=
      if t.maxPriceScaled.getD slot 0 < priceScaled then t.maxPriceScaled.set slot priceScaled
      else t.maxPriceScaled
    maxMoveScaled :=
      if t.maxMoveScaled.getD slot 0 < move then t.maxMoveScaled.set slot move
      else t.maxMoveScaled
    lastPriceScaled := t.lastPriceScaled.set slot priceScaled }

/-- Record one tick of a slot. -/
def recordAt (t : SymbolTable) (slot : Nat) (priceScaled : Int64) :
    Except TableException SymbolTable :=
  let count := t.counts.getD slot 0 + 1
  let t := { t with counts := t.counts.set slot count }
  if count = 1 then .ok (t.recordFirst slot priceScaled)
  else (mathAbs (priceScaled - t.lastPriceScaled.getD slot 0)).map
    (t.recordNext slot priceScaled)

/-- Record one tick of a symbol; the slot is returned. -/
def record (t : SymbolTable) (symbol : Symbol8) (priceScaled : Int64) :
    Except TableException (SymbolTable × Nat) :=
  (t.resolveSlot symbol).bind fun r => (r.1.recordAt r.2 priceScaled).map (·, r.2)

/-- Whether a timestamp did not go back. -/
def checkTimestampOrder (t : SymbolTable) (slot : Nat) (timestampNanos : Int64) :
    Bool × Int64 × SymbolTable :=
  let previousTimestampNanos := t.lastTimestampNanos.getD slot 0
  (decide (t.counts.getD slot 0 ≤ 1 ∨ previousTimestampNanos ≤ timestampNanos),
    previousTimestampNanos,
    { t with lastTimestampNanos := t.lastTimestampNanos.set slot timestampNanos })

/-- What the probe does with a tick; the order of timestamps is checked on request. -/
def handleTick (verifyOrder : Bool) (t : SymbolTable) (record : FeedRecord) :
    Except TableException SymbolTable :=
  (t.record record.symbol record.priceScaled).map fun r =>
    if verifyOrder then (r.1.checkTimestampOrder r.2 record.exchangeTimestampNanos).2.2 else r.1

/-- Take ticks in turn, until one throws. -/
def handleTicks (verifyOrder : Bool) (t : SymbolTable) :
    List FeedRecord → Except TableException SymbolTable
  | [] => .ok t
  | record :: ticks => (t.handleTick verifyOrder record).bind (handleTicks verifyOrder · ticks)

/-- The symbol of a slot. -/
def symbolAt (t : SymbolTable) (slot : Nat) : Symbol8 := t.symbols.getD slot ⟨0⟩

/-- The figures of a slot. -/
def figuresAt (t : SymbolTable) (slot : Nat) : Figures Int where
  count := (t.counts.getD slot 0).toInt
  least := (t.minPriceScaled.getD slot 0).toInt
  greatest := (t.maxPriceScaled.getD slot 0).toInt
  last := (t.lastPriceScaled.getD slot 0).toInt
  widest := (t.maxMoveScaled.getD slot 0).toInt

end SymbolTable

end Tckr.FeedProbe
