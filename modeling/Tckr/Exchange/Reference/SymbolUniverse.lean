import Mathlib.Data.List.Sort
import Mathlib.Data.Nat.Digits.Defs
import Tckr.Core.Collections
import Tckr.Exchange.Protocol.Symbol
import Tckr.Exchange.Generation.Quantity

/-!
# Loading the symbol universe

The universe is loaded from a parsed array of symbols: every element is read,
validated and packed in turn, the named ones are sorted and truncated, the rest is
padded with synthetic ones, and two indexes are built. A decimal is an exact
rational. What doubles round to, the power of the Zipf tail and the conversion of a
double to a decimal belong to the platform and are a parameter; a double read from
the file may be infinite or no number.
-/

namespace Tckr.Reference

open Protocol Generation

/-! ## The input -/

/-- A double. -/
inductive Double where
  | finite (value : ℚ)
  | infinite (negative : Bool)
  | nan
  deriving DecidableEq

/-- A finite value above zero. -/
def Double.isPositive : Double → Bool
  | .finite value => decide (0 < value)
  | .infinite _ | .nan => false

/-- The value of a finite double. -/
def Double.value : Double → ℚ
  | .finite value => value
  | .infinite _ | .nan => 0

/-- An element of the array: an object, with the properties that have the type they are read as. -/
inductive JsonElement where
  | object (symbol name : Option Text) (referencePrice tickSize : Option ℚ)
      (lotSize : Option Int) (weight : Option Double)
  | other
  deriving DecidableEq

/-- The properties of an element. -/
inductive Property where
  | symbol | name | referencePrice | tickSize | lotSize | weight
  deriving DecidableEq, Repr

/-- Where a definition comes from. -/
inductive Origin where
  | element (ordinal : Nat)
  | syntheticPadding
  deriving DecidableEq, Repr

/-- Why reference data is refused. -/
inductive InvalidUniverse where
  | notAnObject (ordinal : Nat)
  | missing (ordinal : Nat) (property : Property)
  | invalid (origin : Origin) (symbol : Text) (property : Property)
  | noSymbols
  | listedTwice (symbol : Text)
  deriving DecidableEq, Repr

/-- What loading throws. -/
inductive LoadException where
  | outOfRange
  | invalidData (e : InvalidUniverse)
  | argument (e : ArgumentException)
  /-- A key that a dictionary already holds. -/
  | duplicateKey
  deriving DecidableEq, Repr

/-! ## One definition -/

/-- Static reference data of one instrument, as it is listed. -/
structure SymbolListing where
  symbol : Text
  name : Text
  referencePrice : ℚ
  tickSize : ℚ
  lotSize : Int
  weight : Double
  packed : Symbol8 := ⟨0⟩
  deriving DecidableEq

/-- An uppercase ASCII letter or a digit. -/
def isListedChar (c : UInt16) : Bool := 0x41 ≤ c && c ≤ 0x5A || 0x30 ≤ c && c ≤ 0x39

/-- One to eight uppercase ASCII letters or digits. -/
def isTicker (text : Text) : Bool :=
  decide (1 ≤ text.length) && decide (text.length ≤ 8) && text.all isListedChar

/-- A line feed. -/
def lineFeed : UInt16 := 0x0A

/-- `^[A-Z0-9]{1,8}$`, whose end is the end of the text or a line feed before it. -/
def symbolRegexIsMatch (text : Text) : Bool :=
  isTicker text || text.getLast? == some lineFeed && isTicker text.dropLast

/-- The characters of Unicode's white space. -/
def isWhiteSpace (c : UInt16) : Bool :=
  c = 0x20 || 0x09 ≤ c && c ≤ 0x0D || c = 0x85 || c = 0xA0 || c = 0x1680 ||
    0x2000 ≤ c && c ≤ 0x200A || c = 0x2028 || c = 0x2029 || c = 0x202F || c = 0x205F || c = 0x3000

namespace SymbolListing

variable (origin : Origin) (d : SymbolListing)

/-- The first unusable field, if any. -/
def firstInvalid : Option Property :=
  if !symbolRegexIsMatch d.symbol then some .symbol
  else if d.name.all isWhiteSpace then some .name
  else if d.referencePrice ≤ 0 then some .referencePrice
  else if d.tickSize ≤ 0 then some .tickSize
  else if d.lotSize ≤ 0 then some .lotSize
  else if !d.weight.isPositive then some .weight
  else none

/-- Throw if any field is unusable. -/
def validate : Except LoadException Unit :=
  match d.firstInvalid with
  | some property => .error (.invalidData (.invalid origin d.symbol property))
  | none => .ok ()

/-- A copy with the symbol packed. -/
def withPackedSymbol : Except LoadException SymbolListing :=
  match Symbol8.fromAscii d.symbol with
  | .ok packed => .ok { d with packed }
  | .error e => .error (.argument e)

/-- Validate, then pack. -/
def admitted : Except LoadException SymbolListing :=
  match d.validate origin with
  | .error e => .error e
  | .ok () => d.withPackedSymbol

end SymbolListing

/-! ## The named symbols -/

/-- Read the properties of an element, in order. -/
def JsonElement.read (ordinal : Nat) : JsonElement → Except InvalidUniverse SymbolListing
  | .other => .error (.notAnObject ordinal)
  | .object symbol name referencePrice tickSize lotSize weight =>
    match symbol, name, referencePrice, tickSize, lotSize, weight with
    | none, _, _, _, _, _ => .error (.missing ordinal .symbol)
    | _, none, _, _, _, _ => .error (.missing ordinal .name)
    | _, _, none, _, _, _ => .error (.missing ordinal .referencePrice)
    | _, _, _, none, _, _ => .error (.missing ordinal .tickSize)
    | _, _, _, _, none, _ => .error (.missing ordinal .lotSize)
    | _, _, _, _, _, none => .error (.missing ordinal .weight)
    | some symbol, some name, some referencePrice, some tickSize, some lotSize, some weight =>
      .ok { symbol, name, referencePrice, tickSize, lotSize, weight }

/-- Read, validate and pack one element. -/
def JsonElement.load (ordinal : Nat) (e : JsonElement) : Except LoadException SymbolListing :=
  match e.read ordinal with
  | .error reason => .error (.invalidData reason)
  | .ok d => d.admitted (.element ordinal)

/-- The elements of the array, in order; the first that is refused ends the reading. -/
def parseElements (ordinal : Nat) : List JsonElement → Except LoadException (List SymbolListing)
  | [] => .ok []
  | e :: es =>
    match e.load ordinal with
    | .error reason => .error reason
    | .ok d => (parseElements (ordinal + 1) es).map (d :: ·)

/-- The named symbols; there must be one. -/
def parseNamed (array : List JsonElement) : Except LoadException (List SymbolListing) :=
  match parseElements 0 array with
  | .error reason => .error reason
  | .ok [] => .error (.invalidData .noSymbols)
  | .ok (d :: ds) => .ok (d :: ds)

/-! ## The synthetic padding -/

/-- The floating-point arithmetic of the platform. -/
structure Arithmetic where
  /-- The double nearest to an exact result. -/
  round : ℚ → ℚ
  /-- `Math.Pow(rank, 1.1)` -/
  pow : Nat → ℚ
  /-- The decimal that a double in `[0, 1)` converts to. -/
  toDecimal : ℚ → ℚ

/-- What is relied on: rounding keeps the order and what is a double already, and the powers of
the ranks grow from one. -/
structure Arithmetic.Lawful (a : Arithmetic) : Prop where
  round_mono : ∀ x y, x ≤ y → a.round x ≤ a.round y
  round_idem : ∀ x, a.round (a.round x) = a.round x
  round_zero : a.round 0 = 0
  round_one : a.round 1 = 1
  one_le_pow : ∀ rank, 1 ≤ rank → 1 ≤ a.pow rank
  pow_mono : ∀ rank rank', rank ≤ rank' → a.pow rank ≤ a.pow rank'

/-- One step of SplitMix64: the draw, and the state after it. -/
def splitMix64 (state : UInt64) : UInt64 × UInt64 :=
  let state := state + 0x9E3779B97F4A7C15
  let z := (state ^^^ (state >>> 30)) * 0xBF58476D1CE4E5B9
  let z := (z ^^^ (z >>> 27)) * 0x94D049BB133111EB
  (z ^^^ (z >>> 31), state)

/-- A uniform double in `[0, 1)`, from the top 53 bits. -/
def nextDouble (draw : UInt64) : ℚ := (draw >>> 11).toNat / 9007199254740992

/-- Banded tick sizes. -/
def tickSizeFor (price : ℚ) : ℚ :=
  if price < 10 then 1 / 1000 else if price < 50 then 1 / 100
  else if price < 200 then 1 / 20 else 1 / 10

/-- Banded lot sizes. -/
def lotSizeFor (price : ℚ) : Int :=
  if price < 3 then 1000 else if price < 10 then 500 else if price < 200 then 100 else 10

/-- A price on a tick grid, at one tick or more. -/
def snap (value tick : ℚ) : ℚ := max tick (roundAwayFromZero (value / tick) * tick)

/-- A price on the tick grid of its band. -/
def quantiseToTick (price : ℚ) : ℚ :=
  let snapped := snap price (tickSizeFor price)
  snap snapped (tickSizeFor snapped)

/-- A rank in four decimal digits or more. -/
def rankDigits (rank : Nat) : Text :=
  let digits := (Nat.digits 10 rank).reverse.map fun d => (UInt16.ofNat (0x30 + d))
  List.replicate (4 - digits.length) 0x30 ++ digits

/-- `SYN` and the rank. -/
def syntheticSymbol (rank : Nat) : Text := [0x53, 0x59, 0x4E] ++ rankDigits rank

/-- `Synthetic Instrument` and the rank. -/
def syntheticName (rank : Nat) : Text :=
  "Synthetic Instrument ".toList.map (fun c => UInt16.ofNat c.toNat) ++ rankDigits rank

/-- The weight at the head of the synthetic tail. -/
def headWeight (a : Arithmetic) (leastNamedWeight : ℚ) : ℚ :=
  a.round (leastNamedWeight * a.round (9 / 10))

/-- A synthetic instrument of the tail. -/
def syntheticListing (a : Arithmetic) (leastNamedWeight : ℚ) (rank : Nat) (draw : UInt64) :
    SymbolListing :=
  let price := quantiseToTick (5 + a.toDecimal (nextDouble draw) * (500 - 5))
  { symbol := syntheticSymbol rank
    name := syntheticName rank
    referencePrice := price
    tickSize := tickSizeFor price
    lotSize := lotSizeFor price
    weight := .finite (a.round (headWeight a leastNamedWeight / a.pow rank)) }

/-- So many synthetic instruments, from a rank on. -/
def syntheticTail (a : Arithmetic) (leastNamedWeight : ℚ) :
    Nat → Nat → UInt64 → Except LoadException (List SymbolListing)
  | 0, _, _ => .ok []
  | count + 1, rank, random =>
    match (syntheticListing a leastNamedWeight rank (splitMix64 random).1).admitted
        .syntheticPadding with
    | .error reason => .error reason
    | .ok d =>
      (syntheticTail a leastNamedWeight count (rank + 1) (splitMix64 random).2).map (d :: ·)

/-! ## The universe -/

/-- The definitions, and the indexes by ticker and by packed symbol. -/
structure LoadedUniverse where
  definitions : List SymbolListing
  packed : List Symbol8
  indexBySymbol : OrderedMap Text Nat
  indexByPacked : OrderedMap Symbol8 Nat

/-- The index of a ticker. -/
def LoadedUniverse.tryGetIndex (u : LoadedUniverse) (symbol : Text) : Option Nat :=
  u.indexBySymbol.get? symbol

/-- The index of a packed symbol. -/
def LoadedUniverse.tryGetPackedIndex (u : LoadedUniverse) (symbol : Symbol8) : Option Nat :=
  u.indexByPacked.get? symbol

/-- Add keys with their positions; a key that is there already throws. -/
def addAll {κ : Type} [DecidableEq κ] (index : Nat) :
    List κ → OrderedMap κ Nat → Except LoadException (OrderedMap κ Nat)
  | [], m => .ok m
  | key :: keys, m =>
    if key ∈ m.keys then .error .duplicateKey else addAll (index + 1) keys (m.set key index)

/-- Index the definitions. -/
def LoadedUniverse.build (definitions : List SymbolListing) :
    Except LoadException LoadedUniverse :=
  match addAll 0 (definitions.map (·.symbol)) OrderedMap.empty,
      addAll 0 (definitions.map (·.packed)) OrderedMap.empty with
  | .ok indexBySymbol, .ok indexByPacked =>
    .ok { definitions, packed := definitions.map (·.packed), indexBySymbol, indexByPacked }
  | .error reason, _ => .error reason
  | .ok _, .error reason => .error reason

/-- The first ticker that is listed twice. -/
def firstListedTwice : List Text → List Text → Option Text
  | _, [] => none
  | seen, symbol :: symbols =>
    if symbol ∈ seen then some symbol else firstListedTwice (symbol :: seen) symbols

/-- The largest universe. -/
def maxSize : Nat := 99999

/-- Named symbols most active first, equal weights in file order. -/
def byWeight (named : List SymbolListing) : List SymbolListing :=
  named.insertionSort fun d d' => d'.weight.value ≤ d.weight.value

/-- Load a universe of a size from a parsed array of symbols. -/
def loadFrom (a : Arithmetic) (array : List JsonElement) (size : Nat) (seed : UInt64) :
    Except LoadException LoadedUniverse :=
  if size < 1 ∨ maxSize < size then .error .outOfRange
  else match parseNamed array with
  | .error reason => .error reason
  | .ok named =>
    let named := (byWeight named).take size
    let leastNamedWeight := (named.getLast?.map (·.weight.value)).getD 0
    match syntheticTail a leastNamedWeight (size - named.length) 1
        (seed ^^^ 0x53594E5449434B52) with
    | .error reason => .error reason
    | .ok tail =>
      match firstListedTwice [] ((named ++ tail).map (·.symbol)) with
      | some symbol => .error (.invalidData (.listedTwice symbol))
      | none => LoadedUniverse.build (named ++ tail)

end Tckr.Reference
