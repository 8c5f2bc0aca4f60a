import Tckr.Core.Bytes

/-!
# Message types and protocol errors

The wire values of the message types, and the two exceptions the codec throws:
an argument error for what a caller passes in, and an invalid-data error, with
its message, for what a peer sends.
-/

namespace Tckr.Protocol

/-- The payloads carried by the exchange feed. -/
inductive FeedMessageType
  | trade
  | bidQuote
  | askQuote
  | heartbeat
  | sessionStart
  deriving DecidableEq, Repr

/-- The wire value of a message type. -/
def FeedMessageType.toByte : FeedMessageType → UInt8
  | .trade => 1
  | .bidQuote => 2
  | .askQuote => 3
  | .heartbeat => 10
  | .sessionStart => 11

/-- The named message type of a wire value. -/
def FeedMessageType.ofByte? (b : UInt8) : Option FeedMessageType :=
  if b = 1 then some .trade
  else if b = 2 then some .bidQuote
  else if b = 3 then some .askQuote
  else if b = 10 then some .heartbeat
  else if b = 11 then some .sessionStart
  else none

/-- Trades and quotes share the tick layout; the session types do not. -/
def FeedMessageType.isTick : FeedMessageType → Bool
  | .trade | .bidQuote | .askQuote => true
  | .heartbeat | .sessionStart => false

/-- The name the exchange prints for a message type. -/
def FeedMessageType.name : FeedMessageType → String
  | .trade => "Trade"
  | .bidQuote => "BidQuote"
  | .askQuote => "AskQuote"
  | .heartbeat => "Heartbeat"
  | .sessionStart => "SessionStart"

@[simp] theorem FeedMessageType.ofByte?_toByte (t : FeedMessageType) :
    ofByte? t.toByte = some t := by
  cases t <;> rfl

/-- A wire value names at most one message type. -/
theorem FeedMessageType.toByte_of_ofByte? {b : UInt8} {t : FeedMessageType}
    (h : ofByte? b = some t) : t.toByte = b := by
  unfold ofByte? at h
  split_ifs at h with h1 h2 h3 h4 h5 <;> cases h
  · exact h1.symm
  · exact h2.symm
  · exact h3.symm
  · exact h4.symm
  · exact h5.symm

/-- Text as the source's strings hold it: UTF-16 code units. -/
abbrev Text := List UInt16

/-- What the codec refuses from its own caller. -/
inductive ArgumentException
  /-- The symbol is empty or longer than its field. -/
  | symbolLength (length : Nat)
  /-- The symbol has a space or a non-printable character. -/
  | symbolCharacter (symbol : Text) (index : Nat)
  /-- The span handed over as a symbol field has the wrong length. -/
  | symbolField (length : Nat)
  /-- The destination is too small. -/
  | destination (required length : Nat)
  /-- The record is not a tick. -/
  | record (type : FeedMessageType)
  deriving DecidableEq, Repr

/-- What the codec refuses from the wire. -/
inductive InvalidDataException
  /-- The length prefix is out of range. -/
  | frameLength (declared : UInt32)
  /-- The frame's version byte is not the one this build speaks. -/
  | frameVersion (version : UInt8)
  /-- The frame's type byte names no message type. -/
  | unknownType (type : UInt8)
  /-- The length prefix disagrees with the fixed layout of the type. -/
  | frameSize (type : FeedMessageType) (declared : UInt32) (expected : Nat)
  /-- A tick payload has the wrong size. -/
  | tickSize (length : Nat)
  /-- A tick payload declares another version. -/
  | tickVersion (version : UInt8)
  /-- A tick payload's type byte is not a tick's. -/
  | notTick (type : UInt8)
  /-- A session payload has the wrong size. -/
  | payloadSize (expected : FeedMessageType) (size length : Nat)
  /-- A session payload's type byte is another one. -/
  | unexpectedType (expected : FeedMessageType) (type : UInt8)
  /-- The symbol field is all padding. -/
  | emptySymbol
  /-- The symbol field holds a non-printable byte. -/
  | symbolByte (value : UInt8) (index : Nat)
  /-- The symbol field has a byte behind its padding. -/
  | embeddedSpace (index : Nat) (value : UInt8)
  deriving DecidableEq, Repr

/-- The upper-case hexadecimal digit of a number below sixteen. -/
def hexDigit (n : Nat) : Char := if n < 10 then Char.ofNat (48 + n) else Char.ofNat (55 + n)

/-- A byte as two upper-case hexadecimal digits. -/
def hexByte (b : UInt8) : String :=
  String.ofList [hexDigit (b.toNat / 16), hexDigit (b.toNat % 16)]

/-- The exception text that reaches the probe's report and the log. -/
def InvalidDataException.message : InvalidDataException → String
  | .frameLength declared =>
      s!"Frame declares a {declared.toNat}-byte payload; the protocol allows 2 to 1024."
  | .frameVersion version =>
      s!"Frame declares wire version {version.toNat}; this build speaks version 1."
  | .unknownType type => s!"Unknown message type {type.toNat}."
  | .frameSize type declared expected =>
      s!"{type.name} frame declares {declared.toNat} payload bytes; its layout is {expected} bytes."
  | .tickSize length => s!"Tick payload is 40 bytes; got {length}."
  | .tickVersion version =>
      s!"Tick declares wire version {version.toNat}; this build speaks version 1."
  | .notTick type => s!"Message type {type.toNat} is not a tick."
  | .payloadSize expected size length =>
      s!"{expected.name} payload is {size} bytes; got {length}."
  | .unexpectedType expected type =>
      s!"Expected a {expected.name} payload; message type byte is {type.toNat}."
  | .emptySymbol => "Frame carries an empty symbol."
  | .symbolByte value index =>
      s!"Symbol byte 0x{hexByte value} at index {index} is not printable ASCII."
  | .embeddedSpace index value =>
      s!"Symbol has an embedded space; byte {index} is 0x{hexByte value}, expected padding."

/-- Either exception, where a method can throw both. -/
inductive FeedException
  | argument (e : ArgumentException)
  | invalidData (e : InvalidDataException)
  deriving DecidableEq, Repr

end Tckr.Protocol
