import Tckr.Exchange.Protocol.Symbol

/-!
# Feed records and the frame writer

One tick record, the session identifier, and the three writers. A writer returns
the bytes it puts at the front of the destination; the destination enters only
through its length. Every multi-byte integer is little-endian except the three
leading fields of the identifier, which travel in RFC 4122 byte order.
-/

namespace Tckr.Protocol

/-- A globally unique identifier with the fields of its usual layout. -/
structure Guid where
  a : UInt32
  b : UInt16
  c : UInt16
  d : UInt8
  e : UInt8
  f : UInt8
  g : UInt8
  h : UInt8
  i : UInt8
  j : UInt8
  k : UInt8
  deriving DecidableEq, Repr, Inhabited

/-- The sixteen bytes in RFC 4122 order. -/
def Guid.bigEndianBytes (id : Guid) : Bytes :=
  (writeUInt32LittleEndian id.a).reverse ++ (writeUInt16LittleEndian id.b).reverse ++
    (writeUInt16LittleEndian id.c).reverse ++
    [id.d, id.e, id.f, id.g, id.h, id.i, id.j, id.k]

/-- The identifier of sixteen bytes in RFC 4122 order. -/
def Guid.ofBigEndianBytes (source : Bytes) : Guid where
  a := readUInt32LittleEndian (source.take 4).reverse
  b := readUInt16LittleEndian ((source.drop 4).take 2).reverse
  c := readUInt16LittleEndian ((source.drop 6).take 2).reverse
  d := source.getD 8 0
  e := source.getD 9 0
  f := source.getD 10 0
  g := source.getD 11 0
  h := source.getD 12 0
  i := source.getD 13 0
  j := source.getD 14 0
  k := source.getD 15 0

/-- One tick on the exchange feed. -/
structure FeedRecord where
  /-- Trade, bid or ask. -/
  messageType : FeedMessageType
  /-- Bit field; bit 0 marks an auction print. -/
  flags : UInt16
  /-- Shares. -/
  quantity : UInt32
  /-- Monotonic counter, per connection, starting at 1. -/
  sequenceNumber : UInt64
  /-- Exchange-side event time, Unix epoch nanoseconds. -/
  exchangeTimestampNanos : Int64
  /-- Price in fixed point. -/
  priceScaled : Int64
  /-- The instrument. -/
  symbol : Symbol8
  deriving DecidableEq, Repr

/-- Wire format version this build reads and writes. -/
def currentVersion : UInt8 := 1

/-- Bytes of length prefix ahead of every payload. -/
abbrev lengthPrefixSize : Nat := 4

/-- Payload bytes in a trade or quote message. -/
abbrev tickPayloadSize : Nat := 40

/-- Payload bytes in a heartbeat message. -/
abbrev heartbeatPayloadSize : Nat := 24

/-- Payload bytes in a session-start message. -/
abbrev sessionStartPayloadSize : Nat := 32

/-- Total wire bytes of a tick frame. -/
abbrev tickFrameSize : Nat := lengthPrefixSize + tickPayloadSize

/-- Total wire bytes of a heartbeat frame. -/
abbrev heartbeatFrameSize : Nat := lengthPrefixSize + heartbeatPayloadSize

/-- Total wire bytes of a session-start frame. -/
abbrev sessionStartFrameSize : Nat := lengthPrefixSize + sessionStartPayloadSize

/-- The destination must hold the whole frame. -/
def ensureCapacity (destination required : Nat) : Except ArgumentException Unit :=
  if destination < required then .error (.destination required destination) else .ok ()

/-- The payload of a tick message. -/
def tickPayload (record : FeedRecord) : Bytes :=
  [currentVersion, record.messageType.toByte] ++
    writeUInt16LittleEndian record.flags ++
    writeUInt32LittleEndian record.quantity ++
    writeUInt64LittleEndian record.sequenceNumber ++
    writeInt64LittleEndian record.exchangeTimestampNanos ++
    writeInt64LittleEndian record.priceScaled ++
    record.symbol.writeTo

/-- The payload of a heartbeat. -/
def heartbeatPayload (lastSeq : UInt64) (timestampNanos : Int64) : Bytes :=
  [currentVersion, FeedMessageType.heartbeat.toByte] ++
    writeUInt16LittleEndian 0 ++
    writeUInt32LittleEndian 0 ++
    writeUInt64LittleEndian lastSeq ++
    writeInt64LittleEndian timestampNanos

/-- The payload of a session-start message. -/
def sessionStartPayload (sessionId : Guid) (heartbeatMs : UInt32) (startNanos : Int64) : Bytes :=
  [currentVersion, FeedMessageType.sessionStart.toByte] ++
    writeUInt16LittleEndian 0 ++
    writeUInt32LittleEndian heartbeatMs ++
    sessionId.bigEndianBytes ++
    writeInt64LittleEndian startNanos

/-- Write a record as a framed tick message. -/
def writeTick (destination : Nat) (record : FeedRecord) : Except ArgumentException Bytes := do
  ensureCapacity destination tickFrameSize
  if !record.messageType.isTick then .error (.record record.messageType)
  else .ok (writeUInt32LittleEndian (UInt32.ofNat tickPayloadSize) ++ tickPayload record)

/-- Write a heartbeat frame. -/
def writeHeartbeat (destination : Nat) (lastSeq : UInt64) (timestampNanos : Int64) :
    Except ArgumentException Bytes := do
  ensureCapacity destination heartbeatFrameSize
  .ok (writeUInt32LittleEndian (UInt32.ofNat heartbeatPayloadSize) ++
    heartbeatPayload lastSeq timestampNanos)

/-- Write the session-start frame that opens every accepted connection. -/
def writeSessionStart (destination : Nat) (sessionId : Guid) (heartbeatMs : UInt32)
    (startNanos : Int64) : Except ArgumentException Bytes := do
  ensureCapacity destination sessionStartFrameSize
  .ok (writeUInt32LittleEndian (UInt32.ofNat sessionStartPayloadSize) ++
    sessionStartPayload sessionId heartbeatMs startNanos)

@[simp] theorem Guid.bigEndianBytes_length (id : Guid) : id.bigEndianBytes.length = 16 := by
  simp only [Guid.bigEndianBytes, List.length_append, List.length_reverse,
    writeUInt32LittleEndian_length, writeUInt16LittleEndian_length, List.length_cons,
    List.length_nil]

@[simp] theorem tickPayload_length (record : FeedRecord) :
    (tickPayload record).length = tickPayloadSize := by
  simp only [tickPayload, List.length_append, List.length_cons, List.length_nil,
    writeUInt16LittleEndian_length, writeUInt32LittleEndian_length,
    writeUInt64LittleEndian_length, writeInt64LittleEndian_length, Symbol8.writeTo_length]
  rfl

@[simp] theorem heartbeatPayload_length (lastSeq : UInt64) (timestampNanos : Int64) :
    (heartbeatPayload lastSeq timestampNanos).length = heartbeatPayloadSize := by
  simp only [heartbeatPayload, List.length_append, List.length_cons, List.length_nil,
    writeUInt16LittleEndian_length, writeUInt32LittleEndian_length,
    writeUInt64LittleEndian_length, writeInt64LittleEndian_length]

@[simp] theorem sessionStartPayload_length (sessionId : Guid) (heartbeatMs : UInt32)
    (startNanos : Int64) :
    (sessionStartPayload sessionId heartbeatMs startNanos).length = sessionStartPayloadSize := by
  simp only [sessionStartPayload, List.length_append, List.length_cons, List.length_nil,
    writeUInt16LittleEndian_length, writeUInt32LittleEndian_length,
    writeInt64LittleEndian_length, Guid.bigEndianBytes_length]

/-- A tick record always fits a destination of the frame's size. -/
theorem writeTick_eq {destination : Nat} {record : FeedRecord}
    (hd : tickFrameSize ≤ destination) (ht : record.messageType.isTick = true) :
    writeTick destination record =
      .ok (writeUInt32LittleEndian (UInt32.ofNat tickPayloadSize) ++ tickPayload record) := by
  simp only [writeTick, ensureCapacity, Nat.not_lt.mpr hd, ite_false, ht, Bool.not_true,
    Bool.false_eq_true]
  rfl

/-- A heartbeat always fits a destination of the frame's size. -/
theorem writeHeartbeat_eq {destination : Nat} (hd : heartbeatFrameSize ≤ destination)
    (lastSeq : UInt64) (timestampNanos : Int64) :
    writeHeartbeat destination lastSeq timestampNanos =
      .ok (writeUInt32LittleEndian (UInt32.ofNat heartbeatPayloadSize) ++
        heartbeatPayload lastSeq timestampNanos) := by
  simp only [writeHeartbeat, ensureCapacity, Nat.not_lt.mpr hd, ite_false]
  rfl

/-- A session-start frame always fits a destination of its size. -/
theorem writeSessionStart_eq {destination : Nat} (hd : sessionStartFrameSize ≤ destination)
    (sessionId : Guid) (heartbeatMs : UInt32) (startNanos : Int64) :
    writeSessionStart destination sessionId heartbeatMs startNanos =
      .ok (writeUInt32LittleEndian (UInt32.ofNat sessionStartPayloadSize) ++
        sessionStartPayload sessionId heartbeatMs startNanos) := by
  simp only [writeSessionStart, ensureCapacity, Nat.not_lt.mpr hd, ite_false]
  rfl

/-- The identifier reads back from its RFC 4122 bytes. -/
@[simp] theorem Guid.ofBigEndianBytes_bigEndianBytes (id : Guid) :
    ofBigEndianBytes id.bigEndianBytes = id := by
  obtain ⟨a, b, c, d, e, f, g, h, i, j, k⟩ := id
  have ha := readUInt32LittleEndian_write a []
  have hb := readUInt16LittleEndian_write b []
  have hc := readUInt16LittleEndian_write c []
  rw [List.append_nil] at ha hb hc
  have la := writeUInt32LittleEndian_length a
  have lb := writeUInt16LittleEndian_length b
  have lc := writeUInt16LittleEndian_length c
  rw [bigEndianBytes]
  -- With the three reordered fields spelled out, every slice is a literal list.
  match hwa : writeUInt32LittleEndian a, la with
  | [a0, a1, a2, a3], _ =>
    match hwb : writeUInt16LittleEndian b, lb with
    | [b0, b1], _ =>
      match hwc : writeUInt16LittleEndian c, lc with
      | [c0, c1], _ =>
        rw [hwa] at ha
        rw [hwb] at hb
        rw [hwc] at hc
        change Guid.mk (readUInt32LittleEndian [a0, a1, a2, a3]) (readUInt16LittleEndian [b0, b1])
          (readUInt16LittleEndian [c0, c1]) d e f g h i j k = _
        rw [ha, hb, hc]

end Tckr.Protocol
