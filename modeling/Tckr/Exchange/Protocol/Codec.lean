import Tckr.Exchange.Protocol.Chunking

/-!
# The codec round trip

Messages and their encodings determine one another. Every stream of encoded
messages decodes to the messages with nothing left over, and every tick payload
the reader accepts is the payload the writer produces for the record it decodes to.
-/

namespace Tckr.Protocol

/-- What a frame carries, decoded. -/
inductive FeedMessage
  /-- A trade, bid or ask. -/
  | tick (record : FeedRecord)
  /-- The last sequence number and the send time. -/
  | heartbeat (lastSeq : UInt64) (timestampNanos : Int64)
  /-- The opening frame of a session. -/
  | sessionStart (sessionId : Guid) (heartbeatMs : UInt32) (startNanos : Int64)
  deriving DecidableEq, Repr

/-- The wire type of a message. -/
def FeedMessage.type : FeedMessage → FeedMessageType
  | .tick record => record.messageType
  | .heartbeat .. => .heartbeat
  | .sessionStart .. => .sessionStart

/-- The payload of a message. -/
def FeedMessage.payload : FeedMessage → Bytes
  | .tick record => tickPayload record
  | .heartbeat lastSeq timestampNanos => heartbeatPayload lastSeq timestampNanos
  | .sessionStart sessionId heartbeatMs startNanos =>
      sessionStartPayload sessionId heartbeatMs startNanos

/-- Encode a message into a destination of the given size. -/
def FeedMessage.write (destination : Nat) : FeedMessage → Except ArgumentException Bytes
  | .tick record => writeTick destination record
  | .heartbeat lastSeq timestampNanos => writeHeartbeat destination lastSeq timestampNanos
  | .sessionStart sessionId heartbeatMs startNanos =>
      writeSessionStart destination sessionId heartbeatMs startNanos

/-- Encode messages one behind the other. -/
def encodeAll : List FeedMessage → Except ArgumentException Bytes
  | [] => .ok []
  | m :: ms => do
      let frame ← m.write tickFrameSize
      let rest ← encodeAll ms
      .ok (frame ++ rest)

/-- Decode a payload by the type its frame declares. -/
def readPayload (type : FeedMessageType) (payload : ReadOnlySequence UInt8) :
    Except FeedException FeedMessage :=
  match type with
  | .trade | .bidQuote | .askQuote => (readTickSequence payload).map .tick
  | .heartbeat => match readHeartbeat payload.toList with
      | .error e => .error (.invalidData e)
      | .ok (lastSeq, timestampNanos) => .ok (.heartbeat lastSeq timestampNanos)
  | .sessionStart => match readSessionStart payload.toList with
      | .error e => .error (.invalidData e)
      | .ok (sessionId, heartbeatMs, startNanos) =>
          .ok (.sessionStart sessionId heartbeatMs startNanos)

/-- Extract and decode until no frame is complete, at most the given number of times. -/
def decodeWithin : Nat → ReadOnlySequence UInt8 →
    Except FeedException (List FeedMessage × ReadOnlySequence UInt8)
  | 0, buffer => .ok ([], buffer)
  | n + 1, buffer => match tryReadFrame buffer with
      | (_, .error e) => .error (.invalidData e)
      | (rest, .ok none) => .ok ([], rest)
      | (rest, .ok (some (type, payload))) => do
          let m ← readPayload type payload
          let out ← decodeWithin n rest
          .ok (m :: out.1, out.2)

/-- The messages of a buffer and what follows them. -/
def decode (buffer : ReadOnlySequence UInt8) :
    Except FeedException (List FeedMessage × ReadOnlySequence UInt8) :=
  decodeWithin buffer.length buffer

/-- A message the exchange can send: its symbol came out of one of the constructors
and its type is a tick's if it is a tick. -/
def FeedMessage.WellFormed : FeedMessage → Prop
  | .tick record => record.messageType.isTick = true ∧
      ((∃ text, Symbol8.fromAscii text = .ok record.symbol) ∨
        ∃ source, Symbol8.fromWire source = .ok record.symbol)
  | .heartbeat .. => True
  | .sessionStart .. => True

/-! ## Payloads -/

/-- A symbol either constructor produced reads back from its field. -/
theorem Symbol8.fromWire_writeTo {s : Symbol8}
    (h : (∃ text, fromAscii text = .ok s) ∨ ∃ source, fromWire source = .ok s) :
    fromWire s.writeTo = .ok s := by
  rw [fromWire_eq_ok_iff_writeTo]
  refine ⟨?_, rfl⟩
  rcases h with ⟨text, ht⟩ | ⟨source, hs⟩
  · exact (fromAscii_eq_ok_iff_toString.mp ht).1
  · exact (fromWire_eq_ok_iff_writeTo.mp hs).1

/-- The payload of a tick decodes to its record. -/
theorem readTick_tickPayload {record : FeedRecord} (ht : record.messageType.isTick = true)
    (hs : Symbol8.fromWire record.symbol.writeTo = .ok record.symbol) :
    readTick (tickPayload record) = .ok record := by
  have hlen := tickPayload_length record
  have hsymbol : ((tickPayload record).drop 32).take Symbol8.length = record.symbol.writeTo := by
    simp [tickPayload, List.drop_append, List.drop_of_length_le, List.take_of_length_le]
  rw [readTick, if_neg (not_not.mpr hlen)]
  simp only [hsymbol, hs]
  simp [tickPayload, List.drop_append, List.drop_of_length_le, ht]

/-- The payload of a heartbeat decodes to its fields. -/
theorem readHeartbeat_heartbeatPayload (lastSeq : UInt64) (timestampNanos : Int64) :
    readHeartbeat (heartbeatPayload lastSeq timestampNanos) = .ok (lastSeq, timestampNanos) := by
  have hheader : ensureHeader (heartbeatPayload lastSeq timestampNanos) .heartbeat
      heartbeatPayloadSize = .ok () := by
    rw [ensureHeader, if_neg (not_not.mpr (heartbeatPayload_length lastSeq timestampNanos))]
    rfl
  have htime : readInt64LittleEndian (writeInt64LittleEndian timestampNanos) = timestampNanos := by
    simpa only [List.append_nil] using readInt64LittleEndian_write timestampNanos []
  rw [readHeartbeat, hheader]
  simp [heartbeatPayload, List.drop_append, List.drop_of_length_le, htime, bind, Except.bind]

/-- The payload of a session start decodes to its fields. -/
theorem readSessionStart_sessionStartPayload (sessionId : Guid) (heartbeatMs : UInt32)
    (startNanos : Int64) :
    readSessionStart (sessionStartPayload sessionId heartbeatMs startNanos) =
      .ok (sessionId, heartbeatMs, startNanos) := by
  have hheader : ensureHeader (sessionStartPayload sessionId heartbeatMs startNanos) .sessionStart
      sessionStartPayloadSize = .ok () := by
    rw [ensureHeader,
      if_neg (not_not.mpr (sessionStartPayload_length sessionId heartbeatMs startNanos))]
    rfl
  have htime : readInt64LittleEndian (writeInt64LittleEndian startNanos) = startNanos := by
    simpa only [List.append_nil] using readInt64LittleEndian_write startNanos []
  rw [readSessionStart, hheader]
  simp [sessionStartPayload, List.drop_append, List.drop_of_length_le, htime, bind, Except.bind]

/-- A tick payload the reader accepts is the writer's payload of the record read. -/
theorem tickPayload_of_readTick {payload : Bytes} {record : FeedRecord}
    (h : readTick payload = .ok record) :
    record.messageType.isTick = true ∧ record.symbol.Listed ∧ tickPayload record = payload := by
  unfold readTick at h
  split_ifs at h with hlen hversion
  rw [ne_eq, not_not] at hlen hversion
  cases ht : FeedMessageType.ofByte? (payload.getD 1 0) with
  | none => simp only [ht, reduceCtorEq] at h
  | some type =>
    simp only [ht] at h
    split_ifs at h with htick
    rw [Bool.not_eq_true, Bool.not_eq_false'] at htick
    cases hs : Symbol8.fromWire ((payload.drop 32).take Symbol8.length) with
    | error e => simp only [hs, reduceCtorEq] at h
    | ok symbol =>
      simp only [hs, Except.ok.injEq] at h
      obtain ⟨hlisted, hwire⟩ := Symbol8.fromWire_eq_ok_iff_writeTo.mp hs
      have hheader : [currentVersion, type.toByte] = payload.take 2 := by
        rw [FeedMessageType.toByte_of_ofByte? ht, ← hversion]
        match payload, hlen with
        | a :: b :: rest, _ => rfl
      have hdrop : ∀ n ≤ 40, (payload.drop n).length = 40 - n := fun n _ => by
        rw [List.length_drop, hlen]
      subst h
      refine ⟨htick, hlisted, ?_⟩
      rw [tickPayload, hwire, hheader]
      dsimp only
      rw [writeUInt16LittleEndian_read (by rw [hdrop 2 (by decide)]; decide),
        writeUInt32LittleEndian_read (by rw [hdrop 4 (by decide)]; decide),
        writeUInt64LittleEndian_read (by rw [hdrop 8 (by decide)]; decide),
        writeInt64LittleEndian_read (by rw [hdrop 16 (by decide)]; decide),
        writeInt64LittleEndian_read (by rw [hdrop 24 (by decide)]; decide)]
      -- Consecutive fields are consecutive slices of the payload.
      rw [← List.take_add, ← List.take_add, ← List.take_add, ← List.take_add, ← List.take_add,
        ← List.take_add]
      exact List.take_of_length_le hlen.le

/-! ## Frames -/

/-- The frame of a message: the length of its layout, then its payload. -/
def FeedMessage.frame (m : FeedMessage) : Bytes :=
  writeUInt32LittleEndian (UInt32.ofNat (expectedPayloadSize m.type)) ++ m.payload

/-- A record sent as a tick has a tick's type. -/
def FeedMessage.HasLayout : FeedMessage → Prop
  | .tick record => record.messageType.isTick = true
  | .heartbeat .. => True
  | .sessionStart .. => True

theorem FeedMessage.WellFormed.hasLayout {m : FeedMessage} (h : m.WellFormed) : m.HasLayout := by
  cases m with
  | tick record => exact h.1
  | heartbeat lastSeq timestampNanos => trivial
  | sessionStart sessionId heartbeatMs startNanos => trivial

theorem expectedPayloadSize_of_isTick {type : FeedMessageType} (h : type.isTick = true) :
    expectedPayloadSize type = tickPayloadSize := by
  cases type <;> first | rfl | cases h

/-- The payload fills the layout of its type and opens with the header. -/
theorem FeedMessage.payload_header {m : FeedMessage} (h : m.HasLayout) :
    m.payload.length = expectedPayloadSize m.type ∧ m.payload.getD 0 0 = currentVersion ∧
      m.payload.getD 1 0 = m.type.toByte := by
  cases m with
  | tick record =>
      exact ⟨(tickPayload_length record).trans (expectedPayloadSize_of_isTick h).symm, rfl, rfl⟩
  | heartbeat lastSeq timestampNanos =>
      exact ⟨heartbeatPayload_length lastSeq timestampNanos, rfl, rfl⟩
  | sessionStart sessionId heartbeatMs startNanos =>
      exact ⟨sessionStartPayload_length sessionId heartbeatMs startNanos, rfl, rfl⟩

/-- Each writer produces the frame of its message. -/
theorem FeedMessage.write_eq {m : FeedMessage} (h : m.HasLayout) :
    m.write tickFrameSize = .ok m.frame := by
  cases m with
  | tick record =>
      have ht := expectedPayloadSize_of_isTick h
      rw [write, writeTick_eq (Nat.le_refl _) h, frame, type, ht, payload]
  | heartbeat lastSeq timestampNanos => exact writeHeartbeat_eq (by decide) lastSeq timestampNanos
  | sessionStart sessionId heartbeatMs startNanos =>
      exact writeSessionStart_eq (by decide) sessionId heartbeatMs startNanos

theorem FeedMessage.frame_length {m : FeedMessage} (h : m.HasLayout) :
    m.frame.length = lengthPrefixSize + expectedPayloadSize m.type := by
  rw [frame, List.length_append, writeUInt32LittleEndian_length, (payload_header h).1]

/-- A frame at the front of a buffer is extracted, whatever follows it. -/
theorem readFrame_frame {m : FeedMessage} (h : m.HasLayout) (rest : Bytes) :
    readFrame (m.frame ++ rest) = .ok (some ((m.type, m.payload), rest)) := by
  obtain ⟨hlen, hversion, htype⟩ := FeedMessage.payload_header h
  have hframe := FeedMessage.frame_length h
  have hprefix := writeUInt32LittleEndian_length (UInt32.ofNat (expectedPayloadSize m.type))
  have hsize : (UInt32.ofNat (expectedPayloadSize m.type)).toNat = expectedPayloadSize m.type := by
    cases m.type <;> rfl
  have hmin := minPayloadSize_le_expected m.type
  simp only [minPayloadSize] at hmin
  have hget : ∀ i < 2, (m.frame ++ rest).getD (4 + i) 0 = m.payload.getD i 0 := by
    intro i hi
    rw [FeedMessage.frame, List.append_assoc, List.getD_append_right _ _ _ _ (by omega), hprefix,
      Nat.add_sub_cancel_left, List.getD_append _ _ _ _ (by omega)]
  refine readFrame_eq_some_iff.mpr ⟨?_, ?_, ?_, ?_, ?_, ?_⟩
  · rw [FeedMessage.frame, List.append_assoc, readUInt32LittleEndian_write, hsize]
  · rw [List.length_append, hframe]
    exact Nat.le_add_right _ _
  · exact (hget 0 (by decide)).trans hversion
  · rw [hget 1 (by decide), htype, FeedMessageType.ofByte?_toByte]
  · rw [FeedMessage.frame, List.append_assoc, List.drop_left' hprefix, List.take_left' hlen]
  · rw [List.drop_left' hframe]

/-! ## Streams -/

theorem readPayload_payload {m : FeedMessage} (h : m.WellFormed)
    {payload : ReadOnlySequence UInt8} (hp : payload.toList = m.payload) :
    readPayload m.type payload = .ok m := by
  cases m with
  | tick record =>
      have hread := readTick_tickPayload h.1 (Symbol8.fromWire_writeTo h.2)
      have hseq : readTickSequence payload = .ok record := by
        rw [readTickSequence_eq, hp, FeedMessage.payload, hread]
      rw [FeedMessage.type]
      have ht := h.1
      cases htype : record.messageType <;> rw [htype] at ht <;>
        first
          | (simp only [readPayload, hseq]; rfl)
          | cases ht
  | heartbeat lastSeq timestampNanos =>
      simp only [FeedMessage.type, readPayload, hp, FeedMessage.payload,
        readHeartbeat_heartbeatPayload]
  | sessionStart sessionId heartbeatMs startNanos =>
      simp only [FeedMessage.type, readPayload, hp, FeedMessage.payload,
        readSessionStart_sessionStartPayload]

/-- Messages are encoded as their frames one behind the other. -/
theorem encodeAll_eq {ms : List FeedMessage} (h : ∀ m ∈ ms, m.HasLayout) :
    encodeAll ms = .ok (ms.flatMap FeedMessage.frame) := by
  induction ms with
  | nil => rfl
  | cons m ms ih =>
    have hm := FeedMessage.write_eq (h m (List.mem_cons_self ..))
    have hms := ih fun m' hm' => h m' (List.mem_cons_of_mem m hm')
    simp only [encodeAll, hm, hms, bind, Except.bind, List.flatMap_cons]

/-- A buffer of encoded messages decodes to them, whatever its segments. -/
theorem decodeWithin_frames {ms : List FeedMessage} (h : ∀ m ∈ ms, m.WellFormed)
    {buffer : ReadOnlySequence UInt8} (hb : buffer.toList = ms.flatMap FeedMessage.frame)
    {n : Nat} (hn : ms.length ≤ n) :
    ∃ rest, decodeWithin n buffer = .ok (ms, rest) ∧ rest.toList = [] := by
  induction ms generalizing buffer n with
  | nil =>
    refine ⟨buffer, ?_, hb⟩
    cases n with
    | zero => rfl
    | succ n =>
      have hlen : buffer.length < lengthPrefixSize := by
        rw [← buffer.length_toList, hb]
        decide
      rw [decodeWithin, tryReadFrame, if_pos hlen]
  | cons m ms ih =>
    obtain ⟨n, rfl⟩ : ∃ k, n = k + 1 := ⟨n - 1, by rw [List.length_cons] at hn; omega⟩
    have hm := h m (List.mem_cons_self ..)
    have hv := verdict_tryReadFrame buffer
    rw [hb, List.flatMap_cons, readFrame_frame hm.hasLayout] at hv
    rcases htry : tryReadFrame buffer with ⟨rest, e | _ | ⟨type, payload⟩⟩
    · rw [htry] at hv
      cases hv
    · rw [htry] at hv
      cases hv
    · rw [htry] at hv
      simp only [verdict, Except.ok.injEq, Option.some.injEq, Prod.mk.injEq] at hv
      obtain ⟨⟨rfl, hpayload⟩, hrest⟩ := hv
      obtain ⟨last, hout, hlast⟩ := ih (fun m' hm' => h m' (List.mem_cons_of_mem m hm'))
        (n := n) hrest (by rw [List.length_cons] at hn; omega)
      refine ⟨last, ?_, hlast⟩
      simp only [decodeWithin, htry, readPayload_payload hm hpayload, hout, bind, Except.bind]

theorem length_le_flatMap_frame {ms : List FeedMessage} (h : ∀ m ∈ ms, m.HasLayout) :
    ms.length ≤ (ms.flatMap FeedMessage.frame).length := by
  induction ms with
  | nil => exact Nat.le_refl 0
  | cons m ms ih =>
    have hm := FeedMessage.frame_length (h m (List.mem_cons_self ..))
    have hms := ih fun m' hm' => h m' (List.mem_cons_of_mem m hm')
    simp only [lengthPrefixSize] at hm
    rw [List.flatMap_cons, List.length_append, List.length_cons]
    omega

/-- Every stream of encoded messages decodes to the messages and nothing else; every
tick payload the reader accepts is rewritten byte for byte; and tickers, listed
symbols and accepted fields correspond one to one. -/
theorem codec_round_trip :
    (∀ ms : List FeedMessage, (∀ m ∈ ms, m.WellFormed) → ∃ bytes, encodeAll ms = .ok bytes ∧
      ∀ buffer : ReadOnlySequence UInt8, buffer.toList = bytes →
        ∃ rest, decode buffer = .ok (ms, rest) ∧ rest.toList = []) ∧
    (∀ payload record, readTick payload = .ok record → writeTick tickFrameSize record =
      .ok (writeUInt32LittleEndian (UInt32.ofNat tickPayloadSize) ++ payload)) ∧
    (∀ text, Symbol8.IsTicker text ↔ ∃ s, Symbol8.fromAscii text = .ok s) ∧
    (∀ text s, Symbol8.fromAscii text = .ok s →
      s.toString = text ∧ Symbol8.fromWire s.writeTo = .ok s) ∧
    (∀ source s, Symbol8.fromWire source = .ok s →
      s.writeTo = source ∧ Symbol8.fromAscii s.toString = .ok s) ∧
    Function.Injective Symbol8.writeTo := by
  refine ⟨fun ms h => ?_, fun payload record h => ?_, fun text => ⟨fun ht => ?_, ?_⟩,
    fun text s h => ?_, fun source s h => ?_, Symbol8.writeTo_injective⟩
  · have hlayout : ∀ m ∈ ms, m.HasLayout := fun m hm => (h m hm).hasLayout
    refine ⟨_, encodeAll_eq hlayout, fun buffer hb => ?_⟩
    have hlen : ms.length ≤ buffer.length := by
      rw [← buffer.length_toList, hb]
      exact length_le_flatMap_frame hlayout
    exact decodeWithin_frames h hb hlen
  · obtain ⟨htick, -, hpayload⟩ := tickPayload_of_readTick h
    rw [writeTick_eq (Nat.le_refl _) htick, hpayload]
  · have hfield := Symbol8.field_length ht
    refine ⟨⟨readUInt64LittleEndian (Symbol8.field text)⟩,
      Symbol8.fromAscii_eq_ok_iff.mpr ⟨ht, ?_⟩⟩
    rw [Symbol8.writeTo, writeUInt64LittleEndian_read hfield.ge,
      List.take_of_length_le hfield.le]
  · rintro ⟨s, hs⟩
    exact (Symbol8.fromAscii_eq_ok_iff.mp hs).1
  · exact ⟨(Symbol8.fromAscii_eq_ok_iff_toString.mp h).2,
      Symbol8.fromWire_writeTo (Or.inl ⟨text, h⟩)⟩
  · obtain ⟨hlisted, hwire⟩ := Symbol8.fromWire_eq_ok_iff_writeTo.mp h
    exact ⟨hwire, Symbol8.fromAscii_eq_ok_iff_toString.mpr ⟨hlisted, rfl⟩⟩

/-- A trade in COMI, a heartbeat naming it and a session start. -/
def sampleMessages : List FeedMessage :=
  [.tick ⟨.trade, 1, 100, 42, 1704067200000000000, 851000, ⟨0x20202020494D4F43⟩⟩,
    .heartbeat 42 1704067200000000001,
    .sessionStart ⟨0x00112233, 0x4455, 0x6677, 0x88, 0x99, 0xAA, 0xBB, 0xCC, 0xDD, 0xEE, 0xFF⟩
      1000 (-1)]

/-- The sample messages decode from their encodings. -/
theorem sampleMessages_round_trip : ∃ bytes, encodeAll sampleMessages = .ok bytes ∧
    ∀ buffer : ReadOnlySequence UInt8, buffer.toList = bytes →
      ∃ rest, decode buffer = .ok (sampleMessages, rest) ∧ rest.toList = [] := by
  refine codec_round_trip.1 sampleMessages fun m hm => ?_
  simp only [sampleMessages, List.mem_cons, List.not_mem_nil, or_false] at hm
  rcases hm with rfl | rfl | rfl
  · exact ⟨rfl, Or.inl ⟨[0x43, 0x4F, 0x4D, 0x49], by decide⟩⟩
  · trivial
  · trivial

end Tckr.Protocol
