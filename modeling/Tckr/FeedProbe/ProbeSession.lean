import Mathlib.Data.Rat.Defs
import Tckr.Core.Collections
import Tckr.Exchange.Protocol.Codec

/-!
# The probe's frame dispatch

The probe reads the feed of one session and keeps what it measures: counts, gaps and
integrity violations up to a cap, the records lost. The samplers and the table of
symbols are other components; what they are given is kept in order. The times at which
events were observed are left out.
-/

namespace Tckr.FeedProbe

open Protocol

/-- A hole between the expected number and the one received. -/
structure GapEvent where
  expectedSequence : UInt64
  receivedSequence : UInt64
  gapSize : UInt64
  deriving DecidableEq, Repr

/-- A number at or below one already seen. -/
structure SequenceIntegrityViolation where
  expectedSequence : UInt64
  receivedSequence : UInt64
  deriving DecidableEq, Repr

/-- A symbol's timestamp that went back. -/
structure OrderViolationEvent where
  symbol : Symbol8
  sequenceNumber : UInt64
  previousTimestampNanos : Int64
  observedTimestampNanos : Int64
  deriving DecidableEq, Repr

/-- When a buffer was read: the monotonic clock, the wall clock in nanoseconds and in ticks. -/
structure Stamps where
  nowMonoTicks : Int
  nowWallNanos : Int64
  now : Int
  deriving DecidableEq, Repr

/-- What the probe keeps of its session. -/
structure ProbeSession where
  verifyOrder : Bool := false
  heartbeatIntervalMs : UInt32 := 0
  eventsReceived : UInt64 := 0
  lastTickSequence : UInt64 := 0
  recordsLost : UInt64 := 0
  tradeCount : Nat := 0
  bidCount : Nat := 0
  askCount : Nat := 0
  auctionPrintCount : Nat := 0
  totalBytes : Nat := 0
  lastTickMonoTicks : Option Int := none
  heartbeatCount : Nat := 0
  maxHeartbeatIntervalMs : ℚ := 0
  heartbeatExceeded2xCount : Nat := 0
  lastHeartbeatAt : Option Int := none
  gaps : List GapEvent := []
  integrityViolations : List SequenceIntegrityViolation := []
  orderViolations : List OrderViolationEvent := []
  interArrivalTicks : List Int := []
  latencyNanos : List Int64 := []
  symbolTicks : List (Symbol8 × Int64) := []
  lastTimestampNanos : OrderedMap Symbol8 Int64 := .empty
  deriving DecidableEq

/-- What a number is, beside the one expected. -/
inductive SequenceVerdict where
  | expected
  | gap (size : UInt64)
  | violation
  deriving DecidableEq, Repr

/-- Compare a number with the one after the last; the sum wraps. -/
def sequenceVerdict (lastTickSequence sequenceNumber : UInt64) : SequenceVerdict :=
  let expected := lastTickSequence + 1
  if expected < sequenceNumber then .gap (sequenceNumber - expected)
  else if sequenceNumber < expected then .violation
  else .expected

/-- The most gaps that are kept. -/
def maxGapEvents : Nat := 10000

/-- The most integrity violations that are kept. -/
def maxIntegrityViolations : Nat := 1000

/-- The most order violations that are kept. -/
def maxOrderViolations : Nat := 2000

/-- Bytes of a frame on the wire. -/
def frameWireSize : FeedMessageType → Nat
  | .trade | .bidQuote | .askQuote => tickFrameSize
  | .heartbeat => heartbeatFrameSize
  | .sessionStart => sessionStartFrameSize

/-- Why the stream ends. -/
inductive ProbeException where
  | feed (e : FeedException)
  | unexpectedSessionStart

namespace ProbeSession

variable (s : ProbeSession)

/-- Count a tick by its type. -/
def countTick (record : FeedRecord) : ProbeSession :=
  { s with
    eventsReceived := s.eventsReceived + 1
    tradeCount := s.tradeCount + if record.messageType = .trade then 1 else 0
    bidCount := s.bidCount + if record.messageType = .bidQuote then 1 else 0
    askCount := s.askCount + if record.messageType = .askQuote then 1 else 0
    auctionPrintCount := s.auctionPrintCount + if record.flags &&& 1 ≠ 0 then 1 else 0 }

/-- Check the number of a tick against the last one. -/
def checkSequence (sequenceNumber : UInt64) : ProbeSession :=
  let expected := s.lastTickSequence + 1
  let checked : ProbeSession := match sequenceVerdict s.lastTickSequence sequenceNumber with
    | .gap size =>
      { s with
        recordsLost := s.recordsLost + size
        gaps := if s.gaps.length < maxGapEvents then s.gaps ++ [⟨expected, sequenceNumber, size⟩]
          else s.gaps }
    | .violation =>
      { s with
        integrityViolations := if s.integrityViolations.length < maxIntegrityViolations
          then s.integrityViolations ++ [⟨expected, sequenceNumber⟩] else s.integrityViolations }
    | .expected => s
  { checked with lastTickSequence := sequenceNumber }

/-- Hand a tick to the samplers and the table of symbols. -/
def sample (record : FeedRecord) (stamps : Stamps) : ProbeSession :=
  { s with
    interArrivalTicks := match s.lastTickMonoTicks with
      | some last => s.interArrivalTicks ++ [max 0 (stamps.nowMonoTicks - last)]
      | none => s.interArrivalTicks
    lastTickMonoTicks := some stamps.nowMonoTicks
    latencyNanos := s.latencyNanos ++ [stamps.nowWallNanos - record.exchangeTimestampNanos]
    symbolTicks := s.symbolTicks ++ [(record.symbol, record.priceScaled)] }

/-- Check that a symbol's timestamps do not go back, if that is asked for. -/
def checkTimestampOrder (record : FeedRecord) : ProbeSession :=
  if s.verifyOrder then
    let checked : ProbeSession := match s.lastTimestampNanos.get? record.symbol with
      | some previous =>
        if record.exchangeTimestampNanos < previous ∧ s.orderViolations.length < maxOrderViolations
        then { s with orderViolations := s.orderViolations ++ [⟨record.symbol,
          record.sequenceNumber, previous, record.exchangeTimestampNanos⟩] }
        else s
      | none => s
    { checked with
      lastTimestampNanos := s.lastTimestampNanos.set record.symbol record.exchangeTimestampNanos }
  else s

/-- Take in a decoded tick. -/
def noteTick (record : FeedRecord) (stamps : Stamps) : ProbeSession :=
  (((s.countTick record).checkSequence record.sequenceNumber).sample record
    stamps).checkTimestampOrder record

/-- Take in a heartbeat. -/
def noteHeartbeat (stamps : Stamps) : ProbeSession :=
  let measured : ProbeSession := match s.lastHeartbeatAt with
    | some last =>
      let intervalMs : ℚ := (stamps.now - last : Int) / 10000
      { s with
        maxHeartbeatIntervalMs := max s.maxHeartbeatIntervalMs intervalMs
        heartbeatExceeded2xCount := s.heartbeatExceeded2xCount +
          if 0 < s.heartbeatIntervalMs ∧ (s.heartbeatIntervalMs.toNat * 2 : ℚ) < intervalMs
          then 1 else 0 }
    | none => s
  { measured with heartbeatCount := s.heartbeatCount + 1, lastHeartbeatAt := some stamps.now }

/-- Take in a message; a second session start ends the stream. -/
def note (message : FeedMessage) (stamps : Stamps) : Except ProbeException ProbeSession :=
  match message with
  | .tick record => .ok (s.noteTick record stamps)
  | .heartbeat _ _ => .ok (s.noteHeartbeat stamps)
  | .sessionStart _ _ _ => .error .unexpectedSessionStart

/-- Take in messages in order. -/
def noteAll (s : ProbeSession) : List (FeedMessage × Stamps) → Except ProbeException ProbeSession
  | [] => .ok s
  | (message, stamps) :: rest =>
    match s.note message stamps with
    | .error e => .error e
    | .ok t => noteAll t rest

/-- Count the bytes of a frame, decode it and take it in. -/
def dispatch (type : FeedMessageType) (payload : ReadOnlySequence UInt8) (stamps : Stamps) :
    ProbeSession × Option ProbeException :=
  let counted := { s with totalBytes := s.totalBytes + frameWireSize type }
  if type = .sessionStart then (counted, some .unexpectedSessionStart)
  else match readPayload type payload with
    | .error e => (counted, some (.feed e))
    | .ok message => match counted.note message stamps with
      | .error e => (counted, some e)
      | .ok t => (t, none)

/-- Dispatch frames until none is complete or one throws, at most the given number of times. -/
def processBufferWithin : Nat → ReadOnlySequence UInt8 → Stamps → ProbeSession →
    ProbeSession × Except ProbeException (ReadOnlySequence UInt8)
  | 0, buffer, _, s => (s, .ok buffer)
  | n + 1, buffer, stamps, s => match tryReadFrame buffer with
    | (_, .error e) => (s, .error (.feed (.invalidData e)))
    | (rest, .ok none) => (s, .ok rest)
    | (rest, .ok (some (type, payload))) => match s.dispatch type payload stamps with
      | (t, some e) => (t, .error e)
      | (t, none) => processBufferWithin n rest stamps t

/-- Dispatch the frames of a buffer. -/
def processBuffer (buffer : ReadOnlySequence UInt8) (stamps : Stamps) :
    ProbeSession × Except ProbeException (ReadOnlySequence UInt8) :=
  processBufferWithin buffer.length buffer stamps s

/-! ## Buffers that decode -/

theorem checkSequence_totalBytes (s : ProbeSession) (x : UInt64) (b : Nat) :
    checkSequence { s with totalBytes := b } x = { s.checkSequence x with totalBytes := b } := by
  unfold checkSequence
  dsimp only
  cases sequenceVerdict s.lastTickSequence x <;> rfl

theorem checkTimestampOrder_totalBytes (s : ProbeSession) (record : FeedRecord) (b : Nat) :
    checkTimestampOrder { s with totalBytes := b } record =
      { s.checkTimestampOrder record with totalBytes := b } := by
  unfold checkTimestampOrder
  dsimp only
  split
  · cases s.lastTimestampNanos.get? record.symbol with
    | none => rfl
    | some previous =>
      dsimp only
      split <;> rfl
  · rfl

/-- The bytes counted play no part in what a message does. -/
theorem note_totalBytes (s : ProbeSession) (message : FeedMessage) (stamps : Stamps) (b : Nat) :
    note { s with totalBytes := b } message stamps =
      (s.note message stamps).map fun t => { t with totalBytes := b } := by
  cases message with
  | tick record =>
    have hsequence := checkSequence_totalBytes (s.countTick record) record.sequenceNumber b
    have horder := checkTimestampOrder_totalBytes
      (((s.countTick record).checkSequence record.sequenceNumber).sample record stamps) record b
    exact congrArg Except.ok ((congrArg (fun t : ProbeSession =>
      (t.sample record stamps).checkTimestampOrder record) hsequence).trans horder)
  | heartbeat lastSeq timestampNanos =>
    simp only [note, noteHeartbeat]
    cases s.lastHeartbeatAt <;> rfl
  | sessionStart sessionId heartbeatMs startNanos => rfl

theorem noteAll_totalBytes (s : ProbeSession) (stream : List (FeedMessage × Stamps)) (b : Nat) :
    noteAll { s with totalBytes := b } stream =
      (s.noteAll stream).map fun t => { t with totalBytes := b } := by
  induction stream generalizing s with
  | nil => rfl
  | cons m stream ih =>
    obtain ⟨message, stamps⟩ := m
    rw [noteAll, noteAll, note_totalBytes]
    cases s.note message stamps with
    | error e => rfl
    | ok t => exact ih t

theorem readPayload_sessionStart {payload : ReadOnlySequence UInt8} {message : FeedMessage}
    (h : readPayload .sessionStart payload = .ok message) :
    ∃ sessionId heartbeatMs startNanos,
      message = .sessionStart sessionId heartbeatMs startNanos := by
  simp only [readPayload] at h
  cases hread : readSessionStart payload.toList with
  | error e =>
    rw [hread] at h
    cases h
  | ok fields =>
    rw [hread] at h
    obtain ⟨sessionId, heartbeatMs, startNanos⟩ := fields
    cases h
    exact ⟨_, _, _, rfl⟩

/-- A buffer that decodes is taken in as its messages, its bytes counted on top. -/
theorem processBufferWithin_of_decode {n : Nat} {buffer rest : ReadOnlySequence UInt8}
    {messages : List FeedMessage} (hdecode : decodeWithin n buffer = .ok (messages, rest))
    (stamps : Stamps) {s t : ProbeSession}
    (h : s.noteAll (messages.map fun m => (m, stamps)) = .ok t) :
    ∃ b, processBufferWithin n buffer stamps s = ({ t with totalBytes := b }, .ok rest) := by
  induction n generalizing buffer messages s t with
  | zero =>
    cases hdecode
    cases h
    exact ⟨s.totalBytes, rfl⟩
  | succ n ih =>
    rw [decodeWithin] at hdecode
    rw [processBufferWithin]
    rcases htry : tryReadFrame buffer with ⟨after, e | _ | ⟨type, payload⟩⟩
    · rw [htry] at hdecode
      cases hdecode
    · rw [htry] at hdecode
      cases hdecode
      cases h
      exact ⟨s.totalBytes, rfl⟩
    · rw [htry] at hdecode
      dsimp only at hdecode ⊢
      cases hread : readPayload type payload with
      | error e =>
        rw [hread] at hdecode
        cases hdecode
      | ok message =>
        rw [hread] at hdecode
        cases hmore : decodeWithin n after with
        | error e =>
          simp only [hmore] at hdecode
          cases hdecode
        | ok out =>
          simp only [hmore] at hdecode
          cases hdecode
          rw [List.map_cons, noteAll] at h
          cases hnote : s.note message stamps with
          | error e =>
            rw [hnote] at h
            cases h
          | ok u =>
            rw [hnote] at h
            dsimp only at h
            have htype : type ≠ .sessionStart := by
              rintro rfl
              obtain ⟨sessionId, heartbeatMs, startNanos, rfl⟩ := readPayload_sessionStart hread
              cases hnote
            have hdispatch : s.dispatch type payload stamps =
                ({ u with totalBytes := s.totalBytes + frameWireSize type }, none) := by
              rw [dispatch, if_neg htype, hread]
              dsimp only
              rw [note_totalBytes, hnote]
              rfl
            have hrest := noteAll_totalBytes u (out.1.map fun m => (m, stamps))
              (s.totalBytes + frameWireSize type)
            rw [h] at hrest
            obtain ⟨b, hb⟩ := ih hmore hrest
            exact ⟨b, by rw [hdispatch]; exact hb⟩

theorem processBuffer_of_decode {buffer rest : ReadOnlySequence UInt8}
    {messages : List FeedMessage} (hdecode : decode buffer = .ok (messages, rest))
    (stamps : Stamps) {s t : ProbeSession}
    (h : s.noteAll (messages.map fun m => (m, stamps)) = .ok t) :
    ∃ b, s.processBuffer buffer stamps = ({ t with totalBytes := b }, .ok rest) :=
  processBufferWithin_of_decode hdecode stamps h

end ProbeSession

end Tckr.FeedProbe
