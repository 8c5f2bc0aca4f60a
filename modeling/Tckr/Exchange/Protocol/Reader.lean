import Tckr.Core.Framing
import Tckr.Core.Segments
import Tckr.Exchange.Protocol.Writer
import Mathlib.Data.List.GetD

/-!
# The frame reader

Frame extraction from a segmented buffer and the payload readers. Extraction
returns the buffer it leaves behind beside its verdict. Over the bytes the
segments hold it is an incremental frame reader: the verdict depends on nothing
else, extracting consumes the frame, and later bytes never change a verdict.
-/

namespace Tckr.Protocol

/-- Largest payload accepted. -/
def maxPayloadSize : Nat := 1024

/-- Smallest payload that can be classified at all: version plus message type. -/
def minPayloadSize : Nat := 2

/-- The fixed payload size of a message type. -/
def expectedPayloadSize : FeedMessageType → Nat
  | .trade | .bidQuote | .askQuote => tickPayloadSize
  | .heartbeat => heartbeatPayloadSize
  | .sessionStart => sessionStartPayloadSize

/-- Extract the next complete frame: the buffer afterwards, and the verdict. The
buffer is advanced past the frame on success and left as it was otherwise. -/
def tryReadFrame (buffer : ReadOnlySequence UInt8) : ReadOnlySequence UInt8 ×
    Except InvalidDataException (Option (FeedMessageType × ReadOnlySequence UInt8)) :=
  if buffer.length < lengthPrefixSize then (buffer, .ok none)
  else
    let declared := readUInt32LittleEndian (buffer.slice 0 lengthPrefixSize).toList
    if declared.toNat < minPayloadSize ∨ maxPayloadSize < declared.toNat then
      (buffer, .error (.frameLength declared))
    else if buffer.length < lengthPrefixSize + declared.toNat then (buffer, .ok none)
    else
      let candidate := buffer.slice lengthPrefixSize declared.toNat
      let header := (candidate.slice 0 minPayloadSize).toList
      if header.getD 0 0 ≠ currentVersion then
        (buffer, .error (.frameVersion (header.getD 0 0)))
      else match FeedMessageType.ofByte? (header.getD 1 0) with
        | none => (buffer, .error (.unknownType (header.getD 1 0)))
        | some declaredType =>
            if declared.toNat ≠ expectedPayloadSize declaredType then
              (buffer, .error (.frameSize declaredType declared (expectedPayloadSize declaredType)))
            else (buffer.sliceFrom (lengthPrefixSize + declared.toNat),
              .ok (some (declaredType, candidate)))

/-- Decode a tick payload. -/
def readTick (payload : Bytes) : Except FeedException FeedRecord :=
  if payload.length ≠ tickPayloadSize then .error (.invalidData (.tickSize payload.length))
  else if payload.getD 0 0 ≠ currentVersion then
    .error (.invalidData (.tickVersion (payload.getD 0 0)))
  else match FeedMessageType.ofByte? (payload.getD 1 0) with
    | none => .error (.invalidData (.notTick (payload.getD 1 0)))
    | some type =>
      if !type.isTick then .error (.invalidData (.notTick (payload.getD 1 0)))
      else match Symbol8.fromWire ((payload.drop 32).take Symbol8.length) with
        | .error e => .error e
        | .ok symbol => .ok
            { messageType := type
              flags := readUInt16LittleEndian (payload.drop 2)
              quantity := readUInt32LittleEndian (payload.drop 4)
              sequenceNumber := readUInt64LittleEndian (payload.drop 8)
              exchangeTimestampNanos := readInt64LittleEndian (payload.drop 16)
              priceScaled := readInt64LittleEndian (payload.drop 24)
              symbol := symbol }

/-- Decode a tick payload that may straddle segments, copying it when it does. -/
def readTickSequence (payload : ReadOnlySequence UInt8) : Except FeedException FeedRecord :=
  if payload.isSingleSegment then readTick payload.firstSpan
  else if payload.length ≠ tickPayloadSize then
    .error (.invalidData (.tickSize payload.length))
  else readTick payload.toList

/-- The checks the session payloads share. -/
def ensureHeader (payload : Bytes) (expectedType : FeedMessageType) (expectedSize : Nat) :
    Except InvalidDataException Unit :=
  if payload.length ≠ expectedSize then
    .error (.payloadSize expectedType expectedSize payload.length)
  else if payload.getD 0 0 ≠ currentVersion then .error (.frameVersion (payload.getD 0 0))
  else if payload.getD 1 0 ≠ expectedType.toByte then
    .error (.unexpectedType expectedType (payload.getD 1 0))
  else .ok ()

/-- Decode a heartbeat payload: the last sequence number and the timestamp. -/
def readHeartbeat (payload : Bytes) : Except InvalidDataException (UInt64 × Int64) := do
  ensureHeader payload .heartbeat heartbeatPayloadSize
  .ok (readUInt64LittleEndian (payload.drop 8), readInt64LittleEndian (payload.drop 16))

/-- Decode a session-start payload: the identifier, the heartbeat interval and the
start time. -/
def readSessionStart (payload : Bytes) : Except InvalidDataException (Guid × UInt32 × Int64) := do
  ensureHeader payload .sessionStart sessionStartPayloadSize
  .ok (Guid.ofBigEndianBytes ((payload.drop 8).take 16),
    readUInt32LittleEndian (payload.drop 4), readInt64LittleEndian (payload.drop 24))

/-! ## Extraction over the bytes of the buffer -/

/-- A frame as extraction returns it: its type and the bytes of its payload. -/
abbrev RawFrame := FeedMessageType × Bytes

/-- The verdict of `tryReadFrame` on the bytes a buffer holds. -/
def readFrame (b : Bytes) : Except InvalidDataException (Option (RawFrame × Bytes)) :=
  if b.length < lengthPrefixSize then .ok none
  else if (readUInt32LittleEndian b).toNat < minPayloadSize ∨
      maxPayloadSize < (readUInt32LittleEndian b).toNat then
    .error (.frameLength (readUInt32LittleEndian b))
  else if b.length < lengthPrefixSize + (readUInt32LittleEndian b).toNat then .ok none
  else if b.getD 4 0 ≠ currentVersion then .error (.frameVersion (b.getD 4 0))
  else match FeedMessageType.ofByte? (b.getD 5 0) with
    | none => .error (.unknownType (b.getD 5 0))
    | some type =>
      if (readUInt32LittleEndian b).toNat ≠ expectedPayloadSize type then
        .error (.frameSize type (readUInt32LittleEndian b) (expectedPayloadSize type))
      else .ok (some ((type, (b.drop lengthPrefixSize).take (expectedPayloadSize type)),
        b.drop (lengthPrefixSize + expectedPayloadSize type)))

/-- Every payload the layouts allow is larger than a header. -/
theorem minPayloadSize_le_expected (type : FeedMessageType) :
    minPayloadSize ≤ expectedPayloadSize type := by
  cases type <;> decide

/-- The conditions under which a frame is extracted, and what is extracted. -/
theorem readFrame_eq_some_iff {b rest payload : Bytes} {type : FeedMessageType} :
    readFrame b = .ok (some ((type, payload), rest)) ↔
      (readUInt32LittleEndian b).toNat = expectedPayloadSize type ∧
      lengthPrefixSize + expectedPayloadSize type ≤ b.length ∧
      b.getD 4 0 = currentVersion ∧ FeedMessageType.ofByte? (b.getD 5 0) = some type ∧
      payload = (b.drop lengthPrefixSize).take (expectedPayloadSize type) ∧
      rest = b.drop (lengthPrefixSize + expectedPayloadSize type) := by
  have hrange : ∀ t, minPayloadSize ≤ expectedPayloadSize t ∧
      expectedPayloadSize t ≤ maxPayloadSize := by
    intro t
    cases t <;> decide
  unfold readFrame
  constructor
  · intro h
    split_ifs at h with hshort hlength hpartial hversion
    · cases h
    · cases h
    · cases ht : FeedMessageType.ofByte? (b.getD 5 0) with
      | none => simp only [ht, reduceCtorEq] at h
      | some t =>
        simp only [ht] at h
        split_ifs at h with hsize
        simp only [Except.ok.injEq, Option.some.injEq, Prod.mk.injEq] at h
        obtain ⟨⟨rfl, rfl⟩, rfl⟩ := h
        exact ⟨not_not.mp hsize, by omega, not_not.mp hversion, rfl, rfl, rfl⟩
  · rintro ⟨hsize, hlen, hversion, htype, rfl, rfl⟩
    have ht := hrange type
    rw [if_neg (by omega), if_neg (by omega), if_neg (by omega), if_neg (not_not.mpr hversion)]
    simp only [htype, hsize, ne_eq, not_true_eq_false, ite_false]

theorem readUInt32LittleEndian_append {b : Bytes} (h : 4 ≤ b.length) (more : Bytes) :
    readUInt32LittleEndian (b ++ more) = readUInt32LittleEndian b := by
  rw [readUInt32LittleEndian, readUInt32LittleEndian, List.take_append_of_le_length h]

/-- Later bytes never change an extracted frame. -/
theorem readFrame_append {b rest : Bytes} {f : RawFrame} (more : Bytes)
    (h : readFrame b = .ok (some (f, rest))) :
    readFrame (b ++ more) = .ok (some (f, rest ++ more)) := by
  obtain ⟨type, payload⟩ := f
  obtain ⟨hsize, hlen, hversion, htype, rfl, rfl⟩ := readFrame_eq_some_iff.mp h
  have ht := minPayloadSize_le_expected type
  have hprefix : lengthPrefixSize = 4 := rfl
  simp only [minPayloadSize] at ht
  have h4 : 4 < b.length := by omega
  have h5 : 5 < b.length := by omega
  refine readFrame_eq_some_iff.mpr ⟨?_, ?_, ?_, ?_, ?_, ?_⟩
  · rw [readUInt32LittleEndian_append (by omega), hsize]
  · rw [List.length_append]
    omega
  · rw [List.getD_append _ _ _ _ h4, hversion]
  · rw [List.getD_append _ _ _ _ h5, htype]
  · rw [List.drop_append_of_le_length (by omega), List.take_append_of_le_length]
    rw [List.length_drop]
    omega
  · rw [List.drop_append_of_le_length hlen]

/-- Later bytes never change a rejection: it is decided by bytes already there. -/
theorem readFrame_error_append {b : Bytes} {e : InvalidDataException} (more : Bytes)
    (h : readFrame b = .error e) : readFrame (b ++ more) = .error e := by
  unfold readFrame at h
  split_ifs at h with hshort hlength hpartial hversion
  · have hlong : 4 ≤ b.length := Nat.le_of_not_lt hshort
    rw [readFrame, readUInt32LittleEndian_append hlong, if_neg (by rw [List.length_append]; omega),
      if_pos hlength, h]
  all_goals
    have hlong : 4 ≤ b.length := Nat.le_of_not_lt hshort
    have h5 : 5 < b.length := by
      simp only [minPayloadSize, lengthPrefixSize] at hlength hpartial
      omega
    have h4 : 4 < b.length := by omega
    rw [readFrame, readUInt32LittleEndian_append hlong, if_neg (by rw [List.length_append]; omega),
      if_neg hlength, if_neg (by rw [List.length_append]; omega), List.getD_append _ _ _ _ h4,
      List.getD_append _ _ _ _ h5]
  · rw [if_pos hversion, h]
  · rw [if_neg hversion]
    cases ht : FeedMessageType.ofByte? (b.getD 5 0) with
    | none => simpa only [ht] using h
    | some type =>
      simp only [ht] at h
      split_ifs at h with hsize
      simp only [hsize, ne_eq, not_false_eq_true, ite_true, h]

/-- Extracting a frame consumes its prefix and at least a header. -/
theorem readFrame_consumes {b rest : Bytes} {f : RawFrame}
    (h : readFrame b = .ok (some (f, rest))) :
    rest.length + (lengthPrefixSize + minPayloadSize) ≤ b.length := by
  obtain ⟨type, payload⟩ := f
  obtain ⟨-, hlen, -, -, -, rfl⟩ := readFrame_eq_some_iff.mp h
  have ht := minPayloadSize_le_expected type
  rw [List.length_drop]
  omega

/-- A payload split over segments decodes as the contiguous one. -/
theorem readTickSequence_eq (payload : ReadOnlySequence UInt8) :
    readTickSequence payload = readTick payload.toList := by
  unfold readTickSequence
  split_ifs with hsingle hsize
  · rw [ReadOnlySequence.firstSpan_eq_toList hsingle]
  · rw [readTick, payload.length_toList, if_pos hsize]
  · rfl

/-! ## Segmented buffers -/

/-- What a verdict on a segmented buffer says about bytes. -/
def verdict (r : ReadOnlySequence UInt8 ×
    Except InvalidDataException (Option (FeedMessageType × ReadOnlySequence UInt8))) :
    Except InvalidDataException (Option (RawFrame × Bytes)) :=
  match r.2 with
  | .error e => .error e
  | .ok none => .ok none
  | .ok (some (type, payload)) => .ok (some ((type, payload.toList), r.1.toList))

/-- Only the bytes matter: the segments they lie in never change a verdict. -/
theorem verdict_tryReadFrame (buffer : ReadOnlySequence UInt8) :
    verdict (tryReadFrame buffer) = readFrame buffer.toList := by
  have hprefix : readUInt32LittleEndian (buffer.slice 0 lengthPrefixSize).toList =
      readUInt32LittleEndian buffer.toList := by
    rw [ReadOnlySequence.toList_slice, List.drop_zero, readUInt32LittleEndian,
      readUInt32LittleEndian, List.take_take, Nat.min_self]
  rw [tryReadFrame, readFrame, buffer.length_toList, hprefix]
  dsimp only
  by_cases hshort : buffer.length < lengthPrefixSize
  · rw [if_pos hshort, if_pos hshort]
    rfl
  rw [if_neg hshort, if_neg hshort]
  by_cases hlength : (readUInt32LittleEndian buffer.toList).toNat < minPayloadSize ∨
      maxPayloadSize < (readUInt32LittleEndian buffer.toList).toNat
  · rw [if_pos hlength, if_pos hlength]
    rfl
  rw [if_neg hlength, if_neg hlength]
  by_cases hpartial :
    buffer.length < lengthPrefixSize + (readUInt32LittleEndian buffer.toList).toNat
  · rw [if_pos hpartial, if_pos hpartial]
    rfl
  rw [if_neg hpartial, if_neg hpartial]
  have hheader : ∀ i < minPayloadSize, (((buffer.slice lengthPrefixSize
      (readUInt32LittleEndian buffer.toList).toNat).slice 0 minPayloadSize).toList).getD i 0 =
      buffer.toList.getD (lengthPrefixSize + i) 0 := by
    intro i hi
    have hsize : minPayloadSize ≤ (readUInt32LittleEndian buffer.toList).toNat := by omega
    rw [ReadOnlySequence.toList_slice, ReadOnlySequence.toList_slice, List.drop_zero,
      List.take_take, Nat.min_eq_left hsize, List.getD_eq_getElem?_getD, List.getElem?_take,
      if_pos hi, List.getElem?_drop, ← List.getD_eq_getElem?_getD]
  rw [hheader 0 (by decide), hheader 1 (by decide)]
  by_cases hversion : buffer.toList.getD 4 0 ≠ currentVersion
  · rw [if_pos hversion, if_pos hversion]
    rfl
  rw [if_neg hversion, if_neg hversion]
  cases ht : FeedMessageType.ofByte? (buffer.toList.getD 5 0) with
  | none => rfl
  | some type =>
    dsimp only
    by_cases hsize : (readUInt32LittleEndian buffer.toList).toNat ≠ expectedPayloadSize type
    · rw [if_pos hsize, if_pos hsize]
      rfl
    rw [if_neg hsize, if_neg hsize]
    rw [ne_eq, not_not] at hsize
    simp only [verdict, ReadOnlySequence.toList_slice, ReadOnlySequence.toList_sliceFrom, hsize]

/-- A call that extracts nothing leaves the buffer as it was. -/
theorem tryReadFrame_unchanged {buffer : ReadOnlySequence UInt8}
    (h : ∀ frame, (tryReadFrame buffer).2 ≠ .ok (some frame)) :
    (tryReadFrame buffer).1 = buffer := by
  unfold tryReadFrame at h ⊢
  dsimp only at h ⊢
  split_ifs at h ⊢ with hshort hlength hpartial hversion
  all_goals try rfl
  split at h
  · rfl
  · split_ifs at h ⊢ with hsize
    · rfl
    · exact absurd rfl (h _)

/-- The exchange's frames, read incrementally. -/
def frameReader : FrameReader UInt8 InvalidDataException RawFrame where
  next := readFrame
  next_nil := rfl
  next_length h := by
    have hc := readFrame_consumes h
    simp only [lengthPrefixSize, minPayloadSize] at hc
    omega
  next_append := readFrame_append
  error_append := readFrame_error_append

end Tckr.Protocol
