import Tckr.Exchange.Protocol.Reader

/-!
# Consuming the feed in chunks

The consumer appends what it receives to the unread remainder and extracts frames
until none is complete. Where the transport cuts the stream and how the buffer is
segmented leave no trace: the frames, the remainder and the rejection are those of
the whole stream read at once.
-/

namespace Tckr.Protocol

/-- The frames of a buffer, as extracted, and the buffer or the exception behind them. -/
abbrev Extraction := List (FeedMessageType × ReadOnlySequence UInt8) ×
  Except InvalidDataException (ReadOnlySequence UInt8)

/-- Call `tryReadFrame` until it returns false or throws, at most the given number
of times. -/
def processBufferWithin : Nat → ReadOnlySequence UInt8 → Extraction
  | 0, buffer => ([], .ok buffer)
  | n + 1, buffer => match tryReadFrame buffer with
      | (_, .error e) => ([], .error e)
      | (rest, .ok none) => ([], .ok rest)
      | (rest, .ok (some frame)) =>
          let out := processBufferWithin n rest
          (frame :: out.1, out.2)

/-- Extract frames from a buffer until none is complete. Every extraction consumes
bytes, so the buffer's length bounds the calls. -/
def processBuffer (buffer : ReadOnlySequence UInt8) : Extraction :=
  processBufferWithin buffer.length buffer

/-- The bytes an extraction yields, without the segments they lie in. -/
def Extraction.bytes (out : Extraction) : List RawFrame × Except InvalidDataException Bytes :=
  (out.1.map fun frame => (frame.1, frame.2.toList), match out.2 with
    | .error e => .error e
    | .ok rest => .ok rest.toList)

/-- One delivery: the bytes received, and the sizes of the segments the buffer has
once they are appended to the remainder. -/
structure Delivery where
  chunk : Bytes
  sizes : List Nat
  deriving DecidableEq, Repr

/-- The consumer loop: append each delivery to the unread remainder and extract,
until an exception ends it. -/
def receive (remainder : Bytes) : List Delivery → List RawFrame × Except InvalidDataException Bytes
  | [] => ([], .ok remainder)
  | d :: ds => match (processBuffer
      (ReadOnlySequence.layout d.sizes (remainder ++ d.chunk))).bytes with
      | (frames, .error e) => (frames, .error e)
      | (frames, .ok rest) =>
          let out := receive rest ds
          (frames ++ out.1, out.2)

/-- Extraction from segments is draining the bytes they hold. -/
theorem processBufferWithin_bytes (n : Nat) (buffer : ReadOnlySequence UInt8) :
    (processBufferWithin n buffer).bytes = frameReader.drainWithin n buffer.toList := by
  induction n generalizing buffer with
  | zero => rfl
  | succ n ih =>
    have hv := verdict_tryReadFrame buffer
    have hsame := @tryReadFrame_unchanged buffer
    have hnext : frameReader.next buffer.toList = readFrame buffer.toList := rfl
    rw [processBufferWithin, FrameReader.drainWithin, hnext, ← hv]
    rcases htry : tryReadFrame buffer with ⟨rest, e | _ | ⟨type, payload⟩⟩
    · rfl
    · rw [htry] at hsame
      have hrest : rest = buffer := by
        apply hsame
        intro f h
        cases h
      rw [hrest]
      rfl
    · have hrest := ih rest
      simp only [verdict, ← hrest, Extraction.bytes, List.map_cons]

theorem processBuffer_bytes (buffer : ReadOnlySequence UInt8) :
    (processBuffer buffer).bytes = frameReader.drain buffer.toList := by
  rw [processBuffer, processBufferWithin_bytes, FrameReader.drain, buffer.length_toList]

/-- The consumer loop reads the chunks as the incremental reader does. -/
theorem receive_eq_consume (remainder : Bytes) (ds : List Delivery) :
    receive remainder ds = frameReader.consume remainder (ds.map Delivery.chunk) := by
  induction ds generalizing remainder with
  | nil => rfl
  | cons d ds ih =>
    rw [receive, processBuffer_bytes, ReadOnlySequence.toList_layout, List.map_cons,
      FrameReader.consume]
    rcases frameReader.drain (remainder ++ d.chunk) with ⟨frames, e | rest⟩
    · rfl
    · simp only [ih]

/-! ## Verdicts on segmented buffers -/

/-- A call that extracts consumes at least the prefix and a header. -/
theorem tryReadFrame_consumes {buffer : ReadOnlySequence UInt8}
    {frame : FeedMessageType × ReadOnlySequence UInt8}
    (h : (tryReadFrame buffer).2 = .ok (some frame)) :
    (tryReadFrame buffer).1.length + 6 ≤ buffer.length := by
  have hv := verdict_tryReadFrame buffer
  rw [verdict, h] at hv
  have hc := readFrame_consumes hv.symm
  rw [ReadOnlySequence.length_toList, ReadOnlySequence.length_toList] at hc
  exact hc

/-- Later bytes never contradict a thrown exception. -/
theorem tryReadFrame_error_stable {buffer later : ReadOnlySequence UInt8} {more : Bytes}
    {e : InvalidDataException} (hl : later.toList = buffer.toList ++ more)
    (h : (tryReadFrame buffer).2 = .error e) : (tryReadFrame later).2 = .error e := by
  have hv := verdict_tryReadFrame buffer
  rw [verdict, h] at hv
  have hlater := verdict_tryReadFrame later
  rw [hl, readFrame_error_append more hv.symm] at hlater
  rcases htry : tryReadFrame later with ⟨rest, e' | _ | ⟨type, payload⟩⟩
  · rw [htry] at hlater
    exact congrArg Except.error (Except.error.inj hlater)
  · rw [htry] at hlater
    cases hlater
  · rw [htry] at hlater
    cases hlater

/-- Later bytes never contradict an extracted frame; they follow what it left. -/
theorem tryReadFrame_frame_stable {buffer later payload : ReadOnlySequence UInt8} {more : Bytes}
    {type : FeedMessageType} (hl : later.toList = buffer.toList ++ more)
    (h : (tryReadFrame buffer).2 = .ok (some (type, payload))) :
    ∃ payload', (tryReadFrame later).2 = .ok (some (type, payload')) ∧
      payload'.toList = payload.toList ∧
      (tryReadFrame later).1.toList = (tryReadFrame buffer).1.toList ++ more := by
  have hv := verdict_tryReadFrame buffer
  rw [verdict, h] at hv
  have hlater := verdict_tryReadFrame later
  rw [hl, readFrame_append more hv.symm] at hlater
  rcases htry : tryReadFrame later with ⟨rest, e' | _ | ⟨type', payload'⟩⟩
  · rw [htry] at hlater
    cases hlater
  · rw [htry] at hlater
    cases hlater
  · rw [htry] at hlater
    simp only [verdict, Except.ok.injEq, Option.some.injEq, Prod.mk.injEq] at hlater
    obtain ⟨⟨rfl, hpayload⟩, hrest⟩ := hlater
    exact ⟨payload', rfl, hpayload, hrest⟩

/-- The loop runs until no frame is complete. -/
theorem processBuffer_ends {buffer rest : ReadOnlySequence UInt8}
    (h : (processBuffer buffer).2 = .ok rest) : (tryReadFrame rest).2 = .ok none := by
  have hb := processBuffer_bytes buffer
  have hd : (frameReader.drain buffer.toList).2 = .ok rest.toList := by
    rw [← hb, Extraction.bytes, h]
  have hnone : readFrame rest.toList = .ok none := frameReader.next_remainder hd
  rw [← verdict_tryReadFrame, verdict] at hnone
  rcases htry : tryReadFrame rest with ⟨rest', e' | _ | ⟨type', payload'⟩⟩
  · rw [htry] at hnone
    cases hnone
  · rfl
  · rw [htry] at hnone
    cases hnone

/-- The bytes a list of deliveries carries. -/
def stream (ds : List Delivery) : Bytes := (ds.map Delivery.chunk).flatten

/-- However a byte string is delivered and segmented, the consumer loop yields the
frames and the outcome of reading it whole; and the verdicts it is made of leave
the buffer alone unless they extract, consume when they extract, are never
contradicted by later bytes, and decode ticks from any segmentation alike. -/
theorem receive_independent_of_chunking :
    (∀ (ds : List Delivery) (whole : ReadOnlySequence UInt8), whole.toList = stream ds →
      receive [] ds = (processBuffer whole).bytes) ∧
    (∀ buffer : ReadOnlySequence UInt8,
      (∀ frame, (tryReadFrame buffer).2 ≠ .ok (some frame)) → (tryReadFrame buffer).1 = buffer) ∧
    (∀ (buffer : ReadOnlySequence UInt8) (frame : FeedMessageType × ReadOnlySequence UInt8),
      (tryReadFrame buffer).2 = .ok (some frame) →
        (tryReadFrame buffer).1.length + 6 ≤ buffer.length) ∧
    (∀ buffer rest : ReadOnlySequence UInt8, (processBuffer buffer).2 = .ok rest →
      (tryReadFrame rest).2 = .ok none) ∧
    (∀ (buffer later : ReadOnlySequence UInt8) (more : Bytes),
      later.toList = buffer.toList ++ more →
        (∀ e, (tryReadFrame buffer).2 = .error e → (tryReadFrame later).2 = .error e) ∧
        ∀ type payload, (tryReadFrame buffer).2 = .ok (some (type, payload)) →
          ∃ payload', (tryReadFrame later).2 = .ok (some (type, payload')) ∧
            payload'.toList = payload.toList ∧
            (tryReadFrame later).1.toList = (tryReadFrame buffer).1.toList ++ more) ∧
    ∀ payload : ReadOnlySequence UInt8,
      readTickSequence payload = readTick payload.toList := by
  refine ⟨fun ds whole hw => ?_, fun _ => tryReadFrame_unchanged, fun _ _ => tryReadFrame_consumes,
    fun _ _ => processBuffer_ends, fun _ _ _ hl => ⟨fun _ => tryReadFrame_error_stable hl,
      fun _ _ => tryReadFrame_frame_stable hl⟩, readTickSequence_eq⟩
  rw [receive_eq_consume, FrameReader.consume_flatten, processBuffer_bytes, hw, stream]

/-- A heartbeat cut inside its prefix and behind its header, then a bad length. -/
def choppedStream : List Delivery :=
  [⟨[24, 0], [1]⟩,
    ⟨[0, 0, 1, 10, 0, 0, 0, 0, 0, 0, 7, 0, 0, 0, 0, 0, 0], [0, 3, 2]⟩,
    ⟨[0, 9, 0, 0, 0, 0, 0, 0, 0, 1, 0, 0, 0], []⟩]

/-- The chopped stream reads as one frame and then the exception, as it does whole. -/
theorem receive_choppedStream :
    receive [] choppedStream = (processBuffer ⟨[stream choppedStream]⟩).bytes ∧
      receive [] choppedStream =
        ([(.heartbeat, [1, 10, 0, 0, 0, 0, 0, 0, 7, 0, 0, 0, 0, 0, 0, 0, 9, 0, 0, 0, 0, 0, 0, 0])],
          .error (.frameLength 1)) :=
  ⟨receive_independent_of_chunking.1 choppedStream ⟨[stream choppedStream]⟩ (by decide), by decide⟩

end Tckr.Protocol
