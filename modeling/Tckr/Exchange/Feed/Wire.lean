import Tckr.Exchange.Feed.Ledger

/-!
# What a consumer reads off the wire

Draining the bytes of a session through the frame reader gives back the ledger's
frames: those completely on the wire, and with the bytes still to be sent behind
them, all that are kept.
-/

namespace Tckr.Feed

open Protocol

/-- The number a tick frame carries. -/
def tickNumber? (f : RawFrame) : Option UInt64 :=
  if f.1.isTick then some (readUInt64LittleEndian (f.2.drop 8)) else none

/-- The numbers of the ticks complete in a byte string. -/
def tickNumbers (b : Bytes) : List UInt64 := (frameReader.drain b).1.filterMap tickNumber?

namespace Session

/-- The numbers of the ticks completely written to the socket. -/
def wireTicks (s : Session) : List UInt64 := tickNumbers s.wire

/-- The numbers of the ticks discarded from the pipe. -/
def discardedTicks (s : Session) : List UInt64 := tickNumbers s.discarded

/-- The bytes of the pipe, and of a heartbeat under way, still to be sent. -/
def unsent (s : Session) : Bytes := match s.writeLoop with
  | .sending buffer rest _ => rest ++ s.pipe.unread.drop buffer.length
  | .sendingHeartbeat rest => rest ++ s.pipe.unread
  | .discardReported buffer _ => s.pipe.unread.drop buffer.length
  | _ => s.pipe.unread

end Session

/-- The number on the wire is the low part of a tick's position. -/
theorem tickNumber?_raw (f : Outbound) : tickNumber? f.raw = f.position?.map UInt64.ofNat := by
  cases f with
  | sessionStart sessionId heartbeatMs startNanos => rfl
  | tick position record =>
    have hnumber : readUInt64LittleEndian ((tickPayload
        { record.val with sequenceNumber := UInt64.ofNat position }).drop 8) =
        UInt64.ofNat position := by
      simp [tickPayload, List.drop_append, List.drop_of_length_le]
    simp only [tickNumber?, Outbound.raw, Outbound.message, FeedMessage.type, FeedMessage.payload,
      record.property, ite_true, hnumber, Outbound.position?, Option.map_some]
  | heartbeat lastPosition timestampNanos => rfl

theorem filterMap_tickNumber? (fs : List Outbound) :
    (fs.map Outbound.raw).filterMap tickNumber? = (positions fs).map UInt64.ofNat := by
  rw [List.filterMap_map, positions, List.map_filterMap]
  exact congrArg (fun g => List.filterMap g fs) (funext tickNumber?_raw)

/-- The bytes of an extracted frame. -/
def rawBytes (f : RawFrame) : Bytes :=
  writeUInt32LittleEndian (UInt32.ofNat (expectedPayloadSize f.1)) ++ f.2

theorem frames_eq_rawBytes (fs : List Outbound) :
    frames fs = (fs.map Outbound.raw).flatMap rawBytes := by
  rw [List.flatMap_map]
  rfl

private theorem next_raw (fs : List Outbound) :
    ∀ f ∈ fs.map Outbound.raw, ∀ rest,
      frameReader.next (rawBytes f ++ rest) = .ok (some (f, rest)) := by
  intro f hf rest
  obtain ⟨g, -, rfl⟩ := List.mem_map.mp hf
  exact readFrame_frame g.hasLayout rest

/-- Whole frames read back as themselves. -/
theorem drain_frames (fs : List Outbound) :
    frameReader.drain (frames fs) = (fs.map Outbound.raw, .ok []) := by
  have h := FrameReader.drain_encode_append (r := frameReader) (next_raw fs) []
  rwa [List.append_nil, FrameReader.drain_nil, List.append_nil, ← frames_eq_rawBytes] at h

theorem tickNumbers_frames (fs : List Outbound) :
    tickNumbers (frames fs) = (positions fs).map UInt64.ofNat := by
  rw [tickNumbers, drain_frames, filterMap_tickNumber?]

/-- A prefix of frames reads as the frames complete in it. -/
theorem drain_prefix_frames {b : Bytes} {fs : List Outbound} (h : b <+: frames fs) :
    ∃ sent left part, fs = sent ++ left ∧ b = frames sent ++ part ∧
      frameReader.drain b = (sent.map Outbound.raw, .ok part) := by
  rw [frames_eq_rawBytes] at h
  obtain ⟨done, rest, part, hfs, hb, hdrain⟩ := FrameReader.drain_prefix (next_raw fs) h
  obtain ⟨sent, left, rfl, rfl, rfl⟩ := List.map_eq_append_iff.mp hfs
  exact ⟨sent, left, part, rfl, by rw [hb, frames_eq_rawBytes], hdrain⟩

namespace Represents

variable {s : Session} {L : Ledger}

/-- What is on the wire is part of what the write loop has sent or is sending. -/
theorem wire_prefix (h : Represents s L) : s.wire <+: frames (L.out ++ L.held) := by
  have htape := h.tape
  have hout : ∀ {w : Bytes}, w = frames L.out → w <+: frames (L.out ++ L.held) := fun hw => by
    rw [hw, frames_append]
    exact List.prefix_append _ _
  unfold Tape at htape
  split at htape
  · exact hout htape.2.1
  · exact hout htape.2.1
  · exact hout htape.2.1
  · exact hout htape.2.1
  · exact hout htape.1
  · exact hout htape.1
  · exact hout htape.1
  · exact hout htape.2.1
  · exact ⟨_, htape.1⟩
  · exact ⟨_, htape.1⟩
  all_goals exact htape

theorem wire_prefix_kept (h : Represents s L) : s.wire <+: frames L.kept := by
  rw [Ledger.kept, frames_append]
  exact h.wire_prefix.trans (List.prefix_append _ _)

/-- A consumer reads the first frames of the ledger. -/
theorem drain_wire (h : Represents s L) : ∃ sent left part, L.kept = sent ++ left ∧
    s.wire = frames sent ++ part ∧
    frameReader.drain s.wire = (sent.map Outbound.raw, .ok part) :=
  drain_prefix_frames h.wire_prefix_kept

/-- While the write loop goes on, the bytes sent and to be sent are the kept frames. -/
theorem wire_append_unsent (h : Represents s L) (hloop : s.writeLoop ≠ .finishing ∧
    s.writeLoop ≠ .completingReader ∧ s.writeLoop ≠ .cancelling ∧ s.writeLoop ≠ .finished) :
    s.wire ++ s.unsent = frames L.kept := by
  have htape := h.tape
  obtain ⟨hf, hc, hx, hd⟩ := hloop
  rw [Ledger.kept, frames_append, Session.unsent]
  cases hpc : s.writeLoop with
  | notStarted | awaitingRead | checkingClose | heartbeatDue =>
    rw [hpc] at htape
    obtain ⟨hheld, hwire, hqueue⟩ := htape
    simp only [hheld, hwire, hqueue, List.append_nil]
  | holding buffer completed | discarding buffer completed | discardCounted buffer completed =>
    rw [hpc] at htape
    obtain ⟨hwire, hbuffer, hqueue⟩ := htape
    simp only [hwire, hbuffer, hqueue, frames_append, List.append_assoc]
  | discardReported buffer completed =>
    rw [hpc] at htape
    obtain ⟨hheld, hwire, hqueue⟩ := htape
    simp only [hheld, hwire, hqueue, List.append_nil, List.drop_left]
  | sending buffer rest completed =>
    rw [hpc] at htape
    obtain ⟨hwire, hqueue⟩ := htape
    simp only [hqueue, List.drop_left, ← List.append_assoc, hwire]
  | sendingHeartbeat rest =>
    rw [hpc] at htape
    obtain ⟨hwire, hqueue⟩ := htape
    simp only [hqueue, ← List.append_assoc, hwire]
  | finishing => exact absurd hpc hf
  | completingReader => exact absurd hpc hc
  | cancelling => exact absurd hpc hx
  | finished => exact absurd hpc hd

end Represents

end Tckr.Feed
