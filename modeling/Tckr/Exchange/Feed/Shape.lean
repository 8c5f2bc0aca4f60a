import Tckr.Exchange.Feed.Wire

/-!
# Which frames lie where

A session has one session-start frame, heartbeats never enter the pipe, and the
ticks it keeps are in the order of their numbers.
-/

namespace Tckr.Feed

open Protocol

/-- Whether a frame is a session start. -/
def Outbound.isSessionStart : Outbound → Bool
  | .sessionStart .. => true
  | .tick .. | .heartbeat .. => false

/-- Whether a frame is a heartbeat. -/
def Outbound.isHeartbeat : Outbound → Bool
  | .heartbeat .. => true
  | .sessionStart .. | .tick .. => false

/-- The length of frames that came through the pipe. -/
theorem frames_length {fs : List Outbound} (h : ∀ f ∈ fs, f.isHeartbeat = false) :
    (frames fs).length = tickFrameSize * (positions fs).length +
      sessionStartFrameSize * fs.countP Outbound.isSessionStart := by
  induction fs with
  | nil => rfl
  | cons f fs ih =>
    have hf := h f (List.mem_cons_self ..)
    have hfs := ih fun g hg => h g (List.mem_cons_of_mem f hg)
    rw [frames, List.flatMap_cons, List.length_append, f.bytes_length, ← frames, hfs]
    cases f with
    | sessionStart sessionId heartbeatMs startNanos =>
      have hcount : (Outbound.sessionStart sessionId heartbeatMs startNanos :: fs).countP
          Outbound.isSessionStart = fs.countP Outbound.isSessionStart + 1 :=
        List.countP_cons_of_pos rfl
      have hsize : sessionStartFrameSize = lengthPrefixSize + sessionStartPayloadSize := rfl
      rw [hcount, positions_sessionStart, Nat.mul_succ]
      simp only [Outbound.message, FeedMessage.type, expectedPayloadSize]
      omega
    | tick position record =>
      have hcount : (Outbound.tick position record :: fs).countP Outbound.isSessionStart =
          fs.countP Outbound.isSessionStart := List.countP_cons_of_neg Bool.false_ne_true
      have hsize : expectedPayloadSize (Outbound.tick position record).message.type =
          tickPayloadSize := expectedPayloadSize_of_isTick record.property
      have hframe : tickFrameSize = lengthPrefixSize + tickPayloadSize := rfl
      rw [hcount, positions_tick, hsize, List.length_cons, Nat.mul_succ]
      omega
    | heartbeat lastPosition timestampNanos => cases hf

/-- A batch holds ticks only. -/
theorem tickFrames_shape (first : Nat) (batch : List FeedRecord) :
    ∀ f ∈ tickFrames first batch, f.isHeartbeat = false ∧ f.isSessionStart = false := by
  induction batch generalizing first with
  | nil => exact fun f hf => (nomatch hf)
  | cons record batch ih =>
    intro f hf
    rw [tickFrames] at hf
    split_ifs at hf with ht
    · rcases List.mem_cons.mp hf with rfl | hf
      · exact ⟨rfl, rfl⟩
      · exact ih (first + 1) f hf
    · cases hf

/-- One session start once started, and no heartbeat in the pipe or in a read of it. -/
structure Shape (s : Session) (L : Ledger) : Prop where
  starts : (L.kept ++ L.dropped).countP Outbound.isSessionStart = if s.started then 1 else 0
  queue : ∀ f ∈ L.queue, f.isHeartbeat = false
  held : match s.writeLoop with
    | .holding .. | .discarding .. | .discardCounted .. => ∀ f ∈ L.held, f.isHeartbeat = false
    | _ => True

theorem Shape.of_sameTape {s t : Session} {L : Ledger} (h : Shape s L) (hst : s.SameTape t) :
    Shape t L := by
  refine ⟨?_, h.queue, ?_⟩
  · rw [hst.started]
    exact h.starts
  · rw [hst.writeLoop]
    exact h.held

/-- A discarded read counts its ticks exactly, with or without the start frame in it. -/
theorem Shape.discard_count {s : Session} {L : Ledger} {buffer : Bytes} {completed : Bool}
    (h : Shape s L) (hr : Represents s L) (hpc : s.writeLoop = .discardCounted buffer completed) :
    buffer.length / tickFrameSize = (positions L.held).length := by
  have htape := hr.tape
  have hheld := h.held
  rw [hpc] at htape hheld
  have hlen := frames_length hheld
  have hstart : L.held.countP Outbound.isSessionStart ≤ 1 := by
    have hstarts := h.starts
    simp only [Ledger.kept, List.countP_append] at hstarts
    split_ifs at hstarts <;> omega
  rw [htape.2.1, hlen]
  simp only [tickFrameSize, sessionStartFrameSize, lengthPrefixSize, tickPayloadSize,
    sessionStartPayloadSize]
  omega

theorem Shape.publisherStep {o : FeedServerOptions} {sessionId : Guid} {s t : Session}
    {a : Session.PublisherAction} {L : Ledger} (h : Shape s L)
    (hstep : s.publisherStep o a = some t) :
    Shape t (record o sessionId s (.publisher a) t L) := by
  cases Session.publisherStep_cases hstep with
  | @published batch bytes hpc hstate hencode =>
    simp only [record, Ledger.publish, hpc, hstate, hencode]
    refine Shape.of_sameTape ?_ (Session.flushBatch_sameTape o _ _)
    have hticks := tickFrames_shape s.nextSequence batch
    refine ⟨?_, ?_, h.held⟩
    · have hnone : (tickFrames s.nextSequence batch).countP Outbound.isSessionStart = 0 := by
        rw [List.countP_eq_zero]
        exact fun f hf => Bool.eq_false_iff.mp (hticks f hf).2
      have hstarts := h.starts
      rw [List.countP_append] at hstarts
      rw [Ledger.kept_enqueue, List.countP_append, List.countP_append, hnone, Nat.add_zero]
      exact hstarts
    · intro f hf
      rcases List.mem_append.mp hf with hf | hf
      · exact h.queue f hf
      · exact (hticks f hf).1
  | encodingFailed hpc hstate hencode =>
    simp only [record, Ledger.publish, hpc, hstate, hencode]
    exact ⟨h.starts, h.queue, h.held⟩
  | skippedAtGate hpc hstate | refusedAtGate hpc hstate =>
    simp only [record, Ledger.publish, hpc, hstate]
    exact ⟨h.starts, h.queue, h.held⟩
  | closedFaulted hpc =>
    have hs := h.of_sameTape (Session.beginClose_sameTape .writeFailed s)
    exact ⟨hs.starts, hs.queue, hs.held⟩
  | _ => exact ⟨h.starts, h.queue, h.held⟩

theorem Shape.writeLoopStep {o : FeedServerOptions} {sessionId : Guid} {s t : Session}
    {a : Session.WriteLoopAction} {L : Ledger} (h : Shape s L) (hr : Represents s L)
    (hstep : s.writeLoopStep o a = some t) :
    Shape t (record o sessionId s (.writeLoop a) t L) := by
  have htape := hr.tape
  have hheld := h.held
  have htake : (L.take.kept ++ L.take.dropped).countP Outbound.isSessionStart =
      if s.started then 1 else 0 := by
    rw [Ledger.kept_take]
    exact h.starts
  cases Session.writeLoopStep_cases hstep with
  | read hpc =>
    rw [hpc] at htape
    refine ⟨htake, fun f hf => absurd hf List.not_mem_nil, ?_⟩
    intro f hf
    simp only [record, Ledger.write, Ledger.take, htape.1, List.nil_append] at hf
    exact h.queue f hf
  | readEnd hpc | readEmpty hpc =>
    exact ⟨htake, fun f hf => absurd hf List.not_mem_nil, trivial⟩
  | heartbeat hpc =>
    refine ⟨?_, h.queue, trivial⟩
    have hstarts := h.starts
    simp only [Ledger.kept, List.countP_append] at hstarts
    simp only [record, Ledger.write, Ledger.kept, Ledger.beat, List.countP_append,
      List.countP_singleton, Outbound.isSessionStart, Bool.false_eq_true, ite_false]
    exact hstarts
  | discarding hpc =>
    rw [hpc] at hheld
    exact ⟨h.starts, h.queue, hheld⟩
  | countedDiscard hpc =>
    rw [hpc] at hheld
    exact ⟨h.starts, h.queue, hheld⟩
  | reportedDiscard hpc =>
    refine ⟨?_, h.queue, trivial⟩
    have hstarts := h.starts
    simp only [Ledger.kept, List.countP_append] at hstarts
    simp only [record, Ledger.write, Ledger.kept, Ledger.throw, List.countP_append, List.countP_nil]
    rw [← hstarts]
    omega
  | @advancedDiscard _ completed hpc => cases completed <;> exact ⟨h.starts, h.queue, trivial⟩
  | @completed _ completed hpc =>
    have hdeliver : (L.deliver.kept ++ L.deliver.dropped).countP Outbound.isSessionStart =
        if s.started then 1 else 0 := by
      rw [Ledger.kept_deliver]
      exact h.starts
    cases completed <;> exact ⟨hdeliver, h.queue, trivial⟩
  | completedHeartbeat hpc =>
    refine ⟨?_, h.queue, trivial⟩
    rw [record, Ledger.write, Ledger.kept_deliver]
    exact h.starts
  | _ => exact ⟨h.starts, h.queue, trivial⟩

theorem Shape.ownerStep {o : FeedServerOptions} {sessionId : Guid} {s t : Session}
    {a : Session.OwnerAction} {L : Ledger} (h : Shape s L)
    (hstep : s.ownerStep o sessionId a = some t) :
    Shape t (record o sessionId s (.owner a) t L) := by
  cases Session.ownerStep_cases hstep with
  | @started startNanos hnew =>
    refine ⟨?_, ?_, h.held⟩
    · have hstarts := h.starts
      rw [hnew, List.countP_append] at hstarts
      simp only [Bool.false_eq_true, ite_false] at hstarts
      have hone : [Outbound.sessionStart sessionId o.heartbeatIntervalMs startNanos].countP
          Outbound.isSessionStart = 1 := rfl
      simp only [record, Ledger.kept_enqueue, List.countP_append, hone, ite_true]
      change _ + 1 + L.dropped.countP Outbound.isSessionStart = 1
      omega
    · intro f hf
      rcases List.mem_append.mp hf with hf | hf
      · exact h.queue f hf
      · rw [List.mem_singleton.mp hf]
        rfl
  | timer => exact ⟨h.starts, h.queue, h.held⟩
  | closed => exact h.of_sameTape (Session.beginClose_sameTape _ s)
  | tornDown => exact ⟨h.starts, h.queue, h.held⟩

/-- Every step keeps the frames in their places. -/
theorem Shape.step {o : FeedServerOptions} {sessionId : Guid} {s t : Session}
    {a : Session.Action} {L : Ledger} (h : Shape s L) (hr : Represents s L)
    (hstep : s.step o sessionId a = some t) : Shape t (record o sessionId s a t L) := by
  cases a with
  | publisher a => exact h.publisherStep hstep
  | handler a => exact h.of_sameTape (Session.handlerStep_sameTape hstep)
  | writeLoop a => exact h.writeLoopStep hr hstep
  | owner a => exact h.ownerStep hstep

theorem shape_init : Shape {} {} := ⟨rfl, fun _ hf => (nomatch hf), trivial⟩

end Tckr.Feed
