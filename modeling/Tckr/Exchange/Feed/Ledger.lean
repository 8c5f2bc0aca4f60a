import Tckr.Exchange.Feed.Steps

/-!
# The frames behind the bytes

A ledger names the frames a session has produced: those it has put on the wire,
those its write loop is busy with, those still in the pipe and those it threw
away. The bytes of the session are at every moment the encodings of its ledger,
so what a consumer reads off the wire is the ledger's frames, one after another.
-/

namespace Tckr.Feed

open Protocol

/-- A frame a session produces. A tick keeps its position in the stream of offered
records, of which the wire carries the low 64 bits. -/
inductive Outbound
  | sessionStart (sessionId : Guid) (heartbeatMs : UInt32) (startNanos : Int64)
  | tick (position : Nat) (record : {r : FeedRecord // r.messageType.isTick = true})
  | heartbeat (lastPosition : Nat) (timestampNanos : Int64)

namespace Outbound

/-- The message a frame carries. -/
def message : Outbound → FeedMessage
  | .sessionStart sessionId heartbeatMs startNanos =>
      .sessionStart sessionId heartbeatMs startNanos
  | .tick position record => .tick { record.val with sequenceNumber := UInt64.ofNat position }
  | .heartbeat lastPosition timestampNanos =>
      .heartbeat (UInt64.ofNat lastPosition) timestampNanos

/-- The bytes of a frame. -/
def bytes (f : Outbound) : Bytes := f.message.frame

/-- A frame as a consumer extracts it. -/
def raw (f : Outbound) : RawFrame := (f.message.type, f.message.payload)

/-- The position of a tick. -/
def position? : Outbound → Option Nat
  | .tick position _ => some position
  | .sessionStart .. | .heartbeat .. => none

theorem hasLayout (f : Outbound) : f.message.HasLayout := by
  cases f with
  | sessionStart sessionId heartbeatMs startNanos => trivial
  | tick position record => exact record.property
  | heartbeat lastPosition timestampNanos => trivial

theorem bytes_length (f : Outbound) :
    f.bytes.length = lengthPrefixSize + expectedPayloadSize f.message.type :=
  FeedMessage.frame_length f.hasLayout

theorem bytes_ne_nil (f : Outbound) : f.bytes ≠ [] := by
  intro h
  have hlen := f.bytes_length
  rw [h, List.length_nil] at hlen
  simp only [lengthPrefixSize] at hlen
  omega

end Outbound

/-- The bytes of frames one behind the other. -/
def frames (fs : List Outbound) : Bytes := fs.flatMap Outbound.bytes

@[simp] theorem frames_nil : frames [] = [] := rfl

@[simp] theorem frames_append (fs gs : List Outbound) :
    frames (fs ++ gs) = frames fs ++ frames gs := List.flatMap_append

@[simp] theorem frames_singleton (f : Outbound) : frames [f] = f.bytes := by
  rw [frames, List.flatMap_cons, List.flatMap_nil, List.append_nil]

theorem frames_eq_nil {fs : List Outbound} (h : frames fs = []) : fs = [] := by
  cases fs with
  | nil => rfl
  | cons f fs =>
    rw [frames, List.flatMap_cons, List.append_eq_nil_iff] at h
    exact absurd h.1 f.bytes_ne_nil

/-- The positions of the ticks among frames. -/
def positions (fs : List Outbound) : List Nat := fs.filterMap Outbound.position?

@[simp] theorem positions_nil : positions [] = [] := rfl

@[simp] theorem positions_append (fs gs : List Outbound) :
    positions (fs ++ gs) = positions fs ++ positions gs := List.filterMap_append

@[simp] theorem positions_tick (position : Nat)
    (record : {r : FeedRecord // r.messageType.isTick = true}) (fs : List Outbound) :
    positions (.tick position record :: fs) = position :: positions fs := rfl

@[simp] theorem positions_sessionStart (sessionId : Guid) (heartbeatMs : UInt32)
    (startNanos : Int64) (fs : List Outbound) :
    positions (.sessionStart sessionId heartbeatMs startNanos :: fs) = positions fs := rfl

@[simp] theorem positions_heartbeat (lastPosition : Nat) (timestampNanos : Int64)
    (fs : List Outbound) :
    positions (.heartbeat lastPosition timestampNanos :: fs) = positions fs := rfl

/-- The frames of a batch numbered from `first`. -/
def tickFrames (first : Nat) : List FeedRecord → List Outbound
  | [] => []
  | record :: batch =>
      if h : record.messageType.isTick = true then
        .tick first ⟨record, h⟩ :: tickFrames (first + 1) batch
      else []

/-- An encoded batch is its tick frames, numbered consecutively. -/
theorem encodeBatch_eq_ok {first : Nat} {batch : List FeedRecord} {bytes : Bytes}
    (h : Session.encodeBatch first batch = .ok bytes) :
    bytes = frames (tickFrames first batch) ∧
      positions (tickFrames first batch) = List.range' first batch.length := by
  induction batch generalizing first bytes with
  | nil =>
    cases h
    exact ⟨rfl, rfl⟩
  | cons record batch ih =>
    by_cases ht : record.messageType.isTick = true
    · have hsize : tickFrameSize ≤ (batch.length + 1) * tickFrameSize :=
        Nat.le_mul_of_pos_left _ (Nat.succ_pos _)
      have hwrite := @writeTick_eq _ { record with sequenceNumber := UInt64.ofNat first } hsize ht
      simp only [Session.encodeBatch, hwrite, bind, Except.bind] at h
      cases hrest : Session.encodeBatch (first + 1) batch with
      | error e => simp only [hrest, reduceCtorEq] at h
      | ok rest =>
        simp only [hrest, Except.ok.injEq] at h
        obtain ⟨rfl, hpos⟩ := ih hrest
        have hframe : (Outbound.tick first ⟨record, ht⟩).bytes =
            writeUInt32LittleEndian (UInt32.ofNat tickPayloadSize) ++
              tickPayload { record with sequenceNumber := UInt64.ofNat first } := by
          rw [Outbound.bytes, Outbound.message, FeedMessage.frame, FeedMessage.type,
            expectedPayloadSize_of_isTick ht, FeedMessage.payload]
        constructor
        · rw [tickFrames, dif_pos ht, frames, List.flatMap_cons, hframe]
          exact h.symm
        · rw [tickFrames, dif_pos ht, positions_tick, hpos, List.length_cons, List.range'_succ]
    · have hsize : ¬ (batch.length + 1) * tickFrameSize < tickFrameSize :=
        Nat.not_lt.mpr (Nat.le_mul_of_pos_left _ (Nat.succ_pos _))
      have hwrite : writeTick ((batch.length + 1) * tickFrameSize)
          { record with sequenceNumber := UInt64.ofNat first } =
          .error (.record record.messageType) := by
        rw [Bool.not_eq_true] at ht
        simp only [writeTick, ensureCapacity, hsize, ite_false, ht, Bool.not_false, ite_true]
        rfl
      simp only [Session.encodeBatch, hwrite, bind, Except.bind, reduceCtorEq] at h

/-! ## The ledger -/

/-- The frames of a session, by where they are. -/
structure Ledger where
  /-- Sent before the read in progress. -/
  out : List Outbound := []
  /-- What the write loop is busy with. -/
  held : List Outbound := []
  /-- In the pipe, behind the read in progress. -/
  queue : List Outbound := []
  /-- Discarded from the pipe. -/
  dropped : List Outbound := []

namespace Ledger

/-- The frames that are or will be on the wire, in order. -/
def kept (L : Ledger) : List Outbound := L.out ++ L.held ++ L.queue

/-- Frames enter the pipe. -/
def enqueue (fs : List Outbound) (L : Ledger) : Ledger := { L with queue := L.queue ++ fs }

/-- The write loop reads the pipe. -/
def take (L : Ledger) : Ledger := { L with held := L.held ++ L.queue, queue := [] }

/-- The write loop starts on a heartbeat. -/
def beat (f : Outbound) (L : Ledger) : Ledger := { L with held := L.held ++ [f] }

/-- The write loop throws away what it holds. -/
def throw (L : Ledger) : Ledger := { L with held := [], dropped := L.dropped ++ L.held }

/-- The write loop has sent what it holds. -/
def deliver (L : Ledger) : Ledger := { L with out := L.out ++ L.held, held := [] }

end Ledger

/-- What a step of the publisher adds. -/
def Ledger.publish (s : Session) (L : Ledger) : Session.PublisherAction → Ledger
  | .enterGate => match s.publisher, s.state with
      | .entering batch, .running => match Session.encodeBatch s.nextSequence batch with
          | .ok _ => L.enqueue (tickFrames s.nextSequence batch)
          | .error _ => L
      | _, _ => L
  | _ => L

/-- What a step of the write loop moves. -/
def Ledger.write (s : Session) (L : Ledger) : Session.WriteLoopAction → Ledger
  | .readCompleted => L.take
  | .writeHeartbeat timestampNanos => L.beat (.heartbeat s.lastSequenceQueued timestampNanos)
  | .reportDiscard => L.throw
  | .sendCompleted => L.deliver
  | .run | .checkClose | .takeDiscard | .countDiscard | .advanceDiscard | .socketSend _
  | .sendFailed _ | .canceled | .finishState | .completeReader | .cancelLoops => L

/-- What a step does to the ledger. -/
def record (o : FeedServerOptions) (sessionId : Guid) (s : Session) (a : Session.Action)
    (_ : Session) (L : Ledger) : Ledger :=
  match a with
  | .owner (.start startNanos) =>
      L.enqueue [.sessionStart sessionId o.heartbeatIntervalMs startNanos]
  | .publisher a => L.publish s a
  | .writeLoop a => L.write s a
  | _ => L

/-- The bytes of a session are the encodings of its ledger. -/
def Tape (L : Ledger) (wire unread : Bytes) : WriteLoop → Prop
  | .notStarted | .awaitingRead | .checkingClose | .heartbeatDue =>
      L.held = [] ∧ wire = frames L.out ∧ unread = frames L.queue
  | .holding buffer _ | .discarding buffer _ | .discardCounted buffer _ =>
      wire = frames L.out ∧ buffer = frames L.held ∧ unread = buffer ++ frames L.queue
  | .discardReported buffer _ =>
      L.held = [] ∧ wire = frames L.out ∧ unread = buffer ++ frames L.queue
  | .sending buffer rest _ =>
      wire ++ rest = frames (L.out ++ L.held) ∧ unread = buffer ++ frames L.queue
  | .sendingHeartbeat rest => wire ++ rest = frames (L.out ++ L.held) ∧ unread = frames L.queue
  | .finishing | .completingReader | .cancelling | .finished =>
      wire <+: frames (L.out ++ L.held)

/-- A ledger of a session. -/
structure Represents (s : Session) (L : Ledger) : Prop where
  tape : Tape L s.wire s.pipe.unread s.writeLoop
  discarded : s.discarded = frames L.dropped
  /-- Before the session-start frame nothing is published and nothing is read. -/
  fresh : s.started = false → s.writeLoop = .notStarted ∧ s.publisher = .idle ∧ L.kept = []

theorem Represents.of_sameTape {s t : Session} {L : Ledger} (h : Represents s L)
    (hst : s.SameTape t) : Represents t L := by
  refine ⟨?_, ?_, ?_⟩
  · rw [hst.wire, hst.unread, hst.writeLoop]
    exact h.tape
  · rw [hst.discarded]
    exact h.discarded
  · rw [hst.started, hst.writeLoop, hst.publisher]
    exact h.fresh

/-! ## Every step keeps the ledger -/

theorem Tape.enqueue {L : Ledger} {wire unread : Bytes} {loop : WriteLoop}
    (h : Tape L wire unread loop) (fs : List Outbound) :
    Tape (L.enqueue fs) wire (unread ++ frames fs) loop := by
  cases loop with
  | notStarted | awaitingRead | checkingClose | heartbeatDue =>
    exact ⟨h.1, h.2.1, by rw [h.2.2, Ledger.enqueue, frames_append]⟩
  | holding buffer completed | discarding buffer completed | discardCounted buffer completed =>
    exact ⟨h.1, h.2.1, by rw [h.2.2, Ledger.enqueue, frames_append, List.append_assoc]⟩
  | discardReported buffer completed =>
    exact ⟨h.1, h.2.1, by rw [h.2.2, Ledger.enqueue, frames_append, List.append_assoc]⟩
  | sending buffer rest completed =>
    exact ⟨h.1, by rw [h.2, Ledger.enqueue, frames_append, List.append_assoc]⟩
  | sendingHeartbeat rest => exact ⟨h.1, by rw [h.2, Ledger.enqueue, frames_append]⟩
  | finishing | completingReader | cancelling | finished => exact h

@[simp] theorem Ledger.kept_enqueue (fs : List Outbound) (L : Ledger) :
    (L.enqueue fs).kept = L.kept ++ fs := by
  simp only [kept, enqueue, List.append_assoc]

@[simp] theorem Ledger.kept_take (L : Ledger) : L.take.kept = L.kept := by
  simp only [kept, take, List.append_nil, List.append_assoc]

@[simp] theorem Ledger.kept_deliver (L : Ledger) : L.deliver.kept = L.kept := by
  simp only [kept, deliver, List.append_nil]

/-- In a started session only the bytes matter. -/
theorem Represents.of_started {s : Session} {L : Ledger} (hs : s.started = true)
    (htape : Tape L s.wire s.pipe.unread s.writeLoop) (hd : s.discarded = frames L.dropped) :
    Represents s L :=
  ⟨htape, hd, fun h => by rw [hs] at h; contradiction⟩

theorem Represents.started_of_publisher {s : Session} {L : Ledger} (h : Represents s L)
    (hpc : s.publisher ≠ .idle) : s.started = true := by
  by_contra hs
  exact hpc (h.fresh (Bool.not_eq_true _ ▸ hs)).2.1

theorem Represents.started_of_writeLoop {s : Session} {L : Ledger} (h : Represents s L)
    (hpc : s.writeLoop ≠ .notStarted) : s.started = true := by
  by_contra hs
  exact hpc (h.fresh (Bool.not_eq_true _ ▸ hs)).1

theorem Represents.publisherStep {o : FeedServerOptions} {sessionId : Guid} {s t : Session}
    {a : Session.PublisherAction} {L : Ledger} (h : Represents s L)
    (hstep : s.publisherStep o a = some t) :
    Represents t (record o sessionId s (.publisher a) t L) := by
  cases Session.publisherStep_cases hstep with
  | ignored => exact h
  | called hpc hbatch hstarted => exact .of_started hstarted h.tape h.discarded
  | published hpc hstate hencode =>
    obtain ⟨rfl, -⟩ := encodeBatch_eq_ok hencode
    have hstarted := h.started_of_publisher (by rw [hpc]; nofun)
    simp only [record, Ledger.publish, hpc, hstate, hencode]
    refine Represents.of_sameTape ?_ (Session.flushBatch_sameTape o _ _)
    exact .of_started hstarted (h.tape.enqueue _) h.discarded
  | encodingFailed hpc hstate hencode =>
    have hstarted := h.started_of_publisher (by rw [hpc]; nofun)
    simp only [record, Ledger.publish, hpc, hstate, hencode]
    exact .of_started hstarted h.tape h.discarded
  | skippedAtGate hpc hstate | refusedAtGate hpc hstate =>
    have hstarted := h.started_of_publisher (by rw [hpc]; nofun)
    simp only [record, Ledger.publish, hpc, hstate]
    exact .of_started hstarted h.tape h.discarded
  | readRunning hpc | readBehind hpc | readClosing hpc =>
    exact .of_started (h.started_of_publisher (by rw [hpc]; nofun)) h.tape h.discarded
  | reserved hpc | counted hpc | reported hpc =>
    exact .of_started (h.started_of_publisher (by rw [hpc]; nofun)) h.tape h.discarded
  | closedFaulted hpc =>
    have hsame := Session.beginClose_sameTape .writeFailed s
    have hs := h.of_sameTape hsame
    exact .of_started (hsame.started.trans (h.started_of_publisher (by rw [hpc]; nofun)))
      hs.tape hs.discarded

/-- Between reads everything held has been sent, whether or not the loop goes on. -/
theorem Tape.next {L : Ledger} {wire unread : Bytes} (hheld : L.held = [])
    (hwire : wire = frames L.out) (hqueue : unread = frames L.queue) (completed : Bool) :
    Tape L wire unread (.next completed) := by
  cases completed with
  | false => exact ⟨hheld, hwire, hqueue⟩
  | true =>
    change wire <+: frames (L.out ++ L.held)
    rw [hwire, frames_append]
    exact List.prefix_append _ _

/-- A send in progress has written part of what is held. -/
theorem Tape.prefix_of_sending {L : Ledger} {wire unread : Bytes} {loop : WriteLoop}
    (h : Tape L wire unread loop)
    (hloop : (∃ buffer rest completed, loop = .sending buffer rest completed) ∨
      ∃ rest, loop = .sendingHeartbeat rest) : wire <+: frames (L.out ++ L.held) := by
  rcases hloop with ⟨buffer, rest, completed, rfl⟩ | ⟨rest, rfl⟩
  · exact ⟨rest, h.1⟩
  · exact ⟨rest, h.1⟩

theorem Represents.writeLoopStep {o : FeedServerOptions} {sessionId : Guid} {s t : Session}
    {a : Session.WriteLoopAction} {L : Ledger} (h : Represents s L)
    (hstep : s.writeLoopStep o a = some t) :
    Represents t (record o sessionId s (.writeLoop a) t L) := by
  have htape := h.tape
  have hstarted : ∀ {loop}, s.writeLoop = loop → loop ≠ .notStarted → s.started = true :=
    fun hpc hne => h.started_of_writeLoop (hpc ▸ hne)
  cases Session.writeLoopStep_cases hstep with
  | run hpc hs =>
    rw [hpc] at htape
    exact .of_started hs htape h.discarded
  | read hpc hunread =>
    rw [hpc] at htape
    obtain ⟨hheld, hwire, hqueue⟩ := htape
    refine .of_started (hstarted hpc nofun) ⟨hwire, ?_, ?_⟩ h.discarded
    · rw [record, Ledger.write, Ledger.take, hheld, hqueue, List.nil_append]
    · rw [record, Ledger.write, Ledger.take, frames_nil, List.append_nil]
  | readEnd hpc hunread =>
    rw [hpc] at htape
    have hwire : s.wire <+: frames (L.out ++ (L.held ++ L.queue)) := by
      rw [htape.2.1, frames_append]
      exact List.prefix_append _ _
    exact .of_started (hstarted hpc nofun) hwire h.discarded
  | readEmpty hpc hunread =>
    rw [hpc] at htape
    obtain ⟨hheld, hwire, hqueue⟩ := htape
    have hnil : L.queue = [] := frames_eq_nil (hqueue.symm.trans hunread)
    refine .of_started (hstarted hpc nofun) ⟨?_, hwire, hunread⟩ h.discarded
    rw [record, Ledger.write, Ledger.take, hheld, hnil, List.nil_append]
  | checkedClosing hpc | checkedOpen hpc =>
    rw [hpc] at htape
    exact .of_started (hstarted hpc nofun) htape h.discarded
  | @heartbeat timestampNanos hpc =>
    rw [hpc] at htape
    obtain ⟨hheld, hwire, hqueue⟩ := htape
    refine .of_started (hstarted hpc nofun) ⟨?_, hqueue⟩ h.discarded
    rw [record, Ledger.write, Ledger.beat, hheld, List.nil_append, frames_append, frames_singleton,
      hwire]
    rfl
  | discarding hpc | countedDiscard hpc =>
    rw [hpc] at htape
    exact .of_started (hstarted hpc nofun) htape h.discarded
  | @sending buffer completed hpc =>
    rw [hpc] at htape
    obtain ⟨hwire, hbuffer, hqueue⟩ := htape
    have hflow : s.wire ++ buffer = frames (L.out ++ L.held) := by
      rw [hwire, hbuffer, frames_append]
    exact .of_started (hstarted hpc nofun) ⟨hflow, hqueue⟩ h.discarded
  | @reportedDiscard buffer completed hpc =>
    rw [hpc] at htape
    obtain ⟨hwire, hbuffer, hqueue⟩ := htape
    have hdiscarded : s.discarded ++ buffer = frames (L.dropped ++ L.held) := by
      rw [h.discarded, hbuffer, frames_append]
    exact .of_started (hstarted hpc nofun) ⟨rfl, hwire, hqueue⟩ hdiscarded
  | @advancedDiscard buffer completed hpc =>
    rw [hpc] at htape
    obtain ⟨hheld, hwire, hqueue⟩ := htape
    have hrest : s.pipe.unread.drop buffer.length = frames L.queue := by
      rw [hqueue, List.drop_left]
    exact .of_started (hstarted hpc nofun) (.next hheld hwire hrest completed) h.discarded
  | @sent buffer rest completed sent hpc =>
    rw [hpc] at htape
    have hflow : s.wire ++ rest.take sent ++ rest.drop sent = frames (L.out ++ L.held) := by
      rw [List.append_assoc, List.take_append_drop, htape.1]
    exact .of_started (hstarted hpc nofun) ⟨hflow, htape.2⟩ h.discarded
  | @sentHeartbeat rest sent hpc =>
    rw [hpc] at htape
    have hflow : s.wire ++ rest.take sent ++ rest.drop sent = frames (L.out ++ L.held) := by
      rw [List.append_assoc, List.take_append_drop, htape.1]
    exact .of_started (hstarted hpc nofun) ⟨hflow, htape.2⟩ h.discarded
  | @completed buffer completed hpc =>
    rw [hpc] at htape
    obtain ⟨hwire, hqueue⟩ := htape
    rw [List.append_nil] at hwire
    have hrest : s.pipe.unread.drop buffer.length = frames L.queue := by
      rw [hqueue, List.drop_left]
    exact .of_started (hstarted hpc nofun)
      (Tape.next (L := L.deliver) rfl hwire hrest completed) h.discarded
  | completedHeartbeat hpc =>
    rw [hpc] at htape
    obtain ⟨hwire, hqueue⟩ := htape
    rw [List.append_nil] at hwire
    exact .of_started (hstarted hpc nofun) ⟨rfl, hwire, hqueue⟩ h.discarded
  | failed hpc =>
    have hs : s.started = true := by
      rcases hpc with ⟨_, _, _, hpc⟩ | ⟨_, hpc⟩
      · exact hstarted hpc nofun
      · exact hstarted hpc nofun
    exact .of_started hs (htape.prefix_of_sending hpc) h.discarded
  | canceled hpc =>
    rcases hpc with hpc | hpc
    · have hnext := hpc ▸ htape
      exact .of_started (hstarted hpc nofun)
        (.next hnext.1 hnext.2.1 hnext.2.2 true) h.discarded
    · have hs : s.started = true := by
        rcases hpc with ⟨_, _, _, hpc⟩ | ⟨_, hpc⟩
        · exact hstarted hpc nofun
        · exact hstarted hpc nofun
      exact .of_started hs (htape.prefix_of_sending hpc) h.discarded
  | finishedState hpc | completedReader hpc | canceledLoops hpc =>
    rw [hpc] at htape
    exact .of_started (hstarted hpc nofun) htape h.discarded

theorem Represents.ownerStep {o : FeedServerOptions} {sessionId : Guid} {s t : Session}
    {a : Session.OwnerAction} {L : Ledger} (h : Represents s L)
    (hstep : s.ownerStep o sessionId a = some t) :
    Represents t (record o sessionId s (.owner a) t L) := by
  cases Session.ownerStep_cases hstep with
  | @started startNanos hnew =>
    obtain ⟨hloop, -, -⟩ := h.fresh hnew
    have htape := h.tape.enqueue [.sessionStart sessionId o.heartbeatIntervalMs startNanos]
    rw [frames_singleton] at htape
    exact .of_started rfl htape h.discarded
  | timer => exact h.of_sameTape (⟨rfl, rfl, rfl, rfl, rfl, rfl, rfl, rfl, rfl, rfl, rfl, rfl⟩)
  | closed => exact h.of_sameTape (Session.beginClose_sameTape _ s)
  | tornDown => exact h.of_sameTape (⟨rfl, rfl, rfl, rfl, rfl, rfl, rfl, rfl, rfl, rfl, rfl, rfl⟩)

/-- Every step keeps the session represented by the ledger it leaves. -/
theorem Represents.step {o : FeedServerOptions} {sessionId : Guid} {s t : Session}
    {a : Session.Action} {L : Ledger} (h : Represents s L)
    (hstep : s.step o sessionId a = some t) : Represents t (record o sessionId s a t L) := by
  cases a with
  | publisher a => exact h.publisherStep hstep
  | handler a => exact h.of_sameTape (Session.handlerStep_sameTape hstep)
  | writeLoop a => exact h.writeLoopStep hstep
  | owner a => exact h.ownerStep hstep

theorem represents_init : Represents {} {} := ⟨⟨rfl, rfl, rfl⟩, rfl, fun _ => ⟨rfl, rfl, rfl⟩⟩

end Tckr.Feed
