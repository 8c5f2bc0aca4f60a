import Tckr.Core.Machine
import Tckr.Exchange.Protocol.Codec

/-!
# The feed session as a state machine

One accepted consumer: its numbering, its bounded outbound pipe, and the three
parties that touch them. The publisher encodes batches into the pipe or skips
them, the backpressure handler resolves a paused pipe, and the write loop drains
the pipe into the socket. A step is one volatile access, one interlocked
operation or one block under the write gate, so the runs of the machine are the
interleavings the session allows. What leaves the session is recorded beside it:
the bytes on the wire, the bytes thrown away, and the losses reported.
-/

namespace Tckr.Feed

open Protocol

/-- What to do with a session whose pipe stays full. -/
inductive SlowConsumerPolicy
  | disconnect
  | dropOldest
  deriving DecidableEq, Repr

/-- The settings a session reads. The server refuses a buffer below two ticks. -/
structure FeedServerOptions where
  /-- Bytes of outbound buffer before the session is behind. -/
  sessionBufferBytes : Nat
  /-- What to do when it is. -/
  slowConsumerPolicy : SlowConsumerPolicy
  /-- Idle gap after which a heartbeat is due. -/
  heartbeatIntervalMs : UInt32
  /-- The server's constructor checks this bound. -/
  minBuffer : tickFrameSize * 2 ≤ sessionBufferBytes

/-- The session's own view of whether it may publish. -/
inductive SessionState
  | running
  | backpressured
  | closing
  deriving DecidableEq, Repr

/-- Why a session ended. -/
inductive CloseReason
  | slowConsumer
  | slowConsumerLoss
  | clientClosed
  | clientReset
  | writeFailed
  | serverShutdown
  deriving DecidableEq, Repr

/-- The pipe between publisher and write loop. -/
structure Pipe where
  /-- Flushed bytes the reader has not advanced past. -/
  unread : Bytes := []
  /-- The writer's last flush is waiting for the reader. -/
  flushPending : Bool := false
  writerCompleted : Bool := false
  readerCompleted : Bool := false
  /-- The pending read, or the next one, returns canceled. -/
  cancelRead : Bool := false
  /-- The pending flush, or the next one, returns canceled. -/
  cancelFlush : Bool := false
  deriving DecidableEq, Repr

namespace Pipe

/-- Whether flushing these bytes crosses the pause threshold. -/
def pauses (p : Pipe) (pauseWriterThreshold : Nat) (bytes : Bytes) : Bool :=
  !p.readerCompleted && decide (p.unread.length < pauseWriterThreshold) &&
    decide (pauseWriterThreshold ≤ p.unread.length + bytes.length)

/-- Write bytes and flush them; crossing the threshold leaves the flush pending. -/
def flush (p : Pipe) (pauseWriterThreshold : Nat) (bytes : Bytes) : Pipe :=
  { p with
    unread := p.unread ++ bytes
    flushPending := p.flushPending || p.pauses pauseWriterThreshold bytes }

/-- Consume bytes; falling below the resume threshold completes a pending flush. -/
def advanceTo (p : Pipe) (resumeWriterThreshold consumed : Nat) : Pipe :=
  { p with
    unread := p.unread.drop consumed
    flushPending := p.flushPending &&
      decide (resumeWriterThreshold ≤ (p.unread.drop consumed).length) }

end Pipe

/-- Where the publishing thread stands in `TryPublish`. -/
inductive Publisher
  | idle
  /-- Before the unsynchronised read of the state. -/
  | reading (batch : List FeedRecord)
  /-- Read Running, waiting for the write gate. -/
  | entering (batch : List FeedRecord)
  /-- Read Backpressured, about to skip. -/
  | skipping (count : Nat)
  /-- Numbers from `first` consumed, the skip not yet counted. -/
  | skipCounting (first count : Nat)
  /-- The skip counted, not yet reported. -/
  | skipReporting (first count : Nat)
  /-- Encoding failed, about to close the session. -/
  | faulted
  deriving DecidableEq, Repr

/-- Where the backpressure handler stands. -/
inductive Handler
  | idle
  /-- Waiting for the flush or the timeout. -/
  | awaiting
  /-- The flush came back completed or canceled. -/
  | resetting
  /-- The flush completed, before the discard request is withdrawn. -/
  | withdrawing
  /-- Waiting for the write gate to resolve the episode. -/
  | resolving
  /-- In `DisconnectSlow`. -/
  | disconnecting (reason : CloseReason)
  /-- About to close the session. -/
  | beginningClose (reason : CloseReason)
  deriving DecidableEq, Repr

/-- Where the write loop stands. A read in progress holds the bytes it returned
and whether the writer had completed. -/
inductive WriteLoop
  | notStarted
  | awaitingRead
  | holding (buffer : Bytes) (completed : Bool)
  /-- A canceled empty read, before the close request is checked. -/
  | checkingClose
  | heartbeatDue
  | sendingHeartbeat (rest : Bytes)
  /-- The discard request taken, the discard not yet counted. -/
  | discarding (buffer : Bytes) (completed : Bool)
  | discardCounted (buffer : Bytes) (completed : Bool)
  | discardReported (buffer : Bytes) (completed : Bool)
  | sending (buffer rest : Bytes) (completed : Bool)
  /-- Out of the loop; `Finish` marks the state, completes the reader, cancels. -/
  | finishing
  | completingReader
  | cancelling
  | finished
  deriving DecidableEq, Repr

/-- Behind a consumed read the loop goes on, or ends with the writer. -/
def WriteLoop.next (completed : Bool) : WriteLoop :=
  if completed then .finishing else .awaitingRead

/-- One session and what it has shown outside. -/
structure Session where
  /-- Numbers the next offered record; the wire carries it modulo 2^64. -/
  nextSequence : Nat := 1
  lastSequenceQueued : Nat := 0
  state : SessionState := .running
  started : Bool := false
  closeRequested : Bool := false
  discardRequested : Bool := false
  skippedRecords : Nat := 0
  discardedRecords : Nat := 0
  skippedAtOnset : Nat := 0
  discardedAtOnset : Nat := 0
  closeReason : CloseReason := .clientClosed
  pipe : Pipe := {}
  /-- The token of both loops and of every flush is canceled. -/
  canceled : Bool := false
  publisher : Publisher := .idle
  handler : Handler := .idle
  writeLoop : WriteLoop := .notStarted
  /-- The bytes written to the socket. -/
  wire : Bytes := []
  /-- The bytes discarded from the pipe. -/
  discarded : Bytes := []
  /-- The numbers of the records reported as skipped. -/
  withheld : List Nat := []
  /-- Records offered by the calls that came back, refusals by a closing session aside. -/
  offered : Nat := 0
  /-- Records reported through `RecordsDropped`. -/
  recordsDropped : Nat := 0
  deriving DecidableEq, Repr

namespace Session

/-! ## Blocks under the write gate -/

/-- Record the reason, stop accepting batches and complete the writer; the first
call wins. -/
def beginClose (reason : CloseReason) (s : Session) : Session :=
  if s.closeRequested then s
  else { s with
    closeRequested := true
    closeReason := reason
    state := .closing
    pipe := { s.pipe with cancelFlush := true, writerCompleted := true } }

/-- Record a reason unless a close is under way, and stop accepting batches. -/
def markClosing (reason : CloseReason) (s : Session) : Session :=
  { s with
    closeReason := if s.closeRequested then s.closeReason else reason
    state := .closing }

/-- Consume the numbers of records that are not sent. -/
def reserve (count : Nat) (s : Session) : Session :=
  { s with nextSequence := s.nextSequence + count }

/-- Count a skip. -/
def countSkipped (count : Nat) (s : Session) : Session :=
  { s with skippedRecords := s.skippedRecords + count }

/-- Report a skip of the numbers from `first`; the call that made it returns. -/
def reportSkipped (first count : Nat) (s : Session) : Session :=
  { s with
    recordsDropped := s.recordsDropped + count
    withheld := s.withheld ++ List.range' first count
    offered := s.offered + count }

/-- Encode a batch, numbering its records from `first`. -/
def encodeBatch (first : Nat) : List FeedRecord → Except ArgumentException Bytes
  | [] => .ok []
  | record :: batch => do
      let frame ← writeTick ((batch.length + 1) * tickFrameSize)
        { record with sequenceNumber := UInt64.ofNat first }
      let rest ← encodeBatch (first + 1) batch
      .ok (frame ++ rest)

/-- Queue encoded records and flush. The flush pauses, which starts a backpressure
episode and its handler; or reports that the reader is gone; or completes. -/
def flushBatch (o : FeedServerOptions) (bytes : Bytes) (s : Session) : Session :=
  let flushed := { s with pipe := s.pipe.flush o.sessionBufferBytes bytes }
  if s.pipe.pauses o.sessionBufferBytes bytes then
    let behind := { flushed with
      skippedAtOnset := s.skippedRecords
      discardedAtOnset := s.discardedRecords
      state := .backpressured
      handler := .awaiting }
    match o.slowConsumerPolicy with
    | .disconnect => behind
    | .dropOldest => { behind with
        discardRequested := true
        pipe := { behind.pipe with cancelRead := true } }
  else if s.pipe.readerCompleted || s.pipe.cancelFlush then flushed.markClosing .clientReset
  else flushed

/-- Encode a batch into the pipe. The numbers are consumed before encoding; a record
that is not a tick faults the session. A running session's token is never canceled,
so the flush cannot fault. -/
def writeBatchLocked (o : FeedServerOptions) (batch : List FeedRecord) (s : Session) : Session :=
  match encodeBatch s.nextSequence batch with
  | .error _ => { (s.reserve batch.length).markClosing .writeFailed with publisher := .faulted }
  | .ok bytes => flushBatch o bytes
      { s.reserve batch.length with
        lastSequenceQueued := s.nextSequence + batch.length - 1
        offered := s.offered + batch.length
        publisher := .idle }

/-! ## The publisher -/

/-- The steps of `TryPublish`. -/
inductive PublisherAction
  /-- The call, up to the read of the started flag. -/
  | tryPublish (batch : List FeedRecord)
  /-- The unsynchronised read of the state. -/
  | readState
  /-- The block under the write gate. -/
  | enterGate
  | skipReserve
  | skipCount
  | skipReport
  /-- `BeginClose` after an encoding fault. -/
  | closeFaulted
  deriving DecidableEq, Repr

/-- One step of the publishing thread. -/
def publisherStep (o : FeedServerOptions) (s : Session) : PublisherAction → Option Session
  | .tryPublish batch => match s.publisher with
      | .idle => if batch = [] ∨ s.started = false then some s
          else some { s with publisher := .reading batch }
      | _ => none
  | .readState => match s.publisher with
      | .reading batch => match s.state with
          | .running => some { s with publisher := .entering batch }
          | .backpressured => some { s with publisher := .skipping batch.length }
          | .closing => some { s with publisher := .idle }
      | _ => none
  | .enterGate => match s.publisher with
      | .entering batch => match s.state with
          | .running => some (s.writeBatchLocked o batch)
          | .backpressured =>
            some { ((s.reserve batch.length).countSkipped batch.length).reportSkipped
              s.nextSequence batch.length with publisher := .idle }
          | .closing => some { s with publisher := .idle }
      | _ => none
  | .skipReserve => match s.publisher with
      | .skipping count =>
          some { s.reserve count with publisher := .skipCounting s.nextSequence count }
      | _ => none
  | .skipCount => match s.publisher with
      | .skipCounting first count =>
          some { s.countSkipped count with publisher := .skipReporting first count }
      | _ => none
  | .skipReport => match s.publisher with
      | .skipReporting first count => some { s.reportSkipped first count with publisher := .idle }
      | _ => none
  | .closeFaulted => match s.publisher with
      | .faulted => some { s.beginClose .writeFailed with publisher := .idle }
      | _ => none

/-! ## The backpressure handler -/

/-- The steps of `HandleBackpressureAsync` and `DisconnectSlow`. -/
inductive HandlerAction
  /-- The flush completes before the timeout. -/
  | flushObserved
  /-- The delay completes first: the timeout, or the token's cancellation. -/
  | delayElapsed
  /-- The flush throws, its token canceled. -/
  | flushCanceled
  /-- Anything else throws. -/
  | failed
  | markReset
  /-- Withdraw the discard request. -/
  | withdrawDiscard
  /-- The resolution under the write gate. -/
  | resolve
  /-- `DisconnectSlow`, up to its check of the close request. -/
  | disconnectSlow
  | closeSlow
  deriving DecidableEq, Repr

/-- The resolution of a drained episode: a complete tape cannot go on after a skip. -/
def resolve (o : FeedServerOptions) (s : Session) : Session :=
  if s.state ≠ .backpressured then { s with handler := .idle }
  else if o.slowConsumerPolicy = .disconnect ∧ 0 < s.skippedRecords - s.skippedAtOnset then
    { s with handler := .disconnecting .slowConsumerLoss }
  else { s with state := .running, handler := .idle }

/-- One step of the backpressure handler. -/
def handlerStep (o : FeedServerOptions) (s : Session) : HandlerAction → Option Session
  | .flushObserved =>
      if s.handler = .awaiting ∧
          (s.pipe.flushPending = false ∨ s.pipe.readerCompleted ∨ s.pipe.cancelFlush) then
        some { s with handler :=
          if s.pipe.readerCompleted || s.pipe.cancelFlush then .resetting else .withdrawing }
      else none
  | .delayElapsed =>
      if s.handler = .awaiting ∧ (s.pipe.flushPending ∨ s.canceled) then
        some { s with handler := .disconnecting .slowConsumer }
      else none
  | .flushCanceled =>
      if s.handler = .awaiting ∧ s.canceled then some { s with handler := .idle } else none
  | .failed =>
      if s.handler = .awaiting then some { s with handler := .beginningClose .writeFailed }
      else none
  | .markReset =>
      if s.handler = .resetting then some { s.markClosing .clientReset with handler := .idle }
      else none
  | .withdrawDiscard =>
      if s.handler = .withdrawing then
        some { s with discardRequested := false, handler := .resolving }
      else none
  | .resolve => if s.handler = .resolving then some (s.resolve o) else none
  | .disconnectSlow => match s.handler with
      | .disconnecting reason => some { s with handler :=
          if s.closeRequested then .idle else .beginningClose reason }
      | _ => none
  | .closeSlow => match s.handler with
      | .beginningClose reason => some { s.beginClose reason with handler := .idle }
      | _ => none

/-! ## The write loop -/

/-- The steps of `RunWriteLoopAsync`, `SendAllAsync`, `SendHeartbeatAsync` and `Finish`. -/
inductive WriteLoopAction
  /-- `Start` has queued the session-start frame and launches the loop. -/
  | run
  /-- A read completes with everything flushed so far. -/
  | readCompleted
  /-- The check of the close request after a canceled empty read. -/
  | checkClose
  /-- Read the last queued number and build the heartbeat. -/
  | writeHeartbeat (timestampNanos : Int64)
  /-- Take the discard request, if any. -/
  | takeDiscard
  | countDiscard
  | reportDiscard
  /-- Advance past a discarded buffer. -/
  | advanceDiscard
  /-- The socket takes some bytes. -/
  | socketSend (sent : Nat)
  /-- Everything is sent; advance past a sent buffer. -/
  | sendCompleted
  /-- The socket throws, with an I/O error or another one, and the loop marks the
  session closing. -/
  | sendFailed (io : Bool)
  /-- A read or a send throws, the token canceled. -/
  | canceled
  | finishState
  | completeReader
  | cancelLoops
  deriving DecidableEq, Repr

/-- One step of the write loop. -/
def writeLoopStep (o : FeedServerOptions) (s : Session) : WriteLoopAction → Option Session
  | .run =>
      if s.writeLoop = .notStarted ∧ s.started then some { s with writeLoop := .awaitingRead }
      else none
  | .readCompleted =>
      if s.writeLoop = .awaitingRead ∧ s.canceled = false ∧
          (s.pipe.unread ≠ [] ∨ s.pipe.writerCompleted ∨ s.pipe.cancelRead) then
        some { s with
          pipe := { s.pipe with cancelRead := false }
          writeLoop :=
            if s.pipe.unread ≠ [] then .holding s.pipe.unread s.pipe.writerCompleted
            else if s.pipe.writerCompleted then .finishing
            else .checkingClose }
      else none
  | .checkClose =>
      if s.writeLoop = .checkingClose then
        some { s with writeLoop := if s.closeRequested then .awaitingRead else .heartbeatDue }
      else none
  | .writeHeartbeat timestampNanos =>
      if s.writeLoop = .heartbeatDue then
        match writeHeartbeat heartbeatFrameSize (UInt64.ofNat s.lastSequenceQueued)
            timestampNanos with
        | .ok frame => some { s with writeLoop := .sendingHeartbeat frame }
        | .error _ => none
      else none
  | .takeDiscard => match s.writeLoop with
      | .holding buffer completed =>
          if s.discardRequested then
            some { s with discardRequested := false, writeLoop := .discarding buffer completed }
          else some { s with writeLoop := .sending buffer buffer completed }
      | _ => none
  | .countDiscard => match s.writeLoop with
      | .discarding buffer completed => some { s with
          discardedRecords := s.discardedRecords + buffer.length / tickFrameSize
          writeLoop := .discardCounted buffer completed }
      | _ => none
  | .reportDiscard => match s.writeLoop with
      | .discardCounted buffer completed => some { s with
          recordsDropped := s.recordsDropped + buffer.length / tickFrameSize
          discarded := s.discarded ++ buffer
          writeLoop := .discardReported buffer completed }
      | _ => none
  | .advanceDiscard => match s.writeLoop with
      | .discardReported buffer completed => some { s with
          pipe := s.pipe.advanceTo (o.sessionBufferBytes / 2) buffer.length
          writeLoop := .next completed }
      | _ => none
  | .socketSend sent => match s.writeLoop with
      | .sending buffer rest completed =>
          if 0 < sent ∧ sent ≤ rest.length ∧ s.canceled = false then
            some { s with
              wire := s.wire ++ rest.take sent
              writeLoop := .sending buffer (rest.drop sent) completed }
          else none
      | .sendingHeartbeat rest =>
          if 0 < sent ∧ sent ≤ rest.length ∧ s.canceled = false then
            some { s with
              wire := s.wire ++ rest.take sent
              writeLoop := .sendingHeartbeat (rest.drop sent) }
          else none
      | _ => none
  | .sendCompleted => match s.writeLoop with
      | .sending buffer [] completed => some { s with
          pipe := s.pipe.advanceTo (o.sessionBufferBytes / 2) buffer.length
          writeLoop := .next completed }
      | .sendingHeartbeat [] => some { s with writeLoop := .awaitingRead }
      | _ => none
  | .sendFailed io => match s.writeLoop with
      | .sending .. | .sendingHeartbeat _ => some
          { s.markClosing (if io then .clientReset else .writeFailed) with writeLoop := .finishing }
      | _ => none
  | .canceled => match s.writeLoop with
      | .awaitingRead | .sending .. | .sendingHeartbeat _ =>
          if s.canceled then some { s with writeLoop := .finishing } else none
      | _ => none
  | .finishState =>
      if s.writeLoop = .finishing then
        some { s with state := .closing, writeLoop := .completingReader }
      else none
  | .completeReader =>
      if s.writeLoop = .completingReader then
        some { s with pipe := { s.pipe with readerCompleted := true }, writeLoop := .cancelling }
      else none
  | .cancelLoops =>
      if s.writeLoop = .cancelling then some { s with canceled := true, writeLoop := .finished }
      else none

/-! ## The session's surroundings -/

/-- What the server, the timer and the peer do to a session. -/
inductive OwnerAction
  /-- `Start`: queue the session-start frame and open the session to batches. -/
  | start (startNanos : Int64)
  /-- The heartbeat timer fires, possibly late: it cancels the pending read. -/
  | heartbeatTimer
  /-- The peer goes, or the server stops or disposes the session. -/
  | beginClose (reason : CloseReason)
  /-- A closer cancels the loops and closes the socket. -/
  | teardown
  deriving DecidableEq, Repr

/-- One step taken from outside. Starting a session that was closed first throws. -/
def ownerStep (o : FeedServerOptions) (sessionId : Guid) (s : Session) :
    OwnerAction → Option Session
  | .start startNanos =>
      if s.started ∨ s.pipe.writerCompleted ∨ s.canceled then none
      else match writeSessionStart sessionStartFrameSize sessionId o.heartbeatIntervalMs
          startNanos with
        | .ok frame => some { s with
            pipe := s.pipe.flush o.sessionBufferBytes frame
            started := true }
        | .error _ => none
  | .heartbeatTimer =>
      if o.heartbeatIntervalMs ≠ 0 ∧ s.started then
        some { s with pipe := { s.pipe with cancelRead := true } }
      else none
  | .beginClose reason => some (s.beginClose reason)
  | .teardown => if s.closeRequested then some { s with canceled := true } else none

/-- A step of any party. -/
inductive Action
  | publisher (a : PublisherAction)
  | handler (a : HandlerAction)
  | writeLoop (a : WriteLoopAction)
  | owner (a : OwnerAction)
  deriving DecidableEq, Repr

/-- One step of the session. -/
def step (o : FeedServerOptions) (sessionId : Guid) (s : Session) : Action → Option Session
  | .publisher a => s.publisherStep o a
  | .handler a => s.handlerStep o a
  | .writeLoop a => s.writeLoopStep o a
  | .owner a => s.ownerStep o sessionId a

end Session

/-- The session of one connection: every interleaving of its parties is a run. -/
def feedSession (o : FeedServerOptions) (sessionId : Guid) : Machine Session Session.Action where
  init := {}
  step := Session.step o sessionId

end Tckr.Feed
