import Tckr.Exchange.Feed.Session

/-!
# What a step of the session can do

The step functions of the session's parties, inverted: one case per branch, with what
the branch saw and the state it leaves. The handler touches neither the tape nor the
accounts, which one frame lemma says once.
A closing session stays closing, and everything that ends a session closes it.
-/

namespace Tckr.Feed

open Protocol

/-- The write loop has seen the end of the pipe, or is past its own end. -/
def WriteLoop.Ending : WriteLoop → Prop
  | .holding _ completed | .discarding _ completed | .discardCounted _ completed
  | .discardReported _ completed | .sending _ _ completed => completed = true
  | .finishing | .completingReader | .cancelling | .finished => True
  | .notStarted | .awaitingRead | .checkingClose | .heartbeatDue | .sendingHeartbeat _ => False

namespace Session

/-- What a step of the publishing thread can do. -/
inductive PublisherStep (o : FeedServerOptions) (s : Session) : PublisherAction → Session → Prop
  | ignored {batch} : PublisherStep o s (.tryPublish batch) s
  | called {batch} (hpc : s.publisher = .idle) (hbatch : batch ≠ []) (hstarted : s.started = true) :
      PublisherStep o s (.tryPublish batch) { s with publisher := .reading batch }
  | readRunning {batch} (hpc : s.publisher = .reading batch) (hstate : s.state = .running) :
      PublisherStep o s .readState { s with publisher := .entering batch }
  | readBehind {batch} (hpc : s.publisher = .reading batch) (hstate : s.state = .backpressured) :
      PublisherStep o s .readState { s with publisher := .skipping batch.length }
  | readClosing {batch} (hpc : s.publisher = .reading batch) (hstate : s.state = .closing) :
      PublisherStep o s .readState { s with publisher := .idle }
  | published {batch bytes} (hpc : s.publisher = .entering batch) (hstate : s.state = .running)
      (hencode : encodeBatch s.nextSequence batch = .ok bytes) :
      PublisherStep o s .enterGate (flushBatch o bytes
        { s.reserve batch.length with
          lastSequenceQueued := s.nextSequence + batch.length - 1
          offered := s.offered + batch.length
          publisher := .idle })
  | encodingFailed {batch e} (hpc : s.publisher = .entering batch) (hstate : s.state = .running)
      (hencode : encodeBatch s.nextSequence batch = .error e) :
      PublisherStep o s .enterGate
        { (s.reserve batch.length).markClosing .writeFailed with publisher := .faulted }
  | skippedAtGate {batch} (hpc : s.publisher = .entering batch)
      (hstate : s.state = .backpressured) :
      PublisherStep o s .enterGate
        { ((s.reserve batch.length).countSkipped batch.length).reportSkipped
            s.nextSequence batch.length with publisher := .idle }
  | refusedAtGate {batch} (hpc : s.publisher = .entering batch) (hstate : s.state = .closing) :
      PublisherStep o s .enterGate { s with publisher := .idle }
  | reserved {count} (hpc : s.publisher = .skipping count) :
      PublisherStep o s .skipReserve
        { s.reserve count with publisher := .skipCounting s.nextSequence count }
  | counted {first count} (hpc : s.publisher = .skipCounting first count) :
      PublisherStep o s .skipCount
        { s.countSkipped count with publisher := .skipReporting first count }
  | reported {first count} (hpc : s.publisher = .skipReporting first count) :
      PublisherStep o s .skipReport { s.reportSkipped first count with publisher := .idle }
  | closedFaulted (hpc : s.publisher = .faulted) :
      PublisherStep o s .closeFaulted { s.beginClose .writeFailed with publisher := .idle }

theorem publisherStep_cases {o : FeedServerOptions} {s t : Session} {a : PublisherAction}
    (h : s.publisherStep o a = some t) : PublisherStep o s a t := by
  cases a with
  | tryPublish batch =>
    dsimp only [publisherStep] at h
    split at h
    · rename_i hpc
      split_ifs at h with hcall <;> cases h
      · exact .ignored
      · rw [not_or, Bool.not_eq_false] at hcall
        exact .called hpc hcall.1 hcall.2
    · cases h
  | readState =>
    dsimp only [publisherStep] at h
    split at h
    · rename_i batch hpc
      split at h <;> rename_i hstate <;> cases h
      · exact .readRunning hpc hstate
      · exact .readBehind hpc hstate
      · exact .readClosing hpc hstate
    · cases h
  | enterGate =>
    dsimp only [publisherStep] at h
    split at h
    · rename_i batch hpc
      split at h <;> rename_i hstate
      · unfold writeBatchLocked at h
        split at h <;> rename_i hencode <;> cases h
        · exact .encodingFailed hpc hstate hencode
        · exact .published hpc hstate hencode
      · cases h
        exact .skippedAtGate hpc hstate
      · cases h
        exact .refusedAtGate hpc hstate
    · cases h
  | skipReserve =>
    dsimp only [publisherStep] at h
    split at h <;> cases h
    rename_i hpc
    exact .reserved hpc
  | skipCount =>
    dsimp only [publisherStep] at h
    split at h <;> cases h
    rename_i hpc
    exact .counted hpc
  | skipReport =>
    dsimp only [publisherStep] at h
    split at h <;> cases h
    rename_i hpc
    exact .reported hpc
  | closeFaulted =>
    dsimp only [publisherStep] at h
    split at h <;> cases h
    rename_i hpc
    exact .closedFaulted hpc

/-- What a step of the write loop can do. -/
inductive WriteLoopStep (o : FeedServerOptions) (s : Session) : WriteLoopAction → Session → Prop
  | run (hpc : s.writeLoop = .notStarted) (hstarted : s.started = true) :
      WriteLoopStep o s .run { s with writeLoop := .awaitingRead }
  | read (hpc : s.writeLoop = .awaitingRead) (hunread : s.pipe.unread ≠ []) :
      WriteLoopStep o s .readCompleted { s with
        pipe := { s.pipe with cancelRead := false }
        writeLoop := .holding s.pipe.unread s.pipe.writerCompleted }
  | readEnd (hpc : s.writeLoop = .awaitingRead) (hunread : s.pipe.unread = [])
      (hdone : s.pipe.writerCompleted = true) :
      WriteLoopStep o s .readCompleted { s with
        pipe := { s.pipe with cancelRead := false }
        writeLoop := .finishing }
  | readEmpty (hpc : s.writeLoop = .awaitingRead) (hunread : s.pipe.unread = [])
      (hopen : s.pipe.writerCompleted = false) :
      WriteLoopStep o s .readCompleted { s with
        pipe := { s.pipe with cancelRead := false }
        writeLoop := .checkingClose }
  | checkedClosing (hpc : s.writeLoop = .checkingClose) :
      WriteLoopStep o s .checkClose { s with writeLoop := .awaitingRead }
  | checkedOpen (hpc : s.writeLoop = .checkingClose) (hopen : s.closeRequested = false) :
      WriteLoopStep o s .checkClose { s with writeLoop := .heartbeatDue }
  | heartbeat {timestampNanos} (hpc : s.writeLoop = .heartbeatDue) :
      WriteLoopStep o s (.writeHeartbeat timestampNanos) { s with
        writeLoop := .sendingHeartbeat
          (FeedMessage.heartbeat (UInt64.ofNat s.lastSequenceQueued) timestampNanos).frame }
  | discarding {buffer completed} (hpc : s.writeLoop = .holding buffer completed)
      (hrequested : s.discardRequested = true) :
      WriteLoopStep o s .takeDiscard
        { s with discardRequested := false, writeLoop := .discarding buffer completed }
  | sending {buffer completed} (hpc : s.writeLoop = .holding buffer completed)
      (hrequested : s.discardRequested = false) :
      WriteLoopStep o s .takeDiscard { s with writeLoop := .sending buffer buffer completed }
  | countedDiscard {buffer completed} (hpc : s.writeLoop = .discarding buffer completed) :
      WriteLoopStep o s .countDiscard { s with
        discardedRecords := s.discardedRecords + buffer.length / tickFrameSize
        writeLoop := .discardCounted buffer completed }
  | reportedDiscard {buffer completed} (hpc : s.writeLoop = .discardCounted buffer completed) :
      WriteLoopStep o s .reportDiscard { s with
        recordsDropped := s.recordsDropped + buffer.length / tickFrameSize
        discarded := s.discarded ++ buffer
        writeLoop := .discardReported buffer completed }
  | advancedDiscard {buffer completed} (hpc : s.writeLoop = .discardReported buffer completed) :
      WriteLoopStep o s .advanceDiscard { s with
        pipe := s.pipe.advanceTo (o.sessionBufferBytes / 2) buffer.length
        writeLoop := .next completed }
  | sent {buffer rest completed sent} (hpc : s.writeLoop = .sending buffer rest completed) :
      WriteLoopStep o s (.socketSend sent) { s with
        wire := s.wire ++ rest.take sent
        writeLoop := .sending buffer (rest.drop sent) completed }
  | sentHeartbeat {rest sent} (hpc : s.writeLoop = .sendingHeartbeat rest) :
      WriteLoopStep o s (.socketSend sent) { s with
        wire := s.wire ++ rest.take sent
        writeLoop := .sendingHeartbeat (rest.drop sent) }
  | completed {buffer completed} (hpc : s.writeLoop = .sending buffer [] completed) :
      WriteLoopStep o s .sendCompleted { s with
        pipe := s.pipe.advanceTo (o.sessionBufferBytes / 2) buffer.length
        writeLoop := .next completed }
  | completedHeartbeat (hpc : s.writeLoop = .sendingHeartbeat []) :
      WriteLoopStep o s .sendCompleted { s with writeLoop := .awaitingRead }
  | failed {io} (hpc : (∃ buffer rest completed, s.writeLoop = .sending buffer rest completed) ∨
        ∃ rest, s.writeLoop = .sendingHeartbeat rest) :
      WriteLoopStep o s (.sendFailed io)
        { s.markClosing (if io then .clientReset else .writeFailed) with writeLoop := .finishing }
  | canceled (hpc : s.writeLoop = .awaitingRead ∨
        (∃ buffer rest completed, s.writeLoop = .sending buffer rest completed) ∨
        ∃ rest, s.writeLoop = .sendingHeartbeat rest) (hcanceled : s.canceled = true) :
      WriteLoopStep o s .canceled { s with writeLoop := .finishing }
  | finishedState (hpc : s.writeLoop = .finishing) :
      WriteLoopStep o s .finishState
        { s with state := .closing, writeLoop := .completingReader }
  | completedReader (hpc : s.writeLoop = .completingReader) :
      WriteLoopStep o s .completeReader
        { s with pipe := { s.pipe with readerCompleted := true }, writeLoop := .cancelling }
  | canceledLoops (hpc : s.writeLoop = .cancelling) :
      WriteLoopStep o s .cancelLoops { s with canceled := true, writeLoop := .finished }

theorem writeLoopStep_cases {o : FeedServerOptions} {s t : Session} {a : WriteLoopAction}
    (h : s.writeLoopStep o a = some t) : WriteLoopStep o s a t := by
  cases a with
  | run =>
    dsimp only [writeLoopStep] at h
    split_ifs at h with hpc
    cases h
    exact .run hpc.1 hpc.2
  | readCompleted =>
    dsimp only [writeLoopStep] at h
    split_ifs at h with hpc hunread hdone <;> cases h
    · exact .read hpc.1 hunread
    · exact .readEnd hpc.1 (not_not.mp hunread) hdone
    · exact .readEmpty hpc.1 (not_not.mp hunread) (Bool.not_eq_true _ ▸ hdone)
  | checkClose =>
    dsimp only [writeLoopStep] at h
    split_ifs at h with hpc hclose <;> cases h
    · exact .checkedClosing hpc
    · exact .checkedOpen hpc (Bool.not_eq_true _ ▸ hclose)
  | writeHeartbeat timestampNanos =>
    dsimp only [writeLoopStep] at h
    split_ifs at h with hpc
    rw [writeHeartbeat_eq (Nat.le_refl _)] at h
    cases h
    exact .heartbeat hpc
  | takeDiscard =>
    dsimp only [writeLoopStep] at h
    split at h
    · rename_i hpc
      split_ifs at h with hrequested <;> cases h
      · exact .discarding hpc hrequested
      · exact .sending hpc (Bool.not_eq_true _ ▸ hrequested)
    · cases h
  | countDiscard =>
    dsimp only [writeLoopStep] at h
    split at h <;> cases h
    rename_i hpc
    exact .countedDiscard hpc
  | reportDiscard =>
    dsimp only [writeLoopStep] at h
    split at h <;> cases h
    rename_i hpc
    exact .reportedDiscard hpc
  | advanceDiscard =>
    dsimp only [writeLoopStep] at h
    split at h <;> cases h
    rename_i hpc
    exact .advancedDiscard hpc
  | socketSend sent =>
    dsimp only [writeLoopStep] at h
    split at h
    · rename_i hpc
      split_ifs at h
      cases h
      exact .sent hpc
    · rename_i hpc
      split_ifs at h
      cases h
      exact .sentHeartbeat hpc
    · cases h
  | sendCompleted =>
    dsimp only [writeLoopStep] at h
    split at h <;> cases h
    · rename_i hpc
      exact .completed hpc
    · rename_i hpc
      exact .completedHeartbeat hpc
  | sendFailed io =>
    dsimp only [writeLoopStep] at h
    split at h <;> cases h
    · rename_i buffer rest completed hpc
      exact .failed (Or.inl ⟨buffer, rest, completed, hpc⟩)
    · rename_i rest hpc
      exact .failed (Or.inr ⟨rest, hpc⟩)
  | canceled =>
    dsimp only [writeLoopStep] at h
    split at h
    · rename_i hpc
      split_ifs at h with hcanceled
      cases h
      exact .canceled (Or.inl hpc) hcanceled
    · rename_i buffer rest completed hpc
      split_ifs at h with hcanceled
      cases h
      exact .canceled (Or.inr (Or.inl ⟨buffer, rest, completed, hpc⟩)) hcanceled
    · rename_i rest hpc
      split_ifs at h with hcanceled
      cases h
      exact .canceled (Or.inr (Or.inr ⟨rest, hpc⟩)) hcanceled
    · cases h
  | finishState =>
    dsimp only [writeLoopStep] at h
    split_ifs at h with hpc
    cases h
    exact .finishedState hpc
  | completeReader =>
    dsimp only [writeLoopStep] at h
    split_ifs at h with hpc
    cases h
    exact .completedReader hpc
  | cancelLoops =>
    dsimp only [writeLoopStep] at h
    split_ifs at h with hpc
    cases h
    exact .canceledLoops hpc

/-- What a step of the backpressure handler can do. -/
inductive HandlerStep (o : FeedServerOptions) (s : Session) : HandlerAction → Session → Prop
  | observed (hpc : s.handler = .awaiting) :
      HandlerStep o s .flushObserved { s with handler :=
        if s.pipe.readerCompleted || s.pipe.cancelFlush then .resetting else .withdrawing }
  | elapsed (hpc : s.handler = .awaiting) :
      HandlerStep o s .delayElapsed { s with handler := .disconnecting .slowConsumer }
  | flushCanceled (hpc : s.handler = .awaiting) (hcanceled : s.canceled = true) :
      HandlerStep o s .flushCanceled { s with handler := .idle }
  | failed (hpc : s.handler = .awaiting) :
      HandlerStep o s .failed { s with handler := .beginningClose .writeFailed }
  | markedReset (hpc : s.handler = .resetting) :
      HandlerStep o s .markReset { s.markClosing .clientReset with handler := .idle }
  | withdrawn (hpc : s.handler = .withdrawing) :
      HandlerStep o s .withdrawDiscard { s with discardRequested := false, handler := .resolving }
  | abandoned (hpc : s.handler = .resolving) (hstate : s.state ≠ .backpressured) :
      HandlerStep o s .resolve { s with handler := .idle }
  | lost (hpc : s.handler = .resolving) (hstate : s.state = .backpressured)
      (hloss : o.slowConsumerPolicy = .disconnect ∧ 0 < s.skippedRecords - s.skippedAtOnset) :
      HandlerStep o s .resolve { s with handler := .disconnecting .slowConsumerLoss }
  | recovered (hpc : s.handler = .resolving) (hstate : s.state = .backpressured)
      (hwhole : ¬ (o.slowConsumerPolicy = .disconnect ∧
        0 < s.skippedRecords - s.skippedAtOnset)) :
      HandlerStep o s .resolve { s with state := .running, handler := .idle }
  | checked {reason} (hpc : s.handler = .disconnecting reason) :
      HandlerStep o s .disconnectSlow { s with handler :=
        if s.closeRequested then .idle else .beginningClose reason }
  | closed {reason} (hpc : s.handler = .beginningClose reason) :
      HandlerStep o s .closeSlow { s.beginClose reason with handler := .idle }

theorem handlerStep_cases {o : FeedServerOptions} {s t : Session} {a : HandlerAction}
    (h : s.handlerStep o a = some t) : HandlerStep o s a t := by
  cases a with
  | flushObserved =>
    obtain ⟨hpc, h⟩ := Option.ite_none_right_eq_some.mp h
    cases h
    exact .observed hpc.1
  | delayElapsed =>
    obtain ⟨hpc, h⟩ := Option.ite_none_right_eq_some.mp h
    cases h
    exact .elapsed hpc.1
  | flushCanceled =>
    obtain ⟨hpc, h⟩ := Option.ite_none_right_eq_some.mp h
    cases h
    exact .flushCanceled hpc.1 hpc.2
  | failed =>
    obtain ⟨hpc, h⟩ := Option.ite_none_right_eq_some.mp h
    cases h
    exact .failed hpc
  | markReset =>
    obtain ⟨hpc, h⟩ := Option.ite_none_right_eq_some.mp h
    cases h
    exact .markedReset hpc
  | withdrawDiscard =>
    obtain ⟨hpc, h⟩ := Option.ite_none_right_eq_some.mp h
    cases h
    exact .withdrawn hpc
  | resolve =>
    obtain ⟨hpc, h⟩ := Option.ite_none_right_eq_some.mp h
    cases h
    unfold resolve
    split_ifs with hstate hloss
    · exact .abandoned hpc hstate
    · exact .lost hpc (not_not.mp hstate) hloss
    · exact .recovered hpc (not_not.mp hstate) hloss
  | disconnectSlow =>
    dsimp only [handlerStep] at h
    split at h <;> cases h
    rename_i hpc
    exact .checked hpc
  | closeSlow =>
    dsimp only [handlerStep] at h
    split at h <;> cases h
    rename_i hpc
    exact .closed hpc

/-! ## What a step leaves alone -/

/-- The tape, the accounts and the two parties that write them are the same. -/
structure SameTape (s t : Session) : Prop where
  wire : t.wire = s.wire
  discarded : t.discarded = s.discarded
  unread : t.pipe.unread = s.pipe.unread
  writeLoop : t.writeLoop = s.writeLoop
  publisher : t.publisher = s.publisher
  started : t.started = s.started
  nextSequence : t.nextSequence = s.nextSequence
  lastSequenceQueued : t.lastSequenceQueued = s.lastSequenceQueued
  skippedRecords : t.skippedRecords = s.skippedRecords
  withheld : t.withheld = s.withheld
  offered : t.offered = s.offered
  recordsDropped : t.recordsDropped = s.recordsDropped

theorem SameTape.refl (s : Session) : SameTape s s :=
  ⟨rfl, rfl, rfl, rfl, rfl, rfl, rfl, rfl, rfl, rfl, rfl, rfl⟩

theorem beginClose_sameTape (reason : CloseReason) (s : Session) :
    SameTape s (s.beginClose reason) := by
  unfold beginClose
  split_ifs
  · exact .refl s
  · exact ⟨rfl, rfl, rfl, rfl, rfl, rfl, rfl, rfl, rfl, rfl, rfl, rfl⟩

/-- Flushing a batch queues its bytes; the rest of the tape is as the caller left it. -/
theorem flushBatch_sameTape (o : FeedServerOptions) (bytes : Bytes) (s : Session) :
    SameTape { s with pipe := { s.pipe with unread := s.pipe.unread ++ bytes } }
      (flushBatch o bytes s) := by
  unfold flushBatch
  dsimp only
  split_ifs
  · cases o.slowConsumerPolicy <;>
      exact ⟨rfl, rfl, rfl, rfl, rfl, rfl, rfl, rfl, rfl, rfl, rfl, rfl⟩
  · exact ⟨rfl, rfl, rfl, rfl, rfl, rfl, rfl, rfl, rfl, rfl, rfl, rfl⟩
  · exact ⟨rfl, rfl, rfl, rfl, rfl, rfl, rfl, rfl, rfl, rfl, rfl, rfl⟩

/-- The handler never touches the tape. -/
theorem handlerStep_sameTape {o : FeedServerOptions} {s t : Session} {a : HandlerAction}
    (h : s.handlerStep o a = some t) : SameTape s t := by
  cases handlerStep_cases h with
  | @closed reason =>
    obtain ⟨h1, h2, h3, h4, h5, h6, h7, h8, h9, h10, h11, h12⟩ := beginClose_sameTape reason s
    exact ⟨h1, h2, h3, h4, h5, h6, h7, h8, h9, h10, h11, h12⟩
  | _ => exact ⟨rfl, rfl, rfl, rfl, rfl, rfl, rfl, rfl, rfl, rfl, rfl, rfl⟩

/-- Closing keeps the state or closes, and raises no request. -/
theorem beginClose_effect (reason : CloseReason) (s : Session) :
    ((s.beginClose reason).state = s.state ∨ (s.beginClose reason).state = .closing) ∧
      (s.beginClose reason).skippedAtOnset = s.skippedAtOnset ∧
      (s.beginClose reason).discardRequested = s.discardRequested := by
  unfold beginClose
  split_ifs
  · exact ⟨Or.inl rfl, rfl, rfl⟩
  · exact ⟨Or.inr rfl, rfl, rfl⟩

/-- What the handler does to the state: it resolves an episode, or closes, or waits. -/
theorem handlerStep_effect {o : FeedServerOptions} {s t : Session} {a : HandlerAction}
    (h : s.handlerStep o a = some t) :
    (t.discardRequested = s.discardRequested ∨ t.discardRequested = false) ∧
      t.skippedAtOnset = s.skippedAtOnset ∧
      (t.state = s.state ∨ t.state = .closing ∨
        a = .resolve ∧ s.state = .backpressured ∧ t.state = .running ∧
          ¬ (o.slowConsumerPolicy = .disconnect ∧ 0 < s.skippedRecords - s.skippedAtOnset)) := by
  cases handlerStep_cases h with
  | markedReset => exact ⟨Or.inl rfl, rfl, Or.inr (Or.inl rfl)⟩
  | withdrawn => exact ⟨Or.inr rfl, rfl, Or.inl rfl⟩
  | recovered hpc hstate hwhole =>
    exact ⟨Or.inl rfl, rfl, Or.inr (Or.inr ⟨rfl, hstate, rfl, hwhole⟩)⟩
  | @closed reason =>
    obtain ⟨hstate, honset, hdiscard⟩ := beginClose_effect reason s
    exact ⟨Or.inl hdiscard, honset, hstate.imp_right Or.inl⟩
  | _ => exact ⟨Or.inl rfl, rfl, Or.inl rfl⟩

/-- What a step taken from outside can do: start the session, or leave the tape alone. -/
inductive OwnerStep (o : FeedServerOptions) (sessionId : Guid) (s : Session) :
    OwnerAction → Session → Prop
  | started {startNanos} (hnew : s.started = false) (hopen : s.pipe.writerCompleted = false)
      (hlive : s.canceled = false) :
      OwnerStep o sessionId s (.start startNanos) { s with
        pipe := s.pipe.flush o.sessionBufferBytes
          (FeedMessage.sessionStart sessionId o.heartbeatIntervalMs startNanos).frame
        started := true }
  | timer : OwnerStep o sessionId s .heartbeatTimer
      { s with pipe := { s.pipe with cancelRead := true } }
  | closed {reason} : OwnerStep o sessionId s (.beginClose reason) (s.beginClose reason)
  | tornDown (hclose : s.closeRequested = true) :
      OwnerStep o sessionId s .teardown { s with canceled := true }

theorem ownerStep_cases {o : FeedServerOptions} {sessionId : Guid} {s t : Session}
    {a : OwnerAction} (h : s.ownerStep o sessionId a = some t) : OwnerStep o sessionId s a t := by
  cases a with
  | start startNanos =>
    dsimp only [ownerStep] at h
    split_ifs at h with hopen
    rw [writeSessionStart_eq (Nat.le_refl _)] at h
    cases h
    rw [not_or, not_or, Bool.not_eq_true, Bool.not_eq_true, Bool.not_eq_true] at hopen
    exact .started hopen.1 hopen.2.1 hopen.2.2
  | heartbeatTimer =>
    dsimp only [ownerStep] at h
    split_ifs at h
    cases h
    exact .timer
  | beginClose reason =>
    cases h
    exact .closed
  | teardown =>
    dsimp only [ownerStep] at h
    split_ifs at h with hclose
    cases h
    exact .tornDown hclose

/-! ## Closing -/

/-- Everything that ends a session closes it: a close request, a completed writer, a
canceled token, and a write loop on its way out. -/
structure Shutdown (s : Session) : Prop where
  closeRequested : s.closeRequested = true → s.state = .closing
  writerCompleted : s.pipe.writerCompleted = true → s.state = .closing
  canceled : s.canceled = true → s.state = .closing
  ending : s.writeLoop.Ending → s.state = .closing

theorem beginClose_state {s : Session} (h : s.Shutdown) (reason : CloseReason) :
    (s.beginClose reason).state = .closing := by
  unfold beginClose
  split_ifs with hc
  · exact h.closeRequested hc
  · rfl

theorem Shutdown.of_closing {s : Session} (h : s.state = .closing) : s.Shutdown :=
  ⟨fun _ => h, fun _ => h, fun _ => h, fun _ => h⟩

/-- A step that sets no flag preserves the law unless it reopens a closing session. -/
theorem Shutdown.of_same {s t : Session} (h : s.Shutdown)
    (hc : t.closeRequested = s.closeRequested)
    (hw : t.pipe.writerCompleted = s.pipe.writerCompleted) (hx : t.canceled = s.canceled)
    (hl : t.writeLoop.Ending → s.writeLoop.Ending)
    (hs : s.state = .closing → t.state = .closing) : t.Shutdown :=
  ⟨fun hf => hs (h.closeRequested (hc ▸ hf)), fun hf => hs (h.writerCompleted (hw ▸ hf)),
    fun hf => hs (h.canceled (hx ▸ hf)), fun hf => hs (h.ending (hl hf))⟩

theorem flushBatch_flags (o : FeedServerOptions) (bytes : Bytes) (s : Session) :
    (flushBatch o bytes s).closeRequested = s.closeRequested ∧
      (flushBatch o bytes s).pipe.writerCompleted = s.pipe.writerCompleted ∧
      (flushBatch o bytes s).canceled = s.canceled := by
  unfold flushBatch
  dsimp only
  split_ifs
  · cases o.slowConsumerPolicy <;> exact ⟨rfl, rfl, rfl⟩
  · exact ⟨rfl, rfl, rfl⟩
  · exact ⟨rfl, rfl, rfl⟩

theorem Shutdown.publisherStep {o : FeedServerOptions} {s t : Session} {a : PublisherAction}
    (h : s.Shutdown) (hstep : s.publisherStep o a = some t) : t.Shutdown := by
  cases publisherStep_cases hstep with
  | @published batch bytes hpc hstate hencode =>
    obtain ⟨hc, hw, hx⟩ := flushBatch_flags o bytes
      { s.reserve batch.length with
        lastSequenceQueued := s.nextSequence + batch.length - 1
        offered := s.offered + batch.length
        publisher := .idle }
    refine h.of_same hc hw hx (fun hl => ?_) fun hs => ?_
    · rwa [(flushBatch_sameTape o bytes _).writeLoop] at hl
    · rw [hstate] at hs
      contradiction
  | encodingFailed => exact .of_closing rfl
  | closedFaulted => exact .of_closing (beginClose_state h .writeFailed)
  | _ => exact h.of_same rfl rfl rfl id id

theorem Shutdown.handlerStep {o : FeedServerOptions} {s t : Session} {a : HandlerAction}
    (h : s.Shutdown) (hstep : s.handlerStep o a = some t) : t.Shutdown := by
  cases handlerStep_cases hstep with
  | markedReset => exact .of_closing rfl
  | recovered hpc hstate =>
    exact h.of_same rfl rfl rfl id fun hs => by simp [hstate] at hs
  | closed => exact .of_closing (beginClose_state h _)
  | _ => exact h.of_same rfl rfl rfl id id

/-- Behind a consumed read the loop ends only if the read saw the end. -/
theorem next_ending {completed : Bool} (h : (WriteLoop.next completed).Ending) :
    completed = true := by
  cases completed with
  | true => rfl
  | false => exact h.elim

theorem Shutdown.writeLoopStep {o : FeedServerOptions} {s t : Session} {a : WriteLoopAction}
    (h : s.Shutdown) (hstep : s.writeLoopStep o a = some t) : t.Shutdown := by
  cases writeLoopStep_cases hstep with
  | read => exact ⟨h.closeRequested, h.writerCompleted, h.canceled, h.writerCompleted⟩
  | readEnd hpc hunread hdone => exact .of_closing (h.writerCompleted hdone)
  | discarding hpc | countedDiscard hpc | reportedDiscard hpc =>
    exact h.of_same rfl rfl rfl (fun hl => by rw [hpc]; exact hl) id
  | sending hpc => exact h.of_same rfl rfl rfl (fun hl => by rw [hpc]; exact hl) id
  | sent hpc => exact h.of_same rfl rfl rfl (fun hl => by rw [hpc]; exact hl) id
  | advancedDiscard hpc | completed hpc =>
    exact h.of_same rfl rfl rfl (fun hl => by rw [hpc]; exact next_ending hl) id
  | failed => exact .of_closing rfl
  | canceled hpc hcanceled => exact .of_closing (h.canceled hcanceled)
  | finishedState => exact .of_closing rfl
  | completedReader hpc => exact .of_closing (h.ending (by rw [hpc]; trivial))
  | canceledLoops hpc => exact .of_closing (h.ending (by rw [hpc]; trivial))
  | _ => exact h.of_same rfl rfl rfl (fun hl => hl.elim) id

theorem Shutdown.ownerStep {o : FeedServerOptions} {sessionId : Guid} {s t : Session}
    {a : OwnerAction} (h : s.Shutdown) (hstep : s.ownerStep o sessionId a = some t) :
    t.Shutdown := by
  cases ownerStep_cases hstep with
  | started => exact h.of_same rfl rfl rfl id id
  | timer => exact h.of_same rfl rfl rfl id id
  | closed => exact .of_closing (beginClose_state h _)
  | tornDown hclose => exact .of_closing (h.closeRequested hclose)

/-- The law of closing holds in every state of every run. -/
theorem Shutdown.step {o : FeedServerOptions} {sessionId : Guid} {s t : Session} {a : Action}
    (h : s.Shutdown) (hstep : s.step o sessionId a = some t) : t.Shutdown := by
  cases a with
  | publisher a => exact h.publisherStep hstep
  | handler a => exact h.handlerStep hstep
  | writeLoop a => exact h.writeLoopStep hstep
  | owner a => exact h.ownerStep hstep

theorem shutdown_init : Shutdown {} :=
  ⟨fun h => (nomatch h), fun h => (nomatch h), fun h => (nomatch h), fun h => h.elim⟩

/-- A closing session stays closing. -/
theorem closing_stable {o : FeedServerOptions} {sessionId : Guid} {s t : Session} {a : Action}
    (h : s.Shutdown) (hstep : s.step o sessionId a = some t) (hs : s.state = .closing) :
    t.state = .closing := by
  cases a with
  | publisher a =>
    cases publisherStep_cases hstep with
    | published hpc hstate =>
      rw [hstate] at hs
      contradiction
    | encodingFailed => rfl
    | closedFaulted => exact beginClose_state h .writeFailed
    | _ => exact hs
  | handler a =>
    obtain ⟨-, -, hstate | hstate | ⟨-, hbehind, -⟩⟩ := handlerStep_effect hstep
    · exact hstate.trans hs
    · exact hstate
    · cases hbehind.symm.trans hs
  | writeLoop a =>
    cases writeLoopStep_cases hstep with
    | failed => rfl
    | finishedState => rfl
    | _ => exact hs
  | owner a =>
    cases ownerStep_cases hstep with
    | closed => exact beginClose_state h _
    | _ => exact hs

end Session

end Tckr.Feed
