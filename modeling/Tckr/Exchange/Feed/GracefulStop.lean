import Tckr.Exchange.Feed.Complete
import Tckr.Exchange.Feed.SlowLedger

/-!
# The graceful stop

A session that is stopped takes no more batches, and its write loop goes on to the end of the
pipe. Under Disconnect nothing that was queued is thrown away, so a write loop that ends
without a failed send has written every batch that was taken.
-/

namespace Tckr.Feed

open Protocol

/-! ## Ticks by their payloads -/

/-- The payload of a tick among the frames a session produces. -/
def Outbound.tickPayload? : Outbound → Option Bytes
  | .tick position record =>
      some (tickPayload { record.val with sequenceNumber := UInt64.ofNat position })
  | .sessionStart .. | .heartbeat .. => none

/-- The payload of a tick among the frames a consumer extracts. -/
def rawTickPayload? (f : RawFrame) : Option Bytes := if f.1.isTick then some f.2 else none

theorem rawTickPayload?_raw (f : Outbound) : rawTickPayload? f.raw = f.tickPayload? := by
  cases f with
  | sessionStart | heartbeat => rfl
  | tick position record =>
    simp [rawTickPayload?, Outbound.raw, Outbound.message, FeedMessage.type, FeedMessage.payload,
      record.property, Outbound.tickPayload?]

/-- The payloads of the ticks among frames. -/
def tickPayloads (fs : List Outbound) : List Bytes := fs.filterMap Outbound.tickPayload?

@[simp] theorem tickPayloads_nil : tickPayloads [] = [] := rfl

@[simp] theorem tickPayloads_append (fs gs : List Outbound) :
    tickPayloads (fs ++ gs) = tickPayloads fs ++ tickPayloads gs := List.filterMap_append

theorem tickPayloads_kept_beat (lastPosition : Nat) (timestampNanos : Int64) (L : Ledger) :
    tickPayloads (L.beat (.heartbeat lastPosition timestampNanos)).kept =
      tickPayloads L.kept := by
  simp [Ledger.kept, Ledger.beat, tickPayloads, List.filterMap_cons, Outbound.tickPayload?]

theorem filterMap_rawTickPayload? (fs : List Outbound) :
    (fs.map Outbound.raw).filterMap rawTickPayload? = tickPayloads fs := by
  rw [List.filterMap_map, tickPayloads]
  exact congrArg (fun g => List.filterMap g fs) (funext rawTickPayload?_raw)

/-- The records of a batch with the numbers it is queued under. -/
def numbered (first : Nat) : List FeedRecord → List FeedRecord
  | [] => []
  | record :: batch =>
      { record with sequenceNumber := UInt64.ofNat first } :: numbered (first + 1) batch

/-- A batch whose frames are all ticks is queued with its numbers. -/
theorem tickPayloads_tickFrames {first : Nat} {batch : List FeedRecord}
    (h : positions (tickFrames first batch) = List.range' first batch.length) :
    tickPayloads (tickFrames first batch) = (numbered first batch).map tickPayload := by
  induction batch generalizing first with
  | nil => rfl
  | cons record batch ih =>
    rw [List.length_cons, List.range'_succ] at h
    by_cases ht : record.messageType.isTick = true
    · rw [tickFrames, dif_pos ht, positions_tick] at h
      have hrest := ih (List.cons.inj h).2
      simp [tickFrames, ht, tickPayloads, Outbound.tickPayload?, numbered] at hrest ⊢
      exact hrest
    · simp [tickFrames, ht] at h

namespace Session

/-- The payloads of the ticks completely written to the socket. -/
def sentTicks (s : Session) : List Bytes :=
  (frameReader.drain s.wire).1.filterMap rawTickPayload?

/-- The records that a step takes: `TryPublish` returns true for their batch. -/
def accepted (s : Session) : Action → List FeedRecord
  | .publisher .enterGate => match s.publisher, s.state with
      | .entering batch, .running => match encodeBatch s.nextSequence batch with
          | .ok _ => numbered s.nextSequence batch
          | .error _ => []
      | _, _ => []
  | _ => []

/-- A closing session takes nothing. -/
theorem accepted_eq_nil {s : Session} (h : s.state = .closing) (a : Action) :
    s.accepted a = [] := by
  unfold accepted
  split
  · split
    · rename_i hstate
      simp [h] at hstate
    · rfl
  · rfl

end Session

/-- The write loop throws away what it has read. -/
def WriteLoop.discards : WriteLoop → Bool
  | .discarding .. | .discardCounted .. | .discardReported .. => true
  | .notStarted | .awaitingRead | .holding .. | .checkingClose | .heartbeatDue
  | .sendingHeartbeat _ | .sending .. | .finishing | .completingReader | .cancelling
  | .finished => false

/-- The write loop is past its loop. -/
def WriteLoop.PastLoop : WriteLoop → Prop
  | .finishing | .completingReader | .cancelling | .finished => True
  | .notStarted | .awaitingRead | .holding .. | .checkingClose | .heartbeatDue
  | .sendingHeartbeat _ | .discarding .. | .discardCounted .. | .discardReported ..
  | .sending .. => False

theorem WriteLoop.PastLoop.ending {loop : WriteLoop} (h : loop.PastLoop) : loop.Ending := by
  cases loop <;> first | exact h.elim | trivial

/-- What is taken is kept, the end of the pipe is seen only behind all of it, and the write loop
leaves its loop only with all of it sent. -/
structure Draining (s : Session) (L : Ledger) (accepted : List FeedRecord) : Prop where
  ticks : tickPayloads L.kept = accepted.map tickPayload
  undiscarded : s.discardRequested = false ∧ s.writeLoop.discards = false
  completed : s.pipe.writerCompleted = true → s.closeRequested = true
  ending : s.writeLoop.Ending → s.closeRequested = true ∧ L.queue = []
  pastLoop : s.writeLoop.PastLoop → s.wire = frames (L.out ++ L.held)
  canceled : s.canceled = true → s.writeLoop = .finished

namespace Draining

variable {o : FeedServerOptions} {sessionId : Guid} {s t : Session} {L : Ledger}
  {accepted : List FeedRecord}

theorem init : Draining {} {} [] where
  ticks := rfl
  undiscarded := ⟨rfl, rfl⟩
  completed h := by simp at h
  ending h := h.elim
  pastLoop h := h.elim
  canceled h := by simp at h

/-- A step that leaves the frames and the write loop alone. -/
theorem of_same (h : Draining s L accepted) (hwire : t.wire = s.wire)
    (hloop : t.writeLoop = s.writeLoop) (hdiscard : t.discardRequested = false)
    (hcanceled : t.canceled = s.canceled)
    (hclose : t.closeRequested = true ∨ t.closeRequested = s.closeRequested ∧
      t.pipe.writerCompleted = s.pipe.writerCompleted) : Draining t L accepted where
  ticks := h.ticks
  undiscarded := ⟨hdiscard, hloop ▸ h.undiscarded.2⟩
  completed hdone := hclose.elim id fun ⟨hsame, hpipe⟩ =>
    hsame.trans (h.completed (hpipe ▸ hdone))
  ending hending := by
    obtain ⟨hrequested, hqueue⟩ := h.ending (hloop ▸ hending)
    exact ⟨hclose.elim id fun ⟨hsame, _⟩ => hsame.trans hrequested, hqueue⟩
  pastLoop hpast := hwire.trans (h.pastLoop (hloop ▸ hpast))
  canceled hc := hloop.trans (h.canceled (hcanceled ▸ hc))

end Draining

/-! ## Every step keeps what is taken -/

namespace Session

variable {o : FeedServerOptions} {s t : Session}

theorem beginClose_closes (reason : CloseReason) (s : Session) :
    (s.beginClose reason).canceled = s.canceled ∧
      (s.beginClose reason).closeRequested = true := by
  unfold beginClose
  split_ifs with hrequested
  · exact ⟨rfl, hrequested⟩
  · exact ⟨rfl, rfl⟩

/-- The handler cancels nothing, and completes the writer only with a close. -/
theorem handlerStep_closes {a : HandlerAction} (h : s.handlerStep o a = some t) :
    t.canceled = s.canceled ∧ (t.closeRequested = true ∨ t.closeRequested = s.closeRequested ∧
      t.pipe.writerCompleted = s.pipe.writerCompleted) := by
  cases handlerStep_cases h with
  | @closed reason => exact (beginClose_closes reason s).imp_right .inl
  | _ => exact ⟨rfl, .inr ⟨rfl, rfl⟩⟩

end Session

namespace Draining

variable {o : FeedServerOptions} {sessionId : Guid} {s t : Session} {L : Ledger}
  {accepted : List FeedRecord}

/-- A batch that is taken is queued behind what is kept. -/
theorem published (h : Draining s L accepted) (hpolicy : o.slowConsumerPolicy = .disconnect)
    (hshutdown : s.Shutdown) {batch : List FeedRecord} {bytes : Bytes}
    (hstate : s.state = .running)
    (hencode : Session.encodeBatch s.nextSequence batch = .ok bytes) :
    Draining (Session.flushBatch o bytes
      { s.reserve batch.length with
        lastSequenceQueued := s.nextSequence + batch.length - 1
        offered := s.offered + batch.length
        publisher := .idle }) (L.enqueue (tickFrames s.nextSequence batch))
      (accepted ++ numbered s.nextSequence batch) := by
  have hsame := Session.flushBatch_sameTape o bytes
    { s.reserve batch.length with
      lastSequenceQueued := s.nextSequence + batch.length - 1
      offered := s.offered + batch.length
      publisher := .idle }
  obtain ⟨hrequested, hcompleted, hcanceled⟩ := Session.flushBatch_flags o bytes
    { s.reserve batch.length with
      lastSequenceQueued := s.nextSequence + batch.length - 1
      offered := s.offered + batch.length
      publisher := .idle }
  have hdiscard := (flushBatch_disconnect hpolicy bytes
    { s.reserve batch.length with
      lastSequenceQueued := s.nextSequence + batch.length - 1
      offered := s.offered + batch.length
      publisher := .idle }).1
  have hopen : ¬ s.writeLoop.Ending := fun hending => by
    have hclosing := hshutdown.ending hending
    simp [hstate] at hclosing
  have hloop := hsame.writeLoop
  refine ⟨?_, ⟨hdiscard.trans h.undiscarded.1, ?_⟩, fun hdone => ?_, fun hending => ?_,
    fun hpast => ?_, fun hc => ?_⟩
  · rw [Ledger.kept_enqueue, tickPayloads_append, h.ticks,
      tickPayloads_tickFrames (encodeBatch_eq_ok hencode).2, List.map_append]
  · rw [hloop]
    exact h.undiscarded.2
  · rw [hrequested]
    exact h.completed (hcompleted ▸ hdone)
  · rw [hloop] at hending
    exact absurd hending hopen
  · rw [hloop] at hpast
    exact absurd hpast.ending hopen
  · rw [hloop]
    exact h.canceled (hcanceled ▸ hc)

theorem publisherStep (h : Draining s L accepted)
    (hpolicy : o.slowConsumerPolicy = .disconnect) (hshutdown : s.Shutdown)
    {a : Session.PublisherAction} (hstep : s.publisherStep o a = some t) :
    Draining t (record o sessionId s (.publisher a) t L)
      (accepted ++ s.accepted (.publisher a)) := by
  cases Session.publisherStep_cases hstep with
  | published hpc hstate hencode =>
    simpa only [record, Ledger.publish, Session.accepted, hpc, hstate, hencode] using
      h.published hpolicy hshutdown hstate hencode
  | encodingFailed hpc hstate hencode =>
    simpa only [record, Ledger.publish, Session.accepted, hpc, hstate, hencode,
      List.append_nil] using
      h.of_same (t := { (s.reserve _).markClosing .writeFailed with publisher := .faulted })
        rfl rfl h.undiscarded.1 rfl (.inr ⟨rfl, rfl⟩)
  | skippedAtGate hpc hstate | refusedAtGate hpc hstate =>
    simp only [record, Ledger.publish, Session.accepted, hpc, hstate, List.append_nil]
    exact h.of_same rfl rfl h.undiscarded.1 rfl (.inr ⟨rfl, rfl⟩)
  | closedFaulted =>
    obtain ⟨hcanceled, hrequested⟩ := Session.beginClose_closes .writeFailed s
    have hsame := Session.beginClose_sameTape .writeFailed s
    have hdiscard := (Session.beginClose_effect .writeFailed s).2.2.trans h.undiscarded.1
    simp only [record, Ledger.publish, Session.accepted, List.append_nil]
    exact h.of_same hsame.wire hsame.writeLoop hdiscard hcanceled (.inl hrequested)
  | _ =>
    simp only [record, Ledger.publish, Session.accepted, List.append_nil]
    exact h.of_same rfl rfl h.undiscarded.1 rfl (.inr ⟨rfl, rfl⟩)

theorem handlerStep (h : Draining s L accepted) {a : Session.HandlerAction}
    (hstep : s.handlerStep o a = some t) : Draining t L accepted := by
  have hsame := Session.handlerStep_sameTape hstep
  obtain ⟨hcanceled, hclose⟩ := Session.handlerStep_closes hstep
  have hdiscard : t.discardRequested = false :=
    (Session.handlerStep_effect hstep).1.elim (fun hd => hd.trans h.undiscarded.1) id
  exact h.of_same hsame.wire hsame.writeLoop hdiscard hcanceled hclose

/-- A write loop whose sends succeed leaves its loop with everything sent. -/
theorem writeLoopStep (h : Draining s L accepted) (hr : Represents s L)
    {a : Session.WriteLoopAction} (hg : ∀ io, a ≠ .sendFailed io)
    (hstep : s.writeLoopStep o a = some t) :
    Draining t (record o sessionId s (.writeLoop a) t L) accepted := by
  have htape := hr.tape
  have htake : tickPayloads L.take.kept = accepted.map tickPayload := by
    rw [Ledger.kept_take]
    exact h.ticks
  have hdeliver : tickPayloads L.deliver.kept = accepted.map tickPayload := by
    rw [Ledger.kept_deliver]
    exact h.ticks
  have hlive {loop : WriteLoop} (hne : s.writeLoop ≠ .finished) (hc : s.canceled = true) :
      loop = .finished := absurd (h.canceled hc) hne
  cases Session.writeLoopStep_cases hstep with
  | run hpc =>
    exact ⟨h.ticks, ⟨h.undiscarded.1, rfl⟩, h.completed, False.elim, False.elim,
      hlive (by simp [hpc])⟩
  | read hpc =>
    exact ⟨htake, ⟨h.undiscarded.1, rfl⟩, h.completed, fun hdone => ⟨h.completed hdone, rfl⟩,
      False.elim, hlive (by simp [hpc])⟩
  | readEnd hpc hunread hdone =>
    rw [hpc] at htape
    obtain ⟨hheld, hwire, hqueue⟩ := htape
    have hnil : L.queue = [] := frames_eq_nil (hqueue.symm.trans hunread)
    refine ⟨htake, ⟨h.undiscarded.1, rfl⟩, h.completed, fun _ => ⟨h.completed hdone, rfl⟩,
      fun _ => ?_, hlive (by simp [hpc])⟩
    simp [record, Ledger.write, Ledger.take, hheld, hnil, hwire]
  | readEmpty hpc =>
    exact ⟨htake, ⟨h.undiscarded.1, rfl⟩, h.completed, False.elim, False.elim,
      hlive (by simp [hpc])⟩
  | checkedClosing hpc | checkedOpen hpc =>
    exact ⟨h.ticks, ⟨h.undiscarded.1, rfl⟩, h.completed, False.elim, False.elim,
      hlive (by simp [hpc])⟩
  | @heartbeat timestampNanos hpc =>
    refine ⟨?_, ⟨h.undiscarded.1, rfl⟩, h.completed, False.elim, False.elim,
      hlive (by simp [hpc])⟩
    rw [record, Ledger.write, tickPayloads_kept_beat]
    exact h.ticks
  | discarding hpc hrequested => simp [h.undiscarded.1] at hrequested
  | countedDiscard hpc | reportedDiscard hpc | advancedDiscard hpc =>
    have hdiscards := h.undiscarded.2
    simp [hpc, WriteLoop.discards] at hdiscards
  | sending hpc =>
    exact ⟨h.ticks, ⟨h.undiscarded.1, rfl⟩, h.completed, fun hdone => h.ending (hpc ▸ hdone),
      False.elim, hlive (by simp [hpc])⟩
  | sent hpc =>
    exact ⟨h.ticks, ⟨h.undiscarded.1, rfl⟩, h.completed, fun hdone => h.ending (hpc ▸ hdone),
      False.elim, hlive (by simp [hpc])⟩
  | sentHeartbeat hpc =>
    exact ⟨h.ticks, ⟨h.undiscarded.1, rfl⟩, h.completed, False.elim, False.elim,
      hlive (by simp [hpc])⟩
  | @completed buffer completed hpc =>
    rw [hpc] at htape
    obtain ⟨hwire, hqueue⟩ := htape
    rw [List.append_nil] at hwire
    refine ⟨hdeliver, ⟨h.undiscarded.1, ?_⟩, h.completed, fun hending => ?_, fun _ => ?_,
      hlive (by simp [hpc])⟩
    · cases completed <;> rfl
    · exact h.ending (hpc ▸ Session.next_ending hending)
    · simpa [record, Ledger.write, Ledger.deliver] using hwire
  | completedHeartbeat hpc =>
    exact ⟨hdeliver, ⟨h.undiscarded.1, rfl⟩, h.completed, False.elim, False.elim,
      hlive (by simp [hpc])⟩
  | @failed io => exact absurd rfl (hg io)
  | canceled hpc hcanceled =>
    have hfinished := h.canceled hcanceled
    simp [hfinished] at hpc
  | finishedState hpc | completedReader hpc =>
    exact ⟨h.ticks, ⟨h.undiscarded.1, rfl⟩, h.completed,
      fun _ => h.ending (by rw [hpc]; trivial), fun _ => h.pastLoop (by rw [hpc]; trivial),
      hlive (by simp [hpc])⟩
  | canceledLoops hpc =>
    exact ⟨h.ticks, ⟨h.undiscarded.1, rfl⟩, h.completed,
      fun _ => h.ending (by rw [hpc]; trivial), fun _ => h.pastLoop (by rw [hpc]; trivial),
      fun _ => rfl⟩

theorem ownerStep (h : Draining s L accepted) (hr : Represents s L) {a : Session.OwnerAction}
    (hg : a = .teardown → s.writeLoop = .finished)
    (hstep : s.ownerStep o sessionId a = some t) :
    Draining t (record o sessionId s (.owner a) t L) accepted := by
  cases Session.ownerStep_cases hstep with
  | @started startNanos hnew hopen hlive =>
    have hpc := (hr.fresh hnew).1
    refine ⟨?_, h.undiscarded, h.completed, fun hending => ?_, fun hpast => ?_, h.canceled⟩
    · rw [record, Ledger.kept_enqueue, tickPayloads_append, h.ticks]
      simp [tickPayloads, Outbound.tickPayload?]
    · exact absurd hending (by rw [hpc]; exact id)
    · exact absurd hpast (by rw [hpc]; exact id)
  | timer => exact h.of_same rfl rfl h.undiscarded.1 rfl (.inr ⟨rfl, rfl⟩)
  | @closed reason =>
    obtain ⟨hcanceled, hrequested⟩ := Session.beginClose_closes reason s
    have hsame := Session.beginClose_sameTape reason s
    have hdiscard := (Session.beginClose_effect reason s).2.2.trans h.undiscarded.1
    exact h.of_same hsame.wire hsame.writeLoop hdiscard hcanceled (.inl hrequested)
  | tornDown =>
    exact ⟨h.ticks, h.undiscarded, h.completed, h.ending, h.pastLoop, fun _ => hg rfl⟩

theorem step (h : Draining s L accepted) (hshutdown : s.Shutdown) (hr : Represents s L)
    (hpolicy : o.slowConsumerPolicy = .disconnect) {a : Session.Action}
    (hsends : ∀ io, a ≠ .writeLoop (.sendFailed io))
    (hdrained : a = .owner .teardown → s.writeLoop = .finished)
    (hstep : s.step o sessionId a = some t) :
    Draining t (record o sessionId s a t L) (accepted ++ s.accepted a) := by
  cases a with
  | publisher a => exact h.publisherStep hpolicy hshutdown hstep
  | handler a =>
    have hnone : s.accepted (.handler a) = [] := rfl
    rw [hnone, List.append_nil]
    exact h.handlerStep hstep
  | writeLoop a =>
    have hnone : s.accepted (.writeLoop a) = [] := rfl
    rw [hnone, List.append_nil]
    exact h.writeLoopStep hr (fun io ha => hsends io (congrArg _ ha)) hstep
  | owner a =>
    have hnone : s.accepted (.owner a) = [] := rfl
    rw [hnone, List.append_nil]
    exact h.ownerStep hr (fun ha => hdrained (congrArg _ ha)) hstep

/-- All that was taken is on the wire once the write loop is past its loop. -/
theorem sentTicks_of_pastLoop (h : Draining s L accepted) (hpast : s.writeLoop.PastLoop) :
    s.sentTicks = accepted.map tickPayload := by
  have hqueue := (h.ending hpast.ending).2
  have hkept : L.kept = L.out ++ L.held := by rw [Ledger.kept, hqueue, List.append_nil]
  rw [Session.sentTicks, h.pastLoop hpast, ← hkept, drain_frames, filterMap_rawTickPayload?,
    h.ticks]

/-- What is on the wire is an initial part of what was taken. -/
theorem sentTicks_initial (h : Draining s L accepted) (hr : Represents s L) :
    s.sentTicks <+: accepted.map tickPayload := by
  obtain ⟨sent, left, part, hkept, -, hdrain⟩ := hr.drain_wire
  rw [Session.sentTicks, hdrain, filterMap_rawTickPayload?, ← h.ticks, hkept, tickPayloads_append]
  exact List.prefix_append _ _

end Draining

/-! ## The stop -/

namespace ClosingSession

variable {o : FeedServerOptions} {sessionId : Guid} {p q : ClosingSession}

/-- `StopAsync` closes the session. -/
def stop : Action := .session (.owner (.beginClose .serverShutdown))

/-- The records that a step takes. -/
def accepted (p : ClosingSession) : Action → List FeedRecord
  | .session a => p.session.accepted a
  | .onClosed => []

/-- The records that a run takes, in their order and with their numbers. -/
def taken (o : FeedServerOptions) (sessionId : Guid) (as : List Action) : List FeedRecord :=
  (closingSession o sessionId).outputs accepted {} as

/-- The socket keeps accepting bytes, and the session is torn down behind its drain. -/
def Unhindered (p : ClosingSession) : Action → Prop
  | .session (.writeLoop (.sendFailed _)) => False
  | .session (.owner .teardown) => p.session.writeLoop = .finished
  | _ => True

instance (p : ClosingSession) (a : Action) : Decidable (p.Unhindered a) := by
  unfold Unhindered
  split
  · exact instDecidableFalse
  · exact inferInstanceAs (Decidable (_ = _))
  · exact instDecidableTrue

/-- A session keeps what it takes, and reports its end with the reason it was closed for. -/
structure Retains (p : ClosingSession) (accepted : List FeedRecord) : Prop where
  draining : ∃ L, Kept p.session L ∧ Draining p.session L accepted
  reported : ∀ reason ∈ p.reported,
    p.session.closeRequested = true ∧ p.session.closeReason = reason

theorem Retains.init : Retains {} [] := ⟨⟨{}, kept_init, .init⟩, by simp⟩

theorem Retains.step {accepted : List FeedRecord} (h : Retains p accepted)
    (hpolicy : o.slowConsumerPolicy = .disconnect) {a : Action} (hg : p.Unhindered a)
    (hstep : p.step o sessionId a = some q) : Retains q (accepted ++ p.accepted a) := by
  obtain ⟨⟨L, hkept, hdraining⟩, hreported⟩ := h
  cases a with
  | onClosed =>
    obtain ⟨⟨hfinished, -⟩, hstep⟩ := Option.ite_none_right_eq_some.mp hstep
    obtain rfl := Option.some.inj hstep
    have hrequested := (hdraining.ending (by rw [hfinished]; trivial)).1
    refine ⟨⟨L, hkept, ?_⟩, fun reason hreason => ⟨hrequested, Option.some.inj hreason⟩⟩
    rw [ClosingSession.accepted, List.append_nil]
    exact hdraining
  | session a =>
    obtain ⟨-, hstep⟩ := Option.ite_none_right_eq_some.mp hstep
    obtain ⟨t, ht, rfl⟩ := Option.map_eq_some_iff.mp hstep
    refine ⟨⟨record o sessionId p.session a t L, hkept.step ht, ?_⟩, fun reason hreason => ?_⟩
    · refine hdraining.step hkept.shutdown hkept.represents hpolicy (fun io ha => ?_)
        (fun ha => ?_) ht
      · subst ha
        exact hg
      · subst ha
        exact hg
    · obtain ⟨hrequested, hsame⟩ := hreported reason hreason
      obtain ⟨hrequested', hkeeps⟩ := (Session.closesAs_step ht).kept hrequested
      exact ⟨hrequested', hkeeps.trans hsame⟩

/-- A session whose close `StopAsync` began. -/
structure Stopped (p : ClosingSession) : Prop where
  shutdown : p.session.Shutdown
  requested : p.session.closeRequested = true
  reason : p.session.closeReason = .serverShutdown

theorem Stopped.step (h : Stopped p) {a : Action} (hstep : p.step o sessionId a = some q) :
    Stopped q := by
  cases a with
  | onClosed =>
    obtain ⟨-, hstep⟩ := Option.ite_none_right_eq_some.mp hstep
    obtain rfl := Option.some.inj hstep
    exact ⟨h.shutdown, h.requested, h.reason⟩
  | session a =>
    obtain ⟨-, hstep⟩ := Option.ite_none_right_eq_some.mp hstep
    obtain ⟨t, ht, rfl⟩ := Option.map_eq_some_iff.mp hstep
    obtain ⟨hrequested, hsame⟩ := (Session.closesAs_step ht).kept h.requested
    exact ⟨h.shutdown.step ht, hrequested, hsame.trans h.reason⟩

/-- A stopped session takes nothing. -/
theorem Stopped.accepted_eq_nil (h : Stopped p) (a : Action) : p.accepted a = [] := by
  cases a with
  | onClosed => rfl
  | session a => exact Session.accepted_eq_nil (h.shutdown.closeRequested h.requested) a

/-- The first call to begin a close is the server's. -/
theorem Stopped.of_begun (hshutdown : p.session.Shutdown)
    (hopen : p.session.closeRequested = false) {a : Session.Action}
    (hbegun : p.session.begun a = some .serverShutdown)
    (hstep : p.step o sessionId (.session a) = some q) : Stopped q := by
  obtain ⟨-, hstep⟩ := Option.ite_none_right_eq_some.mp hstep
  obtain ⟨t, ht, rfl⟩ := Option.map_eq_some_iff.mp hstep
  obtain ⟨hrequested, hreason⟩ := (Session.closesAs_step ht).begun hopen _ hbegun
  exact ⟨hshutdown.step ht, hrequested, hreason⟩

/-- Under Disconnect, when the socket accepts bytes and the session is torn down behind its drain,
a stop writes every tick taken before it before the socket is closed, in order, and none offered
after it, and the end is reported as the server's shutdown. -/
theorem graceful_stop (o : FeedServerOptions) (sessionId : Guid)
    (hpolicy : o.slowConsumerPolicy = .disconnect) {before after : List Action}
    (hg : (closingSession o sessionId).Guarded Unhindered {} (before ++ stop :: after))
    (hbefore : (closingSession o sessionId).run before = some p)
    (hopen : p.session.closeRequested = false)
    (hafter : (closingSession o sessionId).runFrom p (stop :: after) = some q) :
    q.session.sentTicks <+: (taken o sessionId before).map tickPayload ∧
      (q.session.canceled = true →
        q.session.sentTicks = (taken o sessionId before).map tickPayload) ∧
      ∀ reason, q.reported = some reason → reason = .serverShutdown := by
  have hbefore : (closingSession o sessionId).runFrom {} before = some p := hbefore
  have hrun : (closingSession o sessionId).runFrom {} (before ++ stop :: after) = some q := by
    rw [Machine.runFrom_append, hbefore, Option.bind_some, hafter]
  have hretains {as : List Action} {r : ClosingSession}
      (hg : (closingSession o sessionId).Guarded Unhindered {} as)
      (hr : (closingSession o sessionId).runFrom {} as = some r) :
      Retains r (taken o sessionId as) :=
    Machine.runFrom_invariant_with_outputs
      (fun _ _ _ _ h hg hstep => h.step hpolicy hg hstep) Retains.init hg hr
  obtain ⟨hgbefore, -⟩ := ((closingSession o sessionId).guarded_append hbefore).mp hg
  obtain ⟨L, hkept, -⟩ := (hretains hgbefore hbefore).draining
  obtain ⟨u, hu, hrest⟩ := Option.bind_eq_some_iff.mp hafter
  have hu' := @Stopped.of_begun o sessionId p u hkept.shutdown hopen
    (.owner (.beginClose .serverShutdown)) rfl hu
  have hstopped : Stopped q :=
    Machine.runFrom_invariant (G := fun _ _ => True) (fun _ _ _ h _ hstep => h.step hstep) hu'
      ((closingSession o sessionId).guarded_of_forall (fun _ _ => trivial) _ after) hrest
  have hnone : (closingSession o sessionId).outputs accepted p (stop :: after) = [] := by
    rw [Machine.outputs_cons hu, Machine.outputs_eq_nil (I := Stopped)
      (fun _ _ _ h hstep => h.step hstep) (fun _ a h => h.accepted_eq_nil a) hu']
    rfl
  have htaken : taken o sessionId (before ++ stop :: after) = taken o sessionId before := by
    rw [taken, Machine.outputs_append _ hbefore, hnone, List.append_nil, taken]
  have hq := hretains hg hrun
  rw [htaken] at hq
  obtain ⟨⟨M, hkept', hdraining⟩, hreported⟩ := hq
  refine ⟨hdraining.sentTicks_initial hkept'.represents, fun hclosed => ?_,
    fun reason hreason => ?_⟩
  · refine hdraining.sentTicks_of_pastLoop ?_
    rw [hdraining.canceled hclosed]
    trivial
  · rw [← (hreported reason hreason).2, hstopped.reason]

/-- Two ticks fill the pipe, a third is withheld, and half of the first has been sent. -/
def halfway : List Session.Action :=
  [.owner (.start 0), .writeLoop .run] ++ sending 36 ++ publishing [comiTrade, comiTrade] ++
    skipping [comiTrade] ++ [.writeLoop .readCompleted, .writeLoop .takeDiscard,
    .writeLoop (.socketSend 22)]

/-- The episode ends with the stop, a fourth tick is refused, and the drain goes on to its end. -/
def drained : List Session.Action :=
  [.handler .flushObserved, .handler .markReset, .publisher (.tryPublish [comiTrade]),
    .publisher .readState, .writeLoop (.socketSend 66), .writeLoop .sendCompleted,
    .writeLoop .readCompleted, .writeLoop .finishState, .writeLoop .completeReader,
    .writeLoop .cancelLoops, .owner .teardown]

/-- A session is stopped while it is behind. -/
def halfwayRun : List Action := halfway.map .session

/-- What follows the stop, up to the report. -/
def drainedRun : List Action := drained.map .session ++ [.onClosed]

theorem graceful_stop_behind :
    (endOf (halfwayRun ++ stop :: drainedRun)).session.wireTicks = [1, 2] ∧
    (endOf (halfwayRun ++ stop :: drainedRun)).session.canceled = true ∧
    (endOf (halfwayRun ++ stop :: drainedRun)).session.sentTicks =
      (taken (smallBuffer .disconnect) default halfwayRun).map tickPayload ∧
    (endOf (halfwayRun ++ stop :: drainedRun)).reported = some .serverShutdown := by
  have hreported : (endOf (halfwayRun ++ stop :: drainedRun)).reported = some .serverShutdown := by
    decide +kernel
  have hclosed : (endOf (halfwayRun ++ stop :: drainedRun)).session.canceled = true := by
    decide +kernel
  have hstop := @graceful_stop (endOf halfwayRun) (endOf (halfwayRun ++ stop :: drainedRun))
    (smallBuffer .disconnect) default rfl halfwayRun drainedRun (by decide +kernel)
    (by decide +kernel) (by decide +kernel) (by decide +kernel)
  exact ⟨by decide +kernel, hclosed, hstop.2.1 hclosed, hreported⟩

end ClosingSession

end Tckr.Feed
