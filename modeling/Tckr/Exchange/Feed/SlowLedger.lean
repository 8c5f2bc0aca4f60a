import Tckr.Exchange.Feed.Loss

/-!
# The ledger of slow consumers

A slow consumer's disconnect is counted before the close that decides why the session
ended, and a reason is written by the call that begins the close and by calls that only
stop the session. As long as nothing comes between the count and its close, and no second
call gives another reason, the count agrees with the reason reported, and the reason is
that of the call that closed the session.
-/

namespace Tckr.Feed

open Protocol

/-- The reasons of a disconnect that is counted. -/
def CloseReason.isSlow : CloseReason → Bool
  | .slowConsumer | .slowConsumerLoss => true
  | .clientClosed | .clientReset | .writeFailed | .serverShutdown => false

/-- Between the count of a slow consumer and its close. -/
def Handler.closesSlow : Handler → Bool
  | .beginningClose reason => reason.isSlow
  | .idle | .awaiting | .resetting | .withdrawing | .resolving | .disconnecting _ => false

namespace Session

/-- The reason that a step passes to `BeginClose`. -/
def begun (s : Session) : Action → Option CloseReason
  | .publisher .closeFaulted => some .writeFailed
  | .handler .closeSlow => match s.handler with
      | .beginningClose reason => some reason
      | _ => none
  | .owner (.beginClose reason) => some reason
  | _ => none

/-- The reason that a batch passes to `MarkClosing`: it cannot be encoded, or its flush finds the
reader gone. -/
def markedByBatch (o : FeedServerOptions) (s : Session) (batch : List FeedRecord) :
    Option CloseReason :=
  match encodeBatch s.nextSequence batch with
  | .error _ => some .writeFailed
  | .ok bytes =>
      if s.pipe.pauses o.sessionBufferBytes bytes then none
      else if s.pipe.readerCompleted || s.pipe.cancelFlush then some .clientReset
      else none

/-- The reason that a step passes to `MarkClosing`. -/
def marked (o : FeedServerOptions) (s : Session) : Action → Option CloseReason
  | .publisher .enterGate => match s.publisher with
      | .entering batch => if s.state = .running then s.markedByBatch o batch else none
      | _ => none
  | .handler .markReset => some .clientReset
  | .writeLoop (.sendFailed io) => some (if io then .clientReset else .writeFailed)
  | _ => none

/-- Its owner closes a session as slow only again: the receive loop and the server's stop give
other reasons, and disposing it repeats the reason it has. -/
def Permits (s : Session) (a : Action) : Prop :=
  ∀ reason, a = .owner (.beginClose reason) → reason.isSlow = true → s.closeRequested = true

instance (s : Session) (a : Action) : Decidable (s.Permits a) := by
  unfold Permits
  cases a with
  | owner a =>
    cases a with
    | beginClose reason =>
      exact decidable_of_iff (reason.isSlow = true → s.closeRequested = true)
        ⟨fun h _ heq => by cases heq; exact h, fun h => h reason rfl⟩
    | _ => exact isTrue (by simp)
  | _ => exact isTrue (by simp)

end Session

/-- A session, and what its end has shown outside. -/
structure ClosingSession where
  session : Session := {}
  /-- The calls of `SlowConsumerDisconnected`. -/
  slowConsumerDisconnected : Nat := 0
  /-- The reason of the call that closed the session, as far as its end is not reported: the first
  that only stopped it, until one began the close. -/
  initiator : Option CloseReason := none
  /-- The reason given to `onClosed`. -/
  reported : Option CloseReason := none
  deriving DecidableEq

namespace ClosingSession

inductive Action
  | session (a : Session.Action)
  /-- `Finish` reads the reason and reports it. -/
  | onClosed
  deriving DecidableEq

variable (o : FeedServerOptions) (sessionId : Guid) (p : ClosingSession)

/-- Whether a step counts a slow consumer: `DisconnectSlow` passes its check. -/
def counts (a : Session.Action) : Bool :=
  decide (a = .handler .disconnectSlow) && !p.session.closeRequested

/-- Who has closed the session behind a step. -/
def initiatorAfter (a : Session.Action) : Option CloseReason :=
  if p.session.closeRequested || p.reported.isSome then p.initiator
  else match p.session.begun a with
    | some reason => some reason
    | none => p.initiator.or (p.session.marked o a)

def step : Action → Option ClosingSession
  | .session a =>
      if p.session.Permits a then
        (p.session.step o sessionId a).map fun t => { p with
          session := t
          slowConsumerDisconnected :=
            if p.counts a then p.slowConsumerDisconnected + 1 else p.slowConsumerDisconnected
          initiator := p.initiatorAfter o a }
      else none
  | .onClosed =>
      if p.session.writeLoop = .finished ∧ p.reported = none then
        some { p with reported := some p.session.closeReason }
      else none

/-- Nothing comes between the count of a slow consumer and its close, none is counted once the end
is reported, and no call gives another reason than an earlier one. -/
def Uncontested : Action → Prop
  | .session a =>
      (p.session.handler.closesSlow = true → a ≠ .handler .closeSlow →
        p.session.begun a = none) ∧
      (p.counts a = true → p.reported = none) ∧
      (p.session.closeRequested = false → p.reported = none →
        ∀ reason ∈ p.session.marked o a, ∀ earlier ∈ p.initiator, reason = earlier)
  | .onClosed => p.session.handler.closesSlow = false

instance (a : Action) : Decidable (p.Uncontested o a) := by
  cases a with
  | session a => exact inferInstanceAs (Decidable (_ ∧ _ ∧ _))
  | onClosed => exact inferInstanceAs (Decidable (_ = _))

end ClosingSession

/-- A session to its reported end, in every interleaving. -/
def closingSession (o : FeedServerOptions) (sessionId : Guid) :
    Machine ClosingSession ClosingSession.Action where
  init := {}
  step p a := p.step o sessionId a

/-! ## What a step does to the close -/

namespace Session

variable {o : FeedServerOptions} {sessionId : Guid} {s t : Session}

/-- The request to close and the reason, behind a step. -/
structure ClosesAs (s t : Session) (beginning marking : Option CloseReason) : Prop where
  kept : s.closeRequested = true → t.closeRequested = true ∧ t.closeReason = s.closeReason
  begun : s.closeRequested = false → ∀ reason ∈ beginning,
    t.closeRequested = true ∧ t.closeReason = reason
  marked : s.closeRequested = false → beginning = none → ∀ reason ∈ marking,
    t.closeRequested = false ∧ t.closeReason = reason
  other : s.closeRequested = false → beginning = none → marking = none →
    t.closeRequested = false ∧ t.closeReason = s.closeReason

/-- A step that touches neither. -/
theorem ClosesAs.of_same (hrequested : t.closeRequested = s.closeRequested)
    (hreason : t.closeReason = s.closeReason) : ClosesAs s t none none where
  kept h := ⟨hrequested.trans h, hreason⟩
  begun _ := by simp
  marked _ := by simp
  other h _ _ := ⟨hrequested.trans h, hreason⟩

theorem closesAs_beginClose (reason : CloseReason) (s : Session) :
    ClosesAs s (s.beginClose reason) (some reason) none where
  kept h := by simp [beginClose, h]
  begun h := by simp [beginClose, h]
  marked _ hbegun := by simp at hbegun
  other _ hbegun := by simp at hbegun

theorem closesAs_markClosing (reason : CloseReason) (s : Session) :
    ClosesAs s (s.markClosing reason) none (some reason) where
  kept h := by simp [markClosing, h]
  begun _ := by simp
  marked h := by simp [markClosing, h]
  other _ _ hmarked := by simp at hmarked

/-- Neither depends on the other fields of either session. -/
theorem ClosesAs.congr {u v : Session} {beginning marking : Option CloseReason}
    (h : ClosesAs s t beginning marking) (hrequested : u.closeRequested = s.closeRequested)
    (hreason : u.closeReason = s.closeReason) (hrequested' : v.closeRequested = t.closeRequested)
    (hreason' : v.closeReason = t.closeReason) : ClosesAs u v beginning marking := by
  refine ⟨?_, ?_, ?_, ?_⟩ <;> rw [hrequested, hrequested', hreason']
  · rw [hreason]
    exact h.kept
  · exact h.begun
  · exact h.marked
  · rw [hreason]
    exact h.other

/-- A batch marks the session closing where its flush finds the reader gone. -/
theorem closesAs_flushBatch (bytes : Bytes) (s : Session) :
    ClosesAs s (flushBatch o bytes s) none
      (if s.pipe.pauses o.sessionBufferBytes bytes then none
        else if s.pipe.readerCompleted || s.pipe.cancelFlush then some .clientReset
        else none) := by
  unfold flushBatch
  dsimp only
  split_ifs
  · cases o.slowConsumerPolicy <;> exact .of_same rfl rfl
  · exact (closesAs_markClosing .clientReset s).congr rfl rfl rfl rfl
  · exact .of_same rfl rfl

theorem closesAs_publisherStep {a : PublisherAction} (h : s.publisherStep o a = some t) :
    ClosesAs s t (s.begun (.publisher a)) (s.marked o (.publisher a)) := by
  cases publisherStep_cases h with
  | @published batch bytes hpc hstate hencode =>
    have hmarked : s.marked o (.publisher .enterGate) =
        if s.pipe.pauses o.sessionBufferBytes bytes then none
        else if s.pipe.readerCompleted || s.pipe.cancelFlush then some .clientReset
        else none := by
      simp [marked, hpc, hstate, markedByBatch, hencode]
    rw [hmarked]
    exact (closesAs_flushBatch bytes { s.reserve batch.length with
      lastSequenceQueued := s.nextSequence + batch.length - 1
      offered := s.offered + batch.length
      publisher := .idle }).congr rfl rfl rfl rfl
  | encodingFailed hpc hstate hencode =>
    have hmarked : s.marked o (.publisher .enterGate) = some .writeFailed := by
      simp [marked, hpc, hstate, markedByBatch, hencode]
    rw [hmarked]
    exact (closesAs_markClosing .writeFailed s).congr rfl rfl rfl rfl
  | skippedAtGate hpc hstate | refusedAtGate hpc hstate =>
    have hmarked : s.marked o (.publisher .enterGate) = none := by simp [marked, hpc, hstate]
    rw [hmarked]
    exact .of_same rfl rfl
  | closedFaulted => exact (closesAs_beginClose .writeFailed s).congr rfl rfl rfl rfl
  | _ => exact .of_same rfl rfl

theorem closesAs_handlerStep {a : HandlerAction} (h : s.handlerStep o a = some t) :
    ClosesAs s t (s.begun (.handler a)) (s.marked o (.handler a)) := by
  cases handlerStep_cases h with
  | markedReset => exact (closesAs_markClosing .clientReset s).congr rfl rfl rfl rfl
  | @closed reason hpc =>
    have hbegun : s.begun (.handler .closeSlow) = some reason := by simp [begun, hpc]
    rw [hbegun]
    exact (closesAs_beginClose reason s).congr rfl rfl rfl rfl
  | _ => exact .of_same rfl rfl

theorem closesAs_writeLoopStep {a : WriteLoopAction} (h : s.writeLoopStep o a = some t) :
    ClosesAs s t (s.begun (.writeLoop a)) (s.marked o (.writeLoop a)) := by
  cases writeLoopStep_cases h with
  | @failed io hpc =>
    exact (closesAs_markClosing (if io then .clientReset else .writeFailed) s).congr rfl rfl rfl rfl
  | _ => exact .of_same rfl rfl

theorem closesAs_ownerStep {a : OwnerAction} (h : s.ownerStep o sessionId a = some t) :
    ClosesAs s t (s.begun (.owner a)) (s.marked o (.owner a)) := by
  cases ownerStep_cases h with
  | @closed reason => exact closesAs_beginClose reason s
  | _ => exact .of_same rfl rfl

/-- The first call to begin a close decides the reason; until then the last to stop the session
does. -/
theorem closesAs_step {a : Action} (h : s.step o sessionId a = some t) :
    ClosesAs s t (s.begun a) (s.marked o a) := by
  cases a with
  | publisher a => exact closesAs_publisherStep h
  | handler a => exact closesAs_handlerStep h
  | writeLoop a => exact closesAs_writeLoopStep h
  | owner a => exact closesAs_ownerStep h

/-! ## What a step does to the handler -/

/-- An episode is under way only while the session does not run, and a disconnect is of a slow
consumer. -/
structure Attended (s : Session) : Prop where
  busy : s.handler ≠ .idle → s.state ≠ .running
  slow : ∀ reason, s.handler = .disconnecting reason → reason.isSlow = true

theorem Attended.of_same (h : s.Attended) (hhandler : t.handler = s.handler)
    (hstate : t.state = .running → s.state = .running) : t.Attended where
  busy hbusy hrunning := h.busy (hhandler ▸ hbusy) (hstate hrunning)
  slow reason hreason := h.slow reason (hhandler ▸ hreason)

theorem Attended.idle (hidle : t.handler = .idle) : t.Attended where
  busy hbusy := absurd hidle hbusy
  slow reason hreason := by simp [hidle] at hreason

theorem Attended.closesSlow_eq_false (h : s.Attended) (hrunning : s.state = .running) :
    s.handler.closesSlow = false := by
  have hidle : s.handler = .idle := by
    by_contra hbusy
    exact h.busy hbusy hrunning
  rw [hidle]
  rfl

/-- A flush starts an episode, or leaves the handler alone. -/
theorem flushBatch_handler (o : FeedServerOptions) (bytes : Bytes) (s : Session) :
    (flushBatch o bytes s).handler = .awaiting ∧ (flushBatch o bytes s).state = .backpressured ∨
      (flushBatch o bytes s).handler = s.handler ∧
        ((flushBatch o bytes s).state = .running → s.state = .running) := by
  unfold flushBatch
  dsimp only
  split_ifs
  · cases o.slowConsumerPolicy <;> exact .inl ⟨rfl, rfl⟩
  · exact .inr ⟨rfl, fun h => by simp [markClosing] at h⟩
  · exact .inr ⟨rfl, id⟩

theorem beginClose_handler (reason : CloseReason) (s : Session) :
    (s.beginClose reason).handler = s.handler ∧
      ((s.beginClose reason).state = .running → s.state = .running) := by
  unfold beginClose
  split_ifs
  · exact ⟨rfl, id⟩
  · exact ⟨rfl, fun h => by simp at h⟩

/-- What the publishing thread leaves of the handler. -/
theorem publisherStep_handler {a : PublisherAction} (h : s.publisherStep o a = some t) :
    s.state = .running ∧ t.handler = .awaiting ∧ t.state = .backpressured ∨
      t.handler = s.handler ∧ (t.state = .running → s.state = .running) := by
  cases publisherStep_cases h with
  | @published batch bytes hpc hstate hencode =>
    exact (flushBatch_handler o bytes { s.reserve batch.length with
      lastSequenceQueued := s.nextSequence + batch.length - 1
      offered := s.offered + batch.length
      publisher := .idle }).imp_left fun h => ⟨hstate, h⟩
  | encodingFailed => exact .inr ⟨rfl, fun h => by simp [markClosing] at h⟩
  | closedFaulted => exact .inr (beginClose_handler .writeFailed s)
  | _ => exact .inr ⟨rfl, id⟩

/-- The write loop and the owner leave the handler alone, and open no session. -/
theorem writeLoopStep_handler {a : WriteLoopAction} (h : s.writeLoopStep o a = some t) :
    t.handler = s.handler ∧ (t.state = .running → s.state = .running) := by
  cases writeLoopStep_cases h with
  | failed => exact ⟨rfl, fun h => by simp [markClosing] at h⟩
  | finishedState => exact ⟨rfl, fun h => by simp at h⟩
  | _ => exact ⟨rfl, id⟩

theorem ownerStep_handler {a : OwnerAction} (h : s.ownerStep o sessionId a = some t) :
    t.handler = s.handler ∧ (t.state = .running → s.state = .running) := by
  cases ownerStep_cases h with
  | @closed reason => exact beginClose_handler reason s
  | _ => exact ⟨rfl, id⟩

/-- The handler goes on with an episode, naming a slow consumer where it disconnects one. -/
theorem Attended.of_busy (h : s.Attended) (hpc : s.handler ≠ .idle)
    (hstate : t.state = .running → s.state = .running)
    (hslow : ∀ reason, t.handler = .disconnecting reason → reason.isSlow = true) : t.Attended where
  busy _ hrunning := h.busy hpc (hstate hrunning)
  slow := hslow

/-- What the handler does to itself. -/
theorem Attended.handlerStep (h : s.Attended) {a : HandlerAction}
    (hstep : s.handlerStep o a = some t) : t.Attended ∧
      (t.handler.closesSlow = true ↔ a = .disconnectSlow ∧ s.closeRequested = false ∨
        s.handler.closesSlow = true ∧ a ≠ .closeSlow) := by
  cases handlerStep_cases hstep with
  | observed hpc =>
    refine ⟨h.of_busy (by simp [hpc]) id fun _ hreason => ?_, ?_⟩
    · split at hreason <;> simp at hreason
    · split <;> simp [hpc, Handler.closesSlow]
  | elapsed hpc =>
    refine ⟨h.of_busy (by simp [hpc]) id fun _ hreason => ?_, ?_⟩
    · cases hreason
      rfl
    · simp [hpc, Handler.closesSlow]
  | failed hpc =>
    refine ⟨h.of_busy (by simp [hpc]) id fun _ hreason => by simp at hreason, ?_⟩
    simp [hpc, Handler.closesSlow, CloseReason.isSlow]
  | withdrawn hpc =>
    refine ⟨h.of_busy (by simp [hpc]) id fun _ hreason => by simp at hreason, ?_⟩
    simp [hpc, Handler.closesSlow]
  | lost hpc =>
    refine ⟨h.of_busy (by simp [hpc]) id fun _ hreason => ?_, ?_⟩
    · cases hreason
      rfl
    · simp [hpc, Handler.closesSlow]
  | @checked reason hpc =>
    have hslow := h.slow reason hpc
    cases hrequested : s.closeRequested with
    | true => exact ⟨.idle (by simp), by simp [hpc, Handler.closesSlow]⟩
    | false =>
      refine ⟨h.of_busy (by simp [hpc]) id fun _ hreason => by simp at hreason, ?_⟩
      simp [hpc, Handler.closesSlow, hslow]
  | flushCanceled hpc | markedReset hpc | abandoned hpc | recovered hpc =>
    exact ⟨.idle rfl, by simp [hpc, Handler.closesSlow]⟩
  | closed => exact ⟨.idle rfl, by simp [Handler.closesSlow]⟩

/-- Between a count and its close is where the check has passed, until the close. -/
theorem Attended.step (h : s.Attended) {a : Action} (hstep : s.step o sessionId a = some t) :
    t.Attended ∧ (t.handler.closesSlow = true ↔
      a = .handler .disconnectSlow ∧ s.closeRequested = false ∨
        s.handler.closesSlow = true ∧ a ≠ .handler .closeSlow) := by
  cases a with
  | handler a => simpa using h.handlerStep hstep
  | publisher a =>
    obtain ⟨hrunning, hhandler, hstate⟩ | ⟨hhandler, hstate⟩ := publisherStep_handler hstep
    · refine ⟨⟨fun _ => by simp [hstate], fun _ hreason => by simp [hhandler] at hreason⟩, ?_⟩
      have hawaiting : Handler.awaiting.closesSlow = false := rfl
      simp [hhandler, hawaiting, h.closesSlow_eq_false hrunning]
    · exact ⟨h.of_same hhandler hstate, by simp [hhandler]⟩
  | writeLoop a =>
    obtain ⟨hhandler, hstate⟩ := writeLoopStep_handler hstep
    exact ⟨h.of_same hhandler hstate, by simp [hhandler]⟩
  | owner a =>
    obtain ⟨hhandler, hstate⟩ := ownerStep_handler hstep
    exact ⟨h.of_same hhandler hstate, by simp [hhandler]⟩

end Session

/-! ## The ledger -/

namespace Session

variable {o : FeedServerOptions} {sessionId : Guid} {s t : Session} {a : Action}
  {reason : CloseReason}

/-- No call that only stops a session names a slow consumer. -/
theorem isSlow_of_markedByBatch {batch : List FeedRecord}
    (h : s.markedByBatch o batch = some reason) : reason.isSlow = false := by
  unfold markedByBatch at h
  split at h
  · cases h
    rfl
  · split_ifs at h
    cases h
    rfl

theorem isSlow_of_marked (h : s.marked o a = some reason) : reason.isSlow = false := by
  unfold marked at h
  split at h
  · split at h
    · split_ifs at h
      exact isSlow_of_markedByBatch h
    · cases h
  · cases h
    rfl
  · rename_i io
    cases io <;> cases h <;> rfl
  · cases h

/-- What stops a session neither counts a slow consumer nor begins a close. -/
theorem ne_of_marked (h : s.marked o a = some reason) :
    a ≠ .handler .disconnectSlow ∧ a ≠ .handler .closeSlow :=
  ⟨fun ha => by simp [ha, marked] at h, fun ha => by simp [ha, marked] at h⟩

/-- Only the close behind a count names a slow consumer. -/
theorem isSlow_of_begun (h : s.begun a = some reason) (hpermits : s.Permits a)
    (hopen : s.closeRequested = false) (hclear : s.handler.closesSlow = false) :
    reason.isSlow = false := by
  unfold begun at h
  split at h
  · cases h
    rfl
  · split at h
    · rename_i hpc
      cases h
      simpa [hpc, Handler.closesSlow] using hclear
    · cases h
  · rename_i given
    cases h
    by_contra hslow
    have hrequested := hpermits reason rfl (by simpa using hslow)
    simp [hopen] at hrequested
  · cases h

theorem isSlow_of_closeSlow (h : s.begun (.handler .closeSlow) = some reason) :
    reason.isSlow = s.handler.closesSlow := by
  simp only [begun] at h
  split at h
  · rename_i hpc
    cases h
    simp [hpc, Handler.closesSlow]
  · cases h

theorem begun_closeSlow (hstep : s.step o sessionId (.handler .closeSlow) = some t) :
    s.begun (.handler .closeSlow) ≠ none := by
  have hstep : s.handlerStep o .closeSlow = some t := hstep
  cases handlerStep_cases hstep with
  | closed hpc => simp [begun, hpc]

theorem closesSlow_of_disconnectSlow
    (hstep : s.step o sessionId (.handler .disconnectSlow) = some t) :
    s.handler.closesSlow = false := by
  have hstep : s.handlerStep o .disconnectSlow = some t := hstep
  cases handlerStep_cases hstep with
  | checked hpc => simp [hpc, Handler.closesSlow]

/-- Behind a step that begins no close and counts nothing the handler stands where it stood. -/
theorem Attended.closesSlow_eq (h : s.Attended) (hstep : s.step o sessionId a = some t)
    (hbegun : s.begun a = none) (hcount : ¬(a = .handler .disconnectSlow ∧
      s.closeRequested = false)) : t.handler.closesSlow = s.handler.closesSlow := by
  have hne : a ≠ .handler .closeSlow := by
    rintro rfl
    exact begun_closeSlow hstep hbegun
  have hiff := (h.step hstep).2
  rw [or_iff_right hcount, and_iff_left hne] at hiff
  exact Bool.eq_iff_iff.mpr hiff

end Session

/-! ## What ends a session -/

namespace Session

variable {o : FeedServerOptions} {sessionId : Guid} {s t : Session}

/-- The session is closed, or its pipe, its loops or its write loop come to an end. -/
def Ended (s : Session) : Prop :=
  s.closeRequested = true ∨ s.pipe.writerCompleted = true ∨ s.canceled = true ∨
    s.writeLoop.Ending

/-- A step that ends nothing. -/
theorem Ended.of_same (h : t.Ended) (hrequested : t.closeRequested = s.closeRequested)
    (hcompleted : t.pipe.writerCompleted = s.pipe.writerCompleted)
    (hcanceled : t.canceled = s.canceled) (hending : t.writeLoop.Ending → s.Ended) : s.Ended := by
  obtain h | h | h | h := h
  · exact .inl (hrequested ▸ h)
  · exact .inr (.inl (hcompleted ▸ h))
  · exact .inr (.inr (.inl (hcanceled ▸ h)))
  · exact hending h

theorem Ended.of_publisherStep {a : PublisherAction} (hstep : s.publisherStep o a = some t)
    (h : t.Ended) :
    s.Ended ∨ (s.begun (.publisher a)).isSome ∨ (s.marked o (.publisher a)).isSome := by
  cases publisherStep_cases hstep with
  | @published batch bytes hpc hstate hencode =>
    obtain ⟨hrequested, hcompleted, hcanceled⟩ := flushBatch_flags o bytes
      { s.reserve batch.length with
        lastSequenceQueued := s.nextSequence + batch.length - 1
        offered := s.offered + batch.length
        publisher := .idle }
    refine .inl (h.of_same hrequested hcompleted hcanceled fun hending => ?_)
    rw [(flushBatch_sameTape o bytes _).writeLoop] at hending
    exact .inr (.inr (.inr hending))
  | closedFaulted => exact .inr (.inl rfl)
  | _ => exact .inl (h.of_same rfl rfl rfl fun hending => .inr (.inr (.inr hending)))

theorem Ended.of_handlerStep {a : HandlerAction} (hstep : s.handlerStep o a = some t)
    (h : t.Ended) :
    s.Ended ∨ (s.begun (.handler a)).isSome ∨ (s.marked o (.handler a)).isSome := by
  cases handlerStep_cases hstep with
  | closed hpc => exact .inr (.inl (by simp [begun, hpc]))
  | _ => exact .inl (h.of_same rfl rfl rfl fun hending => .inr (.inr (.inr hending)))

theorem Ended.of_writeLoopStep {a : WriteLoopAction} (hstep : s.writeLoopStep o a = some t)
    (h : t.Ended) :
    s.Ended ∨ (s.begun (.writeLoop a)).isSome ∨ (s.marked o (.writeLoop a)).isSome := by
  have hwas {w : WriteLoop} (hpc : s.writeLoop = w) (hending : w.Ending) : s.Ended :=
    .inr (.inr (.inr (hpc ▸ hending)))
  cases writeLoopStep_cases hstep with
  | read => exact .inl (h.of_same rfl rfl rfl fun hending => .inr (.inl hending))
  | readEnd hpc hunread hdone => exact .inl (.inr (.inl hdone))
  | discarding hpc | countedDiscard hpc | reportedDiscard hpc =>
    exact .inl (h.of_same rfl rfl rfl fun hending => hwas hpc hending)
  | sending hpc => exact .inl (h.of_same rfl rfl rfl fun hending => hwas hpc hending)
  | sent hpc => exact .inl (h.of_same rfl rfl rfl fun hending => hwas hpc hending)
  | advancedDiscard hpc | completed hpc =>
    exact .inl (h.of_same rfl rfl rfl fun hending => hwas hpc (next_ending hending))
  | failed => exact .inr (.inr rfl)
  | canceled hpc hcanceled => exact .inl (.inr (.inr (.inl hcanceled)))
  | finishedState hpc | completedReader hpc | canceledLoops hpc => exact .inl (hwas hpc trivial)
  | _ => exact .inl (h.of_same rfl rfl rfl fun hending => hending.elim)

theorem Ended.of_ownerStep {a : OwnerAction} (hstep : s.ownerStep o sessionId a = some t)
    (h : t.Ended) :
    s.Ended ∨ (s.begun (.owner a)).isSome ∨ (s.marked o (.owner a)).isSome := by
  cases ownerStep_cases hstep with
  | closed => exact .inr (.inl rfl)
  | tornDown hrequested => exact .inl (.inl hrequested)
  | _ => exact .inl (h.of_same rfl rfl rfl fun hending => .inr (.inr (.inr hending)))

/-- Only a call that closes the session ends anything. -/
theorem Ended.of_step {a : Action} (hstep : s.step o sessionId a = some t) (h : t.Ended) :
    s.Ended ∨ (s.begun a).isSome ∨ (s.marked o a).isSome := by
  cases a with
  | publisher a => exact h.of_publisherStep hstep
  | handler a => exact h.of_handlerStep hstep
  | writeLoop a => exact h.of_writeLoopStep hstep
  | owner a => exact h.of_ownerStep hstep

end Session

namespace ClosingSession

variable {o : FeedServerOptions} {sessionId : Guid} {p q : ClosingSession}

/-- The count agrees with the reason, and the reason with the call that closed the session. -/
structure Balanced (p : ClosingSession) : Prop where
  attended : p.session.Attended
  /-- A session that no call has begun to close is not closed as slow. -/
  unclosed : p.session.closeRequested = false → p.session.closeReason.isSlow = false
  checked : p.session.handler.closesSlow = true → p.session.closeRequested = false
  count : p.slowConsumerDisconnected =
    if p.session.closeReason.isSlow || p.session.handler.closesSlow then 1 else 0
  unreported : p.reported = none → ∀ reason ∈ p.initiator, p.session.closeReason = reason
  reported : ∀ reason ∈ p.reported, p.initiator = some reason ∧
    (p.session.closeRequested = true ∧ p.session.closeReason = reason ∨
      reason.isSlow = false ∧ p.session.closeReason.isSlow = false ∧
        p.session.handler.closesSlow = false)

namespace Balanced

theorem init : Balanced {} where
  attended := .idle rfl
  unclosed _ := rfl
  checked h := by simp [Handler.closesSlow] at h
  count := rfl
  unreported _ := by simp
  reported := by simp

/-- Once a close has begun nothing changes. -/
theorem step_closing (h : Balanced p) {a : Session.Action} {t : Session}
    (hstep : p.session.step o sessionId a = some t) (hrequested : p.session.closeRequested = true) :
    Balanced { p with session := t } := by
  obtain ⟨hclosed, hreason⟩ := (Session.closesAs_step hstep).kept hrequested
  obtain ⟨hattended, hiff⟩ := h.attended.step hstep
  have hclear : p.session.handler.closesSlow = false := by
    by_contra hslow
    have hopen := h.checked (by simpa using hslow)
    simp [hrequested] at hopen
  have hclear' : t.handler.closesSlow = false := by
    by_contra hslow
    have hslow' := hiff.mp (by simpa using hslow)
    simp [hrequested, hclear] at hslow'
  refine ⟨hattended, fun hopen => ?_, fun hslow => ?_, ?_, ?_, fun reason hreported => ?_⟩
  · simp [hclosed] at hopen
  · simp [hclear'] at hslow
  · simpa [hreason, hclear, hclear'] using h.count
  · simpa [hreason] using h.unreported
  · obtain ⟨hinitiator, hcase⟩ := h.reported reason hreported
    exact ⟨hinitiator, by simpa [hreason, hclosed, hrequested, hclear, hclear'] using hcase⟩

/-- A report made while no close has begun stands, whatever comes after but a slow consumer. -/
theorem reported_open (h : Balanced p) (hopen : p.session.closeRequested = false)
    {reason : CloseReason} (hreported : p.reported = some reason) :
    p.initiator = some reason ∧ reason.isSlow = false ∧ p.session.closeReason.isSlow = false ∧
      p.session.handler.closesSlow = false := by
  obtain ⟨hinitiator, ⟨hrequested, -⟩ | hcase⟩ := h.reported reason hreported
  · simp [hopen] at hrequested
  · exact ⟨hinitiator, hcase⟩

/-- The call that begins the close gives the reason, that of the count where there is one. -/
theorem step_begun (h : Balanced p) {a : Session.Action} {t : Session} {reason : CloseReason}
    (hstep : p.session.step o sessionId a = some t) (hopen : p.session.closeRequested = false)
    (hbegun : p.session.begun a = some reason) (hpermits : p.session.Permits a)
    (hg : p.session.handler.closesSlow = true → a ≠ .handler .closeSlow →
      p.session.begun a = none) :
    Balanced { p with
      session := t
      initiator := if p.reported.isSome then p.initiator else some reason } := by
  obtain ⟨hclosed, hreason⟩ := (Session.closesAs_step hstep).begun hopen reason hbegun
  obtain ⟨hattended, hiff⟩ := h.attended.step hstep
  have hne : a ≠ .handler .disconnectSlow := by
    rintro rfl
    simp [Session.begun] at hbegun
  have hclear : t.handler.closesSlow = false := by
    by_contra hslow
    obtain ⟨rfl, -⟩ | ⟨hslow, hclose⟩ := hiff.mp (by simpa using hslow)
    · exact hne rfl
    · simp [hg hslow hclose] at hbegun
  have hslow : reason.isSlow = p.session.handler.closesSlow := by
    cases hcloses : p.session.handler.closesSlow with
    | false => exact Session.isSlow_of_begun hbegun hpermits hopen hcloses
    | true =>
      by_cases hclose : a = .handler .closeSlow
      · subst hclose
        rw [Session.isSlow_of_closeSlow hbegun, hcloses]
      · simp [hg hcloses hclose] at hbegun
  refine ⟨hattended, fun hopen => ?_, fun hslow => ?_, ?_, fun hnone => ?_,
    fun told hreported => ?_⟩
  · simp [hclosed] at hopen
  · simp [hclear] at hslow
  · simpa [hreason, hslow, hclear, h.unclosed hopen] using h.count
  · simp [show p.reported = none from hnone, hreason]
  · obtain ⟨hinitiator, htold, -, hcloses⟩ := h.reported_open hopen hreported
    refine ⟨?_, .inr ⟨htold, ?_, hclear⟩⟩
    · simp [show p.reported = some told from hreported, hinitiator]
    · rw [hreason, hslow, hcloses]

/-- A call that only stops the session gives its reason until a close begins. -/
theorem step_marked (h : Balanced p) {a : Session.Action} {t : Session} {reason : CloseReason}
    (hstep : p.session.step o sessionId a = some t) (hopen : p.session.closeRequested = false)
    (hbegun : p.session.begun a = none) (hmarked : p.session.marked o a = some reason)
    (hg : p.reported = none → ∀ earlier ∈ p.initiator, reason = earlier) :
    Balanced { p with
      session := t
      initiator := if p.reported.isSome then p.initiator else p.initiator.or (some reason) } := by
  obtain ⟨hclosed, hreason⟩ := (Session.closesAs_step hstep).marked hopen hbegun reason hmarked
  have hclear := h.attended.closesSlow_eq hstep hbegun
    fun ha => (Session.ne_of_marked hmarked).1 ha.1
  have hslow := Session.isSlow_of_marked hmarked
  refine ⟨(h.attended.step hstep).1, fun _ => ?_, fun _ => hclosed, ?_, fun hnone => ?_,
    fun told hreported => ?_⟩
  · rw [hreason]
    exact hslow
  · simpa [hreason, hslow, hclear, h.unclosed hopen] using h.count
  · have hnone : p.reported = none := hnone
    cases hinitiator : p.initiator with
    | none => simp [hnone, hreason]
    | some earlier =>
      have hsame := hg hnone earlier hinitiator
      simp [hnone, hreason, hsame]
  · obtain ⟨hinitiator, htold, -, hcloses⟩ := h.reported_open hopen hreported
    refine ⟨?_, .inr ⟨htold, ?_, ?_⟩⟩
    · simp [show p.reported = some told from hreported, hinitiator]
    · rw [hreason]
      exact hslow
    · rw [hclear]
      exact hcloses

/-- `DisconnectSlow` counts as it passes its check. -/
theorem step_counted (h : Balanced p) {t : Session}
    (hstep : p.session.step o sessionId (.handler .disconnectSlow) = some t)
    (hopen : p.session.closeRequested = false) (hg : p.reported = none) :
    Balanced { p with
      session := t
      slowConsumerDisconnected := p.slowConsumerDisconnected + 1 } := by
  obtain ⟨hclosed, hreason⟩ := (Session.closesAs_step hstep).other hopen rfl rfl
  obtain ⟨hattended, hiff⟩ := h.attended.step hstep
  have hcloses : t.handler.closesSlow = true := hiff.mpr (.inl ⟨rfl, hopen⟩)
  have hclear := Session.closesSlow_of_disconnectSlow hstep
  have hcount := h.count
  rw [h.unclosed hopen, hclear] at hcount
  refine ⟨hattended, fun _ => ?_, fun _ => hclosed, ?_, ?_, fun told hreported => ?_⟩
  · rw [hreason]
    exact h.unclosed hopen
  · simpa [hcloses] using hcount
  · simpa [hreason] using h.unreported
  · simp [show p.reported = some told from hreported] at hg

/-- Any other step of an open session leaves the count and the reason alone. -/
theorem step_open (h : Balanced p) {a : Session.Action} {t : Session}
    (hstep : p.session.step o sessionId a = some t) (hopen : p.session.closeRequested = false)
    (hbegun : p.session.begun a = none) (hmarked : p.session.marked o a = none)
    (hne : a ≠ .handler .disconnectSlow) : Balanced { p with session := t } := by
  obtain ⟨hclosed, hreason⟩ := (Session.closesAs_step hstep).other hopen hbegun hmarked
  have hclear := h.attended.closesSlow_eq hstep hbegun fun ha => hne ha.1
  refine ⟨(h.attended.step hstep).1, fun _ => ?_, fun _ => hclosed, ?_, ?_,
    fun told hreported => ?_⟩
  · rw [hreason]
    exact h.unclosed hopen
  · simpa [hreason, hclear] using h.count
  · simpa [hreason] using h.unreported
  · obtain ⟨hinitiator, htold, hslow, hcloses⟩ := h.reported_open hopen hreported
    refine ⟨hinitiator, .inr ⟨htold, ?_, ?_⟩⟩
    · rw [hreason]
      exact hslow
    · rw [hclear]
      exact hcloses

/-- A step of the session keeps the books. -/
theorem step_session (h : Balanced p) {a : Session.Action} {t : Session}
    (hstep : p.session.step o sessionId a = some t) (hpermits : p.session.Permits a)
    (hg : p.Uncontested o (.session a)) : Balanced { p with
      session := t
      slowConsumerDisconnected :=
        if p.counts a then p.slowConsumerDisconnected + 1 else p.slowConsumerDisconnected
      initiator := p.initiatorAfter o a } := by
  obtain ⟨hbetween, hcounted, hmarks⟩ := hg
  cases hopen : p.session.closeRequested with
  | true => simpa [counts, initiatorAfter, hopen] using h.step_closing hstep hopen
  | false =>
    cases hbegun : p.session.begun a with
    | some reason =>
      have hne : a ≠ .handler .disconnectSlow := by
        rintro rfl
        simp [Session.begun] at hbegun
      simpa [counts, initiatorAfter, hopen, hbegun, hne] using
        h.step_begun hstep hopen hbegun hpermits hbetween
    | none =>
      cases hmarked : p.session.marked o a with
      | some reason =>
        have hne := (Session.ne_of_marked hmarked).1
        simpa [counts, initiatorAfter, hopen, hbegun, hmarked, hne] using
          h.step_marked hstep hopen hbegun hmarked fun hnone => hmarks hopen hnone reason hmarked
      | none =>
        by_cases hcount : a = .handler .disconnectSlow
        · subst hcount
          have hnone := hcounted (by simp [counts, hopen])
          simpa [counts, initiatorAfter, hopen, hbegun, hmarked] using
            h.step_counted hstep hopen hnone
        · simpa [counts, initiatorAfter, hopen, hbegun, hmarked, hcount] using
            h.step_open hstep hopen hbegun hmarked hcount

/-- The end is reported with the reason there is. -/
theorem step_onClosed (h : Balanced p) (hinitiated : p.initiator.isSome = true)
    (hnone : p.reported = none) (hclear : p.session.handler.closesSlow = false) :
    Balanced { p with reported := some p.session.closeReason } := by
  obtain ⟨reason, hreason⟩ := Option.isSome_iff_exists.mp hinitiated
  have hsame := h.unreported hnone reason hreason
  refine ⟨h.attended, h.unclosed, h.checked, h.count, by simp, fun told htold => ?_⟩
  obtain rfl : p.session.closeReason = told := by simpa using htold
  refine ⟨hreason.trans (congrArg some hsame.symm), ?_⟩
  cases hopen : p.session.closeRequested with
  | true => exact .inl ⟨rfl, rfl⟩
  | false => exact .inr ⟨h.unclosed hopen, h.unclosed hopen, hclear⟩

end Balanced

/-- Some call has closed a session that has ended or is ending. -/
def Initiated (p : ClosingSession) : Prop := p.session.Ended → p.initiator.isSome = true

theorem Initiated.init : Initiated {} := by
  rintro (h | h | h | h)
  · simp at h
  · simp at h
  · simp at h
  · exact h.elim

theorem Initiated.step_session (h : Initiated p) (hbalanced : Balanced p) {a : Session.Action}
    {t : Session} (hstep : p.session.step o sessionId a = some t) (hended : t.Ended) :
    (p.initiatorAfter o a).isSome = true := by
  unfold initiatorAfter
  split
  · rename_i hover
    obtain hrequested | hreported := Bool.or_eq_true_iff.mp hover
    · exact h (.inl hrequested)
    · obtain ⟨reason, hreason⟩ := Option.isSome_iff_exists.mp hreported
      rw [(hbalanced.reported reason hreason).1]
      rfl
  · split
    · rfl
    · rename_i hbegun
      obtain hended | hsome | hsome := hended.of_step hstep
      · rw [Option.isSome_or, h hended, Bool.true_or]
      · simp [hbegun] at hsome
      · rw [Option.isSome_or, hsome, Bool.or_true]

/-- The books hold and every end has its call. -/
theorem step_sound {a : Action} (hbalanced : Balanced p) (hinitiated : Initiated p)
    (hg : p.Uncontested o a) (hstep : p.step o sessionId a = some q) :
    Balanced q ∧ Initiated q := by
  cases a with
  | session a =>
    obtain ⟨hpermits, hstep⟩ := Option.ite_none_right_eq_some.mp hstep
    obtain ⟨t, ht, rfl⟩ := Option.map_eq_some_iff.mp hstep
    exact ⟨hbalanced.step_session ht hpermits hg, hinitiated.step_session hbalanced ht⟩
  | onClosed =>
    obtain ⟨⟨hfinished, hnone⟩, hstep⟩ := Option.ite_none_right_eq_some.mp hstep
    obtain rfl := Option.some.inj hstep
    have hended : p.session.Ended := .inr (.inr (.inr (by rw [hfinished]; trivial)))
    exact ⟨hbalanced.step_onClosed (hinitiated hended) hnone hg, hinitiated⟩

/-- In every run in which nothing comes between the count of a slow consumer and its close, the
disconnect is counted exactly once where the reason reported names a slow consumer and never
otherwise, and the reason is that of the call that closed the session. -/
theorem slowConsumer_ledger (o : FeedServerOptions) (sessionId : Guid) {as : List Action}
    {p : ClosingSession} (hg : (closingSession o sessionId).Guarded (Uncontested o) {} as)
    (hrun : (closingSession o sessionId).run as = some p) {reason : CloseReason}
    (hreported : p.reported = some reason) :
    p.slowConsumerDisconnected = (if reason.isSlow then 1 else 0) ∧
      p.initiator = some reason := by
  obtain ⟨hbalanced, -⟩ := Machine.run_invariant_of_guarded (m := closingSession o sessionId)
    (I := fun p => Balanced p ∧ Initiated p) ⟨Balanced.init, Initiated.init⟩
    (fun _ _ _ hp hg hq => step_sound hp.1 hp.2 hg hq) hg hrun
  obtain ⟨hinitiator, ⟨hrequested, hreason⟩ | ⟨htold, hslow, hclear⟩⟩ :=
    hbalanced.reported reason hreported
  · have hclear : p.session.handler.closesSlow = false := by
      by_contra hcloses
      have hopen := hbalanced.checked (by simpa using hcloses)
      simp [hrequested] at hopen
    exact ⟨by simpa [hreason, hclear] using hbalanced.count, hinitiator⟩
  · exact ⟨by simpa [htold, hslow, hclear] using hbalanced.count, hinitiator⟩

/-- The session starts, two ticks fill its pipe, and the handler's timeout elapses. -/
def behindRun : List Session.Action :=
  [.owner (.start 0), .writeLoop .run] ++ sending 36 ++ publishing [comiTrade, comiTrade] ++
    [.handler .delayElapsed, .handler .disconnectSlow]

/-- The session is torn down, its write loop ends and the end is reported. -/
def ending : List Action :=
  [.session (.owner .teardown), .session (.writeLoop .canceled), .session (.writeLoop .finishState),
    .session (.writeLoop .completeReader), .session (.writeLoop .cancelLoops), .onClosed]

/-- Where a run over a small buffer ends. -/
def endOf (as : List Action) : ClosingSession :=
  ((closingSession (smallBuffer .disconnect) default).run as).getD {}

/-- A consumer is disconnected as slow. -/
def disconnectedRun : List Action :=
  behindRun.map .session ++ [.session (.handler .closeSlow)] ++ ending

theorem slowConsumer_ledger_disconnected :
    (endOf disconnectedRun).reported = some .slowConsumer ∧
    (endOf disconnectedRun).slowConsumerDisconnected = 1 ∧
    (endOf disconnectedRun).initiator = some .slowConsumer :=
  have hreported : (endOf disconnectedRun).reported = some .slowConsumer := by decide +kernel
  ⟨hreported, @slowConsumer_ledger (smallBuffer .disconnect) default disconnectedRun _
    (by decide +kernel) (by decide +kernel) _ hreported⟩

/-- The server stops the session between the count of its slow consumer and the close. -/
def stoppedRun : List Action :=
  behindRun.map .session ++ [.session (.owner (.beginClose .serverShutdown)),
    .session (.handler .closeSlow)] ++ ending

/-- A batch cannot be encoded while the socket fails under the write loop. -/
def faultedRun : List Action :=
  [.session (.owner (.start 0)), .session (.writeLoop .run),
    .session (.writeLoop .readCompleted), .session (.writeLoop .takeDiscard)] ++
  (publishing [{ comiTrade with messageType := .heartbeat }]).map .session ++
  [.session (.writeLoop (.sendFailed true)), .session (.writeLoop .finishState),
    .session (.writeLoop .completeReader), .session (.writeLoop .cancelLoops), .onClosed]

/-- A slow consumer is counted whose session ends for another reason, and a session ends for a
reason that is not the first one given. -/
theorem not_slowConsumer_ledger :
    (¬∀ (as : List Action) (p : ClosingSession) (reason : CloseReason),
      (closingSession (smallBuffer .disconnect) default).run as = some p →
      p.reported = some reason →
        p.slowConsumerDisconnected = if reason.isSlow then 1 else 0) ∧
    ¬∀ (as : List Action) (p : ClosingSession) (reason : CloseReason),
      (closingSession (smallBuffer .disconnect) default).run as = some p →
      p.reported = some reason → p.initiator = some reason := by
  refine ⟨fun h => ?_, fun h => ?_⟩
  · have hcount := h stoppedRun (endOf stoppedRun) .serverShutdown (by decide +kernel)
      (by decide +kernel)
    exact absurd hcount (by decide +kernel)
  · have hinitiator := h faultedRun (endOf faultedRun) .clientReset (by decide +kernel)
      (by decide +kernel)
    exact absurd hinitiator (by decide +kernel)

end ClosingSession

end Tckr.Feed
