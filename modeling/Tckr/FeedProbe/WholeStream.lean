import Tckr.Exchange.Protocol.Chunking
import Tckr.FeedProbe.ReadLoop

/-!
# Where the reads cut the stream

What the probe reports of a stream of bytes, times and rates apart, is what it would
report if it were given all of them at once: where the reads cut the stream, how the pipe
lays them out in segments, when they come and whether a pause lies between them leaves no
trace. That holds of bytes that are no feed as well.
-/

namespace Tckr.FeedProbe

open Protocol

/-! ## Dispatching frames -/

/-- Decoding asks for the bytes of a payload only. -/
theorem readPayload_congr (type : FeedMessageType) {payload payload' : ReadOnlySequence UInt8}
    (h : payload.toList = payload'.toList) :
    readPayload type payload = readPayload type payload' := by
  unfold readPayload
  cases type <;> simp only [readTickSequence_eq, h]

namespace ProbeSession

theorem dispatch_congr (s : ProbeSession) (type : FeedMessageType)
    {payload payload' : ReadOnlySequence UInt8} (h : payload.toList = payload'.toList)
    (stamps : Stamps) : s.dispatch type payload stamps = s.dispatch type payload' stamps := by
  rw [dispatch, dispatch, readPayload_congr type h]

/-- Dispatch extracted frames in order, until one throws. -/
def dispatchAll (s : ProbeSession) (stamps : Stamps) :
    List RawFrame → ProbeSession × Option ProbeException
  | [] => (s, none)
  | (type, payload) :: frames => match s.dispatch type ⟨[payload]⟩ stamps with
    | (t, some e) => (t, some e)
    | (t, none) => t.dispatchAll stamps frames

/-- What a buffer comes to: its frames dispatched, and what ends them. -/
def takeIn (s : ProbeSession) (stamps : Stamps)
    (drained : List RawFrame × Except InvalidDataException Bytes) :
    ProbeSession × Except ProbeException Bytes :=
  match s.dispatchAll stamps drained.1 with
  | (t, some e) => (t, .error e)
  | (t, none) => (t, match drained.2 with
    | .error e => .error (.feed (.invalidData e))
    | .ok rest => .ok rest)

theorem takeIn_eq_ok {s t : ProbeSession} {stamps : Stamps}
    {drained : List RawFrame × Except InvalidDataException Bytes} {rest : Bytes}
    (h : s.takeIn stamps drained = (t, .ok rest)) :
    s.dispatchAll stamps drained.1 = (t, none) ∧ drained.2 = .ok rest := by
  unfold takeIn at h
  rcases hs : s.dispatchAll stamps drained.1 with ⟨u, _ | e⟩
  · rw [hs] at h
    rcases hd : drained.2 with e | more
    · rw [hd] at h
      cases h
    · rw [hd] at h
      cases h
      exact ⟨rfl, rfl⟩
  · rw [hs] at h
    cases h

/-- A buffer is its bytes. -/
theorem processBufferWithin_eq (n : Nat) (buffer : ReadOnlySequence UInt8) (stamps : Stamps)
    (s : ProbeSession) :
    Prod.map id (Except.map ReadOnlySequence.toList) (processBufferWithin n buffer stamps s) =
      s.takeIn stamps (frameReader.drainWithin n buffer.toList) := by
  induction n generalizing buffer s with
  | zero => rfl
  | succ n ih =>
    have hv := verdict_tryReadFrame buffer
    have hsame := @tryReadFrame_unchanged buffer
    have hnext : frameReader.next buffer.toList = readFrame buffer.toList := rfl
    rw [processBufferWithin, FrameReader.drainWithin, hnext, ← hv]
    rcases htry : tryReadFrame buffer with ⟨rest, e | _ | ⟨type, payload⟩⟩
    · rfl
    · rw [htry] at hsame
      have hrest : rest = buffer := hsame fun f h => by cases h
      rw [hrest]
      rfl
    · simp only [verdict]
      have hdispatch : s.dispatch type ⟨[payload.toList]⟩ stamps =
          s.dispatch type payload stamps :=
        s.dispatch_congr type (by simp [ReadOnlySequence.toList]) stamps
      rw [takeIn, dispatchAll, hdispatch]
      rcases s.dispatch type payload stamps with ⟨t, _ | e⟩
      · exact ih rest t
      · rfl

theorem processBuffer_eq (s : ProbeSession) (buffer : ReadOnlySequence UInt8) (stamps : Stamps) :
    Prod.map id (Except.map ReadOnlySequence.toList) (s.processBuffer buffer stamps) =
      s.takeIn stamps (frameReader.drain buffer.toList) := by
  rw [processBuffer, processBufferWithin_eq, FrameReader.drain, buffer.length_toList]

theorem dispatchAll_append (s : ProbeSession) (stamps : Stamps) {before : List RawFrame}
    {t : ProbeSession} (h : s.dispatchAll stamps before = (t, none)) (after : List RawFrame) :
    s.dispatchAll stamps (before ++ after) = t.dispatchAll stamps after := by
  induction before generalizing s with
  | nil =>
    cases h
    rfl
  | cons f before ih =>
    obtain ⟨type, payload⟩ := f
    rw [List.cons_append, dispatchAll]
    rw [dispatchAll] at h
    rcases hd : s.dispatch type ⟨[payload]⟩ stamps with ⟨u, _ | e⟩
    · rw [hd] at h
      exact ih u h
    · rw [hd] at h
      cases h

theorem dispatchAll_append_error (s : ProbeSession) (stamps : Stamps) {before : List RawFrame}
    {t : ProbeSession} {e : ProbeException} (h : s.dispatchAll stamps before = (t, some e))
    (after : List RawFrame) : s.dispatchAll stamps (before ++ after) = (t, some e) := by
  induction before generalizing s with
  | nil => cases h
  | cons f before ih =>
    obtain ⟨type, payload⟩ := f
    rw [List.cons_append, dispatchAll]
    rw [dispatchAll] at h
    rcases hd : s.dispatch type ⟨[payload]⟩ stamps with ⟨u, _ | e'⟩
    · rw [hd] at h
      exact ih u h
    · rw [hd] at h
      exact h

/-! ## What is not timed -/

/-- What a session keeps that does not depend on the clocks. -/
def timeless (s : ProbeSession) : ProbeSession :=
  { s with
    lastTickMonoTicks := none
    maxHeartbeatIntervalMs := 0
    heartbeatExceeded2xCount := 0
    lastHeartbeatAt := none
    interArrivalTicks := []
    latencyNanos := [] }

theorem checkSequence_timeless (s : ProbeSession) (x : UInt64) :
    (s.checkSequence x).timeless = s.timeless.checkSequence x := by
  have hlast : s.timeless.lastTickSequence = s.lastTickSequence := rfl
  unfold checkSequence
  rw [hlast]
  cases sequenceVerdict s.lastTickSequence x <;> rfl

theorem checkTimestampOrder_timeless (s : ProbeSession) (record : FeedRecord) :
    (s.checkTimestampOrder record).timeless = s.timeless.checkTimestampOrder record := by
  have hverify : s.timeless.verifyOrder = s.verifyOrder := rfl
  have hlast : s.timeless.lastTimestampNanos = s.lastTimestampNanos := rfl
  have hkept : s.timeless.orderViolations = s.orderViolations := rfl
  unfold checkTimestampOrder
  rw [hverify, hlast, hkept]
  split
  · cases s.lastTimestampNanos.get? record.symbol with
    | none => rfl
    | some previous =>
      dsimp only
      split <;> rfl
  · rfl

/-- A tick leaves the same behind at any time, times apart. -/
theorem noteTick_timeless (s : ProbeSession) (record : FeedRecord) (stamps stamps' : Stamps) :
    (s.noteTick record stamps).timeless = (s.timeless.noteTick record stamps').timeless := by
  have hchecked := checkSequence_timeless (s.countTick record) record.sequenceNumber
  have hcount : (s.countTick record).timeless = s.timeless.countTick record := rfl
  rw [noteTick, noteTick, checkTimestampOrder_timeless, checkTimestampOrder_timeless]
  refine congrArg (checkTimestampOrder · record) ?_
  rw [← hcount, ← hchecked]
  rfl

theorem noteHeartbeat_timeless (s : ProbeSession) (stamps stamps' : Stamps) :
    (s.noteHeartbeat stamps).timeless = (s.timeless.noteHeartbeat stamps').timeless := by
  unfold noteHeartbeat
  cases s.lastHeartbeatAt <;> rfl

/-- Two sessions that differ in times only. -/
def Alike (s t : ProbeSession) : Prop := s.timeless = t.timeless

namespace Alike

variable {s t u : ProbeSession}

theorem refl (s : ProbeSession) : s.Alike s := rfl

theorem symm (h : s.Alike t) : t.Alike s := Eq.symm h

theorem trans (h : s.Alike t) (h' : t.Alike u) : s.Alike u := Eq.trans h h'

theorem noteTick (h : s.Alike t) (record : FeedRecord) (stamps stamps' : Stamps) :
    (s.noteTick record stamps).Alike (t.noteTick record stamps') := by
  rw [Alike, s.noteTick_timeless record stamps stamps, t.noteTick_timeless record stamps' stamps,
    h]

theorem noteHeartbeat (h : s.Alike t) (stamps stamps' : Stamps) :
    (s.noteHeartbeat stamps).Alike (t.noteHeartbeat stamps') := by
  rw [Alike, s.noteHeartbeat_timeless stamps stamps, t.noteHeartbeat_timeless stamps' stamps, h]

/-- Sessions that differ in times only differ in times only behind a frame. -/
theorem dispatch (h : s.Alike t) (type : FeedMessageType) (payload : ReadOnlySequence UInt8)
    (stamps stamps' : Stamps) :
    (s.dispatch type payload stamps).1.Alike (t.dispatch type payload stamps').1 ∧
      (s.dispatch type payload stamps).2 = (t.dispatch type payload stamps').2 := by
  have htimeless : s.timeless = t.timeless := h
  have hbytes : s.totalBytes = t.totalBytes := by
    change s.timeless.totalBytes = t.timeless.totalBytes
    rw [htimeless]
  have hcounted : Alike { s with totalBytes := s.totalBytes + frameWireSize type }
      { t with totalBytes := t.totalBytes + frameWireSize type } := by
    rw [hbytes]
    exact congrArg (fun u : ProbeSession =>
      { u with totalBytes := t.totalBytes + frameWireSize type }) htimeless
  unfold ProbeSession.dispatch
  dsimp only
  split_ifs with htype
  · exact ⟨hcounted, rfl⟩
  · cases readPayload type payload with
    | error e => exact ⟨hcounted, rfl⟩
    | ok message =>
      cases message with
      | tick record => exact ⟨hcounted.noteTick record stamps stamps', rfl⟩
      | heartbeat lastSeq timestampNanos => exact ⟨hcounted.noteHeartbeat stamps stamps', rfl⟩
      | sessionStart sessionId heartbeatMs startNanos => exact ⟨hcounted, rfl⟩

theorem dispatchAll (h : s.Alike t) (frames : List RawFrame) (stamps stamps' : Stamps) :
    (s.dispatchAll stamps frames).1.Alike (t.dispatchAll stamps' frames).1 ∧
      (s.dispatchAll stamps frames).2 = (t.dispatchAll stamps' frames).2 := by
  induction frames generalizing s t with
  | nil => exact ⟨h, rfl⟩
  | cons f frames ih =>
    obtain ⟨type, payload⟩ := f
    obtain ⟨hsession, hthrown⟩ := h.dispatch type ⟨[payload]⟩ stamps stamps'
    rw [ProbeSession.dispatchAll, ProbeSession.dispatchAll]
    rcases hs : s.dispatch type ⟨[payload]⟩ stamps with ⟨s', e⟩
    rcases ht : t.dispatch type ⟨[payload]⟩ stamps' with ⟨t', e'⟩
    rw [hs, ht] at hsession hthrown
    dsimp only at hsession hthrown
    subst hthrown
    cases e with
    | none => exact ih hsession
    | some e => exact ⟨hsession, rfl⟩

end Alike

end ProbeSession

/-! ## Reads as bytes -/

namespace Probe

variable (p : Probe)

/-- What a read of the handshake comes to. -/
def establishWith (bytes : Bytes) (isCompleted : Bool) : Probe :=
  match readFrame bytes with
  | .error e => p.failHandshake (.invalidData e)
  | .ok none =>
    if isCompleted then { p with unread := bytes, phase := .ended .refused }
    else { p with unread := bytes }
  | .ok (some ((type, payload), rest)) =>
    if type ≠ .sessionStart then p.failHandshake (.firstFrame type)
    else match readSessionStart payload with
      | .error e => p.failHandshake (.invalidData e)
      | .ok (sessionId, heartbeatIntervalMs, _) =>
        { p with
          phase := .streaming
          sessionId
          session := { p.session with heartbeatIntervalMs }
          unread := rest }

theorem establishSession_eq (r : ReadResult) :
    p.establishSession r = p.establishWith (p.unread ++ r.chunk) r.isCompleted := by
  have hv := verdict_tryReadFrame (r.buffer p.unread)
  have hsame := @tryReadFrame_unchanged (r.buffer p.unread)
  have hbytes : (r.buffer p.unread).toList = p.unread ++ r.chunk :=
    ReadOnlySequence.toList_layout _ _
  rw [hbytes] at hv
  rw [establishSession, establishWith, ← hv]
  rcases htry : tryReadFrame (r.buffer p.unread) with ⟨rest, e | _ | ⟨type, payload⟩⟩
  · rfl
  · rw [htry] at hsame
    have hrest : rest = r.buffer p.unread := hsame fun f h => by cases h
    rw [hrest]
    simp only [verdict, hbytes]
  · rfl

/-- What a read of the stream comes to. -/
def streamWith (isCompleted : Bool) : ProbeSession × Except ProbeException Bytes → Probe
  | (session, .error e) => match e.framingError? with
    | some e =>
      (({ p with session }.recordFramingError e).afterStall .framingError).finish .framingError
    | none => { p with session, phase := .crashed }
  | (session, .ok rest) =>
    let read := { p with session, unread := rest }
    if isCompleted then (read.afterStall .eof).finish .eof else read

theorem readStream_eq (r : ReadResult) :
    p.readStream r = p.streamWith r.isCompleted
      (p.session.takeIn r.stamps (frameReader.drain (p.unread ++ r.chunk))) := by
  have hbytes : (r.buffer p.unread).toList = p.unread ++ r.chunk :=
    ReadOnlySequence.toList_layout _ _
  rw [readStream, ← hbytes, ← ProbeSession.processBuffer_eq]
  rcases p.session.processBuffer (r.buffer p.unread) r.stamps with ⟨session, e | rest⟩ <;> rfl

/-- A report asks for nothing timed. -/
theorem buildReport_congr (o : ProbeOptions) {p q : Probe} (hphase : p.phase = q.phase)
    (hid : p.sessionId = q.sessionId) (herrors : p.framingErrors = q.framingErrors)
    (hsession : p.session.Alike q.session) :
    p.buildReport o = { q.buildReport o with stallOutcome := p.stallOutcome } := by
  have htimeless : p.session.timeless = q.session.timeless := hsession
  have hreason : p.endReason? = q.endReason? := by rw [endReason?, hphase, endReason?]
  have hestablished : p.sessionEstablished = q.sessionEstablished := by
    rw [sessionEstablished, hreason, sessionEstablished]
  have hfield {β : Type} (f : ProbeSession → β) (hf : ∀ s : ProbeSession, f s.timeless = f s) :
      f p.session = f q.session := by
    rw [← hf p.session, htimeless, hf]
  simp only [buildReport, hreason, hestablished, hid, herrors,
    hfield (·.heartbeatIntervalMs) fun _ => rfl, hfield (·.eventsReceived) fun _ => rfl,
    hfield (·.gaps) fun _ => rfl, hfield (·.recordsLost) fun _ => rfl,
    hfield (·.integrityViolations) fun _ => rfl, hfield (·.totalBytes) fun _ => rfl,
    hfield (·.tradeCount) fun _ => rfl, hfield (·.bidCount) fun _ => rfl,
    hfield (·.askCount) fun _ => rfl, hfield (·.symbolTicks) fun _ => rfl,
    hfield (·.auctionPrintCount) fun _ => rfl, hfield (·.heartbeatCount) fun _ => rfl,
    hfield (·.orderViolations) fun _ => rfl]

/-- A probe that is connected and has read nothing. -/
def opened (o : ProbeOptions) : Probe where
  phase := .handshaking
  session := { verifyOrder := o.verifyOrder }

/-- A probe that is given a whole stream by its first read, and its end by the second. -/
def atOnce (o : ProbeOptions) (stamps : Stamps) (bytes : Bytes) : Probe :=
  let established := (opened o).establishSession ⟨bytes, [], true, stamps⟩
  if established.phase = .streaming then established.readStream ⟨[], [], true, stamps⟩
  else established

/-- The session behind a session-start frame. -/
def afterStart (o : ProbeOptions) (heartbeatIntervalMs : UInt32) : ProbeSession :=
  { verifyOrder := o.verifyOrder, heartbeatIntervalMs }

variable {o : ProbeOptions} {stamps : Stamps} {p q : Probe} {b B : Bytes}

/-- A stream that opens with a session start, at once. -/
theorem atOnce_of_start {payload after : Bytes} {sessionId : Guid} {heartbeatMs : UInt32}
    {startNanos : Int64} (hframe : readFrame b = .ok (some ((.sessionStart, payload), after)))
    (hstart : readSessionStart payload = .ok (sessionId, heartbeatMs, startNanos)) :
    atOnce o stamps b = ({ phase := .streaming, sessionId, session := afterStart o heartbeatMs
                           unread := after } : Probe).streamWith true
      ((afterStart o heartbeatMs).takeIn stamps (frameReader.drain after)) := by
  have hestablished : (opened o).establishSession ⟨b, [], true, stamps⟩ =
      { phase := .streaming, sessionId, session := afterStart o heartbeatMs, unread := after } := by
    rw [establishSession_eq]
    simp only [opened, List.nil_append, establishWith, hframe, hstart, afterStart]
    rfl
  rw [atOnce, hestablished, if_pos rfl, readStream_eq, List.append_nil]

/-- A stream whose start is malformed, or not all there, at once. -/
theorem atOnce_of_no_start (h : ((opened o).establishWith b true).phase ≠ .streaming) :
    atOnce o stamps b = (opened o).establishWith b true := by
  have hestablished : (opened o).establishSession ⟨b, [], true, stamps⟩ =
      (opened o).establishWith b true := by
    rw [establishSession_eq]
    rfl
  rw [atOnce, hestablished, if_neg h]

/-- A probe that streams has dispatched all but what is unread of the bytes it was given. -/
def Streams (o : ProbeOptions) (stamps : Stamps) (b : Bytes) (p : Probe) : Prop :=
  ∃ payload heartbeatMs startNanos after frames session,
    readFrame b = .ok (some ((.sessionStart, payload), after)) ∧
    readSessionStart payload = .ok (p.sessionId, heartbeatMs, startNanos) ∧
    frameReader.drain after =
      (frames ++ (frameReader.drain p.unread).1, (frameReader.drain p.unread).2) ∧
    (afterStart o heartbeatMs).dispatchAll stamps frames = (session, none) ∧
    p.session.Alike session

/-- What holds of a probe that was given some bytes, until its run ends. -/
structure Underway (o : ProbeOptions) (stamps : Stamps) (b : Bytes) (p : Probe) : Prop where
  framingErrors : p.framingErrors = []
  phase : p.phase = .handshaking ∨ p.phase = .streaming ∨ p.phase = .stalled
  handshaking : p.phase = .handshaking → p.session = (opened o).session ∧
    p.sessionId = default ∧ p.unread = b ∧ readFrame b = .ok none
  streams : p.phase ≠ .handshaking → p.Streams o stamps b

theorem Underway.init (o : ProbeOptions) (stamps : Stamps) : Underway o stamps [] (opened o) where
  framingErrors := rfl
  phase := .inl rfl
  handshaking _ := ⟨rfl, rfl, rfl, rfl⟩
  streams h := absurd rfl h

/-- Nothing happens to a run any more. -/
def Over (p : Probe) : Prop := (∃ reason, p.phase = .ended reason) ∨ p.phase = .crashed

theorem Over.step (h : p.Over) (a : Action) : p.step o a = none := by
  rcases h with ⟨reason, h⟩ | h <;> cases a <;> simp [Probe.step, h]

/-- The run is over, and its report is that of the whole stream, of which it has read the
beginning, or all where the peer has closed its side. -/
structure Concludes (o : ProbeOptions) (stamps : Stamps) (b : Bytes) (isCompleted : Bool)
    (p : Probe) : Prop where
  ended : p.Over
  report : ∀ B, b <+: B → (isCompleted = true → b = B) → p.buildReport o =
    { (atOnce o stamps B).buildReport o with stallOutcome := p.stallOutcome }

/-- A handshake that fails on a frame fails on it however the stream goes on. -/
theorem Underway.failHandshake (h : Underway o stamps b p) (hphase : p.phase = .handshaking)
    {bytes : Bytes} {e : FramingError}
    (hfails : ∀ more, (opened o).establishWith (bytes ++ more) true = (opened o).failHandshake e)
    (isCompleted : Bool) : Concludes o stamps bytes isCompleted (p.failHandshake e) := by
  obtain ⟨hsession, hid, -, -⟩ := h.handshaking hphase
  refine ⟨.inl ⟨.framingError, rfl⟩, ?_⟩
  rintro B ⟨more, rfl⟩ -
  rw [atOnce_of_no_start (by rw [hfails]; exact nofun), hfails]
  refine buildReport_congr o rfl ?_ ?_ ?_
  · simp only [Probe.failHandshake, recordFramingError, h.framingErrors, opened]
    exact hid
  · simp only [Probe.failHandshake, recordFramingError, h.framingErrors, opened]
    rfl
  · simp only [Probe.failHandshake, recordFramingError, h.framingErrors, hsession, opened]
    exact .refl _

/-- A read of the handshake leaves it under way, or ends it as the whole stream does. -/
theorem Underway.establish (h : Underway o stamps b p) (hphase : p.phase = .handshaking)
    (r : ReadResult) :
    Underway o stamps (b ++ r.chunk) (p.establishSession r) ∨
      Concludes o stamps (b ++ r.chunk) r.isCompleted (p.establishSession r) := by
  obtain ⟨hsession, hid, hunread, -⟩ := h.handshaking hphase
  rw [establishSession_eq, hunread]
  rcases hframe : readFrame (b ++ r.chunk) with e | _ | ⟨⟨type, payload⟩, rest⟩
  · rw [establishWith, hframe]
    refine .inr (h.failHandshake hphase (fun more => ?_) _)
    rw [establishWith, readFrame_error_append more hframe]
  · simp only [establishWith, hframe]
    split_ifs with hcompleted
    · refine .inr ⟨.inl ⟨.refused, rfl⟩, fun B _ hB => ?_⟩
      obtain rfl := hB hcompleted
      have hrefused : (opened o).establishWith (b ++ r.chunk) true =
          { opened o with unread := b ++ r.chunk, phase := .ended .refused } := by
        rw [establishWith, hframe, if_pos rfl]
      rw [atOnce_of_no_start (by rw [hrefused]; exact nofun), hrefused]
      exact buildReport_congr o rfl hid h.framingErrors (by rw [hsession]; exact .refl _)
    · exact .inl ⟨h.framingErrors, .inl hphase, fun _ => ⟨hsession, hid, rfl, hframe⟩,
        fun hne => absurd hphase hne⟩
  · by_cases htype : type = .sessionStart
    · subst htype
      rcases hstart : readSessionStart payload with e | ⟨sessionId, heartbeatMs, startNanos⟩
      · simp only [establishWith, hframe, hstart, ne_eq, not_true_eq_false, if_false]
        refine .inr (h.failHandshake hphase (fun more => ?_) _)
        simp only [establishWith, readFrame_append more hframe, hstart, ne_eq, not_true_eq_false,
          if_false]
      · simp only [establishWith, hframe, hstart, ne_eq, not_true_eq_false, if_false]
        refine .inl ⟨h.framingErrors, .inr (.inl rfl), nofun, fun _ => ?_⟩
        refine ⟨payload, heartbeatMs, startNanos, rest, [], afterStart o heartbeatMs, hframe,
          hstart, rfl, rfl, ?_⟩
        rw [hsession]
        exact .refl _
    · simp only [establishWith, hframe, ne_eq, htype, not_false_eq_true, if_true]
      refine .inr (h.failHandshake hphase (fun more => ?_) _)
      simp only [establishWith, readFrame_append more hframe, ne_eq, htype, not_false_eq_true,
        if_true]

/-- Two streams that break on the same exception are reported alike. -/
theorem buildReport_streamWith_error (o : ProbeOptions) {s t : ProbeSession} (halike : s.Alike t)
    (hid : p.sessionId = q.sessionId) (herrors : p.framingErrors = q.framingErrors)
    (e : ProbeException) (isCompleted isCompleted' : Bool) :
    (p.streamWith isCompleted (s, .error e)).buildReport o =
      { (q.streamWith isCompleted' (t, .error e)).buildReport o with
        stallOutcome := (p.streamWith isCompleted (s, .error e)).stallOutcome } := by
  cases hcaught : e.framingError? with
  | none =>
    simp only [streamWith, hcaught]
    exact buildReport_congr o rfl hid herrors halike
  | some e =>
    simp only [streamWith, hcaught]
    refine buildReport_congr o rfl ?_ ?_ ?_ <;>
      simp only [finish, afterStall, recordFramingError, herrors] <;> split_ifs
    · exact hid
    · exact hid
    · rfl
    · rfl
    · exact halike
    · exact halike

theorem over_streamWith_error (p : Probe) (s : ProbeSession) (e : ProbeException)
    (isCompleted : Bool) : (p.streamWith isCompleted (s, .error e)).Over := by
  cases hcaught : e.framingError? with
  | none => exact .inr (by simp only [streamWith, hcaught])
  | some e => exact .inl ⟨.framingError, by simp only [streamWith, hcaught, finish]⟩

/-- Bytes that break a stream break it however it goes on. -/
theorem takeIn_append_error {s t : ProbeSession} {bytes : Bytes} {e : ProbeException}
    (h : s.takeIn stamps (frameReader.drain bytes) = (t, .error e)) (more : Bytes) :
    s.takeIn stamps (frameReader.drain (bytes ++ more)) = (t, .error e) := by
  rw [frameReader.drain_append]
  rcases hdrain : frameReader.drain bytes with ⟨frames, e' | rest⟩
  · rw [hdrain] at h
    exact h
  · rw [hdrain, ProbeSession.takeIn] at h
    rcases hdispatch : s.dispatchAll stamps frames with ⟨u, _ | e'⟩
    · rw [hdispatch] at h
      cases h
    · rw [hdispatch] at h
      cases h
      rw [ProbeSession.takeIn, s.dispatchAll_append_error stamps hdispatch]

/-- What a read of the stream comes to is what the whole of the stream so far comes to. -/
theorem Streams.takeIn (h : p.Streams o stamps b) (r : ReadResult) :
    ∃ payload heartbeatMs startNanos after,
      readFrame (b ++ r.chunk) = .ok (some ((.sessionStart, payload), after)) ∧
      readSessionStart payload = .ok (p.sessionId, heartbeatMs, startNanos) ∧
      (p.session.takeIn r.stamps (frameReader.drain (p.unread ++ r.chunk))).1.Alike
        ((afterStart o heartbeatMs).takeIn stamps (frameReader.drain after)).1 ∧
      (p.session.takeIn r.stamps (frameReader.drain (p.unread ++ r.chunk))).2 =
        ((afterStart o heartbeatMs).takeIn stamps (frameReader.drain after)).2 := by
  obtain ⟨payload, heartbeatMs, startNanos, after, frames, session, hframe, hstart, hdrain, hdone,
    halike⟩ := h
  have hwhole := frameReader.drain_append_of_split hdrain r.chunk
  obtain ⟨hsession, hthrown⟩ := halike.dispatchAll
    (frameReader.drain (p.unread ++ r.chunk)).1 r.stamps stamps
  refine ⟨payload, heartbeatMs, startNanos, after ++ r.chunk, readFrame_append r.chunk hframe,
    hstart, ?_⟩
  rw [hwhole, ProbeSession.takeIn, ProbeSession.takeIn]
  dsimp only
  rw [ProbeSession.dispatchAll_append _ stamps hdone]
  rcases hs : p.session.dispatchAll r.stamps (frameReader.drain (p.unread ++ r.chunk)).1
    with ⟨s, e⟩
  rcases ht : session.dispatchAll stamps (frameReader.drain (p.unread ++ r.chunk)).1 with ⟨t, e'⟩
  rw [hs, ht] at hsession hthrown
  dsimp only at hsession hthrown
  subst hthrown
  cases e <;> exact ⟨hsession, rfl⟩

/-- A read of the stream leaves it under way, or ends it as the whole stream does. -/
theorem Underway.stream (h : Underway o stamps b p) (hphase : p.phase = .streaming)
    (r : ReadResult) :
    Underway o stamps (b ++ r.chunk) (p.readStream r) ∨
      Concludes o stamps (b ++ r.chunk) r.isCompleted (p.readStream r) := by
  obtain ⟨payload, heartbeatMs, startNanos, after, hframe, hstart, halike, hsame⟩ :=
    (h.streams (by rw [hphase]; exact nofun)).takeIn r
  rw [readStream_eq]
  rcases hread : p.session.takeIn r.stamps (frameReader.drain (p.unread ++ r.chunk)) with ⟨s, out⟩
  rcases hwhole : (afterStart o heartbeatMs).takeIn stamps (frameReader.drain after) with ⟨t, out'⟩
  rw [hread, hwhole] at halike hsame
  dsimp only at halike hsame
  subst hsame
  cases out with
  | error e =>
    refine .inr ⟨p.over_streamWith_error s e _, ?_⟩
    rintro B ⟨more, rfl⟩ -
    rw [atOnce_of_start (readFrame_append more hframe) hstart, takeIn_append_error hwhole more]
    exact buildReport_streamWith_error (p := p)
      (q := { phase := .streaming, sessionId := p.sessionId, session := afterStart o heartbeatMs
              unread := after ++ more })
      o halike rfl h.framingErrors e _ _
  | ok rest =>
    dsimp only [streamWith]
    split_ifs with hcompleted
    · refine .inr ⟨.inl ⟨.eof, rfl⟩, fun B _ hB => ?_⟩
      obtain rfl := hB hcompleted
      rw [atOnce_of_start hframe hstart, hwhole]
      exact buildReport_congr o rfl rfl h.framingErrors halike
    · refine .inl ⟨h.framingErrors, .inr (.inl hphase), fun hh => ?_, fun _ => ?_⟩
      · rw [hphase] at hh
        cases hh
      · obtain ⟨hdone, hrest⟩ := ProbeSession.takeIn_eq_ok hwhole
        have hnone : frameReader.drain rest = ([], .ok rest) :=
          frameReader.drain_none (frameReader.next_remainder hrest)
        refine ⟨payload, heartbeatMs, startNanos, after, _, t, hframe, hstart, ?_, hdone, halike⟩
        rw [hnone, List.append_nil]
        exact Prod.ext rfl hrest

/-! ## Whole runs -/

/-- The bytes a read adds. -/
def Action.chunk : Action → Bytes
  | .read r => r.chunk
  | .connected | .connectFailed | .timedOut | .readFailed | .ctrlC | .durationElapsed | .stall
  | .resume => []

/-- The bytes received in a run. -/
def received (as : List Action) : Bytes := as.flatMap Action.chunk

/-- What happens is that a stream is read, in whatever pieces, and that the reads may pause. The
peer has closed its side only once all is read. -/
structure Delivers (B : Bytes) (as : List Action) : Prop where
  actions : ∀ a ∈ as, (∃ r, a = .read r) ∨ a = .stall ∨ a = .resume
  initial : received as <+: B
  whole : ∀ before r after, as = before ++ .read r :: after → r.isCompleted = true →
    received before ++ r.chunk = B

/-- A pause changes nothing but the phase. -/
theorem Underway.pause (h : Underway o stamps b p) {a : Action} (ha : a = .stall ∨ a = .resume)
    (hstep : p.step o a = some q) : Underway o stamps (b ++ a.chunk) q := by
  have hstreams : p.phase ≠ .handshaking := by
    intro hp
    rcases ha with rfl | rfl <;> simp [step, hp] at hstep
  have hp := h.streams hstreams
  rcases ha with rfl | rfl <;> dsimp only [step] at hstep <;> split at hstep
  · obtain ⟨-, hstep⟩ := Option.ite_none_right_eq_some.mp hstep
    cases hstep
    rw [Action.chunk, List.append_nil]
    exact ⟨h.framingErrors, .inr (.inr rfl), nofun, fun _ => hp⟩
  · cases hstep
  · cases hstep
    rw [Action.chunk, List.append_nil]
    exact ⟨h.framingErrors, .inr (.inl rfl), nofun, fun _ => hp⟩
  · cases hstep

/-- A step of a delivery leaves the run under way, or ends it as the whole stream does. -/
theorem Underway.step (h : Underway o stamps b p) {a : Action}
    (ha : (∃ r, a = .read r) ∨ a = .stall ∨ a = .resume) (hstep : p.step o a = some q) :
    Underway o stamps (b ++ a.chunk) q ∨
      ∃ r, a = .read r ∧ Concludes o stamps (b ++ r.chunk) r.isCompleted q := by
  rcases ha with ⟨r, rfl⟩ | hpause
  · dsimp only [Probe.step] at hstep
    split at hstep
    · rename_i hphase
      cases hstep
      exact (h.establish hphase r).imp_right fun hends => ⟨r, rfl, hends⟩
    · rename_i hphase
      cases hstep
      exact (h.stream hphase r).imp_right fun hends => ⟨r, rfl, hends⟩
    · cases hstep
  · exact .inl (h.pause hpause hstep)

/-- A delivery leaves the run under way, or has ended it as the whole stream does. -/
theorem Underway.run (h : Underway o stamps b p) {as : List Action}
    (hactions : ∀ a ∈ as, (∃ r, a = .read r) ∨ a = .stall ∨ a = .resume)
    (hinitial : b ++ received as <+: B)
    (hwhole : ∀ before r after, as = before ++ .read r :: after → r.isCompleted = true →
      b ++ received before ++ r.chunk = B)
    (hrun : (probe o).runFrom p as = some q) :
    Underway o stamps (b ++ received as) q ∨ q.buildReport o =
      { (atOnce o stamps B).buildReport o with stallOutcome := q.stallOutcome } := by
  induction as generalizing b p with
  | nil =>
    cases hrun
    exact .inl (by rwa [received, List.flatMap_nil, List.append_nil])
  | cons a as ih =>
    rw [Machine.runFrom_cons, Option.bind_eq_some_iff] at hrun
    obtain ⟨u, hstep, hrun⟩ := hrun
    have hreceived : b ++ received (a :: as) = b ++ a.chunk ++ received as := by
      rw [received, List.flatMap_cons, ← received, List.append_assoc]
    rcases h.step (hactions a List.mem_cons_self) hstep with hgoes | ⟨r, rfl, hends⟩
    · rw [hreceived] at hinitial ⊢
      refine ih hgoes (fun a' ha' => hactions a' (List.mem_cons_of_mem a ha')) hinitial ?_ hrun
      intro before r after has hcompleted
      have heq := hwhole (a :: before) r after (by rw [has]; rfl) hcompleted
      rw [received, List.flatMap_cons, ← received] at heq
      simpa only [List.append_assoc] using heq
    · -- Behind a run that is over there is nothing more to come.
      cases as with
      | nil =>
        cases hrun
        refine .inr (hends.report B ?_ fun hcompleted => ?_)
        · rwa [hreceived, received, List.flatMap_nil, List.append_nil] at hinitial
        · simpa [received] using hwhole [] r [] rfl hcompleted
      | cons a' as =>
        have hover : (probe o).step u a' = none := hends.ended.step a'
        rw [Machine.runFrom_cons, hover] at hrun
        cases hrun

/-- The report of a run that has ended is that of the whole stream. -/
theorem report_of_delivery (o : ProbeOptions) (stamps : Stamps) {B : Bytes}
    {as : List Action} {p : Probe} (hdelivers : Delivers B as)
    (hrun : (probe o).run (.connected :: as) = some p) {reason : EndReason}
    (hended : p.phase = .ended reason) :
    p.buildReport o =
      { (atOnce o stamps B).buildReport o with stallOutcome := p.stallOutcome } := by
  have hrun : (probe o).runFrom (opened o) as = some p := hrun
  rcases (Underway.init o stamps).run hdelivers.actions hdelivers.initial hdelivers.whole hrun with
    hgoes | hreport
  · rcases hgoes.phase with h | h | h <;> rw [h] at hended <;> cases hended
  · exact hreport

/-- A session start, two trades with one missing between them, and a bad length. -/
def brokenStream : Bytes :=
  (FeedMessage.sessionStart default 1000 0).frame ++ (comiTrade 1).1.frame ++
    (comiTrade 3).1.frame ++ [1, 0, 0, 0]

/-- A read of part of the broken stream. -/
def brokenRead (start size : Nat) (sizes : List Nat) : Action :=
  .read ⟨(brokenStream.drop start).take size, sizes, false, ⟨start, 0, 0⟩⟩

/-- The broken stream in four reads, with a pause before the last. -/
def brokenReads : List Action :=
  [brokenRead 0 20 [], brokenRead 20 30 [10, 3], brokenRead 50 70 [1, 1, 40], .stall, .resume,
    brokenRead 120 8 [2]]

/-- The broken stream in two reads. -/
def fewerReads : List Action := [brokenRead 0 100 [36], brokenRead 100 28 []]

theorem delivers_of_brokenReads {as : List Action}
    (hinitial : received as <+: brokenStream)
    (has : ∀ a ∈ as, (∃ start size sizes, a = brokenRead start size sizes) ∨ a = .stall ∨
      a = .resume) : Delivers brokenStream as where
  actions a ha := (has a ha).imp_left fun ⟨_, _, _, hread⟩ => ⟨_, hread⟩
  initial := hinitial
  whole before r after h hcompleted := by
    have hmem : Action.read r ∈ as := by rw [h]; simp
    rcases has _ hmem with ⟨start, size, sizes, hread⟩ | hpause | hpause
    · cases hread
      cases hcompleted
    · cases hpause
    · cases hpause

/-- The probe after the reads of the broken stream. -/
def brokenProbe (as : List Action) : Probe :=
  ((probe { stallAfter := true }).run (.connected :: as)).getD {}

end Probe

end Tckr.FeedProbe
