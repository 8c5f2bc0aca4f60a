import Tckr.Exchange.Feed.Loss

/-!
# The grammar of the wire

The bytes on the wire are a prefix of one session-start frame followed by whole
tick and heartbeat frames. Frames are never split, since the write loop finishes
what it sends and discards whole reads. The first-frame rule needs one thing more:
that no discard takes the session-start frame out of the pipe.
-/

namespace Tckr.Feed

open Protocol

/-- A read is discarded only once something has been sent. -/
def StartSent (s : Session) (a : Session.Action) : Prop :=
  a = .writeLoop .takeDiscard → s.discardRequested = true → s.wire ≠ []

instance (s : Session) (a : Session.Action) : Decidable (StartSent s a) := by
  unfold StartSent
  infer_instance

/-- A started session keeps its session-start frame first. -/
structure Opened (o : FeedServerOptions) (sessionId : Guid) (s : Session) (L : Ledger) : Prop where
  first : s.started = true → ∃ startNanos rest,
    L.kept = .sessionStart sessionId o.heartbeatIntervalMs startNanos :: rest
  sent : match s.writeLoop with
    | .checkingClose | .heartbeatDue | .sendingHeartbeat _
    | .discarding .. | .discardCounted .. => L.out ≠ []
    | _ => True

section

variable {o : FeedServerOptions} {sessionId : Guid} {s t : Session} {L : Ledger}

theorem Opened.of_sameTape (h : Opened o sessionId s L) (hst : s.SameTape t) :
    Opened o sessionId t L := by
  refine ⟨?_, ?_⟩
  · rw [hst.started]
    exact h.first
  · rw [hst.writeLoop]
    exact h.sent

/-- What has been sent begins with the frame that is kept first. -/
theorem Opened.out_cons (h : Opened o sessionId s L) (hs : s.started = true)
    (hout : L.out ≠ []) : ∃ startNanos rest,
      L.out = .sessionStart sessionId o.heartbeatIntervalMs startNanos :: rest := by
  obtain ⟨startNanos, rest, hkept⟩ := h.first hs
  cases hl : L.out with
  | nil => exact absurd hl hout
  | cons f fs =>
    rw [Ledger.kept, hl, List.cons_append, List.cons_append, List.cons.injEq] at hkept
    exact ⟨startNanos, fs, by rw [hkept.1]⟩

theorem Opened.enqueue (h : Opened o sessionId s L) (hs : s.started = true)
    (fs : List Outbound) : ∃ startNanos rest,
      (L.enqueue fs).kept = .sessionStart sessionId o.heartbeatIntervalMs startNanos :: rest := by
  obtain ⟨startNanos, rest, hkept⟩ := h.first hs
  exact ⟨startNanos, rest ++ fs, by rw [Ledger.kept_enqueue, hkept, List.cons_append]⟩

theorem Opened.publisherStep {a : Session.PublisherAction} (h : Opened o sessionId s L)
    (hr : Represents s L) (hstep : s.publisherStep o a = some t) :
    Opened o sessionId t (record o sessionId s (.publisher a) t L) := by
  cases Session.publisherStep_cases hstep with
  | published hpc hstate hencode =>
    have hs := hr.started_of_publisher (by rw [hpc]; nofun)
    simp only [record, Ledger.publish, hpc, hstate, hencode]
    refine Opened.of_sameTape ?_ (Session.flushBatch_sameTape o _ _)
    exact ⟨fun _ => h.enqueue hs _, h.sent⟩
  | encodingFailed hpc hstate hencode =>
    simp only [record, Ledger.publish, hpc, hstate, hencode]
    exact ⟨h.first, h.sent⟩
  | skippedAtGate hpc hstate | refusedAtGate hpc hstate =>
    simp only [record, Ledger.publish, hpc, hstate]
    exact ⟨h.first, h.sent⟩
  | closedFaulted =>
    have hs := h.of_sameTape (Session.beginClose_sameTape .writeFailed s)
    exact ⟨hs.first, hs.sent⟩
  | _ => exact ⟨h.first, h.sent⟩

theorem Opened.writeLoopStep {a : Session.WriteLoopAction} (h : Opened o sessionId s L)
    (hr : Represents s L) (hg : StartSent s (.writeLoop a))
    (hstep : s.writeLoopStep o a = some t) :
    Opened o sessionId t (record o sessionId s (.writeLoop a) t L) := by
  have hsent := h.sent
  have htape := hr.tape
  have htake : s.started = true → ∃ startNanos rest,
      L.take.kept = .sessionStart sessionId o.heartbeatIntervalMs startNanos :: rest := by
    rw [Ledger.kept_take]
    exact h.first
  have hdeliver : s.started = true → ∃ startNanos rest,
      L.deliver.kept = .sessionStart sessionId o.heartbeatIntervalMs startNanos :: rest := by
    rw [Ledger.kept_deliver]
    exact h.first
  cases Session.writeLoopStep_cases hstep with
  | read | readEnd => exact ⟨htake, trivial⟩
  | readEmpty hpc hunread =>
    -- An empty pipe means that the session-start frame has been sent.
    refine ⟨htake, ?_⟩
    rw [hpc] at htape
    obtain ⟨startNanos, rest, hkept⟩ := h.first (hr.started_of_writeLoop (by rw [hpc]; nofun))
    have hqueue : L.queue = [] := frames_eq_nil (htape.2.2.symm.trans hunread)
    rw [Ledger.kept, htape.1, hqueue, List.append_nil, List.append_nil] at hkept
    change L.out ≠ []
    rw [hkept]
    exact List.cons_ne_nil _ _
  | checkedClosing => exact ⟨h.first, trivial⟩
  | checkedOpen hpc =>
    rw [hpc] at hsent
    exact ⟨h.first, hsent⟩
  | heartbeat hpc =>
    rw [hpc] at hsent
    refine ⟨fun hs => ?_, hsent⟩
    obtain ⟨startNanos, rest, hout⟩ := h.out_cons hs hsent
    rw [record, Ledger.write, Ledger.kept, Ledger.beat, hout, List.cons_append, List.cons_append]
    exact ⟨startNanos, _, rfl⟩
  | discarding hpc hrequested =>
    rw [hpc] at htape
    have hwire := hg rfl hrequested
    have hout : L.out ≠ [] := fun hnil => hwire (by rw [htape.1, hnil, frames_nil])
    exact ⟨h.first, hout⟩
  | countedDiscard hpc =>
    rw [hpc] at hsent
    exact ⟨h.first, hsent⟩
  | reportedDiscard hpc =>
    rw [hpc] at hsent
    refine ⟨fun hs => ?_, trivial⟩
    obtain ⟨startNanos, rest, hout⟩ := h.out_cons hs hsent
    rw [record, Ledger.write, Ledger.kept, Ledger.throw, hout, List.append_nil, List.cons_append]
    exact ⟨startNanos, _, rfl⟩
  | sentHeartbeat hpc =>
    rw [hpc] at hsent
    exact ⟨h.first, hsent⟩
  | @advancedDiscard _ completed => cases completed <;> exact ⟨h.first, trivial⟩
  | @completed _ completed => cases completed <;> exact ⟨hdeliver, trivial⟩
  | completedHeartbeat => exact ⟨hdeliver, trivial⟩
  | _ => exact ⟨h.first, trivial⟩

theorem Opened.ownerStep {a : Session.OwnerAction} (h : Opened o sessionId s L)
    (hr : Represents s L) (hstep : s.ownerStep o sessionId a = some t) :
    Opened o sessionId t (record o sessionId s (.owner a) t L) := by
  cases Session.ownerStep_cases hstep with
  | @started startNanos hnew =>
    obtain ⟨hloop, -, hkept⟩ := hr.fresh hnew
    refine ⟨fun _ => ⟨startNanos, [], ?_⟩, ?_⟩
    · rw [record, Ledger.kept_enqueue, hkept, List.nil_append]
    · dsimp only
      rw [hloop]
      trivial
  | timer => exact ⟨h.first, h.sent⟩
  | closed => exact h.of_sameTape (Session.beginClose_sameTape _ s)
  | tornDown => exact ⟨h.first, h.sent⟩

/-- Every step that discards nothing before the start is sent keeps the start first. -/
theorem Opened.step {a : Session.Action} (h : Opened o sessionId s L) (hr : Represents s L)
    (hg : StartSent s a) (hstep : s.step o sessionId a = some t) :
    Opened o sessionId t (record o sessionId s a t L) := by
  cases a with
  | publisher a => exact h.publisherStep hr hstep
  | handler a => exact h.of_sameTape (Session.handlerStep_sameTape hstep)
  | writeLoop a => exact h.writeLoopStep hr hg hstep
  | owner a => exact h.ownerStep hr hstep

theorem opened_init : Opened o sessionId {} {} := ⟨nofun, trivial⟩

end

/-- A frame that is not a session start is a tick or a heartbeat. -/
theorem Outbound.type_ne_sessionStart {f : Outbound} (h : f.isSessionStart = false) :
    f.message.type ≠ .sessionStart := by
  cases f with
  | sessionStart sessionId heartbeatMs startNanos => cases h
  | tick position record =>
    intro htype
    have htick := record.property
    change record.val.messageType = _ at htype
    rw [htype] at htick
    cases htick
  | heartbeat lastPosition timestampNanos => exact nofun

/-- In every run that discards nothing before the session-start frame is on its way,
the bytes on the wire are a prefix of that frame followed by whole tick and
heartbeat frames. -/
theorem wire_grammar (o : FeedServerOptions) (sessionId : Guid) {s : Session}
    (as : List Session.Action) (hguard : (feedSession o sessionId).Guarded StartSent {} as)
    (hrun : (feedSession o sessionId).run as = some s) :
    ∃ (startNanos : Int64) (fs : List FeedMessage),
      (∀ m ∈ fs, m.HasLayout ∧ m.type ≠ .sessionStart) ∧
      s.wire <+: (FeedMessage.sessionStart sessionId o.heartbeatIntervalMs startNanos).frame ++
        fs.flatMap FeedMessage.frame := by
  obtain ⟨L, hk, hopened⟩ := Machine.run_invariant_with_history (m := feedSession o sessionId)
    (I := fun s L => Kept s L ∧ Opened o sessionId s L) (G := StartSent)
    (record o sessionId) ⟨kept_init, opened_init⟩
    (fun _ _ _ _ hI hg hstep => ⟨hI.1.step hstep, hI.2.step hI.1.represents hg hstep⟩) hguard hrun
  have hwire := hk.represents.wire_prefix_kept
  cases hs : s.started with
  | false =>
    obtain ⟨-, -, hkept⟩ := hk.represents.fresh hs
    rw [hkept, frames_nil, List.prefix_nil] at hwire
    exact ⟨0, [], fun _ hm => (nomatch hm), hwire ▸ List.nil_prefix⟩
  | true =>
    obtain ⟨startNanos, rest, hkept⟩ := hopened.first hs
    have hstarts := hk.shape.starts
    have hhead : (Outbound.sessionStart sessionId o.heartbeatIntervalMs startNanos ::
        rest).countP Outbound.isSessionStart = rest.countP Outbound.isSessionStart + 1 :=
      List.countP_cons_of_pos rfl
    rw [hs, hkept, List.countP_append, hhead, if_pos rfl] at hstarts
    have hrest : rest.countP Outbound.isSessionStart = 0 := by omega
    rw [List.countP_eq_zero] at hrest
    refine ⟨startNanos, rest.map Outbound.message, fun m hm => ?_, ?_⟩
    · obtain ⟨f, hf, rfl⟩ := List.mem_map.mp hm
      exact ⟨f.hasLayout, f.type_ne_sessionStart (Bool.not_eq_true _ ▸ hrest f hf)⟩
    · rw [hkept, frames, List.flatMap_cons] at hwire
      rw [List.flatMap_map]
      exact hwire

/-- The start frame is sent, then two ticks are discarded and a third is sent. -/
def lateDiscardRun : List Session.Action :=
  [.owner (.start 0), .writeLoop .run] ++ sending 36 ++ publishing [comiTrade, comiTrade] ++
    discarding ++ resolving ++ publishing [comiTrade] ++ sending 44

/-- The session the late discard leaves. -/
def lateDiscardSession : Session :=
  ((feedSession (smallBuffer .dropOldest) default).run lateDiscardRun).getD {}

/-- Behind its start frame the session with the late discard sent tick 3. -/
theorem lateDiscardSession_grammar : lateDiscardSession.wireTicks = [3] ∧
    ∃ (startNanos : Int64) (fs : List FeedMessage),
      (∀ m ∈ fs, m.HasLayout ∧ m.type ≠ .sessionStart) ∧
      lateDiscardSession.wire <+: (FeedMessage.sessionStart default 1000 startNanos).frame ++
        fs.flatMap FeedMessage.frame :=
  ⟨by decide +kernel, wire_grammar (smallBuffer .dropOldest) default lateDiscardRun
    (by decide +kernel) (by decide +kernel)⟩

/-- A discard before the first read's bytes are sent loses the session-start frame: the
wire of the lossy session opens with a tick. -/
theorem early_discard_loses_start :
    ¬ ∀ (as : List Session.Action) (s : Session),
      (feedSession (smallBuffer .dropOldest) default).run as = some s →
        ∃ (startNanos : Int64) (fs : List FeedMessage),
          (∀ m ∈ fs, m.HasLayout ∧ m.type ≠ .sessionStart) ∧
          s.wire <+: (FeedMessage.sessionStart default 1000 startNanos).frame ++
            fs.flatMap FeedMessage.frame := by
  intro h
  obtain ⟨startNanos, fs, -, more, hmore⟩ := h lossyRun lossySession (by decide +kernel)
  have hfirst : lossySession.wire.head? = some 40 := by decide +kernel
  have hhead : (lossySession.wire ++ more).head? = some 40 := by
    rw [List.head?_append, hfirst]
    rfl
  rw [hmore] at hhead
  exact absurd hhead (by change ¬ some (32 : UInt8) = some 40; decide)

end Tckr.Feed
