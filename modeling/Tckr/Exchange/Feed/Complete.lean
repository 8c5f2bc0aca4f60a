import Tckr.Exchange.Feed.Loss

/-!
# The complete tape under Disconnect

A session that may not lose a record closes when it has skipped one. The handler
learns of a skip from its count, which the publisher raises some steps after it
has read the state. As long as no episode is resolved between the two, the tape
is gap-free; when one is, the session goes on with a hole in it.
-/

namespace Tckr.Feed

open Protocol

/-- A skip decided on and not yet counted. -/
def Publisher.skipUncounted : Publisher → Bool
  | .skipping _ | .skipCounting _ _ => true
  | .idle | .reading _ | .entering _ | .skipReporting _ _ | .faulted => false

/-- The numbers a skip has consumed and not counted. -/
def Publisher.uncounted : Publisher → Nat
  | .skipCounting _ count => count
  | .idle | .reading _ | .entering _ | .skipping _ | .skipReporting _ _ | .faulted => 0

/-- The skip counted and not reported. -/
def Publisher.unreported : Publisher → Nat
  | .skipReporting _ count => count
  | .idle | .reading _ | .entering _ | .skipping _ | .skipCounting _ _ | .faulted => 0

/-- When an episode is resolved without a counted skip, no skip is under way uncounted. -/
def SkipsSeen (s : Session) (a : Session.Action) : Prop :=
  a = .handler .resolve → s.state = .backpressured → s.skippedRecords = s.skippedAtOnset →
    s.publisher.skipUncounted = false

instance (s : Session) (a : Session.Action) : Decidable (SkipsSeen s a) := by
  unfold SkipsSeen
  infer_instance

/-- The kept ticks are 1, 2, 3, ... and stop at the first skip. -/
structure Complete (s : Session) (L : Ledger) : Prop where
  contiguous : positions L.kept = List.range' 1 (positions L.kept).length
  later : ∀ p ∈ s.withheld, ∀ q ∈ positions L.kept, q < p
  counts : s.skippedRecords = s.withheld.length + s.publisher.unreported
  onset : s.skippedAtOnset = 0
  running : s.state = .running → s.nextSequence = (positions L.kept).length + 1 ∧
    s.skippedRecords = 0 ∧ s.publisher.skipUncounted = false
  behind : s.state = .backpressured → s.nextSequence =
    (positions L.kept).length + 1 + s.skippedRecords + s.publisher.uncounted
  undiscarded : s.discardRequested = false ∧ match s.writeLoop with
    | .discarding .. | .discardCounted .. | .discardReported .. => False
    | _ => True

/-- A tape, its accounts and its flags that a step leaves alone stay complete. -/
theorem Complete.of_sameTape {s t : Session} {L : Ledger} (h : Complete s L)
    (hst : s.SameTape t) (honset : t.skippedAtOnset = s.skippedAtOnset)
    (hstate : t.state = s.state ∨ t.state = .closing)
    (hdiscard : t.discardRequested = false) : Complete t L := by
  have hback : ∀ {st : SessionState}, st ≠ .closing → t.state = st → s.state = st := by
    intro st hst' ht
    rcases hstate with hs | hs
    · exact hs ▸ ht
    · exact absurd (ht.symm.trans hs) hst'
  refine ⟨h.contiguous, ?_, ?_, honset.trans h.onset, fun ht => ?_, fun ht => ?_, hdiscard, ?_⟩
  · rw [hst.withheld]
    exact h.later
  · rw [hst.skippedRecords, hst.withheld, hst.publisher]
    exact h.counts
  · rw [hst.nextSequence, hst.skippedRecords, hst.publisher]
    exact h.running (hback nofun ht)
  · rw [hst.nextSequence, hst.skippedRecords, hst.publisher]
    exact h.behind (hback nofun ht)
  · rw [hst.writeLoop]
    exact h.undiscarded.2

section Disconnect

variable {o : FeedServerOptions} {sessionId : Guid} {s t : Session} {L : Ledger}

/-- Flushing a batch under Disconnect leaves the session as it is, behind, or closing. -/
theorem flushBatch_disconnect (hpolicy : o.slowConsumerPolicy = .disconnect) (bytes : Bytes)
    (u : Session) :
    (Session.flushBatch o bytes u).discardRequested = u.discardRequested ∧
      ((Session.flushBatch o bytes u).state = u.state ∧
          (Session.flushBatch o bytes u).skippedAtOnset = u.skippedAtOnset ∨
        (Session.flushBatch o bytes u).state = .backpressured ∧
          (Session.flushBatch o bytes u).skippedAtOnset = u.skippedRecords ∨
        (Session.flushBatch o bytes u).state = .closing ∧
          (Session.flushBatch o bytes u).skippedAtOnset = u.skippedAtOnset) := by
  unfold Session.flushBatch
  dsimp only
  rw [hpolicy]
  split_ifs
  · exact ⟨rfl, Or.inr (Or.inl ⟨rfl, rfl⟩)⟩
  · exact ⟨rfl, Or.inr (Or.inr ⟨rfl, rfl⟩)⟩
  · exact ⟨rfl, Or.inl ⟨rfl, rfl⟩⟩

/-- Only the publisher moves, without counting or consuming anything. -/
theorem Complete.of_publisher (h : Complete s L) (pc : Publisher)
    (hunreported : pc.unreported = s.publisher.unreported)
    (huncounted : pc.uncounted = s.publisher.uncounted)
    (hskip : s.state = .running → pc.skipUncounted = false) :
    Complete { s with publisher := pc } L where
  contiguous := h.contiguous
  later := h.later
  counts := by rw [hunreported]; exact h.counts
  onset := h.onset
  running hs := ⟨(h.running hs).1, (h.running hs).2.1, hskip hs⟩
  behind hs := by rw [huncounted]; exact h.behind hs
  undiscarded := h.undiscarded

/-- A running session has withheld nothing. -/
theorem Complete.withheld_eq_nil (h : Complete s L) (hs : s.state = .running) :
    s.withheld = [] := by
  have hcounts := h.counts
  rw [(h.running hs).2.1] at hcounts
  exact List.length_eq_zero_iff.mp (by omega)

/-- Publishing from a running session extends the tape without a gap. -/
theorem Complete.published (h : Complete s L) (hpolicy : o.slowConsumerPolicy = .disconnect)
    {batch : List FeedRecord} {bytes : Bytes} (hstate : s.state = .running)
    (hencode : Session.encodeBatch s.nextSequence batch = .ok bytes) :
    Complete (Session.flushBatch o bytes
      { s.reserve batch.length with
        lastSequenceQueued := s.nextSequence + batch.length - 1
        offered := s.offered + batch.length
        publisher := .idle }) (L.enqueue (tickFrames s.nextSequence batch)) := by
  obtain ⟨hnext, hskipped, -⟩ := h.running hstate
  have hwithheld := h.withheld_eq_nil hstate
  have hticks := (encodeBatch_eq_ok hencode).2
  have hsame := Session.flushBatch_sameTape o bytes
    { s.reserve batch.length with
      lastSequenceQueued := s.nextSequence + batch.length - 1
      offered := s.offered + batch.length
      publisher := .idle }
  have hflush := flushBatch_disconnect hpolicy bytes
    { s.reserve batch.length with
      lastSequenceQueued := s.nextSequence + batch.length - 1
      offered := s.offered + batch.length
      publisher := .idle }
  have hkept : positions (L.enqueue (tickFrames s.nextSequence batch)).kept =
      List.range' 1 ((positions L.kept).length + batch.length) := by
    rw [Ledger.kept_enqueue, positions_append, hticks, h.contiguous, hnext, List.length_range',
      Nat.add_comm _ 1, List.range'_append_1]
  have hlength : (positions (L.enqueue (tickFrames s.nextSequence batch)).kept).length =
      (positions L.kept).length + batch.length := by rw [hkept, List.length_range']
  refine ⟨by rw [hlength]; exact hkept, ?_, ?_, ?_, fun _ => ⟨?_, ?_, ?_⟩, fun _ => ?_, ?_, ?_⟩
  · rw [hsame.withheld]
    change ∀ p ∈ s.withheld, _
    rw [hwithheld]
    exact fun p hp => (nomatch hp)
  · rw [hsame.skippedRecords, hsame.withheld, hsame.publisher]
    change s.skippedRecords = s.withheld.length + 0
    rw [hskipped, hwithheld, List.length_nil]
  · rcases hflush.2 with ⟨-, honset⟩ | ⟨-, honset⟩ | ⟨-, honset⟩
    · exact honset.trans h.onset
    · exact honset.trans hskipped
    · exact honset.trans h.onset
  · rw [hsame.nextSequence, hlength]
    change s.nextSequence + batch.length = _
    omega
  · rw [hsame.skippedRecords]
    exact hskipped
  · rw [hsame.publisher]
    rfl
  · rw [hsame.nextSequence, hsame.skippedRecords, hsame.publisher, hlength]
    change s.nextSequence + batch.length = _ + s.skippedRecords + 0
    omega
  · exact hflush.1.trans h.undiscarded.1
  · rw [hsame.writeLoop]
    exact h.undiscarded.2

theorem Complete.publisherStep {a : Session.PublisherAction} (h : Complete s L)
    (hk : Kept s L) (hpolicy : o.slowConsumerPolicy = .disconnect)
    (hstep : s.publisherStep o a = some t) :
    Complete t (record o sessionId s (.publisher a) t L) := by
  cases Session.publisherStep_cases hstep with
  | ignored => exact h
  | called hpc | readRunning hpc | readClosing hpc =>
    exact h.of_publisher _ (by rw [hpc]; rfl) (by rw [hpc]; rfl) fun _ => rfl
  | readBehind hpc hstate =>
    exact h.of_publisher _ (by rw [hpc]; rfl) (by rw [hpc]; rfl) fun hs => by
      rw [hstate] at hs
      contradiction
  | published hpc hstate hencode =>
    simp only [record, Ledger.publish, hpc, hstate, hencode]
    exact h.published hpolicy hstate hencode
  | encodingFailed hpc hstate hencode =>
    have hcounts := h.counts
    simp only [record, Ledger.publish, hpc, hstate, hencode]
    rw [hpc] at hcounts
    refine ⟨h.contiguous, h.later, hcounts, h.onset, ?_, ?_, h.undiscarded⟩
    · intro hs
      cases hs
    · intro hs
      cases hs
  | @skippedAtGate batch hpc hstate =>
    have hcounts := h.counts
    have hbehind := h.behind hstate
    simp only [record, Ledger.publish, hpc, hstate]
    rw [hpc] at hcounts hbehind
    refine ⟨h.contiguous, ?_, ?_, h.onset, fun hs => ?_, fun _ => ?_, h.undiscarded⟩
    · intro p hp q hq
      rcases List.mem_append.mp hp with hp | hp
      · exact h.later p hp q hq
      · exact Nat.lt_of_lt_of_le (hk.ordered.bound q hq) (List.mem_range'_1.mp hp).1
    · simp only [Session.reserve, Session.countSkipped, Session.reportSkipped,
        Publisher.unreported, List.length_append, List.length_range'] at hcounts ⊢
      omega
    · cases hstate.symm.trans hs
    · simp only [Session.reserve, Session.countSkipped, Session.reportSkipped,
        Publisher.uncounted] at hbehind ⊢
      omega
  | refusedAtGate hpc hstate =>
    have hrecord : record o sessionId s (.publisher .enterGate) { s with publisher := .idle } L =
        L := by simp only [record, Ledger.publish, hpc, hstate]
    rw [hrecord]
    exact h.of_publisher _ (by rw [hpc]; rfl) (by rw [hpc]; rfl) fun _ => rfl
  | @reserved count hpc =>
    have hcounts := h.counts
    rw [hpc] at hcounts
    refine ⟨h.contiguous, h.later, hcounts, h.onset, fun hs => ?_, fun hs => ?_, h.undiscarded⟩
    · have hskip := (h.running hs).2.2
      rw [hpc] at hskip
      cases hskip
    · have hbehind := h.behind hs
      rw [hpc] at hbehind
      simp only [record, Ledger.publish, Session.reserve, Publisher.uncounted] at hbehind ⊢
      omega
  | @counted first count hpc =>
    have hcounts := h.counts
    rw [hpc] at hcounts
    refine ⟨h.contiguous, h.later, ?_, h.onset, fun hs => ?_, fun hs => ?_, h.undiscarded⟩
    · simp only [Session.countSkipped, Publisher.unreported] at hcounts ⊢
      omega
    · have hskip := (h.running hs).2.2
      rw [hpc] at hskip
      cases hskip
    · have hbehind := h.behind hs
      rw [hpc] at hbehind
      simp only [record, Ledger.publish, Session.countSkipped, Publisher.uncounted] at hbehind ⊢
      omega
  | @reported first count hpc =>
    have hcounts := h.counts
    rw [hpc] at hcounts
    refine ⟨h.contiguous, ?_, ?_, h.onset, fun hs => ?_, fun hs => ?_, h.undiscarded⟩
    · intro p hp q hq
      rcases List.mem_append.mp hp with hp | hp
      · exact h.later p hp q hq
      · exact hk.ordered.reserved q hq p (by rw [hpc]; exact hp)
    · simp only [Session.reportSkipped, Publisher.unreported, List.length_append,
        List.length_range'] at hcounts ⊢
      omega
    · exact ⟨(h.running hs).1, (h.running hs).2.1, rfl⟩
    · have hbehind := h.behind hs
      rw [hpc] at hbehind
      exact hbehind
  | closedFaulted hpc =>
    have hsame := Session.beginClose_sameTape .writeFailed s
    have hclosed := Session.beginClose_state hk.shutdown .writeFailed
    have hcounts := h.counts
    rw [hpc, ← hsame.skippedRecords, ← hsame.withheld] at hcounts
    refine ⟨h.contiguous, ?_, hcounts, ?_, fun hs => ?_, fun hs => ?_, ?_, ?_⟩
    · rw [hsame.withheld]
      exact h.later
    · rw [Session.beginClose]
      split_ifs <;> exact h.onset
    · cases hclosed.symm.trans hs
    · cases hclosed.symm.trans hs
    · rw [Session.beginClose]
      split_ifs <;> exact h.undiscarded.1
    · rw [hsame.writeLoop]
      exact h.undiscarded.2

/-- An episode resolved without a counted skip leaves the tape complete, if no skip
is under way uncounted. -/
theorem Complete.handlerStep {a : Session.HandlerAction} (h : Complete s L)
    (hpolicy : o.slowConsumerPolicy = .disconnect) (hg : SkipsSeen s (.handler a))
    (hstep : s.handlerStep o a = some t) : Complete t L := by
  have hsame := Session.handlerStep_sameTape hstep
  obtain ⟨hdiscard, honset, hstate⟩ := Session.handlerStep_effect hstep
  have hdiscard : t.discardRequested = false :=
    hdiscard.elim (fun hd => hd.trans h.undiscarded.1) id
  rcases hstate with hstate | hstate | ⟨rfl, hbehind, hrunning, hloss⟩
  · exact h.of_sameTape hsame honset (Or.inl hstate) hdiscard
  · exact h.of_sameTape hsame honset (Or.inr hstate) hdiscard
  · have hskipped : s.skippedRecords = 0 := by
      have honset := h.onset
      simp only [hpolicy, true_and] at hloss
      omega
    have hskip : s.publisher.skipUncounted = false :=
      hg rfl hbehind (hskipped.trans h.onset.symm)
    have huncounted : s.publisher.uncounted = 0 := by
      cases hpc : s.publisher with
      | skipCounting first count =>
        rw [hpc] at hskip
        cases hskip
      | _ => rfl
    have hnext := h.behind hbehind
    refine ⟨h.contiguous, ?_, ?_, honset.trans h.onset, fun _ => ⟨?_, ?_, ?_⟩, fun hs => ?_,
      hdiscard, ?_⟩
    · rw [hsame.withheld]
      exact h.later
    · rw [hsame.skippedRecords, hsame.withheld, hsame.publisher]
      exact h.counts
    · rw [hsame.nextSequence]
      omega
    · exact hsame.skippedRecords.trans hskipped
    · rw [hsame.publisher]
      exact hskip
    · cases hrunning.symm.trans hs
    · rw [hsame.writeLoop]
      exact h.undiscarded.2

theorem Complete.writeLoopStep {a : Session.WriteLoopAction} (h : Complete s L)
    (hstep : s.writeLoopStep o a = some t) :
    Complete t (record o sessionId s (.writeLoop a) t L) := by
  obtain ⟨contiguous, later, counts, onset, running, behind, hrequest, hloop⟩ := h
  cases Session.writeLoopStep_cases hstep with
  | read | readEnd | readEmpty =>
    rw [← Ledger.kept_take L] at contiguous later running behind
    exact ⟨contiguous, later, counts, onset, running, behind, hrequest, trivial⟩
  | @heartbeat timestampNanos =>
    rw [← positions_kept_beat s.lastSequenceQueued timestampNanos L]
      at contiguous later running behind
    exact ⟨contiguous, later, counts, onset, running, behind, hrequest, trivial⟩
  | discarding hpc hrequested => cases hrequest.symm.trans hrequested
  | countedDiscard hpc | reportedDiscard hpc | advancedDiscard hpc =>
    rw [hpc] at hloop
    exact hloop.elim
  | @completed _ completed =>
    rw [← Ledger.kept_deliver L] at contiguous later running behind
    cases completed <;>
      exact ⟨contiguous, later, counts, onset, running, behind, hrequest, trivial⟩
  | completedHeartbeat =>
    rw [← Ledger.kept_deliver L] at contiguous later running behind
    exact ⟨contiguous, later, counts, onset, running, behind, hrequest, trivial⟩
  | failed => exact ⟨contiguous, later, counts, onset, nofun, nofun, hrequest, trivial⟩
  | finishedState => exact ⟨contiguous, later, counts, onset, nofun, nofun, hrequest, trivial⟩
  | _ => exact ⟨contiguous, later, counts, onset, running, behind, hrequest, trivial⟩

theorem Complete.ownerStep {a : Session.OwnerAction} (h : Complete s L)
    (hstep : s.ownerStep o sessionId a = some t) :
    Complete t (record o sessionId s (.owner a) t L) := by
  cases Session.ownerStep_cases hstep with
  | @started startNanos =>
    have hkept : positions (L.enqueue
        [.sessionStart sessionId o.heartbeatIntervalMs startNanos]).kept = positions L.kept := by
      rw [Ledger.kept_enqueue, positions_append, positions_sessionStart, positions_nil,
        List.append_nil]
    obtain ⟨contiguous, later, counts, onset, running, behind, undiscarded⟩ := h
    rw [← hkept] at contiguous later running behind
    exact ⟨contiguous, later, counts, onset, running, behind, undiscarded⟩
  | closed =>
    obtain ⟨hstate, honset, hdiscard⟩ := Session.beginClose_effect _ s
    exact h.of_sameTape (Session.beginClose_sameTape _ s) honset hstate
      (hdiscard.trans h.undiscarded.1)
  | _ =>
    exact ⟨h.contiguous, h.later, h.counts, h.onset, h.running, h.behind, h.undiscarded⟩

/-- Every step at which no skip goes unseen keeps the tape complete. -/
theorem Complete.step {a : Session.Action} (h : Complete s L) (hk : Kept s L)
    (hpolicy : o.slowConsumerPolicy = .disconnect) (hg : SkipsSeen s a)
    (hstep : s.step o sessionId a = some t) : Complete t (record o sessionId s a t L) := by
  cases a with
  | publisher a => exact h.publisherStep hk hpolicy hstep
  | handler a => exact h.handlerStep hpolicy hg hstep
  | writeLoop a => exact h.writeLoopStep hstep
  | owner a => exact h.ownerStep hstep

end Disconnect

theorem complete_init : Complete {} {} :=
  ⟨rfl, fun _ hp => (nomatch hp), rfl, rfl, fun _ => ⟨rfl, rfl, rfl⟩, nofun, rfl, trivial⟩

/-- Two ticks fill the pipe, the third is skipped while the session is behind and in
time for the handler, which closes the session. -/
def seenSkipRun : List Session.Action :=
  [.owner (.start 0), .writeLoop .run] ++ sending 36 ++ publishing [comiTrade, comiTrade] ++
    skipping [comiTrade] ++ sending 88 ++ resolving ++
    [.handler .disconnectSlow, .handler .closeSlow]

/-- The session the seen skip leaves. -/
def seenSkipSession : Session :=
  ((feedSession (smallBuffer .disconnect) default).run seenSkipRun).getD {}

/-- Two ticks fill the pipe; the publisher reads that the session is behind; the pipe
drains and the handler, seeing no skip, lets the session run; then the skip of the
third tick takes its number, and the fourth is published. -/
def unseenSkipRun : List Session.Action :=
  [.owner (.start 0), .writeLoop .run] ++ sending 36 ++ publishing [comiTrade, comiTrade] ++
    [.publisher (.tryPublish [comiTrade]), .publisher .readState] ++ sending 88 ++ resolving ++
    [.publisher .skipReserve, .publisher .skipCount, .publisher .skipReport] ++
    publishing [comiTrade] ++ sending 44

/-- The session the unseen skip leaves. -/
def unseenSkipSession : Session :=
  ((feedSession (smallBuffer .disconnect) default).run unseenSkipRun).getD {}

end Tckr.Feed
