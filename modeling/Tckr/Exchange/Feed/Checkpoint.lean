import Tckr.Exchange.Feed.Loss

/-!
# Heartbeats as delivery checkpoints

A heartbeat is meant to name the last tick written before it. The write loop takes
the number from the field the publisher sets when it queues a batch, some steps
after it found the pipe empty. The number is the right one exactly when the last
tick queued has been sent by then: nothing waits in the pipe, and that tick was not
discarded.
-/

namespace Tckr.Feed

open Protocol

/-- The step that reads the last number queued and builds a heartbeat. -/
def Session.Action.buildsHeartbeat : Session.Action → Bool
  | .writeLoop (.writeHeartbeat _) => true
  | _ => false

/-- A heartbeat is built when the last tick queued has been sent. -/
def LastQueuedSent (s : Session) (a : Session.Action) : Prop :=
  a.buildsHeartbeat = true →
    s.pipe.unread = [] ∧ UInt64.ofNat s.lastSequenceQueued ∉ s.discardedTicks

instance (s : Session) (a : Session.Action) : Decidable (LastQueuedSent s a) := by
  unfold LastQueuedSent
  infer_instance

/-- Each heartbeat among the frames names the last tick before it, or 0. -/
def NamesLastTick (fs : List Outbound) : Prop :=
  ∀ before lastPosition timestampNanos after,
    fs = before ++ .heartbeat lastPosition timestampNanos :: after →
      lastPosition = (positions before).getLast?.getD 0

theorem NamesLastTick.nil : NamesLastTick [] := by
  intro before lastPosition timestampNanos after h
  have hlen := congrArg List.length h
  rw [List.length_append, List.length_cons, List.length_nil] at hlen
  omega

/-- Part of the frames, from the front, names its last ticks too. -/
theorem NamesLastTick.of_append {fs gs : List Outbound} (h : NamesLastTick (fs ++ gs)) :
    NamesLastTick fs := by
  intro before lastPosition timestampNanos after hfs
  refine h before lastPosition timestampNanos (after ++ gs) ?_
  rw [hfs, List.append_assoc, List.cons_append]

/-- Frames that are no heartbeats may follow. -/
theorem NamesLastTick.append {fs gs : List Outbound} (h : NamesLastTick fs)
    (hgs : ∀ g ∈ gs, g.isHeartbeat = false) : NamesLastTick (fs ++ gs) := by
  intro before lastPosition timestampNanos after hfs
  rcases List.append_eq_append_iff.mp hfs with ⟨mid, rfl, hmid⟩ | ⟨mid, rfl, hmid⟩
  · have hmem : Outbound.heartbeat lastPosition timestampNanos ∈ gs := by
      rw [hmid]
      exact List.mem_append_right _ (List.mem_cons_self ..)
    cases hgs _ hmem
  · cases mid with
    | nil =>
      have hmem : Outbound.heartbeat lastPosition timestampNanos ∈ gs := by
        rw [List.nil_append] at hmid
        rw [← hmid]
        exact List.mem_cons_self ..
      cases hgs _ hmem
    | cons f mid =>
      rw [List.cons_append, List.cons.injEq] at hmid
      obtain ⟨rfl, -⟩ := hmid
      exact h before lastPosition timestampNanos mid rfl

/-- A heartbeat that names the last tick may follow. -/
theorem NamesLastTick.beat {fs : List Outbound} (h : NamesLastTick fs) {lastPosition : Nat}
    (hlast : lastPosition = (positions fs).getLast?.getD 0) (timestampNanos : Int64) :
    NamesLastTick (fs ++ [.heartbeat lastPosition timestampNanos]) := by
  intro before lastPosition' timestampNanos' after hfs
  rcases List.append_eq_append_iff.mp hfs with ⟨mid, rfl, hmid⟩ | ⟨mid, rfl, hmid⟩
  · cases mid with
    | nil =>
      rw [List.nil_append, List.cons.injEq, Outbound.heartbeat.injEq] at hmid
      rw [List.append_nil, ← hmid.1.1]
      exact hlast
    | cons f mid =>
      have hlen := congrArg List.length hmid
      simp only [List.cons_append, List.length_cons, List.length_append, List.length_nil] at hlen
      omega
  · cases mid with
    | nil =>
      rw [List.nil_append, List.cons.injEq, Outbound.heartbeat.injEq] at hmid
      rw [List.append_nil] at hlast
      rw [hmid.1.1]
      exact hlast
    | cons f mid =>
      rw [List.cons_append, List.cons.injEq] at hmid
      obtain ⟨rfl, -⟩ := hmid
      exact h before lastPosition' timestampNanos' mid rfl

/-- The greatest entry of an increasing list is its last. -/
theorem getLast?_of_max {l : List Nat} {m : Nat} (hs : l.Pairwise (· < ·)) (hm : m ∈ l)
    (hmax : ∀ p ∈ l, p ≤ m) : l.getLast? = some m := by
  obtain ⟨before, after, rfl⟩ := List.append_of_mem hm
  cases after with
  | nil => rw [List.getLast?_append_cons, List.getLast?_singleton]
  | cons p after =>
    have hlt : m < p := by
      have htail := (List.pairwise_append.mp hs).2.1
      exact (List.pairwise_cons.mp htail).1 p (List.mem_cons_self ..)
    have hle := hmax p (List.mem_append_right _ (List.mem_cons_of_mem _ (List.mem_cons_self ..)))
    omega

/-- The last entry of an increasing list bounds every entry. -/
theorem le_getLast?_of_mem {l : List Nat} {p : Nat} (hs : l.Pairwise (· < ·)) (hp : p ∈ l) :
    ∃ m ∈ l, l.getLast? = some m ∧ p ≤ m := by
  rcases List.eq_nil_or_concat l with rfl | ⟨before, m, rfl⟩
  · cases hp
  · rw [List.concat_eq_append] at hs hp ⊢
    refine ⟨m, List.mem_append_right _ (List.mem_singleton_self m), List.getLast?_concat, ?_⟩
    rcases List.mem_append.mp hp with hp | hp
    · exact Nat.le_of_lt ((List.pairwise_append.mp hs).2.2 p hp m (List.mem_singleton_self m))
    · exact Nat.le_of_eq (List.mem_singleton.mp hp)

/-- The last number queued is the greatest of all queued; heartbeats name last ticks. -/
structure Checkpoint (s : Session) (L : Ledger) : Prop where
  named : NamesLastTick L.kept
  batch : match s.publisher with
    | .reading batch | .entering batch => batch ≠ []
    | _ => True
  below : s.lastSequenceQueued < s.nextSequence
  greatest : ∀ p ∈ positions L.kept ++ positions L.dropped, p ≤ s.lastSequenceQueued
  queued : s.lastSequenceQueued = 0 ∨
    s.lastSequenceQueued ∈ positions L.kept ++ positions L.dropped

section

variable {o : FeedServerOptions} {sessionId : Guid} {s t : Session} {L : Ledger}

theorem Checkpoint.of_sameTape (h : Checkpoint s L) (hst : s.SameTape t) : Checkpoint t L := by
  refine ⟨h.named, ?_, ?_, ?_, ?_⟩
  · rw [hst.publisher]
    exact h.batch
  · rw [hst.lastSequenceQueued, hst.nextSequence]
    exact h.below
  · rw [hst.lastSequenceQueued]
    exact h.greatest
  · rw [hst.lastSequenceQueued]
    exact h.queued

/-- Moving frames around without losing a number keeps the checkpoint. -/
theorem Checkpoint.of_positions {M : Ledger} (h : Checkpoint s L)
    (hnamed : NamesLastTick M.kept)
    (hperm : ∀ p, p ∈ positions M.kept ++ positions M.dropped ↔
      p ∈ positions L.kept ++ positions L.dropped)
    (hlast : t.lastSequenceQueued = s.lastSequenceQueued)
    (hnext : s.nextSequence ≤ t.nextSequence)
    (hbatch : match t.publisher with
      | .reading batch | .entering batch => batch ≠ []
      | _ => True) : Checkpoint t M := by
  refine ⟨hnamed, hbatch, ?_, ?_, ?_⟩
  · rw [hlast]
    exact Nat.lt_of_lt_of_le h.below hnext
  · intro p hp
    rw [hlast]
    exact h.greatest p ((hperm p).mp hp)
  · rw [hlast, hperm]
    exact h.queued

/-- Publishing a batch makes its last number the last queued. -/
theorem Checkpoint.published (h : Checkpoint s L) {batch : List FeedRecord} {bytes : Bytes}
    (hpc : s.publisher = .entering batch)
    (hencode : Session.encodeBatch s.nextSequence batch = .ok bytes) :
    Checkpoint (Session.flushBatch o bytes
      { s.reserve batch.length with
        lastSequenceQueued := s.nextSequence + batch.length - 1
        offered := s.offered + batch.length
        publisher := .idle }) (L.enqueue (tickFrames s.nextSequence batch)) := by
  have hticks := (encodeBatch_eq_ok hencode).2
  have hbatch := h.batch
  rw [hpc] at hbatch
  have hpos : 0 < batch.length := List.length_pos_iff.mpr hbatch
  have hkept : positions (L.enqueue (tickFrames s.nextSequence batch)).kept =
      positions L.kept ++ List.range' s.nextSequence batch.length := by
    rw [Ledger.kept_enqueue, positions_append, hticks]
  have hbelow := h.below
  refine Checkpoint.of_sameTape ?_ (Session.flushBatch_sameTape o bytes _)
  refine ⟨?_, trivial, ?_, ?_, Or.inr ?_⟩
  · rw [Ledger.kept_enqueue]
    exact h.named.append fun f hf => (tickFrames_shape s.nextSequence batch f hf).1
  · change s.nextSequence + batch.length - 1 < s.nextSequence + batch.length
    omega
  · intro p hp
    change p ≤ s.nextSequence + batch.length - 1
    rw [hkept, List.append_assoc] at hp
    rcases List.mem_append.mp hp with hp | hp
    · have hle := h.greatest p (List.mem_append_left _ hp)
      omega
    · rcases List.mem_append.mp hp with hp | hp
      · have hmem := List.mem_range'_1.mp hp
        omega
      · have hle := h.greatest p (List.mem_append_right _ hp)
        omega
  · change s.nextSequence + batch.length - 1 ∈ _
    rw [hkept, List.append_assoc]
    refine List.mem_append_right _ (List.mem_append_left _ (List.mem_range'_1.mpr ?_))
    omega

theorem Checkpoint.publisherStep {a : Session.PublisherAction} (h : Checkpoint s L)
    (hstep : s.publisherStep o a = some t) :
    Checkpoint t (record o sessionId s (.publisher a) t L) := by
  have hsame : ∀ p, p ∈ positions L.kept ++ positions L.dropped ↔
    p ∈ positions L.kept ++ positions L.dropped := fun _ => Iff.rfl
  have hbatch := h.batch
  cases Session.publisherStep_cases hstep with
  | ignored => exact h
  | called hpc hne => exact h.of_positions h.named hsame rfl (Nat.le_refl _) hne
  | readRunning hpc =>
    rw [hpc] at hbatch
    exact h.of_positions h.named hsame rfl (Nat.le_refl _) hbatch
  | published hpc hstate hencode =>
    simp only [record, Ledger.publish, hpc, hstate, hencode]
    exact h.published hpc hencode
  | encodingFailed hpc hstate hencode =>
    simp only [record, Ledger.publish, hpc, hstate, hencode]
    exact h.of_positions h.named hsame rfl (Nat.le_add_right _ _) trivial
  | skippedAtGate hpc hstate =>
    simp only [record, Ledger.publish, hpc, hstate]
    exact h.of_positions h.named hsame rfl (Nat.le_add_right _ _) trivial
  | refusedAtGate hpc hstate =>
    simp only [record, Ledger.publish, hpc, hstate]
    exact h.of_positions h.named hsame rfl (Nat.le_refl _) trivial
  | reserved => exact h.of_positions h.named hsame rfl (Nat.le_add_right _ _) trivial
  | closedFaulted =>
    have hclose := Session.beginClose_sameTape .writeFailed s
    exact h.of_positions h.named hsame hclose.lastSequenceQueued hclose.nextSequence.ge trivial
  | _ => exact h.of_positions h.named hsame rfl (Nat.le_refl _) trivial

/-- The heartbeat built when the last tick queued has been sent names it. -/
theorem Checkpoint.heartbeat (h : Checkpoint s L) (hk : Kept s L)
    (hpc : s.writeLoop = .heartbeatDue) (hunread : s.pipe.unread = [])
    (hdiscarded : UInt64.ofNat s.lastSequenceQueued ∉ s.discardedTicks) (timestampNanos : Int64) :
    NamesLastTick (L.beat (.heartbeat s.lastSequenceQueued timestampNanos)).kept := by
  have htape := hk.represents.tape
  rw [hpc] at htape
  have hqueue : L.queue = [] := frames_eq_nil (htape.2.2.symm.trans hunread)
  have hkept : L.kept = L.out := by
    rw [Ledger.kept, htape.1, hqueue, List.append_nil, List.append_nil]
  have hbeat : (L.beat (.heartbeat s.lastSequenceQueued timestampNanos)).kept =
      L.kept ++ [.heartbeat s.lastSequenceQueued timestampNanos] := by
    rw [Ledger.kept, Ledger.beat, htape.1, hqueue, hkept, List.append_nil, List.nil_append]
  have hdropped : s.lastSequenceQueued ∉ positions L.dropped := fun hmem => hdiscarded (by
    rw [Session.discardedTicks, hk.represents.discarded, tickNumbers_frames]
    exact List.mem_map_of_mem hmem)
  rw [hbeat]
  refine h.named.beat ?_ timestampNanos
  by_cases hmem : s.lastSequenceQueued ∈ positions L.kept
  · have hlast := getLast?_of_max hk.ordered.sorted hmem fun p hp =>
      h.greatest p (List.mem_append_left _ hp)
    rw [hlast, Option.getD_some]
  · have hzero : s.lastSequenceQueued = 0 := by
      rcases h.queued with hzero | hqueued
      · exact hzero
      · exact ((List.mem_append.mp hqueued).elim hmem hdropped).elim
    have hnone : positions L.kept = [] := by
      rw [List.eq_nil_iff_forall_not_mem]
      intro p hp
      have hle := h.greatest p (List.mem_append_left _ hp)
      have hp0 : p = s.lastSequenceQueued := by omega
      exact hmem (hp0 ▸ hp)
    rw [hnone, hzero]
    rfl

theorem Checkpoint.writeLoopStep {a : Session.WriteLoopAction} (h : Checkpoint s L)
    (hk : Kept s L) (hg : LastQueuedSent s (.writeLoop a))
    (hstep : s.writeLoopStep o a = some t) :
    Checkpoint t (record o sessionId s (.writeLoop a) t L) := by
  have hsame : ∀ p, p ∈ positions L.kept ++ positions L.dropped ↔
    p ∈ positions L.kept ++ positions L.dropped := fun _ => Iff.rfl
  cases Session.writeLoopStep_cases hstep with
  | read | readEnd | readEmpty =>
    refine h.of_positions ?_ ?_ rfl (Nat.le_refl _) h.batch
    · rw [record, Ledger.write, Ledger.kept_take]
      exact h.named
    · rw [record, Ledger.write, Ledger.kept_take]
      exact hsame
  | @heartbeat timestampNanos hpc =>
    obtain ⟨hunread, hdiscarded⟩ := hg rfl
    refine h.of_positions (h.heartbeat hk hpc hunread hdiscarded timestampNanos) ?_ rfl
      (Nat.le_refl _) h.batch
    rw [record, Ledger.write, positions_kept_beat]
    exact hsame
  | reportedDiscard hpc =>
    refine h.of_positions ?_ (fun p => ?_) rfl (Nat.le_refl _) h.batch
    · have hnamed := h.named
      rw [Ledger.kept, List.append_assoc] at hnamed
      have hout := hnamed.of_append
      rw [record, Ledger.write, Ledger.kept, Ledger.throw, List.append_nil]
      exact hout.append hk.shape.queue
    · simp only [record, Ledger.write, Ledger.kept, Ledger.throw, positions_append, List.append_nil,
        List.mem_append]
      tauto
  | completed | completedHeartbeat =>
    refine h.of_positions ?_ ?_ rfl (Nat.le_refl _) h.batch
    · rw [record, Ledger.write, Ledger.kept_deliver]
      exact h.named
    · rw [record, Ledger.write, Ledger.kept_deliver]
      exact hsame
  | _ => exact h.of_positions h.named hsame rfl (Nat.le_refl _) h.batch

theorem Checkpoint.ownerStep {a : Session.OwnerAction} (h : Checkpoint s L)
    (hstep : s.ownerStep o sessionId a = some t) :
    Checkpoint t (record o sessionId s (.owner a) t L) := by
  cases Session.ownerStep_cases hstep with
  | @started startNanos =>
    refine h.of_positions ?_ (fun p => ?_) rfl (Nat.le_refl _) h.batch
    · rw [record, Ledger.kept_enqueue]
      exact h.named.append fun f hf => by rw [List.mem_singleton.mp hf]; rfl
    · rw [record, Ledger.kept_enqueue, positions_append, positions_sessionStart, positions_nil,
        List.append_nil]
      exact Iff.rfl
  | closed => exact h.of_sameTape (Session.beginClose_sameTape _ s)
  | _ => exact h.of_positions h.named (fun _ => Iff.rfl) rfl (Nat.le_refl _) h.batch

/-- Every step at which a heartbeat finds the last tick sent keeps the checkpoint. -/
theorem Checkpoint.step {a : Session.Action} (h : Checkpoint s L) (hk : Kept s L)
    (hg : LastQueuedSent s a) (hstep : s.step o sessionId a = some t) :
    Checkpoint t (record o sessionId s a t L) := by
  cases a with
  | publisher a => exact h.publisherStep hstep
  | handler a => exact h.of_sameTape (Session.handlerStep_sameTape hstep)
  | writeLoop a => exact h.writeLoopStep hk hg hstep
  | owner a => exact h.ownerStep hstep

theorem checkpoint_init : Checkpoint {} {} :=
  ⟨NamesLastTick.nil, trivial, Nat.one_pos, fun _ hp => (nomatch hp), Or.inl rfl⟩

end

/-- The number a heartbeat frame carries. -/
def heartbeatNumber (f : RawFrame) : UInt64 := readUInt64LittleEndian (f.2.drop 8)

theorem heartbeatNumber_raw (lastPosition : Nat) (timestampNanos : Int64) :
    heartbeatNumber (Outbound.heartbeat lastPosition timestampNanos).raw =
      UInt64.ofNat lastPosition := by
  simp [heartbeatNumber, Outbound.raw, Outbound.message, FeedMessage.payload, heartbeatPayload,
    List.drop_append, List.drop_of_length_le]

/-- A frame that reads as a heartbeat is one. -/
theorem Outbound.eq_heartbeat {f : Outbound} (h : f.raw.1 = .heartbeat) :
    ∃ lastPosition timestampNanos, f = .heartbeat lastPosition timestampNanos := by
  cases f with
  | sessionStart sessionId heartbeatMs startNanos => cases h
  | tick position record =>
    have htick := record.property
    change record.val.messageType = _ at h
    rw [h] at htick
    cases htick
  | heartbeat lastPosition timestampNanos => exact ⟨lastPosition, timestampNanos, rfl⟩

/-- The write loop finds the pipe empty when the timer fires, and starts a heartbeat. -/
def checking : List Session.Action :=
  [.owner .heartbeatTimer, .writeLoop .readCompleted, .writeLoop .checkClose]

/-- The write loop builds a heartbeat and sends it. -/
def beating : List Session.Action :=
  [.writeLoop (.writeHeartbeat 0), .writeLoop (.socketSend 28), .writeLoop .sendCompleted]

/-- A tick is sent before the heartbeat is due. -/
def quietRun : List Session.Action :=
  [.owner (.start 0), .writeLoop .run] ++ sending 36 ++ publishing [comiTrade] ++ sending 44 ++
    checking ++ beating

/-- The session of the quiet run. -/
def quietSession : Session :=
  ((feedSession (smallBuffer .disconnect) default).run quietRun).getD {}

/-- The frames a consumer reads from a session. -/
def Session.wireFrames (s : Session) : List RawFrame := (frameReader.drain s.wire).1

/-- A tick is queued between the empty read and the heartbeat. -/
def overtakingRun : List Session.Action :=
  [.owner (.start 0), .writeLoop .run] ++ sending 36 ++ checking ++ publishing [comiTrade] ++
    beating

/-- The session of the overtaking run. -/
def overtakingSession : Session :=
  ((feedSession (smallBuffer .disconnect) default).run overtakingRun).getD {}

end Tckr.Feed
