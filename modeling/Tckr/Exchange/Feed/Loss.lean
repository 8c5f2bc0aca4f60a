import Tckr.Core.Numbering
import Tckr.Exchange.Feed.Shape

/-!
# Loss disclosure

Every record offered to an open session is on the wire, in the pipe, or reported
as dropped, and its number says which records before it were lost. Three parties
lose records: the publisher skips before the gate or at it, and the write loop
discards. The accounts hold whatever order they take their steps in.
-/

namespace Tckr.Feed

open Protocol

/-- The numbers a skip under way has consumed and not yet reported. -/
def Publisher.reserved : Publisher → List Nat
  | .skipCounting first count | .skipReporting first count => List.range' first count
  | .idle | .reading _ | .entering _ | .skipping _ | .faulted => []

/-- Kept ticks are in the order of their numbers, all of them handed out and before
those a skip has reserved. -/
structure Ordered (s : Session) (L : Ledger) : Prop where
  sorted : (positions L.kept).Pairwise (· < ·)
  bound : ∀ p ∈ positions L.kept, p < s.nextSequence
  reserved : ∀ p ∈ positions L.kept, ∀ q ∈ s.publisher.reserved, p < q

/-- Every number handed out is kept, dropped, withheld, or reserved by a skip. -/
structure Accounts (s : Session) (L : Ledger) : Prop where
  numbers : (positions L.kept ++ (s.withheld ++ positions L.dropped) ++ s.publisher.reserved).Perm
    (List.range' 1 (s.nextSequence - 1))
  offered : s.offered + s.publisher.reserved.length + 1 = s.nextSequence
  reported : s.recordsDropped = (s.withheld ++ positions L.dropped).length

theorem Ordered.of_sameTape {s t : Session} {L : Ledger} (h : Ordered s L) (hst : s.SameTape t) :
    Ordered t L :=
  ⟨h.sorted, by rw [hst.nextSequence]; exact h.bound, by rw [hst.publisher]; exact h.reserved⟩

theorem Accounts.of_sameTape {s t : Session} {L : Ledger} (h : Accounts s L)
    (hst : s.SameTape t) : Accounts t L := by
  refine ⟨?_, ?_, ?_⟩
  · rw [hst.withheld, hst.publisher, hst.nextSequence]
    exact h.numbers
  · rw [hst.offered, hst.publisher, hst.nextSequence]
    exact h.offered
  · rw [hst.recordsDropped, hst.withheld]
    exact h.reported

/-! ## Order -/

/-- The next numbers extend the kept ticks in order. -/
theorem Ordered.extend {s t : Session} {L : Ledger} (h : Ordered s L) {count : Nat}
    {fs : List Outbound} (hfs : positions fs = List.range' s.nextSequence count)
    (hnext : t.nextSequence = s.nextSequence + count) (hpc : t.publisher = .idle) :
    Ordered t (L.enqueue fs) := by
  have hmem : ∀ p ∈ List.range' s.nextSequence count,
      s.nextSequence ≤ p ∧ p < s.nextSequence + count := fun p hp => List.mem_range'_1.mp hp
  refine ⟨?_, ?_, fun p _ q hq => ?_⟩
  · rw [Ledger.kept_enqueue, positions_append, hfs, List.pairwise_append]
    refine ⟨h.sorted, List.pairwise_lt_range', fun p hp q hq => ?_⟩
    have hpq := h.bound p hp
    have hq := hmem q hq
    omega
  · intro p hp
    rw [Ledger.kept_enqueue, positions_append, hfs] at hp
    rw [hnext]
    rcases List.mem_append.mp hp with hp | hp
    · exact Nat.lt_add_right count (h.bound p hp)
    · exact (hmem p hp).2
  · rw [hpc] at hq
    cases hq

/-- Handing out more numbers, none of them reserved, keeps the order. -/
theorem Ordered.mono {s t : Session} {L : Ledger} (h : Ordered s L)
    (hle : s.nextSequence ≤ t.nextSequence)
    (hres : t.publisher.reserved ⊆ s.publisher.reserved) : Ordered t L :=
  ⟨h.sorted, fun p hp => Nat.lt_of_lt_of_le (h.bound p hp) hle,
    fun p hp q hq => h.reserved p hp q (hres hq)⟩

/-- Losing kept frames keeps the order of the others. -/
theorem Ordered.sublist {s t : Session} {L M : Ledger} (h : Ordered s L)
    (hsub : (positions M.kept).Sublist (positions L.kept))
    (hnext : t.nextSequence = s.nextSequence) (hpc : t.publisher = s.publisher) : Ordered t M :=
  ⟨h.sorted.sublist hsub, fun p hp => hnext ▸ h.bound p (hsub.subset hp),
    fun p hp q hq => h.reserved p (hsub.subset hp) q (hpc ▸ hq)⟩

theorem positions_kept_throw (L : Ledger) :
    (positions L.throw.kept).Sublist (positions L.kept) := by
  simp only [Ledger.kept, Ledger.throw, List.append_nil, positions_append]
  exact (List.sublist_append_left _ _).append (List.Sublist.refl _)

@[simp] theorem positions_kept_beat (lastPosition : Nat) (timestampNanos : Int64) (L : Ledger) :
    positions (L.beat (.heartbeat lastPosition timestampNanos)).kept = positions L.kept := by
  simp only [Ledger.kept, Ledger.beat, positions_append, positions_heartbeat, positions_nil,
    List.append_nil]

theorem Ordered.publisherStep {o : FeedServerOptions} {sessionId : Guid} {s t : Session}
    {a : Session.PublisherAction} {L : Ledger} (h : Ordered s L)
    (hstep : s.publisherStep o a = some t) :
    Ordered t (record o sessionId s (.publisher a) t L) := by
  cases Session.publisherStep_cases hstep with
  | ignored => exact h
  | called | readRunning | readBehind | readClosing =>
    exact h.mono (Nat.le_refl _) (List.nil_subset _)
  | published hpc hstate hencode =>
    have hsame := Session.flushBatch_sameTape o
    simp only [record, Ledger.publish, hpc, hstate, hencode]
    exact h.extend (encodeBatch_eq_ok hencode).2 (hsame _ _).nextSequence (hsame _ _).publisher
  | encodingFailed hpc hstate hencode =>
    simp only [record, Ledger.publish, hpc, hstate, hencode]
    exact h.mono (Nat.le_add_right _ _) (List.nil_subset _)
  | skippedAtGate hpc hstate =>
    simp only [record, Ledger.publish, hpc, hstate]
    exact h.mono (Nat.le_add_right _ _) (List.nil_subset _)
  | refusedAtGate hpc hstate =>
    simp only [record, Ledger.publish, hpc, hstate]
    exact h.mono (Nat.le_refl _) (List.nil_subset _)
  | reserved hpc =>
    refine ⟨h.sorted, fun p hp => Nat.lt_add_right _ (h.bound p hp), fun p hp q hq => ?_⟩
    exact Nat.lt_of_lt_of_le (h.bound p hp) (List.mem_range'_1.mp hq).1
  | counted hpc => exact h.mono (Nat.le_refl _) (by rw [hpc]; exact List.Subset.refl _)
  | reported => exact h.mono (Nat.le_refl _) (List.nil_subset _)
  | closedFaulted =>
    exact h.mono (Session.beginClose_sameTape .writeFailed s).nextSequence.ge (List.nil_subset _)

theorem Ordered.step {o : FeedServerOptions} {sessionId : Guid} {s t : Session}
    {a : Session.Action} {L : Ledger} (h : Ordered s L)
    (hstep : s.step o sessionId a = some t) : Ordered t (record o sessionId s a t L) := by
  cases a with
  | publisher a => exact h.publisherStep hstep
  | handler a => exact h.of_sameTape (Session.handlerStep_sameTape hstep)
  | writeLoop a =>
    cases Session.writeLoopStep_cases hstep with
    | read | readEnd | readEmpty =>
      exact h.sublist (by rw [record, Ledger.write, Ledger.kept_take]) rfl rfl
    | heartbeat => exact h.sublist (by rw [record, Ledger.write, positions_kept_beat]) rfl rfl
    | reportedDiscard => exact h.sublist (positions_kept_throw L) rfl rfl
    | completed | completedHeartbeat =>
      exact h.sublist (by rw [record, Ledger.write, Ledger.kept_deliver]) rfl rfl
    | _ => exact h.mono (Nat.le_refl _) (List.Subset.refl _)
  | owner a =>
    cases Session.ownerStep_cases hstep with
    | started =>
      refine h.sublist ?_ rfl rfl
      rw [record, Ledger.kept_enqueue, positions_append, positions_sessionStart, positions_nil,
        List.append_nil]
    | closed => exact h.of_sameTape (Session.beginClose_sameTape _ s)
    | _ => exact h.mono (Nat.le_refl _) (List.Subset.refl _)

theorem ordered_init : Ordered {} {} :=
  ⟨List.Pairwise.nil, fun _ hp => (nomatch hp), fun _ hp => (nomatch hp)⟩

/-! ## Accounts -/

/-- Numbers handed out to kept, dropped or reserved records extend the accounts. -/
theorem perm_range'_extend {l : List Nat} {next : Nat} (count : Nat) (hpos : 1 ≤ next)
    (h : l.Perm (List.range' 1 (next - 1))) :
    (l ++ List.range' next count).Perm (List.range' 1 (next + count - 1)) := by
  have hsplit : List.range' 1 (next - 1) ++ List.range' next count =
      List.range' 1 (next + count - 1) := by
    have happend := List.range'_append_1 (s := 1) (m := next - 1) (n := count)
    have hstart : 1 + (next - 1) = next := by omega
    have hlen : next - 1 + count = next + count - 1 := by omega
    rwa [hstart, hlen] at happend
  exact hsplit ▸ h.append_right _

theorem Accounts.publisherStep {o : FeedServerOptions} {sessionId : Guid} {s t : Session}
    {a : Session.PublisherAction} {L : Ledger} (h : Accounts s L) (hd : s.Shutdown)
    (hopen : t.state ≠ .closing) (hstep : s.publisherStep o a = some t) :
    Accounts t (record o sessionId s (.publisher a) t L) := by
  obtain ⟨hnumbers, hoffered, hreported⟩ := h
  have hpos : 1 ≤ s.nextSequence := by omega
  have hext := fun count => perm_range'_extend count hpos hnumbers
  cases Session.publisherStep_cases hstep with
  | ignored => exact ⟨hnumbers, hoffered, hreported⟩
  | called hpc | readRunning hpc | readBehind hpc | readClosing hpc =>
    rw [hpc] at hnumbers hoffered
    exact ⟨hnumbers, hoffered, hreported⟩
  | @published batch bytes hpc hstate hencode =>
    obtain ⟨rfl, hfs⟩ := encodeBatch_eq_ok hencode
    rw [hpc] at hext hoffered
    simp only [record, Ledger.publish, hpc, hstate, hencode]
    refine Accounts.of_sameTape ?_ (Session.flushBatch_sameTape o _ _)
    refine ⟨?_, ?_, hreported⟩
    · refine List.Perm.trans ?_ (hext batch.length)
      rw [Ledger.kept_enqueue, positions_append, hfs]
      simp only [Session.reserve, Ledger.enqueue, Publisher.reserved, List.perm_iff_count,
        List.count_append, List.count_nil]
      intro x
      omega
    · simp only [Session.reserve, Publisher.reserved, List.length_nil] at hoffered ⊢
      omega
  | encodingFailed => exact absurd rfl hopen
  | @skippedAtGate batch hpc hstate =>
    rw [hpc] at hext hoffered
    simp only [record, Ledger.publish, hpc, hstate]
    refine ⟨?_, ?_, ?_⟩
    · refine List.Perm.trans ?_ (hext batch.length)
      simp only [Session.reserve, Session.countSkipped, Session.reportSkipped, Publisher.reserved,
        List.perm_iff_count, List.count_append, List.count_nil]
      intro x
      omega
    · simp only [Session.reserve, Session.countSkipped, Session.reportSkipped, Publisher.reserved,
        List.length_nil] at hoffered ⊢
      omega
    · simp only [Session.reserve, Session.countSkipped, Session.reportSkipped, hreported,
        List.length_append, List.length_range']
      omega
  | refusedAtGate hpc hstate => exact absurd hstate hopen
  | @reserved count hpc =>
    rw [hpc] at hext hoffered
    refine ⟨?_, ?_, hreported⟩
    · refine List.Perm.trans ?_ (hext count)
      simp only [Publisher.reserved, List.append_nil]
      exact List.Perm.refl _
    · simp only [Session.reserve, Publisher.reserved, List.length_nil, List.length_range']
        at hoffered ⊢
      omega
  | counted hpc =>
    rw [hpc] at hnumbers hoffered
    exact ⟨hnumbers, hoffered, hreported⟩
  | @reported first count hpc =>
    rw [hpc] at hnumbers hoffered
    refine ⟨?_, ?_, ?_⟩
    · refine List.Perm.trans ?_ hnumbers
      simp only [record, Ledger.publish, Session.reportSkipped, Publisher.reserved,
        List.perm_iff_count, List.count_append, List.count_nil]
      intro x
      omega
    · simp only [Session.reportSkipped, Publisher.reserved, List.length_nil, List.length_range']
        at hoffered ⊢
      omega
    · simp only [record, Ledger.publish, Session.reportSkipped, hreported, List.length_append,
        List.length_range']
      omega
  | closedFaulted => exact absurd (Session.beginClose_state hd .writeFailed) hopen

theorem Accounts.writeLoopStep {o : FeedServerOptions} {sessionId : Guid} {s t : Session}
    {a : Session.WriteLoopAction} {L : Ledger} (h : Accounts s L) (hr : Represents s L)
    (hs : Shape s L) (hstep : s.writeLoopStep o a = some t) :
    Accounts t (record o sessionId s (.writeLoop a) t L) := by
  obtain ⟨hnumbers, hoffered, hreported⟩ := h
  cases Session.writeLoopStep_cases hstep with
  | read | readEnd | readEmpty =>
    exact ⟨by rw [record, Ledger.write, Ledger.kept_take]; exact hnumbers, hoffered, hreported⟩
  | heartbeat =>
    exact ⟨by rw [record, Ledger.write, positions_kept_beat]; exact hnumbers, hoffered, hreported⟩
  | reportedDiscard hpc =>
    -- The discarded ticks move from kept to dropped, and the byte count names their number.
    refine ⟨List.Perm.trans ?_ hnumbers, hoffered, ?_⟩
    · simp only [record, Ledger.write, Ledger.kept, Ledger.throw, positions_append, List.append_nil,
        List.perm_iff_count, List.count_append]
      intro x
      omega
    · simp only [record, Ledger.write, Ledger.throw, hreported, hs.discard_count hr hpc,
        positions_append, List.length_append]
      omega
  | completed | completedHeartbeat =>
    exact ⟨by rw [record, Ledger.write, Ledger.kept_deliver]; exact hnumbers, hoffered, hreported⟩
  | _ => exact ⟨hnumbers, hoffered, hreported⟩

theorem Accounts.ownerStep {o : FeedServerOptions} {sessionId : Guid} {s t : Session}
    {a : Session.OwnerAction} {L : Ledger} (h : Accounts s L)
    (hstep : s.ownerStep o sessionId a = some t) :
    Accounts t (record o sessionId s (.owner a) t L) := by
  cases Session.ownerStep_cases hstep with
  | started =>
    refine ⟨?_, h.offered, h.reported⟩
    rw [record, Ledger.kept_enqueue, positions_append, positions_sessionStart, positions_nil,
      List.append_nil]
    exact h.numbers
  | timer => exact ⟨h.numbers, h.offered, h.reported⟩
  | closed => exact h.of_sameTape (Session.beginClose_sameTape _ s)
  | tornDown => exact ⟨h.numbers, h.offered, h.reported⟩

/-- Every step of a session that stays open keeps the accounts. -/
theorem Accounts.step {o : FeedServerOptions} {sessionId : Guid} {s t : Session}
    {a : Session.Action} {L : Ledger} (h : Accounts s L) (hd : s.Shutdown) (hr : Represents s L)
    (hs : Shape s L) (hopen : t.state ≠ .closing) (hstep : s.step o sessionId a = some t) :
    Accounts t (record o sessionId s a t L) := by
  cases a with
  | publisher a => exact h.publisherStep hd hopen hstep
  | handler a => exact h.of_sameTape (Session.handlerStep_sameTape hstep)
  | writeLoop a => exact h.writeLoopStep hr hs hstep
  | owner a => exact h.ownerStep hstep

theorem accounts_init : Accounts {} {} := ⟨List.Perm.nil, rfl, rfl⟩

/-! ## The law of a whole run -/

/-- What holds of every session and its ledger. -/
structure Kept (s : Session) (L : Ledger) : Prop where
  shutdown : s.Shutdown
  represents : Represents s L
  shape : Shape s L
  ordered : Ordered s L
  accounts : s.state ≠ .closing → Accounts s L

theorem kept_init : Kept {} {} :=
  ⟨Session.shutdown_init, represents_init, shape_init, ordered_init, fun _ => accounts_init⟩

theorem Kept.step {o : FeedServerOptions} {sessionId : Guid} {s t : Session} {a : Session.Action}
    {L : Ledger} (h : Kept s L) (hstep : s.step o sessionId a = some t) :
    Kept t (record o sessionId s a t L) := by
  refine ⟨h.shutdown.step hstep, h.represents.step hstep, h.shape.step h.represents hstep,
    h.ordered.step hstep, fun hopen => ?_⟩
  have hs : s.state ≠ .closing := fun hs =>
    hopen (Session.closing_stable h.shutdown hstep hs)
  exact (h.accounts hs).step h.shutdown h.represents h.shape hopen hstep

/-- Every run of a session leaves it with a ledger. -/
theorem exists_kept {o : FeedServerOptions} {sessionId : Guid} {s : Session}
    {as : List Session.Action} (h : (feedSession o sessionId).run as = some s) :
    ∃ L, Kept s L :=
  Machine.run_invariant_with_history (m := feedSession o sessionId) (I := Kept)
    (G := fun _ _ => True) (record o sessionId) kept_init
    (fun _ _ _ _ hI _ hstep => hI.step hstep)
    ((feedSession o sessionId).guarded_of_forall (fun _ _ => trivial) _ as) h

/-- An open session's write loop is still going. -/
theorem Kept.loop_open {s : Session} {L : Ledger} (h : Kept s L) (hopen : s.state ≠ .closing) :
    s.writeLoop ≠ .finishing ∧ s.writeLoop ≠ .completingReader ∧ s.writeLoop ≠ .cancelling ∧
      s.writeLoop ≠ .finished := by
  refine ⟨fun hpc => ?_, fun hpc => ?_, fun hpc => ?_, fun hpc => ?_⟩ <;>
    exact hopen (h.shutdown.ending (by rw [hpc]; trivial))

/-- Below 2^64 the numbers on the wire are in the order of the positions. -/
theorem ofNat_pairwise_lt {ps : List Nat} {bound : Nat} (hs : ps.Pairwise (· < ·))
    (hb : ∀ p ∈ ps, p < bound) (hbound : bound ≤ 2 ^ 64) :
    (ps.map UInt64.ofNat).Pairwise (· < ·) := by
  rw [List.pairwise_map]
  refine hs.imp_of_mem fun {p q} hp hq hpq => ?_
  have hlt := hb p hp
  have hlt' := hb q hq
  rw [UInt64.lt_iff_toNat_lt, UInt64.toNat_ofNat_of_lt' (Nat.lt_of_lt_of_le hlt hbound),
    UInt64.toNat_ofNat_of_lt' (Nat.lt_of_lt_of_le hlt' hbound)]
  exact hpq

/-- In every run of a session that is started and still open, the ticks on the wire
are in the order of their numbers, every offered record is sent, in the pipe or
reported as dropped, and a sent tick's number exceeds its rank by exactly the
dropped records numbered below it, each reported once. -/
theorem loss_disclosure (o : FeedServerOptions) (sessionId : Guid) {s : Session}
    (as : List Session.Action) (hrun : (feedSession o sessionId).run as = some s)
    (hopen : s.state ≠ .closing) :
    ∃ sent queued discarded : List Nat,
      s.wireTicks = sent.map UInt64.ofNat ∧
      tickNumbers (s.wire ++ s.unsent) = (sent ++ queued).map UInt64.ofNat ∧
      s.discardedTicks = discarded.map UInt64.ofNat ∧
      (sent ++ queued).Pairwise (· < ·) ∧
      (s.nextSequence ≤ 2 ^ 64 → s.wireTicks.Pairwise (· < ·)) ∧
      s.offered = sent.length + queued.length + s.recordsDropped ∧
      s.recordsDropped = (s.withheld ++ discarded).length ∧
      (s.withheld ++ discarded).Nodup ∧
      ∀ (i : Nat) (hi : i < sent.length),
        sent[i] = i + 1 + (s.withheld ++ discarded).countP (· < sent[i]) := by
  obtain ⟨L, hL⟩ := exists_kept hrun
  obtain ⟨numbers, offered, reported⟩ := hL.accounts hopen
  obtain ⟨done, left, part, hkept, hwire, hdrain⟩ := hL.represents.drain_wire
  have hpositions : positions L.kept = positions done ++ positions left := by
    rw [hkept, positions_append]
  have hsent : s.wireTicks = (positions done).map UInt64.ofNat := by
    rw [Session.wireTicks, tickNumbers, hdrain, filterMap_tickNumber?]
  have hsorted := hL.ordered.sorted
  have hsub : (positions done).Sublist (positions L.kept) :=
    hpositions ▸ List.sublist_append_left _ _
  refine ⟨positions done, positions left, positions L.dropped, hsent, ?_, ?_, ?_, ?_, ?_,
    reported, ?_, ?_⟩
  · rw [hL.represents.wire_append_unsent (hL.loop_open hopen), tickNumbers_frames, hpositions]
  · rw [Session.discardedTicks, hL.represents.discarded, tickNumbers_frames]
  · exact hpositions ▸ hsorted
  · intro hbound
    rw [hsent]
    exact ofNat_pairwise_lt (hsorted.sublist hsub)
      (fun p hp => hL.ordered.bound p (hsub.subset hp)) hbound
  · have hlength := numbers.length_eq
    simp only [List.length_append, List.length_range', hpositions] at hlength reported
    omega
  · rw [List.append_assoc] at numbers
    exact (List.nodup_append.mp (losses_nodup numbers).1).1
  · intro i hi
    have hi' : i < (positions L.kept).length := by
      rw [hpositions, List.length_append]
      omega
    have hget : (positions L.kept)[i] = (positions done)[i] := by
      simp only [hpositions, List.getElem_append_left hi]
    rw [List.append_assoc] at numbers
    have hrank := number_eq_rank_add_losses hsorted numbers i hi'
    rw [hget, List.countP_append] at hrank
    -- A skip under way has reserved numbers above every kept tick.
    have hreserved : s.publisher.reserved.countP (· < (positions done)[i]) = 0 := by
      rw [List.countP_eq_zero]
      intro q hq
      have hlt := hL.ordered.reserved _ (hsub.subset (List.getElem_mem hi)) q hq
      simp only [decide_eq_true_eq]
      omega
    omega

/-- The smallest buffer the server accepts. -/
def smallBuffer (policy : SlowConsumerPolicy) : FeedServerOptions :=
  ⟨88, policy, 1000, by decide⟩

/-- A trade in COMI. -/
def comiTrade : FeedRecord := ⟨.trade, 0, 100, 0, 1704067200000000000, 851000, ⟨0x20202020494D4F43⟩⟩

/-- A call of `TryPublish` that queues its batch. -/
def publishing (batch : List FeedRecord) : List Session.Action :=
  [.publisher (.tryPublish batch), .publisher .readState, .publisher .enterGate]

/-- A call of `TryPublish` that skips its batch. -/
def skipping (batch : List FeedRecord) : List Session.Action :=
  [.publisher (.tryPublish batch), .publisher .readState, .publisher .skipReserve,
    .publisher .skipCount, .publisher .skipReport]

/-- The write loop reads the pipe and sends what it read. -/
def sending (size : Nat) : List Session.Action :=
  [.writeLoop .readCompleted, .writeLoop .takeDiscard, .writeLoop (.socketSend size),
    .writeLoop .sendCompleted]

/-- The write loop reads the pipe and discards what it read. -/
def discarding : List Session.Action :=
  [.writeLoop .readCompleted, .writeLoop .takeDiscard, .writeLoop .countDiscard,
    .writeLoop .reportDiscard, .writeLoop .advanceDiscard]

/-- The backpressure handler resolves a drained episode. -/
def resolving : List Session.Action :=
  [.handler .flushObserved, .handler .withdrawDiscard, .handler .resolve]

/-- Two ticks fill the pipe before the loop first reads it and are discarded with the
start frame, one is skipped, one is sent. -/
def lossyRun : List Session.Action :=
  .owner (.start 0) :: publishing [comiTrade, comiTrade] ++ skipping [comiTrade] ++
    [.writeLoop .run] ++ discarding ++ resolving ++ publishing [comiTrade] ++ sending 44

/-- The session the lossy run leaves. -/
def lossySession : Session :=
  ((feedSession (smallBuffer .dropOldest) default).run lossyRun).getD {}

/-- Of four offered records the fourth is on the wire and three are accounted for. -/
theorem lossySession_disclosed :
    lossySession.wireTicks = [4] ∧ lossySession.offered = 4 ∧ lossySession.recordsDropped = 3 ∧
    ∃ sent queued discarded : List Nat,
      lossySession.wireTicks = sent.map UInt64.ofNat ∧
      tickNumbers (lossySession.wire ++ lossySession.unsent) =
        (sent ++ queued).map UInt64.ofNat ∧
      lossySession.discardedTicks = discarded.map UInt64.ofNat ∧
      (sent ++ queued).Pairwise (· < ·) ∧
      (lossySession.nextSequence ≤ 2 ^ 64 → lossySession.wireTicks.Pairwise (· < ·)) ∧
      lossySession.offered = sent.length + queued.length + lossySession.recordsDropped ∧
      lossySession.recordsDropped = (lossySession.withheld ++ discarded).length ∧
      (lossySession.withheld ++ discarded).Nodup ∧
      ∀ (i : Nat) (hi : i < sent.length),
        sent[i] = i + 1 + (lossySession.withheld ++ discarded).countP (· < sent[i]) :=
  ⟨by decide +kernel, by decide +kernel, by decide +kernel,
    loss_disclosure (smallBuffer .dropOldest) default lossyRun (by decide +kernel)
      (by decide +kernel)⟩

end Tckr.Feed
