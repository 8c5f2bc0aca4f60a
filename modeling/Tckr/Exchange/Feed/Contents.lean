import Tckr.Core.Excerpts
import Tckr.Exchange.Feed.GracefulStop
import Tckr.Exchange.Feed.Numbers

/-!
# What the numbers stand for

The number of a tick is the place of its record among the records offered since the
session started, whatever was lost in between and however the session ended. So the
tape of one consumer is an excerpt of what the publisher offered, and a loss never
shifts, repeats or alters what comes behind it.
-/

namespace Tckr.Feed

open Protocol

/-- The position and the record of a tick. -/
def Outbound.entry? : Outbound → Option (Nat × FeedRecord)
  | .tick position record => some (position, record.val)
  | .sessionStart .. | .heartbeat .. => none

/-- The ticks among frames, with their positions. -/
def entries (fs : List Outbound) : List (Nat × FeedRecord) := fs.filterMap Outbound.entry?

@[simp] theorem entries_nil : entries [] = [] := rfl

@[simp] theorem entries_append (fs gs : List Outbound) :
    entries (fs ++ gs) = entries fs ++ entries gs := List.filterMap_append

@[simp] theorem entries_sessionStart (sessionId : Guid) (heartbeatMs : UInt32)
    (startNanos : Int64) (fs : List Outbound) :
    entries (.sessionStart sessionId heartbeatMs startNanos :: fs) = entries fs := rfl

@[simp] theorem entries_heartbeat (lastPosition : Nat) (timestampNanos : Int64)
    (fs : List Outbound) :
    entries (.heartbeat lastPosition timestampNanos :: fs) = entries fs := rfl

/-- The payload of a record under its number. -/
def numberedPayload (e : Nat × FeedRecord) : Bytes :=
  tickPayload { e.2 with sequenceNumber := UInt64.ofNat e.1 }

theorem map_fst_entries (fs : List Outbound) : (entries fs).map Prod.fst = positions fs := by
  rw [entries, positions, List.map_filterMap]
  refine congrArg (fun g => List.filterMap g fs) (funext fun f => ?_)
  cases f <;> rfl

theorem map_numberedPayload_entries (fs : List Outbound) :
    (entries fs).map numberedPayload = tickPayloads fs := by
  rw [entries, tickPayloads, List.map_filterMap]
  refine congrArg (fun g => List.filterMap g fs) (funext fun f => ?_)
  cases f <;> rfl

/-- A batch whose frames are all ticks is queued in its order. -/
theorem entries_tickFrames {first : Nat} {batch : List FeedRecord}
    (h : positions (tickFrames first batch) = List.range' first batch.length) :
    entries (tickFrames first batch) = placed first batch := by
  induction batch generalizing first with
  | nil => rfl
  | cons record batch ih =>
    rw [List.length_cons, List.range'_succ] at h
    by_cases ht : record.messageType.isTick = true
    · rw [tickFrames, dif_pos ht, positions_tick] at h
      have hrest := ih (List.cons.inj h).2
      simp [tickFrames, ht, entries, Outbound.entry?, placed] at hrest ⊢
      exact hrest
    · simp [tickFrames, ht] at h

/-- The frames of a session, sent, to be sent or thrown away. -/
def Ledger.produced (L : Ledger) : List Outbound := L.kept ++ L.dropped

/-- Frames that enter the pipe are produced. -/
theorem Ledger.entries_produced_enqueue (fs : List Outbound) (L : Ledger) :
    entries (L.enqueue fs).produced = entries L.kept ++ entries fs ++ entries L.dropped := by
  rw [produced, kept_enqueue, entries_append, entries_append]
  rfl

/-- The write loop moves ticks and makes none. -/
theorem Ledger.entries_produced_write (s : Session) (L : Ledger) (a : Session.WriteLoopAction) :
    ∀ e ∈ entries (L.write s a).produced, e ∈ entries L.produced := by
  intro e he
  cases a with
  | readCompleted => rwa [write, produced, kept_take] at he
  | writeHeartbeat timestampNanos =>
    simpa [write, produced, kept, beat] using he
  | reportDiscard =>
    simp only [write, produced, kept, throw, entries_append, entries_nil, List.mem_append] at he ⊢
    tauto
  | sendCompleted => rwa [write, produced, kept_deliver] at he
  | run | checkClose | takeDiscard | countDiscard | advanceDiscard | socketSend sent
  | sendFailed io | canceled | finishState | completeReader | cancelLoops => exact he

namespace Session

/-- The records of a call of `TryPublish` on a session that has started. -/
def called (s : Session) : Action → List FeedRecord
  | .publisher (.tryPublish batch) => if s.started then batch else []
  | _ => []

/-- A call on a started session begins, unless its batch is empty. -/
theorem tryPublish_cases {o : FeedServerOptions} {s t : Session} {batch : List FeedRecord}
    (h : s.publisherStep o (.tryPublish batch) = some t) :
    s.publisher = .idle ∧ (t = s ∧ s.called (.publisher (.tryPublish batch)) = [] ∨
      t = { s with publisher := .reading batch } ∧
        s.called (.publisher (.tryPublish batch)) = batch) := by
  dsimp only [publisherStep] at h
  split at h
  · rename_i hpc
    refine ⟨hpc, ?_⟩
    split_ifs at h with hcall <;> cases h
    · refine .inl ⟨rfl, ?_⟩
      rcases hcall with rfl | hstarted
      · simp [called]
      · simp [called, hstarted]
    · rw [not_or, Bool.not_eq_false] at hcall
      exact .inr ⟨rfl, by simp [called, hcall.2]⟩
  · cases h

end Session

/-- What the publishing thread still has to number. -/
def Publisher.Awaits (rest : List FeedRecord) : Publisher → Prop
  | .reading batch | .entering batch => rest = batch
  | .skipping count => rest.length = count
  | .idle | .skipCounting .. | .skipReporting .. | .faulted => rest = []

/-- Every tick is the record called at its position, and the next number is that of the first
record that has none. -/
structure Faithful (s : Session) (L : Ledger) (called : List FeedRecord) : Prop where
  stands : ∀ e ∈ entries L.produced, StandsIn called e
  next : s.state ≠ .closing → ∃ numbered rest, called = numbered ++ rest ∧
    numbered.length + 1 = s.nextSequence ∧ s.publisher.Awaits rest

namespace Faithful

variable {o : FeedServerOptions} {sessionId : Guid} {s t : Session} {L M : Ledger}
  {called : List FeedRecord}

theorem init : Faithful {} {} [] where
  stands _ he := absurd he List.not_mem_nil
  next _ := ⟨[], [], rfl, rfl, rfl⟩

/-- A step that makes no tick and leaves the numbering alone. -/
theorem of_same (h : Faithful s L called)
    (hproduced : ∀ e ∈ entries M.produced, e ∈ entries L.produced)
    (hopen : t.state ≠ .closing → s.state ≠ .closing)
    (hnext : t.nextSequence = s.nextSequence) (hpc : t.publisher = s.publisher) :
    Faithful t M called where
  stands e he := h.stands e (hproduced e he)
  next ht := by
    rw [hnext, hpc]
    exact h.next (hopen ht)

/-- A step of the publishing thread that makes no tick. -/
theorem of_publisher (h : Faithful s L called) (hopen : t.state ≠ .closing → s.state ≠ .closing)
    (hnext : t.state ≠ .closing → ∀ numbered rest, called = numbered ++ rest →
      numbered.length + 1 = s.nextSequence → s.publisher.Awaits rest →
        ∃ numbered' rest', called = numbered' ++ rest' ∧
          numbered'.length + 1 = t.nextSequence ∧ t.publisher.Awaits rest') :
    Faithful t L called where
  stands := h.stands
  next ht := by
    obtain ⟨numbered, rest, hcalled, hlength, hawaits⟩ := h.next (hopen ht)
    exact hnext ht numbered rest hcalled hlength hawaits

/-- A batch that is queued is numbered from its first record. -/
theorem published (h : Faithful s L called) {batch : List FeedRecord} {bytes : Bytes}
    (hpc : s.publisher = .entering batch) (hstate : s.state = .running)
    (hencode : Session.encodeBatch s.nextSequence batch = .ok bytes)
    (hnext : t.nextSequence = s.nextSequence + batch.length) (hidle : t.publisher = .idle) :
    Faithful t (L.enqueue (tickFrames s.nextSequence batch)) called := by
  obtain ⟨numbered, rest, rfl, hlength, hawaits⟩ := h.next (by simp [hstate])
  rw [hpc] at hawaits
  obtain rfl : rest = batch := hawaits
  refine ⟨fun e he => ?_, fun _ => ⟨numbered ++ rest, [], by rw [List.append_nil], ?_, ?_⟩⟩
  · have hfresh : entries (tickFrames s.nextSequence rest) =
        placed (numbered.length + 1) rest := by
      rw [entries_tickFrames (encodeBatch_eq_ok hencode).2, hlength]
    rw [Ledger.entries_produced_enqueue, hfresh, List.mem_append, List.mem_append] at he
    rcases he with (he | he) | he
    · exact h.stands e (by rw [Ledger.produced, entries_append]; exact List.mem_append_left _ he)
    · exact standsIn_placed numbered rest e he
    · exact h.stands e (by rw [Ledger.produced, entries_append]; exact List.mem_append_right _ he)
  · rw [List.length_append, hnext, ← hlength]
    omega
  · rw [hidle]
    rfl

/-- A skip numbers what it withholds. -/
theorem withheld (h : Faithful s L called) {count : Nat} (hopen : s.state ≠ .closing)
    (hawaits : ∀ rest, s.publisher.Awaits rest → rest.length = count)
    (hnext : t.nextSequence = s.nextSequence + count) (hpc : t.publisher.Awaits []) :
    Faithful t L called :=
  h.of_publisher (fun _ => hopen) fun _ numbered rest hcalled hlength hrest =>
    ⟨numbered ++ rest, [], by rw [List.append_nil, hcalled],
      by rw [List.length_append, hawaits rest hrest, hnext]; omega, hpc⟩

/-- A call hands over its batch behind all that is numbered. -/
theorem tryPublish (h : Faithful s L called) {batch : List FeedRecord}
    (hstep : s.publisherStep o (.tryPublish batch) = some t) :
    Faithful t L (called ++ s.called (.publisher (.tryPublish batch))) := by
  obtain ⟨hpc, ⟨rfl, hcalled⟩ | ⟨rfl, hcalled⟩⟩ := Session.tryPublish_cases hstep
  · rw [hcalled, List.append_nil]
    exact h
  · rw [hcalled]
    refine ⟨fun e he => (h.stands e he).append batch, fun hopen => ?_⟩
    obtain ⟨numbered, rest, rfl, hlength, hawaits⟩ := h.next hopen
    rw [hpc] at hawaits
    obtain rfl : rest = [] := hawaits
    exact ⟨numbered, batch, by rw [List.append_nil], hlength, rfl⟩

theorem publisherStep (h : Faithful s L called) (hshutdown : s.Shutdown)
    {a : Session.PublisherAction} (hstep : s.publisherStep o a = some t) :
    Faithful t (record o sessionId s (.publisher a) t L)
      (called ++ s.called (.publisher a)) := by
  have hnone : called ++ [] = called := List.append_nil called
  cases Session.publisherStep_cases hstep with
  | ignored | called => exact h.tryPublish hstep
  | readRunning hpc =>
    simp only [Session.called, hnone]
    refine h.of_publisher id fun _ numbered rest hsplit hlength hawaits => ?_
    rw [hpc] at hawaits
    exact ⟨numbered, rest, hsplit, hlength, hawaits⟩
  | readBehind hpc =>
    simp only [Session.called, hnone]
    refine h.of_publisher id fun _ numbered rest hsplit hlength hawaits => ?_
    rw [hpc] at hawaits
    exact ⟨numbered, rest, hsplit, hlength, congrArg List.length hawaits⟩
  | readClosing hpc hstate =>
    simp only [Session.called, hnone]
    exact h.of_publisher id fun hopen => absurd hstate hopen
  | published hpc hstate hencode =>
    simp only [record, Ledger.publish, Session.called, hpc, hstate, hencode, hnone]
    exact h.published hpc hstate hencode (Session.flushBatch_sameTape o _ _).nextSequence
      (Session.flushBatch_sameTape o _ _).publisher
  | encodingFailed hpc hstate hencode =>
    simp only [record, Ledger.publish, Session.called, hpc, hstate, hencode, hnone]
    exact h.of_publisher (fun hopen => absurd rfl hopen) fun hopen => absurd rfl hopen
  | skippedAtGate hpc hstate =>
    simp only [record, Ledger.publish, Session.called, hpc, hstate, hnone]
    refine h.withheld (by simp [hstate]) (fun rest hawaits => ?_) rfl rfl
    rw [hpc] at hawaits
    exact congrArg List.length hawaits
  | refusedAtGate hpc hstate =>
    simp only [record, Ledger.publish, Session.called, hpc, hstate, hnone]
    exact h.of_publisher (fun hopen => absurd rfl hopen) fun hopen => absurd rfl hopen
  | reserved hpc =>
    simp only [Session.called, hnone]
    by_cases hopen : s.state = .closing
    · exact h.of_publisher id fun ht => absurd hopen ht
    · refine h.withheld hopen (fun rest hawaits => ?_) rfl rfl
      rw [hpc] at hawaits
      exact hawaits
  | counted hpc | reported hpc =>
    simp only [Session.called, hnone]
    refine h.of_publisher id fun _ numbered rest hsplit hlength hawaits => ?_
    rw [hpc] at hawaits
    exact ⟨numbered, rest, hsplit, hlength, hawaits⟩
  | closedFaulted =>
    have hclosed := Session.beginClose_state hshutdown .writeFailed
    simp only [Session.called, hnone]
    exact h.of_publisher (fun hopen => absurd hclosed hopen) fun hopen => absurd hclosed hopen

theorem writeLoopStep (h : Faithful s L called) {a : Session.WriteLoopAction}
    (hstep : s.writeLoopStep o a = some t) :
    Faithful t (record o sessionId s (.writeLoop a) t L) called := by
  have hproduced := L.entries_produced_write s a
  cases Session.writeLoopStep_cases hstep with
  | failed | finishedState => exact h.of_same hproduced (fun hopen => absurd rfl hopen) rfl rfl
  | _ => exact h.of_same hproduced id rfl rfl

theorem ownerStep (h : Faithful s L called) (hshutdown : s.Shutdown) {a : Session.OwnerAction}
    (hstep : s.ownerStep o sessionId a = some t) :
    Faithful t (record o sessionId s (.owner a) t L) called := by
  cases Session.ownerStep_cases hstep with
  | started =>
    refine h.of_same (fun e he => ?_) id rfl rfl
    rw [record, Ledger.entries_produced_enqueue, entries_sessionStart, entries_nil,
      List.append_nil] at he
    rwa [Ledger.produced, entries_append]
  | timer | tornDown => exact h.of_same (fun _ => id) id rfl rfl
  | @closed reason =>
    have hclosed := Session.beginClose_state hshutdown reason
    have hsame := Session.beginClose_sameTape reason s
    exact h.of_same (fun _ => id) (fun hopen => absurd hclosed hopen) hsame.nextSequence
      hsame.publisher

theorem step (h : Faithful s L called) (hshutdown : s.Shutdown) {a : Session.Action}
    (hstep : s.step o sessionId a = some t) :
    Faithful t (record o sessionId s a t L) (called ++ s.called a) := by
  cases a with
  | publisher a => exact h.publisherStep hshutdown hstep
  | handler a =>
    have hsame := Session.handlerStep_sameTape hstep
    have hnone : called ++ s.called (.handler a) = called := List.append_nil called
    rw [hnone]
    exact h.of_same (fun _ => id)
      (fun hopen hclosing => hopen (Session.closing_stable hshutdown
        (a := .handler a) hstep hclosing)) hsame.nextSequence
      hsame.publisher
  | writeLoop a =>
    have hnone : called ++ s.called (.writeLoop a) = called := List.append_nil called
    rw [hnone]
    exact h.writeLoopStep hstep
  | owner a =>
    have hnone : called ++ s.called (.owner a) = called := List.append_nil called
    rw [hnone]
    exact h.ownerStep hshutdown hstep

/-- What is on the wire is an excerpt of what was called, and up to its last tick every place
is on it or counted as dropped. -/
theorem exists_sent (h : Faithful s L called) (hk : Kept s L) (hn : Numbered s L) :
    ∃ sent, s.sentTicks = sent.map numberedPayload ∧ Excerpt called sent ∧
      ∀ e ∈ sent, ∀ n, 1 ≤ n → n ≤ e.1 →
        (n ∈ sent.map Prod.fst ↔ n ∉ s.withheld ++ positions L.dropped) := by
  obtain ⟨done, left, part, hkept, -, hdrain⟩ := hk.represents.drain_wire
  have hsorted := hk.ordered.sorted
  have hpositions : positions L.kept = positions done ++ positions left := by
    rw [hkept, positions_append]
  rw [hpositions] at hsorted
  refine ⟨entries done, ?_, ⟨?_, fun e he => h.stands e ?_⟩, fun e he n hone hle => ?_⟩
  · rw [Session.sentTicks, hdrain, filterMap_rawTickPayload?, map_numberedPayload_entries]
  · rw [map_fst_entries]
    exact hsorted.sublist (List.sublist_append_left _ _)
  · rw [Ledger.produced, hkept, entries_append, entries_append, List.append_assoc]
    exact List.mem_append_left _ he
  · have hsent : e.1 ∈ positions done := map_fst_entries done ▸ List.mem_map_of_mem he
    have hlast : e.1 ∈ positions L.kept := hpositions ▸ List.mem_append_left _ hsent
    obtain ⟨count, hnumbers, -⟩ := hn
    have hlosses := losses_nodup (List.append_assoc _ _ _ ▸ hnumbers)
    rw [map_fst_entries]
    constructor
    · intro hmem hlost
      refine hlosses.2 n (hpositions ▸ List.mem_append_left _ hmem) ?_
      exact List.mem_append_left _ hlost
    · intro hkeeps
      have hbound : e.1 ∈ List.range' 1 count := by
        refine hnumbers.mem_iff.mp ?_
        rw [List.append_assoc]
        exact List.mem_append_left _ hlast
      have hrange : n ∈ List.range' 1 count :=
        List.mem_range'_1.mpr ⟨hone, by have := (List.mem_range'_1.mp hbound).2; omega⟩
      rcases List.mem_append.mp (hnumbers.mem_iff.mpr hrange) with hmem | hreserved
      · rcases List.mem_append.mp hmem with hmem | hlost
        · rw [hpositions] at hmem
          refine (List.mem_append.mp hmem).elim id fun hleft => ?_
          have hlater := (List.pairwise_append.mp hsorted).2.2 _ hsent n hleft
          omega
        · exact absurd hlost hkeeps
      · have hlater := hk.ordered.reserved _ hlast n hreserved
        omega

end Faithful

/-! ## The tape of a whole run -/

/-- The records offered to a session in a run, in order. -/
def calls (o : FeedServerOptions) (sessionId : Guid) (as : List Session.Action) :
    List FeedRecord := (feedSession o sessionId).outputs Session.called {} as

/-- Every run of a session leaves it with a ledger of what it was called with. -/
theorem exists_faithful {o : FeedServerOptions} {sessionId : Guid} {s : Session}
    {as : List Session.Action} (h : (feedSession o sessionId).run as = some s) :
    ∃ L, Kept s L ∧ Numbered s L ∧ Faithful s L (calls o sessionId as) := by
  exact Machine.run_invariant_with_outputs (m := feedSession o sessionId)
    (f := Session.called) (G := fun _ _ => True)
    (I := fun s called => ∃ L, Kept s L ∧ Numbered s L ∧ Faithful s L called)
    (fun s a t called ⟨L, hk, hn, hf⟩ _ hstep =>
      ⟨record o sessionId s a t L, hk.step hstep, hn.step hk.shutdown hstep,
        hf.step hk.shutdown hstep⟩)
    ⟨{}, kept_init, .init, .init⟩
    ((feedSession o sessionId).guarded_of_forall (fun _ _ => trivial) _ as) h

/-- In every run of a session, under either policy and however it ends, the ticks on the wire
are, byte for byte and in order, records that were offered, each numbered by its place among
all that were offered; and every record offered up to the last one sent was sent or counted
as dropped, and never both. -/
theorem wire_is_excerpt (o : FeedServerOptions) (sessionId : Guid) {s : Session}
    (as : List Session.Action) (hrun : (feedSession o sessionId).run as = some s) :
    ∃ (sent : List (Nat × FeedRecord)) (discarded : List Nat),
      s.sentTicks = sent.map numberedPayload ∧ Excerpt (calls o sessionId as) sent ∧
      s.discardedTicks = discarded.map UInt64.ofNat ∧
      ∀ e ∈ sent, ∀ n, 1 ≤ n → n ≤ e.1 →
        (n ∈ sent.map Prod.fst ↔ n ∉ s.withheld ++ discarded) := by
  obtain ⟨L, hk, hn, hf⟩ := exists_faithful hrun
  obtain ⟨sent, hsent, hexcerpt, hlost⟩ := hf.exists_sent hk hn
  refine ⟨sent, positions L.dropped, hsent, hexcerpt, ?_, hlost⟩
  rw [Session.discardedTicks, hk.represents.discarded, tickNumbers_frames]

/-- The fourth record the lossy run offers is the one that arrives, as the fourth. -/
theorem lossySession_excerpt :
    calls (smallBuffer .dropOldest) default lossyRun =
        [comiTrade, comiTrade, comiTrade, comiTrade] ∧
      lossySession.sentTicks = [numberedPayload (4, comiTrade)] ∧
      ∃ (sent : List (Nat × FeedRecord)) (discarded : List Nat),
        lossySession.sentTicks = sent.map numberedPayload ∧
        Excerpt (calls (smallBuffer .dropOldest) default lossyRun) sent ∧
        lossySession.discardedTicks = discarded.map UInt64.ofNat ∧
        ∀ e ∈ sent, ∀ n, 1 ≤ n → n ≤ e.1 →
          (n ∈ sent.map Prod.fst ↔ n ∉ lossySession.withheld ++ discarded) :=
  ⟨by decide +kernel, by decide +kernel,
    wire_is_excerpt (smallBuffer .dropOldest) default lossyRun (by decide +kernel)⟩

end Tckr.Feed
