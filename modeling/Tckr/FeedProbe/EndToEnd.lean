import Tckr.Exchange.Feed.Contents
import Tckr.Exchange.Feed.Grammar
import Tckr.FeedProbe.WholeStream

/-!
# The probe against the exchange

A probe that reads what a session of the exchange puts on the wire establishes the
session, finds no framing error and no integrity violation, receives exactly what was
sent, and counts as lost exactly what the exchange dropped before the last tick received.
So its verdict says whether a complete tape was delivered up to there.
-/

namespace Tckr.FeedProbe

open Protocol Feed

/-! ## What numbered records leave behind -/

/-- The timestamps of a symbol's records do not go back. -/
def InOrder (a b : FeedRecord) : Prop :=
  a.symbol = b.symbol → a.exchangeTimestampNanos ≤ b.exchangeTimestampNanos

/-- The symbol of a record came out of one of the constructors. -/
def Listed (record : FeedRecord) : Prop :=
  (∃ text, Symbol8.fromAscii text = .ok record.symbol) ∨
    ∃ source, Symbol8.fromWire source = .ok record.symbol

/-- What the probe makes of numbered records. -/
structure Sees (sent : List (Nat × FeedRecord)) (t : ProbeSession) : Prop where
  last : t.lastTickSequence.toNat = highest (sent.map Prod.fst)
  events : t.eventsReceived = UInt64.ofNat sent.length
  lost : t.recordsLost.toNat + sent.length = highest (sent.map Prod.fst)
  gaps : t.gaps = [] ↔ t.recordsLost.toNat = 0
  violations : t.integrityViolations = []
  ticks : t.symbolTicks = sent.map fun e => (e.2.symbol, e.2.priceScaled)
  latest : ∀ symbol previous, t.lastTimestampNanos.get? symbol = some previous →
    ∃ e ∈ sent, e.2.symbol = symbol ∧ e.2.exchangeTimestampNanos = previous
  ordered : (sent.map Prod.snd).Pairwise InOrder → t.orderViolations = []

namespace ProbeSession

variable (s : ProbeSession)

/-- What the check of the numbers does to what is listed. -/
theorem checkSequence_lists (x : UInt64) :
    (s.checkSequence x).integrityViolations =
        (if sequenceVerdict s.lastTickSequence x = .violation ∧
            s.integrityViolations.length < maxIntegrityViolations
          then s.integrityViolations ++ [⟨s.lastTickSequence + 1, x⟩]
          else s.integrityViolations) ∧
      (∀ size, sequenceVerdict s.lastTickSequence x = .gap size → (s.checkSequence x).gaps ≠ []) ∧
      ((∀ size, sequenceVerdict s.lastTickSequence x ≠ .gap size) →
        (s.checkSequence x).gaps = s.gaps) ∧
      (s.checkSequence x).symbolTicks = s.symbolTicks ∧
      (s.checkSequence x).lastTimestampNanos = s.lastTimestampNanos ∧
      (s.checkSequence x).orderViolations = s.orderViolations := by
  unfold checkSequence
  cases hverdict : sequenceVerdict s.lastTickSequence x with
  | expected => simp
  | violation => simp
  | gap size =>
    simp only [reduceCtorEq, false_and, if_false, SequenceVerdict.gap.injEq, ne_eq, and_true,
      true_and]
    refine ⟨fun _ _ => ?_, fun h => absurd rfl (h size)⟩
    split_ifs with hroom
    · simp
    · intro hnone
      rw [hnone] at hroom
      exact hroom (by decide)

/-- What the check of the timestamps does, beside what it leaves alone. -/
theorem checkTimestampOrder_lists (record : FeedRecord) :
    (s.checkTimestampOrder record).integrityViolations = s.integrityViolations ∧
      (s.checkTimestampOrder record).gaps = s.gaps ∧
      (s.checkTimestampOrder record).symbolTicks = s.symbolTicks ∧
      ((s.checkTimestampOrder record).lastTimestampNanos = s.lastTimestampNanos ∨
        (s.checkTimestampOrder record).lastTimestampNanos =
          s.lastTimestampNanos.set record.symbol record.exchangeTimestampNanos) ∧
      ((∀ previous, s.lastTimestampNanos.get? record.symbol = some previous →
        previous ≤ record.exchangeTimestampNanos) →
          (s.checkTimestampOrder record).orderViolations = s.orderViolations) := by
  unfold checkTimestampOrder
  split
  · cases hprevious : s.lastTimestampNanos.get? record.symbol with
    | none => exact ⟨rfl, rfl, rfl, .inr rfl, fun _ => rfl⟩
    | some previous =>
      dsimp only
      split
      · rename_i hback
        refine ⟨rfl, rfl, rfl, .inr rfl, fun h => ?_⟩
        exact absurd hback.1 (Int64.not_lt.mpr (h previous rfl))
      · exact ⟨rfl, rfl, rfl, .inr rfl, fun _ => rfl⟩
  · exact ⟨rfl, rfl, rfl, .inl rfl, fun _ => rfl⟩

/-- What a tick does to what is listed. -/
theorem noteTick_lists (record : FeedRecord) (stamps : Stamps) :
    (sequenceVerdict s.lastTickSequence record.sequenceNumber ≠ .violation →
        (s.noteTick record stamps).integrityViolations = s.integrityViolations) ∧
      (∀ size, sequenceVerdict s.lastTickSequence record.sequenceNumber = .gap size →
        (s.noteTick record stamps).gaps ≠ []) ∧
      ((∀ size, sequenceVerdict s.lastTickSequence record.sequenceNumber ≠ .gap size) →
        (s.noteTick record stamps).gaps = s.gaps) ∧
      (s.noteTick record stamps).symbolTicks =
        s.symbolTicks ++ [(record.symbol, record.priceScaled)] ∧
      ((s.noteTick record stamps).lastTimestampNanos = s.lastTimestampNanos ∨
        (s.noteTick record stamps).lastTimestampNanos =
          s.lastTimestampNanos.set record.symbol record.exchangeTimestampNanos) ∧
      ((∀ previous, s.lastTimestampNanos.get? record.symbol = some previous →
        previous ≤ record.exchangeTimestampNanos) →
          (s.noteTick record stamps).orderViolations = s.orderViolations) := by
  obtain ⟨hviolations, hgap, hnogap, hticks, hlatest, horders⟩ :=
    (s.countTick record).checkSequence_lists record.sequenceNumber
  obtain ⟨hviolations', hgaps', hticks', hlatest', horders'⟩ := checkTimestampOrder_lists
    (((s.countTick record).checkSequence record.sequenceNumber).sample record stamps) record
  refine ⟨fun hverdict => ?_, fun size hsize => ?_, fun hverdict => ?_, ?_, ?_, fun hforth => ?_⟩
  · refine hviolations'.trans (hviolations.trans ?_)
    rw [if_neg fun hback => hverdict hback.1]
    rfl
  · rw [noteTick, hgaps']
    exact hgap size hsize
  · exact hgaps'.trans (hnogap hverdict)
  · exact hticks'.trans (congrArg (· ++ [(record.symbol, record.priceScaled)]) hticks)
  · refine hlatest'.imp (fun hsame => hsame.trans hlatest) fun hset => ?_
    exact hset.trans (congrArg (fun m : OrderedMap Symbol8 Int64 =>
      m.set record.symbol record.exchangeTimestampNanos) hlatest)
  · refine (horders' fun previous hprevious => hforth previous ?_).trans horders
    rw [← hprevious]
    exact congrArg (fun m : OrderedMap Symbol8 Int64 => m.get? record.symbol) hlatest.symm

/-- A tick leaves the advertised interval alone. -/
theorem noteTick_heartbeatIntervalMs (record : FeedRecord) (stamps : Stamps) :
    (s.noteTick record stamps).heartbeatIntervalMs = s.heartbeatIntervalMs := by
  have hchecked (t : ProbeSession) (x : UInt64) :
      (t.checkSequence x).heartbeatIntervalMs = t.heartbeatIntervalMs := by
    unfold checkSequence
    cases sequenceVerdict t.lastTickSequence x <;> rfl
  have hordered (t : ProbeSession) :
      (t.checkTimestampOrder record).heartbeatIntervalMs = t.heartbeatIntervalMs := by
    unfold checkTimestampOrder
    split
    · cases t.lastTimestampNanos.get? record.symbol with
      | none => rfl
      | some previous =>
        dsimp only
        split <;> rfl
    · rfl
  exact (hordered _).trans (hchecked _ _)

theorem noteHeartbeat_heartbeatIntervalMs (stamps : Stamps) :
    (s.noteHeartbeat stamps).heartbeatIntervalMs = s.heartbeatIntervalMs := by
  unfold noteHeartbeat
  cases s.lastHeartbeatAt <;> rfl

/-- A tick frame is one tick, whatever its number. -/
theorem dispatchAll_tick (s : ProbeSession) (stamps : Stamps) {record : FeedRecord}
    (htick : record.messageType.isTick = true) (hlisted : Listed record) :
    s.dispatchAll stamps [(record.messageType, tickPayload record)] =
      (noteTick { s with totalBytes := s.totalBytes + frameWireSize record.messageType } record
        stamps, none) := by
  have hwell : (FeedMessage.tick record).WellFormed := ⟨htick, hlisted⟩
  have hread : readPayload record.messageType ⟨[tickPayload record]⟩ = .ok (.tick record) :=
    readPayload_payload hwell (by simp [ReadOnlySequence.toList, FeedMessage.payload])
  have htype : record.messageType ≠ .sessionStart := by
    intro h
    rw [h] at htick
    cases htick
  rw [dispatchAll, dispatch, if_neg htype, hread]
  rfl

/-- A heartbeat frame is one heartbeat. -/
theorem dispatchAll_heartbeat (s : ProbeSession) (stamps : Stamps) (lastSeq : UInt64)
    (timestampNanos : Int64) :
    s.dispatchAll stamps [(.heartbeat, heartbeatPayload lastSeq timestampNanos)] =
      (noteHeartbeat { s with totalBytes := s.totalBytes + frameWireSize .heartbeat } stamps,
        none) := by
  have hread : readPayload .heartbeat ⟨[heartbeatPayload lastSeq timestampNanos]⟩ =
      .ok (.heartbeat lastSeq timestampNanos) :=
    readPayload_payload (m := .heartbeat lastSeq timestampNanos) trivial
      (by simp [ReadOnlySequence.toList, FeedMessage.payload])
  rw [dispatchAll, dispatch, if_neg (by decide), hread]
  rfl

end ProbeSession

/-- A number beyond the last one is the next, or leaves a hole. -/
theorem sequenceVerdict_beyond {last x : UInt64} (h : last.toNat < x.toNat) :
    sequenceVerdict last x = .expected ∧ x.toNat = last.toNat + 1 ∨
      ∃ size : UInt64, sequenceVerdict last x = .gap size ∧
        size.toNat + last.toNat + 1 = x.toNat ∧ 0 < size.toNat := by
  have hx := x.toNat_lt
  have hmax : last.toNat ≠ 18446744073709551615 := by omega
  rcases sequenceVerdict_cases hmax x with ⟨hhole, size, hsize, hverdict⟩ | ⟨hback, -⟩ |
    ⟨hnext, hverdict⟩
  · exact .inr ⟨size, hverdict, by omega, by omega⟩
  · omega
  · exact .inl ⟨hverdict, hnext⟩

namespace Sees

variable {sent : List (Nat × FeedRecord)} {t : ProbeSession}

/-- A session that has seen nothing. -/
theorem nil (o : ProbeOptions) (heartbeatIntervalMs : UInt32) :
    Sees [] (Probe.afterStart o heartbeatIntervalMs) where
  last := rfl
  events := rfl
  lost := rfl
  gaps := ⟨fun _ => rfl, fun _ => rfl⟩
  violations := rfl
  ticks := rfl
  latest _ _ h := by cases h
  ordered _ := rfl

/-- The bytes counted are not among it. -/
theorem totalBytes (h : Sees sent t) (b : Nat) : Sees sent { t with totalBytes := b } :=
  ⟨h.last, h.events, h.lost, h.gaps, h.violations, h.ticks, h.latest, h.ordered⟩

/-- A heartbeat is no record. -/
theorem noteHeartbeat (h : Sees sent t) (stamps : Stamps) : Sees sent (t.noteHeartbeat stamps) := by
  unfold ProbeSession.noteHeartbeat
  cases t.lastHeartbeatAt <;>
    exact ⟨h.last, h.events, h.lost, h.gaps, h.violations, h.ticks, h.latest, h.ordered⟩

/-- A record numbered beyond those seen is one more of them. -/
theorem noteTick (h : Sees sent t) {position : Nat} (record tick : FeedRecord)
    (hbeyond : highest (sent.map Prod.fst) < position)
    (hnumber : tick.sequenceNumber.toNat = position) (hsymbol : tick.symbol = record.symbol)
    (hprice : tick.priceScaled = record.priceScaled)
    (htime : tick.exchangeTimestampNanos = record.exchangeTimestampNanos) (stamps : Stamps) :
    Sees (sent ++ [(position, record)]) (t.noteTick tick stamps) := by
  have hlast := h.last
  have hlost := h.lost
  have hbound := tick.sequenceNumber.toNat_lt
  have hhighest : highest ((sent ++ [(position, record)]).map Prod.fst) = position := by
    rw [List.map_append, List.map_singleton, highest_append_singleton]
    exact max_eq_right hbeyond.le
  have hlength : (sent ++ [(position, record)]).length = sent.length + 1 := by simp
  obtain ⟨hsequence, hmissing, hevents⟩ := t.noteTick_sequence tick stamps
  obtain ⟨hviolations, hgap, hnogap, hticks, hlatest, horders⟩ := t.noteTick_lists tick stamps
  have hverdict := sequenceVerdict_beyond
    (by omega : t.lastTickSequence.toNat < tick.sequenceNumber.toNat)
  refine ⟨?_, ?_, ?_, ?_, ?_, ?_, ?_, fun hforth => ?_⟩
  · rw [hsequence, hhighest, hnumber]
  · rw [hevents, h.events, hlength, UInt64.ofNat_add]
    rfl
  · rw [hlength, hhighest]
    rcases hverdict with ⟨hexpected, hnext⟩ | ⟨size, hsize, hhole, -⟩
    · rw [hmissing, hexpected]
      dsimp only
      omega
    · rw [hmissing, hsize, UInt64.toNat_add, Nat.mod_eq_of_lt (by omega)]
      omega
  · rcases hverdict with ⟨hexpected, hnext⟩ | ⟨size, hsize, hhole, hpos⟩
    · rw [hnogap (by rw [hexpected]; exact nofun), hmissing, hexpected]
      exact h.gaps
    · refine iff_of_false (hgap size hsize) ?_
      rw [hmissing, hsize, UInt64.toNat_add, Nat.mod_eq_of_lt (by omega)]
      omega
  · refine (hviolations ?_).trans h.violations
    rcases hverdict with ⟨hexpected, -⟩ | ⟨size, hsize, -⟩
    · rw [hexpected]
      exact nofun
    · rw [hsize]
      exact nofun
  · rw [hticks, h.ticks, List.map_append, hsymbol, hprice]
    rfl
  · intro symbol previous hprevious
    have hold (hprevious : t.lastTimestampNanos.get? symbol = some previous) :
        ∃ e ∈ sent ++ [(position, record)], e.2.symbol = symbol ∧
          e.2.exchangeTimestampNanos = previous :=
      (h.latest symbol previous hprevious).imp fun e he => ⟨List.mem_append_left _ he.1, he.2⟩
    rcases hlatest with hsame | hset
    · rw [hsame] at hprevious
      exact hold hprevious
    · rw [hset] at hprevious
      by_cases hsame : symbol = tick.symbol
      · rw [hsame, OrderedMap.get?_set_self, Option.some.injEq] at hprevious
        exact ⟨(position, record), by simp, hsymbol.symm.trans hsame.symm,
          htime.symm.trans hprevious⟩
      · rw [OrderedMap.get?_set_of_ne _ _ hsame] at hprevious
        exact hold hprevious
  · rw [List.map_append, List.pairwise_append] at hforth
    obtain ⟨hbefore, -, hlater⟩ := hforth
    refine (horders fun previous hprevious => ?_).trans (h.ordered hbefore)
    obtain ⟨e, he, hesymbol, rfl⟩ := h.latest tick.symbol previous hprevious
    rw [htime]
    exact hlater e.2 (List.mem_map_of_mem he) record (by simp) (hesymbol.trans hsymbol)

/-- What a session's frames behind its start leave behind. -/
theorem dispatchAll {fs : List Outbound} {s : ProbeSession} (hs : Sees [] s)
    (hstarts : ∀ f ∈ fs, f.isSessionStart = false)
    (hlisted : ∀ e ∈ entries fs, Listed e.2)
    (hsorted : (positions fs).Pairwise (· < ·)) (hpos : ∀ p ∈ positions fs, 1 ≤ p)
    (hbound : ∀ p ∈ positions fs, p < 2 ^ 64) (stamps : Stamps) :
    ∃ t, s.dispatchAll stamps (fs.map Outbound.raw) = (t, none) ∧ Sees (entries fs) t ∧
      t.heartbeatIntervalMs = s.heartbeatIntervalMs := by
  induction fs using List.reverseRecOn with
  | nil => exact ⟨s, rfl, hs, rfl⟩
  | append_singleton fs f ih =>
    rw [positions_append, List.pairwise_append] at hsorted
    obtain ⟨hbefore, -, hlater⟩ := hsorted
    obtain ⟨t, hdone, ht, hkept⟩ := ih (fun g hg => hstarts g (by simp [hg]))
      (fun e he => hlisted e (by simp [he])) hbefore (fun p hp => hpos p (by simp [hp]))
      (fun p hp => hbound p (by simp [hp]))
    rw [List.map_append, ProbeSession.dispatchAll_append _ _ hdone, entries_append]
    cases f with
    | sessionStart sessionId heartbeatMs startNanos =>
      have hstart := hstarts (.sessionStart sessionId heartbeatMs startNanos) (by simp)
      cases hstart
    | heartbeat lastPosition timestampNanos =>
      refine ⟨_, t.dispatchAll_heartbeat stamps _ _, ?_, ?_⟩
      · simpa using (ht.totalBytes _).noteHeartbeat stamps
      · rw [ProbeSession.noteHeartbeat_heartbeatIntervalMs]
        exact hkept
    | tick position record =>
      have hlast : highest ((entries fs).map Prod.fst) < position := by
        rw [map_fst_entries]
        rcases highest_mem (positions fs) with hmem | hzero
        · exact hlater _ hmem position (by simp)
        · rw [hzero]
          exact hpos position (by simp)
      have hnumber : (UInt64.ofNat position).toNat = position :=
        UInt64.toNat_ofNat_of_lt' (hbound position (by simp))
      have hin : Listed record.val := hlisted (position, record.val) (by
        rw [entries_append]
        exact List.mem_append_right _ (List.mem_singleton_self _))
      refine ⟨_, @ProbeSession.dispatchAll_tick t stamps { record.val with
        sequenceNumber := UInt64.ofNat position } record.property hin, ?_, ?_⟩
      · exact (ht.totalBytes _).noteTick record.val
          { record.val with sequenceNumber := UInt64.ofNat position } hlast hnumber rfl rfl rfl
          stamps
      · rw [ProbeSession.noteTick_heartbeatIntervalMs]
        exact hkept

end Sees

/-! ## A session of the exchange -/

/-- A run of the session leaves it with a ledger whose first frame is the start. -/
theorem exists_opened {o : FeedServerOptions} {sessionId : Guid} {s : Session}
    {as : List Session.Action} (hguard : (feedSession o sessionId).Guarded StartSent {} as)
    (h : (feedSession o sessionId).run as = some s) :
    ∃ L, Kept s L ∧ Numbered s L ∧ Faithful s L (calls o sessionId as) ∧
      Opened o sessionId s L := by
  exact Machine.run_invariant_with_outputs (m := feedSession o sessionId)
    (f := Session.called) (G := StartSent)
    (I := fun s called => ∃ L, Kept s L ∧ Numbered s L ∧ Faithful s L called ∧
      Opened o sessionId s L)
    (fun s a t called ⟨L, hk, hn, hf, ho⟩ hg hstep =>
      ⟨Feed.record o sessionId s a t L, hk.step hstep, hn.step hk.shutdown hstep,
        hf.step hk.shutdown hstep, ho.step hk.represents hg hstep⟩)
    ⟨{}, kept_init, .init, .init, opened_init⟩ hguard h

/-- What a consumer has of a session: nothing whole, or the start and frames behind it. -/
theorem exists_frames {o : FeedServerOptions} {sessionId : Guid} {s : Session}
    {L : Ledger} (hk : Kept s L) (ho : Opened o sessionId s L) :
    (readFrame s.wire = .ok none ∧ s.wire.length < sessionStartFrameSize ∧ s.sentTicks = []) ∨
      ∃ startNanos fs left part after, L.kept =
          .sessionStart sessionId o.heartbeatIntervalMs startNanos :: fs ++ left ∧
        readFrame s.wire = .ok (some ((.sessionStart,
          sessionStartPayload sessionId o.heartbeatIntervalMs startNanos), after)) ∧
        frameReader.drain after = (fs.map Outbound.raw, .ok part) ∧
        (∀ f ∈ fs, f.isSessionStart = false) ∧
        s.sentTicks = (entries fs).map numberedPayload := by
  obtain ⟨done, left, part, hkept, hwire, hdrain⟩ := hk.represents.drain_wire
  have hsent : s.sentTicks = (entries done).map numberedPayload := by
    rw [Session.sentTicks, hdrain, filterMap_rawTickPayload?, map_numberedPayload_entries]
  have hfirst (hne : L.kept ≠ []) : ∃ startNanos rest,
      L.kept = .sessionStart sessionId o.heartbeatIntervalMs startNanos :: rest := by
    refine ho.first (Bool.not_eq_false _ ▸ fun hs => ?_)
    exact hne (hk.represents.fresh hs).2.2
  cases done with
  | nil =>
    have hnone : readFrame s.wire = .ok none := by
      rcases hframe : frameReader.next s.wire with e | _ | ⟨f, rest⟩
      · rw [frameReader.drain_error hframe] at hdrain
        cases hdrain
      · exact hframe
      · rw [frameReader.drain_some hframe] at hdrain
        cases hdrain
    refine .inl ⟨hnone, ?_, hsent⟩
    by_contra hlong
    have hne : L.kept ≠ [] := fun hempty => by
      have hstarts := hk.represents.wire_prefix_kept
      rw [hempty, frames_nil, List.prefix_nil] at hstarts
      rw [hstarts] at hlong
      exact hlong (by decide)
    obtain ⟨startNanos, rest, hstart⟩ := hfirst hne
    have hstarts : (FeedMessage.sessionStart sessionId o.heartbeatIntervalMs startNanos).frame <+:
        s.wire := by
      refine List.prefix_of_prefix_length_le ?_ hk.represents.wire_prefix_kept ?_
      · rw [hstart, frames, List.flatMap_cons]
        exact List.prefix_append _ _
      · rw [FeedMessage.frame_length
          (m := .sessionStart sessionId o.heartbeatIntervalMs startNanos) trivial]
        exact Nat.le_of_not_lt hlong
    obtain ⟨more, hmore⟩ := hstarts
    rw [← hmore, readFrame_frame
      (m := .sessionStart sessionId o.heartbeatIntervalMs startNanos) trivial] at hnone
    cases hnone
  | cons f fs =>
    obtain ⟨startNanos, rest, hstart⟩ := hfirst (by simp [hkept])
    rw [hkept, List.cons_append, List.cons.injEq] at hstart
    obtain ⟨rfl, rfl⟩ := hstart
    have hframe : readFrame s.wire = .ok (some ((.sessionStart,
        sessionStartPayload sessionId o.heartbeatIntervalMs startNanos), frames fs ++ part)) := by
      rw [hwire, frames, List.flatMap_cons, List.append_assoc]
      exact readFrame_frame (m := .sessionStart sessionId o.heartbeatIntervalMs startNanos)
        trivial _
    refine .inr ⟨startNanos, fs, left, part, frames fs ++ part, hkept, hframe, ?_, fun g hg => ?_,
      hsent⟩
    · have hcons := frameReader.drain_some (b := s.wire) hframe
      rw [hdrain, List.map_cons, Prod.mk.injEq, List.cons.injEq] at hcons
      exact Prod.ext hcons.1.2.symm hcons.2.symm
    · have hstarts := hk.shape.starts
      have hnone : fs.countP Outbound.isSessionStart = 0 := by
        rw [hkept, List.cons_append, List.cons_append, List.countP_cons_of_pos rfl,
          List.append_assoc, List.countP_append] at hstarts
        split_ifs at hstarts
        omega
      exact Bool.eq_false_iff.mpr (List.countP_eq_zero.mp hnone g hg)

/-- The number of a tick on the wire exceeds its rank by the losses numbered below it. -/
theorem number_eq_rank {s : Session} {L : Ledger} (hk : Kept s L) (hn : Numbered s L)
    {done left : List Nat} (hkept : positions L.kept = done ++ left) {i : Nat}
    (hi : i < done.length) :
    done[i] = i + 1 + (s.withheld ++ positions L.dropped).countP (· < done[i]) := by
  obtain ⟨count, hnumbers, -⟩ := hn
  have hlong : i < (positions L.kept).length := by
    rw [hkept, List.length_append]
    omega
  have hget : (positions L.kept)[i] = done[i] := by
    simp only [hkept, List.getElem_append_left hi]
  rw [List.append_assoc] at hnumbers
  have hrank := number_eq_rank_add_losses hk.ordered.sorted hnumbers i hlong
  rw [hget, List.countP_append] at hrank
  -- A skip under way has reserved numbers above every kept tick.
  have hreserved : s.publisher.reserved.countP (· < done[i]) = 0 := by
    rw [List.countP_eq_zero]
    intro q hq
    have hlt := hk.ordered.reserved _ (List.getElem_mem hlong) q hq
    rw [hget] at hlt
    simp only [decide_eq_true_eq]
    omega
  omega

/-- What the report says of a session that offered some records, of which some were sent under
their numbers and some lost. -/
structure Tells (options : ProbeOptions) (o : FeedServerOptions) (sessionId : Guid)
    (offered : List FeedRecord) (sent : List (Nat × FeedRecord)) (lost : List Nat)
    (report : ProbeReport) : Prop where
  sessionEstablished : report.sessionEstablished = true
  sessionId : report.sessionId = sessionId
  heartbeatInterval : report.heartbeatIntervalMsAdvertised = o.heartbeatIntervalMs
  endReason : report.endReason = some .eof
  framingErrors : report.framingErrors = []
  integrityViolations : report.integrityViolations = []
  eventsReceived : report.eventsReceived = UInt64.ofNat sent.length
  symbolTicks : report.symbolTicks = sent.map fun e => (e.2.symbol, e.2.priceScaled)
  recordsLost : report.recordsLost.toNat = lost.countP (· < highest (sent.map Prod.fst))
  orderViolations : offered.Pairwise InOrder → report.orderViolations = []
  exitCode : ∀ offRate, report.exitCode offRate =
    if options.expectDrops = false ∧ ∃ n ∈ lost, n < highest (sent.map Prod.fst) then 1
    else if offRate then 2 else 0

/-- The losses below the last number, counted on either side. -/
theorem lost_eq_countP {s : Session} {L : Ledger} (hk : Kept s L) (hn : Numbered s L)
    {sent : List (Nat × FeedRecord)} {left : List Nat}
    (hkept : positions L.kept = sent.map Prod.fst ++ left) {lost : Nat}
    (hlost : lost + sent.length = highest (sent.map Prod.fst)) :
    lost = (s.withheld ++ positions L.dropped).countP (· < highest (sent.map Prod.fst)) := by
  rcases List.eq_nil_or_concat sent with rfl | ⟨before, e, rfl⟩
  · have hnone : highest (([] : List (Nat × FeedRecord)).map Prod.fst) = 0 := rfl
    rw [hnone] at hlost ⊢
    simpa using hlost
  · rw [List.concat_eq_append] at hkept hlost ⊢
    have hsorted : ((before ++ [e]).map Prod.fst).Pairwise (· < ·) :=
      (hkept ▸ hk.ordered.sorted).sublist (List.sublist_append_left _ _)
    rw [List.map_append, List.pairwise_append] at hsorted
    have hin : before.length < ((before ++ [e]).map Prod.fst).length := by simp
    have hrank := number_eq_rank hk hn hkept hin
    have hlast : ((before ++ [e]).map Prod.fst)[before.length] = e.1 := by simp
    have hhighest : highest ((before ++ [e]).map Prod.fst) = e.1 := by
      rw [List.map_append, List.map_singleton, highest_append_singleton]
      refine max_eq_right ?_
      rcases highest_mem (before.map Prod.fst) with hmem | hzero
      · exact (hsorted.2.2 _ hmem e.1 (by simp)).le
      · rw [hzero]
        exact Nat.zero_le _
    rw [hlast] at hrank
    rw [hhighest, List.length_append, List.length_singleton] at hlost
    rw [hhighest]
    omega

/-- The report of a session that was read to its end, its start included. -/
theorem tells_atOnce {o : FeedServerOptions} {sessionId : Guid} {s : Session} {L : Ledger}
    {offered : List FeedRecord} (hk : Kept s L) (hn : Numbered s L) (hf : Faithful s L offered)
    (hlisted : ∀ record ∈ offered, Listed record) (hbound : s.nextSequence ≤ 2 ^ 64)
    {startNanos : Int64} {fs left : List Outbound} {part after : Bytes}
    (hkept : L.kept = .sessionStart sessionId o.heartbeatIntervalMs startNanos :: fs ++ left)
    (hframe : readFrame s.wire = .ok (some ((.sessionStart,
      sessionStartPayload sessionId o.heartbeatIntervalMs startNanos), after)))
    (hdrain : frameReader.drain after = (fs.map Outbound.raw, .ok part))
    (hstarts : ∀ f ∈ fs, f.isSessionStart = false) (options : ProbeOptions) (stamps : Stamps) :
    Excerpt offered (entries fs) ∧
      ∀ outcome, Tells options o sessionId offered (entries fs)
        (s.withheld ++ positions L.dropped)
        { (Probe.atOnce options stamps s.wire).buildReport options with
          stallOutcome := outcome } := by
  have hpositions : positions L.kept = positions fs ++ positions left := by
    rw [hkept, List.cons_append, positions_sessionStart, positions_append]
  have hsorted : (positions fs).Pairwise (· < ·) :=
    (hpositions ▸ hk.ordered.sorted).sublist (List.sublist_append_left _ _)
  have hstands : ∀ e ∈ entries fs, StandsIn offered e := fun e he => hf.stands e (by
    rw [Ledger.produced, hkept, List.cons_append, List.cons_append, entries_sessionStart,
      entries_append, entries_append]
    exact List.mem_append_left _ (List.mem_append_left _ he))
  have hexcerpt : Excerpt offered (entries fs) := ⟨by rwa [map_fst_entries], hstands⟩
  obtain ⟨t, hdone, ht, hinterval⟩ := Sees.dispatchAll
    (Sees.nil options o.heartbeatIntervalMs) hstarts
    (fun e he => hlisted e.2 (List.mem_of_getElem? (hstands e he).2)) hsorted
    (fun p hp => by
      rw [← map_fst_entries] at hp
      obtain ⟨e, he, rfl⟩ := List.mem_map.mp hp
      exact (hstands e he).1)
    (fun p hp => Nat.lt_of_lt_of_le
      (hk.ordered.bound p (hpositions ▸ List.mem_append_left _ hp)) hbound) stamps
  have htaken : (Probe.afterStart options o.heartbeatIntervalMs).takeIn stamps
      (frameReader.drain after) = (t, .ok part) := by
    rw [ProbeSession.takeIn, hdrain, hdone]
  have hsent : positions L.kept = (entries fs).map Prod.fst ++ positions left := by
    rw [map_fst_entries, hpositions]
  have hlost := lost_eq_countP hk hn hsent ht.lost
  have hread := @Probe.atOnce_of_start options stamps _ _ _ _ _ _ hframe
    (readSessionStart_sessionStartPayload sessionId o.heartbeatIntervalMs startNanos)
  rw [htaken] at hread
  refine ⟨hexcerpt, fun outcome => ?_⟩
  rw [hread]
  refine ⟨rfl, rfl, hinterval, rfl, rfl, ht.violations, ht.events, ht.ticks, hlost,
    fun hforth => ht.ordered (hexcerpt.pairwise hforth), fun offRate => ?_⟩
  have hgaps : 0 < t.gaps.length ↔ ∃ n ∈ s.withheld ++ positions L.dropped,
      n < highest ((entries fs).map Prod.fst) := by
    rw [List.length_pos_iff, ne_eq, ht.gaps, hlost, ← ne_eq, ← Nat.pos_iff_ne_zero,
      List.countP_pos_iff]
    simp only [decide_eq_true_eq]
  change determineExitCode true 0 t.integrityViolations.length t.gaps.length options.expectDrops
    offRate = _
  rw [determineExitCode, ht.violations]
  simp only [hgaps, List.length_nil, Nat.lt_irrefl, false_or, Bool.not_true, Bool.false_eq_true,
    if_false, and_comm]

/-- The report of a probe that was refused a session. -/
def refusedReport (options : ProbeOptions) (wire : Bytes) : ProbeReport :=
  Probe.buildReport { Probe.opened options with unread := wire, phase := .ended .refused } options

/-- What a probe reports that has read a session's wire to its end. -/
theorem report_of_session (o : FeedServerOptions) (sessionId : Guid) {s : Session}
    {as : List Session.Action} (hguard : (feedSession o sessionId).Guarded StartSent {} as)
    (hrun : (feedSession o sessionId).run as = some s)
    (hlisted : ∀ record ∈ calls o sessionId as, Listed record) (hbound : s.nextSequence ≤ 2 ^ 64)
    (options : ProbeOptions) {reads : List Probe.Action} {p : Probe}
    (hdelivers : Probe.Delivers s.wire reads)
    (hprobe : (probe options).run (.connected :: reads) = some p) {reason : EndReason}
    (hended : p.phase = .ended reason) :
    (s.wire.length < sessionStartFrameSize ∧
      p.buildReport options =
        { refusedReport options s.wire with stallOutcome := p.stallOutcome }) ∨
    (sessionStartFrameSize ≤ s.wire.length ∧ ∃ sent discarded,
      s.sentTicks = sent.map numberedPayload ∧ Excerpt (calls o sessionId as) sent ∧
      s.discardedTicks = discarded.map UInt64.ofNat ∧
      Tells options o sessionId (calls o sessionId as) sent (s.withheld ++ discarded)
        (p.buildReport options)) := by
  obtain ⟨L, hk, hn, hf, ho⟩ := exists_opened hguard hrun
  have hwhole := Probe.report_of_delivery options ⟨0, 0, 0⟩ hdelivers hprobe hended
  rcases exists_frames hk ho with ⟨hnone, hshort, -⟩ |
    ⟨startNanos, fs, left, part, after, hkept, hframe, hdrain, hstarts, hsent⟩
  · refine .inl ⟨hshort, ?_⟩
    have hrefused : (Probe.opened options).establishWith s.wire true =
        { Probe.opened options with unread := s.wire, phase := .ended .refused } := by
      rw [Probe.establishWith, hnone, if_pos rfl]
    rw [hwhole, Probe.atOnce_of_no_start (by simp [hrefused]), hrefused]
    rfl
  · obtain ⟨hexcerpt, htells⟩ := tells_atOnce hk hn hf hlisted hbound hkept hframe hdrain hstarts
      options ⟨0, 0, 0⟩
    obtain ⟨-, hlength, -⟩ := readFrame_eq_some_iff.mp hframe
    refine .inr ⟨hlength, entries fs, positions L.dropped, hsent, hexcerpt, ?_, ?_⟩
    · rw [Session.discardedTicks, hk.represents.discarded, tickNumbers_frames]
    · rw [hwhole]
      exact htells p.stallOutcome

/-- A wire in two reads, the peer closing its side with the second. -/
def twoReads (wire : Bytes) (size : Nat) : List Probe.Action :=
  [.read ⟨wire.take size, [20, 7], false, ⟨0, 0, 0⟩⟩,
    .read ⟨wire.drop size, [], true, ⟨5, 5, 5⟩⟩]

theorem delivers_twoReads (wire : Bytes) (size : Nat) :
    Probe.Delivers wire (twoReads wire size) where
  actions a ha := by
    simp only [twoReads, List.mem_cons, List.not_mem_nil, or_false] at ha
    rcases ha with rfl | rfl <;> exact .inl ⟨_, rfl⟩
  initial := by simp [Probe.received, twoReads, Probe.Action.chunk]
  whole before r after h hcompleted := by
    rcases before with _ | ⟨first, _ | ⟨second, others⟩⟩
    · simp only [twoReads, List.nil_append, List.cons.injEq, Probe.Action.read.injEq] at h
      rw [← h.1] at hcompleted
      cases hcompleted
    · simp only [twoReads, List.cons_append, List.nil_append, List.cons.injEq,
        Probe.Action.read.injEq] at h
      rw [← h.1, ← h.2.1]
      simp [Probe.received, Probe.Action.chunk]
    · simp [twoReads] at h

/-- The probe that has read the session with the late discard. -/
def lateProbe : Probe :=
  ((probe {}).run (.connected :: twoReads lateDiscardSession.wire 50)).getD {}

end Tckr.FeedProbe
