import Tckr.Core.Newest
import Tckr.MarketWatch.Pages.DetailVolume

/-!
# Newer wins on the detail page

A tick is held in one of three places: queued while the page loads, pending until the
next beat, or merged into what is shown. Each holds the newest of what it has seen as
long as a tick that replaces the queued one is no older, and a beat that follows the last
event leaves all of it in what is shown. A stream switch empties the three, but not the
snapshot that the page asked for as it mounted.
-/

namespace Tckr.MarketWatch

/-- What an event says of its symbol. -/
structure Reading where
  price : DecimalString
  exchangeTimestamp : String
  stream : Stream
  deriving DecidableEq

def Tick.reading (tick : Tick) : Reading := ⟨tick.p, tick.t, tick.st⟩

def Snapshot.reading (snapshot : Snapshot) : Reading :=
  ⟨snapshot.price, snapshot.exchangeTimestamp, snapshot.stream⟩

def DetailQuote.reading (quote : DetailQuote) : Reading :=
  ⟨quote.price, quote.exchangeTimestamp, quote.stream⟩

/-- The page, and the snapshot it asks for as it mounts. -/
structure DetailPage where
  page : UseDetailQuote
  /-- The snapshot asked for has neither come nor failed. -/
  inFlight : Bool := true
  /-- The stream has been switched since the snapshot was asked for. -/
  switched : Bool := false
  /-- The snapshots ingested since the mount or the last switch, other than one asked for before. -/
  snapshots : List Snapshot := []
  deriving DecidableEq

namespace DetailPage

variable (p : DetailPage)

/-- The snapshots with one that the page ingests. -/
def ingested (snapshot : Snapshot) : List Snapshot :=
  if p.page.Handles snapshot.symbol then p.snapshots ++ [snapshot] else p.snapshots

inductive Action
  /-- A callback or a turn of the page; a snapshot is a pushed one. -/
  | on (action : UseDetailQuote.Action)
  /-- The snapshot asked for arrives. -/
  | fetched (snapshot : Snapshot)
  /-- The request for it fails. -/
  | failed
  deriving DecidableEq

def step : Action → Option DetailPage
  | .on .entitlement =>
      some { p with page := p.page.onEntitlement, switched := true, snapshots := [] }
  | .on (.snapshot snapshot) =>
      some { p with page := p.page.ingestSnapshot snapshot, snapshots := p.ingested snapshot }
  | .on action => (p.page.step action).map fun page => { p with page := page }
  | .fetched snapshot =>
      if p.inFlight then
        some { p with
          page := p.page.ingestSnapshot snapshot
          inFlight := false
          snapshots := if p.switched then p.snapshots else p.ingested snapshot }
      else none
  | .failed =>
      if p.inFlight then some { p with page := p.page.markNotFound, inFlight := false } else none

/-- What has been received since the mount or the last switch. -/
def received : List Reading :=
  p.page.ticks.map Tick.reading ++ p.snapshots.map Snapshot.reading

/-- What the page shows of the symbol after a beat that follows the last event. -/
def shown : Option DetailQuote :=
  if p.page.displayed.phase = .ready then p.page.displayed.quote else none

def shownExtras : Option OhlcExtras :=
  if p.page.displayed.phase = .ready then p.page.displayed.extras else none

/-- What is shown is the newest of what has been received since the mount or the last switch,
and as soon as the page is ready something is. -/
structure ShowsNewest : Prop where
  mem : ∀ quote ∈ p.shown, quote.reading ∈ p.received
  newest : ∀ quote ∈ p.shown, ∀ r ∈ p.received, r.exchangeTimestamp ≤ quote.exchangeTimestamp
  extras : ∀ extras ∈ p.shownExtras, ∃ snapshot ∈ p.snapshots, extras = extrasFromSnapshot snapshot
  isSome : p.page.phaseRef = .ready → p.received ≠ [] → p.shown.isSome = true

/-- A tick that arrives while the page loads is no older than the queued one; the snapshot asked
for does not arrive after a switch. -/
def Orderly : Action → Prop
  | .on (.tick tick) => p.page.Handles tick.s → p.page.phaseRef = .loading →
      ∀ queued ∈ p.page.queuedTickRef, queued.t ≤ tick.t
  | .fetched snapshot => p.page.Handles snapshot.symbol → p.switched = false
  | _ => True

instance (a : Action) : Decidable (p.Orderly a) := by
  unfold Orderly
  split <;> infer_instance

end DetailPage

/-- The page of a symbol with its request, in every order of their events. -/
def detailPage (symbol : String) : Machine DetailPage DetailPage.Action where
  init := { page := { symbol := symbol } }
  step p a := p.step a

namespace UseDetailQuote

variable {s t : UseDetailQuote}

/-! ## What the queued updaters come to -/

/-- What a queued call makes of what is shown, whatever the refs are. -/
def readingAfter (prev : Option Reading) : StateUpdate → Option Reading
  | .clear => none
  | .snapshot snapshot => newerOrHeld Reading.exchangeTimestamp prev snapshot.reading
  | .tick tick => heldOrNewer Reading.exchangeTimestamp prev tick.reading
  | .phase _ => prev

def phaseAfter (prev : Phase) : StateUpdate → Phase
  | .phase phase => phase
  | _ => prev

/-- What is shown once every queued updater has run. -/
def settledReading (s : UseDetailQuote) : Option Reading :=
  s.updates.foldl readingAfter (s.quote.map DetailQuote.reading)

def settledPhase (s : UseDetailQuote) : Phase := s.updates.foldl phaseAfter s.phase

def settledExtras (s : UseDetailQuote) : Option OhlcExtras :=
  s.updates.foldl updatedExtras s.extras

theorem updatedQuote_reading (s : UseDetailQuote) (prev : Option DetailQuote) (u : StateUpdate) :
    (s.updatedQuote prev u).map DetailQuote.reading =
      readingAfter (prev.map DetailQuote.reading) u := by
  cases u with
  | clear => rfl
  | phase phase => rfl
  | snapshot snapshot =>
    cases prev with
    | none => rfl
    | some prev =>
      by_cases holder : snapshot.exchangeTimestamp < prev.exchangeTimestamp
      · simp [updatedQuote, mergeSnapshotIntoQuote, readingAfter, newerOrHeld, DetailQuote.reading,
          Snapshot.reading, holder]
      · simp [updatedQuote, mergeSnapshotIntoQuote, readingAfter, newerOrHeld, DetailQuote.reading,
          Snapshot.reading, quoteFromSnapshot, holder]
  | tick tick =>
    cases prev with
    | none => rfl
    | some prev =>
      by_cases holder : tick.t ≤ prev.exchangeTimestamp
      · simp [updatedQuote, mergeTickIntoQuote, readingAfter, heldOrNewer, DetailQuote.reading,
          Tick.reading, holder]
      · simp [updatedQuote, mergeTickIntoQuote, readingAfter, heldOrNewer, DetailQuote.reading,
          Tick.reading, quoteFromTick, holder]

/-- Running an updater changes nothing about what the queue comes to. -/
theorem settled_update {u : StateUpdate} {us : List StateUpdate} (hu : s.updates = u :: us) :
    ({ s with updates := us }.update u).settledReading = s.settledReading ∧
      ({ s with updates := us }.update u).settledPhase = s.settledPhase ∧
      ({ s with updates := us }.update u).settledExtras = s.settledExtras := by
  have hquote : ({ s with updates := us }.update u).quote.map DetailQuote.reading =
      readingAfter (s.quote.map DetailQuote.reading) u :=
    updatedQuote_reading { s with updates := us } s.quote u
  simp only [settledReading, settledPhase, settledExtras, hu, List.foldl_cons, hquote]
  refine ⟨rfl, ?_, rfl⟩
  cases u <;> rfl

/-! ## What is held where -/

/-- The page is becoming ready: the effect of that is due, or will be. -/
def BecomesReady (s : UseDetailQuote) : Prop :=
  s.effectDue = true ∨ s.phase ≠ .ready ∧ .phase .ready ∈ s.updates

@[simp] theorem update_phase (s : UseDetailQuote) (phase : Phase) :
    (s.update (.phase phase)).phase = phase := rfl

@[simp] theorem update_ready (s : UseDetailQuote) :
    (s.update (.phase .ready)).effectDue = (s.effectDue || decide (s.phase ≠ .ready)) := rfl

/-- An effect that is due stays due until it runs. -/
theorem effectDue_update (hdue : s.effectDue = true) (u : StateUpdate) :
    (s.update u).effectDue = true := by
  cases u with
  | phase phase =>
    cases phase with
    | ready => simp [hdue]
    | _ => exact hdue
  | _ => exact hdue

theorem BecomesReady.update (h : s.BecomesReady) {u : StateUpdate} {us : List StateUpdate}
    (hu : s.updates = u :: us) : ({ s with updates := us }.update u).BecomesReady := by
  obtain hdue | ⟨hphase, hmem⟩ := h
  · exact .inl (effectDue_update hdue u)
  · rw [hu, List.mem_cons] at hmem
    cases u with
    | phase phase =>
      cases phase with
      | ready => exact .inl (by simp [hphase])
      | _ => exact .inr ⟨by simp, hmem.resolve_left (by simp)⟩
    | _ => exact .inr ⟨hphase, hmem.resolve_left (by simp)⟩

/-- What has been received since the last reset. -/
def seen (s : UseDetailQuote) : Set Reading :=
  {r | r ∈ s.ticks.map Tick.reading ∨ r ∈ s.snapshots.map Snapshot.reading}

theorem seen_count (s : UseDetailQuote) (tick : Tick) :
    (s.count tick).seen = s.seen ∪ {tick.reading} := by
  ext r
  simp [seen, count, or_comm, or_left_comm]

theorem seen_append (s : UseDetailQuote) (snapshot : Snapshot) :
    { s with snapshots := s.snapshots ++ [snapshot] }.seen = s.seen ∪ {snapshot.reading} := by
  ext r
  simp [seen, or_comm, or_assoc]

/-- The three places hold the newest of what each has seen, and have seen all between them. -/
structure HoldsNewest (s : UseDetailQuote) (merged waiting held : Set Reading) : Prop where
  shown : Newest Reading.exchangeTimestamp merged s.settledReading
  pending : Newest Reading.exchangeTimestamp waiting (s.pendingTick.map Tick.reading)
  queued : Newest Reading.exchangeTimestamp held (s.queuedTickRef.map Tick.reading)
  seen : s.seen = merged ∪ waiting ∪ held

/-- What holds of a page whose ticks are queued in order. -/
structure NewerWins (s : UseDetailQuote) : Prop where
  holds : ∃ merged waiting held, s.HoldsNewest merged waiting held
  /-- What is queued when the page is ready is about to be merged. -/
  queued : s.phaseRef = .ready → s.queuedTickRef ≠ none → s.BecomesReady
  loading : s.phaseRef = .loading → s.phase ≠ .ready ∧ .phase .ready ∉ s.updates
  settles : s.settledPhase = s.phaseRef
  extras : ∀ extras ∈ s.settledExtras,
    ∃ snapshot ∈ s.snapshots, extras = extrasFromSnapshot snapshot

/-- The figures after a snapshot are what they were or the snapshot's. -/
theorem mem_mergeSnapshotIntoExtras {prev : Option OhlcExtras} {snapshot : Snapshot}
    {extras : OhlcExtras} (h : extras ∈ mergeSnapshotIntoExtras prev snapshot) :
    extras ∈ prev ∨ extras = extrasFromSnapshot snapshot := by
  unfold mergeSnapshotIntoExtras at h
  split at h
  · split at h
    · exact .inl h
    · exact .inr (Option.mem_some_iff.mp h).symm
  · exact .inr (Option.mem_some_iff.mp h).symm

/-! ### Ticks -/

theorem throttledApplyTick_reading (s : UseDetailQuote) (tick : Tick) :
    (s.throttledApplyTick tick).map Tick.reading = newerOrHeld Reading.exchangeTimestamp
      (s.pendingTick.map Tick.reading) tick.reading := by
  unfold throttledApplyTick
  cases s.pendingTick with
  | none => rfl
  | some pending =>
    by_cases hle : pending.t ≤ tick.t
    · simp [newerOrHeld, Tick.reading, hle, not_lt.mpr hle]
    · simp [newerOrHeld, Tick.reading, hle, not_le.mp hle]

namespace NewerWins

theorem init (symbol : String) : NewerWins { symbol := symbol } where
  holds := ⟨∅, ∅, ∅, .empty _, .empty _, .empty _, by simp [seen]⟩
  queued := by simp
  loading _ := by simp
  settles := rfl
  extras := by simp [settledExtras]

/-- A tick that replaces no newer one is queued while the page loads. -/
theorem queue (h : NewerWins s) {tick : Tick} (hloading : s.phaseRef = .loading)
    (hg : ∀ queued ∈ s.queuedTickRef, queued.t ≤ tick.t) :
    NewerWins { s.count tick with queuedTickRef := some tick } := by
  obtain ⟨merged, waiting, held, hs⟩ := h.holds
  have hkept : KeepsNewer Reading.exchangeTimestamp (s.queuedTickRef.map Tick.reading)
      tick.reading (some tick.reading) := by
    refine keepsNewer_some fun old hold => ?_
    obtain ⟨k, hk, rfl⟩ := Option.map_eq_some_iff.mp hold
    exact hg k hk
  exact
  { holds := ⟨merged, waiting, held ∪ {tick.reading}, hs.shown, hs.pending,
      hs.queued.union (.singleton _ _) hkept, by
        rw [← Set.union_assoc, ← hs.seen]
        exact seen_count s tick⟩
    queued := fun hready => absurd (hloading.symm.trans hready) (by simp)
    loading := h.loading
    settles := h.settles
    extras := h.extras }

/-- A tick that arrives when the page is ready waits for the beat, or a newer one does. -/
theorem throttle (h : NewerWins s) (tick : Tick) :
    NewerWins { s.count tick with pendingTick := s.throttledApplyTick tick } := by
  obtain ⟨merged, waiting, held, hs⟩ := h.holds
  have hpending : Newest Reading.exchangeTimestamp (waiting ∪ {tick.reading})
      ((s.throttledApplyTick tick).map Tick.reading) := by
    rw [throttledApplyTick_reading]
    exact hs.pending.union (.singleton _ _) (keepsNewer_newerOrHeld _ _ _)
  exact
  { holds := ⟨merged, waiting ∪ {tick.reading}, held, hs.shown, hpending, hs.queued, by
      rw [← Set.union_assoc, Set.union_right_comm, ← hs.seen]
      exact seen_count s tick⟩
    queued := h.queued
    loading := h.loading
    settles := h.settles
    extras := h.extras }

theorem onTick (h : NewerWins s) {tick : Tick} (hg : s.Handles tick.s → s.phaseRef = .loading →
    ∀ queued ∈ s.queuedTickRef, queued.t ≤ tick.t) : NewerWins (s.onTick tick) := by
  unfold UseDetailQuote.onTick
  split
  · exact h
  · rename_i hhandles
    obtain ⟨hsymbol, hphase⟩ := not_or.mp hhandles
    split
    · rename_i hloading
      exact h.queue hloading (hg ⟨not_not.mp hsymbol, hphase⟩ hloading)
    · exact h.throttle tick

/-! ### Merging -/

/-- A beat merges the pending tick into what is shown. -/
theorem onBeat (h : NewerWins s) : NewerWins s.onBeat := by
  unfold UseDetailQuote.onBeat
  split
  · exact h
  · rename_i tick hpending
    obtain ⟨merged, waiting, held, hs⟩ := h.holds
    have hfresh : Newest Reading.exchangeTimestamp waiting (some tick.reading) := by
      simpa [hpending] using hs.pending
    refine ⟨⟨merged ∪ waiting, ∅, held, ?_, .empty _, hs.queued, ?_⟩, fun hready hqueued => ?_,
      by simpa using h.loading, ?_, ?_⟩
    · simpa [settledReading, readingAfter] using
        hs.shown.union hfresh (keepsNewer_heldOrNewer _ _ _)
    · rw [Set.union_empty]
      exact hs.seen
    · exact (h.queued hready hqueued).imp_right fun ⟨hphase, hmem⟩ =>
        ⟨hphase, List.mem_append_left _ hmem⟩
    · simpa [settledPhase, phaseAfter] using h.settles
    · simpa [settledExtras, updatedExtras] using h.extras

/-- The effect of becoming ready merges the queued tick. -/
theorem paintQueued (h : NewerWins s) : NewerWins s.paintQueued := by
  unfold UseDetailQuote.paintQueued
  obtain ⟨merged, waiting, held, hs⟩ := h.holds
  split
  · rename_i hqueued
    exact
    { holds := ⟨merged, waiting, held, hs.shown, hs.pending, hs.queued, hs.seen⟩
      queued := fun _ hne => absurd hqueued hne
      loading := h.loading
      settles := h.settles
      extras := h.extras }
  · rename_i tick hqueued
    have hfresh : Newest Reading.exchangeTimestamp held (some tick.reading) := by
      simpa [hqueued] using hs.queued
    refine ⟨⟨merged ∪ held, waiting, ∅, ?_, hs.pending, .empty _, ?_⟩, fun _ hne => absurd rfl hne,
      by simpa using h.loading, ?_, ?_⟩
    · simpa [settledReading, readingAfter] using
        hs.shown.union hfresh (keepsNewer_heldOrNewer _ _ _)
    · rw [Set.union_empty, Set.union_right_comm]
      exact hs.seen
    · simpa [settledPhase, phaseAfter] using h.settles
    · simpa [settledExtras, updatedExtras] using h.extras

theorem update (h : NewerWins s) {u : StateUpdate} {us : List StateUpdate}
    (hu : s.updates = u :: us) : NewerWins ({ s with updates := us }.update u) := by
  obtain ⟨hreading, hphase, hextras⟩ := settled_update hu
  obtain ⟨merged, waiting, held, hs⟩ := h.holds
  refine ⟨⟨merged, waiting, held, ?_, hs.pending, hs.queued, hs.seen⟩,
    fun hready hqueued => (h.queued hready hqueued).update hu, fun hloading => ?_,
    hphase.trans h.settles, ?_⟩
  · rw [hreading]
    exact hs.shown
  · obtain ⟨hready, hmem⟩ := h.loading hloading
    rw [hu, List.mem_cons, not_or] at hmem
    refine ⟨?_, hmem.2⟩
    cases u with
    | phase phase =>
      rw [update_phase]
      exact fun hphase => hmem.1 (by rw [hphase])
    | _ => exact hready
  · rw [hextras]
    exact h.extras

/-! ### The other callbacks -/

theorem ingestSnapshot (h : NewerWins s) (snapshot : Snapshot) :
    NewerWins (s.ingestSnapshot snapshot) := by
  unfold UseDetailQuote.ingestSnapshot
  split
  · exact h
  · rename_i hhandles
    obtain ⟨merged, waiting, held, hs⟩ := h.holds
    refine ⟨⟨merged ∪ {snapshot.reading}, waiting, held, ?_, hs.pending, hs.queued, ?_⟩,
      fun _ hqueued => ?_, by simp, by simp [settledPhase, phaseAfter], fun extras hextras => ?_⟩
    · simpa [settledReading, readingAfter] using
        hs.shown.union (.singleton _ _) (keepsNewer_newerOrHeld _ _ snapshot.reading)
    · rw [Set.union_right_comm merged, Set.union_right_comm, ← hs.seen]
      exact seen_append s snapshot
    · cases hphase : s.phaseRef with
      | loading => exact .inr ⟨(h.loading hphase).1, by simp⟩
      | ready =>
        exact (h.queued hphase hqueued).imp_right fun ⟨hne, hmem⟩ =>
          ⟨hne, List.mem_append_left _ hmem⟩
      | notFound => exact absurd hphase (not_or.mp hhandles).2
    · have hmerged : extras ∈ mergeSnapshotIntoExtras s.settledExtras snapshot := by
        simpa [settledExtras, updatedExtras] using hextras
      obtain hold | rfl := mem_mergeSnapshotIntoExtras hmerged
      · obtain ⟨earlier, hearlier, hextras⟩ := h.extras extras hold
        exact ⟨earlier, List.mem_append_left _ hearlier, hextras⟩
      · exact ⟨snapshot, by simp, rfl⟩

/-- A switch empties the three places. -/
theorem onEntitlement (h : NewerWins s) : NewerWins s.onEntitlement where
  holds := by
    have hcleared : s.onEntitlement.settledReading = none := by
      simp [settledReading, UseDetailQuote.onEntitlement, readingAfter]
    refine ⟨∅, ∅, ∅, ?_, .empty _, .empty _, by simp [seen, UseDetailQuote.onEntitlement]⟩
    rw [hcleared]
    exact .empty _
  queued _ hqueued := absurd rfl hqueued
  loading := by simpa [UseDetailQuote.onEntitlement] using h.loading
  settles := by simpa [settledPhase, phaseAfter, UseDetailQuote.onEntitlement] using h.settles
  extras := by simp [settledExtras, updatedExtras, UseDetailQuote.onEntitlement]

theorem markNotFound (h : NewerWins s) : NewerWins s.markNotFound := by
  unfold UseDetailQuote.markNotFound
  split
  · exact h
  · obtain ⟨merged, waiting, held, hs⟩ := h.holds
    refine ⟨⟨merged, waiting, held, ?_, hs.pending, hs.queued, hs.seen⟩, by simp, by simp,
      by simp [settledPhase, phaseAfter], ?_⟩
    · simpa [settledReading, readingAfter] using hs.shown
    · simpa [settledExtras, updatedExtras] using h.extras

/-- What one callback or turn of the page preserves. -/
theorem step (h : NewerWins s) {a : Action} (hg : ∀ tick, a = .tick tick → s.Handles tick.s →
    s.phaseRef = .loading → ∀ queued ∈ s.queuedTickRef, queued.t ≤ tick.t)
    (ht : s.step a = some t) : NewerWins t := by
  cases a with
  | tick tick =>
    obtain rfl := Option.some.inj ht
    exact h.onTick (hg tick rfl)
  | snapshot snapshot =>
    obtain rfl := Option.some.inj ht
    exact h.ingestSnapshot snapshot
  | entitlement =>
    obtain rfl := Option.some.inj ht
    exact h.onEntitlement
  | notFound =>
    obtain rfl := Option.some.inj ht
    exact h.markNotFound
  | beat =>
    obtain rfl := Option.some.inj ht
    exact h.onBeat
  | update =>
    simp only [UseDetailQuote.step] at ht
    split at ht
    · simp at ht
    · rename_i u us hu
      obtain rfl := Option.some.inj ht
      exact h.update hu
  | effect =>
    obtain ⟨-, ht⟩ := Option.ite_none_right_eq_some.mp ht
    obtain rfl := Option.some.inj ht
    exact h.paintQueued

theorem render (h : NewerWins s) : NewerWins s.render :=
  render_induction (fun h _ _ hu => h.update hu) h

end NewerWins

/-! ## What is displayed -/

/-- A page with nothing left to run, queued or pending. -/
structure Settled (s : UseDetailQuote) : Prop where
  updates : s.updates = []
  pending : s.pendingTick = none
  queued : s.phaseRef = .ready → s.queuedTickRef = none

theorem Repaints.displayed (s : UseDetailQuote) : Repaints s s.displayed :=
  ((Repaints.beforeBeat s).trans (.onBeat _)).trans (.render _)

theorem render_updates (s : UseDetailQuote) : s.render.updates = [] := by
  have hfold (us : List StateUpdate) : ∀ t : UseDetailQuote, (us.foldl update t).updates =
      t.updates := by
    induction us with
    | nil => exact fun _ => rfl
    | cons u us ih => exact fun t => ih (t.update u)
  exact hfold s.updates { s with updates := [] }

theorem paintQueued_queuedTickRef (s : UseDetailQuote) : s.paintQueued.queuedTickRef = none := by
  unfold UseDetailQuote.paintQueued
  split
  · assumption
  · rfl

theorem onBeat_queuedTickRef (s : UseDetailQuote) : s.onBeat.queuedTickRef = s.queuedTickRef := by
  unfold UseDetailQuote.onBeat
  split <;> rfl

theorem render_held (s : UseDetailQuote) :
    s.render.pendingTick = s.pendingTick ∧ s.render.queuedTickRef = s.queuedTickRef :=
  render_induction (I := fun t => t.pendingTick = s.pendingTick ∧
    t.queuedTickRef = s.queuedTickRef) (fun h _ _ _ => h) ⟨rfl, rfl⟩

namespace NewerWins

theorem beforeBeat (h : NewerWins s) : NewerWins s.beforeBeat := by
  unfold UseDetailQuote.beforeBeat
  split
  · exact h.render.paintQueued
  · exact h.render

/-- The effect of becoming ready has run by then. -/
theorem beforeBeat_queuedTickRef (h : NewerWins s) (hready : s.phaseRef = .ready) :
    s.beforeBeat.queuedTickRef = none := by
  unfold UseDetailQuote.beforeBeat
  split
  · exact paintQueued_queuedTickRef s.render
  · rename_i hdue
    by_contra hqueued
    have hbecomes := h.render.queued ((Repaints.render s).phaseRef.trans hready) hqueued
    simp [BecomesReady, hdue, render_updates] at hbecomes

theorem displayed (h : NewerWins s) : NewerWins s.displayed := h.beforeBeat.onBeat.render

theorem settled_displayed (h : NewerWins s) : s.displayed.Settled := by
  obtain ⟨hpending, hqueued⟩ := render_held s.beforeBeat.onBeat
  refine ⟨render_updates _, hpending.trans (onBeat_pendingTick _), fun hready => ?_⟩
  rw [displayed_eq, hqueued, onBeat_queuedTickRef]
  exact h.beforeBeat_queuedTickRef ((Repaints.displayed s).phaseRef.symm.trans hready)

end NewerWins

/-- A page with nothing left to run shows the newest of what it has received. -/
theorem NewerWins.newest (h : NewerWins s) (hsettled : s.Settled) (hready : s.phaseRef = .ready) :
    Newest Reading.exchangeTimestamp s.seen (s.quote.map DetailQuote.reading) := by
  obtain ⟨merged, waiting, held, hs⟩ := h.holds
  have hwaiting : waiting = ∅ := by
    have hpending := hs.pending
    rw [hsettled.pending] at hpending
    exact hpending.eq_empty
  have hheld : held = ∅ := by
    have hqueued := hs.queued
    rw [hsettled.queued hready] at hqueued
    exact hqueued.eq_empty
  rw [hs.seen, hwaiting, hheld, Set.union_empty, Set.union_empty]
  simpa [settledReading, hsettled.updates] using hs.shown

theorem ingestSnapshot_snapshots (s : UseDetailQuote) (snapshot : Snapshot) :
    (s.ingestSnapshot snapshot).snapshots =
      if s.Handles snapshot.symbol then s.snapshots ++ [snapshot] else s.snapshots := by
  by_cases hhandles : s.Handles snapshot.symbol
  · rw [if_pos hhandles, UseDetailQuote.ingestSnapshot, if_neg (by simp [hhandles.1, hhandles.2])]
  · have hskips : snapshot.symbol ≠ s.symbol ∨ s.phaseRef = .notFound := by
      rwa [Handles, not_and_or, not_not] at hhandles
    rw [if_neg hhandles, UseDetailQuote.ingestSnapshot, if_pos hskips]

/-- Only a snapshot and a switch change what snapshots have been ingested. -/
theorem step_snapshots {a : Action} (ht : s.step a = some t) (hswitch : a ≠ .entitlement)
    (hsnapshot : ∀ snapshot, a ≠ .snapshot snapshot) : t.snapshots = s.snapshots := by
  cases a with
  | tick tick =>
    obtain rfl := Option.some.inj ht
    unfold UseDetailQuote.onTick
    split
    · rfl
    · split <;> rfl
  | snapshot snapshot => exact absurd rfl (hsnapshot snapshot)
  | entitlement => exact absurd rfl hswitch
  | notFound =>
    obtain rfl := Option.some.inj ht
    unfold UseDetailQuote.markNotFound
    split <;> rfl
  | beat =>
    obtain rfl := Option.some.inj ht
    exact (Repaints.onBeat s).snapshots
  | update =>
    simp only [UseDetailQuote.step] at ht
    split at ht
    · simp at ht
    · obtain rfl := Option.some.inj ht
      rfl
  | effect =>
    obtain ⟨-, ht⟩ := Option.ite_none_right_eq_some.mp ht
    obtain rfl := Option.some.inj ht
    exact (Repaints.paintQueued s).snapshots

end UseDetailQuote

namespace DetailPage

open UseDetailQuote (NewerWins Repaints)

variable {p q : DetailPage}

/-- The places hold the newest, and every snapshot ingested counts. -/
structure Sound (p : DetailPage) : Prop where
  wins : NewerWins p.page
  snapshots : p.page.snapshots = p.snapshots

namespace Sound

theorem init (symbol : String) : Sound (detailPage symbol).init := ⟨NewerWins.init symbol, rfl⟩

/-- A snapshot that counts is ingested. -/
theorem ingest (h : Sound p) (snapshot : Snapshot) {inFlight switched : Bool} :
    Sound ⟨p.page.ingestSnapshot snapshot, inFlight, switched, p.ingested snapshot⟩ where
  wins := h.wins.ingestSnapshot snapshot
  snapshots := by rw [UseDetailQuote.ingestSnapshot_snapshots, h.snapshots]; rfl

/-- What one event preserves. -/
theorem step (h : Sound p) {a : Action} (hg : p.Orderly a) (hq : p.step a = some q) : Sound q := by
  cases a with
  | fetched snapshot =>
    obtain ⟨-, hq⟩ := Option.ite_none_right_eq_some.mp hq
    obtain rfl := Option.some.inj hq
    by_cases hhandles : p.page.Handles snapshot.symbol
    · rw [hg hhandles]
      exact h.ingest snapshot
    · refine ⟨h.wins.ingestSnapshot snapshot, ?_⟩
      simp [UseDetailQuote.ingestSnapshot_snapshots, ingested, hhandles, h.snapshots]
  | failed =>
    obtain ⟨-, hq⟩ := Option.ite_none_right_eq_some.mp hq
    obtain rfl := Option.some.inj hq
    exact ⟨h.wins.markNotFound,
      (UseDetailQuote.step_snapshots (a := .notFound) rfl (by simp) (by simp)).trans h.snapshots⟩
  | on action =>
    have hcarried (hstep : (p.page.step action).map (fun page => { p with page := page }) = some q)
        (hswitch : action ≠ .entitlement) (hsnapshot : ∀ snapshot, action ≠ .snapshot snapshot) :
        Sound q := by
      obtain ⟨page, hpage, rfl⟩ := Option.map_eq_some_iff.mp hstep
      refine ⟨h.wins.step (fun tick htick => ?_) hpage,
        (UseDetailQuote.step_snapshots hpage hswitch hsnapshot).trans h.snapshots⟩
      subst htick
      exact hg
    cases action with
    | entitlement =>
      obtain rfl := Option.some.inj hq
      exact ⟨h.wins.onEntitlement, rfl⟩
    | snapshot snapshot =>
      obtain rfl := Option.some.inj hq
      exact h.ingest snapshot
    | tick tick => exact hcarried hq (by simp) (by simp)
    | notFound => exact hcarried hq (by simp) (by simp)
    | beat => exact hcarried hq (by simp) (by simp)
    | update => exact hcarried hq (by simp) (by simp)
    | effect => exact hcarried hq (by simp) (by simp)

theorem mem_seen (h : Sound p) (r : Reading) : r ∈ p.page.displayed.seen ↔ r ∈ p.received := by
  have hkept := Repaints.displayed p.page
  simp [UseDetailQuote.seen, received, hkept.ticks, hkept.snapshots, h.snapshots]

theorem displayed_phase (h : Sound p) : p.page.displayed.phase = p.page.phaseRef := by
  have hsettles := h.wins.displayed.settles
  rw [UseDetailQuote.settledPhase, h.wins.settled_displayed.updates] at hsettles
  exact hsettles.trans (Repaints.displayed p.page).phaseRef

theorem newest (h : Sound p) (hready : p.page.phaseRef = .ready) :
    Newest Reading.exchangeTimestamp p.page.displayed.seen
      (p.page.displayed.quote.map DetailQuote.reading) :=
  h.wins.displayed.newest h.wins.settled_displayed
    ((Repaints.displayed p.page).phaseRef.trans hready)

/-- The figures displayed are those of a snapshot that counts. -/
theorem displayed_extras (h : Sound p) {extras : OhlcExtras}
    (hextras : extras ∈ p.page.displayed.extras) :
    ∃ snapshot ∈ p.snapshots, extras = extrasFromSnapshot snapshot := by
  have hfrom := h.wins.displayed.extras
  rw [UseDetailQuote.settledExtras, h.wins.settled_displayed.updates,
    (Repaints.displayed p.page).snapshots, h.snapshots] at hfrom
  exact hfrom extras hextras

theorem showsNewest (h : Sound p) : p.ShowsNewest := by
  by_cases hready : p.page.phaseRef = .ready
  · have hshown : p.shown = p.page.displayed.quote :=
      if_pos (h.displayed_phase.trans hready)
    have hshownExtras : p.shownExtras = p.page.displayed.extras :=
      if_pos (h.displayed_phase.trans hready)
    have hnewest := h.newest hready
    refine ⟨fun quote hquote => ?_, fun quote hquote r hr => ?_, fun extras hextras => ?_,
      fun _ hreceived => ?_⟩
    · rw [hshown] at hquote
      exact (h.mem_seen _).mp (hnewest.mem _ (Option.mem_map_of_mem _ hquote))
    · rw [hshown] at hquote
      exact hnewest.newest _ (Option.mem_map_of_mem _ hquote) r ((h.mem_seen r).mpr hr)
    · rw [hshownExtras] at hextras
      exact h.displayed_extras hextras
    · obtain ⟨r, hr⟩ := List.exists_mem_of_ne_nil _ hreceived
      rw [hshown]
      simpa using hnewest.isSome ⟨r, (h.mem_seen r).mpr hr⟩
  · -- A page that is not ready shows nothing.
    have hshown : p.shown = none := if_neg (h.displayed_phase ▸ hready)
    have hshownExtras : p.shownExtras = none := if_neg (h.displayed_phase ▸ hready)
    exact ⟨by simp [hshown], by simp [hshown], by simp [hshownExtras],
      fun hphase => absurd hphase hready⟩

end Sound

/-- After every run in which no older tick replaces the queued one and the snapshot asked for does
not arrive after a switch, a beat shows the newest of what has been received since the mount or the
last switch. -/
theorem showsNewest_of_orderly {symbol : String} {actions : List Action}
    (hg : (detailPage symbol).Guarded Orderly (detailPage symbol).init actions)
    (h : (detailPage symbol).run actions = some p) : p.ShowsNewest :=
  (Machine.run_invariant_of_guarded (m := detailPage symbol) (I := Sound) (Sound.init symbol)
    (fun _ _ _ hp hg hq => hp.step hg hq) hg h).showsNewest

open Reconciliation (tickAt snapshotAt)

/-- Ticks wait for the snapshot asked for, a late tick shares a beat, and a switch starts over. -/
def switchedRun : List Action :=
  [.on (.tick (tickAt "10:31:04.000Z" 3)), .on (.tick (tickAt "10:31:06.000Z" 1)),
    .fetched (snapshotAt "10:31:05.000Z" 3), .on .update, .on .update, .on .effect,
    .on (.tick (tickAt "10:31:08.000Z" 2)), .on (.tick (tickAt "10:31:07.000Z" 2)), .on .beat,
    .on .entitlement, .on (.snapshot (snapshotAt "10:31:05.500Z" 3)),
    .on (.tick (tickAt "10:31:06.500Z" 2))]

/-- Where a run over `COMI` ends. -/
def endOf (actions : List Action) : DetailPage :=
  ((detailPage "COMI").run actions).getD (detailPage "COMI").init

theorem run_eq_endOf {actions : List Action}
    (h : ((detailPage "COMI").run actions).isSome = true) :
    (detailPage "COMI").run actions = some (endOf actions) := by
  rw [endOf, ← Option.get_eq_getD (h := h), Option.some_get]

theorem showsNewest_of_orderly_switchedRun :
    (detailPage "COMI").run switchedRun = some (endOf switchedRun) ∧
      (endOf switchedRun).ShowsNewest :=
  have hrun := run_eq_endOf (by decide +kernel : ((detailPage "COMI").run switchedRun).isSome)
  ⟨hrun, showsNewest_of_orderly (by decide +kernel) hrun⟩

/-- An older tick replaces the queued one, and then the snapshot arrives. -/
def olderTickQueued : List Action :=
  [.on (.tick (tickAt "10:31:06.000Z" 3)), .on (.tick (tickAt "10:31:05.000Z" 1)),
    .fetched (snapshotAt "10:31:04.000Z" 3)]

/-- The snapshot asked for arrives after a switch. -/
def fetchedAfterSwitch : List Action :=
  [.on .entitlement, .fetched (snapshotAt "10:31:04.000Z" 3)]

/-- A newer tick is lost where an older one replaces it, and a snapshot asked for before a switch is
shown after it. -/
theorem not_showsNewest :
    (¬∀ (symbol : String) (actions : List Action) (p : DetailPage), .on .entitlement ∉ actions →
      (detailPage symbol).run actions = some p → p.ShowsNewest) ∧
    ¬∀ (symbol : String) (actions : List Action) (p : DetailPage),
      (∀ tick, .on (.tick tick) ∉ actions) → (detailPage symbol).run actions = some p →
        p.ShowsNewest := by
  constructor
  · intro h
    have hrun := run_eq_endOf (by decide +kernel : ((detailPage "COMI").run olderTickQueued).isSome)
    have hshows := h "COMI" olderTickQueued _ (by decide +kernel) hrun
    have hshown : (endOf olderTickQueued).shown.map DetailQuote.reading =
        some (tickAt "10:31:05.000Z" 1).reading := by decide +kernel
    obtain ⟨quote, hquote, hreading⟩ := Option.map_eq_some_iff.mp hshown
    have hle := hshows.newest quote hquote (tickAt "10:31:06.000Z" 3).reading (by decide +kernel)
    have htime : quote.exchangeTimestamp = "10:31:05.000Z" :=
      congrArg Reading.exchangeTimestamp hreading
    rw [htime] at hle
    exact absurd hle (by decide +kernel)
  · intro h
    have hrun := run_eq_endOf
      (by decide +kernel : ((detailPage "COMI").run fetchedAfterSwitch).isSome)
    have hshows := h "COMI" fetchedAfterSwitch _ (by simp [fetchedAfterSwitch]) hrun
    have hshown : (endOf fetchedAfterSwitch).shown.isSome = true := by decide +kernel
    obtain ⟨quote, hquote⟩ := Option.isSome_iff_exists.mp hshown
    have hreceived : (endOf fetchedAfterSwitch).received = [] := by decide +kernel
    have hmem := hshows.mem quote hquote
    rw [hreceived] at hmem
    exact absurd hmem List.not_mem_nil

end DetailPage

end Tckr.MarketWatch
