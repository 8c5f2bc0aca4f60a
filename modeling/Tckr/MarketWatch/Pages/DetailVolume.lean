import Tckr.MarketWatch.Data.Reconciliation
import Tckr.MarketWatch.Pages.DetailQuote

/-!
# The volume of the detail page

The page adds the quantities of the ticks since the last snapshot to that snapshot's
volume, and shows the sum with the tick it paints. The sum is right as long as every
snapshot covers the ticks before it and every tick is newer than the snapshots before
it, and it is shown as long as a tick is newer than what has been painted.
-/

namespace Tckr.MarketWatch

namespace UseDetailQuote

variable {s t : UseDetailQuote}

/-! ## What the queued updaters come to -/

/-- The quote once every queued updater has run, with the refs as they are. -/
def rendered (s : UseDetailQuote) : Option DetailQuote := s.updates.foldl s.updatedQuote s.quote

/-- The time a quote carries. -/
def stamp (quote : Option DetailQuote) : Option String := quote.map DetailQuote.exchangeTimestamp

/-- Rendering one call changes no ref. -/
theorem updatedQuote_update (u : StateUpdate) : (s.update u).updatedQuote = s.updatedQuote := by
  funext prev u
  cases u <;> rfl

theorem foldl_update_quote (us : List StateUpdate) :
    (us.foldl update s).quote = us.foldl s.updatedQuote s.quote := by
  induction us generalizing s with
  | nil => rfl
  | cons u us ih => rw [List.foldl_cons, List.foldl_cons, ih, updatedQuote_update]; rfl

theorem render_quote : s.render.quote = s.rendered := foldl_update_quote s.updates

/-- What the updaters preserve one after the other, running every one of them preserves. -/
theorem render_induction {I : UseDetailQuote → Prop}
    (hupdate : ∀ {s : UseDetailQuote}, I s → ∀ u us, s.updates = u :: us →
      I ({ s with updates := us }.update u)) (h : I s) : I s.render := by
  obtain ⟨us, hus⟩ : ∃ us, s.updates = us := ⟨_, rfl⟩
  induction us generalizing s with
  | nil =>
    have hsame : s.render = s := by
      rw [render, hus]
      cases s
      cases hus
      rfl
    rw [hsame]
    exact h
  | cons u us ih =>
    have hsame : s.render = ({ s with updates := us }.update u).render := by
      rw [render, hus]
      rfl
    rw [hsame]
    exact ih (hupdate h u us hus) rfl

/-- Which of two updates is newer does not depend on the refs. -/
theorem stamp_updatedQuote {p q : Option DetailQuote} (h : stamp p = stamp q) (u : StateUpdate) :
    stamp (s.updatedQuote p u) = stamp (t.updatedQuote q u) := by
  cases u with
  | clear => rfl
  | phase phase => exact h
  | snapshot snapshot =>
    cases p with
    | none =>
      cases q with
      | none => rfl
      | some q => cases h
    | some p =>
      cases q with
      | none => cases h
      | some q =>
        have htime : p.exchangeTimestamp = q.exchangeTimestamp := Option.some.inj h
        simp only [updatedQuote, mergeSnapshotIntoQuote, htime]
        split
        · exact h
        · rfl
  | tick tick =>
    cases p with
    | none =>
      cases q with
      | none => rfl
      | some q => cases h
    | some p =>
      cases q with
      | none => cases h
      | some q =>
        have htime : p.exchangeTimestamp = q.exchangeTimestamp := Option.some.inj h
        simp only [updatedQuote, mergeTickIntoQuote, htime]
        split
        · exact h
        · rfl

theorem stamp_foldl {p q : Option DetailQuote} (h : stamp p = stamp q) (us : List StateUpdate) :
    stamp (us.foldl s.updatedQuote p) = stamp (us.foldl t.updatedQuote q) := by
  induction us generalizing p q with
  | nil => exact h
  | cons u us ih => exact ih (stamp_updatedQuote h u)

/-- Changing the refs changes no time of what is shown. -/
theorem stamp_rendered (hupdates : t.updates = s.updates) (hquote : t.quote = s.quote) :
    stamp t.rendered = stamp s.rendered := by
  rw [rendered, rendered, hupdates, hquote]
  exact stamp_foldl rfl s.updates

/-! ## What is counted is shown -/

/-- The effect of becoming ready is neither due nor on its way. -/
def Unready (s : UseDetailQuote) : Prop := s.effectDue = false ∧ .phase .ready ∉ s.updates

/-- Queueing anything else leaves it so. -/
theorem Unready.append (h : s.Unready) {u : StateUpdate} (hu : u ≠ .phase .ready) :
    .phase .ready ∉ s.updates ++ [u] := fun hmem =>
  (List.mem_append.mp hmem).elim h.2 fun hmem => hu (List.mem_singleton.mp hmem).symm

theorem not_unready (hdue : s.effectDue = true) : ¬s.Unready := fun h =>
  Bool.false_ne_true (h.1.symm.trans hdue)

/-- A page that is not becoming ready does not become so by another update. -/
theorem Unready.update (h : s.Unready) {u : StateUpdate} {us : List StateUpdate}
    (hu : s.updates = u :: us) : ({ s with updates := us }.update u).Unready := by
  have hmem := h.2
  rw [hu, List.mem_cons, not_or] at hmem
  refine ⟨?_, hmem.2⟩
  cases u with
  | phase phase =>
    cases phase with
    | ready => exact absurd rfl hmem.1
    | _ => exact h.1
  | _ => exact h.1

/-- The counted volume is right, and shown as soon as the pending tick is painted. -/
structure Counted (s : UseDetailQuote) : Prop where
  volume : s.volume = (quoteTally id).volume s.snapshots s.ticks
  painted : ∀ p ∈ s.painted, p ∈ s.ticks
  pending : ∀ p ∈ s.pendingTick, p ∈ s.ticks ∧ ∀ x ∈ s.painted, x.t < p.t
  queued : ∀ k ∈ s.queuedTickRef, k ∈ s.ticks ∧
    (s.Unready ∨ ∃ snapshot ∈ s.snapshots, k.t ≤ snapshot.exchangeTimestamp)
  loading : s.phaseRef = .loading → s.Unready ∧ s.snapshots = []
  stamped : ∀ time ∈ stamp s.rendered, (∃ p ∈ s.painted, p.t = time) ∨
    ∃ snapshot ∈ s.snapshots, snapshot.exchangeTimestamp = time
  shown : s.snapshots ≠ [] → ∃ quote, s.rendered = some quote ∧
    (∀ snapshot ∈ s.snapshots, snapshot.exchangeTimestamp ≤ quote.exchangeTimestamp) ∧
    (quote.volume = s.volume ∨ ∃ p ∈ s.pendingTick, quote.exchangeTimestamp < p.t)

/-- The page handles what arrives for the symbol. -/
def Handles (s : UseDetailQuote) (symbol : String) : Prop :=
  symbol = s.symbol ∧ s.phaseRef ≠ .notFound

instance (symbol : String) : Decidable (s.Handles symbol) := inferInstanceAs (Decidable (_ ∧ _))

/-- A tick is newer than the snapshots ingested and the ticks painted since the last reset; a
snapshot is at least as new as every snapshot and tick since then. -/
def Timely (s : UseDetailQuote) : Action → Prop
  | .tick tick => s.Handles tick.s →
      (quoteTally id).Fresh s.snapshots tick ∧ ∀ p ∈ s.painted, p.t < tick.t
  | .snapshot snapshot => s.Handles snapshot.symbol →
      (quoteTally id).Covers snapshot s.snapshots s.ticks
  | _ => True

instance (a : Action) : Decidable (s.Timely a) := by
  cases a with
  | tick tick => exact inferInstanceAs (Decidable (_ → _))
  | snapshot snapshot => exact inferInstanceAs (Decidable (_ → _))
  | _ => exact inferInstanceAs (Decidable True)

namespace Counted

theorem init (symbol : String) : Counted { symbol := symbol } where
  volume := rfl
  painted _ hp := absurd hp List.not_mem_nil
  pending _ hp := absurd hp nofun
  queued _ hk := absurd hk nofun
  loading _ := ⟨⟨rfl, List.not_mem_nil⟩, rfl⟩
  stamped _ ht := absurd ht nofun
  shown hsnapshots := absurd rfl hsnapshots

/-- A counted tick adds its quantity. -/
theorem volume_add (h : Counted s) {tick : Tick} (hfresh : (quoteTally id).Fresh s.snapshots tick) :
    s.volumeBaselineRef + (s.volumeSinceBaselineRef + tick.q) =
      (quoteTally id).volume s.snapshots (s.ticks ++ [tick]) := by
  rw [Tally.volume_append_of_fresh hfresh, ← h.volume, UseDetailQuote.volume, ← add_assoc]
  rfl

/-- A tick that arrives while the page loads is counted and queued. -/
theorem queue (h : Counted s) {tick : Tick} (hloading : s.phaseRef = .loading)
    (hfresh : (quoteTally id).Fresh s.snapshots tick) :
    Counted { s.count tick with queuedTickRef := some tick } where
  volume := h.volume_add hfresh
  painted p hp := List.mem_append_left _ (h.painted p hp)
  pending p hp := ⟨List.mem_append_left _ (h.pending p hp).1, (h.pending p hp).2⟩
  queued k hk := by
    obtain rfl := Option.some.inj hk
    exact ⟨List.mem_append_right _ List.mem_cons_self, .inl (h.loading hloading).1⟩
  loading := h.loading
  stamped := by
    have hstamp : stamp { s.count tick with queuedTickRef := some tick }.rendered =
        stamp s.rendered := stamp_rendered rfl rfl
    rw [hstamp]
    exact h.stamped
  shown hsnapshots := absurd (h.loading hloading).2 hsnapshots

/-- The tick kept for the beat is at least as new as the one that arrived. -/
theorem exists_throttledApplyTick (s : UseDetailQuote) (tick : Tick) :
    ∃ p, s.throttledApplyTick tick = some p ∧ tick.t ≤ p.t ∧
      (p = tick ∨ s.pendingTick = some p) := by
  unfold throttledApplyTick
  cases hpending : s.pendingTick with
  | none => exact ⟨tick, rfl, le_rfl, .inl rfl⟩
  | some pending =>
    dsimp only
    split
    · exact ⟨tick, rfl, le_rfl, .inl rfl⟩
    · rename_i holder
      exact ⟨pending, rfl, (not_le.mp holder).le, .inr rfl⟩

/-- What is shown is older than a tick newer than the painted ticks and the snapshots. -/
theorem lt_of_fresh (h : Counted s) {tick : Tick} (hfresh : (quoteTally id).Fresh s.snapshots tick)
    (hpainted : ∀ p ∈ s.painted, p.t < tick.t) {time : String} (htime : time ∈ stamp s.rendered) :
    time < tick.t := by
  rcases h.stamped time htime with ⟨p, hp, rfl⟩ | ⟨b, hb, rfl⟩
  · exact hpainted p hp
  · exact hfresh b hb

/-- A tick that arrives on a ready page is counted, and the next beat paints a tick no older. -/
theorem keep (h : Counted s) {tick : Tick} (hready : s.phaseRef ≠ .loading)
    (hfresh : (quoteTally id).Fresh s.snapshots tick) (hpainted : ∀ p ∈ s.painted, p.t < tick.t) :
    Counted { s.count tick with pendingTick := s.throttledApplyTick tick } := by
  obtain ⟨kept, hkept, hnewer, hfrom⟩ := exists_throttledApplyTick s tick
  rw [hkept]
  have hstamp : stamp { s.count tick with pendingTick := some kept }.rendered =
      stamp s.rendered := stamp_rendered rfl rfl
  refine ⟨h.volume_add hfresh, fun p hp => List.mem_append_left _ (h.painted p hp), fun p hp => ?_,
    fun k hk => ⟨List.mem_append_left _ (h.queued k hk).1, (h.queued k hk).2⟩,
    fun hloading => absurd hloading hready, hstamp ▸ h.stamped, fun hsnapshots => ?_⟩
  · obtain rfl := Option.some.inj hp
    rcases hfrom with rfl | hfrom
    · exact ⟨List.mem_append_right _ List.mem_cons_self, hpainted⟩
    · exact ⟨List.mem_append_left _ (h.pending _ hfrom).1, (h.pending _ hfrom).2⟩
  · obtain ⟨quote, hquote, hcovered, -⟩ := h.shown hsnapshots
    have holder := h.lt_of_fresh hfresh hpainted
      (by rw [hquote]; rfl : quote.exchangeTimestamp ∈ stamp s.rendered)
    rw [hquote] at hstamp
    obtain ⟨quote', hquote', htime⟩ := Option.map_eq_some_iff.mp hstamp
    exact ⟨quote', hquote', fun snapshot hsnapshot => htime ▸ hcovered snapshot hsnapshot,
      .inr ⟨kept, rfl, htime ▸ lt_of_lt_of_le holder hnewer⟩⟩

theorem onTick (h : Counted s) {tick : Tick} (hg : s.Timely (.tick tick)) :
    Counted (s.onTick tick) := by
  unfold UseDetailQuote.onTick
  split
  · exact h
  · rename_i hhandles
    obtain ⟨hsymbol, hphase⟩ := not_or.mp hhandles
    obtain ⟨hfresh, hpainted⟩ := hg ⟨not_not.mp hsymbol, hphase⟩
    split
    · rename_i hloading
      exact h.queue hloading hfresh
    · rename_i hready
      exact h.keep hready hfresh hpainted

/-! ### Snapshots -/

/-- A snapshot no older than what is shown replaces it. -/
theorem mergeSnapshotIntoQuote_of_le {quote : Option DetailQuote} {snapshot : Snapshot}
    (h : ∀ time ∈ stamp quote, time ≤ snapshot.exchangeTimestamp) :
    mergeSnapshotIntoQuote quote snapshot = some (quoteFromSnapshot snapshot) := by
  cases quote with
  | none => rfl
  | some quote => exact if_neg (not_lt.mpr (h quote.exchangeTimestamp rfl))

/-- A tick is painted unless what is shown is as new. -/
theorem mergeTickIntoQuote_cases (quote : Option DetailQuote) (tick : Tick)
    (baseline : Option DecimalString) (volume : Int) :
    (∃ prev, quote = some prev ∧ tick.t ≤ prev.exchangeTimestamp ∧
      mergeTickIntoQuote quote tick baseline volume = some prev) ∨
    (∀ time ∈ stamp quote, time < tick.t) ∧
      mergeTickIntoQuote quote tick baseline volume =
        some (quoteFromTick tick baseline volume) := by
  cases quote with
  | none => exact .inr ⟨nofun, rfl⟩
  | some prev =>
    by_cases hle : tick.t ≤ prev.exchangeTimestamp
    · exact .inl ⟨prev, rfl, hle, if_pos hle⟩
    · refine .inr ⟨fun time htime => ?_, if_neg hle⟩
      obtain rfl := Option.some.inj htime
      exact not_le.mp hle

theorem rendered_append (s : UseDetailQuote) (us : List StateUpdate) :
    { s with updates := s.updates ++ us }.rendered = us.foldl s.updatedQuote s.rendered := by
  rw [rendered, rendered, List.foldl_append]
  rfl

/-- A snapshot that covers what was before it is counted from, and shown. -/
theorem ingestSnapshot (h : Counted s) {snapshot : Snapshot} (hg : s.Timely (.snapshot snapshot)) :
    Counted (s.ingestSnapshot snapshot) := by
  unfold UseDetailQuote.ingestSnapshot
  split
  · exact h
  · rename_i hhandles
    obtain ⟨hsymbol, hphase⟩ := not_or.mp hhandles
    have hcovers := hg ⟨not_not.mp hsymbol, hphase⟩
    obtain ⟨r, hr⟩ : ∃ r, r = { s with
      baselineRef := some (snapshotBaseline snapshot)
      volumeBaselineRef := snapshot.volume
      volumeSinceBaselineRef := 0
      phaseRef := Phase.ready
      snapshots := s.snapshots ++ [snapshot] } := ⟨_, rfl⟩
    have hstamp : stamp r.rendered = stamp s.rendered := by
      rw [hr]
      exact stamp_rendered rfl rfl
    have hold : ∀ time ∈ stamp r.rendered, time ≤ snapshot.exchangeTimestamp := by
      intro time htime
      rw [hstamp] at htime
      rcases h.stamped time htime with ⟨p, hp, rfl⟩ | ⟨b, hb, rfl⟩
      · exact hcovers.entries p (h.painted p hp)
      · exact hcovers.cuts b hb
    have hrendered :
        { r with
          updates := r.updates ++
            [StateUpdate.snapshot snapshot, StateUpdate.phase .ready] }.rendered =
          some (quoteFromSnapshot snapshot) :=
      (rendered_append r _).trans (mergeSnapshotIntoQuote_of_le hold)
    subst hr
    exact
    { volume := (add_zero _).trans (Tally.volume_append_of_covers hcovers).symm
      painted := h.painted
      pending := h.pending
      queued := fun k hk => ⟨(h.queued k hk).1, .inr ⟨snapshot, List.mem_append_right _
        List.mem_cons_self, hcovers.entries k (h.queued k hk).1⟩⟩
      loading := nofun
      stamped := fun time htime => by
        rw [hrendered] at htime
        exact .inr ⟨snapshot, List.mem_append_right _ List.mem_cons_self, Option.some.inj htime⟩
      shown := fun _ => by
        refine ⟨_, hrendered, fun b hb => ?_,
          .inl (add_zero snapshot.volume).symm⟩
        rcases List.mem_append.mp hb with hb | hb
        · exact hcovers.cuts b hb
        · rw [List.mem_singleton.mp hb]
          exact le_rfl }

/-! ### Painting -/

/-- A beat paints the pending tick, with the counted volume. -/
theorem onBeat (h : Counted s) : Counted s.onBeat := by
  unfold UseDetailQuote.onBeat
  split
  · exact h
  · rename_i tick hpending
    obtain ⟨hmem, hnewer⟩ := h.pending tick hpending
    have hrendered : { s with
        pendingTick := none
        updates := s.updates ++ [StateUpdate.tick tick]
        painted := s.painted ++ [tick] }.rendered =
        mergeTickIntoQuote s.rendered tick s.baselineRef s.volume := rendered_append s [.tick tick]
    refine ⟨h.volume, fun p hp => ?_, nofun, fun k hk => ⟨(h.queued k hk).1, ?_⟩,
      fun hloading => ?_, fun time htime => ?_, fun hsnapshots => ?_⟩
    · rcases List.mem_append.mp hp with hp | hp
      · exact h.painted p hp
      · rw [List.mem_singleton.mp hp]
        exact hmem
    · exact (h.queued k hk).2.imp_left fun hunready => ⟨hunready.1, hunready.append nofun⟩
    · obtain ⟨hunready, hnone⟩ := h.loading hloading
      exact ⟨⟨hunready.1, hunready.append nofun⟩, hnone⟩
    · rw [hrendered] at htime
      rcases mergeTickIntoQuote_cases s.rendered tick s.baselineRef s.volume with
        ⟨prev, hprev, -, hmerge⟩ | ⟨-, hmerge⟩
      · rw [hmerge, ← hprev] at htime
        exact (h.stamped time htime).imp_left fun ⟨p, hp, hpt⟩ =>
          ⟨p, List.mem_append_left _ hp, hpt⟩
      · rw [hmerge] at htime
        exact .inl ⟨tick, List.mem_append_right _ List.mem_cons_self, Option.some.inj htime⟩
    · rw [hrendered]
      obtain ⟨quote, hquote, hcovered, hvolume⟩ := h.shown hsnapshots
      rcases mergeTickIntoQuote_cases s.rendered tick s.baselineRef s.volume with
        ⟨prev, hprev, hle, hmerge⟩ | ⟨hlt, hmerge⟩
      · -- The tick is as old as what is shown, so what is shown has been counted already.
        obtain rfl := Option.some.inj (hquote.symm.trans hprev)
        refine ⟨quote, hmerge, hcovered, .inl (hvolume.resolve_right ?_)⟩
        rintro ⟨p, hp, hpt⟩
        obtain rfl := Option.some.inj (hpending.symm.trans hp)
        exact absurd hpt (not_lt.mpr hle)
      · have holder : quote.exchangeTimestamp < tick.t := hlt _ (by rw [hquote]; rfl)
        exact ⟨_, hmerge, fun b hb => (hcovered b hb).trans holder.le, .inl rfl⟩

/-- The tick queued while the page loaded is as old as the snapshot, and paints nothing. -/
theorem paintQueued (h : Counted s) (hdue : s.effectDue = true) : Counted s.paintQueued := by
  unfold UseDetailQuote.paintQueued
  split
  · rename_i hqueued
    exact { h with
      queued := fun k hk => by
        rw [hqueued] at hk
        cases hk
      loading := fun hloading => ⟨⟨rfl, (h.loading hloading).1.2⟩, (h.loading hloading).2⟩ }
  · rename_i tick hqueued
    obtain ⟨snapshot, hsnapshot, hle⟩ := (h.queued tick hqueued).2.resolve_left (not_unready hdue)
    obtain ⟨quote, hquote, hcovered, hvolume⟩ := h.shown (List.ne_nil_of_mem hsnapshot)
    have hrendered : { s with
        effectDue := false
        queuedTickRef := none
        updates := s.updates ++ [StateUpdate.tick tick] }.rendered = s.rendered := by
      refine (rendered_append s [.tick tick]).trans ?_
      rw [hquote]
      exact if_pos (hle.trans (hcovered snapshot hsnapshot))
    exact
    { volume := h.volume
      painted := h.painted
      pending := h.pending
      queued := nofun
      loading := fun hloading => absurd (h.loading hloading).1 (not_unready hdue)
      stamped := hrendered ▸ h.stamped
      shown := hrendered ▸ h.shown }

/-! ### The other callbacks -/

/-- An entitlement change starts over. -/
theorem onEntitlement (h : Counted s) : Counted s.onEntitlement := by
  have hrendered : s.onEntitlement.rendered = none := by
    rw [rendered, UseDetailQuote.onEntitlement, List.foldl_append]
    rfl
  exact
  { volume := rfl
    painted := fun p hp => absurd hp List.not_mem_nil
    pending := nofun
    queued := nofun
    loading := fun hloading =>
      ⟨⟨(h.loading hloading).1.1, (h.loading hloading).1.append nofun⟩, rfl⟩
    stamped := fun time htime => by
      rw [hrendered] at htime
      cases htime
    shown := fun hsnapshots => absurd rfl hsnapshots }

theorem markNotFound (h : Counted s) : Counted s.markNotFound := by
  unfold UseDetailQuote.markNotFound
  split
  · exact h
  · have hrendered : { s with
        phaseRef := .notFound
        updates := s.updates ++ [StateUpdate.phase .notFound] }.rendered = s.rendered :=
      rendered_append s [.phase .notFound]
    exact
    { volume := h.volume
      painted := h.painted
      pending := h.pending
      queued := fun k hk => ⟨(h.queued k hk).1, (h.queued k hk).2.imp_left fun hunready =>
        ⟨hunready.1, hunready.append nofun⟩⟩
      loading := nofun
      stamped := hrendered ▸ h.stamped
      shown := hrendered ▸ h.shown }

/-- Running an updater changes nothing about what the queue comes to. -/
theorem update (h : Counted s) {u : StateUpdate} {us : List StateUpdate}
    (hu : s.updates = u :: us) :
    Counted ({ s with updates := us }.update u) := by
  have hrendered : ({ s with updates := us }.update u).rendered = s.rendered := by
    rw [rendered, rendered, updatedQuote_update, hu]
    rfl
  exact
  { volume := h.volume
    painted := h.painted
    pending := h.pending
    queued := fun k hk => ⟨(h.queued k hk).1, (h.queued k hk).2.imp_left (·.update hu)⟩
    loading := fun hloading => ⟨(h.loading hloading).1.update hu, (h.loading hloading).2⟩
    stamped := hrendered ▸ h.stamped
    shown := hrendered ▸ h.shown }

/-- What one callback preserves. -/
theorem step (h : Counted s) {a : Action} (hg : s.Timely a) (ht : s.step a = some t) :
    Counted t := by
  cases a with
  | tick tick =>
    obtain rfl := Option.some.inj ht
    exact h.onTick hg
  | snapshot snapshot =>
    obtain rfl := Option.some.inj ht
    exact h.ingestSnapshot hg
  | entitlement =>
    obtain rfl := Option.some.inj ht
    exact h.onEntitlement
  | notFound =>
    obtain rfl := Option.some.inj ht
    exact h.markNotFound
  | beat =>
    obtain rfl := Option.some.inj ht
    exact h.onBeat
  | update =>
    unfold UseDetailQuote.step at ht
    dsimp only at ht
    split at ht
    · cases ht
    · rename_i u us hu
      obtain rfl := Option.some.inj ht
      exact h.update hu
  | effect =>
    obtain ⟨hdue, ht⟩ := Option.ite_none_right_eq_some.mp ht
    obtain rfl := Option.some.inj ht
    exact h.paintQueued hdue

/-- Running every updater is running them one after the other. -/
theorem render (h : Counted s) : Counted s.render :=
  render_induction (fun h _ _ hu => h.update hu) h

end Counted

/-! ## What is displayed -/

/-- Painting changes neither the phase nor what has been received. -/
structure Repaints (s t : UseDetailQuote) : Prop where
  phaseRef : t.phaseRef = s.phaseRef
  ticks : t.ticks = s.ticks
  snapshots : t.snapshots = s.snapshots

namespace Repaints

theorem trans {r : UseDetailQuote} (h : Repaints r s) (h' : Repaints s t) : Repaints r t where
  phaseRef := h'.phaseRef.trans h.phaseRef
  ticks := h'.ticks.trans h.ticks
  snapshots := h'.snapshots.trans h.snapshots

theorem render (s : UseDetailQuote) : Repaints s s.render :=
  render_induction (I := Repaints s) (fun h _ _ _ => ⟨h.phaseRef, h.ticks, h.snapshots⟩)
    ⟨rfl, rfl, rfl⟩

theorem onBeat (s : UseDetailQuote) : Repaints s s.onBeat := by
  unfold UseDetailQuote.onBeat
  split <;> exact ⟨rfl, rfl, rfl⟩

theorem paintQueued (s : UseDetailQuote) : Repaints s s.paintQueued := by
  unfold UseDetailQuote.paintQueued
  split <;> exact ⟨rfl, rfl, rfl⟩

end Repaints

/-- A beat leaves nothing pending. -/
theorem onBeat_pendingTick (s : UseDetailQuote) : s.onBeat.pendingTick = none := by
  unfold UseDetailQuote.onBeat
  split
  · assumption
  · rfl

/-- The page as the last beat finds it: rendered, and its effect run. -/
def beforeBeat (s : UseDetailQuote) : UseDetailQuote :=
  if s.render.effectDue then s.render.paintQueued else s.render

theorem displayed_eq (s : UseDetailQuote) : s.displayed = s.beforeBeat.onBeat.render := rfl

theorem Repaints.beforeBeat (s : UseDetailQuote) : Repaints s s.beforeBeat := by
  unfold UseDetailQuote.beforeBeat
  split
  · exact (Repaints.render s).trans (Repaints.paintQueued s.render)
  · exact Repaints.render s

theorem Counted.beforeBeat (h : Counted s) : Counted s.beforeBeat := by
  unfold UseDetailQuote.beforeBeat
  split
  · rename_i hdue
    exact h.render.paintQueued hdue
  · exact h.render

/-- Where every tick has been painted, the counted volume is displayed. -/
theorem Counted.volume_rendered (h : Counted s) (hpending : s.pendingTick = none)
    (hsnapshots : s.snapshots ≠ []) :
    s.rendered.map DetailQuote.volume = some ((quoteTally id).volume s.snapshots s.ticks) := by
  obtain ⟨quote, hquote, -, hvolume⟩ := h.shown hsnapshots
  rw [hpending] at hvolume
  rw [hquote, ← h.volume]
  exact congrArg some (hvolume.resolve_right nofun)

/-- A beat after the last event displays the counted volume. -/
theorem Counted.volume_displayed (h : Counted s) (hsnapshots : s.snapshots ≠ []) :
    s.displayed.quote.map DetailQuote.volume =
      some ((quoteTally id).volume s.snapshots s.ticks) := by
  have hkept := (Repaints.beforeBeat s).trans (.onBeat _)
  rw [displayed_eq, render_quote, h.beforeBeat.onBeat.volume_rendered (onBeat_pendingTick _)
    (by rw [hkept.snapshots]; exact hsnapshots), hkept.snapshots, hkept.ticks]

open Reconciliation (tickAt snapshotAt)

/-- The page loads, a tick is painted, an entitlement change starts over, and ticks of one time
share a beat. -/
def sharedBeat : List Action :=
  [.tick (tickAt "10:31:04.000Z" 3), .snapshot (snapshotAt "10:31:05.000Z" 3), .update, .update,
    .effect, .tick (tickAt "10:31:06.000Z" 2), .beat, .entitlement,
    .snapshot (snapshotAt "10:31:05.500Z" 3), .tick (tickAt "10:31:06.000Z" 2),
    .tick (tickAt "10:31:06.000Z" 4)]

/-- Where a run over `COMI` ends. -/
def endOf (actions : List Action) : UseDetailQuote :=
  ((useDetailQuote "COMI").run actions).getD (useDetailQuote "COMI").init

theorem run_eq_endOf {actions : List Action}
    (h : ((useDetailQuote "COMI").run actions).isSome = true) :
    (useDetailQuote "COMI").run actions = some (endOf actions) := by
  rw [endOf, ← Option.get_eq_getD (h := h), Option.some_get]

/-- A tick arrives while the page loads, and then the snapshot, cut before it. -/
def tickWhileLoading : List Action :=
  [.tick (tickAt "10:31:07.000Z" 5), .snapshot (snapshotAt "10:31:06.000Z" 0)]

end UseDetailQuote

end Tckr.MarketWatch
