import Tckr.Exchange.FeedPublisherService
import Tckr.Exchange.Session.PendingFraction

/-!
# The batch buffer

Splitting a batch into passes changes nothing: the loop goes through the states of a loop
whose buffer holds every batch, and the exchange is given the records that loop publishes.
And below the bound on the buffer no batch is ever split, because a batch owes less than
one event more than the rate pays for.
-/

namespace Tckr.Publisher

open Protocol Session Generation Feed

/-! ## Batches in parts -/

/-- A batch is generated in parts. -/
theorem generate_append {c : GeneratorConfig} {before after : List (Draws × Int)}
    {g g' : RandomWalkGenerator} {es : List Emission}
    (h : generate c before g = some (es, g')) :
    generate c (before ++ after) g =
      (generate c after g').map fun rest => (es ++ rest.1, rest.2) := by
  induction before generalizing g es with
  | nil =>
    simp only [generate, Option.some.injEq, Prod.mk.injEq] at h
    obtain ⟨rfl, rfl⟩ := h
    simp
  | cons draw before ih =>
    simp only [generate, Option.bind_eq_some_iff, Option.map_eq_some_iff] at h
    obtain ⟨result, hnext, ⟨rest, g''⟩, hrest, heq⟩ := h
    obtain ⟨rfl, rfl⟩ := Prod.mk.inj heq
    simp only [List.cons_append, generate, hnext, Option.bind_some, ih hrest, Option.map_map]
    rfl

theorem stampAuctionPrints_append (before after : List TapeRecord) :
    stampAuctionPrints (before ++ after) =
      stampAuctionPrints before ++ stampAuctionPrints after := List.map_append

/-- A stamp leaves the number of records as it is. -/
theorem stampAuctionPrints_length (batch : List TapeRecord) :
    (stampAuctionPrints batch).length = batch.length := List.length_map _

/-- A batch is published in parts. -/
theorem publish_append {c : PublisherConfig} {before after : List (Draws × Int)} {s t u : Loop}
    {es fs : List Emission} (h : publish c before s = some (es, t))
    (h' : publish c after t = some (fs, u)) :
    publish c (before ++ after) s = some (es ++ fs, u) := by
  simp only [publish, Option.map_eq_some_iff, Prod.mk.injEq] at h h' ⊢
  obtain ⟨⟨es, g⟩, hbefore, rfl, rfl⟩ := h
  obtain ⟨⟨fs, g'⟩, hafter, rfl, rfl⟩ := h'
  refine ⟨(es ++ fs, g'), ?_, rfl, ?_⟩
  · rw [generate_append hbefore, hafter]
    rfl
  · dsimp only
    split <;> simp only [List.map_append, stampAuctionPrints_append, List.append_assoc]

/-- A batch of no records. -/
theorem publish_nil (c : PublisherConfig) (s : Loop) : publish c [] s = some ([], s) := by
  simp [publish, generate, stampAuctionPrints]

/-- The number of records generated is the number asked for. -/
theorem generate_length {c : GeneratorConfig} {draws : List (Draws × Int)}
    {g g' : RandomWalkGenerator} {es : List Emission} (h : generate c draws g = some (es, g')) :
    es.length = draws.length := by
  induction draws generalizing g es with
  | nil =>
    simp only [generate, Option.some.injEq, Prod.mk.injEq] at h
    rw [← h.1]
    rfl
  | cons draw draws ih =>
    simp only [generate, Option.bind_eq_some_iff, Option.map_eq_some_iff] at h
    obtain ⟨result, -, ⟨rest, g''⟩, hrest, heq⟩ := h
    obtain ⟨rfl, rfl⟩ := Prod.mk.inj heq
    rw [List.length_cons, ih hrest, List.length_cons]

/-! ## Passes -/

/-- A batch under way: the iteration of a loop with room for all of it, as far as it got. -/
structure UnderWay (c : PublisherConfig) (r : Loop) (i : Iteration) (s : FeedPublisherService) :
    Prop where
  runs : r.stopped = false
  generated : ∃ due u es,
    waitForNextBatch c.governor
      ((advance c i.now r).clock.effectiveEventsPerSecond c.session c.baseEventsPerSecond) i.polls
      (advance c i.now r).governor = some (.due due, u, []) ∧
    (scheduleBatch c.governor due u ((advance c i.now r).clock.effectiveEventsPerSecond
      c.session c.baseEventsPerSecond)).1.toNat = i.draws.length + s.owed ∧
    publish c i.draws { advance c i.now r with
      governor := (scheduleBatch c.governor due u
        ((advance c i.now r).clock.effectiveEventsPerSecond c.session
          c.baseEventsPerSecond)).2 } = some (es, s.loop)

/-- What the loop does with a batch is an iteration. -/
theorem exists_iteration {c : PublisherConfig} {r : PublisherRun} {i : Iteration} {t : Loop}
    {es : List Emission} (hruns : r.loop.stopped = false)
    (hemit : emitBatch c i.polls i.draws (advance c i.now r.loop) = some (es, t)) :
    ∃ r', r.step c i = some r' ∧ r'.loop = t := by
  unfold PublisherRun.step
  rw [if_neg (by simp [hruns])]
  simp only [hemit, Option.map_some]
  exact ⟨_, rfl, rfl⟩

/-- A batch with no record left to generate is an iteration. -/
theorem UnderWay.finish {c : PublisherConfig} {r : PublisherRun} {i : Iteration}
    {s : FeedPublisherService} (h : UnderWay c r.loop i s) (hdone : s.owed = 0) :
    ∃ r', r.step c i = some r' ∧ r'.loop = s.loop := by
  obtain ⟨due, u, es, hwait, hcount, hpublish⟩ := h.generated
  have hemit : emitBatch c i.polls i.draws (advance c i.now r.loop) = some (es, s.loop) := by
    simp only [emitBatch, hwait]
    rw [if_pos (by omega), hpublish]
  exact exists_iteration h.runs hemit

namespace FeedPublisherService

variable {c : ServiceConfig} {s t : FeedPublisherService}

theorem one_le_calculateBatchCapacity (c : PublisherConfig) : 1 ≤ calculateBatchCapacity c := by
  unfold calculateBatchCapacity
  split_ifs with hsmall hlarge
  · decide
  · decide
  · have hbeyond := not_le.mp hsmall
    have hpos : (0 : ℚ) < withCatchUp c := lt_of_le_of_lt (by positivity) hbeyond
    have hceil := Int.ceil_pos.mpr hpos
    omega

/-- A pass publishes as many records as it generates. -/
theorem length_span (s : FeedPublisherService) (es : List Emission) :
    (s.span es).length = es.length := by
  unfold span
  split
  · rw [stampAuctionPrints_length, List.length_map]
  · rw [List.length_map]

/-- A pass publishes the next part of the batch. -/
theorem publish_span {draws : List (Draws × Int)} {es : List Emission} {g : RandomWalkGenerator}
    (h : generate c.publisher.generator draws s.loop.generator = some (es, g)) :
    publish c.publisher draws s.loop =
      some (es, { s.loop with generator := g, published := s.loop.published ++ s.span es }) := by
  simp only [publish, h, Option.map_some, span]

/-- Where the service stands in a run of a loop with room for every batch. -/
structure Refines (c : ServiceConfig) (s : FeedPublisherService) (r : PublisherRun) : Prop where
  between : s.owed = 0 → s.loop = r.loop
  underWay : 0 < s.owed → ∃ i, UnderWay c.publisher r.loop i s
  published : s.exchange.published.flatten = s.loop.published.map wireRecord
  passes : ∀ batch ∈ s.exchange.published,
    0 < batch.length ∧ batch.length ≤ calculateBatchCapacity c.publisher

/-- A clock that moves leaves alone what was published. -/
theorem advance_published (c : PublisherConfig) (now : Int) (s : Loop) :
    (Publisher.advance c now s).published = s.published ∧
      (Publisher.advance c now s).stopped = s.stopped := by
  unfold Publisher.advance onPhaseChanged
  dsimp only
  split <;> exact ⟨rfl, rfl⟩

/-- What a step of the exchange by itself leaves alone. -/
theorem published_of_step {e f : Exchange} {a : Exchange.Action} (h : e.step c.exchange a = some f)
    (hpublish : ∀ batch, a ≠ .publish batch) : f.published = e.published := by
  cases Exchange.step_cases h with
  | published => exact absurd rfl (hpublish _)
  | server | session | visited | returned | finished => rfl

/-- The batch under way grows by a pass. -/
theorem underWay_pass {r : Loop} {i : Iteration} (h : UnderWay c.publisher r i s)
    {draws : List (Draws × Int)} {es : List Emission} {g : RandomWalkGenerator} {e : Exchange}
    (hlength : draws.length ≤ s.owed)
    (hgenerate : generate c.publisher.generator draws s.loop.generator = some (es, g)) :
    UnderWay c.publisher r { i with draws := i.draws ++ draws } {
      loop := { s.loop with generator := g, published := s.loop.published ++ s.span es }
      owed := s.owed - draws.length
      exchange := e } := by
  obtain ⟨due, u, fs, hwait, hcount, hpublish⟩ := h.generated
  refine ⟨h.runs, due, u, fs ++ es, hwait, ?_, publish_append hpublish (publish_span hgenerate)⟩
  rw [hcount, List.length_append, Nat.add_assoc, Nat.add_sub_cancel' hlength]

/-- Behind its wait a batch is under way, with none of it generated. -/
theorem underWay_due {now : Int} {polls : List Poll} {due : Int} {u : RateGovernor}
    (hruns : s.loop.stopped = false)
    (hwait : waitForNextBatch c.publisher.governor
      ((Publisher.advance c.publisher now s.loop).clock.effectiveEventsPerSecond
        c.publisher.session c.publisher.baseEventsPerSecond) polls
      (Publisher.advance c.publisher now s.loop).governor = some (.due due, u, [])) :
    UnderWay c.publisher s.loop ⟨now, polls, []⟩ { s with
      loop := { Publisher.advance c.publisher now s.loop with
        governor := (scheduleBatch c.publisher.governor due u
          ((Publisher.advance c.publisher now s.loop).clock.effectiveEventsPerSecond
            c.publisher.session c.publisher.baseEventsPerSecond)).2 }
      owed := (scheduleBatch c.publisher.governor due u
        ((Publisher.advance c.publisher now s.loop).clock.effectiveEventsPerSecond
          c.publisher.session c.publisher.baseEventsPerSecond)).1.toNat } :=
  ⟨hruns, due, u, [], hwait, (Nat.zero_add _).symm, publish_nil _ _⟩

/-- A batch stays under way, or is an iteration. -/
theorem Refines.of_underWay {g : RandomWalkGenerator} {anchor : Int} {r : PublisherRun}
    {loop : Loop} {i : Iteration} (h : UnderWay c.publisher loop i t) (hloop : loop = r.loop)
    (hpublished : t.exchange.published.flatten = t.loop.published.map wireRecord)
    (hpasses : ∀ batch ∈ t.exchange.published,
      0 < batch.length ∧ batch.length ≤ calculateBatchCapacity c.publisher) :
    ∃ is r', (publisher c.publisher g anchor).runFrom r is = some r' ∧ Refines c t r' := by
  subst hloop
  by_cases hdone : t.owed = 0
  · obtain ⟨r', hstep, hloop⟩ := h.finish hdone
    exact ⟨[i], r', (Machine.runFrom_singleton _ _ _).trans hstep, fun _ => hloop.symm,
      fun hpos => by omega, hpublished, hpasses⟩
  · exact ⟨[], r, rfl, fun hzero => absurd hzero hdone, fun _ => ⟨i, h⟩, hpublished, hpasses⟩

/-- A step of the service is matched by the loop's own steps. -/
theorem Refines.step {g : RandomWalkGenerator} {anchor : Int} {r : PublisherRun}
    (h : Refines c s r) {a : Action} (hstep : s.step c a = some t) :
    ∃ is r', (publisher c.publisher g anchor).runFrom r is = some r' ∧ Refines c t r' := by
  cases step_cases hstep with
  | @due now polls due u hbetween hruns hwait =>
    refine Refines.of_underWay (underWay_due hruns hwait) (h.between hbetween) ?_ h.passes
    dsimp only
    rw [(advance_published _ _ _).1]
    exact h.published
  | @canceled now polls u hbetween hruns hwait =>
    have hsame := h.between hbetween
    have hemit : emitBatch c.publisher polls [] (Publisher.advance c.publisher now r.loop) =
        some ([], { Publisher.advance c.publisher now s.loop with
          governor := u
          stopped := true }) := by
      rw [hsame] at hwait ⊢
      simp only [emitBatch, hwait]
    obtain ⟨r', hstopped, hloop⟩ :=
      exists_iteration (i := ⟨now, polls, []⟩) (hsame ▸ hruns) hemit
    refine ⟨[⟨now, polls, []⟩], r', (Machine.runFrom_singleton _ _ _).trans hstopped,
      fun _ => hloop.symm, fun hpos => absurd hbetween hpos.ne', ?_, h.passes⟩
    dsimp only
    rw [(advance_published _ _ _).1]
    exact h.published
  | @passed draws es g' e howes hlength hgenerate hpublish =>
    obtain ⟨i, hunder⟩ := h.underWay howes
    have hpassed : e.published = s.exchange.published ++ [(s.span es).map wireRecord] := by
      cases Exchange.step_cases hpublish with
      | published => rfl
    refine Refines.of_underWay (underWay_pass hunder (by omega) hgenerate) rfl ?_
      fun batch hbatch => ?_
    · dsimp only
      rw [hpassed, List.flatten_append, h.published, List.map_append]
      simp
    · dsimp only at hbatch
      rw [hpassed] at hbatch
      rcases List.mem_append.mp hbatch with hold | hnew
      · exact h.passes batch hold
      · rw [List.mem_singleton.mp hnew, List.length_map, length_span,
          generate_length hgenerate]
        have hroom := one_le_calculateBatchCapacity c.publisher
        omega
  | @exchange a e hpublish hexchange =>
    have hsame := published_of_step hexchange hpublish
    refine ⟨[], r, rfl, h.between, fun hpos => ?_, hsame ▸ h.published, hsame ▸ h.passes⟩
    obtain ⟨i, hunder⟩ := h.underWay hpos
    exact ⟨i, hunder.runs, hunder.generated⟩

/-- A service that has just been built. -/
theorem Refines.init (c : ServiceConfig) (g : RandomWalkGenerator) (anchor : Int) :
    Refines c (feedPublisherService c g anchor).init (publisher c.publisher g anchor).init where
  between _ := rfl
  underWay hpos := absurd hpos (Nat.lt_irrefl 0)
  published := rfl
  passes _ hbatch := absurd hbatch List.not_mem_nil

/-- Every run of the service is one of a loop whose buffer has room for every batch. -/
theorem exists_refines {g : RandomWalkGenerator} {anchor : Int} {as : List Action}
    (h : (feedPublisherService c g anchor).run as = some s) :
    ∃ iterations r, (publisher c.publisher g anchor).run iterations = some r ∧ Refines c s r :=
  Machine.exists_runFrom_of_simulation (R := Refines c)
    (fun _ _ _ _ hR hstep => hR.step hstep) (Refines.init c g anchor) h

/-- The rate in force is no more than the buffer is sized for. -/
theorem effectiveEventsPerSecond_le {c : PublisherConfig}
    (hmax : 0 ≤ c.session.maxEventsPerSecond) (clock : MarketSessionClock) :
    clock.effectiveEventsPerSecond c.session c.baseEventsPerSecond ≤
      max c.session.maxEventsPerSecond c.baseEventsPerSecond := by
  refine le_trans ?_ (le_max_left _ _)
  unfold MarketSessionClock.effectiveEventsPerSecond
  split_ifs with hbase hover hunder
  · exact hmax
  · exact le_rfl
  · exact hmax
  · exact not_lt.mp hover

/-- What a batch accrues is no more than the buffer is sized for. -/
theorem accrued_le_withCatchUp {c : PublisherConfig} {rate : ℚ} (hrate : 0 ≤ rate)
    (hpeak : rate ≤ max c.session.maxEventsPerSecond c.baseEventsPerSecond) (now : Int)
    (u : RateGovernor) : totalSeconds (accrued c.governor now u) * rate ≤ withCatchUp c := by
  have hseconds : totalSeconds ((1 + c.governor.maxCatchUpBatches) * c.governor.batchInterval) =
      (1 + c.governor.maxCatchUpBatches : ℚ) * c.governor.batchIntervalMs / 1000 := by
    rw [totalSeconds, GovernorConfig.batchInterval, ticksPerMillisecond]
    push_cast
    ring
  have hnonneg : (0 : ℚ) ≤ (1 + c.governor.maxCatchUpBatches) * c.governor.batchIntervalMs / 1000 :=
    by positivity
  calc totalSeconds (accrued c.governor now u) * rate
      ≤ (1 + c.governor.maxCatchUpBatches : ℚ) * c.governor.batchIntervalMs / 1000 * rate :=
        mul_le_mul_of_nonneg_right
          (hseconds ▸ totalSeconds_mono (accrued_le c.governor now u)) hrate
    _ ≤ (1 + c.governor.maxCatchUpBatches : ℚ) * c.governor.batchIntervalMs / 1000 *
          max c.session.maxEventsPerSecond c.baseEventsPerSecond :=
        mul_le_mul_of_nonneg_left hpeak hnonneg
    _ = withCatchUp c := by rw [withCatchUp]; ring

/-- A batch that owes less than one event more than the buffer is sized for fits. -/
theorem emission_le_calculateBatchCapacity {c : PublisherConfig} {owed : ℚ} (hnonneg : 0 ≤ owed)
    (howed : owed < 1 + withCatchUp c) (hfits : withCatchUp c < maxBatchCapacity) :
    (emission owed).toNat ≤ calculateBatchCapacity c := by
  have hemit : (emission owed : ℚ) < 1 + withCatchUp c := (emission_le hnonneg).trans_lt howed
  unfold calculateBatchCapacity
  split_ifs with hsmall hlarge
  · have hlt : (emission owed : ℚ) < ((minBatchCapacity + 1 : Nat) : ℚ) := by
      push_cast
      linarith
    have hlt : emission owed < ((minBatchCapacity + 1 : Nat) : Int) := by exact_mod_cast hlt
    omega
  · exact absurd hfits (not_lt.mpr hlarge)
  · have hbefore : ((emission owed - 1 : Int) : ℚ) < withCatchUp c := by
      push_cast
      linarith
    have hlt := Int.lt_ceil.mpr hbefore
    omega

/-- The loop carries a fraction of an event, and a batch under way fits in the buffer. -/
structure Fits (c : ServiceConfig) (s : FeedPublisherService) : Prop where
  fraction : Fractional s.loop.governor.owedEvents
  owed : s.owed ≤ calculateBatchCapacity c.publisher

/-- A clock that moves leaves the governor alone. -/
theorem advance_governor (c : PublisherConfig) (now : Int) (s : Loop) :
    (Publisher.advance c now s).governor = s.governor := by
  unfold Publisher.advance onPhaseChanged
  dsimp only
  split <;> rfl

theorem owedEvents_of_awaited {c : GovernorConfig} {polls : List Poll} {u v : RateGovernor}
    {start : Option Int} (h : Awaited c polls u v start) : v.owedEvents = u.owedEvents := by
  cases h <;> rfl

theorem Fits.step (h : Fits c s) (hmax : 0 ≤ c.publisher.session.maxEventsPerSecond)
    (hfits : withCatchUp c.publisher < maxBatchCapacity) {a : Action}
    (hstep : s.step c a = some t) : Fits c t := by
  cases step_cases hstep with
  | @due now polls due u hbetween hruns hwait =>
    rcases waitForNextBatch_cases hwait with ⟨-, hwake, -⟩ | ⟨hrate, -, start, hawait⟩
    · cases hwake
    · have hcarried : u.owedEvents = s.loop.governor.owedEvents :=
        (owedEvents_of_awaited hawait).trans
          (congrArg RateGovernor.owedEvents (advance_governor _ _ _))
      have hpeak := effectiveEventsPerSecond_le hmax
        (Publisher.advance c.publisher now s.loop).clock
      have haccrued := accrued_le_withCatchUp hrate hpeak due u
      have hadded := mul_nonneg (totalSeconds_nonneg (accrued_nonneg c.publisher.governor due u))
        hrate
      obtain ⟨hnonneg, hlt⟩ := h.fraction
      rw [← hcarried] at hnonneg hlt
      have hbound : withCatchUp c.publisher < 262144 := by exact_mod_cast hfits
      refine ⟨?_, emission_le_calculateBatchCapacity (add_nonneg hnonneg hadded) (by linarith)
        hfits⟩
      dsimp only
      rw [scheduleBatch_owedEvents]
      exact (fractional_sub_emission_iff (add_nonneg hnonneg hadded)).mpr (by linarith)
  | canceled hbetween _ hwait =>
    rcases waitForNextBatch_cases hwait with ⟨-, hwake, -⟩ | ⟨-, -, start, hawait⟩
    · cases hwake
    · refine ⟨?_, h.owed⟩
      dsimp only
      rw [owedEvents_of_awaited hawait, advance_governor]
      exact h.fraction
  | passed => exact ⟨h.fraction, (Nat.sub_le _ _).trans h.owed⟩
  | exchange => exact ⟨h.fraction, h.owed⟩

end FeedPublisherService

end Tckr.Publisher
