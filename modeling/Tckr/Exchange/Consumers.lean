import Tckr.Exchange.BatchBuffer
import Tckr.Exchange.Generation.Timestamps

/-!
# What the consumers hold

The loop never opens a session in the generator, so all it publishes walks in the bands
of the generator's construction; and it reads a clock that does not go back, so no record
is older than the one before it. Every consumer holds a part of that one tape.
-/

namespace Tckr.Publisher

open Protocol Session Generation Feed

/-! ## One tape -/

/-- A record of the tape: of a listed symbol, on its grid, and in the band it was opened with. -/
structure OnTape (c : GeneratorConfig) (g : RandomWalkGenerator) (r : TapeRecord) : Prop where
  isTick : r.messageType.isTick = true
  priced : ∃ (index : Nat) (definition : SymbolDefinition) (s : SymbolState),
    c.symbolUniverse.symbols[index]? = some definition ∧ g.states[index]? = some s ∧
    r.symbol = definition.packed ∧ toScaled definition.tickSize ∣ r.priceScaled ∧
    toScaled definition.tickSize ≤ r.priceScaled ∧
    s.lowerBandScaled ≤ r.priceScaled ∧ r.priceScaled ≤ s.upperBandScaled

/-- The bands of a generator are those of another. -/
def SameBands (g g' : RandomWalkGenerator) : Prop :=
  ∀ (index : Nat) s', g'.states[index]? = some s' → ∃ s, g.states[index]? = some s ∧
    s.lowerBandScaled = s'.lowerBandScaled ∧ s.upperBandScaled = s'.upperBandScaled

section Events

variable {c : GeneratorConfig} {g₀ g g' : RandomWalkGenerator}

/-- A record is of the symbol its draw picks. -/
theorem next_symbol {d : Draws} {timestamp : Int} {index : Nat} {r : TapeRecord}
    (h : next c d timestamp g = some (index, r, g')) :
    ∃ definition, c.symbolUniverse.symbols[index]? = some definition ∧
      r.symbol = definition.packed := by
  unfold next at h
  dsimp only at h
  split at h
  · rename_i definition _ hdefinition
    simp only [Option.some.injEq, Prod.mk.injEq] at h
    obtain ⟨rfl, rfl, -⟩ := h
    exact ⟨definition, hdefinition, rfl⟩
  · cases h

theorem messageType_isTick (o : GenerationOptions) (d : Draws) :
    (messageType o d).isTick = true := by
  unfold messageType
  split_ifs <;> rfl

/-- An event moves a symbol within its band. -/
theorem SameBands.emits (h : SameBands g₀ g) {d : Draws} {index : Nat} {r : TapeRecord}
    {definition : SymbolDefinition} {s : SymbolState} (he : Emits c d g index r g' definition s) :
    SameBands g₀ g' := by
  intro i s' hs'
  rw [he.states_eq] at hs'
  by_cases hi : index = i
  · subst hi
    rw [List.getElem?_set_self (List.getElem?_eq_some_iff.mp he.state_eq).1,
      Option.some.injEq] at hs'
    rw [← hs', nextSymbol_lower, nextSymbol_upper]
    exact h index s he.state_eq
  · rw [List.getElem?_set_ne hi] at hs'
    exact h i s' hs'

/-- What a sound generator emits is on the tape. -/
theorem onTape_next (ho : c.options.Validated) (hsound : Sound c g) (hbands : SameBands g₀ g)
    {d : Draws} {timestamp : Int} {index : Nat} {r : TapeRecord}
    (h : next c d timestamp g = some (index, r, g')) :
    OnTape c g₀ r ∧ Sound c g' ∧ SameBands g₀ g' := by
  obtain ⟨definition, s, he⟩ := next_emits h
  obtain ⟨definition', hdefinition', hsymbol⟩ := next_symbol h
  rw [he.definition_eq, Option.some.injEq] at hdefinition'
  subst hdefinition'
  have hwalk := hsound.walking index definition s he.definition_eq he.state_eq
  have hconforms := hwalk.conforms ho d he.messageType_eq he.priceScaled_eq
  obtain ⟨hlower, hupper⟩ := eventPrice_mem_band hwalk ho d
  obtain ⟨s₀, hs₀, hlow, hhigh⟩ := hbands index s he.state_eq
  refine ⟨⟨?_, index, definition, s₀, he.definition_eq, hs₀, hsymbol, ?_, hconforms.positive, ?_,
    ?_⟩, hsound.of_emits he, hbands.emits he⟩
  · rw [he.messageType_eq]
    exact messageType_isTick c.options d
  · exact hconforms.on_grid.2.2.2.2.2
  · rw [hlow, he.priceScaled_eq]
    exact hlower
  · rw [hhigh, he.priceScaled_eq]
    exact hupper

/-- So is a batch of it. -/
theorem onTape_generate (ho : c.options.Validated) (hsound : Sound c g) (hbands : SameBands g₀ g)
    {draws : List (Draws × Int)} {es : List Emission}
    (h : generate c draws g = some (es, g')) :
    (∀ e ∈ es, OnTape c g₀ e.record) ∧ Sound c g' ∧ SameBands g₀ g' := by
  induction draws generalizing g es with
  | nil =>
    simp only [generate, Option.some.injEq, Prod.mk.injEq] at h
    obtain ⟨rfl, rfl⟩ := h
    exact ⟨fun e he => absurd he List.not_mem_nil, hsound, hbands⟩
  | cons draw draws ih =>
    simp only [generate, Option.bind_eq_some_iff, Option.map_eq_some_iff] at h
    obtain ⟨⟨index, r, g₁⟩, hnext, ⟨rest, g₂⟩, hrest, heq⟩ := h
    obtain ⟨rfl, rfl⟩ := Prod.mk.inj heq
    obtain ⟨hr, hsound', hbands'⟩ := onTape_next ho hsound hbands hnext
    obtain ⟨hall, hlast⟩ := ih hsound' hbands' hrest
    refine ⟨fun e he => ?_, hlast⟩
    rcases List.mem_cons.mp he with rfl | he
    · exact hr
    · exact hall e he

/-! ## Its times -/

/-- The time of a reading. -/
def stampAt (c : GeneratorConfig) (g : RandomWalkGenerator) (reading : Int) : Int :=
  (nextTimestampNanos c reading g).1

/-- Without a bound on the integers both conversions are exact. -/
theorem nextTimestampNanos_real (hreal : c.options.deterministicTimestamps = false)
    (hpos : 1 ≤ c.stopwatchFrequency) (reading : Int) :
    nextTimestampNanos c reading g = (exactNanos c g reading, g) := by
  have hfrequency : 0 < (c.stopwatchFrequency : Int) := by omega
  unfold nextTimestampNanos exactNanos
  simp only [hreal, Bool.false_eq_true, if_false, Prod.mk.injEq, and_true]
  split
  · rename_i hmultiply
    rw [nanosPerStopwatchTick_mul hmultiply]
  · rw [scaleTicksToNanos, scale_split _ hfrequency]

/-- An event carries the time of its reading, and moves the clock only. -/
theorem next_clock {d : Draws} {reading : Int} {index : Nat} {r : TapeRecord}
    (h : next c d reading g = some (index, r, g')) :
    r.exchangeTimestampNanos = stampAt c g reading ∧
      SameClock g' (nextTimestampNanos c reading g).2 := by
  unfold next at h
  dsimp only at h
  split at h
  · simp only [Option.some.injEq, Prod.mk.injEq] at h
    obtain ⟨-, rfl, rfl⟩ := h
    exact ⟨rfl, ⟨rfl, rfl, rfl⟩⟩
  · cases h

/-- A later reading has no earlier time, also behind an event. -/
theorem stampAt_le (hpos : 1 ≤ c.stopwatchFrequency) {d : Draws} {reading last later : Int}
    {index : Nat} {r : TapeRecord} (h : next c d reading g = some (index, r, g'))
    (hlast : last ≤ later) : stampAt c g last ≤ stampAt c g' later := by
  obtain ⟨-, hunix, hticks, hnanos⟩ := next_clock h
  cases hmode : c.options.deterministicTimestamps with
  | true =>
    simp only [stampAt, nextTimestampNanos, hmode, if_true] at hnanos ⊢
    omega
  | false =>
    rw [nextTimestampNanos_real hmode hpos] at hunix hticks
    have hsame : exactNanos c g' later = exactNanos c g later := by
      rw [exactNanos, exactNanos, hunix, hticks]
    rw [stampAt, stampAt, nextTimestampNanos_real hmode hpos, nextTimestampNanos_real hmode hpos]
    exact (exactNanos_mono hpos g hlast).trans_eq hsame.symm

/-- The times emitted so far do not go back, nor behind the readings to come. -/
structure Timely (c : GeneratorConfig) (g : RandomWalkGenerator) (readings times : List Int) :
    Prop where
  ordered : readings.Pairwise (· ≤ ·) → times.Pairwise (· ≤ ·)
  behind : readings.Pairwise (· ≤ ·) → ∀ later, (∀ x ∈ readings, x ≤ later) →
    ∀ time ∈ times, time ≤ stampAt c g later

theorem Timely.init (c : GeneratorConfig) (g : RandomWalkGenerator) : Timely c g [] [] where
  ordered _ := List.Pairwise.nil
  behind _ _ _ _ h := absurd h List.not_mem_nil

/-- An event has the time of its reading. -/
theorem Timely.next {readings times : List Int} (ht : Timely c g readings times)
    (hpos : 1 ≤ c.stopwatchFrequency) {d : Draws} {reading : Int} {index : Nat} {r : TapeRecord}
    (h : next c d reading g = some (index, r, g')) :
    Timely c g' (readings ++ [reading]) (times ++ [r.exchangeTimestampNanos]) where
  ordered hreadings := by
    obtain ⟨hbefore, -, hlast⟩ := List.pairwise_append.mp hreadings
    refine List.pairwise_append.mpr ⟨ht.ordered hbefore, List.pairwise_singleton _ _, ?_⟩
    intro time htime stamp hstamp
    rw [List.mem_singleton.mp hstamp, (next_clock h).1]
    exact ht.behind hbefore reading (fun x hx => hlast x hx reading (by simp)) time htime
  behind hreadings later hlater time htime := by
    obtain ⟨hbefore, -, hlast⟩ := List.pairwise_append.mp hreadings
    have hreading : reading ≤ later := hlater reading (by simp)
    rcases List.mem_append.mp htime with hold | hnew
    · have hbehind := ht.behind hbefore reading (fun x hx => hlast x hx reading (by simp)) time hold
      exact hbehind.trans (stampAt_le hpos h hreading)
    · rw [List.mem_singleton.mp hnew, (next_clock h).1]
      exact stampAt_le hpos h hreading

/-- So has a batch of events. -/
theorem Timely.generate {readings times : List Int} (ht : Timely c g readings times)
    (hpos : 1 ≤ c.stopwatchFrequency) {draws : List (Draws × Int)} {es : List Emission}
    (h : generate c draws g = some (es, g')) :
    Timely c g' (readings ++ draws.map Prod.snd)
      (times ++ es.map fun e => e.record.exchangeTimestampNanos) := by
  induction draws generalizing g readings times es with
  | nil =>
    simp only [Publisher.generate, Option.some.injEq, Prod.mk.injEq] at h
    obtain ⟨rfl, rfl⟩ := h
    simpa using ht
  | cons draw draws ih =>
    simp only [Publisher.generate, Option.bind_eq_some_iff, Option.map_eq_some_iff] at h
    obtain ⟨⟨index, r, g₁⟩, hnext, ⟨rest, g₂⟩, hrest, heq⟩ := h
    obtain ⟨rfl, rfl⟩ := Prod.mk.inj heq
    simpa using ih (ht.next hpos hnext) hrest

end Events

/-! ## Every run -/

namespace FeedPublisherService

variable {c : ServiceConfig} {g₀ g : RandomWalkGenerator} {s t : FeedPublisherService}

/-- The stopwatch readings of an action. -/
def readings : Action → List Int
  | .pass draws => draws.map Prod.snd
  | .iterate .. | .exchange _ => []

/-- A stamp leaves what is on the tape on the tape, at its time. -/
theorem onTape_span {es : List Emission} (s : FeedPublisherService)
    (h : ∀ e ∈ es, OnTape c.publisher.generator g₀ e.record) :
    (∀ r ∈ s.span es, OnTape c.publisher.generator g₀ r) ∧
      (s.span es).map (·.exchangeTimestampNanos) =
        es.map fun e => e.record.exchangeTimestampNanos := by
  have hplain : ∀ r ∈ es.map Emission.record, OnTape c.publisher.generator g₀ r := by
    intro r hr
    obtain ⟨e, he, rfl⟩ := List.mem_map.mp hr
    exact h e he
  unfold span
  split
  · refine ⟨fun r hr => ?_, ?_⟩
    · obtain ⟨r', hr', rfl⟩ := List.mem_map.mp hr
      have htape := hplain r' hr'
      split
      · exact ⟨htape.isTick, htape.priced⟩
      · exact htape
    · rw [stampAuctionPrints, List.map_map, List.map_map]
      refine List.map_congr_left fun e _ => ?_
      dsimp only [Function.comp_apply]
      split <;> rfl
  · exact ⟨hplain, by rw [List.map_map]; rfl⟩

/-- The generator is sound, and what it emitted is the tape. -/
structure Tapes (c : ServiceConfig) (g₀ : RandomWalkGenerator) (s : FeedPublisherService)
    (readings : List Int) : Prop where
  sound : Sound c.publisher.generator s.loop.generator
  bands : SameBands g₀ s.loop.generator
  onTape : ∀ r ∈ s.loop.published, OnTape c.publisher.generator g₀ r
  timely : Timely c.publisher.generator s.loop.generator readings
    (s.loop.published.map (·.exchangeTimestampNanos))

/-- A clock that moves leaves the generator alone. -/
theorem Tapes.advance {read : List Int} (h : Tapes c g₀ s read) (now : Int) {loop : Loop}
    {owed : Nat}
    (hgenerator : loop.generator = (Publisher.advance c.publisher now s.loop).generator)
    (hpublished : loop.published = (Publisher.advance c.publisher now s.loop).published) :
    Tapes c g₀ { s with loop, owed := owed } read := by
  rw [(advance_spec _ _ _).1] at hgenerator
  rw [(advance_published _ _ _).1] at hpublished
  exact ⟨hgenerator ▸ h.sound, hgenerator ▸ h.bands, hpublished ▸ h.onTape,
    hgenerator ▸ hpublished ▸ h.timely⟩

theorem Tapes.step {read : List Int} (h : Tapes c g₀ s read)
    (ho : c.publisher.generator.options.Validated)
    (hpos : 1 ≤ c.publisher.generator.stopwatchFrequency) {a : Action}
    (hstep : s.step c a = some t) : Tapes c g₀ t (read ++ readings a) := by
  cases step_cases hstep with
  | due | canceled =>
    rw [readings, List.append_nil]
    exact h.advance _ rfl rfl
  | exchange =>
    rw [readings, List.append_nil]
    exact ⟨h.sound, h.bands, h.onTape, h.timely⟩
  | passed _ _ hgenerate =>
    obtain ⟨hemitted, hsound, hbands⟩ := onTape_generate ho h.sound h.bands hgenerate
    obtain ⟨hspan, htimes⟩ := onTape_span s hemitted
    refine ⟨hsound, hbands, fun r hr => ?_, ?_⟩
    · rcases List.mem_append.mp hr with hold | hnew
      · exact h.onTape r hold
      · exact hspan r hnew
    · rw [List.map_append, htimes]
      exact h.timely.generate hpos hgenerate

/-- Every run leaves the service with a tape. -/
theorem exists_tape {reading : ClockReading} {anchor : Int} {as : List Action}
    (ho : c.publisher.generator.options.Validated) (htick : TicksScale c.publisher.generator)
    (hpos : 1 ≤ c.publisher.generator.stopwatchFrequency)
    (hg : construct c.publisher.generator reading = some g)
    (h : (feedPublisherService c g anchor).run as = some s) :
    Tapes c g s (as.flatMap readings) := by
  have hinit : Tapes c g (feedPublisherService c g anchor).init [] :=
    ⟨Resettable.sound ⟨List.length_map _, fun hopen => absurd hopen Bool.false_ne_true⟩ ho htick hg,
      fun _ s hs => ⟨s, hs, rfl, rfl⟩, fun _ hr => absurd hr List.not_mem_nil, .init _ _⟩
  have htapes := Machine.run_invariant_with_outputs (m := feedPublisherService c g anchor)
    (f := fun _ => readings) (G := fun _ _ => True) (I := Tapes c g)
    (fun _ _ _ _ hs _ ht => hs.step ho hpos ht) hinit
    (Machine.guarded_of_forall _ (fun _ _ => trivial) _ as) h
  rwa [Machine.outputs_eq_flatMap h] at htapes

end FeedPublisherService

theorem comiService_validated : comiService.publisher.generator.options.Validated := by
  constructor <;> norm_num [comiService, oneSymbolDay, longMaxValue]

theorem ticksScale_comiService : TicksScale comiService.publisher.generator := by
  intro d hd
  obtain rfl := List.mem_singleton.mp hd
  decide +kernel

theorem construct_comiGenerator :
    construct comiService.publisher.generator ⟨0, 0⟩ = some comiGenerator := by decide +kernel

end Tckr.Publisher
