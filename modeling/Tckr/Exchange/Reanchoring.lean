import Tckr.Exchange.Publisher

/-!
# Bands across sessions

A trading session is bound by the band its opening should derive exactly as far as
the band in force lies within it and no trade has been counted yet. The loop does
not make this so: it never resets the generator. Where it holds whenever a session
opens, it lasts for the session, because an event keeps the band and counts the
trade it prints.
-/

namespace Tckr.Publisher

open Protocol Session Generation

variable {c : PublisherConfig} {g g' : RandomWalkGenerator}

/-- A symbol's state is as the opening of a session leaves it: nothing counted, and the band in
force within the one derived from where the mid stands. -/
def Anchored (c : GeneratorConfig) (states : List SymbolState) (index : Nat) (s : SymbolState) :
    Prop :=
  s.tradesToday = 0 ∧ ∃ band ∈ reanchoredBand c states index,
    band.1 ≤ s.lowerBandScaled ∧ s.upperBandScaled ≤ band.2

instance (c : GeneratorConfig) (states : List SymbolState) (index : Nat) (s : SymbolState) :
    Decidable (Anchored c states index s) :=
  inferInstanceAs (Decidable (_ ∧ _))

/-- Where the clock leaves `closed`, every symbol is anchored already. -/
def OpensAnchored (c : PublisherConfig) (s : PublisherRun) (i : Iteration) : Prop :=
  s.loop.clock.currentPhase = .closed →
    (c.session.resolve s.loop.clock.anchor i.now).1 ≠ .closed →
    ∀ index ∈ List.range s.loop.generator.states.length,
      ∀ state ∈ s.loop.generator.states[index]?,
        Anchored c.generator s.loop.generator.states index state

instance (c : PublisherConfig) (s : PublisherRun) (i : Iteration) :
    Decidable (OpensAnchored c s i) := by
  unfold OpensAnchored
  infer_instance

/-- What a session has emitted lies in its bands, and its trades are the ones counted. -/
structure InBand (c : GeneratorConfig) (session : TradingSession) (g : RandomWalkGenerator) :
    Prop where
  priced : ∀ e ∈ session.emitted, ∃ band ∈ reanchoredBand c session.opened e.index,
    band.1 ≤ e.record.priceScaled ∧ e.record.priceScaled ≤ band.2
  bounded : ∀ (index : Nat) s, g.states[index]? = some s →
    ∃ band ∈ reanchoredBand c session.opened index,
      band.1 ≤ s.lowerBandScaled ∧ s.upperBandScaled ≤ band.2
  counted : ∀ (index : Nat) s, g.states[index]? = some s →
    s.tradesToday = UInt32.ofNat (session.trades index)

/-! ## One event -/

/-- An event counts the trade it prints. -/
theorem nextSymbol_tradesToday (o : GenerationOptions) (d : Draws) (s : SymbolState) :
    (nextSymbol o d s).tradesToday =
      if messageType o d = .trade then s.tradesToday + 1 else s.tradesToday := by
  unfold nextSymbol
  split
  · rename_i htype
    rw [if_pos htype]
  all_goals
    rename_i htype
    rw [if_neg (by rw [htype]; exact nofun)]

/-- One more event counts for its own symbol, if it is a trade. -/
theorem trades_append (session : TradingSession) (e : Emission) (index : Nat) :
    TradingSession.trades { session with emitted := session.emitted ++ [e] } index =
      session.trades index + if e.index = index ∧ e.record.messageType = .trade then 1 else 0 := by
  unfold TradingSession.trades
  rw [List.countP_append, List.countP_singleton]
  by_cases h : e.index = index ∧ e.record.messageType = .trade
  · simp only [h, and_self, decide_true, ite_true]
  · simp only [h, decide_false, Bool.false_eq_true, ite_false]

/-- The price of an event lies in the band in force. -/
theorem eventPrice_mem_band {o : GenerationOptions} {tick : Int} {s : SymbolState}
    (h : Walking o tick s) (ho : o.Validated) (d : Draws) :
    s.lowerBandScaled ≤ eventPrice o d s ∧ eventPrice o d s ≤ s.upperBandScaled := by
  obtain ⟨hlower, -, -, hupper, -⟩ := h.nextQuote_mem ho d
  obtain ⟨⟨hbid, hask⟩, -, -⟩ := h.eventPrice_mem ho d
  exact ⟨hlower.trans hbid, hask.trans hupper⟩

/-- An event stays in the session's band and is counted. -/
theorem InBand.emit {c : GeneratorConfig} {session : TradingSession} (h : InBand c session g)
    (hg : Sound c g) (ho : c.options.Validated) {d : Draws} {index : Nat} {r : TapeRecord}
    {definition : SymbolDefinition} {s : SymbolState}
    (he : Emits c d g index r g' definition s) :
    InBand c { session with emitted := session.emitted ++ [⟨index, r⟩] } g' := by
  have hlt : index < g.states.length := (List.getElem?_eq_some_iff.mp he.state_eq).1
  refine ⟨?_, ?_, ?_⟩
  · intro e hmem
    rcases List.mem_append.mp hmem with hmem | hmem
    · exact h.priced e hmem
    · rw [List.mem_singleton.mp hmem]
      obtain ⟨band, hband, hlower, hupper⟩ := h.bounded index s he.state_eq
      obtain ⟨hlo, hhi⟩ := eventPrice_mem_band
        (hg.walking index definition s he.definition_eq he.state_eq) ho d
      exact ⟨band, hband, by rw [he.priceScaled_eq]; omega, by rw [he.priceScaled_eq]; omega⟩
  · intro i s' hs'
    rw [he.states_eq] at hs'
    by_cases hi : index = i
    · subst hi
      rw [List.getElem?_set_self hlt, Option.some.injEq] at hs'
      rw [← hs', nextSymbol_lower, nextSymbol_upper]
      exact h.bounded index s he.state_eq
    · rw [List.getElem?_set_ne hi] at hs'
      exact h.bounded i s' hs'
  · intro i s' hs'
    rw [he.states_eq] at hs'
    rw [trades_append]
    by_cases hi : index = i
    · subst hi
      rw [List.getElem?_set_self hlt, Option.some.injEq] at hs'
      rw [← hs', nextSymbol_tradesToday, h.counted index s he.state_eq, he.messageType_eq]
      by_cases htrade : messageType c.options d = .trade
      · simp only [htrade, and_self, ite_true, UInt32.ofNat_add]
        rfl
      · simp only [htrade, and_false, ite_false, Nat.add_zero]
    · rw [List.getElem?_set_ne hi] at hs'
      simp only [hi, false_and, ite_false, Nat.add_zero]
      exact h.counted i s' hs'

/-! ## One batch -/

/-- A batch keeps every symbol walking. -/
theorem generate_sound {c : GeneratorConfig} {draws : List (Draws × Int)} {es : List Emission}
    (hg : Sound c g) (h : generate c draws g = some (es, g')) : Sound c g' := by
  induction draws generalizing g es with
  | nil =>
    simp only [generate, Option.some.injEq, Prod.mk.injEq] at h
    exact h.2 ▸ hg
  | cons draw draws ih =>
    simp only [generate, Option.bind_eq_some_iff, Option.map_eq_some_iff] at h
    obtain ⟨⟨index, r, g₁⟩, hnext, ⟨rest, g₂⟩, hrest, heq⟩ := h
    obtain ⟨definition, s, he⟩ := next_emits hnext
    obtain ⟨-, rfl⟩ := Prod.mk.inj heq
    exact ih (hg.of_emits he) hrest

/-- A batch stays in the session's band and is counted. -/
theorem InBand.generate {c : GeneratorConfig} {draws : List (Draws × Int)} {es : List Emission}
    {session : TradingSession} (hband : InBand c session g) (hg : Sound c g)
    (ho : c.options.Validated) (h : generate c draws g = some (es, g')) :
    InBand c { session with emitted := session.emitted ++ es } g' := by
  induction draws generalizing g es session with
  | nil =>
    simp only [Publisher.generate, Option.some.injEq, Prod.mk.injEq] at h
    obtain ⟨rfl, rfl⟩ := h
    simpa only [List.append_nil] using hband
  | cons draw draws ih =>
    simp only [Publisher.generate, Option.bind_eq_some_iff, Option.map_eq_some_iff] at h
    obtain ⟨⟨index, r, g₁⟩, hnext, ⟨rest, g₂⟩, hrest, heq⟩ := h
    obtain ⟨definition, s, he⟩ := next_emits hnext
    obtain ⟨rfl, rfl⟩ := Prod.mk.inj heq
    have htail := ih (hband.emit hg ho he) (hg.of_emits he) hrest
    simpa only [List.append_assoc, List.singleton_append] using htail

/-! ## One pass through the loop -/

/-- Advancing the clock leaves the generator alone. -/
theorem advance_spec (c : PublisherConfig) (now : Int) (s : Loop) :
    (advance c now s).generator = s.generator ∧
      (advance c now s).clock.currentPhase = (c.session.resolve s.clock.anchor now).1 := by
  unfold advance onPhaseChanged
  dsimp only
  split <;> exact ⟨rfl, rfl⟩

/-- Whatever a pass emits, it takes from the generator. -/
theorem emitBatch_generates {polls : List Poll} {draws : List (Draws × Int)} {s t : Loop}
    {es : List Emission} (h : emitBatch c polls draws s = some (es, t)) :
    ∃ taken, generate c.generator taken s.generator = some (es, t.generator) := by
  unfold emitBatch at h
  dsimp only at h
  split at h
  · split at h
    · simp only [publish, Option.map_eq_some_iff, Prod.mk.injEq] at h
      obtain ⟨result, hresult, rfl, rfl⟩ := h
      exact ⟨draws, hresult⟩
    · cases h
  · simp only [Option.some.injEq, Prod.mk.injEq] at h
    obtain ⟨rfl, rfl⟩ := h
    exact ⟨[], rfl⟩
  · cases h

/-- The symbols walk, and the session under way is in its bands. -/
structure Bound (c : PublisherConfig) (s : PublisherRun) : Prop where
  sound : Sound c.generator s.loop.generator
  inBand : ∀ session, s.session = some session → InBand c.generator session s.loop.generator

/-- A session that opens anchored starts in its bands. -/
theorem Bound.opened {s : PublisherRun} (h : Bound c s) {i : Iteration} (ha : OpensAnchored c s i)
    {session : TradingSession}
    (hs : sessionAfter s.loop.clock.currentPhase
      (c.session.resolve s.loop.clock.anchor i.now).1 s.loop.generator.states s.session =
        some session) : InBand c.generator session s.loop.generator := by
  unfold sessionAfter at hs
  split at hs
  · exact absurd hs nofun
  · rename_i hopen
    split at hs
    · rename_i hclosed
      have hanchored := ha hclosed hopen
      simp only [Option.some.injEq] at hs
      subst hs
      have hall : ∀ (index : Nat) state, s.loop.generator.states[index]? = some state →
          Anchored c.generator s.loop.generator.states index state := fun index state hstate =>
        hanchored index (List.mem_range.mpr (List.getElem?_eq_some_iff.mp hstate).1) state hstate
      exact ⟨fun _ he => absurd he List.not_mem_nil,
        fun index state hstate => (hall index state hstate).2,
        fun index state hstate => (hall index state hstate).1⟩
    · exact h.inBand session hs

/-- What one pass through the loop preserves. -/
theorem Bound.step {s t : PublisherRun} {i : Iteration} (h : Bound c s)
    (ho : c.generator.options.Validated) (ha : OpensAnchored c s i) (ht : s.step c i = some t) :
    Bound c t := by
  unfold PublisherRun.step at ht
  split at ht
  · exact absurd ht nofun
  · obtain ⟨hgenerator, hphase⟩ := advance_spec c i.now s.loop
    simp only [Option.map_eq_some_iff] at ht
    obtain ⟨⟨es, u⟩, hemit, rfl⟩ := ht
    obtain ⟨taken, hgenerate⟩ := emitBatch_generates hemit
    rw [hgenerator] at hgenerate
    refine ⟨generate_sound h.sound hgenerate, ?_⟩
    intro session hsession
    rw [hgenerator, hphase] at hsession
    obtain ⟨before, hbefore, rfl⟩ := Option.map_eq_some_iff.mp hsession
    exact (h.opened ha hbefore).generate h.sound ho hgenerate

/-- One instrument of a hundred ticks in a band of one, and a compressed day of a minute with one
continuous phase. -/
def oneSymbolDay : PublisherConfig where
  session := {
    mode := .compressedDay
    timeOfDay := id
    compressedDurationMinutes := 1
    phases := [⟨.continuousMorning, 360000000000, 396000000000, 1⟩] }
  generator := {
    symbolUniverse := {
      symbols := [⟨⟨1⟩, 1, 1 / 100, 10⟩]
      picker := {
        thresholds := [4294967295]
        aliases := [0]
        length_eq := rfl
        length_pos := by decide
        aliases_lt := by decide }
      picker_length := rfl }
    options := { dailyBandBasisPoints := 1, maxSpreadTicks := 1 } }
  baseEventsPerSecond := 40

/-- A closed start, a session that prints one trade a tick higher, a closed phase, and a second
session that quotes one bid. -/
def twoDays : List Iteration :=
  [ ⟨0, [⟨0, false⟩, ⟨0, false⟩], []⟩,
    ⟨70000000, [⟨70000000, false⟩], [(⟨0, 18446744069414584320, 0, 0, 0⟩, 0)]⟩,
    ⟨600000000, [⟨600000000, false⟩], []⟩,
    ⟨670000000, [⟨670000000, false⟩], [(⟨0, 18446744069414584320, 2147483648, 0, 0⟩, 0)]⟩ ]

end Tckr.Publisher
