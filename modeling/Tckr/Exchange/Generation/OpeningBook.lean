import Tckr.Exchange.Generation.Quantity

/-!
# The opening book

Opening a session quotes one tick on either side of the anchor, by a formula of
its own. The band leaves that much room on either side whenever the anchor is two
ticks or more above zero; an anchor of one tick is quoted at a bid of zero, below
the band. Every event quotes inside the band wherever the session opened.
-/

namespace Tckr.Generation

/-- A two-sided market inside the band, on the grid and above zero. -/
structure ProperBook (tick : Int) (s : SymbolState) : Prop where
  lower_le_bid : s.lowerBandScaled ≤ s.bidScaled
  bid_lt_ask : s.bidScaled < s.askScaled
  ask_le_upper : s.askScaled ≤ s.upperBandScaled
  tick_dvd : tick ∣ s.bidScaled ∧ tick ∣ s.askScaled
  positive : 0 < s.bidScaled ∧ 0 < s.askScaled

variable {c : GeneratorConfig} {g g' : RandomWalkGenerator}

/-! ## The ticks of a universe that opened -/

/-- A positive price does not scale below zero. -/
theorem toScaled_nonneg {price : ℚ} (h : 0 < price) : 0 ≤ toScaled price := by
  unfold toScaled roundAwayFromZero
  rw [if_neg (by linarith)]
  exact Int.floor_nonneg.mpr (by linarith)

theorem divide_eq_some {a b q : Int} (h : divide a b = some q) : b ≠ 0 := by
  intro hb
  rw [divide, if_pos hb] at h
  cases h

/-- The first session snaps to the tick, so it opens on positive ticks only. -/
theorem tick_pos_of_reset {o : GenerationOptions} {d : SymbolDefinition} {s t : SymbolState}
    (hd : d.Validated) (h : resetSymbol o false d s = some t) : 1 ≤ toScaled d.tickSize := by
  have hnonneg := toScaled_nonneg hd.tickSize_pos
  simp only [resetSymbol, sessionAnchor, snapToTick, Bool.false_eq_true, ite_false,
    Option.bind_eq_some_iff, Option.map_eq_some_iff] at h
  obtain ⟨_, ⟨_, hdivide, -⟩, -⟩ := h
  have hne := divide_eq_some hdivide
  omega

/-- A generator that was built has positive ticks only. -/
theorem ticksScale_of_construct {reading : ClockReading} (hu : c.symbolUniverse.Loaded)
    (hg : construct c reading = some g) : TicksScale c := by
  intro d hd
  obtain ⟨i, hi, rfl⟩ := List.getElem_of_mem hd
  obtain ⟨hlength, hall⟩ := resetSymbols_getElem? (resetSession_states hg).1
  have hlt : i < g.states.length := by rwa [hlength, List.length_map]
  obtain ⟨s, -, hreset⟩ := hall i _ _ (List.getElem?_eq_getElem hi) (List.getElem?_eq_getElem hlt)
  exact tick_pos_of_reset (hu.validated _ hd) hreset

/-! ## One opening -/

section Opening

variable {o : GenerationOptions} {d : SymbolDefinition} {opened : Bool} {s t : SymbolState}

/-- The opening market and the band are laid around the same anchor. -/
theorem resetSymbol_eq {anchor : Int} (hanchor : sessionAnchor d opened s = some anchor)
    (h : resetSymbol o opened d s = some t) :
    ∃ span, bandSpan o anchor (toScaled d.tickSize) = some span ∧
      t.midPriceScaled = anchor ∧
      t.bidScaled = anchor - toScaled d.tickSize ∧ t.askScaled = anchor + toScaled d.tickSize ∧
      t.lowerBandScaled = (bands anchor (toScaled d.tickSize) span).1 ∧
      t.upperBandScaled = (bands anchor (toScaled d.tickSize) span).2 := by
  simp only [resetSymbol, hanchor, Option.bind_some, Option.bind_eq_some_iff,
    Option.map_eq_some_iff] at h
  obtain ⟨span, hspan, _, -, rfl⟩ := h
  exact ⟨span, hspan, rfl, rfl, rfl, rfl, rfl⟩

/-- One tick on either side of an anchor of at least two ticks lies in the band. -/
theorem bands_room {anchor tick span : Int} (hspan : tick ≤ span)
    (hroom : 2 * tick ≤ anchor) :
    (bands anchor tick span).1 ≤ anchor - tick ∧ anchor + tick ≤ (bands anchor tick span).2 := by
  unfold bands
  split
  · dsimp only
    omega
  · dsimp only
    omega

/-- The opening book is proper exactly when the anchor is two ticks or more. -/
theorem properBook_resetSymbol_iff (ho : o.Validated) (htick : 0 < toScaled d.tickSize)
    {anchor : Int} (hanchor : sessionAnchor d opened s = some anchor)
    (hdvd : toScaled d.tickSize ∣ anchor) (hle : toScaled d.tickSize ≤ anchor)
    (h : resetSymbol o opened d s = some t) :
    ProperBook (toScaled d.tickSize) t ↔ 2 * toScaled d.tickSize ≤ anchor := by
  obtain ⟨span, hspan, -, hbid, hask, hlower, hupper⟩ := resetSymbol_eq hanchor h
  obtain ⟨span', hspan', -, hwide⟩ := exists_bandSpan o anchor htick
  rw [hspan, Option.some.injEq] at hspan'
  have hone : (1 : Int) ≤ o.maxSpreadTicks := by
    have hmin := ho.one_le_minSpreadTicks
    have hmax := ho.minSpreadTicks_le
    omega
  have hfit : toScaled d.tickSize ≤ span := by
    have := le_mul_of_one_le_left htick.le hone
    omega
  constructor
  · intro hbook
    have hfloor := (bands_mem hle (htick.le.trans hfit)).1
    have hbelow := hbook.lower_le_bid
    omega
  · intro hroom
    obtain ⟨hbelow, habove⟩ := bands_room hfit hroom
    exact ⟨by omega, by omega, by omega,
      ⟨hbid ▸ dvd_sub hdvd dvd_rfl, hask ▸ dvd_add hdvd dvd_rfl⟩, by omega, by omega⟩

/-- Snapping leaves two ticks or more exactly of a price that rounds to as many. -/
theorem two_ticks_le_snapToTick {price tick p : Int} (htick : 0 < tick)
    (h : snapToTick price tick = some p) : 2 * tick ≤ p ↔ 2 * tick ≤ price + tick / 2 := by
  simp only [snapToTick, divide, htick.ne', ite_false, Option.map_some, Option.some.injEq] at h
  rw [← h, mul_le_mul_iff_left₀ htick, ← Int.le_ediv_iff_mul_le htick]
  omega

end Opening

/-- An event leaves a proper book, whatever the book before it. -/
theorem Walking.properBook_nextSymbol {o : GenerationOptions} {tick : Int} {s : SymbolState}
    (h : Walking o tick s) (ho : o.Validated) (d : Draws) :
    ProperBook tick (Generation.nextSymbol o d s) := by
  obtain ⟨hlower, -, -, hupper, hwidth⟩ := h.nextQuote_mem ho d
  obtain ⟨hmin, -⟩ := spreadTicks_mem ho d
  have hone := ho.one_le_minSpreadTicks
  have hspread : 0 < (spreadTicks o d : Int) * tick := mul_pos (by omega) h.tick_pos
  have hfloor := h.tick_le_lower
  have hpos := h.tick_pos
  constructor
  all_goals simp only [nextSymbol_bid, nextSymbol_ask, nextSymbol_lower, nextSymbol_upper]
  case lower_le_bid => exact hlower
  case bid_lt_ask => omega
  case ask_le_upper => exact hupper
  case tick_dvd => exact h.tick_dvd_nextQuote d
  case positive => omega

/-! ## Every run -/

/-- Every symbol quotes a proper book. -/
def ProperBooks (c : GeneratorConfig) (g : RandomWalkGenerator) : Prop :=
  Each c (fun definition s => ProperBook (toScaled definition.tickSize) s) g

/-- A new session opens while every walk stands two ticks or more above zero. -/
def ClearOfFloor (c : GeneratorConfig) (t : Tape) : Action → Prop
  | .next _ _ => True
  | .reset _ => Each c (fun definition s =>
      2 * toScaled definition.tickSize ≤ s.midPriceScaled) t.generator

/-- A run keeps its symbols walking. -/
theorem sound_run {reading : ClockReading} {actions : List Action} {t : Tape}
    (ho : c.options.Validated) (htick : TicksScale c) (hg : construct c reading = some g)
    (h : (tape c g).run actions = some t) : Sound c t.generator :=
  (Machine.run_invariant (m := tape c g) (I := Continuous c)
    (Continuous.init ho htick hg) (fun _ _ _ hs hu => hs.step ho htick hu) h).sound

/-- A later session's book is proper exactly when the walk stands two ticks or more above zero. -/
theorem Sound.properBook_resetSymbol_iff (h : Sound c g) (ho : c.options.Validated) {i : Nat}
    {definition : SymbolDefinition} {s t : SymbolState}
    (hdefinition : c.symbolUniverse.symbols[i]? = some definition) (hs : g.states[i]? = some s)
    (ht : resetSymbol c.options g.hasOpened definition s = some t) :
    ProperBook (toScaled definition.tickSize) t ↔
      2 * toScaled definition.tickSize ≤ s.midPriceScaled := by
  have hwalk := h.walking i definition s hdefinition hs
  rw [h.opened] at ht
  exact Generation.properBook_resetSymbol_iff ho hwalk.tick_pos rfl hwalk.tick_dvd_mid
    (hwalk.tick_le_lower.trans hwalk.lower_le_mid) ht

/-- The first session's book is proper exactly when the reference price rounds to two ticks
or more. -/
theorem properBook_construct_iff {reading : ClockReading} (ho : c.options.Validated)
    (htick : TicksScale c) (hg : construct c reading = some g) {i : Nat}
    {definition : SymbolDefinition} {s : SymbolState}
    (hdefinition : c.symbolUniverse.symbols[i]? = some definition) (hs : g.states[i]? = some s) :
    ProperBook (toScaled definition.tickSize) s ↔ 2 * toScaled definition.tickSize ≤
      toScaled definition.referencePrice + toScaled definition.tickSize / 2 := by
  obtain ⟨-, hall⟩ := resetSymbols_getElem? (resetSession_states hg).1
  obtain ⟨s', -, hreset⟩ := hall i definition s hdefinition hs
  have hpos : 0 < toScaled definition.tickSize :=
    htick definition (List.mem_of_getElem? hdefinition)
  obtain ⟨anchor, hsnap, hdvd, hle⟩ := exists_snapToTick (toScaled definition.referencePrice) hpos
  rw [← two_ticks_le_snapToTick hpos hsnap]
  have hanchor : sessionAnchor definition false s' = some anchor := hsnap
  exact properBook_resetSymbol_iff ho hpos hanchor hdvd hle hreset

/-- The two instruments with another first one. -/
def twoSymbolsWith (referencePrice tickSize : ℚ) : GeneratorConfig where
  symbolUniverse := {
    symbols := [⟨⟨1⟩, referencePrice, tickSize, 100⟩, ⟨⟨2⟩, 3 / 100, 1 / 100, 1⟩]
    picker := twoSymbols.symbolUniverse.picker
    picker_length := rfl }

theorem twoSymbolsWith_loaded {referencePrice tickSize : ℚ} (hprice : 0 < referencePrice)
    (htick : 0 < tickSize) : (twoSymbolsWith referencePrice tickSize).symbolUniverse.Loaded := by
  have hdistinct : [Protocol.Symbol8.mk 1, Protocol.Symbol8.mk 2].Nodup := by decide
  refine ⟨fun d hd => ?_, hdistinct, Nat.le_add_left 2 99997⟩
  simp only [twoSymbolsWith, List.mem_cons, List.not_mem_nil, or_false] at hd
  rcases hd with rfl | rfl
  · exact ⟨hprice, htick, by norm_num, by norm_num⟩
  · exact ⟨by norm_num, by norm_num, by norm_num, by norm_num⟩

/-- The first instrument trades at one tick. -/
def oneTick : GeneratorConfig := twoSymbolsWith (1 / 100) (1 / 100)

end Tckr.Generation
