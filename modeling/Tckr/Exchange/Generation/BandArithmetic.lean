import Tckr.Core.Checked
import Tckr.Exchange.Generation.OpeningBook

/-!
# The arithmetic of the band

Opening a session in 64-bit arithmetic, every operation checked. Where no
operation faults the session opens as it does in unbounded integers, and none
faults exactly when the tick scales to one or more and the anchor's product, its
upper band and, near the floor, its shifted band stay in range.
-/

namespace Tckr.Generation

open Checked

/-! ## Checked operations -/

/-- A scaled price; one out of range throws. -/
def toScaledChecked (price : ℚ) : Except Fault Int := fit 64 (toScaled price)

/-- A price on the tick grid, never below one tick. -/
def snapToTickChecked (price tick : Int) : Except Fault Int := do
  let rounded ← add 64 price (tick.tdiv 2)
  let ticks ← div 64 rounded tick
  mul 64 (max 1 ticks) tick

/-- The anchor of the new session. -/
def sessionAnchorChecked (d : SymbolDefinition) (hasOpened : Bool) (tick : Int)
    (s : SymbolState) : Except Fault Int :=
  if hasOpened then pure s.midPriceScaled
  else do
    let price ← toScaledChecked d.referencePrice
    snapToTickChecked price tick

/-- Half the width of the band. -/
def bandSpanChecked (o : GenerationOptions) (anchor tick : Int) : Except Fault Int := do
  let product ← mul 64 anchor o.dailyBandBasisPoints
  let width ← div 64 product 10000
  let ticks ← div 64 width tick
  let span ← mul 64 ticks tick
  let minimumSpan ← mul 64 o.maxSpreadTicks tick
  pure (if span < minimumSpan then minimumSpan else span)

/-- The band, moved up off the floor where it would not be positive. -/
def bandsChecked (anchor tick span : Int) : Except Fault (Int × Int) := do
  let lower ← sub 64 anchor span
  let upper ← add 64 anchor span
  if lower < tick then do
    let twice ← mul 64 2 span
    let shifted ← add 64 tick twice
    pure (tick, shifted)
  else pure (lower, upper)

/-- The state of a symbol whose session opens at an anchor. -/
def openChecked (o : GenerationOptions) (d : SymbolDefinition) (tick anchor : Int) :
    Except Fault SymbolState := do
  let span ← bandSpanChecked o anchor tick
  let band ← bandsChecked anchor tick span
  let multiplier ← div 64 longMaxValue span
  let bid ← sub 64 anchor tick
  let ask ← add 64 anchor tick
  pure {
    midPriceScaled := anchor
    lastTradePriceScaled := anchor
    bidScaled := bid
    askScaled := ask
    referencePriceScaled := anchor
    lowerBandScaled := band.1
    upperBandScaled := band.2
    reversionSpanScaled := span
    reversionMultiplier := multiplier.toNat
    tickSizeScaled := tick
    lotSize := d.lotSize
    tradesToday := 0 }

/-- Open a session for one symbol. -/
def resetSymbolChecked (o : GenerationOptions) (hasOpened : Bool) (d : SymbolDefinition)
    (s : SymbolState) : Except Fault SymbolState := do
  let tick ← toScaledChecked d.tickSize
  let anchor ← sessionAnchorChecked d hasOpened tick s
  openChecked o d tick anchor

/-- Open a session for every symbol, in the universe's order. -/
def resetSymbolsChecked (o : GenerationOptions) (hasOpened : Bool) :
    List SymbolDefinition → List SymbolState → Except Fault (List SymbolState)
  | d :: ds, s :: ss => do
    let t ← resetSymbolChecked o hasOpened d s
    let ts ← resetSymbolsChecked o hasOpened ds ss
    pure (t :: ts)
  | [], _ => pure []
  | _ :: _, [] => pure []

/-- Open a new trading session; the first one also anchors the clock. -/
def resetSessionChecked (c : GeneratorConfig) (reading : ClockReading) (g : RandomWalkGenerator) :
    Except Fault RandomWalkGenerator := do
  let states ← resetSymbolsChecked c.options g.hasOpened c.symbolUniverse.symbols g.states
  if g.hasOpened then pure { g with states }
  else do
    let anchorUnixNanos ← mul 64 reading.unixTimeMilliseconds 1000000
    pure { g with
      states
      anchorUnixNanos
      anchorStopwatchTicks := reading.timestamp
      deterministicNanos := c.options.deterministicEpochUnixNanos
      hasOpened := true }

/-- Build a generator: fresh states, and the first session opened. -/
def constructChecked (c : GeneratorConfig) (reading : ClockReading) :
    Except Fault RandomWalkGenerator :=
  resetSessionChecked c reading { states := c.symbolUniverse.symbols.map fun _ => {} }

/-! ## When they stay in range -/

/-- Half the width of the band of an anchor. -/
def halfWidth (o : GenerationOptions) (anchor tick : Int) : Int :=
  max (anchor * o.dailyBandBasisPoints / 10000 / tick * tick) (o.maxSpreadTicks * tick)

/-- The reference price on the tick grid. -/
def snapped (d : SymbolDefinition) : Int :=
  max 1 ((toScaled d.referencePrice + toScaled d.tickSize / 2) / toScaled d.tickSize) *
    toScaled d.tickSize

/-- The band around an anchor stays in 64 bits. -/
structure BandFits (o : GenerationOptions) (tick anchor : Int) : Prop where
  product_le : anchor * o.dailyBandBasisPoints ≤ longMaxValue
  upper_le : anchor + halfWidth o anchor tick ≤ longMaxValue
  shifted_le : anchor - halfWidth o anchor tick < tick →
    tick + 2 * halfWidth o anchor tick ≤ longMaxValue

/-- A definition whose first session opens in 64 bits. -/
structure OpensSafely (o : GenerationOptions) (d : SymbolDefinition) : Prop where
  one_le_tick : 1 ≤ toScaled d.tickSize
  price_le : toScaled d.referencePrice + toScaled d.tickSize / 2 ≤ longMaxValue
  band : BandFits o (toScaled d.tickSize) (snapped d)

/-- The state of a symbol whose session opens at an anchor, in unbounded integers. -/
def openedAt (o : GenerationOptions) (d : SymbolDefinition) (anchor : Int) : SymbolState :=
  let tick := toScaled d.tickSize
  let span := halfWidth o anchor tick
  { midPriceScaled := anchor
    lastTradePriceScaled := anchor
    bidScaled := anchor - tick
    askScaled := anchor + tick
    referencePriceScaled := anchor
    lowerBandScaled := (bands anchor tick span).1
    upperBandScaled := (bands anchor tick span).2
    reversionSpanScaled := span
    reversionMultiplier := (longMaxValue / span).toNat
    tickSizeScaled := tick
    lotSize := d.lotSize
    tradesToday := 0 }

theorem inRange_iff {x : Int} (h : 0 ≤ x) : InRange 64 x ↔ x ≤ longMaxValue := by
  unfold InRange longMaxValue
  omega

section Operations

variable {o : GenerationOptions} {d : SymbolDefinition} {tick anchor price p span : Int}

theorem toScaledChecked_eq_ok (h : 0 < d.tickSize) :
    toScaledChecked d.tickSize = .ok tick ↔
      toScaled d.tickSize ≤ longMaxValue ∧ toScaled d.tickSize = tick := by
  rw [toScaledChecked, fit_eq_ok, inRange_iff (toScaled_nonneg h)]

/-- Snapping throws at a tick of zero, and where rounding up leaves the range. -/
theorem snapToTickChecked_eq_ok (hprice : 0 ≤ price) (htick : 0 ≤ tick)
    (hrange : tick ≤ longMaxValue) :
    snapToTickChecked price tick = .ok p ↔ tick ≠ 0 ∧ price + tick / 2 ≤ longMaxValue ∧
      max 1 ((price + tick / 2) / tick) * tick = p := by
  have hhalf : tick.tdiv 2 = tick / 2 := Int.tdiv_eq_ediv_of_nonneg htick
  have hrounded : 0 ≤ price + tick / 2 := by omega
  simp only [snapToTickChecked, bind_eq_ok, add_eq_ok, mul_eq_ok, hhalf, inRange_iff hrounded]
  constructor
  · rintro ⟨_, ⟨hle, rfl⟩, ticks, hdiv, -, hp⟩
    obtain ⟨hne, rfl⟩ := (div_eq_ok ((inRange_iff hrounded).mpr hle) hrounded htick).mp hdiv
    exact ⟨hne, hle, hp⟩
  · rintro ⟨hne, hle, rfl⟩
    refine ⟨_, ⟨hle, rfl⟩, _, (div_eq_ok ((inRange_iff hrounded).mpr hle) hrounded htick).mpr
      ⟨hne, rfl⟩, ?_, rfl⟩
    -- Snapping down to the grid does not leave the range, and one tick is in it.
    have hfloor : (price + tick / 2) / tick * tick ≤ price + tick / 2 := Int.ediv_mul_le _ hne
    rw [max_mul_of_nonneg _ _ htick, one_mul, inRange_iff (le_max_of_le_left htick)]
    exact max_le hrange (hfloor.trans hle)

/-- The half-width faults only where its product or the widest quote leaves the range. -/
theorem bandSpanChecked_eq_ok (htick : 0 < tick) (hanchor : 0 ≤ anchor) :
    bandSpanChecked o anchor tick = .ok span ↔
      anchor * o.dailyBandBasisPoints ≤ longMaxValue ∧ o.maxSpreadTicks * tick ≤ longMaxValue ∧
        halfWidth o anchor tick = span := by
  have hproduct : 0 ≤ anchor * o.dailyBandBasisPoints := mul_nonneg hanchor (Int.natCast_nonneg _)
  have hwidth : 0 ≤ anchor * o.dailyBandBasisPoints / 10000 :=
    Int.ediv_nonneg hproduct (by norm_num)
  have hticks : 0 ≤ anchor * o.dailyBandBasisPoints / 10000 / tick :=
    Int.ediv_nonneg hwidth htick.le
  have hfloor : anchor * o.dailyBandBasisPoints / 10000 / tick * tick ≤
      anchor * o.dailyBandBasisPoints / 10000 := Int.ediv_mul_le _ htick.ne'
  have hscaled : anchor * o.dailyBandBasisPoints / 10000 ≤ anchor * o.dailyBandBasisPoints :=
    Int.ediv_le_self _ hproduct
  have hquote : 0 ≤ (o.maxSpreadTicks : Int) * tick := mul_nonneg (Int.natCast_nonneg _) htick.le
  have hspan : (if anchor * o.dailyBandBasisPoints / 10000 / tick * tick < o.maxSpreadTicks * tick
      then (o.maxSpreadTicks : Int) * tick
      else anchor * o.dailyBandBasisPoints / 10000 / tick * tick) = halfWidth o anchor tick := by
    unfold halfWidth
    split <;> omega
  simp only [bandSpanChecked, bind_eq_ok, mul_eq_ok, inRange_iff hproduct]
  constructor
  · rintro ⟨_, ⟨hle, rfl⟩, _, hdiv, _, hdiv', _, ⟨-, rfl⟩, _, ⟨hfits, rfl⟩, hp⟩
    obtain ⟨-, rfl⟩ := (div_eq_ok ((inRange_iff hproduct).mpr hle) hproduct (by norm_num)).mp hdiv
    obtain ⟨-, rfl⟩ :=
      (div_eq_ok ((inRange_iff hwidth).mpr (hscaled.trans hle)) hwidth htick.le).mp hdiv'
    rw [inRange_iff hquote] at hfits
    exact ⟨hle, hfits, hspan ▸ Except.ok.inj hp⟩
  · rintro ⟨hle, hfits, rfl⟩
    refine ⟨_, ⟨hle, rfl⟩, _, (div_eq_ok ((inRange_iff hproduct).mpr hle) hproduct
      (by norm_num)).mpr ⟨by norm_num, rfl⟩, _, (div_eq_ok ((inRange_iff hwidth).mpr
      (hscaled.trans hle)) hwidth htick.le).mpr ⟨htick.ne', rfl⟩, _, ⟨?_, rfl⟩, _, ⟨?_, rfl⟩, ?_⟩
    · rw [inRange_iff (mul_nonneg hticks htick.le)]
      omega
    · rwa [inRange_iff hquote]
    · exact congrArg Except.ok hspan

/-- The bands fault only where the upper one leaves the range, shifted or not. -/
theorem bandsChecked_eq_ok {band : Int × Int} (htick : 0 < tick) (hanchor : tick ≤ anchor)
    (hspan : 0 ≤ span) :
    bandsChecked anchor tick span = .ok band ↔ anchor + span ≤ longMaxValue ∧
      (anchor - span < tick → tick + 2 * span ≤ longMaxValue) ∧
      bands anchor tick span = band := by
  have hupper : 0 ≤ anchor + span := by omega
  have hlower (h : anchor + span ≤ longMaxValue) : InRange 64 (anchor - span) := by
    unfold InRange
    unfold longMaxValue at h
    omega
  have htwice : 0 ≤ 2 * span := by omega
  have hshifted : 0 ≤ tick + 2 * span := by omega
  simp only [bandsChecked, bind_eq_ok, sub_eq_ok, add_eq_ok, inRange_iff hupper]
  by_cases hfloor : anchor - span < tick
  · constructor
    · rintro ⟨_, ⟨-, rfl⟩, _, ⟨hle, rfl⟩, h⟩
      rw [if_pos hfloor] at h
      simp only [bind_eq_ok, mul_eq_ok, add_eq_ok] at h
      obtain ⟨_, ⟨-, rfl⟩, _, ⟨hfits, rfl⟩, hband⟩ := h
      rw [inRange_iff hshifted] at hfits
      refine ⟨hle, fun _ => hfits, ?_⟩
      rw [bands, if_pos hfloor]
      exact Except.ok.inj hband
    · rintro ⟨hle, hfits, rfl⟩
      have hfits := hfits hfloor
      refine ⟨_, ⟨hlower hle, rfl⟩, _, ⟨hle, rfl⟩, ?_⟩
      rw [if_pos hfloor, bands, if_pos hfloor]
      simp only [bind_eq_ok, mul_eq_ok, add_eq_ok, inRange_iff htwice]
      exact ⟨_, ⟨by omega, rfl⟩, _, ⟨(inRange_iff hshifted).mpr hfits, rfl⟩, rfl⟩
  · constructor
    · rintro ⟨_, ⟨-, rfl⟩, _, ⟨hle, rfl⟩, h⟩
      rw [if_neg hfloor] at h
      refine ⟨hle, fun hlt => absurd hlt hfloor, ?_⟩
      rw [bands, if_neg hfloor]
      exact Except.ok.inj h
    · rintro ⟨hle, -, rfl⟩
      refine ⟨_, ⟨hlower hle, rfl⟩, _, ⟨hle, rfl⟩, ?_⟩
      rw [if_neg hfloor, bands, if_neg hfloor]
      rfl

/-- The half-width is room for the widest quote. -/
theorem tick_le_halfWidth (anchor : Int) (ho : o.Validated) (htick : 0 < tick) :
    tick ≤ halfWidth o anchor tick ∧ o.maxSpreadTicks * tick ≤ halfWidth o anchor tick := by
  have hone : (1 : Int) ≤ o.maxSpreadTicks := by
    have hmin := ho.one_le_minSpreadTicks
    have hmax := ho.minSpreadTicks_le
    omega
  have hle : tick ≤ o.maxSpreadTicks * tick := le_mul_of_one_le_left htick.le hone
  exact ⟨hle.trans (le_max_right _ _), le_max_right _ _⟩

/-- A session opens at an anchor without a fault exactly when its band fits. -/
theorem openChecked_eq_ok {t : SymbolState} (ho : o.Validated) (htick : 0 < toScaled d.tickSize)
    (hanchor : toScaled d.tickSize ≤ anchor) :
    openChecked o d (toScaled d.tickSize) anchor = .ok t ↔
      BandFits o (toScaled d.tickSize) anchor ∧ openedAt o d anchor = t := by
  obtain ⟨hroom, hquote⟩ := tick_le_halfWidth anchor ho htick
  have hspan : 0 ≤ halfWidth o anchor (toScaled d.tickSize) := htick.le.trans hroom
  have hpos : 0 < halfWidth o anchor (toScaled d.tickSize) := htick.trans_le hroom
  have hlong : InRange 64 longMaxValue := (inRange_iff (by decide)).mpr le_rfl
  have hdiv {m : Int} := div_eq_ok (y := m) hlong (by decide) hspan
  have hbid : 0 ≤ anchor - toScaled d.tickSize := by omega
  have hask : 0 ≤ anchor + toScaled d.tickSize := by omega
  simp only [openChecked, bind_eq_ok, bandSpanChecked_eq_ok htick (htick.le.trans hanchor),
    sub_eq_ok, add_eq_ok, inRange_iff hbid, inRange_iff hask]
  constructor
  · rintro ⟨_, ⟨hproduct, -, rfl⟩, _, hband, _, hmultiplier, _, ⟨-, rfl⟩, _, ⟨-, rfl⟩, ht⟩
    obtain ⟨hupper, hshifted, rfl⟩ := (bandsChecked_eq_ok htick hanchor hspan).mp hband
    obtain ⟨-, rfl⟩ := hdiv.mp hmultiplier
    exact ⟨⟨hproduct, hupper, hshifted⟩, Except.ok.inj ht⟩
  · rintro ⟨⟨hproduct, hupper, hshifted⟩, rfl⟩
    exact ⟨_, ⟨hproduct, by omega, rfl⟩, _, (bandsChecked_eq_ok htick hanchor hspan).mpr
      ⟨hupper, hshifted, rfl⟩, _, hdiv.mpr ⟨hpos.ne', rfl⟩, _, ⟨by omega, rfl⟩, _,
      ⟨by omega, rfl⟩, rfl⟩

/-- In unbounded integers a session opens at every anchor. -/
theorem resetSymbol_eq_openedAt {opened : Bool} {s : SymbolState} (ho : o.Validated)
    (htick : 0 < toScaled d.tickSize) (hanchor : sessionAnchor d opened s = some anchor) :
    resetSymbol o opened d s = some (openedAt o d anchor) := by
  have hspan : bandSpan o anchor (toScaled d.tickSize) =
      some (halfWidth o anchor (toScaled d.tickSize)) := by
    simp only [bandSpan, divide, htick.ne', ite_false, Option.map_some, Option.some.injEq]
    unfold halfWidth
    split <;> omega
  have hpos := htick.trans_le (tick_le_halfWidth anchor ho htick).1
  simp only [resetSymbol, hanchor, hspan, divide, hpos.ne', ite_false, Option.bind_some,
    Option.map_some]
  rfl

end Operations

/-! ## One symbol -/

section Symbol

variable {o : GenerationOptions} {d : SymbolDefinition} {s t : SymbolState}

/-- A later session opens without a fault exactly when the band of the mid fits. -/
theorem resetSymbolChecked_opened (ho : o.Validated) (hd : d.Validated)
    (htick : 0 < toScaled d.tickSize) (hmid : toScaled d.tickSize ≤ s.midPriceScaled) :
    resetSymbolChecked o true d s = .ok t ↔
      BandFits o (toScaled d.tickSize) s.midPriceScaled ∧ resetSymbol o true d s = some t := by
  have hanchor : sessionAnchor d true s = some s.midPriceScaled := rfl
  rw [resetSymbol_eq_openedAt ho htick hanchor, Option.some.injEq,
    ← openChecked_eq_ok ho htick hmid]
  simp only [resetSymbolChecked, bind_eq_ok, toScaledChecked_eq_ok hd.tickSize_pos,
    sessionAnchorChecked, if_true]
  constructor
  · rintro ⟨_, ⟨-, rfl⟩, _, hanchor, ht⟩
    exact Except.ok.inj hanchor ▸ ht
  · intro ht
    have hroom := (tick_le_halfWidth s.midPriceScaled ho htick).1
    have hupper := ((openChecked_eq_ok ho htick hmid).mp ht).1.upper_le
    exact ⟨_, ⟨by omega, rfl⟩, _, rfl, ht⟩

/-- The first session opens without a fault exactly when the definition fits. -/
theorem resetSymbolChecked_first (ho : o.Validated) (hd : d.Validated) :
    resetSymbolChecked o false d s = .ok t ↔
      OpensSafely o d ∧ resetSymbol o false d s = some t := by
  have hprice := toScaled_nonneg hd.referencePrice_pos
  have hnonneg := toScaled_nonneg hd.tickSize_pos
  have hsum : 0 ≤ toScaled d.referencePrice + toScaled d.tickSize / 2 := by omega
  have hsnapped (hone : 1 ≤ toScaled d.tickSize) : toScaled d.tickSize ≤ snapped d :=
    le_mul_of_one_le_left (by omega) (le_max_left 1 _)
  have hsession (hone : 1 ≤ toScaled d.tickSize) : sessionAnchor d false s = some (snapped d) := by
    have hne : toScaled d.tickSize ≠ 0 := by omega
    simp only [sessionAnchor, snapToTick, divide, hne, ite_false, Bool.false_eq_true,
      Option.map_some]
    rfl
  simp only [resetSymbolChecked, sessionAnchorChecked, bind_eq_ok, Bool.false_eq_true, ite_false,
    toScaledChecked_eq_ok hd.tickSize_pos]
  constructor
  · rintro ⟨_, ⟨hrange, rfl⟩, anchor, ⟨price, hpriceOk, hanchor⟩, ht⟩
    obtain ⟨-, rfl⟩ := fit_eq_ok.mp hpriceOk
    obtain ⟨hne, hle, rfl⟩ := (snapToTickChecked_eq_ok hprice hnonneg hrange).mp hanchor
    have hone : 1 ≤ toScaled d.tickSize := by omega
    obtain ⟨hband, rfl⟩ := (openChecked_eq_ok ho hone (hsnapped hone)).mp ht
    exact ⟨⟨hone, hle, hband⟩, resetSymbol_eq_openedAt ho hone (hsession hone)⟩
  · rintro ⟨⟨hone, hle, hband⟩, ht⟩
    rw [resetSymbol_eq_openedAt ho hone (hsession hone), Option.some.injEq] at ht
    have hroom := (tick_le_halfWidth (snapped d) ho hone).1
    have hupper := hband.upper_le
    have hle' := hsnapped hone
    have hrange : toScaled d.tickSize ≤ longMaxValue := by omega
    refine ⟨_, ⟨hrange, rfl⟩, snapped d, ⟨_, fit_eq_ok.mpr ⟨?_, rfl⟩,
      (snapToTickChecked_eq_ok hprice hnonneg hrange).mpr ⟨by omega, hle, rfl⟩⟩,
      (openChecked_eq_ok ho hone hle').mpr ⟨hband, ht⟩⟩
    rw [inRange_iff hprice]
    omega

end Symbol

/-! ## One session -/

section Session

variable {c : GeneratorConfig} {g g' : RandomWalkGenerator}

/-- A session of all symbols faults exactly where the session of one does. -/
theorem resetSymbolsChecked_eq_ok (o : GenerationOptions) (opened : Bool)
    {Q : SymbolDefinition → SymbolState → Prop} {ds : List SymbolDefinition}
    {ss : List SymbolState} (ts : List SymbolState) (hlength : ss.length = ds.length)
    (h : ∀ (i : Nat) d s, ds[i]? = some d → ss[i]? = some s → ∀ t,
      (resetSymbolChecked o opened d s = .ok t ↔ Q d s ∧ resetSymbol o opened d s = some t)) :
    resetSymbolsChecked o opened ds ss = .ok ts ↔
      (∀ (i : Nat) d s, ds[i]? = some d → ss[i]? = some s → Q d s) ∧
        resetSymbols o opened ds ss = some ts := by
  induction ds generalizing ss ts with
  | nil =>
    obtain rfl := List.length_eq_zero_iff.mp hlength
    simp only [resetSymbolsChecked, resetSymbols, List.getElem?_nil, reduceCtorEq,
      false_implies, implies_true, true_and, Option.some.injEq]
    exact ⟨Except.ok.inj, congrArg Except.ok⟩
  | cons d ds ih =>
    cases ss with
    | nil => exact absurd hlength (Nat.succ_ne_zero ds.length).symm
    | cons s ss =>
      have hhead := h 0 d s rfl rfl
      have htail (ts : List SymbolState) := ih ts (Nat.succ_inj.mp hlength)
        fun i d s hd hs => h (i + 1) d s hd hs
      simp only [resetSymbolsChecked, resetSymbols, bind_eq_ok, Option.bind_eq_some_iff,
        Option.map_eq_some_iff, hhead, htail]
      constructor
      · rintro ⟨t, ⟨hQ, ht⟩, ts', ⟨hQs, hts⟩, heq⟩
        refine ⟨fun i => ?_, t, ht, ts', hts, Except.ok.inj heq⟩
        cases i with
        | zero =>
          intro d' s' hd' hs'
          exact Option.some.inj hd' ▸ Option.some.inj hs' ▸ hQ
        | succ i => exact fun d s hd hs => hQs i d s hd hs
      · rintro ⟨hQ, t, ht, ts', hts, rfl⟩
        exact ⟨t, ⟨hQ 0 d s rfl rfl, ht⟩, ts', ⟨fun i d s hd hs => hQ (i + 1) d s hd hs, hts⟩, rfl⟩

/-- The band of every symbol's next session fits. -/
def BandsFit (c : GeneratorConfig) (g : RandomWalkGenerator) : Prop :=
  Each c (fun d s => BandFits c.options (toScaled d.tickSize) s.midPriceScaled) g

/-- A later session opens without a fault exactly when the bands of the mids fit. -/
theorem Sound.resetSessionChecked_eq_ok (h : Sound c g) (ho : c.options.Validated)
    (hu : c.symbolUniverse.Loaded) {reading : ClockReading} :
    resetSessionChecked c reading g = .ok g' ↔
      BandsFit c g ∧ resetSession c reading g = some g' := by
  have hall (ts : List SymbolState) := resetSymbolsChecked_eq_ok c.options true ts
    h.length fun i d s hd hs t => by
      have hwalk := h.walking i d s hd hs
      exact resetSymbolChecked_opened ho (hu.validated d (List.mem_of_getElem? hd))
        hwalk.tick_pos (hwalk.tick_le_lower.trans hwalk.lower_le_mid)
  simp only [resetSessionChecked, resetSession, bind_eq_ok, hall, h.opened, if_true,
    Option.map_eq_some_iff]
  constructor
  · rintro ⟨states, ⟨hfit, hstates⟩, hg'⟩
    exact ⟨hfit, states, hstates, Except.ok.inj hg'⟩
  · rintro ⟨hfit, states, hstates, rfl⟩
    exact ⟨states, ⟨hfit, hstates⟩, rfl⟩

/-- What a first session needs: definitions that fit, and a wall clock that does. -/
structure ConstructsSafely (c : GeneratorConfig) (reading : ClockReading) : Prop where
  definitions : ∀ d ∈ c.symbolUniverse.symbols, OpensSafely c.options d
  clock : InRange 64 (reading.unixTimeMilliseconds * 1000000)

/-- A generator is built without a fault exactly when its definitions fit. -/
theorem constructChecked_eq_ok (ho : c.options.Validated) (hu : c.symbolUniverse.Loaded)
    {reading : ClockReading} :
    constructChecked c reading = .ok g ↔
      ConstructsSafely c reading ∧ construct c reading = some g := by
  have hlength : (c.symbolUniverse.symbols.map fun _ => ({} : SymbolState)).length =
      c.symbolUniverse.symbols.length := List.length_map _
  have hall (ts : List SymbolState) := resetSymbolsChecked_eq_ok c.options false ts hlength
    fun i d s hd hs t =>
      resetSymbolChecked_first ho (hu.validated d (List.mem_of_getElem? hd))
  have hdefinitions : (∀ (i : Nat) d s, c.symbolUniverse.symbols[i]? = some d →
      (c.symbolUniverse.symbols.map fun _ => ({} : SymbolState))[i]? = some s →
      OpensSafely c.options d) ↔ ∀ d ∈ c.symbolUniverse.symbols, OpensSafely c.options d := by
    constructor
    · intro h d hd
      obtain ⟨i, hi, rfl⟩ := List.getElem_of_mem hd
      exact h i _ {} (List.getElem?_eq_getElem hi)
        (by rw [List.getElem?_map, List.getElem?_eq_getElem hi]; rfl)
    · exact fun h i d s hd _ => h d (List.mem_of_getElem? hd)
  simp only [constructChecked, construct, resetSessionChecked, resetSession, bind_eq_ok, hall,
    hdefinitions, mul_eq_ok, Bool.false_eq_true, ite_false, Option.map_eq_some_iff]
  constructor
  · rintro ⟨states, ⟨hfit, hstates⟩, nanos, ⟨hclock, rfl⟩, hg⟩
    exact ⟨⟨hfit, hclock⟩, states, hstates, Except.ok.inj hg⟩
  · rintro ⟨⟨hfit, hclock⟩, states, hstates, rfl⟩
    exact ⟨states, ⟨hfit, hstates⟩, _, ⟨hclock, rfl⟩, rfl⟩

end Session

/-! ## Every run -/

section Runs

variable {c : GeneratorConfig} {g g' : RandomWalkGenerator}

/-- Take one record, or open a new session in checked arithmetic. -/
def Tape.stepChecked (c : GeneratorConfig) (t : Tape) : Action → Option Tape
  | .next d timestamp => t.step c (.next d timestamp)
  | .reset reading => (resetSessionChecked c reading t.generator).toOption.map fun g =>
      { t with generator := g, session := t.session + 1 }

/-- The runs of a generator in which no session faults. -/
def checkedTape (c : GeneratorConfig) (g : RandomWalkGenerator) : Machine Tape Action where
  init := { generator := g }
  step := Tape.stepChecked c

/-- A new session opens while the bands of all mids fit. -/
def ResetsFit (c : GeneratorConfig) (t : Tape) : Action → Prop
  | .next _ _ => True
  | .reset _ => BandsFit c t.generator

/-- An ordered band, and the reversion multiplier of its half-width. -/
structure Banded (s : SymbolState) : Prop where
  lower_lt_upper : s.lowerBandScaled < s.upperBandScaled
  span_pos : 0 < s.reversionSpanScaled
  multiplier_eq : (s.reversionMultiplier : Int) = longMaxValue / s.reversionSpanScaled

/-- Opening a session bands its symbol. -/
theorem banded_openedAt {o : GenerationOptions} {d : SymbolDefinition} {anchor : Int}
    (ho : o.Validated) (htick : 0 < toScaled d.tickSize) (hanchor : toScaled d.tickSize ≤ anchor) :
    Banded (openedAt o d anchor) := by
  have hpos := htick.trans_le (tick_le_halfWidth anchor ho htick).1
  have hwidth := (bands_mem hanchor hpos.le).2.2.2
  have hdivide : 0 ≤ longMaxValue / halfWidth o anchor (toScaled d.tickSize) :=
    Int.ediv_nonneg (by decide) hpos.le
  exact ⟨by dsimp only [openedAt]; omega, hpos, Int.toNat_of_nonneg hdivide⟩

/-- Nothing is asked of the state a generator is built with. -/
theorem resettable_fresh (c : GeneratorConfig) :
    Resettable c { states := c.symbolUniverse.symbols.map fun _ => {} } :=
  ⟨List.length_map _, fun hopen => absurd hopen Bool.false_ne_true⟩

/-- A session that opens, from a walk or from nothing, bands every symbol. -/
theorem Resettable.banded (h : Resettable c g) (ho : c.options.Validated) (htick : TicksScale c)
    {reading : ClockReading} (hg : resetSession c reading g = some g') :
    Each c (fun _ s => Banded s) g' := by
  refine Each.of_reset hg fun i d s t hd hs ht => ?_
  have hpos : 0 < toScaled d.tickSize := htick d (List.mem_of_getElem? hd)
  have hwalking : g.hasOpened = true → Walking c.options (toScaled d.tickSize) s :=
    fun hopen => h.walking hopen i d s hd hs
  obtain ⟨anchor, hanchor, -, hle⟩ := exists_sessionAnchor hpos hwalking
  rw [resetSymbol_eq_openedAt ho hpos hanchor, Option.some.injEq] at ht
  exact ht ▸ banded_openedAt ho hpos hle

/-- An event keeps the band and its multiplier. -/
theorem Banded.nextSymbol {s : SymbolState} (h : Banded s) (o : GenerationOptions) (d : Draws) :
    Banded (nextSymbol o d s) := by
  obtain ⟨_, _, hnext⟩ := nextSymbol_eq o d s
  rw [hnext]
  exact ⟨h.lower_lt_upper, h.span_pos, h.multiplier_eq⟩

/-- What one step preserves. -/
theorem banded_step {t u : Tape} {a : Action} (h : Each c (fun _ s => Banded s) t.generator)
    (hsound : Sound c t.generator) (ho : c.options.Validated) (htick : TicksScale c)
    (hu : t.step c a = some u) : Each c (fun _ s => Banded s) u.generator := by
  cases a with
  | next d timestamp =>
    simp only [Tape.step, Option.bind_eq_some_iff, Option.map_eq_some_iff] at hu
    obtain ⟨⟨index, r, g'⟩, hnext, after, -, rfl⟩ := hu
    obtain ⟨definition, s, he⟩ := next_emits hnext
    exact h.of_emits he fun hs => hs.nextSymbol c.options d
  | reset reading =>
    simp only [Tape.step, Option.map_eq_some_iff] at hu
    obtain ⟨g', hg, rfl⟩ := hu
    exact hsound.resettable.banded ho htick hg

/-- A checked step is an unbounded one that met the guard. -/
theorem stepChecked_iff {t u : Tape} {a : Action} (hsound : Sound c t.generator)
    (ho : c.options.Validated) (hu : c.symbolUniverse.Loaded) :
    t.stepChecked c a = some u ↔ ResetsFit c t a ∧ t.step c a = some u := by
  cases a with
  | next d timestamp => simp only [Tape.stepChecked, ResetsFit, true_and]
  | reset reading =>
    have hreset (g' : RandomWalkGenerator) :
        resetSessionChecked c reading t.generator = .ok g' ↔
          BandsFit c t.generator ∧ resetSession c reading t.generator = some g' :=
      hsound.resetSessionChecked_eq_ok ho hu
    have hoption (g' : RandomWalkGenerator) :
        (resetSessionChecked c reading t.generator).toOption = some g' ↔
          resetSessionChecked c reading t.generator = .ok g' := by
      cases resetSessionChecked c reading t.generator with
      | error e => exact ⟨nofun, nofun⟩
      | ok g => simp only [Except.toOption, Option.some.injEq, Except.ok.injEq]
    simp only [Tape.stepChecked, Tape.step, ResetsFit, Option.map_eq_some_iff, hoption, hreset,
      and_assoc, exists_and_left]

/-- A generator is built without a fault exactly when every definition fits and the clock does,
and then as in unbounded integers. Its fault-free runs are the runs whose sessions all open
while the bands of the mids fit; they keep every band ordered and its multiplier defined, and
the next session is free of faults exactly when the bands of the mids fit. -/
theorem bandArithmetic_safe_iff (ho : c.options.Validated) (hu : c.symbolUniverse.Loaded)
    (reading : ClockReading) :
    ((∃ g, constructChecked c reading = .ok g) ↔ ConstructsSafely c reading) ∧
      ∀ g, constructChecked c reading = .ok g → construct c reading = some g ∧
        ∀ actions t,
          ((checkedTape c g).run actions = some t ↔
            (tape c g).Guarded (ResetsFit c) (tape c g).init actions ∧
              (tape c g).run actions = some t) ∧
          ((checkedTape c g).run actions = some t →
            Each c (fun _ s => Banded s) t.generator ∧ ∀ reading',
              ((∃ g', resetSessionChecked c reading' t.generator = .ok g') ↔
                BandsFit c t.generator)) := by
  constructor
  · simp only [constructChecked_eq_ok ho hu, exists_and_left, and_iff_left_iff_imp]
    intro hsafe
    have htick : TicksScale c := fun d hd => (hsafe.definitions d hd).one_le_tick
    exact (resettable_fresh c).exists_reset ho htick reading
  · intro g hg
    obtain ⟨hsafe, hg⟩ := (constructChecked_eq_ok ho hu).mp hg
    have htick : TicksScale c := fun d hd => (hsafe.definitions d hd).one_le_tick
    have hinit : Continuous c { generator := g } := Continuous.init ho htick hg
    refine ⟨hg, fun actions t => ?_⟩
    have hrun : (checkedTape c g).run actions = some t ↔
        (tape c g).Guarded (ResetsFit c) (tape c g).init actions ∧
          (tape c g).run actions = some t :=
      Machine.runFrom_iff_guarded (m := tape c g) (I := Continuous c)
        (fun _ _ _ hs hu' => hs.step ho htick hu')
        (fun _ _ _ hs => stepChecked_iff hs.sound ho hu) hinit
    refine ⟨hrun, fun h => ?_⟩
    obtain ⟨-, h⟩ := hrun.mp h
    obtain ⟨hcontinuous, hbanded⟩ := Machine.run_invariant (m := tape c g)
      (I := fun t => Continuous c t ∧ Each c (fun _ s => Banded s) t.generator)
      ⟨hinit, (resettable_fresh c).banded ho htick hg⟩
      (fun _ _ _ hs hu' => ⟨hs.1.step ho htick hu', banded_step hs.2 hs.1.sound ho htick hu'⟩) h
    refine ⟨hbanded, fun reading' => ?_⟩
    simp only [hcontinuous.sound.resetSessionChecked_eq_ok ho hu, exists_and_left,
      and_iff_left_iff_imp]
    exact fun _ => hcontinuous.sound.resettable.exists_reset ho htick reading'

theorem bandArithmetic_safe_iff_twoSymbols :
    ∃ g, constructChecked twoSymbols ⟨0, 0⟩ = .ok g ∧ construct twoSymbols ⟨0, 0⟩ = some g := by
  obtain ⟨hiff, hruns⟩ :=
    bandArithmetic_safe_iff GenerationOptions.validated_default twoSymbols_loaded ⟨0, 0⟩
  obtain ⟨g, hg⟩ := hiff.mpr ⟨fun d hd => by
    simp only [twoSymbols, List.mem_cons, List.not_mem_nil, or_false] at hd
    rcases hd with rfl | rfl
    · exact ⟨by decide +kernel, by decide +kernel, by decide +kernel, by decide +kernel,
        by decide +kernel⟩
    · exact ⟨by decide +kernel, by decide +kernel, by decide +kernel, by decide +kernel,
        by decide +kernel⟩, by decide⟩
  exact ⟨g, hg, (hruns g hg).1⟩

/-- A tick of a hundred-thousandth divides by zero, and a price of a trillion leaves 64 bits, in
universes that load. -/
theorem not_bandArithmetic_safe :
    ((twoSymbolsWith 1 (1 / 100000)).symbolUniverse.Loaded ∧
      constructChecked (twoSymbolsWith 1 (1 / 100000)) ⟨0, 0⟩ = .error .divideByZero) ∧
    ((twoSymbolsWith 1000000000000 1).symbolUniverse.Loaded ∧
      constructChecked (twoSymbolsWith 1000000000000 1) ⟨0, 0⟩ = .error .overflow) :=
  ⟨⟨twoSymbolsWith_loaded (by norm_num) (by norm_num), by decide +kernel⟩,
    ⟨twoSymbolsWith_loaded (by norm_num) (by norm_num), by decide +kernel⟩⟩

end Runs

end Tckr.Generation
