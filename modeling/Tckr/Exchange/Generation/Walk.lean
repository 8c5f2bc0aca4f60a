import Mathlib.Algebra.Order.Group.Unbundled.Abs
import Mathlib.Algebra.Order.Ring.Int
import Mathlib.Data.List.GetD
import Mathlib.Tactic.Linarith
import Mathlib.Tactic.NormNum
import Tckr.Exchange.Generation.RandomWalk

/-!
# The walk invariant

Every price of a symbol is a multiple of its tick, its mid lies in its band, and
the band is at least two widest quotes wide. Opening a session establishes this
from wherever the walk stands, an event preserves it, and so a quote always fits
into the band and an event moves the mid by at most the configured ticks.
-/

namespace Tckr.Generation

open Protocol

/-- What a symbol's state satisfies between events. -/
structure Walking (o : GenerationOptions) (tick : Int) (s : SymbolState) : Prop where
  tickSize : s.tickSizeScaled = tick
  tick_pos : 0 < tick
  tick_dvd_mid : tick ∣ s.midPriceScaled
  tick_dvd_lower : tick ∣ s.lowerBandScaled
  tick_dvd_upper : tick ∣ s.upperBandScaled
  tick_le_lower : tick ≤ s.lowerBandScaled
  lower_le_mid : s.lowerBandScaled ≤ s.midPriceScaled
  mid_le_upper : s.midPriceScaled ≤ s.upperBandScaled
  wide : 2 * (o.maxSpreadTicks * tick) ≤ s.upperBandScaled - s.lowerBandScaled

/-! ## Draws -/

theorem high_lt (draw : UInt64) : high draw < 4294967296 := by
  have h := draw.toNat_lt
  unfold high
  omega

/-- A multiply-shift of a 32-bit draw stays below the number of outcomes. -/
theorem lemire_lt {draw outcomes : Nat} (hdraw : draw < 4294967296) (h : 0 < outcomes) :
    lemire draw outcomes < outcomes :=
  Nat.div_lt_of_lt_mul (Nat.mul_lt_mul_of_pos_right hdraw h)

/-- A bucket is one of the buckets, and so is what it is aliased to. -/
theorem WeightedSymbolPicker.next_lt (p : WeightedSymbolPicker) (random : UInt64) :
    p.next random < p.aliases.length := by
  have hbucket := lemire_lt (high_lt random) p.length_pos
  unfold WeightedSymbolPicker.next
  dsimp only
  split
  · exact hbucket
  · rw [List.getD_eq_getElem _ _ hbucket]
    exact p.aliases_lt _ (List.getElem_mem hbucket)

section Event

variable {o : GenerationOptions} {tick : Int} {s : SymbolState}

/-- An event moves by no more than the configured ticks. -/
theorem moveTicks_le (o : GenerationOptions) (d : Draws) : moveTicks o d ≤ o.maxTickMove :=
  Nat.le_of_lt_succ (lemire_lt (high_lt d.walk) (Nat.succ_pos _))

/-- A quote is as wide as the options say. -/
theorem spreadTicks_mem (ho : o.Validated) (d : Draws) :
    o.minSpreadTicks ≤ spreadTicks o d ∧ spreadTicks o d ≤ o.maxSpreadTicks := by
  have hspread : lemire (high d.micro) o.spreadOutcomes < o.spreadOutcomes :=
    lemire_lt (high_lt d.micro) (Nat.succ_pos _)
  have horder := ho.minSpreadTicks_le
  unfold spreadTicks
  unfold GenerationOptions.spreadOutcomes at hspread ⊢
  omega

/-- A print lies between the quotes, in whole ticks. -/
theorem printTicks_le (o : GenerationOptions) (d : Draws) :
    lemire (high d.print) (spreadTicks o d + 1) ≤ spreadTicks o d :=
  Nat.le_of_lt_succ (lemire_lt (high_lt d.print) (Nat.succ_pos _))

/-! ## The mid -/

/-- The walk moves by whole ticks, not too many of them. -/
theorem Walking.exists_move (h : Walking o tick s) (d : Draws) :
    ∃ k : Int, unclampedMid o d s = s.midPriceScaled + k * tick ∧ |k| ≤ o.maxTickMove := by
  have hle : (moveTicks o d : Int) ≤ o.maxTickMove := by exact_mod_cast moveTicks_le o d
  unfold unclampedMid
  rw [h.tickSize]
  by_cases hup : moveUp o d s
  · refine ⟨moveTicks o d, by rw [if_pos hup], ?_⟩
    rwa [abs_of_nonneg (Int.natCast_nonneg _)]
  · refine ⟨-moveTicks o d, by rw [if_neg hup], ?_⟩
    rwa [abs_neg, abs_of_nonneg (Int.natCast_nonneg _)]

/-- The band holds the walk. -/
theorem Walking.nextMid_mem (h : Walking o tick s) (d : Draws) :
    s.lowerBandScaled ≤ nextMid o d s ∧ nextMid o d s ≤ s.upperBandScaled := by
  have hlower := h.lower_le_mid
  have hupper := h.mid_le_upper
  unfold nextMid
  split
  · omega
  · split <;> omega

/-- Every mid is on the grid: a whole number of ticks away, or a band's edge. -/
theorem Walking.tick_dvd_nextMid (h : Walking o tick s) (d : Draws) : tick ∣ nextMid o d s := by
  obtain ⟨k, hk, -⟩ := h.exists_move d
  unfold nextMid
  split
  · exact h.tick_dvd_upper
  · split
    · exact h.tick_dvd_lower
    · rw [hk]
      exact dvd_add h.tick_dvd_mid (Dvd.intro_left k rfl)

/-- The band only ever shortens a move. -/
theorem Walking.abs_nextMid_sub_le (h : Walking o tick s) (d : Draws) :
    |nextMid o d s - s.midPriceScaled| ≤ o.maxTickMove * tick := by
  obtain ⟨k, hk, hle⟩ := h.exists_move d
  have hmove : |k * tick| ≤ o.maxTickMove * tick := by
    rw [abs_mul, abs_of_pos h.tick_pos]
    exact mul_le_mul_of_nonneg_right hle h.tick_pos.le
  have hlower := h.lower_le_mid
  have hupper := h.mid_le_upper
  rw [abs_le] at hmove ⊢
  unfold nextMid
  split
  · omega
  · split <;> omega

/-! ## The quote -/

/-- A quote that is no wider than the band, slid back into it. -/
theorem slide_mem {s : SymbolState} {mid half width : Int}
    (hlower : s.lowerBandScaled ≤ mid) (hupper : mid ≤ s.upperBandScaled)
    (hhalf : 0 ≤ half ∧ half ≤ width)
    (hfit : width ≤ s.upperBandScaled - s.lowerBandScaled) :
    s.lowerBandScaled ≤ (slide s (mid - half, mid - half + width)).1 ∧
      (slide s (mid - half, mid - half + width)).1 ≤ mid ∧
      mid ≤ (slide s (mid - half, mid - half + width)).2 ∧
      (slide s (mid - half, mid - half + width)).2 ≤ s.upperBandScaled ∧
      (slide s (mid - half, mid - half + width)).2 =
        (slide s (mid - half, mid - half + width)).1 + width := by
  unfold slide
  dsimp only
  split
  · dsimp only
    omega
  · split
    · dsimp only
      omega
    · dsimp only
      omega

/-- A slide goes to an edge of the band, so it keeps the grid. -/
theorem tick_dvd_slide {tick : Int} {s : SymbolState} {quote : Int × Int}
    (hlower : tick ∣ s.lowerBandScaled) (hupper : tick ∣ s.upperBandScaled)
    (hbid : tick ∣ quote.1) (hask : tick ∣ quote.2) :
    tick ∣ (slide s quote).1 ∧ tick ∣ (slide s quote).2 := by
  unfold slide
  split
  · exact ⟨dvd_sub hbid (dvd_sub hask hupper), dvd_sub hask (dvd_sub hask hupper)⟩
  · split
    · exact ⟨dvd_add hbid (dvd_sub hlower hbid), dvd_add hask (dvd_sub hlower hbid)⟩
    · exact ⟨hbid, hask⟩

/-- The book around the new mid: inside the band, as wide as drawn, and on the grid. -/
theorem Walking.nextQuote_mem (h : Walking o tick s) (ho : o.Validated) (d : Draws) :
    s.lowerBandScaled ≤ (nextQuote o d s).1 ∧
      (nextQuote o d s).1 ≤ nextMid o d s ∧
      nextMid o d s ≤ (nextQuote o d s).2 ∧
      (nextQuote o d s).2 ≤ s.upperBandScaled ∧
      (nextQuote o d s).2 = (nextQuote o d s).1 + spreadTicks o d * tick := by
  obtain ⟨-, hmax⟩ := spreadTicks_mem ho d
  have hhalf : (((spreadTicks o d + 1) / 2 : Nat) : Int) * tick ≤ spreadTicks o d * tick :=
    mul_le_mul_of_nonneg_right (by omega) h.tick_pos.le
  have hwide : (spreadTicks o d : Int) * tick ≤ o.maxSpreadTicks * tick :=
    mul_le_mul_of_nonneg_right (by omega) h.tick_pos.le
  have hpos : 0 ≤ (spreadTicks o d : Int) * tick := mul_nonneg (Int.natCast_nonneg _) h.tick_pos.le
  have hfit := h.wide
  obtain ⟨hlower, hupper⟩ := h.nextMid_mem d
  unfold nextQuote quoteAround
  rw [h.tickSize]
  exact slide_mem hlower hupper
    ⟨mul_nonneg (Int.natCast_nonneg _) h.tick_pos.le, hhalf⟩ (by omega)

/-- Both sides of the book are on the grid. -/
theorem Walking.tick_dvd_nextQuote (h : Walking o tick s) (d : Draws) :
    tick ∣ (nextQuote o d s).1 ∧ tick ∣ (nextQuote o d s).2 := by
  have hmid := h.tick_dvd_nextMid d
  have hbid : tick ∣ nextMid o d s - ((spreadTicks o d + 1) / 2 : Nat) * tick :=
    dvd_sub hmid (Dvd.intro_left _ rfl)
  unfold nextQuote quoteAround
  rw [h.tickSize]
  exact tick_dvd_slide h.tick_dvd_lower h.tick_dvd_upper hbid
    (dvd_add hbid (Dvd.intro_left _ rfl))

/-! ## One event -/

/-- The claims a consumer may make about a record and the state it leaves behind. -/
structure Conforms (o : GenerationOptions) (tick : Int) (s : SymbolState) (r : TapeRecord) :
    Prop where
  tick_pos : 0 < tick
  on_grid : tick ∣ s.midPriceScaled ∧ tick ∣ s.bidScaled ∧ tick ∣ s.askScaled ∧
    tick ∣ s.lowerBandScaled ∧ tick ∣ s.upperBandScaled ∧ tick ∣ r.priceScaled
  banded : s.lowerBandScaled ≤ s.bidScaled ∧ s.bidScaled < s.askScaled ∧
    s.askScaled ≤ s.upperBandScaled
  around_mid : s.bidScaled ≤ s.midPriceScaled ∧ s.midPriceScaled ≤ s.askScaled
  priced : s.bidScaled ≤ r.priceScaled ∧ r.priceScaled ≤ s.askScaled
  quoted : r.messageType ≠ .trade → r.priceScaled = s.bidScaled ∨ r.priceScaled = s.askScaled
  spread : o.minSpreadTicks * tick ≤ s.askScaled - s.bidScaled ∧
    s.askScaled - s.bidScaled ≤ o.maxSpreadTicks * tick
  positive : tick ≤ r.priceScaled

section NextSymbol

variable (o : GenerationOptions) (d : Draws) (s : SymbolState)

/-- What an event leaves in the state: a new mid, a new book, and the print's traces. -/
theorem nextSymbol_eq : ∃ lastTrade trades, nextSymbol o d s = { s with
    midPriceScaled := nextMid o d s
    bidScaled := (nextQuote o d s).1
    askScaled := (nextQuote o d s).2
    lastTradePriceScaled := lastTrade
    tradesToday := trades } := by
  unfold nextSymbol
  split
  · exact ⟨_, _, rfl⟩
  all_goals exact ⟨s.lastTradePriceScaled, s.tradesToday, rfl⟩

@[simp] theorem nextSymbol_mid : (nextSymbol o d s).midPriceScaled = nextMid o d s := by
  obtain ⟨_, _, h⟩ := nextSymbol_eq o d s
  rw [h]

@[simp] theorem nextSymbol_bid : (nextSymbol o d s).bidScaled = (nextQuote o d s).1 := by
  obtain ⟨_, _, h⟩ := nextSymbol_eq o d s
  rw [h]

@[simp] theorem nextSymbol_ask : (nextSymbol o d s).askScaled = (nextQuote o d s).2 := by
  obtain ⟨_, _, h⟩ := nextSymbol_eq o d s
  rw [h]

@[simp] theorem nextSymbol_lower : (nextSymbol o d s).lowerBandScaled = s.lowerBandScaled := by
  obtain ⟨_, _, h⟩ := nextSymbol_eq o d s
  rw [h]

@[simp] theorem nextSymbol_upper : (nextSymbol o d s).upperBandScaled = s.upperBandScaled := by
  obtain ⟨_, _, h⟩ := nextSymbol_eq o d s
  rw [h]

@[simp] theorem nextSymbol_tickSize : (nextSymbol o d s).tickSizeScaled = s.tickSizeScaled := by
  obtain ⟨_, _, h⟩ := nextSymbol_eq o d s
  rw [h]

end NextSymbol

/-- An event keeps the walk in its band and on its grid. -/
theorem Walking.nextSymbol (h : Walking o tick s) (d : Draws) :
    Walking o tick (nextSymbol o d s) where
  tickSize := (nextSymbol_tickSize o d s).trans h.tickSize
  tick_pos := h.tick_pos
  tick_dvd_mid := by simpa only [nextSymbol_mid] using h.tick_dvd_nextMid d
  tick_dvd_lower := by simpa only [nextSymbol_lower] using h.tick_dvd_lower
  tick_dvd_upper := by simpa only [nextSymbol_upper] using h.tick_dvd_upper
  tick_le_lower := by simpa only [nextSymbol_lower] using h.tick_le_lower
  lower_le_mid := by simpa only [nextSymbol_lower, nextSymbol_mid] using (h.nextMid_mem d).1
  mid_le_upper := by simpa only [nextSymbol_upper, nextSymbol_mid] using (h.nextMid_mem d).2
  wide := by simpa only [nextSymbol_lower, nextSymbol_upper] using h.wide

/-- A print lies between the quotes, on the grid; a quote is one of them. -/
theorem Walking.eventPrice_mem (h : Walking o tick s) (ho : o.Validated) (d : Draws) :
    ((nextQuote o d s).1 ≤ eventPrice o d s ∧ eventPrice o d s ≤ (nextQuote o d s).2) ∧
      tick ∣ eventPrice o d s ∧
      (messageType o d ≠ .trade →
        eventPrice o d s = (nextQuote o d s).1 ∨ eventPrice o d s = (nextQuote o d s).2) := by
  obtain ⟨-, hbid, hask, -, hwidth⟩ := h.nextQuote_mem ho d
  obtain ⟨hdvdBid, hdvdAsk⟩ := h.tick_dvd_nextQuote d
  have hprint : (lemire (high d.print) (spreadTicks o d + 1) : Int) * tick ≤
      spreadTicks o d * tick :=
    mul_le_mul_of_nonneg_right (by exact_mod_cast printTicks_le o d) h.tick_pos.le
  have hzero : 0 ≤ (lemire (high d.print) (spreadTicks o d + 1) : Int) * tick :=
    mul_nonneg (Int.natCast_nonneg _) h.tick_pos.le
  unfold eventPrice
  split
  · rename_i htype
    rw [h.tickSize]
    exact ⟨⟨by omega, by omega⟩, dvd_add hdvdBid (Dvd.intro_left _ rfl),
      fun hne => absurd htype hne⟩
  · exact ⟨⟨le_rfl, by omega⟩, hdvdBid, fun _ => .inl rfl⟩
  all_goals exact ⟨⟨by omega, le_rfl⟩, hdvdAsk, fun _ => .inr rfl⟩

/-- Every record conforms to the state it leaves behind. -/
theorem Walking.conforms (h : Walking o tick s) (ho : o.Validated) (d : Draws) {r : TapeRecord}
    (htype : r.messageType = messageType o d) (hprice : r.priceScaled = eventPrice o d s) :
    Conforms o tick (Generation.nextSymbol o d s) r := by
  obtain ⟨hlower, hbid, hask, hupper, hwidth⟩ := h.nextQuote_mem ho d
  obtain ⟨⟨hpriceBid, hpriceAsk⟩, hdvdPrice, hquoted⟩ := h.eventPrice_mem ho d
  obtain ⟨hdvdBid, hdvdAsk⟩ := h.tick_dvd_nextQuote d
  obtain ⟨hmin, hmax⟩ := spreadTicks_mem ho d
  have hone := ho.one_le_minSpreadTicks
  have hpos : 0 < (spreadTicks o d : Int) * tick := mul_pos (by omega) h.tick_pos
  have hfloor := h.tick_le_lower
  constructor
  case tick_pos => exact h.tick_pos
  all_goals simp only [nextSymbol_mid, nextSymbol_bid, nextSymbol_ask, nextSymbol_lower,
    nextSymbol_upper, hprice, htype]
  case on_grid => exact ⟨h.tick_dvd_nextMid d, hdvdBid, hdvdAsk, h.tick_dvd_lower,
    h.tick_dvd_upper, hdvdPrice⟩
  case banded => exact ⟨hlower, by omega, hupper⟩
  case around_mid => exact ⟨hbid, hask⟩
  case priced => exact ⟨hpriceBid, hpriceAsk⟩
  case quoted => exact hquoted
  case spread =>
    rw [hwidth, add_sub_cancel_left]
    exact ⟨mul_le_mul_of_nonneg_right (by omega) h.tick_pos.le,
      mul_le_mul_of_nonneg_right (by omega) h.tick_pos.le⟩
  case positive => omega

end Event

/-! ## Opening a session -/

section Reset

variable {o : GenerationOptions} {d : SymbolDefinition} {opened : Bool} {s t : SymbolState}

/-- Snapping never throws on a positive tick, and lands on the grid at one tick or more. -/
theorem exists_snapToTick (price : Int) {tick : Int} (h : 0 < tick) :
    ∃ p, snapToTick price tick = some p ∧ tick ∣ p ∧ tick ≤ p := by
  refine ⟨max 1 ((price + tick / 2) / tick) * tick, ?_, Dvd.intro_left _ rfl, ?_⟩
  · simp only [snapToTick, divide, h.ne', ite_false, Option.map_some]
  · exact le_mul_of_one_le_left h.le (le_max_left 1 _)

/-- The half-width of a band is on the grid, and room for the widest quote. -/
theorem exists_bandSpan (o : GenerationOptions) (anchor : Int) {tick : Int} (h : 0 < tick) :
    ∃ span, bandSpan o anchor tick = some span ∧ tick ∣ span ∧ o.maxSpreadTicks * tick ≤ span := by
  refine ⟨_, by simp only [bandSpan, divide, h.ne', ite_false, Option.map_some]; rfl, ?_⟩
  split
  · exact ⟨Dvd.intro_left _ rfl, le_rfl⟩
  · exact ⟨Dvd.intro_left _ rfl, by omega⟩

/-- A band around an anchor on the grid: positive, around it, and two half-widths wide. -/
theorem bands_mem {anchor tick span : Int} (hanchor : tick ≤ anchor) (hspan : 0 ≤ span) :
    tick ≤ (bands anchor tick span).1 ∧ (bands anchor tick span).1 ≤ anchor ∧
      anchor ≤ (bands anchor tick span).2 ∧
      (bands anchor tick span).2 - (bands anchor tick span).1 = 2 * span := by
  unfold bands
  split
  · dsimp only
    omega
  · dsimp only
    omega

theorem tick_dvd_bands {anchor tick span : Int} (hanchor : tick ∣ anchor) (hspan : tick ∣ span) :
    tick ∣ (bands anchor tick span).1 ∧ tick ∣ (bands anchor tick span).2 := by
  unfold bands
  split
  · exact ⟨dvd_rfl, dvd_add dvd_rfl (Dvd.dvd.mul_left hspan 2)⟩
  · exact ⟨dvd_sub hanchor hspan, dvd_add hanchor hspan⟩

/-- The anchor of a session is a price on the grid. -/
theorem exists_sessionAnchor (htick : 0 < toScaled d.tickSize)
    (hs : opened = true → Walking o (toScaled d.tickSize) s) :
    ∃ anchor, sessionAnchor d opened s = some anchor ∧ toScaled d.tickSize ∣ anchor ∧
      toScaled d.tickSize ≤ anchor := by
  cases opened with
  | false => exact exists_snapToTick _ htick
  | true =>
    have h := hs rfl
    exact ⟨s.midPriceScaled, rfl, h.tick_dvd_mid, h.tick_le_lower.trans h.lower_le_mid⟩

/-- Opening a session never throws, and leaves a walk anchored where it stood. -/
theorem exists_resetSymbol (ho : o.Validated) (htick : 0 < toScaled d.tickSize)
    (hs : opened = true → Walking o (toScaled d.tickSize) s) :
    ∃ t, resetSymbol o opened d s = some t ∧ Walking o (toScaled d.tickSize) t := by
  obtain ⟨anchor, hanchor, hdvd, hle⟩ := exists_sessionAnchor htick hs
  obtain ⟨span, hspan, hspanDvd, hwide⟩ := exists_bandSpan o anchor htick
  have hquote : 0 < (o.maxSpreadTicks : Int) * toScaled d.tickSize := by
    have hone := ho.one_le_minSpreadTicks
    have horder := ho.minSpreadTicks_le
    exact mul_pos (by omega) htick
  have hpos : 0 < span := hquote.trans_le hwide
  obtain ⟨hfloor, hlower, hupper, hwidth⟩ := bands_mem hle hpos.le
  obtain ⟨hdvdLower, hdvdUpper⟩ := tick_dvd_bands hdvd hspanDvd
  refine ⟨_, by simp only [resetSymbol, hanchor, hspan, divide, hpos.ne', ite_false,
    Option.bind_some, Option.map_some]; rfl, ?_⟩
  exact ⟨rfl, htick, hdvd, hdvdLower, hdvdUpper, hfloor, hlower, hupper, by dsimp only; omega⟩

end Reset

end Tckr.Generation
