import Mathlib.Data.Nat.Bitwise
import Tckr.Exchange.Generation.BandArithmetic

/-!
# Mean reversion

The pull of a price towards its anchor is the deviation over the half-width of the
band, in fixed point. A band that was moved up off the floor lets the deviation
reach twice the half-width, which still leaves the unsigned product below `2^64`;
pull and threshold then grow with the deviation, and at the anchor an event and its
mirror image move the price in opposite directions. At full strength the threshold
stays below certainty wherever the product stays below `2^63`, the edge of the band
included, so that a move of several ticks still leaves the band.
-/

namespace Tckr.Generation

open Protocol

/-! ## Rounding keeps the order -/

/-- Rounding goes to a neighbouring integer. -/
theorem roundHalfEven_mem (q : ℚ) : ⌊q⌋ ≤ roundHalfEven q ∧ roundHalfEven q ≤ ⌊q⌋ + 1 := by
  unfold roundHalfEven
  dsimp only
  split
  · omega
  · split
    · omega
    · split <;> omega

theorem roundHalfEven_mono {p q : ℚ} (h : p ≤ q) : roundHalfEven p ≤ roundHalfEven q := by
  have hfloor : ⌊p⌋ ≤ ⌊q⌋ := Int.floor_le_floor h
  by_cases heq : ⌊p⌋ = ⌊q⌋
  · unfold roundHalfEven
    dsimp only
    rw [← heq]
    split
    · split
      · exact le_rfl
      · split
        · omega
        · split <;> omega
    · rename_i hp
      rw [if_neg (by linarith : ¬ q - ⌊p⌋ < 1 / 2)]
      split
      · rw [if_pos (by linarith : q - ⌊p⌋ > 1 / 2)]
      · split <;> split <;> omega
  · exact (roundHalfEven_mem p).2.trans
      ((by omega : ⌊p⌋ + 1 ≤ ⌊q⌋).trans (roundHalfEven_mem q).1)

theorem roundHalfEven_intCast (n : Int) : roundHalfEven n = n := by
  unfold roundHalfEven
  dsimp only
  rw [Int.floor_intCast, sub_self, if_pos (by norm_num)]

theorem toQ32_mono {p q : ℚ} (h : p ≤ q) : toQ32 p ≤ toQ32 q :=
  Int.toNat_le_toNat (roundHalfEven_mono (mul_le_mul_of_nonneg_right h (by norm_num)))

/-- Certainty is the one threshold that does not fit 32 bits. -/
theorem toQ32_one : toQ32 1 = 4294967296 := by
  have h : roundHalfEven 4294967296 = 4294967296 := roundHalfEven_intCast 4294967296
  rw [toQ32, one_mul, h]
  rfl

/-! ## The invariant -/

/-- A band two half-widths wide around the anchor, and a mid inside it. -/
structure Reverting (s : SymbolState) : Prop where
  banded : Banded s
  width : s.upperBandScaled - s.lowerBandScaled = 2 * s.reversionSpanScaled
  lower_le_reference : s.lowerBandScaled ≤ s.referencePriceScaled
  reference_le_upper : s.referencePriceScaled ≤ s.upperBandScaled
  lower_le_mid : s.lowerBandScaled ≤ s.midPriceScaled
  mid_le_upper : s.midPriceScaled ≤ s.upperBandScaled

/-- A session opens at its anchor, in the band laid around it. -/
theorem reverting_openedAt {o : GenerationOptions} {d : SymbolDefinition} {anchor : Int}
    (ho : o.Validated) (htick : 0 < toScaled d.tickSize) (hanchor : toScaled d.tickSize ≤ anchor) :
    Reverting (openedAt o d anchor) := by
  have hspan : 0 ≤ halfWidth o anchor (toScaled d.tickSize) :=
    htick.le.trans (tick_le_halfWidth anchor ho htick).1
  obtain ⟨-, hlower, hupper, hwidth⟩ := bands_mem hanchor hspan
  exact ⟨banded_openedAt ho htick hanchor, hwidth, hlower, hupper, hlower, hupper⟩

/-- The band holds the walk of an event. -/
theorem Reverting.nextSymbol {s : SymbolState} (h : Reverting s) (o : GenerationOptions)
    (d : Draws) : Reverting (nextSymbol o d s) := by
  have hmem : s.lowerBandScaled ≤ nextMid o d s ∧ nextMid o d s ≤ s.upperBandScaled := by
    have hlower := h.lower_le_mid
    have hupper := h.mid_le_upper
    unfold nextMid
    split
    · omega
    · split <;> omega
  obtain ⟨_, _, hnext⟩ := nextSymbol_eq o d s
  have hbanded := h.banded.nextSymbol o d
  rw [hnext] at hbanded ⊢
  exact ⟨hbanded, h.width, h.lower_le_reference, h.reference_le_upper, hmem.1, hmem.2⟩

/-- Every symbol of every run reverts inside its band. -/
theorem reverting_run {c : GeneratorConfig} {g : RandomWalkGenerator} {reading : ClockReading}
    {actions : List Action} {t : Tape} (ho : c.options.Validated) (hu : c.symbolUniverse.Loaded)
    (hg : construct c reading = some g) (h : (tape c g).run actions = some t) :
    Each c (fun _ s => Reverting s) t.generator := by
  have htick := ticksScale_of_construct hu hg
  refine each_run ho htick hg h ?_ fun d _ s hs => hs.nextSymbol c.options d
  intro reading g g' hresettable hg'
  refine Each.of_reset hg' fun i d s t hd hs ht => ?_
  have hpos : 0 < toScaled d.tickSize := htick d (List.mem_of_getElem? hd)
  obtain ⟨anchor, hanchor, -, hle⟩ :=
    exists_sessionAnchor hpos fun hopen => hresettable.walking hopen i d s hd hs
  rw [resetSymbol_eq_openedAt ho hpos hanchor, Option.some.injEq] at ht
  exact ht ▸ reverting_openedAt ho hpos hle

section Pull

variable {o : GenerationOptions} {s s' : SymbolState}

/-! ## The pull -/

/-- The deviation reaches at most twice the half-width, and a half-width times its multiplier
stays below `2^63`. -/
theorem Reverting.product_lt (h : Reverting s) :
    s.deviation.natAbs * s.reversionMultiplier < 18446744073709551616 := by
  have hwide : (s.deviation.natAbs : Int) ≤ 2 * s.reversionSpanScaled := by
    have hwidth := h.width
    have hlower := h.lower_le_reference
    have hupper := h.reference_le_upper
    have hmid := h.lower_le_mid
    have hmid' := h.mid_le_upper
    unfold SymbolState.deviation
    omega
  have hunit : s.reversionSpanScaled * s.reversionMultiplier ≤ longMaxValue := by
    rw [h.banded.multiplier_eq]
    exact Int.mul_ediv_self_le h.banded.span_pos.ne'
  have hproduct : (s.deviation.natAbs : Int) * s.reversionMultiplier ≤ 2 * longMaxValue := by
    calc (s.deviation.natAbs : Int) * s.reversionMultiplier
        ≤ 2 * s.reversionSpanScaled * s.reversionMultiplier :=
          mul_le_mul_of_nonneg_right hwide (Int.natCast_nonneg _)
      _ = 2 * (s.reversionSpanScaled * s.reversionMultiplier) := mul_assoc _ _ _
      _ ≤ 2 * longMaxValue := by omega
  have hlong : 2 * longMaxValue < 18446744073709551616 := by decide
  exact_mod_cast hproduct.trans_lt hlong

/-- The pull saturates at one half. -/
theorem pull_le (s : SymbolState) : s.pull ≤ coinHalf := by
  unfold SymbolState.pull
  dsimp only
  split <;> omega

theorem Reverting.pull_eq (h : Reverting s) :
    s.pull = min (s.deviation.natAbs * s.reversionMultiplier / 4294967296) coinHalf := by
  unfold SymbolState.pull
  rw [Nat.mod_eq_of_lt h.product_lt]
  dsimp only
  split <;> omega

/-- A price further from the anchor is pulled as much or more. -/
theorem Reverting.pull_mono (h : Reverting s) (h' : Reverting s')
    (hmultiplier : s.reversionMultiplier = s'.reversionMultiplier)
    (hdeviation : s.deviation.natAbs ≤ s'.deviation.natAbs) : s.pull ≤ s'.pull := by
  rw [h.pull_eq, h'.pull_eq, hmultiplier]
  exact min_le_min_right _ (Nat.div_le_div_right (Nat.mul_le_mul_right _ hdeviation))

/-- The pull saturates exactly from a product of `2^63` on. -/
theorem Reverting.pull_lt_iff (h : Reverting s) : s.pull < coinHalf ↔
    s.deviation.natAbs * s.reversionMultiplier < 9223372036854775808 := by
  rw [h.pull_eq, min_lt_iff, coinHalf]
  omega

/-! ## The threshold -/

/-- A strength is a fraction of certainty. -/
theorem reversionStrengthQ32_le (ho : o.Validated) : o.reversionStrengthQ32 ≤ 4294967296 :=
  (toQ32_mono ho.meanReversionStrength_mem.2).trans_eq toQ32_one

theorem towardThreshold_mem (ho : o.Validated) (s : SymbolState) :
    coinHalf ≤ towardThreshold o s ∧ towardThreshold o s ≤ 4294967296 := by
  have hproduct : s.pull * o.reversionStrengthQ32 ≤ coinHalf * 4294967296 :=
    Nat.mul_le_mul (pull_le s) (reversionStrengthQ32_le ho)
  unfold towardThreshold
  unfold coinHalf at hproduct ⊢
  omega

/-- The threshold grows with the pull and with the strength. -/
theorem towardThreshold_mono {o' : GenerationOptions} (hpull : s.pull ≤ s'.pull)
    (hstrength : o.meanReversionStrength ≤ o'.meanReversionStrength) :
    towardThreshold o s ≤ towardThreshold o' s' :=
  Nat.add_le_add_left (Nat.div_le_div_right (Nat.mul_le_mul hpull (toQ32_mono hstrength))) _

theorem towardThreshold_anchor (h : s.deviation = 0) : towardThreshold o s = coinHalf := by
  have hpull : s.pull = 0 := by simp [SymbolState.pull, h]
  simp [towardThreshold, hpull]

/-! ## The coin -/

/-- The mirror image of a walk draw: the same move, and the other half of the coin range. -/
def mirrored (draw : UInt64) : UInt64 := draw ^^^ 2147483648

theorem mirrored_involutive : Function.Involutive mirrored := by
  intro draw
  simp [mirrored, UInt64.xor_assoc]

theorem high_mirrored (draw : UInt64) : high (mirrored draw) = high draw := by
  unfold high mirrored
  rw [UInt64.toNat_xor, show (4294967296 : Nat) = 2 ^ 32 by norm_num, Nat.xor_div_two_pow]
  simp

/-- The coin is in the lower half of its range exactly when bit 31 is clear. -/
theorem low_lt_coinHalf_iff (draw : UInt64) :
    low draw < coinHalf ↔ draw.toNat.testBit 31 = false := by
  rw [Nat.testBit_eq_decide_div_mod_eq, decide_eq_false_iff_not]
  unfold low coinHalf
  omega

theorem low_mirrored_lt_iff (draw : UInt64) :
    low (mirrored draw) < coinHalf ↔ ¬ low draw < coinHalf := by
  have hbit : (2147483648 : UInt64).toNat.testBit 31 = true := by decide
  rw [low_lt_coinHalf_iff, low_lt_coinHalf_iff, mirrored, UInt64.toNat_xor, Nat.testBit_xor, hbit]
  cases draw.toNat.testBit 31 <;> simp

/-- At the anchor an event and its mirror image move in opposite directions. -/
theorem moveUp_mirrored (h : s.deviation = 0) (d : Draws) :
    moveUp o { d with walk := mirrored d.walk } s = !moveUp o d s := by
  have hcoin := low_mirrored_lt_iff d.walk
  unfold moveUp
  rw [towardThreshold_anchor h, h]
  by_cases hlow : low d.walk < coinHalf
  · simp [hlow, hcoin.not.mpr (not_not.mpr hlow)]
  · simp [hlow, hcoin.mpr hlow]

end Pull

/-! ## Every run -/

/-- The symbol with its mid elsewhere. -/
def SymbolState.movedTo (s : SymbolState) (mid : Int) : SymbolState :=
  { s with midPriceScaled := mid }

/-- The mid is in the band. -/
def SymbolState.InBand (s : SymbolState) (mid : Int) : Prop :=
  s.lowerBandScaled ≤ mid ∧ mid ≤ s.upperBandScaled

/-- What the fixed-point arithmetic of mean reversion promises of a symbol's state. -/
structure ReversionLaw (o : GenerationOptions) (s : SymbolState) : Prop where
  product_lt : s.deviation.natAbs * s.reversionMultiplier < 18446744073709551616
  pull_le : s.pull ≤ coinHalf
  threshold_mem : coinHalf ≤ towardThreshold o s ∧ towardThreshold o s ≤ 4294967296
  deviation_mono : ∀ mid mid', s.InBand mid → s.InBand mid' →
    (s.movedTo mid).deviation.natAbs ≤ (s.movedTo mid').deviation.natAbs →
    (s.movedTo mid).pull ≤ (s.movedTo mid').pull ∧
      towardThreshold o (s.movedTo mid) ≤ towardThreshold o (s.movedTo mid')
  strength_mono : ∀ o', o.meanReversionStrength ≤ o'.meanReversionStrength →
    towardThreshold o s ≤ towardThreshold o' s
  fair : s.deviation = 0 → ∃ mirror : UInt64 → UInt64, Function.Involutive mirror ∧ ∀ d,
    moveTicks o { d with walk := mirror d.walk } = moveTicks o d ∧
      moveUp o { d with walk := mirror d.walk } s = !moveUp o d s

/-- Anywhere in the band a symbol reverts. -/
theorem Reverting.movedTo {s : SymbolState} (h : Reverting s) {mid : Int} (hmid : s.InBand mid) :
    Reverting (s.movedTo mid) :=
  ⟨⟨h.banded.lower_lt_upper, h.banded.span_pos, h.banded.multiplier_eq⟩, h.width,
    h.lower_le_reference, h.reference_le_upper, hmid.1, hmid.2⟩

theorem Reverting.reversionLaw {o : GenerationOptions} {s : SymbolState} (h : Reverting s)
    (ho : o.Validated) : ReversionLaw o s where
  product_lt := h.product_lt
  pull_le := pull_le s
  threshold_mem := towardThreshold_mem ho s
  deviation_mono mid mid' hmid hmid' hdeviation := by
    have hpull := (h.movedTo hmid).pull_mono (h.movedTo hmid') rfl hdeviation
    exact ⟨hpull, towardThreshold_mono hpull le_rfl⟩
  strength_mono _ hstrength := towardThreshold_mono le_rfl hstrength
  fair hanchor := ⟨mirrored, mirrored_involutive, fun d =>
    ⟨by simp [moveTicks, high_mirrored], moveUp_mirrored hanchor d⟩⟩

/-- In every run of events and session openings every symbol obeys the reversion law. -/
theorem reversion_law {c : GeneratorConfig} {g : RandomWalkGenerator} {reading : ClockReading}
    {actions : List Action} {t : Tape} (ho : c.options.Validated) (hu : c.symbolUniverse.Loaded)
    (hg : construct c reading = some g) (h : (tape c g).run actions = some t) :
    Each c (fun _ s => ReversionLaw c.options s) t.generator :=
  fun i definition s hdefinition hs =>
    (reverting_run ho hu hg h i definition s hdefinition hs).reversionLaw ho

theorem reversion_law_twoSessions : ∃ g t, construct twoSymbols ⟨0, 0⟩ = some g ∧
    (tape twoSymbols g).run twoSessions = some t ∧
    Each twoSymbols (fun _ s => ReversionLaw twoSymbols.options s) t.generator := by
  have hrun : ((construct twoSymbols ⟨0, 0⟩).bind fun g =>
      ((tape twoSymbols g).run twoSessions)).isSome = true := by decide +kernel
  obtain ⟨t, ht⟩ := Option.isSome_iff_exists.mp hrun
  obtain ⟨g, hg, ht⟩ := Option.bind_eq_some_iff.mp ht
  exact ⟨g, t, hg, ht,
    reversion_law GenerationOptions.validated_default twoSymbols_loaded hg ht⟩

/-! ## Full strength -/

section FullStrength

variable {o : GenerationOptions} {s : SymbolState}

/-- There is room for the widest move in each direction the coin can take: always towards the
anchor, and away from it unless the pull has saturated. -/
structure HasRoom (o : GenerationOptions) (s : SymbolState) : Prop where
  below : 0 < s.deviation ∨ s.deviation.natAbs * s.reversionMultiplier < 9223372036854775808 →
    s.lowerBandScaled ≤ s.midPriceScaled - o.maxTickMove * s.tickSizeScaled
  above : s.deviation ≤ 0 ∨ s.deviation.natAbs * s.reversionMultiplier < 9223372036854775808 →
    s.midPriceScaled + o.maxTickMove * s.tickSizeScaled ≤ s.upperBandScaled

/-- At full strength the threshold is one half and the pull. -/
theorem towardThreshold_full (h : o.meanReversionStrength = 1) (s : SymbolState) :
    towardThreshold o s = coinHalf + s.pull := by
  rw [towardThreshold, GenerationOptions.reversionStrengthQ32, h, toQ32_one]
  omega

/-- The largest draw moves by the most ticks the options allow. -/
theorem lemire_last (ho : o.Validated) : lemire 4294967295 o.tickMoveOutcomes = o.maxTickMove := by
  have hle := ho.maxTickMove_le
  unfold lemire GenerationOptions.tickMoveOutcomes
  omega

/-- A draw for every coin, moving by the most ticks. -/
theorem exists_widest (ho : o.Validated) (coin : Nat) (hcoin : coin < 4294967296) :
    ∃ d : Draws, low d.walk = coin ∧ moveTicks o d = o.maxTickMove := by
  obtain ⟨draw, hhigh, hlow⟩ := exists_draw (h := 4294967295) (by norm_num) hcoin
  refine ⟨⟨0, draw, 0, 0, 0⟩, hlow, ?_⟩
  rw [moveTicks, hhigh, lemire_last ho]

theorem unclampedMid_of_up {d : Draws} (h : moveUp o d s = true) :
    unclampedMid o d s = s.midPriceScaled + moveTicks o d * s.tickSizeScaled := by
  simp [unclampedMid, h]

theorem unclampedMid_of_down {d : Draws} (h : moveUp o d s = false) :
    unclampedMid o d s = s.midPriceScaled - moveTicks o d * s.tickSizeScaled := by
  simp only [unclampedMid, h, Bool.false_eq_true, if_false]
  ring

/-- The coins that move the price down: towards the anchor above it, away from it below. -/
theorem moveUp_eq_false_iff (d : Draws) : moveUp o d s = false ↔
    (low d.walk < towardThreshold o s ↔ 0 < s.deviation) := by
  unfold moveUp
  by_cases hcoin : low d.walk < towardThreshold o s <;>
    by_cases hdeviation : 0 < s.deviation <;> simp [hcoin, hdeviation]

theorem moveUp_eq_true_iff (d : Draws) : moveUp o d s = true ↔
    (low d.walk < towardThreshold o s ↔ s.deviation ≤ 0) := by
  rw [← Bool.not_eq_false, moveUp_eq_false_iff]
  by_cases hcoin : low d.walk < towardThreshold o s <;> simp [hcoin]

/-- A coin that moves the price away from its anchor is one the pull leaves over. -/
theorem Reverting.product_lt_of_away (h : Reverting s) (hfull : o.meanReversionStrength = 1)
    {d : Draws} (haway : ¬ low d.walk < towardThreshold o s) :
    s.deviation.natAbs * s.reversionMultiplier < 9223372036854775808 := by
  have hcoin := low_lt d.walk
  rw [towardThreshold_full hfull] at haway
  rw [← h.pull_lt_iff]
  unfold coinHalf at haway ⊢
  omega

/-- The first coin moves the price towards its anchor. -/
theorem toward_of_first (ho : o.Validated) {d : Draws} (hlow : low d.walk = 0) :
    low d.walk < towardThreshold o s := by
  have hmem := (towardThreshold_mem ho s).1
  unfold coinHalf at hmem
  omega

/-- Below `2^63` the last coin moves the price away from its anchor. -/
theorem Reverting.away_of_last (h : Reverting s) (hfull : o.meanReversionStrength = 1)
    (hproduct : s.deviation.natAbs * s.reversionMultiplier < 9223372036854775808)
    {d : Draws} (hlow : low d.walk = 4294967295) : ¬ low d.walk < towardThreshold o s := by
  have hpull := h.pull_lt_iff.mpr hproduct
  rw [towardThreshold_full hfull, hlow]
  unfold coinHalf at hpull ⊢
  omega

/-- Some event moves down by the most ticks wherever a coin can. -/
theorem Reverting.exists_down (h : Reverting s) (ho : o.Validated)
    (hfull : o.meanReversionStrength = 1) (hcan : 0 < s.deviation ∨
      s.deviation.natAbs * s.reversionMultiplier < 9223372036854775808) :
    ∃ d, unclampedMid o d s = s.midPriceScaled - o.maxTickMove * s.tickSizeScaled := by
  by_cases hdeviation : 0 < s.deviation
  · obtain ⟨d, hlow, hticks⟩ := exists_widest ho 0 (by norm_num)
    have htoward := @toward_of_first o s ho d hlow
    refine ⟨d, ?_⟩
    rw [unclampedMid_of_down ((moveUp_eq_false_iff d).mpr (by simp [htoward, hdeviation])), hticks]
  · obtain ⟨d, hlow, hticks⟩ := exists_widest ho 4294967295 (by norm_num)
    have haway := h.away_of_last hfull (hcan.resolve_left hdeviation) hlow
    refine ⟨d, ?_⟩
    rw [unclampedMid_of_down ((moveUp_eq_false_iff d).mpr (by simp [haway, hdeviation])), hticks]

/-- Some event moves up by the most ticks wherever a coin can. -/
theorem Reverting.exists_up (h : Reverting s) (ho : o.Validated)
    (hfull : o.meanReversionStrength = 1) (hcan : s.deviation ≤ 0 ∨
      s.deviation.natAbs * s.reversionMultiplier < 9223372036854775808) :
    ∃ d, unclampedMid o d s = s.midPriceScaled + o.maxTickMove * s.tickSizeScaled := by
  by_cases hdeviation : s.deviation ≤ 0
  · obtain ⟨d, hlow, hticks⟩ := exists_widest ho 0 (by norm_num)
    have htoward := @toward_of_first o s ho d hlow
    refine ⟨d, ?_⟩
    rw [unclampedMid_of_up ((moveUp_eq_true_iff d).mpr (by simp [htoward, hdeviation])), hticks]
  · obtain ⟨d, hlow, hticks⟩ := exists_widest ho 4294967295 (by norm_num)
    have haway := h.away_of_last hfull (hcan.resolve_left hdeviation) hlow
    refine ⟨d, ?_⟩
    rw [unclampedMid_of_up ((moveUp_eq_true_iff d).mpr (by simp [haway, hdeviation])), hticks]

/-- The band stands idle in a state exactly when it leaves room for the widest move. -/
theorem Reverting.forall_inBand_iff (h : Reverting s) (ho : o.Validated)
    (hfull : o.meanReversionStrength = 1) (htick : 0 < s.tickSizeScaled) :
    (∀ d, s.InBand (unclampedMid o d s)) ↔ HasRoom o s := by
  constructor
  · intro hall
    constructor
    · intro hcan
      obtain ⟨d, hd⟩ := h.exists_down ho hfull hcan
      exact hd ▸ (hall d).1
    · intro hcan
      obtain ⟨d, hd⟩ := h.exists_up ho hfull hcan
      exact hd ▸ (hall d).2
  · intro hroom d
    have hmove : (moveTicks o d : Int) * s.tickSizeScaled ≤ o.maxTickMove * s.tickSizeScaled :=
      mul_le_mul_of_nonneg_right (by exact_mod_cast moveTicks_le o d) htick.le
    have hnonneg : 0 ≤ (moveTicks o d : Int) * s.tickSizeScaled :=
      mul_nonneg (Int.natCast_nonneg _) htick.le
    have hlower := h.lower_le_mid
    have hupper := h.mid_le_upper
    by_cases hup : moveUp o d s = true
    · rw [unclampedMid_of_up hup]
      have habove := hroom.above (by
        by_cases hcoin : low d.walk < towardThreshold o s
        · exact .inl (((moveUp_eq_true_iff d).mp hup).mp hcoin)
        · exact .inr (h.product_lt_of_away hfull hcoin))
      exact ⟨by omega, by omega⟩
    · rw [Bool.not_eq_true] at hup
      rw [unclampedMid_of_down hup]
      have hbelow := hroom.below (by
        by_cases hcoin : low d.walk < towardThreshold o s
        · exact .inl (((moveUp_eq_false_iff d).mp hup).mp hcoin)
        · exact .inr (h.product_lt_of_away hfull hcoin))
      exact ⟨by omega, by omega⟩

end FullStrength

/-- At full strength, in every state a run reaches, the band holds no event back exactly when it
leaves room for the widest move in every direction the coin can take; within one half-width of
the anchor the coin can take both. -/
theorem fullStrength_inBand_iff {c : GeneratorConfig} {g : RandomWalkGenerator}
    {reading : ClockReading} {actions : List Action} {t : Tape} (ho : c.options.Validated)
    (hu : c.symbolUniverse.Loaded) (hfull : c.options.meanReversionStrength = 1)
    (hg : construct c reading = some g) (h : (tape c g).run actions = some t) :
    Each c (fun _ s =>
      ((∀ d, s.InBand (unclampedMid c.options d s)) ↔ HasRoom c.options s) ∧
      (s.deviation.natAbs ≤ s.reversionSpanScaled →
        (HasRoom c.options s ↔
          s.lowerBandScaled ≤ s.midPriceScaled - c.options.maxTickMove * s.tickSizeScaled ∧
          s.midPriceScaled + c.options.maxTickMove * s.tickSizeScaled ≤ s.upperBandScaled)))
      t.generator := by
  intro i definition s hdefinition hs
  have hreverts := reverting_run ho hu hg h i definition s hdefinition hs
  have hwalk := (sound_run ho (ticksScale_of_construct hu hg) hg h).walking i definition s
    hdefinition hs
  refine ⟨hreverts.forall_inBand_iff ho hfull (hwalk.tickSize.symm ▸ hwalk.tick_pos), ?_⟩
  intro hspan
  have hproduct : s.deviation.natAbs * s.reversionMultiplier < 9223372036854775808 := by
    have hunit : s.reversionSpanScaled * s.reversionMultiplier ≤ longMaxValue := by
      rw [hreverts.banded.multiplier_eq]
      exact Int.mul_ediv_self_le hreverts.banded.span_pos.ne'
    have hlong : longMaxValue < 9223372036854775808 := by decide
    exact_mod_cast ((mul_le_mul_of_nonneg_right hspan (Int.natCast_nonneg _)).trans hunit).trans_lt
      hlong
  exact ⟨fun hroom => ⟨hroom.below (.inr hproduct), hroom.above (.inr hproduct)⟩,
    fun hroom => ⟨fun _ => hroom.1, fun _ => hroom.2⟩⟩

/-- The two instruments at full strength. -/
def fullStrength : GeneratorConfig :=
  { twoSymbols with options := { meanReversionStrength := 1 } }

theorem fullStrength_validated : fullStrength.options.Validated := by
  constructor <;> norm_num [fullStrength, longMaxValue]

theorem fullStrength_inBand_iff_twoSessions : ∃ g t, construct fullStrength ⟨0, 0⟩ = some g ∧
    (tape fullStrength g).run twoSessions = some t ∧
    Each fullStrength (fun _ s =>
      (∀ d, s.InBand (unclampedMid fullStrength.options d s)) ↔ HasRoom fullStrength.options s)
      t.generator := by
  have hrun : ((construct fullStrength ⟨0, 0⟩).bind fun g =>
      ((tape fullStrength g).run twoSessions)).isSome = true := by decide +kernel
  obtain ⟨t, ht⟩ := Option.isSome_iff_exists.mp hrun
  obtain ⟨g, hg, ht⟩ := Option.bind_eq_some_iff.mp ht
  exact ⟨g, t, hg, ht, fun i definition s hdefinition hs =>
    (fullStrength_inBand_iff fullStrength_validated twoSymbols_loaded rfl hg ht i definition s
      hdefinition hs).1⟩

/-- An instrument at three ticks steps to zero, below a band that starts at one tick. -/
theorem not_fullStrength_inBand : ¬ ∀ (c : GeneratorConfig) (reading : ClockReading)
    (g : RandomWalkGenerator), c.options.Validated → c.symbolUniverse.Loaded →
    c.options.meanReversionStrength = 1 → construct c reading = some g →
    Each c (fun _ s => ∀ d, s.InBand (unclampedMid c.options d s)) g := by
  intro h
  have hmid : ((construct fullStrength ⟨0, 0⟩).bind fun g => (g.states[1]?).map fun s =>
      (s.lowerBandScaled, unclampedMid fullStrength.options
        ⟨0, 18446744073709551615, 0, 0, 0⟩ s)) = some (100, 0) := by decide +kernel
  obtain ⟨g, hg, hmid⟩ := Option.bind_eq_some_iff.mp hmid
  obtain ⟨s, hs, hmid⟩ := Option.map_eq_some_iff.mp hmid
  have hband := (h fullStrength ⟨0, 0⟩ g fullStrength_validated twoSymbols_loaded rfl hg 1 _ s
    rfl hs ⟨0, 18446744073709551615, 0, 0, 0⟩).1
  rw [Prod.mk.injEq] at hmid
  rw [hmid.1, hmid.2] at hband
  exact absurd hband (by norm_num)

end Tckr.Generation
