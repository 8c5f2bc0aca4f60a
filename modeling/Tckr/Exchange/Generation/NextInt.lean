import Tckr.Core.MultiplyShift
import Tckr.Exchange.Generation.Xoshiro256StarStar

/-!
# A bounded draw

`NextInt` scales a 32-bit draw by multiplication and draws again while the low word of the
product falls below a threshold, which it computes only when that word is below the range.
The loop may draw any number of times and takes fuel: with `fuel` it draws so many times
again at most.
-/

namespace Tckr.Generation

namespace Xoshiro256StarStar

/-- The 32-bit draw of a state. -/
def draw (s : Xoshiro256StarStar) : UInt32 := s.nextUInt64.1.toUInt32

/-- The product of the draw with the range. -/
def product (range draw : UInt32) : UInt64 := draw.toUInt64 * range.toUInt64

/-- The product's low word. -/
def lowWord (range draw : UInt32) : UInt32 := (product range draw).toUInt32

/-- The length of the last partial block, by a wrapped negation. -/
def threshold (range : UInt32) : UInt32 := (-range.toInt32).toUInt32 % range

/-- Draws again while the low word is below the threshold. -/
def redraw (range threshold : UInt32) : Nat → UInt64 → Xoshiro256StarStar →
    Option (UInt64 × Xoshiro256StarStar)
  | 0, product, s => if product.toUInt32 < threshold then none else some (product, s)
  | fuel + 1, drawn, s =>
    if drawn.toUInt32 < threshold then
      redraw range threshold fuel (product range s.draw) s.advance
    else some (drawn, s)

/-- A drawn value, or an argument out of range. -/
inductive NextInt where
  | argumentOutOfRange
  | drawing
  | returned (value : Int32) (after : Xoshiro256StarStar)
  deriving DecidableEq

/-- The high word of the product. -/
def NextInt.ofProduct : Option (UInt64 × Xoshiro256StarStar) → NextInt
  | none => .drawing
  | some (product, s) => .returned (product >>> 32).toUInt32.toInt32 s

def nextInt (fuel : Nat) (exclusiveMax : Int32) (s : Xoshiro256StarStar) : NextInt :=
  if exclusiveMax ≤ 0 then .argumentOutOfRange
  else
    let range := exclusiveMax.toUInt32
    let drawn := product range s.draw
    if drawn.toUInt32 < range then
      .ofProduct (redraw range (threshold range) fuel drawn s.advance)
    else .ofProduct (some (drawn, s.advance))

/-- A draw whose low word does not fall into the last partial block. -/
def Accepts (exclusiveMax : Int32) (draw : UInt32) : Prop :=
  threshold exclusiveMax.toUInt32 ≤ lowWord exclusiveMax.toUInt32 draw

instance (exclusiveMax : Int32) (draw : UInt32) : Decidable (Accepts exclusiveMax draw) :=
  inferInstanceAs (Decidable (_ ≤ _))

/-- What an accepted draw is returned as. -/
def scaled (exclusiveMax : Int32) (draw : UInt32) : Int32 :=
  (product exclusiveMax.toUInt32 draw >>> 32).toUInt32.toInt32

/-! ## Words as numbers -/

theorem product_toNat (range draw : UInt32) :
    (product range draw).toNat = draw.toNat * range.toNat := by
  have hdraw := draw.toNat_lt
  have hrange := range.toNat_lt
  have hlt : draw.toNat * range.toNat < 4294967296 * 4294967296 := by
    calc
      draw.toNat * range.toNat ≤ 4294967296 * range.toNat := Nat.mul_le_mul_right _ (by omega)
      _ < 4294967296 * 4294967296 := Nat.mul_lt_mul_of_pos_left (by omega) (by omega)
  simp only [product, UInt64.toNat_mul, UInt32.toNat_toUInt64]
  omega

theorem lowWord_toNat (range draw : UInt32) :
    (lowWord range draw).toNat = draw.toNat * range.toNat % 4294967296 := by
  simp [lowWord, product_toNat]

/-- The wrapped negation takes one range off the block, which its remainder ignores. -/
theorem threshold_toNat {range : UInt32} (hrange : 0 < range.toNat) :
    (threshold range).toNat = 4294967296 % range.toNat := by
  have hlt := range.toNat_lt
  have hneg : (-range).toNat = 4294967296 - range.toNat := by
    rw [UInt32.toNat_neg]
    exact Nat.mod_eq_of_lt (Nat.sub_lt (by decide) hrange)
  have hcast : (-range.toInt32).toUInt32 = -range := by
    rw [Int32.toUInt32_neg, UInt32.toUInt32_toInt32]
  rw [threshold, hcast, UInt32.toNat_mod, hneg]
  exact (Nat.mod_eq_sub_mod (by omega)).symm

section Range

variable {exclusiveMax : Int32}

theorem toUInt32_toNat (hpos : 0 < exclusiveMax) :
    exclusiveMax.toUInt32.toNat = exclusiveMax.toInt.toNat :=
  Int32.toNat_toUInt32_of_le (Int32.le_of_lt hpos)

theorem toInt_pos (hpos : 0 < exclusiveMax) : 0 < exclusiveMax.toInt.toNat := by
  have h := Int32.lt_iff_toInt_lt.mp hpos
  rw [Int32.toInt_zero] at h
  omega

theorem accepts_iff (hpos : 0 < exclusiveMax) (draw : UInt32) :
    Accepts exclusiveMax draw ↔
      MultiplyShift.Accepted 4294967296 exclusiveMax.toInt.toNat draw.toNat := by
  have hn := toUInt32_toNat hpos
  have hrange : 0 < exclusiveMax.toUInt32.toNat := by
    rw [hn]
    exact toInt_pos hpos
  rw [Accepts, UInt32.le_iff_toNat_le, threshold_toNat hrange, lowWord_toNat, hn]
  rfl

theorem outcome_lt_range (hpos : 0 < exclusiveMax) (draw : UInt32) :
    MultiplyShift.outcome 4294967296 exclusiveMax.toInt.toNat draw.toNat <
      exclusiveMax.toInt.toNat :=
  MultiplyShift.outcome_lt draw.toNat_lt (toInt_pos hpos)

theorem scaled_toInt (hpos : 0 < exclusiveMax) (draw : UInt32) :
    (scaled exclusiveMax draw).toInt =
      MultiplyShift.outcome 4294967296 exclusiveMax.toInt.toNat draw.toNat := by
  have hlt := outcome_lt_range hpos draw
  have hmax := exclusiveMax.toInt_lt
  have hword : (product exclusiveMax.toUInt32 draw >>> 32).toUInt32.toNat =
      MultiplyShift.outcome 4294967296 exclusiveMax.toInt.toNat draw.toNat := by
    have hshift : (product exclusiveMax.toUInt32 draw >>> 32).toNat =
        MultiplyShift.outcome 4294967296 exclusiveMax.toInt.toNat draw.toNat := by
      rw [UInt64.toNat_shiftRight, product_toNat, toUInt32_toNat hpos, Nat.shiftRight_eq_div_pow]
      rfl
    rw [UInt64.toNat_toUInt32, hshift]
    exact Nat.mod_eq_of_lt (by omega)
  have htop : 2 * (product exclusiveMax.toUInt32 draw >>> 32).toUInt32.toBitVec.toNat < 2 ^ 32 := by
    rw [UInt32.toNat_toBitVec, hword]
    omega
  rw [← hword]
  exact BitVec.toInt_eq_toNat_of_lt htop

/-- The fast test lets no draw pass that the loop would reject. -/
theorem accepts_of_range_le (hpos : 0 < exclusiveMax) {draw : UInt32}
    (hfast : exclusiveMax.toUInt32 ≤ lowWord exclusiveMax.toUInt32 draw) :
    Accepts exclusiveMax draw := by
  have hrange : 0 < exclusiveMax.toUInt32.toNat := by
    rw [toUInt32_toNat hpos]
    exact toInt_pos hpos
  rw [UInt32.le_iff_toNat_le] at hfast
  rw [Accepts, UInt32.le_iff_toNat_le, threshold_toNat hrange]
  exact Nat.le_trans (Nat.le_of_lt (Nat.mod_lt _ hrange)) hfast

theorem scaled_mem (hpos : 0 < exclusiveMax) (draw : UInt32) :
    0 ≤ scaled exclusiveMax draw ∧ scaled exclusiveMax draw < exclusiveMax := by
  have hlt := outcome_lt_range hpos draw
  rw [Int32.le_iff_toInt_le, Int32.lt_iff_toInt_lt, scaled_toInt hpos, Int32.toInt_zero]
  omega

end Range

/-! ## The loop -/

/-- The first of the accepted draws is returned, and it comes within `fuel` draws again. -/
def FirstAccepted (exclusiveMax : Int32) (fuel : Nat) (s : Xoshiro256StarStar) (value : Int32)
    (after : Xoshiro256StarStar) : Prop :=
  ∃ again ≤ fuel, (∀ k < again, ¬Accepts exclusiveMax (advance^[k] s).draw) ∧
    Accepts exclusiveMax (advance^[again] s).draw ∧
    value = scaled exclusiveMax (advance^[again] s).draw ∧ after = advance^[again + 1] s

section Loop

variable {exclusiveMax value : Int32} {fuel : Nat} {s after : Xoshiro256StarStar}

/-- An accepted draw is the first one. -/
theorem firstAccepted_iff_of_accepts (haccepts : Accepts exclusiveMax s.draw) :
    FirstAccepted exclusiveMax fuel s value after ↔
      value = scaled exclusiveMax s.draw ∧ after = s.advance := by
  constructor
  · rintro ⟨again, -, hrejected, -, hvalue, hafter⟩
    obtain rfl | again := again
    · exact ⟨hvalue, hafter⟩
    · exact absurd haccepts (hrejected 0 (Nat.succ_pos again))
  · rintro ⟨hvalue, hafter⟩
    exact ⟨0, Nat.zero_le fuel, fun k hk => absurd hk (Nat.not_lt_zero k), haccepts, hvalue, hafter⟩

theorem not_firstAccepted_zero (hrejects : ¬Accepts exclusiveMax s.draw) :
    ¬FirstAccepted exclusiveMax 0 s value after := by
  rintro ⟨again, hagain, -, haccepts, -, -⟩
  obtain rfl := Nat.le_zero.mp hagain
  exact hrejects haccepts

/-- After a rejected draw the first accepted one is that of the next state. -/
theorem firstAccepted_succ_iff (hrejects : ¬Accepts exclusiveMax s.draw) :
    FirstAccepted exclusiveMax (fuel + 1) s value after ↔
      FirstAccepted exclusiveMax fuel s.advance value after := by
  constructor
  · rintro ⟨again, hagain, hrejected, haccepts, hvalue, hafter⟩
    obtain rfl | again := again
    · exact absurd haccepts hrejects
    · exact ⟨again, Nat.le_of_succ_le_succ hagain,
        fun k hk => hrejected (k + 1) (Nat.succ_lt_succ hk), haccepts, hvalue, hafter⟩
  · rintro ⟨again, hagain, hrejected, haccepts, hvalue, hafter⟩
    refine ⟨again + 1, Nat.succ_le_succ hagain, fun k hk => ?_, haccepts, hvalue, hafter⟩
    obtain rfl | k := k
    · exact hrejects
    · exact hrejected k (Nat.lt_of_succ_lt_succ hk)

theorem not_lt_threshold_iff {draw : UInt32} :
    ¬(product exclusiveMax.toUInt32 draw).toUInt32 < threshold exclusiveMax.toUInt32 ↔
      Accepts exclusiveMax draw :=
  UInt32.not_lt

theorem ofProduct_some :
    NextInt.ofProduct (some (product exclusiveMax.toUInt32 s.draw, s.advance)) =
        .returned value after ↔
      value = scaled exclusiveMax s.draw ∧ after = s.advance := by
  simp only [NextInt.ofProduct, scaled, NextInt.returned.injEq]
  exact and_congr eq_comm eq_comm

/-- The loop's test is the rejection. -/
theorem ofProduct_redraw :
    NextInt.ofProduct (redraw exclusiveMax.toUInt32 (threshold exclusiveMax.toUInt32) fuel
        (product exclusiveMax.toUInt32 s.draw) s.advance) = .returned value after ↔
      FirstAccepted exclusiveMax fuel s value after := by
  induction fuel generalizing s with
  | zero =>
    by_cases haccepts : Accepts exclusiveMax s.draw
    · rw [redraw, if_neg (not_lt_threshold_iff.mpr haccepts), firstAccepted_iff_of_accepts haccepts]
      exact ofProduct_some
    · rw [redraw, if_pos (not_not.mp (mt not_lt_threshold_iff.mp haccepts))]
      exact iff_of_false (by simp [NextInt.ofProduct]) (not_firstAccepted_zero haccepts)
  | succ fuel ih =>
    by_cases haccepts : Accepts exclusiveMax s.draw
    · rw [redraw, if_neg (not_lt_threshold_iff.mpr haccepts), firstAccepted_iff_of_accepts haccepts]
      exact ofProduct_some
    · rw [redraw, if_pos (not_not.mp (mt not_lt_threshold_iff.mp haccepts)),
        firstAccepted_succ_iff haccepts]
      exact ih

/-- The fast test only spares the threshold: what is returned is the first accepted draw. -/
theorem nextInt_eq_returned_iff (hpos : 0 < exclusiveMax) :
    nextInt fuel exclusiveMax s = .returned value after ↔
      FirstAccepted exclusiveMax fuel s value after := by
  rw [nextInt, if_neg (Int32.not_le.mpr hpos)]
  dsimp only
  split
  · exact ofProduct_redraw
  · next hfast =>
    rw [firstAccepted_iff_of_accepts (accepts_of_range_le hpos (UInt32.not_lt.mp hfast))]
    exact ofProduct_some

/-- A range that is not positive is refused, and only that. -/
theorem nextInt_eq_argumentOutOfRange_iff :
    nextInt fuel exclusiveMax s = .argumentOutOfRange ↔ exclusiveMax ≤ 0 := by
  have hofProduct (drawn : Option (UInt64 × Xoshiro256StarStar)) :
      NextInt.ofProduct drawn ≠ .argumentOutOfRange := by
    cases drawn <;> simp [NextInt.ofProduct]
  rw [nextInt]
  split
  · next hle => exact iff_of_true rfl hle
  · next hle =>
    refine iff_of_false ?_ hle
    dsimp only
    split
    · exact hofProduct _
    · exact hofProduct _

end Loop

/-- `NextInt` returns the first accepted draw, as a value of the range. Every value of the
range is returned for as many draws as there are whole ranges in 2^32, and at least half
of the draws are accepted. -/
theorem nextInt_uniform (exclusiveMax : Int32) (hpos : 0 < exclusiveMax) :
    (∀ (fuel : Nat) (s after : Xoshiro256StarStar) (value : Int32),
      nextInt fuel exclusiveMax s = .returned value after ↔
        FirstAccepted exclusiveMax fuel s value after) ∧
    (∀ draw : UInt32, exclusiveMax.toUInt32 ≤ lowWord exclusiveMax.toUInt32 draw →
      Accepts exclusiveMax draw) ∧
    (∀ (fuel : Nat) (s after : Xoshiro256StarStar) (value : Int32),
      nextInt fuel exclusiveMax s = .returned value after → 0 ≤ value ∧ value < exclusiveMax) ∧
    (∀ value : Int32, 0 ≤ value → value < exclusiveMax →
      ((Finset.range 4294967296).filter fun draw => Accepts exclusiveMax (UInt32.ofNat draw) ∧
        scaled exclusiveMax (UInt32.ofNat draw) = value).card =
        4294967296 / exclusiveMax.toInt.toNat) ∧
    4294967296 ≤ 2 * ((Finset.range 4294967296).filter fun draw =>
      Accepts exclusiveMax (UInt32.ofNat draw)).card := by
  have hmax := exclusiveMax.toInt_lt
  have hdraw {draw : Nat} (hlt : draw ∈ Finset.range 4294967296) :
      (UInt32.ofNat draw).toNat = draw :=
    UInt32.toNat_ofNat_of_lt' (Finset.mem_range.mp hlt)
  refine ⟨fun fuel s after value => nextInt_eq_returned_iff hpos,
    fun draw => accepts_of_range_le hpos, ?_, ?_, ?_⟩
  · intro fuel s after value hreturned
    obtain ⟨again, -, -, -, rfl, -⟩ := (nextInt_eq_returned_iff hpos).mp hreturned
    exact scaled_mem hpos _
  · intro value hlower hupper
    rw [Int32.le_iff_toInt_le, Int32.toInt_zero] at hlower
    rw [Int32.lt_iff_toInt_lt] at hupper
    rw [← MultiplyShift.card_accepted (toInt_pos hpos) (r := value.toInt.toNat) (by omega)]
    refine congrArg Finset.card (Finset.filter_congr fun draw hlt => ?_)
    rw [accepts_iff hpos, ← Int32.toInt_inj, scaled_toInt hpos, hdraw hlt]
    exact and_congr_right fun _ => by omega
  · refine (MultiplyShift.half_le_card_accepted (toInt_pos hpos) (by omega)).trans
      (Nat.le_of_eq (congrArg (2 * ·) (congrArg Finset.card
        (Finset.filter_congr fun draw hlt => ?_))))
    rw [accepts_iff hpos, hdraw hlt]

theorem nextInt_uniform_die :
    (0 : Int32) < 6 ∧ nextInt 0 6 (ofSeed 0) = .returned 4 (ofSeed 0).advance ∧
      ((Finset.range 4294967296).filter fun draw => Accepts 6 (UInt32.ofNat draw) ∧
        scaled 6 (UInt32.ofNat draw) = 4).card = 715827882 := by
  have hpos : (0 : Int32) < 6 := by decide
  obtain ⟨-, -, -, hcard, -⟩ := nextInt_uniform 6 hpos
  exact ⟨hpos, by decide +kernel, hcard 4 (by decide) (by decide)⟩

end Xoshiro256StarStar

end Tckr.Generation
