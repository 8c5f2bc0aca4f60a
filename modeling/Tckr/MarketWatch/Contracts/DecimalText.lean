import Tckr.Core.Rounding
import Tckr.MarketWatch.Contracts.DecimalArithmetic

/-!
# The text of a decimal shows its number

The digits shown are those of the number cut toward zero. The sign is the one of the
whole number, so a number that is cut to zero keeps it.
-/

namespace Tckr.MarketWatch.DecimalString

/-- The number cut toward zero at some places. -/
def cut (v : DecimalString) (places : Nat) : ℚ := truncate (v.value * 10 ^ places) / 10 ^ places

/-- The text at some places denotes the number cut to them, and has a sign only where that
number has it. -/
structure Faithful (v : DecimalString) (places : Nat) (sign : Bool) : Prop where
  value : numeralValue (v.format (some places) sign) = v.cut places
  exact : v.decimalPlaces ≤ places → numeralValue (v.format (some places) sign) = v.value
  minus : (v.format (some places) sign).head? = some '-' → v.cut places < 0
  plus : (v.format (some places) sign).head? = some '+' → sign = true ∧ 0 < v.cut places

theorem cut_eq (v : DecimalString) (places : Nat) :
    v.cut places = (v.toScaledInt.tdiv (10 ^ (scaleDigits - places)) *
      10 ^ (places - scaleDigits) : Int) / 10 ^ places := by
  unfold cut
  congr 2
  rw [value_eq_scaled]
  rcases Nat.le_total places scaleDigits with h | h
  · have hquotient : (v.toScaledInt : ℚ) / 10 ^ scaleDigits * 10 ^ places =
        v.toScaledInt / (10 ^ (scaleDigits - places) : ℕ) := by
      have hsplit : (10 : ℚ) ^ scaleDigits = 10 ^ (scaleDigits - places) * 10 ^ places := by
        rw [← pow_add, Nat.sub_add_cancel h]
      rw [hsplit]
      push_cast
      field_simp
    rw [hquotient, truncate_intCast_div, Nat.sub_eq_zero_of_le h, pow_zero, mul_one]
    push_cast
    rfl
  · have hproduct : (v.toScaledInt : ℚ) / 10 ^ scaleDigits * 10 ^ places =
        (v.toScaledInt * 10 ^ (places - scaleDigits) : Int) := by
      have hsplit : (10 : ℚ) ^ places = 10 ^ (places - scaleDigits) * 10 ^ scaleDigits := by
        rw [← pow_add, Nat.sub_add_cancel h]
      rw [hsplit]
      push_cast
      field_simp
    rw [hproduct, truncate_intCast, Nat.sub_eq_zero_of_le h, pow_zero, Int.tdiv_one]

/-- The text of a decimal is the one of its scaled integer, and a plus sign where one is
asked for. -/
theorem format_eq (v : DecimalString) (places : Nat) (sign : Bool) :
    v.format (some places) sign =
      if 0 < v.toScaledInt ∧ sign = true then '+' :: scaledText v.toScaledInt places
      else scaledText v.toScaledInt places := by
  unfold format scaledText
  rw [Option.getD_some]
  rcases lt_trichotomy v.toScaledInt 0 with h | h | h
  · simp only [h, h.not_gt, decide_true, if_true, if_false, false_and, List.singleton_append]
  · simp only [h, Int.lt_irrefl, decide_false, Bool.false_eq_true, if_false, false_and,
      Int.natAbs_zero, decide_true, Bool.not_true, Bool.and_false, List.nil_append]
  · simp only [h, h.not_gt, Int.natAbs_ne_zero.mpr h.ne', decide_false, Bool.false_eq_true,
      if_false, true_and, Bool.not_false, Bool.and_true]
    split
    · rfl
    · rfl

theorem scaledText_head (scaled : Int) (places : Nat) :
    (scaledText scaled places).head? = some '-' ∧ scaled < 0 ∨
      0 ≤ scaled ∧ ∃ c cs, scaledText scaled places = c :: cs ∧ c.isDigit = true := by
  unfold scaledText
  rcases lt_or_ge scaled 0 with h | h
  · rw [if_pos h]
    exact .inl ⟨rfl, h⟩
  · rw [if_neg h.not_gt]
    exact .inr ⟨h, bodyText_head _ _⟩

theorem format_value (v : DecimalString) (places : Nat) (sign : Bool) :
    numeralValue (v.format (some places) sign) = v.cut places := by
  rw [format_eq, cut_eq, ← value_scaledText]
  split
  · rename_i h
    rcases scaledText_head v.toScaledInt places with ⟨-, hneg⟩ | ⟨-, c, cs, htext, hc⟩
    · exact absurd hneg h.1.not_gt
    · rw [htext, numeralValue_of_isDigit hc]
      rfl
  · rfl

theorem format_exact (v : DecimalString) {places : Nat} (h : v.decimalPlaces ≤ places)
    (sign : Bool) : numeralValue (v.format (some places) sign) = v.value := by
  rw [format_value, cut_eq, ← value_scaledText, value_eq_scaled,
    value_scaledText_of_dvd (v.dvd_toScaledInt h)]

theorem format_minus_iff (v : DecimalString) (places : Nat) (sign : Bool) :
    (v.format (some places) sign).head? = some '-' ↔ v.toScaledInt < 0 := by
  rw [format_eq]
  rcases scaledText_head v.toScaledInt places with ⟨htext, hneg⟩ | ⟨hpos, c, cs, htext, hc⟩
  · rw [if_neg fun h => absurd hneg h.1.not_gt, htext]
    exact iff_of_true rfl hneg
  · refine iff_of_false ?_ hpos.not_gt
    rw [htext]
    split
    · rw [List.head?_cons]
      decide
    · rw [List.head?_cons, Option.some.injEq]
      rintro rfl
      exact absurd hc (by decide)

theorem format_plus_iff (v : DecimalString) (places : Nat) (sign : Bool) :
    (v.format (some places) sign).head? = some '+' ↔ 0 < v.toScaledInt ∧ sign = true := by
  rw [format_eq]
  split
  · rename_i h
    exact iff_of_true rfl h
  · rename_i h
    refine iff_of_false ?_ h
    rcases scaledText_head v.toScaledInt places with ⟨htext, -⟩ | ⟨-, c, cs, htext, hc⟩
    · rw [htext]
      decide
    · rw [htext, List.head?_cons, Option.some.injEq]
      rintro rfl
      exact absurd hc (by decide)

/-! ## The sign of the number shown -/

theorem value_pos_iff (v : DecimalString) : 0 < v.value ↔ 0 < v.toScaledInt := by
  rw [value_eq_scaled, div_pos_iff_of_pos_right (pow_pos (by norm_num) _), Int.cast_pos]

theorem value_neg_iff (v : DecimalString) : v.value < 0 ↔ v.toScaledInt < 0 := by
  rw [value_eq_scaled, div_lt_iff₀ (pow_pos (by norm_num) _), zero_mul, Int.cast_lt_zero]

theorem cut_pos_iff (v : DecimalString) (places : Nat) :
    0 < v.cut places ↔ 1 / 10 ^ places ≤ v.value := by
  have hscale : (0 : ℚ) < 10 ^ places := pow_pos (by norm_num) _
  rw [cut, div_pos_iff_of_pos_right hscale, Int.cast_pos, truncate_pos_iff, div_le_iff₀ hscale]

theorem cut_neg_iff (v : DecimalString) (places : Nat) :
    v.cut places < 0 ↔ 1 / 10 ^ places ≤ -v.value := by
  have hscale : (0 : ℚ) < 10 ^ places := pow_pos (by norm_num) _
  rw [cut, div_lt_iff₀ hscale, zero_mul, Int.cast_lt_zero, div_le_iff₀ hscale, neg_mul,
    ← truncate_pos_iff, truncate_neg, Int.neg_pos]

/-- The text is faithful exactly when the number shown is not cut to zero, is zero, or has
no sign in the text. -/
theorem faithful_iff (v : DecimalString) (places : Nat) (sign : Bool) :
    Faithful v places sign ↔
      v.value = 0 ∨ 1 / 10 ^ places ≤ |v.value| ∨ 0 < v.value ∧ sign = false := by
  constructor
  · intro h
    rcases lt_trichotomy v.value 0 with hneg | hzero | hpos
    · have hshown := h.minus ((format_minus_iff v places sign).mpr (v.value_neg_iff.mp hneg))
      rw [cut_neg_iff] at hshown
      rw [abs_of_neg hneg]
      exact .inr (.inl hshown)
    · exact .inl hzero
    · cases sign with
      | false => exact .inr (.inr ⟨hpos, rfl⟩)
      | true =>
        have hshown := h.plus ((format_plus_iff v places true).mpr ⟨v.value_pos_iff.mp hpos, rfl⟩)
        rw [cut_pos_iff] at hshown
        rw [abs_of_pos hpos]
        exact .inr (.inl hshown.2)
  · intro h
    refine ⟨format_value v places sign, fun hplaces => format_exact v hplaces sign,
      fun hminus => ?_, fun hplus => ?_⟩
    · have hneg := v.value_neg_iff.mpr ((format_minus_iff v places sign).mp hminus)
      rw [cut_neg_iff]
      rcases h with hzero | hshown | ⟨hpos, -⟩
      · exact absurd hzero hneg.ne
      · rwa [abs_of_neg hneg] at hshown
      · exact absurd hpos hneg.not_gt
    · obtain ⟨hscaled, hsign⟩ := (format_plus_iff v places sign).mp hplus
      have hpos := v.value_pos_iff.mpr hscaled
      refine ⟨hsign, ?_⟩
      rw [cut_pos_iff]
      rcases h with hzero | hshown | ⟨-, hplain⟩
      · exact absurd hzero hpos.ne'
      · rwa [abs_of_pos hpos] at hshown
      · rw [hplain] at hsign
        cases hsign

end Tckr.MarketWatch.DecimalString
