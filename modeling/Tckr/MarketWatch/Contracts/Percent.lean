import Tckr.Core.Rounding
import Tckr.MarketWatch.Contracts.DecimalArithmetic

/-!
# The two texts of a percentage agree

One path rounds the exact ratio to hundredths. The other truncates it to ten
thousandths, makes a number of the numeral and leaves the rounding to the platform.
They agree because the half points between hundredths are ten thousandths.
-/

namespace Tckr.MarketWatch

open DecimalString

/-- What the platform does with numbers: reading a numeral, the shortest decimal that
reads as a number, and the two formatters at two decimals. -/
structure NumberPlatform (Number : Type) where
  parse : List Char → Number
  shortest : Number → ℚ
  signedFormat : Number → List Char
  unsignedFormat : Number → List Char

/-- A number of hundredths as text, with a sign unless it is zero. -/
def hundredthsText (n : ℤ) : List Char :=
  (if n = 0 then [] else if n < 0 then ['-'] else ['+']) ++
    Nat.toDigits 10 (n.natAbs / 100) ++ '.' :: fixedDigits 2 n.natAbs

/-- The numeral of a percentage in ten-thousandths. -/
def percentNumeral (scaledPercent : ℤ) : List Char :=
  let negative := decide (scaledPercent < 0)
  let magnitude := scaledPercent.natAbs
  let intPart := magnitude / 10000
  let fracPart := (Nat.toDigits 10 (magnitude % 10000)).leftpad 4 '0'
  (if negative then ['-'] else []) ++ Nat.toDigits 10 intPart ++ '.' :: fracPart

namespace NumberPlatform

variable {Number : Type}

/-- The change as a number. -/
def percentChange (p : NumberPlatform Number) (a b : DecimalString) : Number :=
  if a.toScaledInt = 0 then p.parse ['0'] else p.parse (percentNumeral (a.percentChange b))

/-- The one way a change percentage becomes text. -/
def formatPercentFigure (p : NumberPlatform Number) (value : Number) (magnitude : Bool) :
    List Char :=
  if magnitude then p.unsignedFormat value else p.signedFormat value

/-- A numeral with at most fifteen digits is the shortest decimal of its number. -/
def ReadsBack (p : NumberPlatform Number) : Prop :=
  ∀ scaledPercent, |numeralValue (percentNumeral scaledPercent)| < 10 ^ 11 →
    p.shortest (p.parse (percentNumeral scaledPercent)) =
      numeralValue (percentNumeral scaledPercent)

/-- The shortest decimal is rounded half away from zero, and signed unless that is zero. -/
def RoundsHalfAway (p : NumberPlatform Number) : Prop :=
  ∀ x, (p.signedFormat x).filter (· ≠ ',') = hundredthsText (halfAway (p.shortest x * 100))

end NumberPlatform

/-- The exact change in percent. -/
def percent (a b : DecimalString) : ℚ := (b.value - a.value) * 100 / a.value

theorem hundredthsText_zero : hundredthsText 0 = ['0', '.', '0', '0'] := by decide

/-- The text of whole digits and a fixed number of others, with a sign or without. -/
theorem unsignedValue_fixed (m k : ℕ) (frac : List Char) (hfrac : digitsValue frac = m % 10 ^ k)
    (hlength : frac.length = k) :
    unsignedValue (Nat.toDigits 10 (m / 10 ^ k) ++ '.' :: frac) = (m : ℚ) / 10 ^ k := by
  rw [unsignedValue_point (digits_toDigits _), digitsValue_append, digitsValue_toDigits, hfrac,
    hlength, Nat.div_add_mod']

theorem natAbs_div (n : ℤ) (scale : ℚ) (h : 0 ≤ n) : (n.natAbs : ℚ) / scale = n / scale := by
  rw [Nat.cast_natAbs, abs_of_nonneg h]

theorem neg_natAbs_div (n : ℤ) (scale : ℚ) (h : n ≤ 0) : -((n.natAbs : ℚ) / scale) = n / scale := by
  rw [Nat.cast_natAbs, abs_of_nonpos h, Int.cast_neg, neg_div, neg_neg]

theorem numeralValue_hundredthsText (n : ℤ) : numeralValue (hundredthsText n) = n / 10 ^ 2 := by
  have hvalue := unsignedValue_fixed n.natAbs 2 (fixedDigits 2 n.natAbs)
    (digitsValue_fixedDigits _ _) (length_fixedDigits _ _)
  unfold hundredthsText
  rw [List.append_assoc]
  rcases lt_trichotomy n 0 with h | h | h
  · rw [if_neg h.ne, if_pos h, List.singleton_append, numeralValue_minus]
    exact (congrArg Neg.neg hvalue).trans (neg_natAbs_div n _ h.le)
  · rw [if_pos h, List.nil_append, numeralValue_toDigits_append]
    exact hvalue.trans (natAbs_div n _ h.ge)
  · rw [if_neg h.ne', if_neg h.not_gt, List.singleton_append, numeralValue_plus]
    exact hvalue.trans (natAbs_div n _ h.le)

theorem numeralValue_percentNumeral (scaledPercent : ℤ) :
    numeralValue (percentNumeral scaledPercent) = scaledPercent / 10 ^ 4 := by
  obtain ⟨m, hm⟩ : ∃ m, m = scaledPercent.natAbs := ⟨_, rfl⟩
  have hlength : ((Nat.toDigits 10 (m % 10000)).leftpad 4 '0').length = 4 := by
    have hshort := (Nat.length_toDigits_le_iff (b := 10) (k := 4) (by decide) (by decide)).mpr
      (Nat.mod_lt m (show 10 ^ 4 > 0 by decide))
    rw [List.length_leftpad]
    exact Nat.max_eq_left hshort
  have hdigits : digitsValue ((Nat.toDigits 10 (m % 10000)).leftpad 4 '0') = m % 10 ^ 4 := by
    rw [digitsValue_leftpad, digitsValue_toDigits]
    rfl
  have hvalue : unsignedValue (Nat.toDigits 10 (m / 10000) ++
      '.' :: (Nat.toDigits 10 (m % 10000)).leftpad 4 '0') = (m : ℚ) / 10 ^ 4 :=
    unsignedValue_fixed m 4 _ hdigits hlength
  unfold percentNumeral
  dsimp only
  rw [← hm, List.append_assoc]
  rcases lt_or_ge scaledPercent 0 with h | h
  · rw [decide_eq_true h, if_pos rfl, List.singleton_append, numeralValue_minus]
    rw [hvalue, hm, neg_natAbs_div scaledPercent _ h.le]
  · rw [decide_eq_false h.not_gt, if_neg Bool.false_ne_true, List.nil_append,
      numeralValue_toDigits_append]
    rw [hvalue, hm, natAbs_div scaledPercent _ h]

theorem percent_eq {a : DecimalString} (b : DecimalString) {d : ℕ} (hd : a.toScaledInt = d) :
    percent a b = ((b.toScaledInt - a.toScaledInt) * 100 : ℤ) / d := by
  have hscale : (10 : ℚ) ^ scaleDigits ≠ 0 := pow_ne_zero _ (by norm_num)
  rw [percent, sub_value, value_eq_scaled a, hd]
  push_cast
  field_simp

theorem toScaledInt_eq_natCast {a : DecimalString} (h : 0 < a.value) :
    ∃ d : ℕ, 0 < d ∧ a.toScaledInt = d := by
  rw [value_eq_scaled, div_pos_iff_of_pos_right (pow_pos (by norm_num) _), Int.cast_pos] at h
  exact ⟨a.toScaledInt.natAbs, by omega, by omega⟩

/-- The change is truncated to ten thousandths. -/
theorem percentChange_eq {a : DecimalString} (h : 0 < a.value) (b : DecimalString) :
    a.percentChange b = truncate (percent a b * 10 ^ 4) := by
  obtain ⟨d, hpos, hd⟩ := toScaledInt_eq_natCast h
  have hratio : percent a b * 10 ^ 4 =
      ((b.toScaledInt - a.toScaledInt) * 100 * 10000 : ℤ) / d := by
    rw [percent_eq b hd]
    push_cast
    ring
  rw [hratio, truncate_intCast_div, DecimalString.percentChange, if_neg (by omega), hd]

/-- The text of the change is the one of the exact ratio, rounded once. -/
theorem percentChangeText_eq {a : DecimalString} (h : 0 < a.value) (b : DecimalString) :
    a.percentChangeText b 2 = String.ofList (hundredthsText (halfAway (percent a b * 100))) := by
  obtain ⟨d, hpos, hd⟩ := toScaledInt_eq_natCast h
  obtain ⟨numerator, hnumerator⟩ :
      ∃ numerator, numerator = (b.toScaledInt - a.toScaledInt) * 100 * 10 ^ 2 := ⟨_, rfl⟩
  have hratio : percent a b * 100 = (numerator : ℚ) / d := by
    rw [percent_eq b hd, hnumerator]
    push_cast
    ring
  obtain ⟨n, hn⟩ : ∃ n, n = halfAway (percent a b * 100) := ⟨_, rfl⟩
  have hunits : n.natAbs = if numerator.natAbs % d * 2 ≥ d then numerator.natAbs / d + 1
      else numerator.natAbs / d := by
    rw [hn, hratio, natAbs_halfAway_intCast_div _ hpos]
  rw [← hn]
  unfold percentChangeText
  rw [if_neg (by omega)]
  dsimp only
  rw [← hnumerator, hd, Int.natAbs_natCast, ← hunits]
  by_cases hzero : n = 0
  · rw [hzero, Int.natAbs_zero, if_pos rfl]
    decide
  · have hnegative : (decide (numerator < 0) != decide ((d : ℤ) < 0)) = decide (n < 0) := by
      have hsign : n < 0 ↔ numerator < 0 := by
        rw [hn, hratio] at hzero ⊢
        rw [halfAway_neg_iff hzero, div_lt_iff₀ (Nat.cast_pos.mpr hpos), zero_mul,
          Int.cast_lt_zero]
      rw [decide_eq_false (show ¬ (d : ℤ) < 0 by omega), Bool.bne_false]
      exact decide_eq_decide.mpr hsign.symm
    have hsplit := pointed_leftpad (k := 2) (by decide) n.natAbs
    rw [pointed, if_pos (by decide)] at hsplit
    rw [if_neg (Int.natAbs_ne_zero.mpr hzero), hnegative, if_pos (show 2 > 0 from Nat.two_pos),
      hsplit]
    unfold hundredthsText
    rw [if_neg hzero]
    by_cases hneg : n < 0
    · rw [decide_eq_true hneg, if_pos rfl, if_pos hneg, List.append_assoc]
      exact (@String.ofList_append ['-'] _).symm
    · rw [decide_eq_false hneg, if_neg Bool.false_ne_true, if_neg hneg, List.append_assoc]
      exact (@String.ofList_append ['+'] _).symm

/-- Both texts are the exact ratio rounded once, whatever the platform writes between the
thousands. -/
theorem percent_texts_agree {Number : Type} (p : NumberPlatform Number) (hread : p.ReadsBack)
    (hround : p.RoundsHalfAway) (a b : DecimalString) (hfrom : 0 < a.value) :
    a.percentChangeText b 2 = String.ofList (hundredthsText (halfAway (percent a b * 100))) ∧
      (|numeralValue (percentNumeral (a.percentChange b))| < 10 ^ 11 →
        (p.formatPercentFigure (p.percentChange a b) false).filter (· ≠ ',') =
          hundredthsText (halfAway (percent a b * 100))) ∧
      numeralValue (hundredthsText (halfAway (percent a b * 100))) =
        halfAway (percent a b * 100) / 10 ^ 2 ∧
      hundredthsText 0 = ['0', '.', '0', '0'] := by
  refine ⟨percentChangeText_eq hfrom b, fun hbound => ?_, numeralValue_hundredthsText _,
    hundredthsText_zero⟩
  have hscaled : a.toScaledInt ≠ 0 := by
    obtain ⟨d, hpos, hd⟩ := toScaledInt_eq_natCast hfrom
    omega
  rw [NumberPlatform.formatPercentFigure, if_neg Bool.false_ne_true, hround,
    NumberPlatform.percentChange, if_neg hscaled, hread _ hbound, numeralValue_percentNumeral,
    percentChange_eq hfrom]
  -- the ten thousandths kept are an even subdivision of the hundredths
  have hkept : (truncate (percent a b * 10 ^ 4) : ℚ) / 10 ^ 4 * 100 =
      truncate (percent a b * 100 * (2 * 50 : ℕ)) / (2 * 50 : ℕ) := by
    have hsame : percent a b * 100 * (2 * 50 : ℕ) = percent a b * 10 ^ 4 := by
      push_cast
      ring
    rw [hsame]
    push_cast
    ring
  rw [hkept, halfAway_truncate (by decide)]

/-- Numbers that are their own shortest decimals. -/
def exactPlatform : NumberPlatform ℚ where
  parse := numeralValue
  shortest := id
  signedFormat x := hundredthsText (halfAway (x * 100))
  unsignedFormat x := (hundredthsText (halfAway (x * 100))).filter fun c => c ≠ '+' ∧ c ≠ '-'

theorem hundredthsText_ne_comma (n : ℤ) : ∀ c ∈ hundredthsText n, c ≠ ',' := by
  have hdigits : ∀ ds : List Char, Digits ds → ',' ∉ ds := fun ds h hc =>
    absurd (h ',' hc) (by decide)
  have hsign : ',' ∉ (if n = 0 then [] else if n < 0 then ['-'] else ['+'] : List Char) := by
    split
    · decide
    · split
      · decide
      · decide
  rintro c hc rfl
  unfold hundredthsText at hc
  rw [List.mem_append, List.mem_append, List.mem_cons] at hc
  rcases hc with (hc | hc) | hc | hc
  · exact hsign hc
  · exact hdigits _ (digits_toDigits _) hc
  · exact absurd hc (by decide)
  · exact hdigits _ (digits_fixedDigits 2 _) hc

/-- A fall of 0.235 percent shows as 0.24 on both paths. -/
theorem percent_texts_agree_fall :
    exactPlatform.ReadsBack ∧ exactPlatform.RoundsHalfAway ∧
      percentChangeText ⟨['2', '0', '0'], by decide⟩ ⟨['1', '9', '9', '.', '5', '3'], by decide⟩ 2 =
        String.ofList (hundredthsText (halfAway (percent ⟨['2', '0', '0'], by decide⟩
          ⟨['1', '9', '9', '.', '5', '3'], by decide⟩ * 100))) := by
  have hround : exactPlatform.RoundsHalfAway := fun x =>
    List.filter_eq_self.mpr fun c hc => decide_eq_true (hundredthsText_ne_comma _ c hc)
  refine ⟨fun _ _ => rfl, hround, ?_⟩
  have hfrom : 0 < value ⟨['2', '0', '0'], by decide⟩ := by
    rw [value_eq_scaled]
    decide +kernel
  exact (percent_texts_agree exactPlatform (fun _ _ => rfl) hround _ _ hfrom).1

end Tckr.MarketWatch
