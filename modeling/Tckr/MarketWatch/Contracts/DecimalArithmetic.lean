import Mathlib.Algebra.Order.Field.Basic
import Mathlib.Algebra.Ring.Divisibility.Basic
import Mathlib.Data.Rat.Cast.Order
import Mathlib.Data.Sign.Basic
import Tckr.Core.Numerals
import Tckr.MarketWatch.Contracts.Decimal

/-!
# Decimal arithmetic is exact

A decimal denotes its scaled integer over ten thousand. The digits cut off the text
of a result are zeros: with `p` places in every operand the scaled result is a
multiple of `10 ^ (4 - p)`.
-/

namespace Tckr.MarketWatch.DecimalString

/-- The number that a decimal denotes. -/
def value (v : DecimalString) : ℚ := numeralValue v.chars

/-- A minus sign before nothing. -/
def NegativeZero (v : DecimalString) : Prop := v.chars.head? = some '-' ∧ v.value = 0

/-- A decimal denotes a number, at some places, and is no negative zero. -/
structure Exact (v : DecimalString) (x : ℚ) (places : Nat) : Prop where
  value : v.value = x
  places : v.decimalPlaces = places
  sign : ¬ v.NegativeZero

/-! ## Texts to scaled integers -/

theorem decimalPlaces_eq (v : DecimalString) :
    v.decimalPlaces = (fraction (unsigned v.chars)).length := by
  unfold decimalPlaces unsigned
  split
  · rename_i cs hchars
    rw [hchars, ← fraction, fraction_cons (by decide)]
  · rename_i cs hchars
    rw [hchars, ← fraction, fraction_cons (by decide)]
  · rfl

theorem value_eq (v : DecimalString) :
    v.value = if v.chars.head? = some '-' then -unsignedValue (unsigned v.chars)
      else unsignedValue (unsigned v.chars) := by
  unfold value numeralValue
  split
  · rename_i cs hchars
    rw [hchars, if_pos List.head?_cons]
    rfl
  · rename_i cs hchars
    rw [hchars, if_neg (by rw [List.head?_cons]; decide)]
    rfl
  · rename_i hminus hplus
    have hsame : unsigned v.chars = v.chars := by
      unfold unsigned
      split
      · exact (hplus _ ‹_›).elim
      · exact (hminus _ ‹_›).elim
      · rfl
    rw [if_neg, hsame]
    intro hhead
    obtain ⟨cs, hcs⟩ := List.head?_eq_some_iff.mp hhead
    exact hminus cs hcs

/-- The digits of a decimal, as an integer at its own precision. -/
def unscaledInt (v : DecimalString) : Int :=
  let magnitude : Int := digitsValue
    ((unsigned v.chars).takeWhile (· ≠ '.') ++ fraction (unsigned v.chars))
  if v.chars.head? = some '-' then -magnitude else magnitude

theorem toScaledInt_eq_unscaled (v : DecimalString) :
    v.toScaledInt = v.unscaledInt * 10 ^ (scaleDigits - v.decimalPlaces) := by
  have hpad : digitsValue ((unsigned v.chars).takeWhile (· ≠ '.') ++
      (fraction (unsigned v.chars)).rightpad scaleDigits '0') =
      digitsValue ((unsigned v.chars).takeWhile (· ≠ '.') ++ fraction (unsigned v.chars)) *
        10 ^ (scaleDigits - v.decimalPlaces) := by
    rw [List.rightpad, ← List.append_assoc, digitsValue_append, digitsValue_replicate_zero,
      Nat.add_zero, List.length_replicate, decimalPlaces_eq]
  have hscaled : v.toScaledInt = if (v.chars.head? == some '-') = true then
      -(digitsValue ((unsigned v.chars).takeWhile (· ≠ '.') ++
        (fraction (unsigned v.chars)).rightpad scaleDigits '0') : Int)
      else (digitsValue ((unsigned v.chars).takeWhile (· ≠ '.') ++
        (fraction (unsigned v.chars)).rightpad scaleDigits '0') : Int) := rfl
  rw [hscaled, hpad, unscaledInt]
  simp only [beq_iff_eq]
  split
  · push_cast
    ring
  · push_cast
    rfl

theorem value_eq_unscaled (v : DecimalString) :
    v.value = v.unscaledInt / 10 ^ v.decimalPlaces := by
  rw [value_eq, unscaledInt, unsignedValue, decimalPlaces_eq]
  split
  · push_cast
    ring
  · push_cast
    rfl

/-- A decimal denotes its scaled integer over ten thousand. -/
theorem value_eq_scaled (v : DecimalString) : v.value = v.toScaledInt / 10 ^ scaleDigits := by
  rw [value_eq_unscaled, toScaledInt_eq_unscaled]
  have hplaces := v.decimalPlaces_le
  have hsplit : (10 : ℚ) ^ scaleDigits =
      10 ^ v.decimalPlaces * 10 ^ (scaleDigits - v.decimalPlaces) := by
    rw [← pow_add, Nat.add_sub_cancel' hplaces]
  rw [hsplit]
  push_cast
  field_simp

theorem dvd_toScaledInt (v : DecimalString) {places : Nat} (h : v.decimalPlaces ≤ places) :
    (10 : Int) ^ (scaleDigits - places) ∣ v.toScaledInt := by
  rw [toScaledInt_eq_unscaled]
  exact (pow_dvd_pow 10 (Nat.sub_le_sub_left h scaleDigits)).mul_left _

/-! ## Scaled integers to texts -/

theorem digits_scaledDigits (magnitude : Nat) : Digits (scaledDigits magnitude) :=
  (digits_toDigits magnitude).leftpad _

theorem digitsValue_scaledDigits (magnitude : Nat) :
    digitsValue (scaledDigits magnitude) = magnitude := by
  rw [scaledDigits, digitsValue_leftpad, digitsValue_toDigits]

theorem scaleDigits_lt_length (magnitude : Nat) :
    scaleDigits < (scaledDigits magnitude).length := by
  rw [scaledDigits, List.length_leftpad]
  exact Nat.lt_of_lt_of_le (Nat.lt_succ_self _) (Nat.le_max_left _ _)

/-- The text of a magnitude at some places denotes it cut to them. -/
theorem unsignedValue_bodyText (magnitude decimals : Nat) :
    unsignedValue (bodyText (scaledDigits magnitude) decimals) =
      (magnitude / 10 ^ (scaleDigits - decimals) * 10 ^ (decimals - scaleDigits) : Nat) /
        10 ^ decimals := by
  obtain ⟨digits, hdigits⟩ : ∃ digits, digits = scaledDigits magnitude := ⟨_, rfl⟩
  have hall : Digits digits := hdigits ▸ digits_scaledDigits magnitude
  have hvalue : digitsValue digits = magnitude := hdigits ▸ digitsValue_scaledDigits magnitude
  have hlength : scaleDigits < digits.length := hdigits ▸ scaleDigits_lt_length magnitude
  rw [← hdigits]
  have hint := hall.take (digits.length - scaleDigits)
  unfold bodyText
  by_cases hd : decimals > 0
  · have hfrac : ((digits.drop (digits.length - scaleDigits)).take decimals).length =
        min decimals scaleDigits := by
      rw [List.length_take, List.length_drop]
      omega
    have hcut : digits.take (digits.length - scaleDigits) ++
        (digits.drop (digits.length - scaleDigits)).take decimals =
        digits.take (digits.length - (scaleDigits - decimals)) := by
      rw [← List.take_add]
      by_cases hle : decimals ≤ scaleDigits
      · congr 1
        omega
      · rw [List.take_of_length_le (by omega), List.take_of_length_le (by omega)]
    have hplaces : (((digits.drop (digits.length - scaleDigits)).take decimals).rightpad decimals
        '0').length = decimals := by
      rw [List.length_rightpad, hfrac]
      omega
    have hzeros : decimals - min decimals scaleDigits = decimals - scaleDigits := by omega
    simp only [hd, ite_true]
    rw [unsignedValue_point hint, hplaces, List.rightpad, hfrac, ← List.append_assoc, hcut,
      digitsValue_append, digitsValue_replicate_zero, List.length_replicate,
      digitsValue_take hall (by omega), hvalue, hzeros, Nat.add_zero]
  · obtain rfl : decimals = 0 := by omega
    simp only [hd, ite_false]
    rw [unsignedValue_digits hint, digitsValue_take hall hlength.le, hvalue, Nat.zero_sub, pow_zero,
      pow_zero, Nat.mul_one, div_one]
    rfl

theorem fraction_bodyText (magnitude decimals : Nat) :
    (fraction (bodyText (scaledDigits magnitude) decimals)).length = decimals := by
  have hint := (digits_scaledDigits magnitude).take
    ((scaledDigits magnitude).length - scaleDigits)
  have hlength := scaleDigits_lt_length magnitude
  unfold bodyText
  by_cases hd : decimals > 0
  · simp only [hd, ite_true]
    rw [fraction_point hint, List.length_rightpad, List.length_take, List.length_drop]
    omega
  · simp only [hd, ite_false]
    rw [fraction_digits hint, List.length_nil]
    omega

/-- The text of a magnitude starts with a digit. -/
theorem bodyText_head (magnitude decimals : Nat) :
    ∃ c cs, bodyText (scaledDigits magnitude) decimals = c :: cs ∧ c.isDigit = true := by
  have hlength := scaleDigits_lt_length magnitude
  cases hdigits : scaledDigits magnitude with
  | nil =>
    rw [hdigits] at hlength
    exact absurd hlength (Nat.not_lt_zero _)
  | cons c cs =>
    have hc : c.isDigit = true :=
      digits_scaledDigits magnitude c (hdigits ▸ List.mem_cons_self)
    rw [hdigits, List.length_cons] at hlength
    have hpos : (c :: cs).length - scaleDigits = cs.length - scaleDigits + 1 := by
      rw [List.length_cons]
      omega
    unfold bodyText
    dsimp only
    rw [hpos, List.take_succ_cons]
    split
    · exact ⟨c, _, rfl, hc⟩
    · exact ⟨c, _, rfl, hc⟩

/-- The text of a scaled integer at some places denotes it cut to them, toward zero. -/
theorem value_scaledText (scaled : Int) (decimals : Nat) :
    numeralValue (scaledText scaled decimals) =
      (scaled.tdiv (10 ^ (scaleDigits - decimals)) * 10 ^ (decimals - scaleDigits) : Int) /
        10 ^ decimals := by
  have hquotient : ∀ n : Nat, ((n / 10 ^ (scaleDigits - decimals) : Nat) : Int) =
      (n : Int).tdiv (10 ^ (scaleDigits - decimals)) := by
    intro n
    rw [Int.ofNat_tdiv]
    push_cast
    rfl
  unfold scaledText
  rcases lt_or_ge scaled 0 with hneg | hpos
  · obtain ⟨n, rfl⟩ : ∃ n : Nat, scaled = -(n : Int) := ⟨scaled.natAbs, by omega⟩
    simp only [hneg, if_true]
    show -unsignedValue _ = _
    rw [Int.natAbs_neg, Int.natAbs_natCast, unsignedValue_bodyText, Int.neg_tdiv, ← hquotient]
    generalize n / 10 ^ (scaleDigits - decimals) = quotient
    push_cast
    ring
  · obtain ⟨n, rfl⟩ : ∃ n : Nat, scaled = n := ⟨scaled.natAbs, by omega⟩
    obtain ⟨c, cs, hbody, hc⟩ := bodyText_head n decimals
    simp only [Int.not_lt.mpr hpos, if_false, Int.natAbs_natCast]
    rw [hbody, numeralValue_of_isDigit hc, ← hbody, unsignedValue_bodyText, ← hquotient]
    generalize n / 10 ^ (scaleDigits - decimals) = quotient
    push_cast
    rfl

/-- Where the digits cut off are zeros, nothing is lost. -/
theorem value_scaledText_of_dvd {scaled : Int} {decimals : Nat}
    (hdvd : (10 : Int) ^ (scaleDigits - decimals) ∣ scaled) :
    numeralValue (scaledText scaled decimals) = scaled / 10 ^ scaleDigits := by
  obtain ⟨quotient, rfl⟩ := hdvd
  have hpos : (10 : Int) ^ (scaleDigits - decimals) ≠ 0 := pow_ne_zero _ (by decide)
  rw [value_scaledText, Int.mul_tdiv_cancel_left _ hpos]
  push_cast
  rw [div_eq_div_iff (pow_ne_zero _ (by norm_num)) (pow_ne_zero _ (by norm_num))]
  have hsplit : (10 : ℚ) ^ (decimals - scaleDigits) * 10 ^ scaleDigits =
      10 ^ (scaleDigits - decimals) * 10 ^ decimals := by
    rw [← pow_add, ← pow_add]
    congr 1
    omega
  rw [mul_assoc, hsplit]
  ring

/-- A result whose cut digits are zeros is exact. -/
theorem exact_fromScaledInt {scaled : Int} {decimals : Nat} (h : decimals ≤ scaleDigits)
    (hdvd : (10 : Int) ^ (scaleDigits - decimals) ∣ scaled) :
    Exact (fromScaledInt scaled decimals h) (scaled / 10 ^ scaleDigits) decimals where
  value := value_scaledText_of_dvd hdvd
  places := by
    show (fraction (scaledText scaled decimals)).length = decimals
    unfold scaledText
    split
    · rw [fraction_cons (by decide), fraction_bodyText]
    · exact fraction_bodyText _ _
  sign := by
    rintro ⟨hhead, hzero⟩
    have hvalue : numeralValue (scaledText scaled decimals) = 0 := hzero
    rw [value_scaledText_of_dvd hdvd, div_eq_zero_iff, Int.cast_eq_zero] at hvalue
    obtain rfl := hvalue.resolve_right (pow_ne_zero _ (by norm_num))
    obtain ⟨c, cs, hbody, hc⟩ := bodyText_head 0 decimals
    have hchars : (scaledText 0 decimals).head? = some '-' := hhead
    rw [scaledText, if_neg (Int.lt_irrefl 0), Int.natAbs_zero, hbody, List.head?_cons,
      Option.some.injEq] at hchars
    rw [hchars] at hc
    exact absurd hc (by decide)

/-! ## The operations -/

theorem sub_value (a b : DecimalString) :
    a.value - b.value = (a.toScaledInt - b.toScaledInt : Int) / 10 ^ scaleDigits := by
  rw [value_eq_scaled, value_eq_scaled, Int.cast_sub, sub_div]

theorem compare_eq (a b : DecimalString) : a.compare b = SignType.sign (a.value - b.value) := by
  have hscale : (0 : ℚ) < 10 ^ scaleDigits := pow_pos (by norm_num) _
  rw [sub_value]
  unfold compare
  rcases lt_trichotomy (a.toScaledInt - b.toScaledInt) 0 with h | h | h
  · rw [sign_neg (div_neg_of_neg_of_pos (Int.cast_lt_zero.mpr h) hscale)]
    simp only [h, if_true]
    rfl
  · rw [h, Int.cast_zero, zero_div, sign_zero]
    rfl
  · rw [sign_pos (div_pos (Int.cast_pos.mpr h) hscale)]
    simp only [h.not_gt, h, if_true, if_false]
    rfl

theorem subtract_exact (a b : DecimalString) :
    Exact (a.subtract b) (a.value - b.value) (max a.decimalPlaces b.decimalPlaces) := by
  rw [sub_value]
  exact exact_fromScaledInt _
    (dvd_sub (a.dvd_toScaledInt (le_max_left _ _)) (b.dvd_toScaledInt (le_max_right _ _)))

theorem multiplyByQuantity_exact (a : DecimalString) {q : ℤ}
    (hq : isSafeInteger (some q) = true) :
    ∃ product, a.multiplyByQuantity (some q) = some product ∧
      Exact product (a.value * q) a.decimalPlaces := by
  refine ⟨_, if_pos hq, ?_⟩
  rw [Rat.num_intCast]
  have hvalue : a.value * q = (a.toScaledInt * q : Int) / 10 ^ scaleDigits := by
    rw [value_eq_scaled]
    push_cast
    ring
  rw [hvalue]
  exact exact_fromScaledInt _ ((a.dvd_toScaledInt le_rfl).mul_right q)

theorem toScaledInt_fromScaledInt (n : ℤ) :
    (fromScaledInt n scaleDigits le_rfl).toScaledInt = n := by
  have hexact : Exact (fromScaledInt n scaleDigits le_rfl) (n / 10 ^ scaleDigits) scaleDigits :=
    exact_fromScaledInt le_rfl (by rw [Nat.sub_self, pow_zero]; exact one_dvd n)
  have hvalue := hexact.value
  rw [value_eq_scaled, div_left_inj' (pow_ne_zero _ (by norm_num))] at hvalue
  exact Int.cast_inj.mp hvalue

/-- Differences, products by whole quantities and comparisons are exact, and at four
places the scaled integer and the text give each other. -/
theorem arithmetic_exact (a b : DecimalString) :
    Exact (a.subtract b) (a.value - b.value) (max a.decimalPlaces b.decimalPlaces) ∧
      (∀ q : ℤ, isSafeInteger (some q) = true → ∃ product,
        a.multiplyByQuantity (some q) = some product ∧
          Exact product (a.value * q) a.decimalPlaces) ∧
      a.compare b = SignType.sign (a.value - b.value) ∧
      (∀ n : ℤ, (fromScaledInt n scaleDigits le_rfl).toScaledInt = n) ∧
      (fromScaledInt a.toScaledInt scaleDigits le_rfl).value = a.value := by
  refine ⟨subtract_exact a b, fun q hq => multiplyByQuantity_exact a hq, compare_eq a b,
    toScaledInt_fromScaledInt, ?_⟩
  rw [value_eq_scaled, toScaledInt_fromScaledInt, ← value_eq_scaled]

/-- A loss of five hundredths on each of three shares. -/
theorem arithmetic_exact_minusFiveCents :
    isSafeInteger (some (3 : ℤ)) = true ∧ ∃ product,
      multiplyByQuantity ⟨['-', '0', '.', '0', '5'], by decide⟩ (some (3 : ℤ)) = some product ∧
        Exact product (value ⟨['-', '0', '.', '0', '5'], by decide⟩ * (3 : ℤ)) 2 :=
  ⟨by decide, (arithmetic_exact ⟨['-', '0', '.', '0', '5'], by decide⟩ ⟨['1'], by decide⟩).2.1 3
    (by decide)⟩

end Tckr.MarketWatch.DecimalString
