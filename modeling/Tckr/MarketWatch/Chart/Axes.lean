import Tckr.MarketWatch.Contracts.DecimalText

/-!
# Axis labels agree with the texts of decimals

The chart turns a number of its scale into a decimal by its own slicing and formats
that. On a multiple of the places asked for the label is the text of the decimal it
stands for, as long as the scaled integer is printed digit by digit: from `10 ^ 21`
on a number prints with an exponent, and the label throws.
-/

namespace Tckr.MarketWatch

open DecimalString

/-- `toString` of a whole number, exact digits below `10 ^ 21`. -/
def integerToString (n : Nat) : List Char :=
  let digits := Nat.toDigits 10 n
  if digits.length ≤ 21 then digits
  else
    let significant := digits.rdropWhile (· = '0')
    let fraction := significant.drop 1
    significant.take 1 ++ (if fraction = [] then [] else '.' :: fraction) ++
      'e' :: '+' :: Nat.toDigits 10 (digits.length - 1)

/-- `Math.round`: the nearest integer, halves up. -/
def mathRound (x : ℚ) : ℤ := ⌊x + 1 / 2⌋

/-- The label of a number at some places; `none` where the text is no decimal. -/
def formatAxisPrice (value : JsNumber) (decimals : Nat) : Option (List Char) :=
  value.bind fun value =>
    let scale : ℚ := 10 ^ decimals
    let roundedMagnitude := (mathRound (|value| * scale)).toNat
    let digits := (integerToString roundedMagnitude).leftpad (decimals + 1) '0'
    let sliced := digits.take (digits.length - decimals)
    let intPart := if sliced = [] then ['0'] else sliced
    let fracPart := if decimals > 0 then digits.drop (digits.length - decimals) else []
    let body := if decimals > 0 then intPart ++ '.' :: fracPart else intPart
    let negative := decide (value < 0) && roundedMagnitude != 0
    (toDecimal ((if negative then ['-'] else []) ++ body)).map fun decimalString =>
      decimalString.format (some decimals) false

/-- The label of a multiple of the places asked for is the text of the decimal it is. -/
def Agrees (n : ℤ) (places : Nat) : Prop :=
  ∀ v : DecimalString, v.value = n / 10 ^ places →
    formatAxisPrice (some (n / 10 ^ places)) places = some (v.format (some places) false)

theorem mathRound_natCast (n : Nat) : mathRound n = n := by
  rw [mathRound, Int.floor_natCast_add]
  norm_num

theorem roundedMagnitude_eq (n : ℤ) (places : Nat) :
    (mathRound (|(n : ℚ) / 10 ^ places| * 10 ^ places)).toNat = n.natAbs := by
  have hscale : (0 : ℚ) < 10 ^ places := pow_pos (by norm_num) _
  rw [abs_div, abs_of_pos hscale, div_mul_cancel₀ _ hscale.ne', ← Int.cast_abs, Int.abs_eq_natAbs,
    Int.cast_natCast, mathRound_natCast, Int.toNat_natCast]

/-- The text that the label is parsed from. -/
theorem formatAxisPrice_eq (n : ℤ) (places : Nat) :
    formatAxisPrice (some (n / 10 ^ places)) places =
      (toDecimal ((if n < 0 then ['-'] else []) ++
        pointed ((integerToString n.natAbs).leftpad (places + 1) '0') places)).map
          fun v => v.format (some places) false := by
  have hscale : (0 : ℚ) < 10 ^ places := pow_pos (by norm_num) _
  have hnegative : (decide ((n : ℚ) / 10 ^ places < 0) && n.natAbs != 0) = decide (n < 0) := by
    rw [Bool.eq_iff_iff, Bool.and_eq_true, decide_eq_true_eq, decide_eq_true_eq, bne_iff_ne,
      Int.natAbs_ne_zero, div_lt_iff₀ hscale, zero_mul, Int.cast_lt_zero]
    exact and_iff_left_of_imp fun h => h.ne
  obtain ⟨digits, hdigits⟩ :
      ∃ digits, digits = (integerToString n.natAbs).leftpad (places + 1) '0' := ⟨_, rfl⟩
  have hlength : places < digits.length := by
    rw [hdigits, List.length_leftpad]
    exact Nat.lt_of_lt_of_le (Nat.lt_succ_self _) (Nat.le_max_left _ _)
  have hsliced : digits.take (digits.length - places) ≠ [] := by
    intro hnil
    have := congrArg List.length hnil
    rw [List.length_take, List.length_nil] at this
    omega
  unfold formatAxisPrice
  rw [Option.bind_some]
  dsimp only
  rw [roundedMagnitude_eq, hnegative, ← hdigits, if_neg hsliced]
  unfold pointed
  simp only [decide_eq_true_eq]
  by_cases hplaces : places > 0
  · simp only [hplaces, if_true]
  · simp only [hplaces, if_false]

theorem integerToString_of_lt {n : Nat} (h : n < 10 ^ 21) :
    integerToString n = Nat.toDigits 10 n :=
  if_pos ((Nat.length_toDigits_le_iff (by decide) (by decide)).mpr h)

theorem exponent_mem_integerToString {n : Nat} (h : 10 ^ 21 ≤ n) : 'e' ∈ integerToString n := by
  have hlong : ¬ (Nat.toDigits 10 n).length ≤ 21 := by
    rw [Nat.length_toDigits_le_iff (by decide) (by decide)]
    exact Nat.not_lt.mpr h
  unfold integerToString
  simp only [hlong, if_false]
  exact List.mem_append_right _ List.mem_cons_self

/-- The characters of an unsigned decimal. -/
theorem isDigit_or_point_of_mem {cs : List Char} (h : isUnsignedDecimal cs = true) {c : Char}
    (hc : c ∈ cs) : c.isDigit = true ∨ c = '.' := by
  rw [← List.takeWhile_append_dropWhile (p := Char.isDigit) (l := cs), List.mem_append] at hc
  rcases hc with hc | hc
  · exact .inl (List.mem_takeWhile_imp hc)
  · cases hdrop : cs.dropWhile Char.isDigit with
    | nil =>
      rw [hdrop] at hc
      cases hc
    | cons point frac =>
      simp only [isUnsignedDecimal, hdrop, Bool.and_eq_true, beq_iff_eq, List.all_eq_true] at h
      rw [hdrop, List.mem_cons] at hc
      rcases hc with rfl | hc
      · exact .inr h.2.1.1.1
      · exact .inl (h.2.1.1.2 c hc)

theorem exponent_not_mem {cs : List Char} (h : isDecimal cs = true) : 'e' ∉ cs := by
  have hunsigned : ∀ {ds : List Char}, isUnsignedDecimal ds = true → 'e' ∉ ds := by
    intro ds hds hmem
    rcases isDigit_or_point_of_mem hds hmem with hdigit | hpoint
    · exact absurd hdigit (by decide)
    · exact absurd hpoint (by decide)
  unfold isDecimal at h
  split at h
  · exact List.not_mem_cons_of_ne_of_not_mem (by decide) (hunsigned h)
  · exact List.not_mem_cons_of_ne_of_not_mem (by decide) (hunsigned h)
  · exact hunsigned h

/-- Digits with a point before at most four of them are an unsigned decimal. -/
theorem isUnsignedDecimal_pointed {digits : List Char} (h : Digits digits) {places : Nat}
    (hlt : places < digits.length) (hle : places ≤ scaleDigits) :
    isUnsignedDecimal (pointed digits places) = true := by
  have hint : digits.take (digits.length - places) ≠ [] := by
    intro hnil
    have := congrArg List.length hnil
    rw [List.length_take, List.length_nil] at this
    omega
  have hfrac : (digits.drop (digits.length - places)).length = places := by
    rw [List.length_drop]
    omega
  unfold pointed
  split
  · rename_i hpos
    apply isUnsignedDecimal_fraction hint (h.take _) (h.drop _)
    · exact List.ne_nil_of_length_pos (hfrac.symm ▸ hpos)
    · exact hfrac.le.trans hle
  · exact isUnsignedDecimal_digits hint (h.take _)

theorem mem_pointed {digits : List Char} {places : Nat} {c : Char} (hc : c ∈ digits) :
    c ∈ pointed digits places := by
  unfold pointed
  split
  · rw [← List.take_append_drop (digits.length - places) digits, List.mem_append] at hc
    rw [List.mem_append, List.mem_cons]
    exact hc.imp_right .inr
  · rename_i hzero
    rw [show places = 0 by omega, Nat.sub_zero, List.take_length]
    exact hc

/-- The decimal that the label of a number is the text of. -/
theorem toDecimal_pointed (n : ℤ) {places : Nat} (hplaces : places ≤ scaleDigits) :
    ∃ v : DecimalString, v.value = n / 10 ^ places ∧
      toDecimal ((if n < 0 then ['-'] else []) ++
        pointed ((Nat.toDigits 10 n.natAbs).leftpad (places + 1) '0') places) = some v := by
  obtain ⟨digits, hdigits⟩ :
      ∃ digits, digits = (Nat.toDigits 10 n.natAbs).leftpad (places + 1) '0' := ⟨_, rfl⟩
  have hall : Digits digits := hdigits ▸ (digits_toDigits _).leftpad _
  have hlength : places < digits.length := by
    rw [hdigits, List.length_leftpad]
    exact Nat.lt_of_lt_of_le (Nat.lt_succ_self _) (Nat.le_max_left _ _)
  have hvalue : unsignedValue (pointed digits places) = (n.natAbs : ℚ) / 10 ^ places := by
    rw [unsignedValue_pointed hall hlength.le, hdigits, digitsValue_leftpad, digitsValue_toDigits]
  have hbody := isUnsignedDecimal_pointed hall hlength hplaces
  rw [← hdigits]
  rcases lt_or_ge n 0 with hneg | hpos
  · have habs : (n.natAbs : ℚ) = -n := by
      rw [Nat.cast_natAbs, abs_of_neg hneg, Int.cast_neg]
    rw [if_pos hneg]
    refine ⟨⟨'-' :: pointed digits places, hbody⟩, ?_, dif_pos hbody⟩
    show -unsignedValue (pointed digits places) = _
    rw [hvalue, habs, neg_div, neg_neg]
  · have habs : (n.natAbs : ℚ) = n := by
      rw [Nat.cast_natAbs, abs_of_nonneg hpos]
    rw [if_neg hpos.not_gt, List.nil_append]
    refine ⟨⟨pointed digits places, isDecimal_of_unsigned hbody⟩, ?_,
      dif_pos (isDecimal_of_unsigned hbody)⟩
    show numeralValue (pointed digits places) = _
    cases hchars : pointed digits places with
    | nil =>
      rw [hchars] at hbody
      cases hbody
    | cons c cs =>
      rw [hchars] at hbody hvalue
      rw [numeralValue_of_isDigit (isUnsignedDecimal_head hbody), hvalue, habs]

theorem isDecimal_of_toDecimal {raw : List Char} {v : DecimalString} (h : toDecimal raw = some v) :
    isDecimal raw = true := by
  unfold toDecimal at h
  split at h
  · assumption
  · cases h

/-- The text depends on the number only. -/
theorem format_congr {v w : DecimalString} (h : v.value = w.value) (places : Nat) (sign : Bool) :
    v.format (some places) sign = w.format (some places) sign := by
  have hscaled : v.toScaledInt = w.toScaledInt := by
    rw [value_eq_scaled, value_eq_scaled, div_left_inj' (pow_ne_zero _ (by norm_num))] at h
    exact Int.cast_inj.mp h
  rw [format_eq, format_eq, hscaled]

/-- Labels and texts agree up to the number that prints with an exponent. -/
theorem agrees_iff (n : ℤ) {places : Nat} (hplaces : places ≤ scaleDigits) :
    Agrees n places ↔ n.natAbs < 10 ^ 21 := by
  constructor
  · intro h
    by_contra hlarge
    obtain ⟨v, hv, -⟩ := toDecimal_pointed n hplaces
    have hlabel := h v hv
    rw [formatAxisPrice_eq, Option.map_eq_some_iff] at hlabel
    obtain ⟨w, hw, -⟩ := hlabel
    have hexponent := exponent_mem_integerToString (Nat.not_lt.mp hlarge)
    exact exponent_not_mem (isDecimal_of_toDecimal hw)
      (List.mem_append_right _ (mem_pointed (List.mem_append_right _ hexponent)))
  · intro hsmall v hv
    obtain ⟨w, hw, htext⟩ := toDecimal_pointed n hplaces
    rw [formatAxisPrice_eq, integerToString_of_lt hsmall, htext, Option.map_some,
      format_congr (hw.trans hv.symm)]

end Tckr.MarketWatch
