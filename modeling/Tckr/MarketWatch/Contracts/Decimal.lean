import Mathlib.Algebra.Ring.Int.Defs
import Mathlib.Algebra.Ring.Nat
import Mathlib.Data.Int.Basic
import Mathlib.Data.List.DropRight
import Mathlib.Data.List.TakeWhile
import Mathlib.Data.Rat.Init

/-!
# Decimal strings

Prices travel as decimal text and are computed on exactly, as integers scaled by
four implied decimal places. A difference of two prices is again a valid decimal,
so the brand the client casts onto the result holds.
-/

namespace Tckr.MarketWatch

/-- Implied decimal digits of the exchange's fixed-point scale. -/
def scaleDigits : Nat := 4

/-- At least one digit, then optionally a point and up to four more. -/
def isUnsignedDecimal (cs : List Char) : Bool :=
  !(cs.takeWhile Char.isDigit).isEmpty &&
    match cs.dropWhile Char.isDigit with
    | [] => true
    | c :: frac =>
        c == '.' && frac.all Char.isDigit && !frac.isEmpty && decide (frac.length ≤ scaleDigits)

/-- `/^[+-]?\d+(\.\d{1,4})?$/`. -/
def isDecimal : List Char → Bool
  | '+' :: cs => isUnsignedDecimal cs
  | '-' :: cs => isUnsignedDecimal cs
  | cs => isUnsignedDecimal cs

/-- A validated decimal string. -/
structure DecimalString where
  /-- The characters as written. -/
  chars : List Char
  valid : isDecimal chars = true
  deriving DecidableEq

/-- A number; `none` for `NaN` and the infinities. -/
abbrev JsNumber := Option ℚ

/-- `Number.isSafeInteger`. -/
def isSafeInteger : JsNumber → Bool
  | some q => q.den == 1 && decide (q.num.natAbs ≤ 2 ^ 53 - 1)
  | none => false

namespace DecimalString

/-- `none` for text that is not a decimal. -/
def toDecimal (raw : List Char) : Option DecimalString :=
  if h : isDecimal raw = true then some ⟨raw, h⟩ else none

/-- The text without its sign. -/
def unsigned : List Char → List Char
  | '+' :: cs => cs
  | '-' :: cs => cs
  | cs => cs

/-- Fractional digits as written. -/
def decimalPlaces (value : DecimalString) : Nat :=
  ((value.chars.dropWhile (· ≠ '.')).drop 1).length

/-- The signed integer scaled by the implied decimal places. -/
def toScaledInt (value : DecimalString) : Int :=
  let negative := value.chars.head? == some '-'
  let unsigned := unsigned value.chars
  let intPart := unsigned.takeWhile (· ≠ '.')
  let fracRaw := (unsigned.dropWhile (· ≠ '.')).drop 1
  let fracPart := fracRaw.rightpad scaleDigits '0'
  let magnitude : Int := Nat.ofDigitChars 10 (intPart ++ fracPart) 0
  if negative then -magnitude else magnitude

/-- The digits of a scaled magnitude, the last four of them fractional. -/
def scaledDigits (magnitude : Nat) : List Char :=
  (Nat.toDigits 10 magnitude).leftpad (scaleDigits + 1) '0'

/-- Scaled digits with a point before the last four, cut to the given places. -/
def bodyText (digits : List Char) (decimals : Nat) : List Char :=
  let intPart := digits.take (digits.length - scaleDigits)
  let fullFrac := digits.drop (digits.length - scaleDigits)
  if decimals > 0 then intPart ++ '.' :: (fullFrac.take decimals).rightpad decimals '0'
  else intPart

/-- The text of a scaled integer with the given number of fractional digits. -/
def scaledText (scaled : Int) (decimals : Nat) : List Char :=
  let body := bodyText (scaledDigits scaled.natAbs) decimals
  if scaled < 0 then '-' :: body else body

private theorem scaledDigits_isDigit {magnitude : Nat} {c : Char} (h : c ∈ scaledDigits magnitude) :
    c.isDigit = true := by
  rw [scaledDigits, List.leftpad, List.mem_append] at h
  rcases h with h | h
  · rw [List.eq_of_mem_replicate h]
    rfl
  · exact Nat.isDigit_of_mem_toDigits (by decide) (by decide) h

private theorem lt_scaledDigits_length (magnitude : Nat) :
    scaleDigits < (scaledDigits magnitude).length := by
  rw [scaledDigits, List.length_leftpad]
  exact Nat.lt_of_lt_of_le (Nat.lt_succ_self _) (Nat.le_max_left _ _)

theorem isUnsignedDecimal_digits {intPart : List Char} (hne : intPart ≠ [])
    (hint : ∀ c ∈ intPart, c.isDigit = true) : isUnsignedDecimal intPart = true := by
  have htake : intPart.takeWhile Char.isDigit = intPart := List.takeWhile_eq_self_iff.mpr hint
  have hdrop : intPart.dropWhile Char.isDigit = [] := List.dropWhile_eq_nil_iff.mpr hint
  simp only [isUnsignedDecimal, htake, hdrop, List.isEmpty_eq_false_iff.mpr hne, Bool.not_false,
    Bool.and_self]

theorem isUnsignedDecimal_fraction {intPart frac : List Char} (hne : intPart ≠ [])
    (hint : ∀ c ∈ intPart, c.isDigit = true) (hfrac : ∀ c ∈ frac, c.isDigit = true)
    (hne' : frac ≠ []) (hlen : frac.length ≤ scaleDigits) :
    isUnsignedDecimal (intPart ++ '.' :: frac) = true := by
  have htake : (intPart ++ '.' :: frac).takeWhile Char.isDigit = intPart := by
    rw [List.takeWhile_append_of_pos hint, List.takeWhile_cons_of_neg (by decide), List.append_nil]
  have hdrop : (intPart ++ '.' :: frac).dropWhile Char.isDigit = '.' :: frac := by
    rw [List.dropWhile_append_of_pos hint, List.dropWhile_cons_of_neg (by decide)]
  simp only [isUnsignedDecimal, htake, hdrop, List.isEmpty_eq_false_iff.mpr hne,
    List.all_eq_true.mpr hfrac, List.isEmpty_eq_false_iff.mpr hne', hlen, BEq.rfl, Bool.not_false,
    Bool.and_self, decide_true]

/-- More than four digits with a point among the last four are an unsigned decimal. -/
theorem isUnsignedDecimal_bodyText {digits : List Char} (hlt : scaleDigits < digits.length)
    (hdigits : ∀ c ∈ digits, c.isDigit = true) {decimals : Nat} (h : decimals ≤ scaleDigits) :
    isUnsignedDecimal (bodyText digits decimals) = true := by
  have hint : digits.take (digits.length - scaleDigits) ≠ [] := by
    intro hnil
    have hlen := congrArg List.length hnil
    rw [List.length_take, List.length_nil] at hlen
    omega
  have hintd : ∀ c ∈ digits.take (digits.length - scaleDigits), c.isDigit = true :=
    fun c hc => hdigits c (List.mem_of_mem_take hc)
  have hfrac : ((digits.drop (digits.length - scaleDigits)).take decimals).length = decimals := by
    rw [List.length_take, List.length_drop]
    omega
  unfold bodyText
  by_cases hd : decimals > 0
  · simp only [hd, ite_true]
    rw [List.rightpad, hfrac, Nat.sub_self, List.replicate_zero, List.append_nil]
    apply isUnsignedDecimal_fraction hint hintd
    · intro c hc
      exact hdigits c (List.mem_of_mem_drop (List.mem_of_mem_take hc))
    · exact List.ne_nil_of_length_pos (hfrac.symm ▸ hd)
    · exact hfrac.le.trans h
  · simp only [hd, ite_false]
    exact isUnsignedDecimal_digits hint hintd

theorem isUnsignedDecimal_head {c : Char} {cs : List Char}
    (h : isUnsignedDecimal (c :: cs) = true) : c.isDigit = true := by
  by_contra hc
  rw [isUnsignedDecimal, List.takeWhile_cons_of_neg hc] at h
  simp only [List.isEmpty_nil, Bool.not_true, Bool.false_and, Bool.false_eq_true] at h

/-- A text that is an unsigned decimal is a decimal as it stands. -/
theorem isDecimal_of_unsigned {cs : List Char} (h : isUnsignedDecimal cs = true) :
    isDecimal cs = true := by
  unfold isDecimal
  split
  · exact absurd (isUnsignedDecimal_head h) (by decide)
  · exact absurd (isUnsignedDecimal_head h) (by decide)
  · exact h

theorem isDecimal_scaledText (scaled : Int) {decimals : Nat} (h : decimals ≤ scaleDigits) :
    isDecimal (scaledText scaled decimals) = true := by
  have hbody := isUnsignedDecimal_bodyText (lt_scaledDigits_length scaled.natAbs)
    (fun c hc => scaledDigits_isDigit hc) h
  unfold scaledText
  by_cases hneg : scaled < 0
  · simp only [hneg, ite_true]
    exact hbody
  · simp only [hneg, ite_false]
    exact isDecimal_of_unsigned hbody

private theorem digit_ne_point {c : Char} (h : c.isDigit = true) : decide (c ≠ '.') = true := by
  rw [decide_eq_true_eq]
  rintro rfl
  exact absurd h (by decide)

theorem fraction_length_le {cs : List Char} (h : isUnsignedDecimal cs = true) :
    ((cs.dropWhile (· ≠ '.')).drop 1).length ≤ scaleDigits := by
  have hsplit : cs.dropWhile (· ≠ '.') = (cs.dropWhile Char.isDigit).dropWhile (· ≠ '.') := by
    conv_lhs => rw [← List.takeWhile_append_dropWhile (p := Char.isDigit) (l := cs)]
    exact List.dropWhile_append_of_pos fun c hc => digit_ne_point (List.mem_takeWhile_imp hc)
  rw [hsplit]
  cases hdrop : cs.dropWhile Char.isDigit with
  | nil => exact Nat.zero_le _
  | cons c frac =>
    simp only [isUnsignedDecimal, hdrop, Bool.and_eq_true, beq_iff_eq, decide_eq_true_eq] at h
    obtain ⟨-, ⟨⟨rfl, -⟩, -⟩, hlen⟩ := h
    exact hlen

theorem decimalPlaces_le (value : DecimalString) : value.decimalPlaces ≤ scaleDigits := by
  obtain ⟨chars, hvalid⟩ := value
  unfold decimalPlaces
  unfold isDecimal at hvalid
  dsimp only
  split at hvalid
  · rw [List.dropWhile_cons_of_pos (by decide)]
    exact fraction_length_le hvalid
  · rw [List.dropWhile_cons_of_pos (by decide)]
    exact fraction_length_le hvalid
  · exact fraction_length_le hvalid

/-- The decimal of a scaled integer that needs at most the scale's digits. -/
def fromScaledInt (scaled : Int) (decimals : Nat) (h : decimals ≤ scaleDigits) : DecimalString :=
  ⟨scaledText scaled decimals, isDecimal_scaledText scaled h⟩

/-- Which of two decimals is greater. -/
def compare (a b : DecimalString) : Int :=
  let diff := a.toScaledInt - b.toScaledInt
  if diff < 0 then -1 else if diff > 0 then 1 else 0

/-- The exact difference, at the longer of the two precisions. -/
def subtract (a b : DecimalString) : DecimalString :=
  fromScaledInt (a.toScaledInt - b.toScaledInt) (max a.decimalPlaces b.decimalPlaces)
    (Nat.max_le.mpr ⟨a.decimalPlaces_le, b.decimalPlaces_le⟩)

/-- A value times a whole-number quantity, at the precision of the value; `none` for a
quantity that is no safe integer. -/
def multiplyByQuantity (value : DecimalString) (quantity : JsNumber) : Option DecimalString :=
  match quantity with
  | some q =>
    if isSafeInteger quantity then
      some (fromScaledInt (value.toScaledInt * q.num) value.decimalPlaces value.decimalPlaces_le)
    else none
  | none => none

/-- The units of a magnitude at a glance, greatest first. -/
def compactUnits : List (Nat × Char) := [(1000000000, 'B'), (1000000, 'M'), (1000, 'K')]

/-- A scaled magnitude in hundredths of a unit, rounded half away from zero; `none` where
that is less than the unit. -/
def compactInUnit (magnitude : Nat) (fixedFraction : Bool) : Nat × Char → Option (List Char)
  | (unit, suffix) =>
    let divisor := unit * 10 ^ scaleDigits
    let hundredths := (magnitude * 100 + divisor / 2) / divisor
    if hundredths ≥ 100 then
      let whole := hundredths / 100
      let padded := (Nat.toDigits 10 (hundredths % 100)).leftpad 2 '0'
      let frac := if fixedFraction then padded else padded.rdropWhile (· = '0')
      some (Nat.toDigits 10 whole ++ (if frac = [] then [] else '.' :: frac) ++ [suffix])
    else none

/-- A magnitude at a glance: two fractional digits in the greatest unit it fills after
rounding, or a whole number. Trailing zeros are dropped unless the fraction is fixed. -/
def formatCompact (value : DecimalString) (fixedFraction : Bool) : List Char :=
  let scaled := value.toScaledInt
  let negative := decide (scaled < 0)
  let magnitude := scaled.natAbs
  let one := 10 ^ scaleDigits
  let body := (compactUnits.findSome? (compactInUnit magnitude fixedFraction)).getD
    (Nat.toDigits 10 ((magnitude + one / 2) / one))
  if negative && body ≠ ['0'] then '-' :: body else body

/-- The change in ten-thousandths of a percent, truncated toward zero: the numeral
the client parses back into a number. -/
def percentChange (a b : DecimalString) : Int :=
  let fromScaled := a.toScaledInt
  if fromScaled = 0 then 0
  else ((b.toScaledInt - fromScaled) * 100 * 10000).tdiv fromScaled

/-- The change as signed text at the given places, rounded half away from zero. -/
def percentChangeText (a b : DecimalString) (decimals : Nat) : String :=
  let fromScaled := a.toScaledInt
  let zero := if decimals > 0 then "0." ++ String.ofList (List.replicate decimals '0') else "0"
  if fromScaled = 0 then zero
  else
    let numerator := (b.toScaledInt - fromScaled) * 100 * 10 ^ decimals
    let negative := decide (numerator < 0) != decide (fromScaled < 0)
    let quotient := numerator.natAbs / fromScaled.natAbs
    let units :=
      if numerator.natAbs % fromScaled.natAbs * 2 ≥ fromScaled.natAbs then quotient + 1
      else quotient
    if units = 0 then zero
    else
      let digits := (Nat.toDigits 10 units).leftpad (decimals + 1) '0'
      let intPart := digits.take (digits.length - decimals)
      let body :=
        if decimals > 0 then intPart ++ '.' :: digits.drop (digits.length - decimals) else intPart
      (if negative then "-" else "+") ++ String.ofList body

/-- The text of a decimal at the given places, its own unless others are asked for. -/
def format (value : DecimalString) (decimals : Option Nat) (sign : Bool) : List Char :=
  let decimals := decimals.getD value.decimalPlaces
  let scaled := value.toScaledInt
  let negative := decide (scaled < 0)
  let body := bodyText (scaledDigits scaled.natAbs) decimals
  let isZero := decide (scaled.natAbs = 0)
  let signPrefix := if negative then ['-'] else if sign && !isZero then ['+'] else []
  signPrefix ++ body

end DecimalString

end Tckr.MarketWatch
