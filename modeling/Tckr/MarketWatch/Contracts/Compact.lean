import Tckr.Core.Rounding
import Tckr.MarketWatch.Contracts.DecimalArithmetic

/-!
# Magnitudes at a glance

A magnitude is shown in the greatest unit that it fills once it is rounded to
hundredths of the unit, so the seams lie half a hundredth below each unit. Up to a
seam the number shown is at most the unit, from the seam on at least.
-/

namespace Tckr.MarketWatch.DecimalString

/-! ## The number that a text denotes -/

/-- The unit of a suffix. -/
def unitOf : Char → Nat
  | 'K' => 1000
  | 'M' => 1000000
  | 'B' => 1000000000
  | _ => 1

/-- The unit of a text: the one of its last character. -/
def compactUnit (text : List Char) : Nat := (text.getLast?.map unitOf).getD 1

/-- The number that a text denotes: its figure, times its unit. -/
def compactValue (text : List Char) : ℚ :=
  numeralValue (if compactUnit text = 1 then text else text.dropLast) * compactUnit text

/-- The least step between the numbers shown in the unit of a text. -/
def compactStep (text : List Char) : ℚ :=
  if compactUnit text = 1 then 1 else compactUnit text / 100

/-- The parts of a text. -/
structure Glance where
  negative : Bool
  whole : Nat
  /-- The digits after the point, if there is one. -/
  frac : List Char
  suffix : Option Char
  deriving DecidableEq

/-- The text of its parts. -/
def Glance.text (g : Glance) : List Char :=
  (if g.negative then ['-'] else []) ++ withFraction (Nat.toDigits 10 g.whole) g.frac ++
    g.suffix.toList

/-- A whole number, or a number of units with at most two digits after the point. -/
structure Glance.Proper (g : Glance) : Prop where
  suffix : g.suffix ∈ [none, some 'K', some 'M', some 'B']
  digits : Digits g.frac
  short : g.frac.length ≤ 2
  stripped : g.frac.getLast? ≠ some '0'
  plain : g.suffix = none → g.frac = []
  filled : g.suffix ≠ none → 1 ≤ g.whole
  below : g.suffix ≠ some 'B' → g.whole < 1000

/-- A text shows a number. -/
structure Shows (text : List Char) (x : ℚ) : Prop where
  grammar : ∃ g : Glance, g.Proper ∧ g.text = text
  rounded : compactValue text = halfAway (x / compactStep text) * compactStep text
  close : |x - compactValue text| ≤ compactStep text / 2
  sign : text.head? = some '-' → compactValue text < 0

/-! ## Bodies -/

/-- Hundredths of a unit, rounded. -/
def hundredths (unit magnitude : Nat) : Nat :=
  (magnitude * 100 + unit * 10 ^ scaleDigits / 2) / (unit * 10 ^ scaleDigits)

/-- The greatest unit that a scaled magnitude fills. -/
def compactTier (magnitude : Nat) : Option (Nat × Char) :=
  compactUnits.find? fun u => hundredths u.1 magnitude ≥ 100

/-- Two digits, or what is left of them without zeros at the end. -/
def compactFraction (fixedFraction : Bool) (n : Nat) : List Char :=
  let padded := (Nat.toDigits 10 n).leftpad 2 '0'
  if fixedFraction then padded else stripZeros padded

/-- The text of a scaled magnitude. -/
def compactBody (magnitude : Nat) (fixedFraction : Bool) : List Char :=
  ((compactTier magnitude).map fun u =>
    withFraction (Nat.toDigits 10 (hundredths u.1 magnitude / 100))
      (compactFraction fixedFraction (hundredths u.1 magnitude % 100)) ++ [u.2]).getD
    (Nat.toDigits 10 ((magnitude + 10 ^ scaleDigits / 2) / 10 ^ scaleDigits))

theorem compactInUnit_eq (magnitude : Nat) (fixedFraction : Bool) (u : Nat × Char) :
    compactInUnit magnitude fixedFraction u =
      if hundredths u.1 magnitude ≥ 100 then
        some (withFraction (Nat.toDigits 10 (hundredths u.1 magnitude / 100))
          (compactFraction fixedFraction (hundredths u.1 magnitude % 100)) ++ [u.2])
      else none := by
  obtain ⟨unit, suffix⟩ := u
  unfold compactInUnit hundredths withFraction compactFraction stripZeros
  rfl

theorem findSome?_compactInUnit (magnitude : Nat) (fixedFraction : Bool)
    (units : List (Nat × Char)) :
    units.findSome? (compactInUnit magnitude fixedFraction) =
      (units.find? fun u => hundredths u.1 magnitude ≥ 100).map fun u =>
        withFraction (Nat.toDigits 10 (hundredths u.1 magnitude / 100))
          (compactFraction fixedFraction (hundredths u.1 magnitude % 100)) ++ [u.2] := by
  induction units with
  | nil => rw [List.findSome?_nil, List.find?_nil, Option.map_none]
  | cons u units ih =>
    rw [List.findSome?_cons, List.find?_cons, compactInUnit_eq, ih]
    by_cases hu : hundredths u.1 magnitude ≥ 100
    · rw [if_pos hu, decide_eq_true hu, Option.map_some]
    · rw [if_neg hu, decide_eq_false hu]

theorem formatCompact_eq (v : DecimalString) (fixedFraction : Bool) :
    v.formatCompact fixedFraction =
      if v.toScaledInt < 0 ∧ compactBody v.toScaledInt.natAbs fixedFraction ≠ ['0'] then
        '-' :: compactBody v.toScaledInt.natAbs fixedFraction
      else compactBody v.toScaledInt.natAbs fixedFraction := by
  unfold formatCompact
  dsimp only
  rw [findSome?_compactInUnit, ← compactTier, ← compactBody]
  simp only [Bool.and_eq_true, decide_eq_true_eq]

theorem hundredths_ge_iff {unit : Nat} (hunit : 0 < unit) (magnitude : Nat) :
    hundredths unit magnitude ≥ 100 ↔ 9950 * unit ≤ magnitude := by
  unfold hundredths scaleDigits
  rw [ge_iff_le, Nat.le_div_iff_mul_le (by omega)]
  omega

/-- The seams between the units. -/
theorem compactTier_eq (magnitude : Nat) : compactTier magnitude =
    if 9950 * 1000000000 ≤ magnitude then some (1000000000, 'B')
    else if 9950 * 1000000 ≤ magnitude then some (1000000, 'M')
    else if 9950 * 1000 ≤ magnitude then some (1000, 'K')
    else none := by
  have hstep : ∀ (u : Nat × Char) (units : List (Nat × Char)), 0 < u.1 →
      ((u :: units).find? fun u => hundredths u.1 magnitude ≥ 100) =
        if 9950 * u.1 ≤ magnitude then some u
        else units.find? fun u => hundredths u.1 magnitude ≥ 100 := by
    intro u units hu
    rw [List.find?_cons]
    by_cases hfills : 9950 * u.1 ≤ magnitude
    · rw [decide_eq_true ((hundredths_ge_iff hu magnitude).mpr hfills), if_pos hfills]
    · rw [decide_eq_false (hfills ∘ (hundredths_ge_iff hu magnitude).mp), if_neg hfills]
  unfold compactTier compactUnits
  rw [hstep _ _ (by decide), hstep _ _ (by decide), hstep _ _ (by decide)]
  rfl

theorem compactTier_cases (magnitude : Nat) :
    compactTier magnitude = some (1000000000, 'B') ∧ 9950 * 1000000000 ≤ magnitude ∨
      compactTier magnitude = some (1000000, 'M') ∧ 9950 * 1000000 ≤ magnitude ∧
        magnitude < 9950 * 1000000000 ∨
      compactTier magnitude = some (1000, 'K') ∧ 9950 * 1000 ≤ magnitude ∧
        magnitude < 9950 * 1000000 ∨
      compactTier magnitude = none ∧ magnitude < 9950 * 1000 := by
  rw [compactTier_eq]
  by_cases hb : 9950 * 1000000000 ≤ magnitude
  · rw [if_pos hb]
    exact .inl ⟨rfl, hb⟩
  rw [if_neg hb]
  by_cases hm : 9950 * 1000000 ≤ magnitude
  · rw [if_pos hm]
    exact .inr (.inl ⟨rfl, hm, Nat.lt_of_not_le hb⟩)
  rw [if_neg hm]
  by_cases hk : 9950 * 1000 ≤ magnitude
  · rw [if_pos hk]
    exact .inr (.inr (.inl ⟨rfl, hk, Nat.lt_of_not_le hm⟩))
  rw [if_neg hk]
  exact .inr (.inr (.inr ⟨rfl, Nat.lt_of_not_le hk⟩))

/-! ## The number shown -/

/-- The number that the text of a scaled magnitude shows. -/
def compactShown (magnitude : Nat) : ℚ :=
  ((compactTier magnitude).map fun u => (hundredths u.1 magnitude : ℚ) * (u.1 / 100)).getD
    ((magnitude + 10 ^ scaleDigits / 2) / 10 ^ scaleDigits : Nat)

/-- In units: up to the seam of a greater unit at most that unit, from it on at least. -/
theorem compactShown_mono {m m' : Nat} (hle : m ≤ m') : compactShown m ≤ compactShown m' := by
  have hshown : ∀ m, ∃ n : Nat, compactShown m = (n : ℚ) / 100 ∧
      (9950 * 1000000000 ≤ m ∧ n = hundredths 1000000000 m * 1000000000 ∨
        9950 * 1000000 ≤ m ∧ m < 9950 * 1000000000 ∧ n = hundredths 1000000 m * 1000000 ∨
        9950 * 1000 ≤ m ∧ m < 9950 * 1000000 ∧ n = hundredths 1000 m * 1000 ∨
        m < 9950 * 1000 ∧ n = (m + 5000) / 10000 * 100) := by
    intro m
    unfold compactShown
    rcases compactTier_cases m with ⟨ht, hm⟩ | ⟨ht, hm, hm'⟩ | ⟨ht, hm, hm'⟩ | ⟨ht, hm⟩
    · refine ⟨_, ?_, .inl ⟨hm, rfl⟩⟩
      rw [ht, Option.map_some, Option.getD_some]
      push_cast
      ring
    · refine ⟨_, ?_, .inr (.inl ⟨hm, hm', rfl⟩)⟩
      rw [ht, Option.map_some, Option.getD_some]
      push_cast
      ring
    · refine ⟨_, ?_, .inr (.inr (.inl ⟨hm, hm', rfl⟩))⟩
      rw [ht, Option.map_some, Option.getD_some]
      push_cast
      ring
    · refine ⟨_, ?_, .inr (.inr (.inr ⟨hm, rfl⟩))⟩
      rw [ht, Option.map_none, Option.getD_none, Nat.cast_mul, Nat.cast_ofNat,
        mul_div_cancel_right₀ _ (by norm_num)]
      rfl
  obtain ⟨n, hn, hcase⟩ := hshown m
  obtain ⟨n', hn', hcase'⟩ := hshown m'
  have hnn : n ≤ n' := by
    unfold hundredths scaleDigits at hcase hcase'
    omega
  rw [hn, hn']
  exact div_le_div_of_nonneg_right (Nat.cast_le.mpr hnn) (by norm_num)

theorem length_padded {n : Nat} (h : n < 100) :
    ((Nat.toDigits 10 n).leftpad 2 '0').length = 2 := by
  have hshort := (Nat.length_toDigits_le_iff (b := 10) (k := 2) (by decide) (by decide)).mpr h
  rw [List.length_leftpad]
  omega

theorem unsignedValue_figure (n : Nat) (fixedFraction : Bool) :
    unsignedValue (withFraction (Nat.toDigits 10 (n / 100))
      (compactFraction fixedFraction (n % 100))) = n / 100 := by
  have hpadded : unsignedValue (withFraction (Nat.toDigits 10 (n / 100))
      ((Nat.toDigits 10 (n % 100)).leftpad 2 '0')) = n / 100 := by
    have hlength := length_padded (Nat.mod_lt n (show 100 > 0 by decide))
    rw [unsignedValue_withFraction (digits_toDigits _), digitsValue_append, hlength,
      digitsValue_leftpad, digitsValue_toDigits, digitsValue_toDigits, Nat.mul_comm]
    norm_num [Nat.div_add_mod]
  cases fixedFraction with
  | true => exact hpadded
  | false =>
    rw [← hpadded]
    exact unsignedValue_stripZeros (digits_toDigits _) _

/-! ## Reading a text back -/

theorem unitOf_of_isDigit {c : Char} (h : c.isDigit = true) : unitOf c = 1 := by
  unfold unitOf
  split
  · exact absurd h (by decide)
  · exact absurd h (by decide)
  · exact absurd h (by decide)
  · rfl

theorem compactUnit_append (text : List Char) (c : Char) :
    compactUnit (text ++ [c]) = unitOf c := by
  rw [compactUnit, List.getLast?_concat]
  rfl

theorem compactUnit_digits {text : List Char} (h : Digits text) : compactUnit text = 1 := by
  unfold compactUnit
  cases hlast : text.getLast? with
  | none => rfl
  | some c => exact unitOf_of_isDigit (h c (List.mem_of_getLast? hlast))

theorem compactUnit_cons {text : List Char} (h : text ≠ []) (c : Char) :
    compactUnit (c :: text) = compactUnit text := by
  unfold compactUnit
  rw [List.getLast?_cons_of_ne_nil h]

theorem compactValue_append {text : List Char} {c : Char} (h : unitOf c ≠ 1) :
    compactValue (text ++ [c]) = numeralValue text * unitOf c := by
  rw [compactValue, compactUnit_append, if_neg h, List.dropLast_concat]

theorem compactValue_digits {text : List Char} (h : Digits text) :
    compactValue text = numeralValue text := by
  rw [compactValue, compactUnit_digits h, if_pos rfl, Nat.cast_one, mul_one]

/-- A minus sign before a text that starts with a digit. -/
theorem compactValue_minus {c : Char} (h : c.isDigit = true) (cs : List Char) :
    compactValue ('-' :: c :: cs) = -compactValue (c :: cs) := by
  have hunit : compactUnit ('-' :: c :: cs) = compactUnit (c :: cs) :=
    compactUnit_cons (List.cons_ne_nil c cs) '-'
  unfold compactValue
  rw [hunit]
  by_cases hone : compactUnit (c :: cs) = 1
  · rw [if_pos hone, if_pos hone, numeralValue_of_isDigit h, numeralValue_minus, neg_mul]
  · have hcs : cs ≠ [] := by
      rintro rfl
      exact hone (unitOf_of_isDigit h)
    rw [if_neg hone, if_neg hone, List.dropLast_cons_of_ne_nil (List.cons_ne_nil c cs),
      List.dropLast_cons_of_ne_nil hcs, numeralValue_of_isDigit h, numeralValue_minus, neg_mul]

theorem unitOf_compactUnits {u : Nat × Char} (h : u ∈ compactUnits) :
    unitOf u.2 = u.1 ∧ 1 < u.1 := by
  simp only [compactUnits, List.mem_cons, List.not_mem_nil, or_false] at h
  rcases h with rfl | rfl | rfl
  · exact ⟨rfl, by decide⟩
  · exact ⟨rfl, by decide⟩
  · exact ⟨rfl, by decide⟩

theorem mem_compactUnits {magnitude : Nat} {u : Nat × Char} (h : compactTier magnitude = some u) :
    u ∈ compactUnits := List.mem_of_find?_eq_some h

theorem compactBody_some {magnitude : Nat} {u : Nat × Char} (h : compactTier magnitude = some u)
    (fixedFraction : Bool) : compactBody magnitude fixedFraction =
      withFraction (Nat.toDigits 10 (hundredths u.1 magnitude / 100))
        (compactFraction fixedFraction (hundredths u.1 magnitude % 100)) ++ [u.2] := by
  rw [compactBody, h, Option.map_some, Option.getD_some]

theorem compactBody_none {magnitude : Nat} (h : compactTier magnitude = none)
    (fixedFraction : Bool) : compactBody magnitude fixedFraction =
      Nat.toDigits 10 ((magnitude + 10 ^ scaleDigits / 2) / 10 ^ scaleDigits) := by
  rw [compactBody, h, Option.map_none, Option.getD_none]

theorem compactBody_head (magnitude : Nat) (fixedFraction : Bool) :
    ∃ c cs, compactBody magnitude fixedFraction = c :: cs ∧ c.isDigit = true := by
  cases htier : compactTier magnitude with
  | none =>
    rw [compactBody_none htier]
    exact toDigits_head _
  | some u =>
    obtain ⟨c, cs, hdigits, hc⟩ := toDigits_head (hundredths u.1 magnitude / 100)
    rw [compactBody_some htier, withFraction, hdigits, List.cons_append, List.cons_append]
    exact ⟨c, _, rfl, hc⟩

/-- The text of a magnitude shows its number, with and without the zeros at its end. -/
theorem compactValue_body (magnitude : Nat) (fixedFraction : Bool) :
    compactValue (compactBody magnitude fixedFraction) = compactShown magnitude := by
  unfold compactShown
  cases htier : compactTier magnitude with
  | none =>
    obtain ⟨c, cs, hdigits, hc⟩ :=
      toDigits_head ((magnitude + 10 ^ scaleDigits / 2) / 10 ^ scaleDigits)
    rw [compactBody_none htier, compactValue_digits (digits_toDigits _), hdigits,
      numeralValue_of_isDigit hc, ← hdigits, unsignedValue_digits (digits_toDigits _),
      digitsValue_toDigits]
    rfl
  | some u =>
    obtain ⟨hunit, hone⟩ := unitOf_compactUnits (mem_compactUnits htier)
    rw [compactBody_some htier, compactValue_append (hunit.trans_ne hone.ne'),
      withFraction, numeralValue_toDigits_append, ← withFraction, unsignedValue_figure, hunit,
      Option.map_some, Option.getD_some]
    ring

theorem compactStep_body (magnitude : Nat) (fixedFraction : Bool) :
    compactStep (compactBody magnitude fixedFraction) =
      ((compactTier magnitude).map fun u => (u.1 : ℚ) / 100).getD 1 := by
  unfold compactStep
  cases htier : compactTier magnitude with
  | none =>
    rw [compactBody_none htier, compactUnit_digits (digits_toDigits _), if_pos rfl]
    rfl
  | some u =>
    obtain ⟨hunit, hone⟩ := unitOf_compactUnits (mem_compactUnits htier)
    rw [compactBody_some htier, compactUnit_append, hunit, if_neg hone.ne']
    rfl

/-- The number shown is the magnitude, rounded half away from zero to steps. -/
theorem compactShown_rounded (magnitude : Nat) (fixedFraction : Bool) :
    compactShown magnitude =
      halfAway ((magnitude : ℚ) / 10 ^ scaleDigits /
        compactStep (compactBody magnitude fixedFraction)) *
        compactStep (compactBody magnitude fixedFraction) := by
  rw [compactStep_body]
  unfold compactShown
  cases htier : compactTier magnitude with
  | none =>
    have hround : halfAway ((magnitude : ℚ) / 10 ^ scaleDigits / 1) =
        ((magnitude + 5000) / (2 * 5000) : ℕ) := by
      rw [← halfAway_natCast_div_even (K := ℚ) magnitude (show 0 < 5000 by decide), div_one]
      norm_num [scaleDigits]
    rw [Option.map_none, Option.getD_none, Option.map_none, Option.getD_none, hround, mul_one,
      Int.cast_natCast]
    rfl
  | some u =>
    have hpos : 0 < u.1 := Nat.zero_lt_of_lt (unitOf_compactUnits (mem_compactUnits htier)).2
    have hround : halfAway ((magnitude : ℚ) / 10 ^ scaleDigits / ((u.1 : ℚ) / 100)) =
        (hundredths u.1 magnitude : ℕ) := by
      have hdivisor : hundredths u.1 magnitude =
          (magnitude * 100 + 5000 * u.1) / (2 * (5000 * u.1)) := by
        unfold hundredths scaleDigits
        congr 1
        · omega
        · omega
      rw [hdivisor, ← halfAway_natCast_div_even (K := ℚ) _ (Nat.mul_pos (by decide) hpos)]
      congr 1
      have : (u.1 : ℚ) ≠ 0 := Nat.cast_ne_zero.mpr hpos.ne'
      unfold scaleDigits
      push_cast
      field_simp
      norm_num
      ring
    rw [Option.map_some, Option.getD_some, Option.map_some, Option.getD_some, hround,
      Int.cast_natCast]

theorem hundredths_ge {magnitude : Nat} {u : Nat × Char} (h : compactTier magnitude = some u) :
    100 ≤ hundredths u.1 magnitude :=
  of_decide_eq_true (List.find?_some (p := fun u : Nat × Char => hundredths u.1 magnitude ≥ 100) h)

theorem compactShown_pos {magnitude : Nat} {u : Nat × Char} (h : compactTier magnitude = some u) :
    0 < compactShown magnitude := by
  have hunit : 0 < u.1 := Nat.zero_lt_of_lt (unitOf_compactUnits (mem_compactUnits h)).2
  have hcount : 0 < hundredths u.1 magnitude := Nat.lt_of_lt_of_le (by decide) (hundredths_ge h)
  rw [compactShown, h, Option.map_some, Option.getD_some]
  exact mul_pos (Nat.cast_pos.mpr hcount) (div_pos (Nat.cast_pos.mpr hunit) (by norm_num))

/-- Only zero shows as a bare zero. -/
theorem compactBody_eq_zero_iff (magnitude : Nat) (fixedFraction : Bool) :
    compactBody magnitude fixedFraction = ['0'] ↔ compactShown magnitude = 0 := by
  constructor
  · intro h
    have hzero : Digits ['0'] := digits_toDigits 0
    have hvalue : digitsValue ['0'] = 0 := digitsValue_toDigits 0
    rw [← compactValue_body magnitude fixedFraction, h, compactValue_digits hzero,
      numeralValue_of_isDigit (by decide), unsignedValue_digits hzero, hvalue, Nat.cast_zero]
  · intro h
    cases htier : compactTier magnitude with
    | some u => exact absurd h (compactShown_pos htier).ne'
    | none =>
      rw [compactShown, htier, Option.map_none, Option.getD_none, Nat.cast_eq_zero] at h
      rw [compactBody_none htier, h, Nat.toDigits_zero]

theorem compactShown_nonneg (magnitude : Nat) : 0 ≤ compactShown magnitude := by
  cases htier : compactTier magnitude with
  | some u => exact (compactShown_pos htier).le
  | none =>
    rw [compactShown, htier, Option.map_none, Option.getD_none]
    exact Nat.cast_nonneg _

/-! ## Decimals -/

/-- The text has a minus sign exactly before a number that is not shown as zero. -/
theorem formatCompact_eq_signed (v : DecimalString) (fixedFraction : Bool) :
    v.formatCompact fixedFraction =
      if v.toScaledInt < 0 ∧ compactShown v.toScaledInt.natAbs ≠ 0 then
        '-' :: compactBody v.toScaledInt.natAbs fixedFraction
      else compactBody v.toScaledInt.natAbs fixedFraction := by
  rw [formatCompact_eq]
  simp only [ne_eq, compactBody_eq_zero_iff]

/-- The number shown for a scaled integer. -/
def shownValue (scaled : Int) : ℚ :=
  if scaled < 0 then -compactShown scaled.natAbs else compactShown scaled.natAbs

theorem compactValue_formatCompact (v : DecimalString) (fixedFraction : Bool) :
    compactValue (v.formatCompact fixedFraction) = shownValue v.toScaledInt := by
  obtain ⟨c, cs, hbody, hc⟩ := compactBody_head v.toScaledInt.natAbs fixedFraction
  have hvalue := compactValue_body v.toScaledInt.natAbs fixedFraction
  rw [formatCompact_eq_signed, shownValue]
  by_cases hneg : v.toScaledInt < 0
  · by_cases hzero : compactShown v.toScaledInt.natAbs = 0
    · rw [if_neg fun h => h.2 hzero, if_pos hneg, hvalue, hzero, neg_zero]
    · rw [if_pos ⟨hneg, hzero⟩, if_pos hneg, ← hvalue, hbody, compactValue_minus hc]
  · rw [if_neg fun h => hneg h.1, if_neg hneg, hvalue]

theorem shownValue_neg (scaled : Int) : shownValue (-scaled) = -shownValue scaled := by
  unfold shownValue
  rw [Int.natAbs_neg]
  rcases lt_trichotomy scaled 0 with h | rfl | h
  · rw [if_neg (by omega), if_pos h, neg_neg]
  · have hzero : compactShown 0 = 0 :=
      (compactBody_eq_zero_iff 0 false).mp (by decide)
    rw [Int.neg_zero, if_neg (by omega), Int.natAbs_zero, hzero, neg_zero]
  · rw [if_pos (by omega), if_neg (by omega)]

theorem shownValue_mono {x y : Int} (hxy : x ≤ y) : shownValue x ≤ shownValue y := by
  unfold shownValue
  rcases lt_or_ge x 0 with hx | hx
  · rw [if_pos hx]
    rcases lt_or_ge y 0 with hy | hy
    · rw [if_pos hy]
      exact neg_le_neg (compactShown_mono (by omega))
    · rw [if_neg hy.not_gt]
      exact (neg_nonpos.mpr (compactShown_nonneg _)).trans (compactShown_nonneg _)
  · rw [if_neg hx.not_gt, if_neg (hx.trans hxy).not_gt]
    exact compactShown_mono (by omega)

theorem compactStep_formatCompact (v : DecimalString) (fixedFraction : Bool) :
    compactStep (v.formatCompact fixedFraction) =
      compactStep (compactBody v.toScaledInt.natAbs fixedFraction) := by
  obtain ⟨c, cs, hbody, -⟩ := compactBody_head v.toScaledInt.natAbs fixedFraction
  rw [formatCompact_eq_signed]
  split
  · unfold compactStep
    rw [compactUnit_cons (hbody ▸ List.cons_ne_nil c cs)]
  · rfl

theorem compactStep_pos (text : List Char) : 0 < compactStep text := by
  have hunit : 0 < compactUnit text := by
    unfold compactUnit
    cases text.getLast? with
    | none => exact Nat.one_pos
    | some c =>
      show 0 < unitOf c
      unfold unitOf
      split
      all_goals exact Nat.succ_pos _
  unfold compactStep
  split
  · exact one_pos
  · exact div_pos (Nat.cast_pos.mpr hunit) (by norm_num)

theorem formatCompact_rounded (v : DecimalString) (fixedFraction : Bool) :
    compactValue (v.formatCompact fixedFraction) =
      halfAway (v.value / compactStep (v.formatCompact fixedFraction)) *
        compactStep (v.formatCompact fixedFraction) := by
  rw [compactValue_formatCompact, compactStep_formatCompact, value_eq_scaled, shownValue]
  split
  · rename_i hneg
    have habs : (v.toScaledInt : ℚ) = -(v.toScaledInt.natAbs : ℚ) := by
      rw [Nat.cast_natAbs, abs_of_neg hneg, Int.cast_neg, neg_neg]
    rw [habs, neg_div, neg_div, halfAway_neg, Int.cast_neg, neg_mul, ← compactShown_rounded]
  · rename_i hpos
    have habs : (v.toScaledInt : ℚ) = (v.toScaledInt.natAbs : ℚ) := by
      rw [Nat.cast_natAbs, abs_of_nonneg (Int.not_lt.mp hpos)]
    rw [habs, ← compactShown_rounded]

theorem formatCompact_close (v : DecimalString) (fixedFraction : Bool) :
    |v.value - compactValue (v.formatCompact fixedFraction)| ≤
      compactStep (v.formatCompact fixedFraction) / 2 := by
  have hstep := compactStep_pos (v.formatCompact fixedFraction)
  have hround := abs_sub_halfAway_le (v.value / compactStep (v.formatCompact fixedFraction))
  have hscaled : v.value - compactValue (v.formatCompact fixedFraction) =
      (v.value / compactStep (v.formatCompact fixedFraction) -
        halfAway (v.value / compactStep (v.formatCompact fixedFraction))) *
          compactStep (v.formatCompact fixedFraction) := by
    rw [formatCompact_rounded, sub_mul, div_mul_cancel₀ _ hstep.ne']
  have hmul := mul_le_mul_of_nonneg_right hround hstep.le
  rw [hscaled, abs_mul, abs_of_pos hstep]
  linarith

theorem formatCompact_sign (v : DecimalString) (fixedFraction : Bool)
    (h : (v.formatCompact fixedFraction).head? = some '-') :
    compactValue (v.formatCompact fixedFraction) < 0 := by
  rw [compactValue_formatCompact, shownValue]
  rw [formatCompact_eq_signed] at h
  split at h
  · rename_i hneg
    rw [if_pos hneg.1]
    exact neg_neg_of_pos ((compactShown_nonneg _).lt_of_ne' hneg.2)
  · obtain ⟨c, cs, hbody, hc⟩ := compactBody_head v.toScaledInt.natAbs fixedFraction
    rw [hbody, List.head?_cons, Option.some.injEq] at h
    rw [h] at hc
    exact absurd hc (by decide)

/-- The parts of the text of a scaled magnitude. -/
def bodyGlance (negative : Bool) (magnitude : Nat) : Glance :=
  ((compactTier magnitude).map fun u =>
    (⟨negative, hundredths u.1 magnitude / 100,
      compactFraction false (hundredths u.1 magnitude % 100), some u.2⟩ : Glance)).getD
    ⟨negative, (magnitude + 10 ^ scaleDigits / 2) / 10 ^ scaleDigits, [], none⟩

theorem bodyGlance_text (negative : Bool) (magnitude : Nat) :
    (bodyGlance negative magnitude).text =
      (if negative then ['-'] else []) ++ compactBody magnitude false := by
  unfold bodyGlance Glance.text
  cases htier : compactTier magnitude with
  | none =>
    rw [compactBody_none htier, Option.map_none, Option.getD_none, withFraction, if_pos rfl,
      Option.toList_none, List.append_nil, List.append_nil]
  | some u =>
    rw [compactBody_some htier, Option.map_some, Option.getD_some, List.append_assoc]
    rfl

/-- A stripped fraction has at most two digits, and ends in none that can be stripped. -/
theorem compactFraction_stripped {n : Nat} (hn : n < 100) : Digits (compactFraction false n) ∧
    (compactFraction false n).length ≤ 2 ∧ (compactFraction false n).getLast? ≠ some '0' := by
  have hinitial := stripZeros_prefix ((Nat.toDigits 10 n).leftpad 2 '0')
  refine ⟨fun c hc => ?_, ?_, stripZeros_getLast? _⟩
  · exact (digits_toDigits n).leftpad 2 c (hinitial.subset hc)
  · exact (hinitial.length_le).trans (length_padded hn).le

/-- Below the seam of its tier a magnitude has at most three digits before the point. -/
theorem hundredths_div_lt {unit magnitude : Nat} (hunit : 0 < unit)
    (hlt : magnitude < 9950 * (unit * 1000)) : hundredths unit magnitude / 100 < 1000 := by
  unfold hundredths scaleDigits
  rw [Nat.div_div_eq_div_mul, Nat.div_lt_iff_lt_mul (by omega)]
  omega

theorem bodyGlance_proper (negative : Bool) (magnitude : Nat) :
    (bodyGlance negative magnitude).Proper := by
  unfold bodyGlance
  cases htier : compactTier magnitude with
  | none =>
    have hseam : magnitude < 9950 * 1000 := by
      rcases compactTier_cases magnitude with ⟨ht, -⟩ | ⟨ht, -⟩ | ⟨ht, -⟩ | ⟨-, hm⟩
      · rw [htier] at ht
        cases ht
      · rw [htier] at ht
        cases ht
      · rw [htier] at ht
        cases ht
      · exact hm
    rw [Option.map_none, Option.getD_none]
    constructor
    · exact List.mem_cons_self
    · exact fun c hc => absurd hc List.not_mem_nil
    · exact Nat.zero_le 2
    · exact fun h => by cases h
    · exact fun _ => rfl
    · exact fun h => absurd rfl h
    · intro _
      unfold scaleDigits
      dsimp only
      omega
  | some u =>
    obtain ⟨hdigits, hlength, hlast⟩ := @compactFraction_stripped (hundredths u.1 magnitude % 100)
      (Nat.mod_lt _ (by decide))
    rw [Option.map_some, Option.getD_some]
    refine ⟨?_, hdigits, hlength, hlast, fun h => ?_, fun _ => ?_, fun hb => ?_⟩
    · have hmem := mem_compactUnits htier
      simp only [compactUnits, List.mem_cons, List.not_mem_nil, or_false] at hmem
      have hmembers : some u.2 ∈ [none, some 'K', some 'M', some 'B'] := by
        rcases hmem with rfl | rfl | rfl
        · decide
        · decide
        · decide
      exact hmembers
    · cases h
    · exact (Nat.one_le_div_iff (by decide)).mpr (hundredths_ge htier)
    · rcases compactTier_cases magnitude with ⟨ht, -⟩ | ⟨ht, -, hm⟩ | ⟨ht, -, hm⟩ | ⟨ht, -⟩
      · rw [htier, Option.some.injEq] at ht
        rw [ht] at hb
        exact absurd rfl hb
      · rw [htier, Option.some.injEq] at ht
        rw [ht]
        exact @hundredths_div_lt 1000000 _ (by decide) hm
      · rw [htier, Option.some.injEq] at ht
        rw [ht]
        exact @hundredths_div_lt 1000 _ (by decide) hm
      · rw [htier] at ht
        cases ht

theorem formatCompact_shows (v : DecimalString) : Shows (v.formatCompact false) v.value where
  grammar := by
    rw [formatCompact_eq_signed]
    by_cases hneg : v.toScaledInt < 0 ∧ compactShown v.toScaledInt.natAbs ≠ 0
    · refine ⟨bodyGlance true v.toScaledInt.natAbs, bodyGlance_proper _ _, ?_⟩
      rw [bodyGlance_text, if_pos hneg, if_pos rfl, List.singleton_append]
    · refine ⟨bodyGlance false v.toScaledInt.natAbs, bodyGlance_proper _ _, ?_⟩
      rw [bodyGlance_text, if_neg hneg, if_neg Bool.false_ne_true, List.nil_append]
  rounded := formatCompact_rounded v false
  close := formatCompact_close v false
  sign := formatCompact_sign v false

theorem formatCompact_mono {v w : DecimalString} (h : v.value ≤ w.value) (fixedFraction : Bool) :
    compactValue (v.formatCompact fixedFraction) ≤
      compactValue (w.formatCompact fixedFraction) := by
  rw [compactValue_formatCompact, compactValue_formatCompact]
  apply shownValue_mono
  rw [value_eq_scaled, value_eq_scaled,
    div_le_div_iff_of_pos_right (pow_pos (by norm_num) _), Int.cast_le] at h
  exact h

theorem unsigned_minus (cs : List Char) : unsigned ('-' :: cs) = cs := rfl

theorem unsigned_of_isDigit {c : Char} (h : c.isDigit = true) (cs : List Char) :
    unsigned (c :: cs) = c :: cs := by
  unfold unsigned
  split
  · rename_i hplus
    rw [(List.cons.inj hplus).1] at h
    exact absurd h (by decide)
  · rename_i hminus
    rw [(List.cons.inj hminus).1] at h
    exact absurd h (by decide)
  · rfl

/-- Opposite numbers are shown by opposite numbers, and their texts differ in the sign only. -/
theorem formatCompact_odd {v w : DecimalString} (h : w.value = -v.value) (fixedFraction : Bool) :
    compactValue (w.formatCompact fixedFraction) = -compactValue (v.formatCompact fixedFraction) ∧
      unsigned (w.formatCompact fixedFraction) = unsigned (v.formatCompact fixedFraction) := by
  have hscaled : w.toScaledInt = -v.toScaledInt := by
    rw [value_eq_scaled, value_eq_scaled, ← neg_div,
      div_left_inj' (pow_ne_zero _ (by norm_num)), ← Int.cast_neg] at h
    exact Int.cast_inj.mp h
  have hbody : ∀ u : DecimalString, unsigned (u.formatCompact fixedFraction) =
      compactBody u.toScaledInt.natAbs fixedFraction := by
    intro u
    obtain ⟨c, cs, hbody, hc⟩ := compactBody_head u.toScaledInt.natAbs fixedFraction
    rw [formatCompact_eq_signed]
    split
    · exact unsigned_minus _
    · rw [hbody]
      exact unsigned_of_isDigit hc cs
  constructor
  · rw [compactValue_formatCompact, compactValue_formatCompact, hscaled, shownValue_neg]
  · rw [hbody, hbody, hscaled, Int.natAbs_neg]

theorem compactBody_fixed (magnitude : Nat) (negative : Bool) : ∃ zeros : Nat,
    (if negative then ['-'] else []) ++ compactBody magnitude true =
      ({ bodyGlance negative magnitude with
        frac := (bodyGlance negative magnitude).frac ++ List.replicate zeros '0' } :
          Glance).text := by
  unfold bodyGlance Glance.text
  cases htier : compactTier magnitude with
  | none =>
    refine ⟨0, ?_⟩
    rw [compactBody_none htier, Option.map_none, Option.getD_none, List.replicate_zero,
      List.append_nil, withFraction, if_pos rfl, Option.toList_none, List.append_nil,
      List.append_nil]
  | some u =>
    obtain ⟨zeros, hzeros⟩ := stripZeros_append
      ((Nat.toDigits 10 (hundredths u.1 magnitude % 100)).leftpad 2 '0')
    have hfrac : compactFraction false (hundredths u.1 magnitude % 100) ++
        List.replicate zeros '0' = compactFraction true (hundredths u.1 magnitude % 100) := hzeros
    refine ⟨zeros, ?_⟩
    rw [compactBody_some htier, Option.map_some, Option.getD_some, hfrac, List.append_assoc]
    rfl

/-- A fixed fraction is the same text with zeros at the end of its digits. -/
theorem formatCompact_fixed (v : DecimalString) : ∃ (g : Glance) (zeros : Nat),
    v.formatCompact false = g.text ∧ v.formatCompact true =
      ({ g with frac := g.frac ++ List.replicate zeros '0' } : Glance).text := by
  rw [formatCompact_eq_signed, formatCompact_eq_signed]
  by_cases hneg : v.toScaledInt < 0 ∧ compactShown v.toScaledInt.natAbs ≠ 0
  · obtain ⟨zeros, hzeros⟩ := compactBody_fixed v.toScaledInt.natAbs true
    refine ⟨bodyGlance true v.toScaledInt.natAbs, zeros, ?_, ?_⟩
    · rw [if_pos hneg, bodyGlance_text, if_pos rfl, List.singleton_append]
    · rw [if_pos hneg, ← hzeros, if_pos rfl, List.singleton_append]
  · obtain ⟨zeros, hzeros⟩ := compactBody_fixed v.toScaledInt.natAbs false
    refine ⟨bodyGlance false v.toScaledInt.natAbs, zeros, ?_, ?_⟩
    · rw [if_neg hneg, bodyGlance_text, if_neg Bool.false_ne_true, List.nil_append]
    · rw [if_neg hneg, ← hzeros, if_neg Bool.false_ne_true, List.nil_append]

/-- Magnitudes at a glance are faithful, in order, odd, and the same number with a fixed
fraction. -/
theorem formatCompact_faithful :
    (∀ v : DecimalString, Shows (v.formatCompact false) v.value) ∧
      (∀ v w : DecimalString, v.value ≤ w.value →
        compactValue (v.formatCompact false) ≤ compactValue (w.formatCompact false)) ∧
      (∀ v w : DecimalString, w.value = -v.value →
        compactValue (w.formatCompact false) = -compactValue (v.formatCompact false) ∧
          unsigned (w.formatCompact false) = unsigned (v.formatCompact false)) ∧
      ∀ v : DecimalString,
        compactValue (v.formatCompact true) = compactValue (v.formatCompact false) ∧
          ∃ (g : Glance) (zeros : Nat), v.formatCompact false = g.text ∧ v.formatCompact true =
            ({ g with frac := g.frac ++ List.replicate zeros '0' } : Glance).text := by
  refine ⟨formatCompact_shows, fun v w h => formatCompact_mono h false,
    fun v w h => formatCompact_odd h false, fun v => ⟨?_, formatCompact_fixed v⟩⟩
  rw [compactValue_formatCompact, compactValue_formatCompact]

/-- Two prices on the sides of the first seam. -/
theorem formatCompact_faithful_seam :
    value ⟨['9', '9', '4'], by decide⟩ ≤ value ⟨['9', '9', '5'], by decide⟩ ∧
      compactValue (formatCompact ⟨['9', '9', '4'], by decide⟩ false) ≤
        compactValue (formatCompact ⟨['9', '9', '5'], by decide⟩ false) := by
  have hle : value ⟨['9', '9', '4'], by decide⟩ ≤ value ⟨['9', '9', '5'], by decide⟩ := by
    rw [value_eq_scaled, value_eq_scaled]
    decide +kernel
  exact ⟨hle, formatCompact_faithful.2.1 _ _ hle⟩

end Tckr.MarketWatch.DecimalString
