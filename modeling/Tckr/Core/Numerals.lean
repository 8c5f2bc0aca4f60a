import Mathlib.Data.List.DropRight
import Mathlib.Data.List.TakeWhile
import Mathlib.Data.Rat.Cast.Order
import Mathlib.Tactic.FieldSimp
import Mathlib.Tactic.Ring

/-!
# Decimal numerals

The number that a text of decimal digits with an optional point and sign denotes.
Cutting, padding and pointing a list of digits are described by the number it
denotes: the leading digits are a quotient by a power of ten and the others its
remainder.
-/

namespace Tckr

/-! ## Digits -/

/-- Only decimal digits. -/
def Digits (cs : List Char) : Prop := ∀ c ∈ cs, c.isDigit = true

/-- The number that digits denote. -/
def digitsValue (cs : List Char) : Nat := Nat.ofDigitChars 10 cs 0

theorem Digits.append {cs ds : List Char} (hc : Digits cs) (hd : Digits ds) : Digits (cs ++ ds) :=
  fun c h => (List.mem_append.mp h).elim (hc c) (hd c)

theorem Digits.take {cs : List Char} (h : Digits cs) (n : Nat) : Digits (cs.take n) :=
  fun c hc => h c (List.mem_of_mem_take hc)

theorem Digits.drop {cs : List Char} (h : Digits cs) (n : Nat) : Digits (cs.drop n) :=
  fun c hc => h c (List.mem_of_mem_drop hc)

theorem digits_replicate_zero (n : Nat) : Digits (List.replicate n '0') :=
  fun c h => by
    rw [List.eq_of_mem_replicate h]
    rfl

theorem digits_toDigits (n : Nat) : Digits (Nat.toDigits 10 n) :=
  fun _ h => Nat.isDigit_of_mem_toDigits (by decide) (by decide) h

theorem Digits.leftpad {cs : List Char} (h : Digits cs) (n : Nat) : Digits (cs.leftpad n '0') :=
  (digits_replicate_zero _).append h

theorem Digits.rightpad {cs : List Char} (h : Digits cs) (n : Nat) : Digits (cs.rightpad n '0') :=
  h.append (digits_replicate_zero _)

theorem Digits.ne_point {cs : List Char} (h : Digits cs) : ∀ c ∈ cs, decide (c ≠ '.') = true := by
  intro c hc
  rw [decide_eq_true_eq]
  rintro rfl
  exact absurd (h _ hc) (by decide)

theorem digitsValue_toDigits (n : Nat) : digitsValue (Nat.toDigits 10 n) = n :=
  Nat.ofDigitChars_ten_toDigits

theorem digitsValue_append (cs ds : List Char) :
    digitsValue (cs ++ ds) = digitsValue cs * 10 ^ ds.length + digitsValue ds := by
  rw [digitsValue, Nat.ofDigitChars_append, Nat.ofDigitChars_eq_ofDigitChars_zero, Nat.mul_comm]
  rfl

theorem digitsValue_replicate_zero (n : Nat) : digitsValue (List.replicate n '0') = 0 := by
  rw [digitsValue, Nat.ofDigitChars_replicate_zero, Nat.mul_zero]

theorem digitsValue_leftpad (cs : List Char) (n : Nat) :
    digitsValue (cs.leftpad n '0') = digitsValue cs := by
  rw [List.leftpad, digitsValue_append, digitsValue_replicate_zero, Nat.zero_mul, Nat.zero_add]

theorem digitsValue_lt {cs : List Char} (h : Digits cs) : digitsValue cs < 10 ^ cs.length := by
  induction cs with
  | nil => exact Nat.one_pos
  | cons c cs ih =>
    have htail := ih fun d hd => h d (List.mem_cons_of_mem c hd)
    have hc : c.toNat - 48 ≤ 9 := by
      have hdigit := h c List.mem_cons_self
      rw [Char.isDigit, Bool.and_eq_true, decide_eq_true_eq, decide_eq_true_eq] at hdigit
      have hle : c.val.toNat ≤ 57 := hdigit.2
      have hval : c.toNat = c.val.toNat := rfl
      omega
    have hsplit : digitsValue (c :: cs) = (c.toNat - 48) * 10 ^ cs.length + digitsValue cs := by
      rw [← List.singleton_append, digitsValue_append]
      congr 2
      rw [digitsValue, Nat.ofDigitChars_cons, Nat.ofDigitChars_nil, Nat.mul_zero, Nat.zero_add]
      rfl
    rw [hsplit, List.length_cons, Nat.pow_succ]
    have := Nat.mul_le_mul_right (10 ^ cs.length) hc
    omega

/-- The leading digits are the quotient by the power of ten of the others. -/
theorem digitsValue_take {cs : List Char} (h : Digits cs) {k : Nat} (hk : k ≤ cs.length) :
    digitsValue (cs.take (cs.length - k)) = digitsValue cs / 10 ^ k := by
  have hlength : (cs.drop (cs.length - k)).length = k := by
    rw [List.length_drop]
    omega
  have hsplit := digitsValue_append (cs.take (cs.length - k)) (cs.drop (cs.length - k))
  have hlt := digitsValue_lt (h.drop (cs.length - k))
  rw [List.take_append_drop, hlength] at hsplit
  rw [hlength] at hlt
  rw [hsplit, Nat.mul_comm, Nat.mul_add_div (Nat.pow_pos (by decide)), Nat.div_eq_of_lt hlt,
    Nat.add_zero]

/-- The last digits of a number, a fixed number of them. -/
def fixedDigits : Nat → Nat → List Char
  | 0, _ => []
  | k + 1, n => fixedDigits k (n / 10) ++ [(n % 10).digitChar]

theorem length_fixedDigits (k n : Nat) : (fixedDigits k n).length = k := by
  induction k generalizing n with
  | zero => rfl
  | succ k ih => rw [fixedDigits, List.length_append, ih, List.length_singleton]

theorem digits_fixedDigits (k n : Nat) : Digits (fixedDigits k n) := by
  induction k generalizing n with
  | zero => exact fun c hc => absurd hc List.not_mem_nil
  | succ k ih =>
    refine (ih _).append fun c hc => ?_
    apply digits_toDigits (n % 10) c
    rw [Nat.toDigits_of_lt_base (Nat.mod_lt n (by decide))]
    exact hc

/-- Padded digits are the digits of the quotient and the last digits. -/
theorem leftpad_toDigits (k n : Nat) :
    (Nat.toDigits 10 n).leftpad (k + 1) '0' = Nat.toDigits 10 (n / 10 ^ k) ++ fixedDigits k n := by
  induction k generalizing n with
  | zero =>
    have hlength : 0 < (Nat.toDigits 10 n).length := Nat.length_toDigits_pos
    rw [List.leftpad, Nat.sub_eq_zero_of_le hlength, List.replicate_zero, pow_zero, Nat.div_one,
      fixedDigits, List.append_nil, List.nil_append]
  | succ k ih =>
    have hpad : ∀ (xs : List Char) (d : Char),
        (xs ++ [d]).leftpad (k + 1 + 1) '0' = xs.leftpad (k + 1) '0' ++ [d] := by
      intro xs d
      rw [List.leftpad, List.leftpad, List.length_append, List.length_singleton,
        Nat.add_sub_add_right, List.append_assoc]
    rw [fixedDigits, ← List.append_assoc, Nat.pow_succ', ← Nat.div_div_eq_div_mul, ← ih]
    by_cases hn : n < 10
    · have hzeros : ['0'].leftpad (k + 1) '0' = List.replicate (k + 1) '0' := by
        rw [List.leftpad, List.length_singleton, Nat.add_sub_cancel]
        exact List.replicate_succ'.symm
      rw [Nat.toDigits_of_lt_base hn, Nat.div_eq_of_lt hn, Nat.mod_eq_of_lt hn, Nat.toDigits_zero,
        hzeros, List.leftpad, List.length_singleton, Nat.add_sub_cancel]
    · rw [Nat.toDigits_of_base_le (by decide) (Nat.le_of_not_lt hn), hpad]

theorem digitsValue_fixedDigits (k n : Nat) : digitsValue (fixedDigits k n) = n % 10 ^ k := by
  have hvalue := congrArg digitsValue (leftpad_toDigits k n)
  rw [digitsValue_leftpad, digitsValue_append, digitsValue_toDigits, digitsValue_toDigits,
    length_fixedDigits] at hvalue
  have hsplit := Nat.div_add_mod' n (10 ^ k)
  omega

/-! ## Numerals -/

/-- The digits after the point. -/
def fraction (cs : List Char) : List Char := (cs.dropWhile (· ≠ '.')).drop 1

/-- The number that an unsigned numeral denotes. -/
def unsignedValue (cs : List Char) : ℚ :=
  digitsValue (cs.takeWhile (· ≠ '.') ++ fraction cs) / 10 ^ (fraction cs).length

/-- The number that a numeral denotes. -/
def numeralValue : List Char → ℚ
  | '-' :: cs => -unsignedValue cs
  | '+' :: cs => unsignedValue cs
  | cs => unsignedValue cs

theorem toDigits_head (n : Nat) : ∃ c cs, Nat.toDigits 10 n = c :: cs ∧ c.isDigit = true := by
  cases hdigits : Nat.toDigits 10 n with
  | nil => exact absurd hdigits Nat.toDigits_ne_nil
  | cons c cs => exact ⟨c, cs, rfl, digits_toDigits n c (hdigits ▸ List.mem_cons_self)⟩

theorem numeralValue_minus (cs : List Char) : numeralValue ('-' :: cs) = -unsignedValue cs := rfl

theorem numeralValue_plus (cs : List Char) : numeralValue ('+' :: cs) = unsignedValue cs := rfl

theorem fraction_cons {c : Char} (h : c ≠ '.') (cs : List Char) :
    fraction (c :: cs) = fraction cs := by
  rw [fraction, List.dropWhile_cons_of_pos]
  · rfl
  · exact decide_eq_true h

theorem fraction_digits {cs : List Char} (h : Digits cs) : fraction cs = [] := by
  rw [fraction, List.dropWhile_eq_nil_iff.mpr h.ne_point, List.drop_nil]

theorem fraction_point {int : List Char} (h : Digits int) (frac : List Char) :
    fraction (int ++ '.' :: frac) = frac := by
  rw [fraction, List.dropWhile_append_of_pos h.ne_point, List.dropWhile_cons_of_neg (by decide)]
  rfl

theorem unsignedValue_digits {cs : List Char} (h : Digits cs) :
    unsignedValue cs = digitsValue cs := by
  rw [unsignedValue, fraction_digits h, List.takeWhile_eq_self_iff.mpr h.ne_point, List.append_nil,
    List.length_nil, pow_zero, div_one]

theorem unsignedValue_point {int : List Char} (h : Digits int) (frac : List Char) :
    unsignedValue (int ++ '.' :: frac) = digitsValue (int ++ frac) / 10 ^ frac.length := by
  rw [unsignedValue, fraction_point h, List.takeWhile_append_of_pos h.ne_point,
    List.takeWhile_cons_of_neg (by decide), List.append_nil]

/-- Digits with a point before the last of them. -/
def pointed (digits : List Char) (places : Nat) : List Char :=
  if places > 0 then
    digits.take (digits.length - places) ++ '.' :: digits.drop (digits.length - places)
  else digits.take (digits.length - places)

theorem pointed_leftpad {k : Nat} (hk : k > 0) (n : Nat) :
    pointed ((Nat.toDigits 10 n).leftpad (k + 1) '0') k =
      Nat.toDigits 10 (n / 10 ^ k) ++ '.' :: fixedDigits k n := by
  rw [pointed, if_pos hk, leftpad_toDigits, List.length_append, length_fixedDigits,
    Nat.add_sub_cancel, List.take_left, List.drop_left]

theorem unsignedValue_pointed {digits : List Char} (h : Digits digits) {places : Nat}
    (hle : places ≤ digits.length) :
    unsignedValue (pointed digits places) = digitsValue digits / 10 ^ places := by
  unfold pointed
  split
  · rw [unsignedValue_point (h.take _), List.take_append_drop, List.length_drop,
      Nat.sub_sub_self hle]
  · rename_i hzero
    obtain rfl : places = 0 := by omega
    rw [Nat.sub_zero, List.take_length, unsignedValue_digits h, pow_zero, div_one]

/-- Digits with a fraction, where there is one. -/
def withFraction (int frac : List Char) : List Char :=
  int ++ if frac = [] then [] else '.' :: frac

theorem unsignedValue_withFraction {int : List Char} (h : Digits int) (frac : List Char) :
    unsignedValue (withFraction int frac) = digitsValue (int ++ frac) / 10 ^ frac.length := by
  unfold withFraction
  split
  · rename_i hnil
    rw [hnil, List.append_nil, unsignedValue_digits h, List.length_nil, pow_zero, div_one]
  · exact unsignedValue_point h frac

/-- Digits without the zeros at their end. -/
def stripZeros (digits : List Char) : List Char := digits.rdropWhile (· = '0')

theorem stripZeros_append (digits : List Char) :
    ∃ n, stripZeros digits ++ List.replicate n '0' = digits := by
  obtain ⟨zeros, hzeros⟩ : ∃ zeros, zeros = digits.rtakeWhile (· = '0') := ⟨_, rfl⟩
  have hall : ∀ c ∈ zeros, c = '0' := by
    intro c hc
    rw [hzeros] at hc
    have := List.mem_rtakeWhile_imp hc
    exact of_decide_eq_true this
  refine ⟨zeros.length, ?_⟩
  rw [← List.eq_replicate_iff.mpr ⟨rfl, hall⟩, hzeros]
  exact List.rdropWhile_append_rtakeWhile

theorem stripZeros_prefix (digits : List Char) : stripZeros digits <+: digits :=
  List.rdropWhile_prefix _ _

theorem stripZeros_getLast? (digits : List Char) : (stripZeros digits).getLast? ≠ some '0' := by
  intro hlast
  have hne : stripZeros digits ≠ [] := by
    intro hnil
    rw [hnil] at hlast
    cases hlast
  rw [List.getLast?_eq_some_getLast hne, Option.some.injEq] at hlast
  have hlast' := List.rdropWhile_last_not (fun c => decide (c = '0')) digits hne
  exact hlast' (decide_eq_true hlast)

/-- Zeros at the end of a fraction are worth nothing. -/
theorem unsignedValue_stripZeros {int : List Char} (h : Digits int) (frac : List Char) :
    unsignedValue (withFraction int (stripZeros frac)) = unsignedValue (withFraction int frac) := by
  obtain ⟨n, hn⟩ := stripZeros_append frac
  rw [unsignedValue_withFraction h, unsignedValue_withFraction h]
  conv_rhs => rw [← hn]
  rw [← List.append_assoc, digitsValue_append (int ++ stripZeros frac), digitsValue_replicate_zero,
    List.length_append, List.length_replicate, pow_add, Nat.add_zero, Nat.cast_mul, Nat.cast_pow,
    Nat.cast_ofNat, mul_div_mul_right _ _ (pow_ne_zero n (by norm_num))]

theorem numeralValue_of_isDigit {c : Char} (h : c.isDigit = true) (cs : List Char) :
    numeralValue (c :: cs) = unsignedValue (c :: cs) := by
  unfold numeralValue
  split
  · cases ‹c :: cs = _›
    exact absurd h (by decide)
  · cases ‹c :: cs = _›
    exact absurd h (by decide)
  · rfl

theorem numeralValue_toDigits_append (n : Nat) (cs : List Char) :
    numeralValue (Nat.toDigits 10 n ++ cs) = unsignedValue (Nat.toDigits 10 n ++ cs) := by
  obtain ⟨c, ds, hdigits, hc⟩ := toDigits_head n
  rw [hdigits, List.cons_append]
  exact numeralValue_of_isDigit hc _

end Tckr
