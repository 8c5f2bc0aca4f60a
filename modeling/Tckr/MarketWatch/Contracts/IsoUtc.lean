import Mathlib.Tactic.IntervalCases

/-!
# Timestamps

Instants are milliseconds since the epoch; on the wire they are text in UTC.
-/

namespace Tckr.MarketWatch

/-- A year, month and day of the proleptic Gregorian calendar. -/
structure CivilDate where
  year : Nat
  month : Nat
  day : Nat
  deriving DecidableEq, Repr

/-- The date of a day counted from the epoch. Years are counted from March, so that
the leap day comes last, and in eras of 400 years. -/
def civilDate (days : Nat) : CivilDate :=
  let shifted := days + 719468
  let era := shifted / 146097
  let dayOfEra := shifted % 146097
  let yearOfEra := (dayOfEra - dayOfEra / 1460 + dayOfEra / 36524 - dayOfEra / 146096) / 365
  let dayOfYear := dayOfEra - (365 * yearOfEra + yearOfEra / 4 - yearOfEra / 100)
  let fromMarch := (5 * dayOfYear + 2) / 153
  let month := if fromMarch < 10 then fromMarch + 3 else fromMarch - 9
  { year := yearOfEra + era * 400 + if month ≤ 2 then 1 else 0
    month := month
    day := dayOfYear - (153 * fromMarch + 2) / 5 + 1 }

/-- A numeral with at least `width` digits. -/
def padStart (n width : Nat) : String := String.ofList ((Nat.toDigits 10 n).leftpad width '0')

/-- `new Date(ms).toISOString()`; years past 9999 take a sign and six digits. -/
def toISOString (ms : Nat) : String :=
  let date := civilDate (ms / 86400000)
  let ofDay := ms % 86400000
  let year := if date.year ≤ 9999 then padStart date.year 4 else "+" ++ padStart date.year 6
  year ++ "-" ++ padStart date.month 2 ++ "-" ++ padStart date.day 2 ++ "T" ++
    padStart (ofDay / 3600000) 2 ++ ":" ++ padStart (ofDay / 60000 % 60) 2 ++ ":" ++
    padStart (ofDay / 1000 % 60) 2 ++ "." ++ padStart (ofDay % 1000) 3 ++ "Z"

example : toISOString 951827696789 = "2000-02-29T12:34:56.789Z" := by decide +kernel

/-! ## Dates and days -/

/-- The day of a date, counted from the epoch. -/
def CivilDate.dayNumber (date : CivilDate) : Int :=
  let fromMarch := if date.month ≤ 2 then date.month + 9 else date.month - 3
  let year := if date.month ≤ 2 then date.year - 1 else date.year
  let yearOfEra := year % 400
  ((year / 400 * 146097 + (365 * yearOfEra + yearOfEra / 4 - yearOfEra / 100) +
    ((153 * fromMarch + 2) / 5 + date.day - 1) : Nat) : Int) - 719468

/-- A day of an era falls into one of its 400 years, on one of the days of that year. -/
theorem yearOfEra_mem {dayOfEra : Nat} (h : dayOfEra < 146097) :
    let year := (dayOfEra - dayOfEra / 1460 + dayOfEra / 36524 - dayOfEra / 146096) / 365
    365 * year + year / 4 ≤ dayOfEra + year / 100 ∧
      dayOfEra + year / 100 ≤ 365 * year + year / 4 + 366 ∧ year < 400 := by
  intro year
  obtain ⟨leaps, hleaps⟩ : ∃ leaps, leaps = dayOfEra / 1460 := ⟨_, rfl⟩
  obtain ⟨century, hcentury⟩ : ∃ century, century = dayOfEra / 36524 := ⟨_, rfl⟩
  obtain ⟨last, hlast⟩ : ∃ last, last = dayOfEra / 146096 := ⟨_, rfl⟩
  have hyear : year = (dayOfEra - leaps + century - last) / 365 := by rw [hleaps, hcentury, hlast]
  clear_value year
  have hlower : 365 * year + leaps + last ≤ dayOfEra + century := by omega
  have hupper : dayOfEra + century < 365 * year + 365 + leaps + last := by omega
  have hle : century ≤ 4 := by omega
  -- The year's own count of centuries is the day's, but for the last day of the era.
  have hcenturies : year / 100 + last = century := by
    clear hyear
    interval_cases century <;> omega
  have hleaps' : year / 4 ≤ leaps ∧ leaps ≤ year / 4 + 1 := by
    clear hyear
    omega
  omega

/-- The day of a date given by its era, its year from March, its month from March and its day. -/
theorem dayNumber_mk {era year fromMarch ofMonth : Nat} (hyear : year < 400)
    (hfromMarch : fromMarch ≤ 11) :
    let month := if fromMarch < 10 then fromMarch + 3 else fromMarch - 9
    CivilDate.dayNumber ⟨year + era * 400 + if month ≤ 2 then 1 else 0, month, ofMonth⟩ =
      ((era * 146097 + (365 * year + year / 4 - year / 100) +
        ((153 * fromMarch + 2) / 5 + ofMonth - 1) : Nat) : Int) - 719468 := by
  intro month
  have hera : (year + era * 400) / 400 = era := by omega
  have hmod : (year + era * 400) % 400 = year := by omega
  by_cases hlate : fromMarch < 10
  · have hmonth : month = fromMarch + 3 := if_pos hlate
    have hafter : ¬fromMarch + 3 ≤ 2 := by omega
    rw [hmonth, CivilDate.dayNumber]
    simp only [if_neg hafter, Nat.add_zero, hera, hmod, Nat.add_sub_cancel]
  · have hmonth : month = fromMarch - 9 := if_neg hlate
    have hbefore : fromMarch - 9 ≤ 2 := by omega
    have hback : fromMarch - 9 + 9 = fromMarch := by omega
    rw [hmonth, CivilDate.dayNumber]
    simp only [if_pos hbefore, Nat.add_sub_cancel, hera, hmod, hback]

/-- A date is the date of its day. -/
theorem dayNumber_civilDate (days : Nat) : (civilDate days).dayNumber = days := by
  have hday := Nat.div_add_mod (days + 719468) 146097
  have hmem := yearOfEra_mem (Nat.mod_lt (days + 719468) (Nat.succ_pos 146096))
  unfold civilDate
  dsimp only at hmem ⊢
  generalize (days + 719468) / 146097 = era at *
  generalize (days + 719468) % 146097 = dayOfEra at *
  generalize (dayOfEra - dayOfEra / 1460 + dayOfEra / 36524 - dayOfEra / 146096) / 365 = year at *
  obtain ⟨hlower, hupper, hyear⟩ := hmem
  obtain ⟨ofYear, hofYear⟩ : ∃ ofYear, ofYear = dayOfEra -
    (365 * year + year / 4 - year / 100) := ⟨_, rfl⟩
  rw [← hofYear]
  have hle : (5 * ofYear + 2) / 153 ≤ 11 := by omega
  rw [dayNumber_mk hyear hle]
  omega

end Tckr.MarketWatch
