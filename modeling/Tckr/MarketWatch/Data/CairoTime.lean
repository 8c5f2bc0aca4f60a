import Mathlib.Logic.Function.Iterate
import Tckr.Core.Changes
import Tckr.MarketWatch.Contracts.IsoUtc

/-!
# Cairo time

The clocks of Cairo and the way back from what they show to an instant. The offsets of
Cairo from UTC come with the browser and are a parameter. A date key is passed around
as the date it spells.
-/

namespace Tckr.MarketWatch

def msPerDay : Int := 86400000

def msPerHour : Int := 3600000

/-- The offsets of a time zone of the browser, in milliseconds. -/
structure CairoClock where
  offset : Int → Int
  /-- The zone is two hours ahead of UTC, and three in summer. -/
  offset_mem : ∀ t, offset t = 2 * msPerHour ∨ offset t = 3 * msPerHour

/-- The date of a day before or after the epoch, in the years after Christ. -/
def civilDay (day : Int) : CivilDate :=
  let date := civilDate (day + 730485).toNat
  { date with year := date.year - 2000 }

structure CairoParts where
  date : CivilDate
  /-- 0 is Sunday. -/
  weekday : Nat
  hour : Nat
  minute : Nat
  second : Nat
  deriving DecidableEq, Repr

/-- `Date.UTC`; a year of two digits is one of the last century. -/
def dateUTC (date : CivilDate) (hour minute second : Nat) : Int :=
  let date := if date.year < 100 then { date with year := 1900 + date.year } else date
  date.dayNumber * msPerDay + ((hour * 60 + minute) * 60 + second : Nat) * 1000

section Clock

variable (zone : CairoClock)

def getCairoParts (epochMs : Int) : CairoParts :=
  let wall := epochMs + zone.offset epochMs
  let seconds := (wall % msPerDay / 1000).toNat
  { date := civilDay (wall / msPerDay)
    weekday := ((wall / msPerDay + 4) % 7).toNat
    hour := seconds / 3600
    minute := seconds / 60 % 60
    second := seconds % 60 }

def cairoDateKey (epochMs : Int) : CivilDate := (getCairoParts zone epochMs).date

def cairoOffsetMsAt (epochMs : Int) : Int :=
  let p := getCairoParts zone epochMs
  dateUTC p.date p.hour p.minute p.second - epochMs

/-- A guess, corrected twice by the offset in effect near it. -/
def cairoEpochFor (date : CivilDate) (hour minute : Nat) : Int :=
  let target := dateUTC date hour minute 0
  (fun epoch => target - cairoOffsetMsAt zone epoch)^[2] target

def weekdayOfDateKey (date : CivilDate) : Nat :=
  (getCairoParts zone (cairoEpochFor zone date 12 0)).weekday

def shiftDateKey (date : CivilDate) (deltaDays : Int) : CivilDate :=
  cairoDateKey zone (cairoEpochFor zone date 12 0 + deltaDays * msPerDay)

end Clock

/-! ## Days -/

/-- The days whose dates `Date.UTC` takes at their word, like the dates beside them: those
after the first of January of the year 100. -/
def Spelled (day : Int) : Prop := -683003 < day

instance (day : Int) : Decidable (Spelled day) := inferInstanceAs (Decidable (_ < _))

/-- Two thousand years after the first of January of the year 100 comes the year 2100. -/
theorem civilDate_year_ge {days : Nat} (h : 47482 ≤ days) : 2100 ≤ (civilDate days).year := by
  have hday := Nat.div_add_mod (days + 719468) 146097
  have hmem := yearOfEra_mem (Nat.mod_lt (days + 719468) (Nat.succ_pos 146096))
  unfold civilDate
  dsimp only at hmem ⊢
  generalize (days + 719468) / 146097 = era at *
  generalize (days + 719468) % 146097 = dayOfEra at *
  generalize (dayOfEra - dayOfEra / 1460 + dayOfEra / 36524 - dayOfEra / 146096) / 365 = year at *
  obtain ⟨hlower, hupper, hyear⟩ := hmem
  obtain ⟨ofYear, hofYear⟩ : ∃ ofYear, ofYear = dayOfEra -
    (365 * year + year / 4 - year / 100) := ⟨_, rfl⟩
  rw [← hofYear]
  by_cases hcentury : 2100 ≤ year + era * 400
  · omega
  -- The year from March is 2099, and its January and February are of the next.
  · have hera : era = 5 := by omega
    have hlast : year = 99 := by omega
    have hlate : 306 ≤ ofYear := by omega
    have hmonth : ¬(5 * ofYear + 2) / 153 < 10 := by omega
    have hwinter : (5 * ofYear + 2) / 153 - 9 ≤ 2 := by omega
    rw [if_neg hmonth, if_pos hwinter]
    omega

/-- Twenty centuries earlier are five eras earlier. -/
theorem dayNumber_sub_eras {date : CivilDate} (h : 2001 ≤ date.year) :
    CivilDate.dayNumber { date with year := date.year - 2000 } = date.dayNumber - 730485 := by
  unfold CivilDate.dayNumber
  dsimp only
  by_cases hmonth : date.month ≤ 2
  · simp only [hmonth, if_true]
    have hera : (date.year - 2000 - 1) / 400 = (date.year - 1) / 400 - 5 := by omega
    have hmod : (date.year - 2000 - 1) % 400 = (date.year - 1) % 400 := by omega
    rw [hera, hmod]
    omega
  · simp only [hmonth, if_false]
    have hera : (date.year - 2000) / 400 = date.year / 400 - 5 := by omega
    have hmod : (date.year - 2000) % 400 = date.year % 400 := by omega
    rw [hera, hmod]
    omega

theorem year_civilDay {day : Int} (h : -683003 ≤ day) : 100 ≤ (civilDay day).year := by
  have hyear := @civilDate_year_ge (day + 730485).toNat (by omega)
  unfold civilDay
  dsimp only
  omega

theorem dayNumber_civilDay {day : Int} (h : -683003 ≤ day) : (civilDay day).dayNumber = day := by
  have hyear := @civilDate_year_ge (day + 730485).toNat (by omega)
  have hdays := dayNumber_civilDate (day + 730485).toNat
  unfold civilDay
  generalize civilDate (day + 730485).toNat = date at *
  rw [dayNumber_sub_eras (by omega), hdays]
  omega

theorem dateUTC_eq {day : Int} (h : -683003 ≤ day) (hour minute second : Nat) :
    dateUTC (civilDay day) hour minute second =
      day * msPerDay + ((hour * 60 + minute) * 60 + second : Nat) * 1000 := by
  have hyear := Nat.not_lt.mpr (year_civilDay h)
  rw [dateUTC, if_neg hyear, dayNumber_civilDay h]

theorem dateUTC_civilDay {day : Int} (h : -683003 ≤ day) (hour minute : Nat) :
    dateUTC (civilDay day) hour minute 0 = day * msPerDay + (hour * 60 + minute) * 60000 := by
  rw [dateUTC_eq h]
  push_cast
  omega

/-! ## The walls of Cairo -/

namespace CairoClock

variable (zone : CairoClock)

/-- What the clocks on the wall show. -/
def wall (t : Int) : Int := t + zone.offset t

/-- The day on the wall. -/
def day (t : Int) : Int := zone.wall t / msPerDay

theorem offset_le (t u : Int) : zone.offset t ≤ zone.offset u + msPerHour := by
  have ht := zone.offset_mem t
  have hu := zone.offset_mem u
  unfold msPerHour at *
  omega

theorem day_eq {t day ofDay : Int} (h : zone.wall t = day * msPerDay + ofDay) (hlower : 0 ≤ ofDay)
    (hupper : ofDay < msPerDay) : zone.day t = day := by
  unfold CairoClock.day
  rw [h]
  unfold msPerDay at *
  omega

/-- The formatter gives back the offset at a whole second. -/
theorem cairoOffsetMsAt_eq {t : Int} (h : -683003 ≤ zone.day t)
    (hsecond : zone.wall t % 1000 = 0) : cairoOffsetMsAt zone t = zone.offset t := by
  have hclock (seconds : Nat) :
      (seconds / 3600 * 60 + seconds / 60 % 60) * 60 + seconds % 60 = seconds := by omega
  unfold cairoOffsetMsAt getCairoParts
  unfold day wall at *
  dsimp only
  rw [dateUTC_eq h, hclock]
  clear h hclock
  unfold msPerDay at *
  omega

/-- The formatter gives back the offset on the days from the first that is spelled. -/
theorem cairoOffsetMsAt_of_le {t : Int} (h : -683003 * msPerDay ≤ zone.wall t)
    (hsecond : zone.wall t % 1000 = 0) : cairoOffsetMsAt zone t = zone.offset t := by
  apply zone.cairoOffsetMsAt_eq ?_ hsecond
  unfold day
  unfold msPerDay at *
  omega

/-- The guess is corrected by the offset there, and then by the offset where that leads. -/
theorem cairoEpochFor_eq {day target : Int} (h : -683003 < day) {hour minute : Nat}
    (htarget : target = day * msPerDay + (hour * 60 + minute) * 60000) :
    cairoEpochFor zone (civilDay day) hour minute =
      target - zone.offset (target - zone.offset target) := by
  have hguess : dateUTC (civilDay day) hour minute 0 = target := by
    rw [dateUTC_civilDay (by omega), htarget]
  have hoffset := zone.offset_mem target
  have hcorrected := zone.offset_mem (target - zone.offset target)
  have hlower : -683002 * msPerDay ≤ target ∧ target % 1000 = 0 := by
    unfold msPerDay at *
    omega
  have hfirst : cairoOffsetMsAt zone target = zone.offset target := by
    apply zone.cairoOffsetMsAt_of_le
    all_goals
      simp only [wall, msPerDay, msPerHour] at *
      omega
  have hsecond : cairoOffsetMsAt zone (target - zone.offset target) =
      zone.offset (target - zone.offset target) := by
    apply zone.cairoOffsetMsAt_of_le
    all_goals
      simp only [wall, msPerDay, msPerHour] at *
      omega
  unfold cairoEpochFor
  rw [hguess, Function.iterate_succ_apply, Function.iterate_succ_apply, Function.iterate_zero_apply,
    hfirst, hsecond]

/-- A guess is off by an hour at most. -/
theorem wall_cairoEpochFor_mem {day target : Int} (h : -683003 < day) {hour minute : Nat}
    (htarget : target = day * msPerDay + (hour * 60 + minute) * 60000) :
    target - msPerHour ≤ zone.wall (cairoEpochFor zone (civilDay day) hour minute) ∧
      zone.wall (cairoEpochFor zone (civilDay day) hour minute) ≤ target + msPerHour := by
  rw [zone.cairoEpochFor_eq h htarget]
  generalize target - zone.offset target = guess
  have hle := zone.offset_le (target - zone.offset guess) guess
  have hge := zone.offset_le guess (target - zone.offset guess)
  unfold wall
  omega

theorem noon_eq (day : Int) :
    day * msPerDay + 43200000 = day * msPerDay + ((12 : Nat) * 60 + (0 : Nat)) * 60000 := by omega

/-- Days are counted from noon to noon, which is never far off. -/
theorem shiftDateKey_eq {day : Int} (h : -683003 < day) (deltaDays : Int) :
    shiftDateKey zone (civilDay day) deltaDays = civilDay (day + deltaDays) := by
  obtain ⟨noon, hnoon⟩ : ∃ noon, noon = cairoEpochFor zone (civilDay day) 12 0 := ⟨_, rfl⟩
  obtain ⟨guess, hguess⟩ : ∃ guess, noon = day * msPerDay + 43200000 - zone.offset guess :=
    ⟨_, hnoon.trans (zone.cairoEpochFor_eq h (noon_eq day))⟩
  have hlater := zone.offset_le (noon + deltaDays * msPerDay) guess
  have hearlier := zone.offset_le guess (noon + deltaDays * msPerDay)
  have hwall : zone.wall (noon + deltaDays * msPerDay) = (day + deltaDays) * msPerDay +
      (43200000 + (zone.offset (noon + deltaDays * msPerDay) - zone.offset guess)) := by
    rw [wall, Int.add_mul]
    omega
  have hday : zone.day (noon + deltaDays * msPerDay) = day + deltaDays := by
    apply zone.day_eq hwall
    all_goals
      unfold msPerHour at hlater hearlier
      unfold msPerDay at *
      omega
  unfold shiftDateKey
  rw [← hnoon]
  exact congrArg civilDay hday

/-- Noon is on the day. -/
theorem day_noon {day : Int} (h : -683003 < day) :
    zone.day (cairoEpochFor zone (civilDay day) 12 0) = day := by
  obtain ⟨hlower, hupper⟩ := zone.wall_cairoEpochFor_mem h (noon_eq day)
  unfold CairoClock.day
  unfold msPerHour at hlower hupper
  unfold msPerDay at *
  omega

end CairoClock

/-! ## Wall times -/

/-- A clock whose changes are at least a day apart. -/
structure SpacedClock extends CairoClock where
  spaced : Changes.Spaced offset msPerDay

instance : Coe SpacedClock CairoClock := ⟨SpacedClock.toCairoClock⟩

/-- The wall times of a date are found, and the dates beside it. -/
structure FindsDate (zone : CairoClock) (day : Int) : Prop where
  /-- A wall time that the clocks come to show on the date is shown at the instant found. -/
  shows : ∀ hour minute : Nat, hour < 24 → minute < 60 →
    (∃ t, zone.wall t = day * msPerDay + (hour * 60 + minute) * 60000) →
    let p := getCairoParts zone (cairoEpochFor zone (civilDay day) hour minute)
    p.date = civilDay day ∧ p.hour = hour ∧ p.minute = minute ∧ p.second = 0
  next : shiftDateKey zone (civilDay day) 1 = civilDay (day + 1)
  previous : shiftDateKey zone (civilDay day) (-1) = civilDay (day - 1)

namespace SpacedClock

variable (zone : SpacedClock)

/-- The second correction settles on an instant that shows the wall time, if there is one. -/
theorem wall_corrected {target : Int} (hshown : ∃ t, zone.wall t = target) :
    zone.wall (target - zone.offset (target - zone.offset target)) = target := by
  obtain ⟨t, ht⟩ := hshown
  have hmem := zone.offset_mem
  unfold CairoClock.wall at *
  -- Instants by the offset that would make them show the wall time: three hours, two, none.
  obtain ⟨summer, hsummer⟩ : ∃ summer, summer = target - 3 * msPerHour := ⟨_, rfl⟩
  obtain ⟨winter, hwinter⟩ : ∃ winter, winter = target - 2 * msPerHour := ⟨_, rfl⟩
  have honce : zone.offset summer = zone.offset winter ∨
      zone.offset winter = zone.offset target := by
    apply zone.spaced.eq_or_eq
    all_goals
      simp only [msPerHour, msPerDay] at *
      omega
  have hcandidate : t = summer ∧ zone.offset summer = 3 * msPerHour ∨
      t = winter ∧ zone.offset winter = 2 * msPerHour := by
    rcases hmem t with htwo | hthree
    · have heq : t = winter := by omega
      exact .inr ⟨heq, heq ▸ htwo⟩
    · have heq : t = summer := by omega
      exact .inl ⟨heq, heq ▸ hthree⟩
  rcases hmem target with htarget | htarget
  · rw [htarget, ← hwinter]
    rcases hmem winter with hguess | hguess
    · rw [hguess, ← hwinter, hguess]
      omega
    · -- The clocks change after the first correction, so not before it.
      have hsame : zone.offset summer = zone.offset winter := by
        rcases honce with hsame | hsame
        · exact hsame
        · unfold msPerHour at *
          omega
      rw [hguess, ← hsummer, hsame, hguess]
      omega
  · rw [htarget, ← hsummer]
    rcases hmem summer with hguess | hguess
    · rw [hguess, ← hwinter]
      rcases hcandidate with ⟨-, hthree⟩ | ⟨-, htwo⟩
      · unfold msPerHour at *
        omega
      · rw [htwo]
        omega
    · rw [hguess, ← hsummer, hguess]
      omega

end SpacedClock

/-- The clocks go forward at midnight to the 24th of April 2026. -/
def springOffset (t : Int) : Int := if t < 1776981600000 then 2 * msPerHour else 3 * msPerHour

theorem springOffset_changesAt {c : Int} (h : Changes.ChangesAt springOffset c) :
    c = 1776981600000 := by
  by_contra hne
  apply h
  unfold springOffset
  by_cases hbefore : c < 1776981600000
  · rw [if_pos hbefore, if_pos (by omega)]
  · rw [if_neg hbefore, if_neg (by omega)]

def springForward : SpacedClock where
  offset := springOffset
  offset_mem t := by
    unfold springOffset
    split
    · exact .inl rfl
    · exact .inr rfl
  spaced c d hlt hc hd := by
    have heq := (springOffset_changesAt hc).trans (springOffset_changesAt hd).symm
    omega

end Tckr.MarketWatch
