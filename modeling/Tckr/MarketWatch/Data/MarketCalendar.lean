import Tckr.MarketWatch.Data.CairoTime
import Tckr.MarketWatch.Data.Simulated

/-!
# The trading calendar

When the exchange is open, and the session it displays: a function of the time
alone.
-/

namespace Tckr.MarketWatch

/-- `MARKET_OPEN`, in hours and minutes. -/
def marketOpen : Nat × Nat := (10, 0)

/-- `MARKET_CLOSE`. -/
def marketClose : Nat × Nat := (14, 30)

/-- The clocks of Cairo, which change at night. -/
structure CairoZone extends CairoClock where
  /-- The clocks change within a day. -/
  day_mono : ∀ t u, t ≤ u → (t + offset t) / msPerDay ≤ (u + offset u) / msPerDay
  /-- The clocks change at night. -/
  steady : ∀ t u, (t + offset t) / msPerDay = (u + offset u) / msPerDay →
    3 * msPerHour ≤ (t + offset t) % msPerDay → (t + offset t) % msPerDay < 23 * msPerHour →
    3 * msPerHour ≤ (u + offset u) % msPerDay → (u + offset u) % msPerDay < 23 * msPerHour →
    offset t = offset u

instance : Coe CairoZone CairoClock := ⟨CairoZone.toCairoClock⟩

/-- `'YYYY-MM-DD'`. -/
def CivilDate.key (date : CivilDate) : String :=
  toString date.year ++ "-" ++ padStart date.month 2 ++ "-" ++ padStart date.day 2

section Calendar

variable (zone : CairoClock)

def isTradingDay (weekday : Nat) : Bool := weekday ≤ 4

/-- Walk backward to the nearest trading day, at most the given number of days. -/
def tradingDateBefore : Nat → CivilDate → Option CivilDate
  | 0, _ => none
  | fuel + 1, date =>
      let candidate := shiftDateKey zone date (-1)
      if isTradingDay (weekdayOfDateKey zone candidate) then some candidate
      else tradingDateBefore fuel candidate

def previousTradingDateKey (date : CivilDate) : Except String CivilDate :=
  (tradingDateBefore zone 7 date).elim
    (.error ("marketCalendar: no trading day found within 7 days before " ++ date.key)) .ok

/-- A status that displays the session of a date. -/
def statusOn (state : MarketState) (date : CivilDate) : MarketStatus where
  state := state
  sessionDateKey := date.key
  sessionOpenAt := (cairoEpochFor zone date marketOpen.1 marketOpen.2).toNat
  sessionCloseAt := (cairoEpochFor zone date marketClose.1 marketClose.2).toNat

/-- A trading day shows its own session from the opening on. -/
def getMarketStatus (nowMs : Int) : Except String MarketStatus :=
  let today := cairoDateKey zone nowMs
  let weekday := (getCairoParts zone nowMs).weekday
  let openAtToday := cairoEpochFor zone today marketOpen.1 marketOpen.2
  let closeAtToday := cairoEpochFor zone today marketClose.1 marketClose.2
  if isTradingDay weekday ∧ openAtToday ≤ nowMs ∧ nowMs < closeAtToday then
    .ok (statusOn zone .open today)
  else if isTradingDay weekday ∧ nowMs < openAtToday then
    (previousTradingDateKey zone today).map (statusOn zone .closed)
  else if isTradingDay weekday ∧ closeAtToday ≤ nowMs then .ok (statusOn zone .closed today)
  else (previousTradingDateKey zone today).map (statusOn zone .closed)

end Calendar

/-! ## Keys -/

/-- Text up to a separator it does not contain is determined. -/
theorem append_cons_inj {c : Char} {front front' back back' : List Char} (h : c ∉ front)
    (h' : c ∉ front') (heq : front ++ c :: back = front' ++ c :: back') :
    front = front' ∧ back = back' := by
  induction front generalizing front' with
  | nil =>
    cases front' with
    | nil => exact ⟨rfl, (List.cons.inj heq).2⟩
    | cons d front' => exact absurd ((List.cons.inj heq).1 ▸ List.mem_cons_self) h'
  | cons d front ih =>
    cases front' with
    | nil => exact absurd ((List.cons.inj heq).1 ▸ List.mem_cons_self) h
    | cons d' front' =>
      obtain ⟨rfl, htail⟩ := List.cons.inj heq
      obtain ⟨rfl, rfl⟩ := ih (fun hc => h (List.mem_cons_of_mem d hc))
        (fun hc => h' (List.mem_cons_of_mem d hc)) htail
      exact ⟨rfl, rfl⟩

theorem dash_not_mem_toDigits (n : Nat) : '-' ∉ Nat.toDigits 10 n :=
  fun hmem => absurd (Nat.isDigit_of_mem_toDigits (by decide) (by decide) hmem) (by decide)

theorem toList_padStart (n width : Nat) :
    (padStart n width).toList = (Nat.toDigits 10 n).leftpad width '0' := by
  rw [padStart, String.toList_ofList]

theorem dash_not_mem_padStart (n width : Nat) : '-' ∉ (padStart n width).toList := by
  rw [toList_padStart, List.leftpad, List.mem_append]
  rintro (hmem | hmem)
  · exact absurd (List.eq_of_mem_replicate hmem) (by decide)
  · exact dash_not_mem_toDigits n hmem

/-- A padded numeral still spells its number. -/
theorem ofDigitChars_padStart (n width : Nat) :
    Nat.ofDigitChars 10 (padStart n width).toList 0 = n := by
  rw [toList_padStart, List.leftpad, Nat.ofDigitChars_append, Nat.ofDigitChars_replicate_zero,
    Nat.mul_zero, Nat.ofDigitChars_ten_toDigits]

theorem padStart_injective {n m width : Nat} (h : padStart n width = padStart m width) : n = m := by
  rw [← ofDigitChars_padStart n width, h, ofDigitChars_padStart]

/-- A date is determined by its key. -/
theorem key_injective {date date' : CivilDate} (h : date.key = date'.key) : date = date' := by
  have hdash : "-".toList = ['-'] := rfl
  have hchars := congrArg String.toList h
  simp only [CivilDate.key, String.toList_append, Nat.toString_eq_ofList_toDigits,
    String.toList_ofList, List.append_assoc, hdash, List.singleton_append] at hchars
  obtain ⟨hyear, hchars⟩ :=
    append_cons_inj (dash_not_mem_toDigits _) (dash_not_mem_toDigits _) hchars
  obtain ⟨hmonth, hday⟩ :=
    append_cons_inj (dash_not_mem_padStart _ _) (dash_not_mem_padStart _ _) hchars
  rcases date with ⟨year, month, day⟩
  rcases date' with ⟨year', month', day'⟩
  have hyear : year = year' := by
    rw [← Nat.ofDigitChars_ten_toDigits (n := year), hyear, Nat.ofDigitChars_ten_toDigits]
  have hmonth : month = month' := padStart_injective (String.toList_inj.mp hmonth)
  have hday : day = day' := padStart_injective (String.toList_inj.mp hday)
  rw [hyear, hmonth, hday]

theorem civilDay_key_injective {day day' : Int} (h : -683003 ≤ day) (h' : -683003 ≤ day')
    (heq : (civilDay day).key = (civilDay day').key) : day = day' := by
  rw [← dayNumber_civilDay h, key_injective heq, dayNumber_civilDay h']

/-! ## Trading days -/

namespace CairoZone

/-- Sundays to Thursdays are trading days. -/
def Trading (day : Int) : Prop := (day + 4) % 7 ≤ 4

instance (day : Int) : Decidable (Trading day) := inferInstanceAs (Decidable (_ ≤ _))

/-- The last trading day before a day. -/
def tradingDayBefore (day : Int) : Int :=
  if Trading (day - 1) then day - 1 else if Trading (day - 2) then day - 2 else day - 3

theorem trading_tradingDayBefore (day : Int) : Trading (tradingDayBefore day) := by
  unfold tradingDayBefore
  split
  · assumption
  · split
    · assumption
    · unfold Trading at *
      omega

theorem tradingDayBefore_lt (day : Int) : tradingDayBefore day < day := by
  unfold tradingDayBefore
  split_ifs <;> omega

theorem sub_three_le_tradingDayBefore (day : Int) : day - 3 ≤ tradingDayBefore day := by
  unfold tradingDayBefore
  split_ifs <;> omega

/-- No trading day lies in between. -/
theorem le_tradingDayBefore {day earlier : Int} (h : Trading earlier) (hlt : earlier < day) :
    earlier ≤ tradingDayBefore day := by
  unfold tradingDayBefore
  split_ifs with hone htwo
  · omega
  · have hne : earlier ≠ day - 1 := fun heq => hone (heq ▸ h)
    omega
  · have hne : earlier ≠ day - 1 := fun heq => hone (heq ▸ h)
    have hne' : earlier ≠ day - 2 := fun heq => htwo (heq ▸ h)
    omega

theorem isTradingDay_iff (day : Int) : isTradingDay ((day + 4) % 7).toNat = true ↔ Trading day := by
  unfold isTradingDay Trading
  rw [decide_eq_true_iff]
  omega

end CairoZone

namespace CairoClock

open CairoZone

variable (zone : CairoClock)

theorem isTradingDay_weekdayOfDateKey {day : Int} (h : -683003 < day) :
    isTradingDay (weekdayOfDateKey zone (civilDay day)) = true ↔ Trading day := by
  have hday := zone.day_noon h
  unfold weekdayOfDateKey getCairoParts
  generalize cairoEpochFor zone (civilDay day) 12 0 = noon at *
  subst hday
  exact isTradingDay_iff (zone.day noon)

/-- One day of the walk backward. -/
theorem tradingDateBefore_succ {day : Int} (h : -683002 < day) (fuel : Nat) :
    tradingDateBefore zone (fuel + 1) (civilDay day) =
      if Trading (day - 1) then some (civilDay (day - 1))
      else tradingDateBefore zone fuel (civilDay (day - 1)) := by
  have hback : -683003 < day - 1 := by omega
  have htrading := zone.isTradingDay_weekdayOfDateKey hback
  have hshift : day + -1 = day - 1 := rfl
  rw [tradingDateBefore, zone.shiftDateKey_eq (by omega), hshift]
  by_cases hday : Trading (day - 1)
  · rw [if_pos (htrading.mpr hday), if_pos hday]
  · rw [if_neg (hday ∘ htrading.mp), if_neg hday]

/-- The walk backward finds the last trading day. -/
theorem previousTradingDateKey_eq {day : Int} (h : Spelled (tradingDayBefore day)) :
    previousTradingDateKey zone (civilDay day) = .ok (civilDay (tradingDayBefore day)) := by
  have hwalk : tradingDateBefore zone 7 (civilDay day) =
      some (civilDay (tradingDayBefore day)) := by
    have htwo : day - 1 - 1 = day - 2 := by omega
    have hthree : day - 2 - 1 = day - 3 := by omega
    unfold Spelled tradingDayBefore at *
    by_cases hone : Trading (day - 1)
    · rw [if_pos hone] at h ⊢
      rw [zone.tradingDateBefore_succ (by omega), if_pos hone]
    rw [if_neg hone] at h ⊢
    by_cases hnext : Trading (day - 2)
    · rw [if_pos hnext] at h ⊢
      rw [zone.tradingDateBefore_succ (by omega), if_neg hone,
        zone.tradingDateBefore_succ (by omega), htwo, if_pos hnext]
    rw [if_neg hnext] at h ⊢
    have hlast : Trading (day - 3) := by
      unfold Trading at *
      omega
    rw [zone.tradingDateBefore_succ (by omega), if_neg hone,
      zone.tradingDateBefore_succ (by omega), htwo, if_neg hnext,
      zone.tradingDateBefore_succ (by omega), hthree, if_pos hlast]
  rw [previousTradingDateKey, hwalk, Option.elim_some]

/-- The instants of a trading day's session. -/
def openAt (day : Int) : Int := cairoEpochFor zone (civilDay day) marketOpen.1 marketOpen.2

def closeAt (day : Int) : Int := cairoEpochFor zone (civilDay day) marketClose.1 marketClose.2

end CairoClock

/-! ## The walls of Cairo -/

namespace CairoZone

variable (zone : CairoZone)

/-- A wall time of the day is found on its day by going back the offset in effect there. -/
theorem wall_sub_offset {target day ofDay : Int} (h : target = day * msPerDay + ofDay)
    (hmorning : 4 * msPerHour ≤ ofDay) (hevening : ofDay < 20 * msPerHour) :
    zone.wall (target - zone.offset target) = target := by
  have hoffset := zone.offset_mem target
  have hcorrected := zone.offset_mem (target - zone.offset target)
  -- The correction lands within an hour of the target, where the offset is the same.
  have hsame : zone.offset (target - zone.offset target) = zone.offset target := by
    apply zone.steady
    all_goals
      simp only [msPerDay, msPerHour] at *
      omega
  rw [CairoClock.wall, hsame, Int.sub_add_cancel]

/-- A wall time of the day is found by the guess and its corrections. -/
theorem wall_cairoEpochFor {day : Int} (hday : -683003 < day) {hour minute : Nat}
    (hmorning : 4 ≤ hour) (hevening : hour < 20) (hminute : minute < 60) :
    zone.wall (cairoEpochFor zone (civilDay day) hour minute) =
      day * msPerDay + (hour * 60 + minute) * 60000 := by
  obtain ⟨target, htarget⟩ : ∃ target, target = day * msPerDay + (hour * 60 + minute) * 60000 :=
    ⟨_, rfl⟩
  have hdawn : 4 * msPerHour ≤ ((hour * 60 + minute) * 60000 : Int) ∧
      ((hour * 60 + minute) * 60000 : Int) < 20 * msPerHour := by
    unfold msPerHour
    omega
  have hwall := zone.wall_sub_offset htarget hdawn.1 hdawn.2
  have hsame : zone.offset (target - zone.offset target) = zone.offset target := by
    unfold CairoClock.wall at hwall
    omega
  rw [zone.cairoEpochFor_eq hday htarget, hsame, hwall, htarget]

theorem day_cairoEpochFor {day : Int} (hday : -683003 < day) {hour minute : Nat}
    (hmorning : 4 ≤ hour) (hevening : hour < 20) (hminute : minute < 60) :
    zone.day (cairoEpochFor zone (civilDay day) hour minute) = day := by
  apply zone.day_eq (zone.wall_cairoEpochFor hday hmorning hevening hminute)
  · omega
  · unfold msPerDay
    omega

/-- An instant of a later day comes after an instant of an earlier one. -/
theorem lt_of_day_lt {t u : Int} (h : zone.day t < zone.day u) : t < u := by
  apply Int.not_le.mp
  intro hle
  exact absurd (zone.day_mono u t hle) (Int.not_le.mpr h)

/-! ## Sessions -/

/-- The day whose session is displayed at an instant. -/
def sessionDay (t : Int) : Int :=
  if Trading (zone.day t) ∧ zone.openAt (zone.day t) ≤ t then zone.day t
  else tradingDayBefore (zone.day t)

/-- The exchange is open. -/
def Open (t : Int) : Prop :=
  Trading (zone.day t) ∧ zone.openAt (zone.day t) ≤ t ∧ t < zone.closeAt (zone.day t)

instance (t : Int) : Decidable (zone.Open t) := inferInstanceAs (Decidable (_ ∧ _ ∧ _))

def stateAt (t : Int) : MarketState := if zone.Open t then .open else .closed

theorem day_closeAt {day : Int} (h : -683003 < day) : zone.day (zone.closeAt day) = day :=
  zone.day_cairoEpochFor h (by decide) (by decide) (by decide)

/-- The status of an instant, by its session. -/
theorem getMarketStatus_eq {t : Int} (h : -682990 ≤ zone.day t) :
    getMarketStatus zone t =
      .ok (statusOn zone (zone.stateAt t) (civilDay (zone.sessionDay t))) := by
  have hrange := sub_three_le_tradingDayBefore (zone.day t)
  have hspelled : Spelled (tradingDayBefore (zone.day t)) := by
    unfold Spelled
    omega
  have hprevious := zone.previousTradingDateKey_eq hspelled
  have htrading : isTradingDay (getCairoParts zone t).weekday = true ↔ Trading (zone.day t) := by
    unfold getCairoParts
    exact isTradingDay_iff (zone.day t)
  have htoday : cairoDateKey zone t = civilDay (zone.day t) := by
    unfold cairoDateKey getCairoParts CairoClock.day CairoClock.wall
    rfl
  have hopenAt : cairoEpochFor zone (civilDay (zone.day t)) marketOpen.1 marketOpen.2 =
      zone.openAt (zone.day t) := rfl
  have hcloseAt : cairoEpochFor zone (civilDay (zone.day t)) marketClose.1 marketClose.2 =
      zone.closeAt (zone.day t) := rfl
  have hopen : zone.Open t ↔ isTradingDay (getCairoParts zone t).weekday = true ∧
      zone.openAt (zone.day t) ≤ t ∧ t < zone.closeAt (zone.day t) := by
    rw [htrading, Open]
  unfold getMarketStatus
  dsimp only
  rw [htoday, hprevious, hopenAt, hcloseAt]
  split_ifs with hlive hbefore hafter
  · have hsession : zone.sessionDay t = zone.day t := if_pos ⟨htrading.mp hlive.1, hlive.2.1⟩
    have hstate : zone.stateAt t = .open := if_pos (hopen.mpr hlive)
    rw [hstate, hsession]
  · have hsession : zone.sessionDay t = tradingDayBefore (zone.day t) :=
      if_neg fun hshown => absurd hbefore.2 (Int.not_lt.mpr hshown.2)
    have hstate : zone.stateAt t = .closed := if_neg (hlive ∘ hopen.mp)
    rw [hstate, hsession, Except.map]
  · have hsession : zone.sessionDay t = zone.day t :=
      if_pos ⟨htrading.mp hafter.1, Int.not_lt.mp fun hlt => hbefore ⟨hafter.1, hlt⟩⟩
    have hstate : zone.stateAt t = .closed := if_neg (hlive ∘ hopen.mp)
    rw [hstate, hsession]
  · have hday : ¬Trading (zone.day t) := by
      rw [← htrading]
      intro hday
      have hlate : ¬t < zone.openAt (zone.day t) := fun hlt => hbefore ⟨hday, hlt⟩
      have hearly : ¬zone.closeAt (zone.day t) ≤ t := fun hle => hafter ⟨hday, hle⟩
      exact hlive ⟨hday, Int.not_lt.mp hlate, Int.not_le.mp hearly⟩
    have hsession : zone.sessionDay t = tradingDayBefore (zone.day t) :=
      if_neg fun hshown => hday hshown.1
    have hstate : zone.stateAt t = .closed := if_neg (hlive ∘ hopen.mp)
    rw [hstate, hsession, Except.map]

theorem sessionDay_le (t : Int) : zone.sessionDay t ≤ zone.day t := by
  unfold sessionDay
  split
  · exact le_rfl
  · exact (tradingDayBefore_lt _).le

theorem sub_three_le_sessionDay (t : Int) : zone.day t - 3 ≤ zone.sessionDay t := by
  unfold sessionDay
  split
  · omega
  · exact sub_three_le_tradingDayBefore _

theorem trading_sessionDay (t : Int) : Trading (zone.sessionDay t) := by
  unfold sessionDay
  split
  · rename_i hshown
    exact hshown.1
  · exact trading_tradingDayBefore _

/-- Sessions are displayed in the order of their days. -/
theorem sessionDay_mono {t u : Int} (h : t ≤ u) : zone.sessionDay t ≤ zone.sessionDay u := by
  have hday : zone.day t ≤ zone.day u := zone.day_mono t u h
  by_cases hu : Trading (zone.day u) ∧ zone.openAt (zone.day u) ≤ u
  · have hsession : zone.sessionDay u = zone.day u := if_pos hu
    rw [hsession]
    exact (zone.sessionDay_le t).trans hday
  · have hsession : zone.sessionDay u = tradingDayBefore (zone.day u) := if_neg hu
    rw [hsession]
    apply le_tradingDayBefore (zone.trading_sessionDay t)
    rcases hday.lt_or_eq with hlt | heq
    · exact (zone.sessionDay_le t).trans_lt hlt
    · have hbefore : ¬(Trading (zone.day t) ∧ zone.openAt (zone.day t) ≤ t) := by
        rw [heq]
        exact fun hshown => hu ⟨hshown.1, hshown.2.trans h⟩
      have hsession' : zone.sessionDay t = tradingDayBefore (zone.day t) := if_neg hbefore
      rw [hsession', heq]
      exact tradingDayBefore_lt _

/-- While the exchange is open it displays the session of the day. -/
theorem Open.sessionDay {t : Int} (h : zone.Open t) : zone.sessionDay t = zone.day t :=
  if_pos ⟨h.1, h.2.1⟩

/-- While the exchange is closed the session on display has closed. -/
theorem closeAt_sessionDay_le {t : Int} (h : -682990 ≤ zone.day t) (hclosed : ¬zone.Open t) :
    zone.closeAt (zone.sessionDay t) ≤ t := by
  by_cases hshown : Trading (zone.day t) ∧ zone.openAt (zone.day t) ≤ t
  · have hsession : zone.sessionDay t = zone.day t := if_pos hshown
    rw [hsession]
    exact Int.not_lt.mp fun hlt => hclosed ⟨hshown.1, hshown.2, hlt⟩
  · have hsession : zone.sessionDay t = tradingDayBefore (zone.day t) := if_neg hshown
    have hrange := sub_three_le_tradingDayBefore (zone.day t)
    apply Int.le_of_lt
    apply zone.lt_of_day_lt
    rw [hsession, zone.day_closeAt (by omega)]
    exact tradingDayBefore_lt _

/-- A session that has closed stays closed. -/
theorem not_open_of_sessionDay_eq {t u : Int} (ht : -682990 ≤ zone.day t) (h : t ≤ u)
    (hclosed : ¬zone.Open t) (heq : zone.sessionDay t = zone.sessionDay u) : ¬zone.Open u := by
  intro hopen
  have hshown := zone.closeAt_sessionDay_le ht hclosed
  rw [heq, Open.sessionDay zone hopen] at hshown
  exact absurd hopen.2.2 (Int.not_lt.mpr (hshown.trans h))

/-- The browser's clock starts at the epoch. -/
theorem day_nonneg (t : Nat) : 0 ≤ zone.day t := by
  have hoffset := zone.offset_mem t
  unfold CairoClock.day CairoClock.wall msPerDay
  unfold msPerHour at hoffset
  omega

end CairoZone

/-! ## The calendar -/

/-- The days the browser's clock can show always have a session to display. -/
theorem getMarketStatus_ok (zone : CairoZone) (now : Nat) :
    (getMarketStatus zone now).toOption.isSome := by
  have hday := zone.day_nonneg now
  rw [zone.getMarketStatus_eq (by omega)]
  exact rfl

def marketCalendar (zone : CairoZone) : Calendar := fun now =>
  (getMarketStatus zone now).toOption.get (getMarketStatus_ok zone now)

theorem statusOn_state (zone : CairoZone) (state : MarketState) (date : CivilDate) :
    (statusOn zone state date).state = state := rfl

theorem statusOn_sessionDateKey (zone : CairoZone) (state : MarketState) (date : CivilDate) :
    (statusOn zone state date).sessionDateKey = date.key := rfl

theorem statusOn_sessionOpenAt (zone : CairoZone) (state : MarketState) (day : Int) :
    (statusOn zone state (civilDay day)).sessionOpenAt = (zone.openAt day).toNat := by
  rw [statusOn, CairoClock.openAt]

theorem statusOn_sessionCloseAt (zone : CairoZone) (state : MarketState) (day : Int) :
    (statusOn zone state (civilDay day)).sessionCloseAt = (zone.closeAt day).toNat := by
  rw [statusOn, CairoClock.closeAt]

theorem marketCalendar_eq (zone : CairoZone) (now : Nat) :
    marketCalendar zone now = statusOn zone (zone.stateAt now)
      (civilDay (zone.sessionDay now)) := by
  have hday := zone.day_nonneg now
  have hstatus := zone.getMarketStatus_eq (t := now) (by omega)
  unfold marketCalendar
  simp only [hstatus, Except.toOption, Option.get_some]

/-- What the source relies on of a calendar. -/
structure Calendar.Lawful (calendar : Calendar) : Prop where
  /-- A session that is displayed again was displayed in between. -/
  recurs : ∀ t u v, t ≤ u → u ≤ v →
    (calendar t).sessionDateKey = (calendar v).sessionDateKey →
    (calendar u).sessionDateKey = (calendar t).sessionDateKey
  bounds : ∀ t u, (calendar t).sessionDateKey = (calendar u).sessionDateKey →
    (calendar t).sessionOpenAt = (calendar u).sessionOpenAt ∧
      (calendar t).sessionCloseAt = (calendar u).sessionCloseAt
  /-- A session that has closed stays closed. -/
  closed : ∀ t u, t ≤ u → (calendar t).sessionDateKey = (calendar u).sessionDateKey →
    (calendar t).state = .closed → (calendar u).state = .closed
  within : ∀ t, (calendar t).state = .open → t < (calendar t).sessionCloseAt

theorem marketCalendar_lawful (zone : CairoZone) : (marketCalendar zone).Lawful := by
  have hrange (t : Nat) : -683003 ≤ zone.sessionDay t := by
    have hday := zone.day_nonneg t
    have hsession := zone.sub_three_le_sessionDay t
    omega
  have hkey (t u : Nat) : (marketCalendar zone t).sessionDateKey =
      (marketCalendar zone u).sessionDateKey ↔ zone.sessionDay t = zone.sessionDay u := by
    rw [marketCalendar_eq, marketCalendar_eq, statusOn_sessionDateKey, statusOn_sessionDateKey]
    exact ⟨civilDay_key_injective (hrange t) (hrange u), fun heq => by rw [heq]⟩
  have hstate (t : Nat) : (marketCalendar zone t).state = .closed ↔ ¬zone.Open t := by
    rw [marketCalendar_eq, statusOn_state, CairoZone.stateAt]
    split <;> simp only [*, reduceCtorEq, not_true_eq_false, not_false_eq_true]
  refine ⟨fun t u v htu huv heq => ?_, fun t u heq => ?_, fun t u htu heq hclosed => ?_,
    fun t hopen => ?_⟩
  · rw [hkey] at heq ⊢
    exact le_antisymm ((zone.sessionDay_mono (by omega)).trans heq.ge)
      (zone.sessionDay_mono (by omega))
  · rw [hkey] at heq
    rw [marketCalendar_eq, marketCalendar_eq, heq]
    simp only [statusOn_sessionOpenAt, statusOn_sessionCloseAt, and_self]
  · have hday := zone.day_nonneg t
    rw [hkey] at heq
    rw [hstate] at hclosed ⊢
    exact zone.not_open_of_sessionDay_eq (by omega) (by omega) hclosed heq
  · have hlive : zone.Open t := by
      by_contra hclosed
      rw [(hstate t).mpr hclosed] at hopen
      exact absurd hopen nofun
    rw [marketCalendar_eq, statusOn_sessionCloseAt, CairoZone.Open.sessionDay zone hlive]
    exact Int.lt_toNat.mpr hlive.2.2

/-- Cairo in winter. -/
def winterTime : CairoZone where
  offset _ := 2 * msPerHour
  offset_mem _ := .inl rfl
  day_mono _ _ h := Int.ediv_le_ediv (by decide) (Int.add_le_add_right h _)
  steady _ _ _ _ _ _ _ := rfl

/-- On Sunday, the 4th of January 2026, the exchange opens at eight in the morning of UTC. -/
example : (List.map (fun now => ((marketCalendar winterTime now).state,
    (marketCalendar winterTime now).sessionDateKey)) [1767513599999, 1767513600000]) =
    [(.closed, "2026-01-01"), (.open, "2026-01-04")] := by decide +kernel

end Tckr.MarketWatch
