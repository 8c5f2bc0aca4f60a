import Mathlib.Order.Bounds.Defs
import Tckr.MarketWatch.Data.MarketCalendar

/-!
# The trading week

The status of an instant with the opening that follows it. Sessions are laid out one
after another, one on every trading day, and each instant lies in a session or between
two: the four cases of the status describe the same layout from every instant of it.
-/

namespace Tckr.MarketWatch

namespace TradingWeek

open CairoZone

/-- `MarketStatus`, with the opening that the simulation does not read. -/
inductive MarketStatus
  | open (sessionDateKey : String) (sessionOpenAt sessionCloseAt : Int)
  | closed (sessionDateKey : String) (sessionOpenAt sessionCloseAt nextOpenAt : Int)
  deriving DecidableEq, Repr

section Calendar

variable (zone : CairoClock)

/-- Walk forward to the nearest trading day, at most the given number of days. -/
def tradingDateAfter : Nat → CivilDate → Option CivilDate
  | 0, _ => none
  | fuel + 1, date =>
      let candidate := shiftDateKey zone date 1
      if isTradingDay (weekdayOfDateKey zone candidate) then some candidate
      else tradingDateAfter fuel candidate

def nextTradingDateKey (date : CivilDate) : Except String CivilDate :=
  (tradingDateAfter zone 7 date).elim
    (.error ("marketCalendar: no trading day found within 7 days after " ++ date.key)) .ok

def openAtOn (date : CivilDate) : Int := cairoEpochFor zone date marketOpen.1 marketOpen.2

def closeAtOn (date : CivilDate) : Int := cairoEpochFor zone date marketClose.1 marketClose.2

def getMarketStatus (nowMs : Int) : Except String MarketStatus :=
  let today := cairoDateKey zone nowMs
  let weekday := (getCairoParts zone nowMs).weekday
  let openAtToday := openAtOn zone today
  let closeAtToday := closeAtOn zone today
  if isTradingDay weekday ∧ openAtToday ≤ nowMs ∧ nowMs < closeAtToday then
    .ok (.open today.key openAtToday closeAtToday)
  else if isTradingDay weekday ∧ nowMs < openAtToday then do
    let prevKey ← previousTradingDateKey zone today
    return .closed prevKey.key (openAtOn zone prevKey) (closeAtOn zone prevKey) openAtToday
  else if isTradingDay weekday ∧ closeAtToday ≤ nowMs then do
    let nextKey ← nextTradingDateKey zone today
    return .closed today.key openAtToday closeAtToday (openAtOn zone nextKey)
  else do
    let prevKey ← previousTradingDateKey zone today
    let nextKey ← nextTradingDateKey zone today
    return .closed prevKey.key (openAtOn zone prevKey) (closeAtOn zone prevKey)
      (openAtOn zone nextKey)

end Calendar

/-! ## The trading day after -/

/-- The first trading day after a day. -/
def tradingDayAfter (day : Int) : Int :=
  if Trading (day + 1) then day + 1 else if Trading (day + 2) then day + 2 else day + 3

/-- No trading day is skipped. -/
theorem isLeast_tradingDayAfter (day : Int) :
    IsLeast {later | Trading later ∧ day < later} (tradingDayAfter day) := by
  unfold tradingDayAfter
  split_ifs with hone htwo
  · refine ⟨⟨hone, by omega⟩, fun later hlater => ?_⟩
    have hlt := hlater.2
    omega
  · refine ⟨⟨htwo, by omega⟩, fun later hlater => ?_⟩
    have hne : later ≠ day + 1 := fun heq => hone (heq ▸ hlater.1)
    have hlt := hlater.2
    omega
  · refine ⟨⟨?_, by omega⟩, fun later hlater => ?_⟩
    · unfold Trading at *
      omega
    · have hne : later ≠ day + 1 := fun heq => hone (heq ▸ hlater.1)
      have hne' : later ≠ day + 2 := fun heq => htwo (heq ▸ hlater.1)
      have hlt := hlater.2
      omega

theorem trading_tradingDayAfter (day : Int) : Trading (tradingDayAfter day) :=
  (isLeast_tradingDayAfter day).1.1

theorem lt_tradingDayAfter (day : Int) : day < tradingDayAfter day :=
  (isLeast_tradingDayAfter day).1.2

/-- Between a trading day and the one after it the two walks meet. -/
theorem tradingDayAfter_eq {day before after : Int} (hafter : after = tradingDayAfter before)
    (hle : before ≤ day) (hlt : day < after) :
    tradingDayAfter day = after := by
  have hleast := isLeast_tradingDayAfter before
  rw [← hafter] at hleast
  apply (isLeast_tradingDayAfter day).unique
  refine ⟨⟨hleast.1.1, hlt⟩, fun later hlater => hleast.2 ⟨hlater.1, ?_⟩⟩
  exact hle.trans_lt hlater.2

theorem tradingDayBefore_eq {day before after : Int} (hbefore : Trading before)
    (hafter : after = tradingDayAfter before) (hlt : before < day) (hle : day ≤ after) :
    tradingDayBefore day = before := by
  apply le_antisymm _ (le_tradingDayBefore hbefore hlt)
  by_contra hne
  have hleast := (isLeast_tradingDayAfter before).2 ⟨trading_tradingDayBefore day, by omega⟩
  have hearlier := tradingDayBefore_lt day
  omega

/-- The day after the trading day before is the day itself, or comes after it. -/
theorem tradingDayAfter_tradingDayBefore {day : Int} (h : Trading day) :
    tradingDayAfter (tradingDayBefore day) = day := by
  have hlt := tradingDayBefore_lt day
  apply (isLeast_tradingDayAfter (tradingDayBefore day)).unique
  refine ⟨⟨h, hlt⟩, fun later hlater => ?_⟩
  by_contra hne
  have hle := le_tradingDayBefore hlater.1 (Int.not_le.mp hne)
  have hafter := hlater.2
  omega

/-! ## The walk forward -/

section Sessions

variable (zone : CairoClock)

/-- One day of the walk forward. -/
theorem tradingDateAfter_succ {day : Int} (h : -683003 < day) (fuel : Nat) :
    tradingDateAfter zone (fuel + 1) (civilDay day) =
      if Trading (day + 1) then some (civilDay (day + 1))
      else tradingDateAfter zone fuel (civilDay (day + 1)) := by
  have hforward : -683003 < day + 1 := by omega
  have htrading := zone.isTradingDay_weekdayOfDateKey hforward
  rw [tradingDateAfter, zone.shiftDateKey_eq h]
  by_cases hday : Trading (day + 1)
  · rw [if_pos (htrading.mpr hday), if_pos hday]
  · rw [if_neg (hday ∘ htrading.mp), if_neg hday]

/-- The walk forward finds the next trading day. -/
theorem nextTradingDateKey_eq {day : Int} (h : Spelled day) :
    nextTradingDateKey zone (civilDay day) = .ok (civilDay (tradingDayAfter day)) := by
  have hwalk : tradingDateAfter zone 7 (civilDay day) = some (civilDay (tradingDayAfter day)) := by
    have htwo : day + 1 + 1 = day + 2 := by omega
    have hthree : day + 2 + 1 = day + 3 := by omega
    unfold Spelled at h
    rw [tradingDateAfter_succ zone h, tradingDateAfter_succ zone (by omega), htwo,
      tradingDateAfter_succ zone (by omega), hthree, tradingDayAfter]
    split_ifs with hone hnext hlast
    · rfl
    · rfl
    · rfl
    · unfold Trading at *
      omega
  rw [nextTradingDateKey, hwalk, Option.elim_some]

/-! ## Sessions -/

/-- The status during the session of a day. -/
def openRecord (day : Int) : MarketStatus :=
  .open (civilDay day).key (zone.openAt day) (zone.closeAt day)

/-- The status from the close of a day's session to the next opening. -/
def closedRecord (day : Int) : MarketStatus :=
  .closed (civilDay day).key (zone.openAt day) (zone.closeAt day)
    (zone.openAt (tradingDayAfter day))

/-- A wall time of a day comes two or three hours before the one of UTC. -/
theorem cairoEpochFor_mem {day : Int} (h : Spelled day) (hour minute : Nat) :
    day * msPerDay + (hour * 60 + minute) * 60000 - 3 * msPerHour ≤
        cairoEpochFor zone (civilDay day) hour minute ∧
      cairoEpochFor zone (civilDay day) hour minute ≤
        day * msPerDay + (hour * 60 + minute) * 60000 - 2 * msPerHour := by
  rw [zone.cairoEpochFor_eq h rfl]
  generalize day * msPerDay + ((hour : Int) * 60 + minute) * 60000 = target
  have hmem := zone.offset_mem (target - zone.offset target)
  unfold msPerHour at *
  omega

theorem openAt_mem {day : Int} (h : Spelled day) :
    day * msPerDay + 7 * msPerHour ≤ zone.openAt day ∧
      zone.openAt day ≤ day * msPerDay + 8 * msPerHour := by
  have hmem := cairoEpochFor_mem zone h 10 0
  have hopenAt : zone.openAt day = cairoEpochFor zone (civilDay day) 10 0 := rfl
  unfold msPerHour at *
  omega

theorem closeAt_mem {day : Int} (h : Spelled day) :
    day * msPerDay + 11 * msPerHour < zone.closeAt day ∧
      zone.closeAt day < day * msPerDay + 13 * msPerHour := by
  have hmem := cairoEpochFor_mem zone h 14 30
  have hcloseAt : zone.closeAt day = cairoEpochFor zone (civilDay day) 14 30 := rfl
  unfold msPerHour at *
  omega

theorem openAt_lt_closeAt {day : Int} (h : Spelled day) : zone.openAt day < zone.closeAt day := by
  have hopen := (openAt_mem zone h).2
  have hclose := (closeAt_mem zone h).1
  unfold msPerHour at *
  omega

theorem spelled_tradingDayAfter {day : Int} (h : Spelled day) : Spelled (tradingDayAfter day) :=
  Int.lt_trans h (lt_tradingDayAfter day)

/-- A session ends before the next one begins. -/
theorem closeAt_lt_openAt {day : Int} (h : Spelled day) :
    zone.closeAt day < zone.openAt (tradingDayAfter day) := by
  have hclose := (closeAt_mem zone h).2
  have hopen := (openAt_mem zone (spelled_tradingDayAfter h)).1
  have hlater := lt_tradingDayAfter day
  unfold msPerHour msPerDay at *
  omega

/-- The day on the wall starts two or three hours before the day of UTC. -/
theorem day_mem (t : Int) : zone.day t * msPerDay ≤ t + 3 * msPerHour ∧
    t + 2 * msPerHour < (zone.day t + 1) * msPerDay := by
  have hmem := zone.offset_mem t
  unfold CairoClock.day CairoClock.wall
  unfold msPerHour msPerDay at *
  omega

theorem isTradingDay_getCairoParts (t : Int) :
    isTradingDay (getCairoParts zone t).weekday = true ↔ Trading (zone.day t) := by
  unfold getCairoParts
  exact isTradingDay_iff (zone.day t)

theorem cairoDateKey_eq (t : Int) : cairoDateKey zone t = civilDay (zone.day t) := rfl

theorem openAtOn_eq (day : Int) : openAtOn zone (civilDay day) = zone.openAt day := rfl

theorem closeAtOn_eq (day : Int) : closeAtOn zone (civilDay day) = zone.closeAt day := rfl

/-- During a session the status is open. -/
theorem getMarketStatus_open {day t : Int} (h : Spelled day) (hday : Trading day)
    (hopen : zone.openAt day ≤ t) (hclose : t < zone.closeAt day) :
    getMarketStatus zone t = .ok (openRecord zone day) := by
  have htoday : zone.day t = day := by
    have hday := day_mem zone t
    have hlower := (openAt_mem zone h).1
    have hupper := (closeAt_mem zone h).2
    unfold msPerHour msPerDay at *
    omega
  have htrading := (isTradingDay_getCairoParts zone t).mpr (htoday.symm ▸ hday)
  unfold getMarketStatus
  dsimp only
  rw [cairoDateKey_eq, htoday, openAtOn_eq, closeAtOn_eq, if_pos ⟨htrading, hopen, hclose⟩]
  exact rfl

/-- From a close to the next opening the status is closed and shows the session that closed. -/
theorem getMarketStatus_closed {day t : Int} (h : Spelled day) (hday : Trading day)
    (hclose : zone.closeAt day ≤ t) (hopen : t < zone.openAt (tradingDayAfter day)) :
    getMarketStatus zone t = .ok (closedRecord zone day) := by
  obtain ⟨next, hnext⟩ : ∃ next, next = tradingDayAfter day := ⟨_, rfl⟩
  have hspelled : Spelled next := hnext ▸ spelled_tradingDayAfter h
  have hrange : day ≤ zone.day t ∧ zone.day t ≤ next := by
    have hmem := day_mem zone t
    have hlower := (closeAt_mem zone h).1
    have hupper := (openAt_mem zone hspelled).2
    rw [← hnext] at hopen
    unfold msPerHour msPerDay at *
    omega
  have htrading := isTradingDay_getCairoParts zone t
  unfold getMarketStatus closedRecord
  dsimp only
  rw [← hnext] at hopen ⊢
  rw [cairoDateKey_eq, openAtOn_eq, closeAtOn_eq]
  rcases hrange.1.lt_or_eq with hlater | htoday
  · have hbefore : tradingDayBefore (zone.day t) = day :=
      tradingDayBefore_eq hday hnext hlater hrange.2
    have hprevious := zone.previousTradingDateKey_eq (hbefore.symm ▸ h)
    rw [hbefore] at hprevious
    rcases hrange.2.lt_or_eq with hearlier | htoday
    · -- A day of the weekend.
      have hweekend : ¬isTradingDay (getCairoParts zone t).weekday = true := by
        rw [htrading]
        intro hweek
        have hleast := (isLeast_tradingDayAfter day).2 ⟨hweek, hlater⟩
        omega
      have hafter := nextTradingDateKey_eq zone (hlater.trans' h)
      rw [tradingDayAfter_eq hnext hrange.1 hearlier] at hafter
      rw [if_neg (hweekend ·.1), if_neg (hweekend ·.1), if_neg (hweekend ·.1), hprevious, hafter]
      exact rfl
    · -- The next trading day, before it opens.
      have hweek : isTradingDay (getCairoParts zone t).weekday = true := by
        rw [htrading, htoday, hnext]
        exact trading_tradingDayAfter day
      rw [hprevious, htoday, if_neg fun hlive => absurd hlive.2.1 (Int.not_le.mpr hopen),
        if_pos ⟨hweek, hopen⟩]
      exact rfl
  · -- The trading day itself, after it closed.
    have hweek : isTradingDay (getCairoParts zone t).weekday = true := by
      rw [htrading, ← htoday]
      exact hday
    have hlate : ¬t < zone.openAt day :=
      Int.not_lt.mpr ((openAt_lt_closeAt zone h).le.trans hclose)
    rw [← htoday, if_neg fun hlive => absurd hlive.2.2 (Int.not_lt.mpr hclose),
      if_neg (hlate ·.2), if_pos ⟨hweek, hclose⟩, nextTradingDateKey_eq zone h, ← hnext]
    exact rfl

/-- Every instant lies between the opening of a session and that of the next. -/
theorem exists_session {t : Int} (h : Spelled (tradingDayBefore (zone.day t))) :
    ∃ day, Spelled day ∧ Trading day ∧ zone.openAt day ≤ t ∧
      t < zone.openAt (tradingDayAfter day) := by
  have hmem := day_mem zone t
  have hbefore := tradingDayBefore_lt (zone.day t)
  have hspelled : Spelled (zone.day t) := Int.lt_trans h hbefore
  have hlater {day : Int} (hday : zone.day t < day) : t < zone.openAt day := by
    have hopen := (openAt_mem zone (Int.lt_trans hspelled hday)).1
    unfold msPerHour msPerDay at *
    omega
  by_cases hshown : Trading (zone.day t) ∧ zone.openAt (zone.day t) ≤ t
  · exact ⟨zone.day t, hspelled, hshown.1, hshown.2, hlater (lt_tradingDayAfter _)⟩
  · refine ⟨tradingDayBefore (zone.day t), h, trading_tradingDayBefore _, ?_, ?_⟩
    · have hopen := (openAt_mem zone h).2
      unfold msPerHour msPerDay at *
      omega
    · by_cases hday : Trading (zone.day t)
      · rw [tradingDayAfter_tradingDayBefore hday]
        exact Int.not_le.mp fun hopen => hshown ⟨hday, hopen⟩
      · apply hlater
        have hafter := trading_tradingDayAfter (tradingDayBefore (zone.day t))
        have hleast := lt_tradingDayAfter (tradingDayBefore (zone.day t))
        by_contra hearly
        have hne : tradingDayAfter (tradingDayBefore (zone.day t)) ≠ zone.day t :=
          fun heq => hday (heq ▸ hafter)
        have hle := le_tradingDayBefore hafter (by omega : _ < zone.day t)
        omega

/-- Where an instant lies in the week of sessions, and what its status says of it. -/
structure LiesAt (t day : Int) : Prop where
  trading : Trading day
  /-- The instant lies in the session, or between it and the next one; then every instant
  there has the same status. -/
  displayed : getMarketStatus zone t = .ok (openRecord zone day) ∧
      zone.openAt day ≤ t ∧ t < zone.closeAt day ∨
    getMarketStatus zone t = .ok (closedRecord zone day) ∧
      zone.closeAt day ≤ t ∧ t < zone.openAt (tradingDayAfter day) ∧
      ∀ u, zone.closeAt day ≤ u → u < zone.openAt (tradingDayAfter day) →
        getMarketStatus zone u = getMarketStatus zone t
  /-- The next session opens at the instant announced. -/
  reopens : getMarketStatus zone (zone.openAt (tradingDayAfter day)) =
    .ok (openRecord zone (tradingDayAfter day))
  /-- It is the one of the next trading day. -/
  next : IsLeast {later | Trading later ∧ day < later} (tradingDayAfter day)
  lasts : zone.openAt day < zone.closeAt day
  apart : zone.closeAt day < zone.openAt (tradingDayAfter day)

end Sessions

/-- A status without the next opening. -/
def MarketStatus.forget : MarketStatus → MarketWatch.MarketStatus
  | .open sessionDateKey sessionOpenAt sessionCloseAt =>
      { state := .open
        sessionDateKey := sessionDateKey
        sessionOpenAt := sessionOpenAt.toNat
        sessionCloseAt := sessionCloseAt.toNat }
  | .closed sessionDateKey sessionOpenAt sessionCloseAt _ =>
      { state := .closed
        sessionDateKey := sessionDateKey
        sessionOpenAt := sessionOpenAt.toNat
        sessionCloseAt := sessionCloseAt.toNat }

/-- The simulation reads the same status, without the next opening. -/
theorem forget_getMarketStatus (zone : CairoClock) {t : Int}
    (h : Spelled (tradingDayBefore (zone.day t))) :
    (getMarketStatus zone t).map MarketStatus.forget = MarketWatch.getMarketStatus zone t := by
  have hspelled : Spelled (zone.day t) := Int.lt_trans h (tradingDayBefore_lt _)
  have hopenAt : cairoEpochFor zone (civilDay (zone.day t)) marketOpen.1 marketOpen.2 =
      openAtOn zone (civilDay (zone.day t)) := rfl
  have hcloseAt : cairoEpochFor zone (civilDay (zone.day t)) marketClose.1 marketClose.2 =
      closeAtOn zone (civilDay (zone.day t)) := rfl
  unfold getMarketStatus MarketWatch.getMarketStatus
  dsimp only
  rw [cairoDateKey_eq, zone.previousTradingDateKey_eq h, nextTradingDateKey_eq zone hspelled,
    hopenAt, hcloseAt]
  split_ifs with hlive hbefore hafter
  · exact rfl
  · exact rfl
  · exact rfl
  · exact rfl

end TradingWeek

end Tckr.MarketWatch
