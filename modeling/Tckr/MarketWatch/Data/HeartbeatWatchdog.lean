import Mathlib.Algebra.Order.Ring.Rat
import Mathlib.Tactic.Linarith
import Tckr.Core.Timers

/-!
# The heartbeat watchdog among the timers

The closure of `createHeartbeatWatchdog` with the timers it sets and clears. A schedule
says at which instants the watchdog is pulsed and stopped; between two calls every timer
that falls due fires, at its own instant. Where a call and a timer fall on one instant
either may come first, and the schedule says which.
-/

namespace Tckr.MarketWatch

/-- The variables of the closure, the timers, and when `onTimeout` was called. -/
structure WatchdogClosure where
  deadlineMs : ℚ
  handle : Option Nat := none
  stopped : Bool := false
  timers : Timers ℚ := {}
  timeouts : List ℚ := []

namespace WatchdogClosure

def arm (w : WatchdogClosure) (now : ℚ) : WatchdogClosure :=
  if w.stopped then w
  else
    let timers := match w.handle with
      | some handle => w.timers.clearTimeout handle
      | none => w.timers
    { w with
      handle := some timers.nextHandle
      timers := timers.setTimeout (now + w.deadlineMs) }

def createHeartbeatWatchdog (heartbeatIntervalMs now : ℚ) : WatchdogClosure :=
  arm { deadlineMs := heartbeatIntervalMs * 2 } now

def pulse (w : WatchdogClosure) (now : ℚ) : WatchdogClosure := w.arm now

def stop (w : WatchdogClosure) : WatchdogClosure :=
  let w := { w with stopped := true }
  match w.handle with
  | some handle => { w with timers := w.timers.clearTimeout handle, handle := none }
  | none => w

/-- The callback of the timer, which is spent. -/
def fire (w : WatchdogClosure) (timer : Nat × ℚ) : WatchdogClosure :=
  { w with
    timers := w.timers.clearTimeout timer.1
    handle := none
    stopped := true
    timeouts := w.timeouts ++ [timer.2] }

/-- At most so many timers fire, the earliest first, as long as one is due. -/
def fireDue (isDue : ℚ → Bool) : Nat → WatchdogClosure → WatchdogClosure
  | 0, w => w
  | n + 1, w => match w.timers.earliest? with
    | some timer => if isDue timer.2 then fireDue isDue n (w.fire timer) else w
    | none => w

/-- Every timer that is due fires. -/
def elapse (w : WatchdogClosure) (isDue : ℚ → Bool) : WatchdogClosure :=
  w.fireDue isDue w.timers.armed.length

end WatchdogClosure

/-! ## Schedules -/

/-- What the watchdog offers its owner. -/
inductive WatchdogCall
  | pulse
  | stop
  deriving DecidableEq

/-- A call, its instant, and whether a timer due at that instant fires before it. -/
structure ScheduledCall where
  instant : ℚ
  call : WatchdogCall
  timersFirst : Bool

/-- A timer due at `due` fires before the call. -/
def ScheduledCall.follows (c : ScheduledCall) (due : ℚ) : Bool :=
  due < c.instant || due = c.instant && c.timersFirst

/-- When a watchdog is made, and the calls it gets from then on. -/
structure WatchdogSchedule where
  createdAt : ℚ
  calls : List ScheduledCall
  ordered : (createdAt :: calls.map ScheduledCall.instant).Pairwise (· ≤ ·)

namespace WatchdogClosure

def perform (w : WatchdogClosure) (c : ScheduledCall) : WatchdogClosure :=
  match c.call with
  | .pulse => w.pulse c.instant
  | .stop => w.stop

/-- The time up to a call passes, then the call is made. -/
def runCall (w : WatchdogClosure) (c : ScheduledCall) : WatchdogClosure :=
  (w.elapse c.follows).perform c

def runCalls (w : WatchdogClosure) (calls : List ScheduledCall) : WatchdogClosure :=
  calls.foldl runCall w

/-- All further time passes. -/
def expire (w : WatchdogClosure) : WatchdogClosure := w.elapse fun _ => true

end WatchdogClosure

namespace WatchdogSchedule

open WatchdogClosure

/-- The watchdog after some of the calls. -/
def after (schedule : WatchdogSchedule) (heartbeatIntervalMs : ℚ) (calls : List ScheduledCall) :
    WatchdogClosure :=
  (createHeartbeatWatchdog heartbeatIntervalMs schedule.createdAt).runCalls calls

/-- The instants at which `onTimeout` fires. -/
def timeouts (schedule : WatchdogSchedule) (heartbeatIntervalMs : ℚ) : List ℚ :=
  (schedule.after heartbeatIntervalMs schedule.calls).expire.timeouts

end WatchdogSchedule

/-! ## What a watchdog is for -/

/-- The instant of the last pulse, or of the construction. -/
def latestPulse (createdAt : ℚ) (calls : List ScheduledCall) : ℚ :=
  calls.foldl (fun latest c => if c.call = .pulse then c.instant else latest) createdAt

/-- The calls that come before whatever fires at an instant. -/
def callsBefore (calls : List ScheduledCall) (instant : ℚ) : List ScheduledCall :=
  calls.takeWhile fun c => !c.follows instant

/-- An instant that is so long after the latest pulse before it. -/
def Elapses (deadlineMs createdAt : ℚ) (calls : List ScheduledCall) (instant : ℚ) : Prop :=
  latestPulse createdAt (callsBefore calls instant) + deadlineMs = instant

/-- The first instant that is so long after the latest pulse before it. -/
def FirstGap (deadlineMs createdAt : ℚ) (calls : List ScheduledCall) (instant : ℚ) : Prop :=
  Elapses deadlineMs createdAt calls instant ∧
    ∀ earlier < instant, ¬Elapses deadlineMs createdAt calls earlier

/-- No call stops the watchdog. -/
def Unstopped (calls : List ScheduledCall) : Prop := ∀ c ∈ calls, c.call ≠ .stop

/-! ## The closure's two states -/

namespace WatchdogClosure

/-- One timer is armed, and it is the one of the handle. -/
structure Waits (w : WatchdogClosure) (due : ℚ) : Prop where
  stopped : w.stopped = false
  armed : ∃ handle, w.handle = some handle ∧ w.timers.armed = [(handle, due)]
  timeouts : w.timeouts = []

/-- Nothing is armed and nothing will be. -/
structure Idle (w : WatchdogClosure) : Prop where
  stopped : w.stopped = true
  handle : w.handle = none
  armed : w.timers.armed = []

variable {w : WatchdogClosure} {due now : ℚ}

theorem waits_createHeartbeatWatchdog (heartbeatIntervalMs now : ℚ) :
    Waits (createHeartbeatWatchdog heartbeatIntervalMs now) (now + heartbeatIntervalMs * 2) :=
  ⟨rfl, ⟨_, rfl, rfl⟩, rfl⟩

/-- A pulse replaces the timer. -/
theorem Waits.pulse (h : w.Waits due) : (w.pulse now).Waits (now + w.deadlineMs) := by
  obtain ⟨handle, hhandle, harmed⟩ := h.armed
  have hcleared := Timers.clearTimeout_of_armed_eq harmed
  rw [WatchdogClosure.pulse, arm, h.stopped, hhandle]
  exact ⟨rfl, ⟨_, rfl, Timers.setTimeout_of_armed_eq_nil hcleared _⟩, h.timeouts⟩

theorem Waits.stop (h : w.Waits due) : w.stop.Idle ∧ w.stop.timeouts = [] := by
  obtain ⟨handle, hhandle, harmed⟩ := h.armed
  rw [WatchdogClosure.stop]
  dsimp only
  rw [hhandle]
  exact ⟨⟨rfl, rfl, Timers.clearTimeout_of_armed_eq harmed⟩, h.timeouts⟩

/-- What is not due stays armed. -/
theorem Waits.elapse_of_not_due (h : w.Waits due) {isDue : ℚ → Bool} (hdue : isDue due = false) :
    w.elapse isDue = w := by
  obtain ⟨handle, -, harmed⟩ := h.armed
  rw [elapse, harmed]
  simp [fireDue, Timers.earliest?_of_armed_eq harmed, hdue]

/-- What is due fires once, at its instant. -/
theorem Waits.elapse_of_due (h : w.Waits due) {isDue : ℚ → Bool} (hdue : isDue due = true) :
    (w.elapse isDue).Idle ∧ (w.elapse isDue).timeouts = [due] := by
  obtain ⟨handle, -, harmed⟩ := h.armed
  have hfired : w.elapse isDue = w.fire (handle, due) := by
    rw [elapse, harmed]
    simp [fireDue, Timers.earliest?_of_armed_eq harmed, hdue]
  rw [hfired]
  refine ⟨⟨rfl, rfl, Timers.clearTimeout_of_armed_eq harmed⟩, ?_⟩
  simp [fire, h.timeouts]

theorem Idle.elapse (h : w.Idle) (isDue : ℚ → Bool) : w.elapse isDue = w := by
  rw [WatchdogClosure.elapse, h.armed]
  rfl

/-- No call wakes a watchdog that has stopped. -/
theorem Idle.perform (h : w.Idle) (c : ScheduledCall) : w.perform c = w := by
  rw [WatchdogClosure.perform]
  cases c.call with
  | pulse => simp [WatchdogClosure.pulse, arm, h.stopped]
  | stop =>
    obtain ⟨deadlineMs, handle, stopped, timers, timeouts⟩ := w
    obtain ⟨rfl, rfl, harmed⟩ := h
    rfl

theorem Idle.runCall (h : w.Idle) (c : ScheduledCall) : w.runCall c = w := by
  rw [WatchdogClosure.runCall, h.elapse, h.perform]

theorem Idle.runCalls (h : w.Idle) (calls : List ScheduledCall) : w.runCalls calls = w := by
  induction calls with
  | nil => rfl
  | cons c calls ih => rw [WatchdogClosure.runCalls, List.foldl_cons, h.runCall]; exact ih

/-- A call leaves the watchdog waiting, if it is a pulse in time, or idle. -/
theorem Waits.runCall_or_idle (h : w.Waits due) (c : ScheduledCall) :
    (c.call ≠ .stop ∧ ∃ due, (w.runCall c).Waits due) ∨ (w.runCall c).Idle := by
  by_cases hfollows : c.follows due = true
  · have hidle := (h.elapse_of_due hfollows).1
    rw [WatchdogClosure.runCall, hidle.perform]
    exact Or.inr hidle
  · rw [WatchdogClosure.runCall, h.elapse_of_not_due (Bool.eq_false_iff.mpr hfollows),
      WatchdogClosure.perform]
    cases c.call with
    | pulse => exact Or.inl ⟨by simp, _, h.pulse⟩
    | stop => exact Or.inr h.stop.1

/-- A run that is not over has stopped nothing. -/
theorem Waits.runCalls_or_idle (h : w.Waits due) (calls : List ScheduledCall) :
    (Unstopped calls ∧ ∃ due, (w.runCalls calls).Waits due) ∨ (w.runCalls calls).Idle := by
  induction calls generalizing w due with
  | nil => exact Or.inl ⟨fun c hc => absurd hc List.not_mem_nil, due, h⟩
  | cons c calls ih =>
    rw [WatchdogClosure.runCalls, List.foldl_cons, ← WatchdogClosure.runCalls]
    obtain ⟨hcall, due', hwaits⟩ | hidle := h.runCall_or_idle c
    · obtain ⟨hunstopped, hrun⟩ | hidle := ih hwaits
      · exact Or.inl ⟨List.forall_mem_cons.mpr ⟨hcall, hunstopped⟩, hrun⟩
      · exact Or.inr hidle
    · rw [hidle.runCalls]
      exact Or.inr hidle

theorem pulse_deadlineMs : (w.pulse now).deadlineMs = w.deadlineMs := by
  rw [WatchdogClosure.pulse, arm]
  split
  · rfl
  · rfl

/-! ## One call after the other -/

/-- When a watchdog fires that was pulsed at `latest` and gets these calls. -/
def firstTimeout (deadlineMs : ℚ) : ℚ → List ScheduledCall → Option ℚ
  | latest, [] => some (latest + deadlineMs)
  | latest, c :: calls =>
    if c.follows (latest + deadlineMs) then some (latest + deadlineMs)
    else match c.call with
      | .pulse => firstTimeout deadlineMs c.instant calls
      | .stop => none

/-- The waiting watchdog fires there, or not at all. -/
theorem Waits.timeouts_expire {latest : ℚ} (h : w.Waits (latest + w.deadlineMs))
    (calls : List ScheduledCall) :
    (w.runCalls calls).expire.timeouts = (firstTimeout w.deadlineMs latest calls).toList := by
  induction calls generalizing w latest with
  | nil => exact (h.elapse_of_due rfl).2
  | cons c calls ih =>
    rw [runCalls, List.foldl_cons, ← runCalls, firstTimeout]
    by_cases hfollows : c.follows (latest + w.deadlineMs) = true
    · obtain ⟨hidle, htimeouts⟩ := h.elapse_of_due hfollows
      have hrun : w.runCall c = w.elapse c.follows := hidle.perform c
      rw [hrun, hidle.runCalls, expire, hidle.elapse, htimeouts, if_pos hfollows]
      rfl
    · have helapse := h.elapse_of_not_due (Bool.eq_false_iff.mpr hfollows)
      rw [runCall, helapse, perform, if_neg hfollows]
      cases c.call with
      | pulse =>
        have hwaits : (w.pulse c.instant).Waits (c.instant + (w.pulse c.instant).deadlineMs) := by
          rw [pulse_deadlineMs]
          exact h.pulse
        dsimp only
        rw [ih hwaits, pulse_deadlineMs]
      | stop =>
        obtain ⟨hidle, htimeouts⟩ := h.stop
        dsimp only
        rw [hidle.runCalls, expire, hidle.elapse, htimeouts]
        rfl

end WatchdogClosure

/-! ## The first gap -/

section Gap

variable {deadlineMs createdAt instant : ℚ} {c : ScheduledCall} {calls : List ScheduledCall}

/-- What follows an instant follows every earlier one. -/
theorem ScheduledCall.follows_of_le {due : ℚ} (hfollows : c.follows due = true)
    (hle : instant ≤ due) : c.follows instant = true := by
  simp only [follows, Bool.or_eq_true, Bool.and_eq_true, decide_eq_true_eq] at hfollows ⊢
  obtain hlt | ⟨rfl, hfirst⟩ := hfollows
  · exact Or.inl (lt_of_le_of_lt hle hlt)
  · obtain hlt | rfl := lt_or_eq_of_le hle
    · exact Or.inl hlt
    · exact Or.inr ⟨rfl, hfirst⟩

theorem callsBefore_cons_of_follows (hfollows : c.follows instant = true) :
    callsBefore (c :: calls) instant = [] := by
  simp [callsBefore, hfollows]

theorem callsBefore_cons_of_not_follows (hfollows : c.follows instant = false) :
    callsBefore (c :: calls) instant = c :: callsBefore calls instant := by
  simp [callsBefore, hfollows]

/-- The latest pulse is none before the construction. -/
theorem le_latestPulse
    (hordered : (createdAt :: calls.map ScheduledCall.instant).Pairwise (· ≤ ·)) :
    createdAt ≤ latestPulse createdAt calls := by
  induction calls generalizing createdAt with
  | nil => exact le_refl createdAt
  | cons c calls ih =>
    obtain ⟨hle, hrest⟩ := List.pairwise_cons.mp hordered
    rw [latestPulse, List.foldl_cons]
    split
    · exact (hle c.instant (by simp)).trans (ih hrest)
    · refine ih (List.pairwise_cons.mpr ⟨fun other hother => ?_, (List.pairwise_cons.mp hrest).2⟩)
      exact hle other (List.mem_cons_of_mem _ hother)

theorem elapses_cons_of_follows (hfollows : c.follows instant = true) :
    Elapses deadlineMs createdAt (c :: calls) instant ↔ createdAt + deadlineMs = instant := by
  rw [Elapses, callsBefore_cons_of_follows hfollows]
  rfl

theorem elapses_cons_of_pulse (hpulse : c.call = .pulse) (hfollows : c.follows instant = false) :
    Elapses deadlineMs createdAt (c :: calls) instant ↔
      Elapses deadlineMs c.instant calls instant := by
  rw [Elapses, callsBefore_cons_of_not_follows hfollows, latestPulse, List.foldl_cons,
    if_pos hpulse]
  rfl

/-- No instant that a call follows is so long after a pulse as late as the call. -/
theorem not_follows_of_elapses
    (hordered : (createdAt :: c.instant :: calls.map ScheduledCall.instant).Pairwise (· ≤ ·))
    (hpending : c.follows (createdAt + deadlineMs) = false)
    (helapses : Elapses deadlineMs c.instant calls instant) : c.follows instant = false := by
  obtain ⟨hle, hrest⟩ := List.pairwise_cons.mp hordered
  have hbefore : (c.instant :: (callsBefore calls instant).map ScheduledCall.instant).Pairwise
      (· ≤ ·) :=
    hrest.sublist (((List.takeWhile_sublist _).map _).cons_cons _)
  have hlate : createdAt + deadlineMs ≤ instant := by
    have hlatest := le_latestPulse hbefore
    have hcreated := hle c.instant List.mem_cons_self
    rw [Elapses] at helapses
    linarith
  by_contra hfollows
  rw [Bool.not_eq_false] at hfollows
  rw [ScheduledCall.follows_of_le hfollows hlate] at hpending
  exact Bool.noConfusion hpending

/-- Where a call follows the construction's deadline, that deadline is the first gap. -/
theorem firstGap_cons_of_follows (hdue : c.follows (createdAt + deadlineMs) = true) :
    FirstGap deadlineMs createdAt (c :: calls) instant ↔ createdAt + deadlineMs = instant := by
  have hgap : Elapses deadlineMs createdAt (c :: calls) (createdAt + deadlineMs) :=
    (elapses_cons_of_follows hdue).mpr rfl
  have hnone {earlier : ℚ} (hlt : earlier < createdAt + deadlineMs) :
      ¬Elapses deadlineMs createdAt (c :: calls) earlier := by
    intro helapses
    have heq := (elapses_cons_of_follows (c.follows_of_le hdue (le_of_lt hlt))).mp helapses
    exact absurd heq (ne_of_gt hlt)
  constructor
  · rintro ⟨helapses, hfirst⟩
    obtain hlt | heq | hgt := lt_trichotomy (createdAt + deadlineMs) instant
    · exact absurd hgap (hfirst _ hlt)
    · exact heq
    · exact absurd helapses (hnone hgt)
  · rintro rfl
    exact ⟨hgap, fun earlier hlt => hnone hlt⟩

/-- Where a pulse precedes the deadline, the gap is looked for from that pulse on. -/
theorem elapses_cons_iff
    (hordered : (createdAt :: c.instant :: calls.map ScheduledCall.instant).Pairwise (· ≤ ·))
    (hpending : c.follows (createdAt + deadlineMs) = false) (hpulse : c.call = .pulse) :
    Elapses deadlineMs createdAt (c :: calls) instant ↔
      Elapses deadlineMs c.instant calls instant := by
  constructor
  · intro helapses
    by_cases hfollows : c.follows instant = true
    · obtain rfl := (elapses_cons_of_follows hfollows).mp helapses
      rw [hpending] at hfollows
      exact Bool.noConfusion hfollows
    · exact (elapses_cons_of_pulse hpulse (Bool.eq_false_iff.mpr hfollows)).mp helapses
  · intro helapses
    have hfollows := not_follows_of_elapses hordered hpending helapses
    exact (elapses_cons_of_pulse hpulse hfollows).mpr helapses

theorem unstopped_cons_iff (hpulse : c.call = .pulse) :
    Unstopped (c :: calls) ↔ Unstopped calls := by
  simp [Unstopped, hpulse]

/-- The watchdog that is told of its calls one after the other fires at the first gap, if
it is not stopped before. -/
theorem firstTimeout_eq_some_iff
    (hordered : (createdAt :: calls.map ScheduledCall.instant).Pairwise (· ≤ ·)) :
    WatchdogClosure.firstTimeout deadlineMs createdAt calls = some instant ↔
      FirstGap deadlineMs createdAt calls instant ∧ Unstopped (callsBefore calls instant) := by
  induction calls generalizing createdAt with
  | nil =>
    rw [WatchdogClosure.firstTimeout, Option.some_inj]
    constructor
    · rintro rfl
      exact ⟨⟨rfl, fun earlier hlt => ne_of_gt hlt⟩, fun c hc => absurd hc List.not_mem_nil⟩
    · rintro ⟨⟨helapses, -⟩, -⟩
      exact helapses
  | cons c calls ih =>
    rw [WatchdogClosure.firstTimeout]
    by_cases hdue : c.follows (createdAt + deadlineMs) = true
    · rw [if_pos hdue, Option.some_inj, firstGap_cons_of_follows hdue, iff_self_and]
      rintro rfl
      rw [callsBefore_cons_of_follows hdue]
      exact fun c hc => absurd hc List.not_mem_nil
    · have hpending := Bool.eq_false_iff.mpr hdue
      rw [if_neg hdue]
      cases hcall : c.call with
      | pulse =>
        have helapses {instant : ℚ} : Elapses deadlineMs createdAt (c :: calls) instant ↔
            Elapses deadlineMs c.instant calls instant :=
          elapses_cons_iff hordered hpending hcall
        have hgap : FirstGap deadlineMs createdAt (c :: calls) instant ↔
            FirstGap deadlineMs c.instant calls instant :=
          and_congr helapses (forall₂_congr fun earlier hlt => not_congr helapses)
        rw [ih (List.pairwise_cons.mp hordered).2, hgap]
        refine and_congr_right fun h => ?_
        rw [callsBefore_cons_of_not_follows (not_follows_of_elapses hordered hpending h.1),
          unstopped_cons_iff hcall]
      | stop =>
        refine iff_of_false (by simp) ?_
        rintro ⟨⟨helapses, -⟩, hunstopped⟩
        by_cases hfollows : c.follows instant = true
        · obtain rfl := (elapses_cons_of_follows hfollows).mp helapses
          exact hdue hfollows
        · rw [callsBefore_cons_of_not_follows (Bool.eq_false_iff.mpr hfollows)] at hunstopped
          exact hunstopped c List.mem_cons_self hcall

end Gap

/-! ## Every schedule -/

namespace WatchdogSchedule

open WatchdogClosure

variable (schedule : WatchdogSchedule) (heartbeatIntervalMs : ℚ)

theorem timeouts_eq : schedule.timeouts heartbeatIntervalMs =
    (firstTimeout (heartbeatIntervalMs * 2) schedule.createdAt schedule.calls).toList :=
  (waits_createHeartbeatWatchdog heartbeatIntervalMs schedule.createdAt).timeouts_expire _

/-- Once it has been stopped or has fired, the watchdog stays idle. -/
theorem idle_after {calls : List ScheduledCall}
    (hover : (∃ c ∈ calls, c.call = .stop) ∨
      (schedule.after heartbeatIntervalMs calls).timeouts ≠ []) :
    (schedule.after heartbeatIntervalMs calls).Idle := by
  have hcreated := waits_createHeartbeatWatchdog heartbeatIntervalMs schedule.createdAt
  obtain ⟨hunstopped, due, hwaits⟩ | hidle := hcreated.runCalls_or_idle calls
  · obtain ⟨c, hc, hstop⟩ | htimeouts := hover
    · exact absurd hstop (hunstopped c hc)
    · exact absurd hwaits.timeouts htimeouts
  · exact hidle

/-- `onTimeout` fires at most once, at the first instant that is twice the interval after
the latest pulse before it, provided that no call before it was a stop. What comes after a
stop or a timeout neither arms a timer nor lets one fire. -/
theorem fires_at_first_gap :
    (schedule.timeouts heartbeatIntervalMs).length ≤ 1 ∧
    (∀ instant, instant ∈ schedule.timeouts heartbeatIntervalMs ↔
      FirstGap (2 * heartbeatIntervalMs) schedule.createdAt schedule.calls instant ∧
        Unstopped (callsBefore schedule.calls instant)) ∧
    ∀ calls later, schedule.calls = calls ++ later →
      ((∃ c ∈ calls, c.call = .stop) ∨
        (schedule.after heartbeatIntervalMs calls).timeouts ≠ []) →
      (schedule.after heartbeatIntervalMs (calls ++ later)).timers.armed = [] ∧
        schedule.timeouts heartbeatIntervalMs =
          (schedule.after heartbeatIntervalMs calls).timeouts := by
  refine ⟨?_, fun instant => ?_, fun calls later hcalls hover => ?_⟩
  · rw [timeouts_eq]
    exact Option.length_toList_le
  · rw [timeouts_eq, Option.mem_toList, mul_comm,
      firstTimeout_eq_some_iff schedule.ordered]
  · have hidle := schedule.idle_after heartbeatIntervalMs hover
    have hafter : schedule.after heartbeatIntervalMs (calls ++ later) =
        schedule.after heartbeatIntervalMs calls := by
      rw [after, WatchdogClosure.runCalls, List.foldl_append]
      exact hidle.runCalls later
    rw [timeouts, hcalls, hafter, expire, hidle.elapse]
    exact ⟨hidle.armed, rfl⟩

end WatchdogSchedule

end Tckr.MarketWatch
