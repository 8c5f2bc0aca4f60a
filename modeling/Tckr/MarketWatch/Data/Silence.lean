import Tckr.MarketWatch.Data.Engine

/-!
# A disconnected source is silent

The live timer should run only while the market clock does. Connecting starts
both and disconnecting stops both, but `getHistory` follows the calendar whether
the source is connected or not, and so starts the live timer of a disconnected
source whenever the market is open. Nothing else does.
-/

namespace Tckr.MarketWatch

namespace SimulatedSource

/-- The live timer runs only while the market clock does. -/
def Clocked (s : SimulatedSource) : Prop := s.intervalHandle ≠ none → s.marketClockHandle ≠ none

/-- Neither timer runs. -/
structure Silent (s : SimulatedSource) : Prop where
  interval : s.intervalHandle = none
  clock : s.marketClockHandle = none

/-- A history is not asked of a disconnected source while the market is open. -/
def AsksWhileConnected (calendar : Calendar) (s : SimulatedSource) : Action → Prop
  | .call (.getHistory _) => s.marketClockHandle = none → (calendar s.now).state = .closed
  | .call .connect | .call .disconnect | .call (.subscribe _) | .call (.unsubscribe _)
  | .call (.getSnapshot _) | .call (.simulateEntitlementChange _) | .call (.simulateDrop _)
  | .timer _ | .frame | .advance _ => True

/-- The step calls `connect`. -/
def Connects : Action → Prop
  | .call .connect | .timer .dropReconnect => True
  | _ => False

instance (calendar : Calendar) (s : SimulatedSource) :
    (a : Action) → Decidable (AsksWhileConnected calendar s a)
  | .call (.getHistory _) => inferInstanceAs (Decidable (_ → _))
  | .call .connect | .call .disconnect | .call (.subscribe _) | .call (.unsubscribe _)
  | .call (.getSnapshot _) | .call (.simulateEntitlementChange _) | .call (.simulateDrop _)
  | .timer _ | .frame | .advance _ => inferInstanceAs (Decidable True)

variable {calendar : Calendar} {s t : SimulatedSource}

/-- The source keeps the timers and what it has delivered. -/
structure SameTimers (s t : SimulatedSource) : Prop where
  interval : t.intervalHandle = s.intervalHandle
  clock : t.marketClockHandle = s.marketClockHandle
  observed : t.observed = s.observed

theorem SameTimers.clocked (h : SameTimers s t) : Clocked t ↔ Clocked s := by
  rw [Clocked, h.interval, h.clock, Clocked]

/-- Following the calendar starts or stops the live timer, and leaves the market clock. -/
theorem ensureSessionFor_timers (s : SimulatedSource) (calendar : Calendar) :
    (s.ensureSessionFor calendar).intervalHandle = s.gated (calendar s.now).state ∧
      (s.ensureSessionFor calendar).marketClockHandle = s.marketClockHandle ∧
      (s.ensureSessionFor calendar).observed = s.observed := by
  obtain ⟨_, _, h⟩ := s.ensureSessionFor_eq calendar
  rw [h]
  exact ⟨rfl, rfl, rfl⟩

/-- A batch leaves the market clock. -/
theorem generateBatch_clock (s : SimulatedSource) (calendar : Calendar) :
    (s.generateBatch calendar).marketClockHandle = s.marketClockHandle := by
  obtain ⟨-, hclock, -⟩ := s.ensureSessionFor_timers calendar
  rw [generateBatch_eq]
  split
  · exact hclock
  · generalize s.ensureSessionFor calendar = u at hclock
    obtain ⟨_, _, hsampled⟩ := u.sampled_eq
    obtain ⟨_, _, _, _, _, _, hgenerated⟩ := u.sampled.iterate_generateOne_eq u.sampled.perBatch
    obtain ⟨_, _, hdrained⟩ := (generateOne^[u.sampled.perBatch] u.sampled).drainDelayedQueue_eq
    rw [hdrained, hgenerated, hsampled]
    exact hclock

/-- The live timer runs after the calendar exactly while the market is open. -/
theorem gated_eq_none_iff {state : MarketState} : s.gated state = none ↔ state = .closed := by
  unfold gated
  cases state with
  | «open» => cases s.intervalHandle <;> simp
  | closed => simp

theorem connect_clock (s : SimulatedSource) (calendar : Calendar) :
    (s.connect calendar).marketClockHandle ≠ none := by
  by_cases h : s.marketClockHandle = none
  · rw [connect_of_idle h]
    exact Option.some_ne_none _
  · rw [connect, if_pos (Option.isSome_iff_ne_none.mpr h)]
    exact h

/-- A drop stops both timers. -/
theorem silent_simulateDrop (h : Clocked s) (code : CloseCode) : Silent (s.simulateDrop code) := by
  by_cases hclock : s.marketClockHandle = none
  · rw [simulateDrop, if_pos hclock]
    exact ⟨not_not.mp fun hinterval => h hinterval hclock, hclock⟩
  · obtain ⟨_, _, _, hdrop⟩ := simulateDrop_eq hclock code
    rw [hdrop]
    exact ⟨rfl, rfl⟩

theorem silent_disconnect (s : SimulatedSource) : Silent s.disconnect := ⟨rfl, rfl⟩

theorem Silent.clocked (h : Silent s) : Clocked s := fun hinterval => absurd h.interval hinterval

theorem clocked_of_clock (h : s.marketClockHandle ≠ none) : Clocked s := fun _ => h

/-- An entitlement change leaves the timers alone. -/
theorem simulateEntitlementChange_timers (s : SimulatedSource) (nextDemoUser : String) :
    SameTimers s (s.simulateEntitlementChange nextDemoUser) := by
  unfold simulateEntitlementChange
  dsimp only
  split
  · exact ⟨rfl, rfl, rfl⟩
  · exact ⟨rfl, rfl, rfl⟩

theorem subscribe_timers (s : SimulatedSource) (symbols : List String) :
    SameTimers s (s.subscribe symbols) := by
  obtain ⟨_, _, h⟩ := s.subscribe_eq symbols
  rw [h]
  exact ⟨rfl, rfl, rfl⟩

/-- A history starts the live timer of a disconnected source exactly while the market is open. -/
theorem clocked_getHistory_iff (s : SimulatedSource) (symbol : String) :
    Clocked (s.getHistory calendar symbol) ↔
      (s.marketClockHandle = none → (calendar s.now).state = .closed) := by
  obtain ⟨hinterval, hclock, -⟩ := s.ensureSessionFor_timers calendar
  have hsame : Clocked (s.getHistory calendar symbol) ↔
      ((s.ensureSessionFor calendar).intervalHandle ≠ none →
        (s.ensureSessionFor calendar).marketClockHandle ≠ none) := Iff.rfl
  rw [hsame, hinterval, hclock, ne_eq, gated_eq_none_iff, ne_eq, not_imp_not]

/-- A step keeps the live timer under the market clock exactly when it asks for no history of a
disconnected source in an open market. -/
theorem clocked_step_iff {a : Action} (h : Clocked s) (hstep : s.step calendar a = some t) :
    Clocked t ↔ AsksWhileConnected calendar s a := by
  cases step_cases hstep with
  | call c =>
    cases c with
    | getHistory symbol => exact clocked_getHistory_iff s symbol
    | connect => exact iff_of_true (clocked_of_clock (s.connect_clock calendar)) trivial
    | disconnect => exact iff_of_true s.silent_disconnect.clocked trivial
    | subscribe symbols => exact iff_of_true ((s.subscribe_timers symbols).clocked.mpr h) trivial
    | unsubscribe symbols => exact iff_of_true h trivial
    | getSnapshot symbol => exact iff_of_true h trivial
    | simulateEntitlementChange user =>
      exact iff_of_true ((s.simulateEntitlementChange_timers user).clocked.mpr h) trivial
    | simulateDrop code => exact iff_of_true (silent_simulateDrop h code).clocked trivial
  | interval htimer hdue =>
    refine iff_of_true (clocked_of_clock ?_) trivial
    rw [generateBatch_clock]
    exact h (by rw [htimer]; exact Option.some_ne_none _)
  | marketClock htimer hdue =>
    refine iff_of_true (clocked_of_clock ?_) trivial
    rw [(ensureSessionFor_timers _ calendar).2.1]
    exact Option.some_ne_none _
  | dropReconnect htimer hdue =>
    exact iff_of_true (clocked_of_clock (connect_clock _ calendar)) trivial
  | drain htimers =>
    obtain ⟨_, _, hdrain⟩ := drainSnapshotRequests_eq { s with drainTimers := s.drainTimers - 1 }
    rw [hdrain]
    exact iff_of_true h trivial
  | frame hframe => exact iff_of_true h trivial
  | advance => exact iff_of_true h trivial

/-- A silent source stays silent and delivers nothing until it connects. -/
theorem Silent.step {a : Action} (h : Silent s) (hguard : AsksWhileConnected calendar s a)
    (hconnects : ¬Connects a) (hstep : s.step calendar a = some t) :
    Silent t ∧ t.observed = s.observed := by
  have hkept {u : SimulatedSource} (hsame : SameTimers s u) :
      Silent u ∧ u.observed = s.observed :=
    ⟨⟨hsame.interval.trans h.interval, hsame.clock.trans h.clock⟩, hsame.observed⟩
  cases step_cases hstep with
  | call c =>
    cases c with
    | connect => exact absurd trivial hconnects
    | getHistory symbol =>
      obtain ⟨hinterval, hclock, hobserved⟩ := s.ensureSessionFor_timers calendar
      have hclosed : s.gated (calendar s.now).state = none := gated_eq_none_iff.mpr (hguard h.clock)
      exact ⟨⟨hinterval.trans hclosed, hclock.trans h.clock⟩, hobserved⟩
    | disconnect => exact ⟨s.silent_disconnect, rfl⟩
    | subscribe symbols => exact hkept (s.subscribe_timers symbols)
    | unsubscribe symbols => exact hkept ⟨rfl, rfl, rfl⟩
    | getSnapshot symbol => exact hkept ⟨rfl, rfl, rfl⟩
    | simulateEntitlementChange user => exact hkept (s.simulateEntitlementChange_timers user)
    | simulateDrop code =>
      have hidle : s.perform calendar (.simulateDrop code) = s := if_pos h.clock
      rw [hidle]
      exact ⟨h, rfl⟩
  | interval htimer hdue =>
    rw [h.interval] at htimer
    exact absurd htimer nofun
  | marketClock htimer hdue =>
    rw [h.clock] at htimer
    exact absurd htimer nofun
  | dropReconnect htimer hdue => exact absurd trivial hconnects
  | drain htimers =>
    obtain ⟨_, _, hdrain⟩ := drainSnapshotRequests_eq { s with drainTimers := s.drainTimers - 1 }
    rw [hdrain]
    exact hkept ⟨rfl, rfl, rfl⟩
  | frame hframe => exact hkept ⟨rfl, rfl, rfl⟩
  | advance => exact hkept ⟨rfl, rfl, rfl⟩

/-- A run without `connect` leaves a silent source silent, and delivers nothing. -/
theorem Silent.run {symbols : List SimSymbol} {config : SimulatedSourceConfig}
    {actions : List Action} (h : Silent s)
    (hguard : (simulated symbols calendar config).Guarded (AsksWhileConnected calendar) s actions)
    (hconnects : ∀ a ∈ actions, ¬Connects a)
    (hrun : (simulated symbols calendar config).runFrom s actions = some t) :
    Silent t ∧ t.observed = s.observed := by
  induction actions generalizing s with
  | nil =>
    rw [Machine.runFrom_nil, Option.some.injEq] at hrun
    exact hrun ▸ ⟨h, rfl⟩
  | cons a actions ih =>
    rw [Machine.runFrom_cons, Option.bind_eq_some_iff] at hrun
    obtain ⟨u, hu, hrun⟩ := hrun
    obtain ⟨ha, hguard⟩ := (Machine.guarded_cons _ hu).mp hguard
    obtain ⟨hsilent, hobserved⟩ := h.step ha (hconnects a List.mem_cons_self) hu
    obtain ⟨hsilent', hobserved'⟩ :=
      ih hsilent hguard (fun b hb => hconnects b (List.mem_cons_of_mem a hb)) hrun
    exact ⟨hsilent', hobserved'.trans hobserved⟩

end SimulatedSource

open SimulatedSource

/-- In every run the live timer runs only under the market clock throughout, exactly when no
history is asked of a disconnected source while the market is open. From any state such a run
reaches without a market clock, as `disconnect` or a drop leaves it, no tick is delivered as long
as the run goes on so and `connect` is not called. -/
theorem clocked_iff {symbols : List SimSymbol} {calendar : Calendar}
    {config : SimulatedSourceConfig} {actions : List Action} {s : SimulatedSource}
    (h : (simulated symbols calendar config).run actions = some s) :
    ((simulated symbols calendar config).Always Clocked
        (simulated symbols calendar config).init actions ↔
      (simulated symbols calendar config).Guarded (AsksWhileConnected calendar)
        (simulated symbols calendar config).init actions) ∧
    ((simulated symbols calendar config).Guarded (AsksWhileConnected calendar)
        (simulated symbols calendar config).init actions →
      s.marketClockHandle = none → ∀ later t,
      (simulated symbols calendar config).Guarded (AsksWhileConnected calendar) s later →
      (∀ a ∈ later, ¬Connects a) →
      (simulated symbols calendar config).runFrom s later = some t →
      t.observed = s.observed ∧ t.marketClockHandle = none) := by
  have hinit : Clocked (simulated symbols calendar config).init := fun hne => absurd rfl hne
  constructor
  · exact Machine.always_iff_guarded (fun _ _ _ hs hu => clocked_step_iff hs hu) hinit h
  · intro hguard hclock later t hlater hconnects hrun
    have hclocked : Clocked s := Machine.run_invariant_of_guarded hinit
      (fun _ _ _ hs ha hu => (clocked_step_iff hs hu).mpr ha) hguard h
    have hsilent : Silent s := ⟨not_not.mp fun hinterval => hclocked hinterval hclock, hclock⟩
    obtain ⟨hsilent', hobserved⟩ := hsilent.run hlater hconnects hrun
    exact ⟨hobserved, hsilent'.clock⟩

/-- Connect, take a batch, drop for good, and wait. -/
def droppedRun : List Action :=
  [.call .connect, .call (.subscribe ["COMI"]), .advance 50, .timer .interval,
    .call (.simulateDrop .unauthenticated)]

theorem clocked_iff_droppedRun : ∃ s,
    (simulated [comi] alwaysOpen (demoConfig "user-001")).run droppedRun = some s ∧
      (simulated [comi] alwaysOpen (demoConfig "user-001")).Always Clocked
        (simulated [comi] alwaysOpen (demoConfig "user-001")).init droppedRun := by
  have hrun : ((simulated [comi] alwaysOpen (demoConfig "user-001")).run droppedRun).isSome :=
    by decide +kernel
  obtain ⟨s, hs⟩ := Option.isSome_iff_exists.mp hrun
  exact ⟨s, hs, (clocked_iff hs).1.mpr (by decide +kernel)⟩

/-- Disconnect, and ask for a history. -/
def askedRun : List Action :=
  [.call .connect, .call (.subscribe ["COMI"]), .call .disconnect, .call (.getHistory "COMI"),
    .advance 50, .timer .interval]

/-- A disconnected source that is asked for a history delivers ticks. -/
theorem not_clocked : ¬∀ (symbols : List SimSymbol) (calendar : Calendar)
    (config : SimulatedSourceConfig) (actions : List Action) (s : SimulatedSource),
    (simulated symbols calendar config).run actions = some s → Clocked s ∧
      (s.marketClockHandle = none → ∀ later t, (∀ a ∈ later, ¬Connects a) →
        (simulated symbols calendar config).runFrom s later = some t →
        t.observed = s.observed) := by
  intro h
  have hrun : ((simulated [comi] alwaysOpen (demoConfig "user-001")).run askedRun).map
      (fun s => (s.intervalHandle.isSome, s.marketClockHandle, s.observed.length)) =
      some (true, none, 1) := by decide +kernel
  obtain ⟨s, hs, heq⟩ := Option.map_eq_some_iff.mp hrun
  obtain ⟨hinterval, heq⟩ := Prod.mk.inj heq
  have hclocked := (h _ _ _ _ s hs).1
  exact hclocked (Option.isSome_iff_ne_none.mp hinterval) (Prod.mk.inj heq).1

end Tckr.MarketWatch
