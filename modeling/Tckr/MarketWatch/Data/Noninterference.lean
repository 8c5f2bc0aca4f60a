import Tckr.MarketWatch.Data.Alike

/-!
# Noninterference of the last moments

A client delayed by an offset may not learn before a time of what happened later
than the offset before it. Two runs that generate the same events until then show
the client the same, as long as no answer reads the runtime of an instrument whose
last event is still withheld: the answers read what the ticks are held back from.
-/

namespace Tckr.MarketWatch

namespace SimulatedSource

/-- What a client has been shown. -/
structure Observation where
  observed : List Tick
  store : Store
  snapshots : List (Except String Snapshot)
  histories : List (Except String (List HistoryPoint))
  errors : List ErrorMsg
  entitlements : List EntitlementChanged
  deriving DecidableEq

def observation (s : SimulatedSource) : Observation where
  observed := s.observed
  store := s.store
  snapshots := s.snapshots
  histories := s.histories
  errors := s.errors
  entitlements := s.entitlements

/-- The action looks at the calendar. -/
def followsCalendar (s : SimulatedSource) : Action → Bool
  | .call .connect => s.marketClockHandle.isNone
  | .call (.getHistory _) => true
  | .timer .interval => true
  | .timer .marketClock => true
  | .timer .dropReconnect => s.marketClockHandle.isNone
  | _ => false

/-- The instruments whose runtimes the action reads for an answer. -/
def shown (s : SimulatedSource) : Action → List String
  | .call (.getHistory symbol) => symbol :: s.snapshotRequests
  | .timer .drain => s.snapshotRequests
  | a => if s.followsCalendar a = true then s.snapshotRequests else []

/-- Following the calendar answers what waits for a snapshot. -/
theorem mem_shown {s : SimulatedSource} {a : Action} (h : s.followsCalendar a = true)
    {symbol : String} (hsymbol : symbol ∈ s.snapshotRequests) : symbol ∈ s.shown a := by
  unfold shown
  split
  · exact List.mem_cons_of_mem _ hsymbol
  · exact hsymbol
  · rw [if_pos h]
    exact hsymbol

section Guards

variable (calendar : Calendar) (time : Nat)

/-- The action reconstructs the session before it answers. -/
def Reconstructs (s : SimulatedSource) (a : Action) : Prop :=
  s.followsCalendar a = true ∧ s.Enters (calendar s.now)

instance (s : SimulatedSource) (a : Action) : Decidable (s.Reconstructs calendar a) :=
  inferInstanceAs (Decidable (_ ∧ _))

/-- The events the action generates. -/
def generated (s : SimulatedSource) : Action → List Generated
  | .timer .interval =>
      { s with intervalHandle := some (s.now + batchIntervalMs) }.batchEvents calendar
  | _ => []

/-- Two delayed sources generate the same until the offset before the time, and reconstruct the
same sessions. -/
structure SameTape (s t : SimulatedSource) (a : Action) : Prop where
  now : s.now ≤ time
  delayed : s.currentStream = .delayed
  events : s.now + s.config.delayedOffsetMs ≤ time → s.generated calendar a = t.generated calendar a
  sessions : s.Reconstructs calendar a → SameSessions (calendar s.now) s t

instance (s t : SimulatedSource) (a : Action) : Decidable (SameTape calendar time s t a) :=
  decidable_of_iff (s.now ≤ time ∧ s.currentStream = .delayed ∧
    (s.now + s.config.delayedOffsetMs ≤ time → s.generated calendar a = t.generated calendar a) ∧
    (s.Reconstructs calendar a → SameSessions (calendar s.now) s t))
    ⟨fun h => ⟨h.1, h.2.1, h.2.2.1, h.2.2.2⟩, fun h => ⟨h.1, h.2, h.3, h.4⟩⟩

/-- No answer shows an instrument whose last event is withheld, unless its session is reconstructed
first. -/
def Undisclosed (s : SimulatedSource) (a : Action) : Prop :=
  ∀ symbol ∈ s.shown a, s.tape.Withheld time symbol → s.Reconstructs calendar a

instance (s : SimulatedSource) (a : Action) : Decidable (s.Undisclosed calendar time a) :=
  inferInstanceAs (Decidable (∀ symbol ∈ s.shown a, _))

end Guards

namespace Alike

variable {calendar : Calendar} {time : Nat} {s t s' t' : SimulatedSource} {a : Action}

theorem observation (h : Alike time s t) : t.observation = s.observation := by
  rw [h.visible]
  rfl

theorem shown (h : Alike time s t) (a : Action) : t.shown a = s.shown a := by
  rw [h.visible]
  rfl

theorem reconstructs (h : Alike time s t) (a : Action) :
    t.Reconstructs calendar a ↔ s.Reconstructs calendar a := by
  rw [h.visible]
  rfl

/-- What neither discloses, both show alike. -/
theorem get?_shown (h : Alike time s t) (hs : s.Undisclosed calendar time a)
    (ht : t.Undisclosed calendar time a) {symbol : String} (hsymbol : symbol ∈ s.shown a) :
    s.Reconstructs calendar a ∨
      s.runtimeBySymbol.get? symbol = t.runtimeBySymbol.get? symbol := by
  by_cases hreconstructs : s.Reconstructs calendar a
  · exact .inl hreconstructs
  · refine .inr (h.get?_eq (hreconstructs ∘ hs symbol hsymbol) fun hwithheld => ?_)
    rw [← h.shown] at hsymbol
    exact hreconstructs ((h.reconstructs a).mp (ht symbol hsymbol hwithheld))

/-- A call keeps two sources alike. -/
theorem perform (h : Alike time s t) {c : Call} (htape : SameTape calendar time s t (.call c))
    (hshown : ∀ symbol ∈ s.shown (.call c), s.Reconstructs calendar (.call c) ∨
      s.runtimeBySymbol.get? symbol = t.runtimeBySymbol.get? symbol) :
    Alike time (s.perform calendar c) (t.perform calendar c) := by
  cases c with
  | connect =>
    have hfollows : s.marketClockHandle = none → s.followsCalendar (.call .connect) = true :=
      Option.isNone_iff_eq_none.mpr
    refine h.connect (fun hidle henters => htape.sessions ⟨hfollows hidle, henters⟩) ?_
    intro hidle symbol hsymbol
    exact (hshown symbol (mem_shown (hfollows hidle) hsymbol)).imp_left And.right
  | disconnect => exact h.keep SimulatedSource.disconnect (fun _ => rfl) fun _ => rfl
  | subscribe symbols => exact h.subscribe symbols
  | unsubscribe symbols =>
    exact h.keep (SimulatedSource.unsubscribe · symbols) (fun _ => rfl) fun _ => rfl
  | getSnapshot symbol => exact h.getSnapshot symbol
  | getHistory symbol =>
    refine h.getHistory (fun henters => htape.sessions ⟨rfl, henters⟩) fun other hother => ?_
    exact (hshown other hother).imp_left And.right
  | simulateEntitlementChange nextDemoUser => exact h.simulateEntitlementChange nextDemoUser
  | simulateDrop code => exact h.simulateDrop code

/-- A timer that fires in both sources keeps them alike. -/
theorem timerFired (h : Alike time s t) {timer : Timer}
    (htape : SameTape calendar time s t (.timer timer))
    (hshown : ∀ symbol ∈ s.shown (.timer timer), s.Reconstructs calendar (.timer timer) ∨
      s.runtimeBySymbol.get? symbol = t.runtimeBySymbol.get? symbol)
    (hs : s.timerFired calendar timer = some s') (ht : t.timerFired calendar timer = some t') :
    Alike time s' t' := by
  cases timerFired_cases hs with
  | interval =>
    cases timerFired_cases ht
    have harmed := h.keep (fun u => { u with intervalHandle := some (u.now + batchIntervalMs) })
      (fun _ => rfl) fun _ => rfl
    exact harmed.generateBatch htape.now htape.delayed
      (fun henters => htape.sessions ⟨rfl, henters⟩)
      (fun symbol hsymbol => (hshown symbol hsymbol).imp_left And.right) htape.events
  | marketClock =>
    cases timerFired_cases ht
    have harmed := h.keep
      (fun u => { u with marketClockHandle := some (u.now + marketClockIntervalMs) })
      (fun _ => rfl) fun _ => rfl
    exact harmed.ensureSessionFor (fun henters => htape.sessions ⟨rfl, henters⟩)
      fun symbol hsymbol => (hshown symbol hsymbol).imp_left And.right
  | dropReconnect =>
    cases timerFired_cases ht
    have hfired := h.keep (fun u => { u with dropReconnectTimer := none })
      (fun _ => rfl) fun _ => rfl
    have hfollows : s.marketClockHandle = none →
        s.followsCalendar (.timer .dropReconnect) = true := Option.isNone_iff_eq_none.mpr
    refine hfired.connect (fun hidle henters => htape.sessions ⟨hfollows hidle, henters⟩) ?_
    intro hidle symbol hsymbol
    exact (hshown symbol (mem_shown (hfollows hidle) hsymbol)).imp_left And.right
  | drain =>
    cases timerFired_cases ht
    have hfired := h.keep (fun u => { u with drainTimers := u.drainTimers - 1 })
      (fun _ => rfl) fun _ => rfl
    apply hfired.drainSnapshotRequests
    intro symbol hsymbol
    exact (hshown symbol hsymbol).resolve_left fun hreconstructs => nomatch hreconstructs.1

/-- An action that both sources take keeps them alike. -/
theorem step (h : Alike time s t) (htape : SameTape calendar time s t a)
    (hs : s.Undisclosed calendar time a) (ht : t.Undisclosed calendar time a)
    (hstep : s.step calendar a = some s') (hstep' : t.step calendar a = some t') :
    Alike time s' t' := by
  have hshown : ∀ symbol ∈ s.shown a, s.Reconstructs calendar a ∨
      s.runtimeBySymbol.get? symbol = t.runtimeBySymbol.get? symbol :=
    fun _ hsymbol => h.get?_shown hs ht hsymbol
  cases a with
  | call c =>
    cases hstep
    cases hstep'
    exact h.perform htape hshown
  | timer timer => exact h.timerFired htape hshown hstep hstep'
  | frame =>
    cases step_cases hstep
    cases step_cases hstep'
    exact h.keep (fun u => { u with
        dispatcher := (u.dispatcher.flushNow u.store u.now).1
        store := (u.dispatcher.flushNow u.store u.now).2 })
      (fun _ => rfl) fun _ => rfl
  | advance ms =>
    cases hstep
    cases hstep'
    refine ⟨?_, h.tape.later ms⟩
    rw [h.visible]
    rfl

/-- What the generator draws next stays hidden. -/
theorem reseed (h : Alike time s t) (prng prng' : Mulberry32) :
    Alike time { s with prng := prng } { t with prng := prng' } where
  visible := by
    rw [h.visible]
    rfl
  tape := h.tape

/-- Two sources of the same delayed user start alike, whatever their seeds and rates. -/
theorem create (symbols : List SimSymbol) {config config' : SimulatedSourceConfig}
    (hoffset : config.delayedOffsetMs = config'.delayedOffsetMs)
    (huser : config.demoUser = config'.demoUser) :
    Alike time (.create symbols config) (.create symbols config') := by
  cases config
  cases config'
  cases hoffset
  cases huser
  refine ⟨rfl, ⟨rfl, rfl, fun _ => rfl, fun _ => .inr (.inr rfl), rfl, ?_, ?_⟩⟩
  · exact fun envelope henvelope => absurd henvelope List.not_mem_nil
  · exact fun envelope henvelope => absurd henvelope List.not_mem_nil

end Alike

theorem demoUser_of_delayed {demoUser : String} (h : resolveStream demoUser = .delayed) :
    demoUser = "user-002" := by
  by_contra hne
  rw [resolveStream, if_neg hne] at h
  cases h

end SimulatedSource

/-- The simulated source over a generator that may be put in another state after every action. -/
def simulatedOver (reseed : SimulatedSource → Mulberry32) (symbols : List SimSymbol)
    (calendar : Calendar) (config : SimulatedSourceConfig) :
    Machine SimulatedSource SimulatedSource.Action where
  init := .create symbols config
  step s a := (s.step calendar a).map fun t => { t with prng := reseed t }

/-- The source itself leaves its generator alone. -/
theorem simulatedOver_prng (symbols : List SimSymbol) (calendar : Calendar)
    (config : SimulatedSourceConfig) :
    simulatedOver SimulatedSource.prng symbols calendar config =
      simulated symbols calendar config := by
  unfold simulatedOver simulated
  congr 1
  funext s a
  exact Option.map_id'

open SimulatedSource in
/-- Two runs delayed by the same offset, that generate the same events until the offset before a
time and never answer for a withheld instrument, show their client the same at that time. -/
theorem observation_eq_of_undisclosed {symbols : List SimSymbol} {calendar : Calendar}
    {reseed reseed' : SimulatedSource → Mulberry32} {config config' : SimulatedSourceConfig}
    {offset time : Nat} (hoffset : config.delayedOffsetMs = offset)
    (hoffset' : config'.delayedOffsetMs = offset)
    (huser : resolveStream config.demoUser = .delayed)
    (huser' : resolveStream config'.demoUser = .delayed)
    {actions : List Action} {s t : SimulatedSource}
    (hs : (simulatedOver reseed symbols calendar config).run actions = some s)
    (ht : (simulatedOver reseed' symbols calendar config').run actions = some t)
    (hguard : ((simulatedOver reseed symbols calendar config).lockstep
      (simulatedOver reseed' symbols calendar config')).Guarded
        (fun p a => SameTape calendar time p.1 p.2 a ∧ p.1.Undisclosed calendar time a ∧
          p.2.Undisclosed calendar time a)
        (SimulatedSource.create symbols config, SimulatedSource.create symbols config') actions) :
    s.observation = t.observation := by
  have hinit : Alike time (SimulatedSource.create symbols config)
      (SimulatedSource.create symbols config') :=
    .create symbols (hoffset.trans hoffset'.symm)
      ((demoUser_of_delayed huser).trans (demoUser_of_delayed huser').symm)
  have halike : Alike time s t := by
    refine Machine.lockstep_invariant (I := Alike time)
      (G := fun s t a => SameTape calendar time s t a ∧ s.Undisclosed calendar time a ∧
        t.Undisclosed calendar time a) hinit ?_ hguard hs ht
    rintro s t a s' t' h ⟨htape, hs, ht⟩ hstep hstep'
    obtain ⟨u, hu, rfl⟩ := Option.map_eq_some_iff.mp hstep
    obtain ⟨u', hu', rfl⟩ := Option.map_eq_some_iff.mp hstep'
    exact (h.step htape hs ht hu hu').reseed _ _
  exact halike.observation.symm

namespace SimulatedSource

/-- A snapshot is asked for after the first event, and answered before the second. -/
def askedBetween : List Action :=
  [.call .connect, .call (.subscribe ["COMI"]), .advance 50, .timer .interval,
    .call (.getSnapshot "COMI"), .advance 50, .timer .interval, .advance 50, .timer .interval,
    .frame]

/-- A generator that is put in another state once the first event is out. -/
def otherwise (s : SimulatedSource) : Mulberry32 := if s.now < 100 then s.prng else ⟨7⟩

/-- Where a delayed run over `COMI` ends. -/
def delayedEnd (reseed : SimulatedSource → Mulberry32) (actions : List Action) : SimulatedSource :=
  ((simulatedOver reseed [comi] alwaysOpen (demoConfig "user-002")).run actions).getD
    (.create [comi] (demoConfig "user-002"))

theorem run_eq_delayedEnd {reseed : SimulatedSource → Mulberry32} {actions : List Action}
    (h : ((simulatedOver reseed [comi] alwaysOpen (demoConfig "user-002")).run actions).isSome =
      true) :
    (simulatedOver reseed [comi] alwaysOpen (demoConfig "user-002")).run actions =
      some (delayedEnd reseed actions) := by
  rw [delayedEnd, ← Option.get_eq_getD (h := h), Option.some_get]

theorem observation_eq_of_undisclosed_otherwise :
    (delayedEnd prng askedBetween).observation =
        (delayedEnd otherwise askedBetween).observation ∧
      (delayedEnd prng askedBetween).observed ≠ [] ∧
      (delayedEnd prng askedBetween).delayQueue ≠ (delayedEnd otherwise askedBetween).delayQueue :=
  ⟨@observation_eq_of_undisclosed [comi] alwaysOpen prng otherwise (demoConfig "user-002")
      (demoConfig "user-002") 100 150 rfl rfl rfl rfl askedBetween _ _
      (run_eq_delayedEnd (by decide +kernel)) (run_eq_delayedEnd (by decide +kernel))
      (by decide +kernel),
    by decide +kernel, by decide +kernel⟩

/-- The simulator with two events per batch. -/
def fasterConfig : SimulatedSourceConfig := ⟨40, 100, 20260912, "user-002"⟩

/-- A snapshot is answered while all the events are withheld. -/
def askedEarly : List Action :=
  [.call .connect, .advance 50, .timer .interval, .call (.getSnapshot "COMI"), .advance 50,
    .timer .interval]

/-- Such a snapshot tells what happened within the delay. -/
theorem snapshot_discloses_withheld :
    ¬∀ (symbols : List SimSymbol) (calendar : Calendar) (config config' : SimulatedSourceConfig)
      (offset time : Nat) (actions : List Action) (s t : SimulatedSource),
      config.delayedOffsetMs = offset → config'.delayedOffsetMs = offset →
      resolveStream config.demoUser = .delayed → resolveStream config'.demoUser = .delayed →
      (simulated symbols calendar config).run actions = some s →
      (simulated symbols calendar config').run actions = some t →
      ((simulated symbols calendar config).lockstep (simulated symbols calendar config')).Guarded
        (fun p a => SameTape calendar time p.1 p.2 a)
        (SimulatedSource.create symbols config, SimulatedSource.create symbols config') actions →
      s.observation = t.observation := by
  intro h
  have hs := Option.some_get (show ((simulated [comi] alwaysOpen (demoConfig "user-002")).run
    askedEarly).isSome = true by decide +kernel)
  have ht := Option.some_get (show ((simulated [comi] alwaysOpen fasterConfig).run
    askedEarly).isSome = true by decide +kernel)
  exact absurd (h [comi] alwaysOpen (demoConfig "user-002") fasterConfig 100 100 askedEarly _ _
    rfl rfl rfl rfl hs.symm ht.symm (by decide +kernel)) (by decide +kernel)

end SimulatedSource

end Tckr.MarketWatch
