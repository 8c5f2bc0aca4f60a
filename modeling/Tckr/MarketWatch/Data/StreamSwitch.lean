import Tckr.MarketWatch.Data.SimulatedSteps
import Tckr.MarketWatch.Data.Sockets

/-!
# One stream in the store

Every view of the store carries the stream the source is entitled to. A switch
leaves old data in the dispatcher, the delay queue and the snapshots in flight; the
law holds over the runs in which none of it survives a switch.
-/

namespace Tckr.MarketWatch

/-! ## The gateway source -/

namespace TckrGatewaySource

/-- What the source holds comes from the stream of its session, if it has one. -/
def OneStream (s : TckrGatewaySource) : Prop :=
  ∀ identity ∈ s.identityValue,
    s.store.OnlyFrom identity.stream ∧ s.dispatcher.OnlyFrom identity.stream

/-- The stream is the session's, if there is one. -/
def Entitles (s : TckrGatewaySource) (stream : Stream) : Prop :=
  ∀ identity ∈ s.identityValue, stream = identity.stream

instance (s : TckrGatewaySource) (stream : Stream) : Decidable (s.Entitles stream) :=
  inferInstanceAs (Decidable (∀ identity ∈ s.identityValue, _))

/-- The server sends ticks and snapshots of the stream it last announced. -/
def StreamPromise (s : TckrGatewaySource) : Action → Prop
  | .socket _ (.message (some (.tick m))) => s.Entitles m.st
  | .socket _ (.message (some (.snapshot m))) => s.Entitles m.stream
  | _ => True

instance (s : TckrGatewaySource) (a : Action) : Decidable (s.StreamPromise a) := by
  unfold StreamPromise
  split
  · exact inferInstanceAs (Decidable (s.Entitles _))
  · exact inferInstanceAs (Decidable (s.Entitles _))
  · exact inferInstanceAs (Decidable True)

/-- The session an action announces. -/
def Action.connected? : Action → Option Connected
  | .socket _ (.message (some (.connected m))) => some m
  | _ => none

/-- The stream switch an action announces. -/
def Action.entitlement? : Action → Option EntitlementChanged
  | .socket _ (.message (some (.entitlementChanged m))) => some m
  | _ => none

/-- The answer of the REST service that arrives with an action. -/
def answer? (s : TckrGatewaySource) : Action → Option Snapshot
  | .snapshotArrived request => (s.snapshotRequests[request]?).bind SnapshotRequest.body
  | _ => none

/-- Nothing of another stream outlives the announcement of one: not in the dispatcher,
and across a reconnect not in the store either. A snapshot that arrives from the REST
service is of the stream in force. -/
def SwitchesClean (s : TckrGatewaySource) (a : Action) : Prop :=
  (∀ m ∈ a.connected?, s.store.OnlyFrom m.stream ∧ s.dispatcher.OnlyFrom m.stream) ∧
    (∀ m ∈ a.entitlement?, s.dispatcher.OnlyFrom m.stream) ∧
    ∀ body ∈ s.answer? a, s.Entitles body.stream

instance (s : TckrGatewaySource) (a : Action) : Decidable (s.SwitchesClean a) :=
  inferInstanceAs (Decidable (_ ∧ _ ∧ _))

variable {s t : TckrGatewaySource}

theorem OneStream.of_sameMarket (h : s.OneStream) (hst : SameMarket s t) : t.OneStream := by
  intro identity hidentity
  rw [hst.identityValue] at hidentity
  rw [hst.store, hst.dispatcher]
  exact h identity hidentity

theorem OneStream.ingestSnapshot (h : s.OneStream) {snapshot : Snapshot}
    (hs : ∀ identity ∈ s.identityValue, snapshot.stream = identity.stream) :
    (s.ingestSnapshot snapshot).OneStream := by
  intro identity hidentity
  obtain ⟨hstore, hdispatcher⟩ := h identity hidentity
  exact ⟨hstore.applySnapshot (hs identity hidentity) _, hdispatcher⟩

/-- After a switch the store is empty, so only the dispatcher has to be clean. -/
theorem OneStream.handleEntitlementChanged (h : s.OneStream) {m : EntitlementChanged}
    (hclean : s.dispatcher.OnlyFrom m.stream) : (s.handleEntitlementChanged m).OneStream := by
  unfold TckrGatewaySource.handleEntitlementChanged
  split
  · exact h
  · rename_i identity hidentity
    intro identity' hidentity'
    cases hidentity'
    refine ⟨?_, hclean⟩
    by_cases hswitch : identity.stream = m.stream
    · simp only [hswitch, ne_eq, not_true, ite_false]
      exact hswitch ▸ (h identity hidentity).1
    · simp only [ne_eq, hswitch, not_false_iff, ite_true]
      exact Store.onlyFrom_resetStream _ _

theorem OneStream.handleMessage (h : s.OneStream) {i : Nat} {m : Option ServerMessage}
    (hpromise : s.StreamPromise (.socket i (.message m)))
    (hclean : s.SwitchesClean (.socket i (.message m))) :
    ((s.announce i m).handleMessage m).OneStream := by
  cases m with
  | none => exact h
  | some m =>
    cases m with
    | connected m =>
      have hannounce := s.announce_sameMarket i (some (.connected m))
      generalize s.announce i (some (.connected m)) = u at hannounce ⊢
      have hsame := u.handleConnected_sameMarket m
      intro identity hidentity
      change identity ∈ (u.handleConnected m).identityValue at hidentity
      change (u.handleConnected m).store.OnlyFrom _ ∧ (u.handleConnected m).dispatcher.OnlyFrom _
      rw [hsame.identityValue] at hidentity
      cases hidentity
      rw [hsame.store, hsame.dispatcher, hannounce.store, hannounce.dispatcher]
      exact hclean.1 m rfl
    | subscribed m | unsubscribed m | heartbeat m => exact h
    | tick m =>
      intro identity hidentity
      obtain ⟨hstore, hdispatcher⟩ := h identity hidentity
      exact ⟨hstore, hdispatcher.push (hpromise identity hidentity)⟩
    | snapshot m => exact h.ingestSnapshot hpromise
    | error m => exact h.of_sameMarket (s.handleError_sameMarket m)
    | entitlementChanged m => exact h.handleEntitlementChanged (hclean.2.1 m rfl)

theorem OneStream.perform (h : s.OneStream) (c : Call) : (s.perform c).OneStream := by
  cases c with
  | connect => exact h.of_sameMarket s.connect_sameMarket
  | disconnect => exact h.of_sameMarket s.disconnect_sameMarket
  | reconnectSharedSource =>
    exact h.of_sameMarket (s.disconnect_sameMarket.trans (connect_sameMarket _))
  | subscribe symbols =>
    have hsame := s.subscribe_sameMarket symbols
    exact OneStream.of_sameMarket (s := { s with
      subscribedSymbols := s.subscribedSymbols.addAll (wanted symbols) }) h hsame
  | unsubscribe symbols =>
    have hsame := s.unsubscribe_sameMarket symbols
    exact OneStream.of_sameMarket (s := { s with
      subscribedSymbols := s.subscribedSymbols.deleteAll (wanted symbols) }) h hsame
  | getSnapshot symbol => exact h

theorem OneStream.step (h : s.OneStream) {a : Action} (hpromise : s.StreamPromise a)
    (hclean : s.SwitchesClean a) (hstep : s.step a = some t) : t.OneStream := by
  cases step_cases hstep with
  | call c => exact h.perform c
  | @opened i =>
    exact OneStream.of_sameMarket (s := s.setReadyState i .opened) h (handleOpen_sameMarket _)
  | message => exact h.handleMessage hpromise hclean
  | closing => exact h
  | @closed i code reason rand =>
    exact OneStream.of_sameMarket (s := s.setReadyState i .closed) h
      (handleClose_sameMarket _ code reason rand)
  | throttle => exact h.of_sameMarket s.throttleTimerFired_sameMarket
  | reconnect => exact h
  | @watchdog w due rand =>
    exact OneStream.of_sameMarket (s := { s with heartbeatWatchdog := some w.fired }) h
      (forceLocalClose_sameMarket _ rand)
  | ping => exact h.of_sameMarket s.ping_sameMarket
  | @continuation c rest hc =>
    obtain ⟨hidentity, hstore, hdispatcher, -⟩ :=
      resume_sameMarket { s with continuations := rest } c
    intro identity
    rw [hidentity, hstore, hdispatcher]
    exact h identity
  | frame =>
    intro identity hidentity
    obtain ⟨hstore, hdispatcher⟩ := h identity hidentity
    exact (hdispatcher.flushNow hstore s.now).symm
  | snapshotAnswered => exact h
  | snapshotArrived hidle hr =>
    refine OneStream.ingestSnapshot (s := { s with snapshotRequests := _ }) h ?_
    apply hclean.2.2
    rw [answer?, hr]
    rfl
  | snapshotFailed => exact h
  | universeArrived =>
    intro identity hidentity
    exact h identity hidentity
  | advance => exact h

end TckrGatewaySource

/-! ## The simulated source -/

namespace SimulatedSource

/-- The session is the demo user's, and so is what the source holds. -/
structure Entitled (s : SimulatedSource) : Prop where
  user : ∀ identity ∈ s.identityValue, identity.stream = resolveStream s.config.demoUser
  onlyFrom : s.OnlyFrom (resolveStream s.config.demoUser)

/-- A change of the demo user finds nothing of another stream in the dispatcher or the
delay queue, nor in the store when there is no session whose switch would clear it. -/
def SwitchesClean (s : SimulatedSource) : Action → Prop
  | .call (.simulateEntitlementChange nextDemoUser) =>
      s.dispatcher.OnlyFrom (resolveStream nextDemoUser) ∧
        (∀ envelope ∈ s.delayQueue, envelope.tick.st = resolveStream nextDemoUser) ∧
        (s.identityValue = none → s.store.OnlyFrom (resolveStream nextDemoUser))
  | _ => True

instance (s : SimulatedSource) (a : Action) : Decidable (s.SwitchesClean a) := by
  unfold SwitchesClean
  split
  · exact inferInstanceAs (Decidable (_ ∧ _ ∧ _))
  · exact inferInstanceAs (Decidable True)

variable {s t : SimulatedSource}

theorem Entitled.currentStream (h : s.Entitled) :
    s.currentStream = resolveStream s.config.demoUser := by
  unfold SimulatedSource.currentStream
  cases hidentity : s.identityValue with
  | none => rfl
  | some identity => exact h.user identity hidentity

theorem Entitled.of_quiet (h : s.Entitled) (hst : Quiet s t) : t.Entitled := by
  constructor
  · rw [hst.identityValue, hst.config]
    exact h.user
  · have honly := h.onlyFrom
    rw [← h.currentStream] at honly
    rw [hst.config, ← h.currentStream]
    exact hst.onlyFrom honly

theorem Entitled.of_sameMarket (h : s.Entitled) (hst : SameMarket s t) : t.Entitled := by
  constructor
  · rw [hst.identityValue, hst.config]
    exact h.user
  · rw [hst.config]
    constructor
    · rw [hst.store]
      exact h.onlyFrom.store
    · rw [hst.dispatcher]
      exact h.onlyFrom.dispatcher
    · rw [hst.delayQueue]
      exact h.onlyFrom.delayQueue

theorem Entitled.connect (h : s.Entitled) (calendar : Calendar) :
    (s.connect calendar).Entitled := by
  unfold SimulatedSource.connect
  split
  · exact h
  · dsimp only
    generalize hu : { s with
      connectAttempt := s.connectAttempt + 1
      currentConnectionState := .connecting (s.connectAttempt + 1)
      sessionCounter := s.sessionCounter + 1
      identityValue := some
        { userId := s.config.demoUser
          stream := resolveStream s.config.demoUser
          sessionId := "sim-session-" ++ toString (s.sessionCounter + 1) } } = u
    have hentitled : u.Entitled := by
      rw [← hu]
      refine ⟨?_, h.onlyFrom.store, h.onlyFrom.dispatcher, h.onlyFrom.delayQueue⟩
      intro identity hidentity
      cases hidentity
      rfl
    have hensured := hentitled.of_quiet (u.ensureSessionFor_quiet calendar)
    exact hensured.of_sameMarket ⟨rfl, rfl, rfl, rfl, rfl⟩

theorem Entitled.simulateEntitlementChange (h : s.Entitled) {nextDemoUser : String}
    (hdispatcher : s.dispatcher.OnlyFrom (resolveStream nextDemoUser))
    (hqueue : ∀ envelope ∈ s.delayQueue, envelope.tick.st = resolveStream nextDemoUser)
    (hstore : s.identityValue = none → s.store.OnlyFrom (resolveStream nextDemoUser)) :
    (s.simulateEntitlementChange nextDemoUser).Entitled := by
  have huser : ∀ identity ∈ s.identityValue.map fun identity =>
      { identity with userId := nextDemoUser, stream := resolveStream nextDemoUser },
      Identity.stream identity = resolveStream nextDemoUser := by
    intro identity hidentity
    obtain ⟨_, -, rfl⟩ := Option.map_eq_some_iff.mp hidentity
    rfl
  unfold SimulatedSource.simulateEntitlementChange
  dsimp only
  split
  · exact ⟨huser, Store.onlyFrom_resetStream _ _, hdispatcher, hqueue⟩
  · rename_i hsame
    refine ⟨huser, ?_, hdispatcher, hqueue⟩
    cases hidentity : s.identityValue with
    | none => exact hstore hidentity
    | some identity =>
      have hstream : identity.stream = resolveStream nextDemoUser := by
        by_contra hne
        refine hsame ⟨?_, ?_⟩
        · rw [hidentity]
          rfl
        · rw [hidentity, Option.map_some, ne_eq, Option.some.injEq]
          exact hne
      change s.store.OnlyFrom (resolveStream nextDemoUser)
      rw [← hstream, h.user identity hidentity]
      exact h.onlyFrom.store

theorem Entitled.perform (h : s.Entitled) {calendar : Calendar} {c : Call}
    (hclean : s.SwitchesClean (.call c)) : (s.perform calendar c).Entitled := by
  cases c with
  | connect => exact h.connect calendar
  | disconnect => exact h.of_quiet s.disconnect_quiet
  | subscribe symbols => exact h.of_sameMarket (s.subscribe_sameMarket symbols)
  | unsubscribe symbols => exact h.of_sameMarket ⟨rfl, rfl, rfl, rfl, rfl⟩
  | getSnapshot symbol => exact h.of_quiet (s.getSnapshot_quiet symbol)
  | getHistory symbol => exact h.of_quiet (s.getHistory_quiet calendar symbol)
  | simulateEntitlementChange nextDemoUser =>
    exact h.simulateEntitlementChange hclean.1 hclean.2.1 hclean.2.2
  | simulateDrop code => exact h.of_quiet (s.simulateDrop_quiet code)

theorem Entitled.step (h : s.Entitled) {calendar : Calendar} {a : Action}
    (hclean : s.SwitchesClean a) (hstep : s.step calendar a = some t) : t.Entitled := by
  have hedit : ∀ u, SameMarket s u → u.Entitled := fun u hu => h.of_sameMarket hu
  cases step_cases hstep with
  | call c => exact h.perform hclean
  | interval =>
    refine (hedit { s with intervalHandle := some (s.now + batchIntervalMs) } ?_).of_quiet
      (generateBatch_quiet _ calendar)
    exact ⟨rfl, rfl, rfl, rfl, rfl⟩
  | marketClock =>
    refine (hedit { s with marketClockHandle := some (s.now + marketClockIntervalMs) } ?_).of_quiet
      (ensureSessionFor_quiet _ calendar)
    exact ⟨rfl, rfl, rfl, rfl, rfl⟩
  | dropReconnect =>
    refine (hedit { s with dropReconnectTimer := none } ?_).connect calendar
    exact ⟨rfl, rfl, rfl, rfl, rfl⟩
  | drain =>
    refine (hedit { s with drainTimers := s.drainTimers - 1 } ?_).of_quiet
      (drainSnapshotRequests_quiet _)
    exact ⟨rfl, rfl, rfl, rfl, rfl⟩
  | frame =>
    obtain ⟨hdispatcher, hstore⟩ := h.onlyFrom.dispatcher.flushNow h.onlyFrom.store s.now
    exact ⟨h.user, hstore, hdispatcher, h.onlyFrom.delayQueue⟩
  | advance => exact hedit _ ⟨rfl, rfl, rfl, rfl, rfl⟩

theorem entitled_create (symbols : List SimSymbol) (config : SimulatedSourceConfig) :
    (create symbols config).Entitled := by
  refine ⟨?_, ?_, ?_, ?_⟩
  · intro identity hidentity
    cases hidentity
  · intro view hview
    exact absurd hview List.not_mem_nil
  · intro tick htick
    exact absurd htick List.not_mem_nil
  · intro envelope henvelope
    exact absurd henvelope List.not_mem_nil

end SimulatedSource

/-! ## Both sources -/

/-- In every run whose switches are clean, whatever the source shows carries the stream
of its identity. -/
theorem views_carry_identity_stream (as : List TckrGatewaySource.Action)
    (symbols : List SimSymbol) (calendar : Calendar) (config : SimulatedSourceConfig)
    (bs : List SimulatedSource.Action) :
    (∀ s, gateway.Guarded (fun s a => s.StreamPromise a ∧ s.SwitchesClean a) gateway.init as →
      gateway.run as = some s →
      ∀ identity, s.identityValue = some identity →
      ∀ symbol view, s.store.getSymbolSnapshot symbol = some view →
        view.stream = identity.stream) ∧
    ∀ s, (simulated symbols calendar config).Guarded SimulatedSource.SwitchesClean
        (simulated symbols calendar config).init bs →
      (simulated symbols calendar config).run bs = some s →
      ∀ identity, s.identityValue = some identity →
      ∀ symbol view, s.store.getSymbolSnapshot symbol = some view →
        view.stream = identity.stream := by
  constructor
  · intro s hg h identity hidentity symbol view hview
    have hone : s.OneStream := by
      refine Machine.run_invariant_of_guarded (m := gateway) (I := TckrGatewaySource.OneStream)
        ?_ ?_ hg h
      · intro identity' hnone
        cases hnone
      · intro s a t hs ha ht
        exact hs.step ha.1 ha.2 ht
    exact (hone identity hidentity).1.getSymbolSnapshot hview
  · intro s hg h identity hidentity symbol view hview
    have hentitled : s.Entitled := by
      refine Machine.run_invariant_of_guarded (m := simulated symbols calendar config)
        (I := SimulatedSource.Entitled) (SimulatedSource.entitled_create symbols config) ?_ hg h
      intro s a t hs ha ht
      exact hs.step ha ht
    rw [hentitled.user identity hidentity]
    exact hentitled.onlyFrom.store.getSymbolSnapshot hview

/-- A trade of the first instrument. -/
def comiTrade (stream : Stream) (id : String) : TckrGatewaySource.SocketEvent :=
  .message (some (.tick
    ⟨"COMI", comi.referencePrice, 100, .trade, "2026-01-04T08:00:01Z", id, stream⟩))

def switchTo (stream : Stream) : TckrGatewaySource.SocketEvent :=
  .message (some (.entitlementChanged ⟨stream, true, "2026-01-04T08:00:02Z"⟩))

/-- A primed source connected on the live stream. -/
def liveSession : List TckrGatewaySource.Action :=
  [.universeArrived [comi.toDefinition], .call .connect, .socket 0 .open,
    .socket 0 (TckrGatewaySource.hello .live)]

/-- A switch that finds every live tick painted already. -/
def paintedSwitch : List TckrGatewaySource.Action :=
  liveSession ++ [.socket 0 (comiTrade .live "evt-1"), .frame, .socket 0 (switchTo .delayed),
    .socket 0 (comiTrade .delayed "evt-0"), .frame]

/-- A live session of the simulator whose ticks are painted before its user is moved to
the delayed stream, and the delayed ticks after it. -/
def paintedSimulation : List SimulatedSource.Action :=
  [.call .connect, .call (.subscribe ["COMI"]), .advance 50, .timer .interval, .frame,
    .call (.simulateEntitlementChange "user-002"), .advance 50, .timer .interval, .advance 100,
    .timer .interval, .frame]

def paintedSource : TckrGatewaySource := (gateway.run paintedSwitch).getD {}

def paintedSimulator : SimulatedSource :=
  ((simulated [comi] alwaysOpen (demoConfig "user-001")).run paintedSimulation).getD
    (.create [] (demoConfig "user-001"))

/-- Both sources show the new stream after such a switch. -/
theorem painted_switches_carry_identity_stream :
    (∃ identity view, paintedSource.identityValue = some identity ∧
      paintedSource.store.getSymbolSnapshot "COMI" = some view ∧ identity.stream = .delayed ∧
      view.stream = identity.stream) ∧
    ∃ identity view, paintedSimulator.identityValue = some identity ∧
      paintedSimulator.store.getSymbolSnapshot "COMI" = some view ∧ identity.stream = .delayed ∧
      view.stream = identity.stream := by
  constructor
  · have hidentity : paintedSource.identityValue = some ⟨"user-001", .delayed, "session-1"⟩ := by
      decide +kernel
    obtain ⟨view, hview⟩ := Option.isSome_iff_exists.mp
      (show (paintedSource.store.getSymbolSnapshot "COMI").isSome = true by decide +kernel)
    exact ⟨_, view, hidentity, hview, rfl, (views_carry_identity_stream paintedSwitch [comi]
      alwaysOpen (demoConfig "user-001") paintedSimulation).1 paintedSource (by decide +kernel)
      (by decide +kernel) _ hidentity "COMI" view hview⟩
  · have hidentity :
        paintedSimulator.identityValue = some ⟨"user-002", .delayed, "sim-session-1"⟩ := by
      decide +kernel
    obtain ⟨view, hview⟩ := Option.isSome_iff_exists.mp
      (show (paintedSimulator.store.getSymbolSnapshot "COMI").isSome = true by decide +kernel)
    exact ⟨_, view, hidentity, hview, rfl, (views_carry_identity_stream paintedSwitch [comi]
      alwaysOpen (demoConfig "user-001") paintedSimulation).2 paintedSimulator (by decide +kernel)
      (by decide +kernel) _ hidentity "COMI" view hview⟩

/-- A live tick still pending when the stream is switched. -/
def pendingSwitch : List TckrGatewaySource.Action :=
  liveSession ++ [.socket 0 (comiTrade .live "evt-1"), .socket 0 (switchTo .delayed), .frame]

/-- A drop, and a reconnect whose session is on the delayed stream. -/
def switchOnReconnect : List TckrGatewaySource.Action :=
  liveSession ++ [.socket 0 (comiTrade .live "evt-1"), .frame, .socket 0 (.close 1006 "" 0),
    .advance 400, .timer .reconnect, .socket 1 .open, .continuation,
    .socket 1 (TckrGatewaySource.hello .delayed)]

/-- A delayed tick still queued when the user is moved to the live stream. -/
def queuedSimulation : List SimulatedSource.Action :=
  [.call .connect, .call (.subscribe ["COMI"]), .advance 50, .timer .interval,
    .call (.simulateEntitlementChange "user-001"), .advance 100, .timer .interval, .frame]

/-- Each of them leaves a view of the old stream in the store. -/
theorem switches_leave_old_stream :
    (gateway.Guarded TckrGatewaySource.StreamPromise gateway.init pendingSwitch ∧
      (gateway.run pendingSwitch).map (fun s => (s.identityValue.map Identity.stream,
        (s.store.getSymbolSnapshot "COMI").map SymbolView.stream)) =
        some (some .delayed, some .live)) ∧
    (gateway.Guarded TckrGatewaySource.StreamPromise gateway.init switchOnReconnect ∧
      (gateway.run switchOnReconnect).map (fun s => (s.identityValue.map Identity.stream,
        (s.store.getSymbolSnapshot "COMI").map SymbolView.stream)) =
        some (some .delayed, some .live)) ∧
    ((simulated [comi] alwaysOpen (demoConfig "user-002")).run queuedSimulation).map
      (fun s => (s.identityValue.map Identity.stream,
        (s.store.getSymbolSnapshot "COMI").map SymbolView.stream)) =
        some (some .live, some .delayed) := by
  decide +kernel

end Tckr.MarketWatch
