import Mathlib.Logic.Function.Iterate
import Tckr.MarketWatch.Data.Simulated

/-!
# What a step of the simulated source can do

Everything the source does on its own keeps the session: the entitled user, the
subscriptions and the instruments it knows. Whatever it adds to the store, the
dispatcher or the delay queue meanwhile comes from the current stream.
-/

namespace Tckr.MarketWatch.SimulatedSource

/-- The instrument exists in the source's universe. -/
def Knows (s : SimulatedSource) (symbol : String) : Prop := symbol ∈ s.runtimeBySymbol.keys

instance (s : SimulatedSource) (symbol : String) : Decidable (s.Knows symbol) :=
  inferInstanceAs (Decidable (symbol ∈ s.runtimeBySymbol.keys))

/-- All the market data the source holds comes from the stream. -/
structure OnlyFrom (stream : Stream) (s : SimulatedSource) : Prop where
  store : s.store.OnlyFrom stream
  dispatcher : s.dispatcher.OnlyFrom stream
  delayQueue : ∀ envelope ∈ s.delayQueue, envelope.tick.st = stream

/-- The same user and subscriptions over the same instruments. -/
structure SameSession (s t : SimulatedSource) : Prop where
  config : t.config = s.config
  identityValue : t.identityValue = s.identityValue
  subscribed : t.subscribed = s.subscribed
  knows : ∀ symbol, t.Knows symbol ↔ s.Knows symbol

namespace SameSession

variable {s t u : SimulatedSource}

theorem of_eq (hconfig : t.config = s.config) (hidentity : t.identityValue = s.identityValue)
    (hsubscribed : t.subscribed = s.subscribed)
    (hruntimes : t.runtimeBySymbol = s.runtimeBySymbol) : SameSession s t :=
  ⟨hconfig, hidentity, hsubscribed, fun symbol => by rw [Knows, hruntimes, Knows]⟩

theorem trans (h : SameSession s t) (h' : SameSession t u) : SameSession s u where
  config := h'.config.trans h.config
  identityValue := h'.identityValue.trans h.identityValue
  subscribed := h'.subscribed.trans h.subscribed
  knows symbol := (h'.knows symbol).trans (h.knows symbol)

theorem currentStream (h : SameSession s t) : t.currentStream = s.currentStream := by
  rw [SimulatedSource.currentStream, h.identityValue, h.config]
  rfl

end SameSession

/-- The same session, with at most the current stream's data added. -/
structure Quiet (s t : SimulatedSource) : Prop extends SameSession s t where
  onlyFrom : s.OnlyFrom s.currentStream → t.OnlyFrom s.currentStream

namespace Quiet

variable {s t u : SimulatedSource}

/-- Editing what is neither session nor market data. -/
theorem of_eq (h : SameSession s t) (hstore : t.store = s.store)
    (hdispatcher : t.dispatcher = s.dispatcher) (hqueue : t.delayQueue = s.delayQueue) :
    Quiet s t := by
  refine ⟨h, fun hs => ⟨?_, ?_, ?_⟩⟩
  · rw [hstore]
    exact hs.store
  · rw [hdispatcher]
    exact hs.dispatcher
  · rw [hqueue]
    exact hs.delayQueue

theorem refl (s : SimulatedSource) : Quiet s s := of_eq (.of_eq rfl rfl rfl rfl) rfl rfl rfl

theorem trans (h : Quiet s t) (h' : Quiet t u) : Quiet s u := by
  refine ⟨h.toSameSession.trans h'.toSameSession, fun hs => ?_⟩
  have ht := h.onlyFrom hs
  rw [← h.currentStream] at ht ⊢
  exact h'.onlyFrom ht

end Quiet

/-- The same user and the same market data. -/
structure SameMarket (s t : SimulatedSource) : Prop where
  config : t.config = s.config
  identityValue : t.identityValue = s.identityValue
  store : t.store = s.store
  dispatcher : t.dispatcher = s.dispatcher
  delayQueue : t.delayQueue = s.delayQueue

theorem SameMarket.trans {s t u : SimulatedSource} (h : SameMarket s t) (h' : SameMarket t u) :
    SameMarket s u where
  config := h'.config.trans h.config
  identityValue := h'.identityValue.trans h.identityValue
  store := h'.store.trans h.store
  dispatcher := h'.dispatcher.trans h.dispatcher
  delayQueue := h'.delayQueue.trans h.delayQueue

/-! ## Snapshots -/

section Snapshots

variable (s : SimulatedSource)

theorem answer_quiet (symbol : String) : Quiet s (s.answer symbol) := by
  unfold answer
  split
  · exact .of_eq (.of_eq rfl rfl rfl rfl) rfl rfl rfl
  · refine ⟨.of_eq rfl rfl rfl rfl, fun h => ⟨?_, h.dispatcher, h.delayQueue⟩⟩
    apply h.store.applySnapshot
    rfl

theorem drainSnapshotRequests_quiet : Quiet s s.drainSnapshotRequests := by
  have hempty : Quiet s { s with snapshotRequests := [] } :=
    .of_eq (.of_eq rfl rfl rfl rfl) rfl rfl rfl
  unfold drainSnapshotRequests
  generalize s.snapshotRequests = requests
  generalize { s with snapshotRequests := [] } = t at hempty ⊢
  induction requests generalizing t with
  | nil => exact hempty
  | cons symbol requests ih =>
    rw [List.foldl_cons]
    exact ih _ (hempty.trans (t.answer_quiet symbol))

theorem getSnapshot_quiet (symbol : String) : Quiet s (s.getSnapshot symbol) :=
  .of_eq (.of_eq rfl rfl rfl rfl) rfl rfl rfl

end Snapshots

/-! ## The live engine -/

section Engine

variable {s : SimulatedSource}

/-- A subscribed symbol's tick reaches `on.tick` and the dispatcher. -/
theorem emit_of_mem {tick : Tick} (h : tick.s ∈ s.subscribed) :
    (s.emit tick).observed = s.observed ++ [tick] ∧
      (s.emit tick).dispatcher = s.dispatcher.push tick := by
  rw [emit, if_pos h]
  exact ⟨rfl, rfl⟩

theorem emit_sameSession (s : SimulatedSource) (tick : Tick) : SameSession s (s.emit tick) := by
  unfold emit
  split
  · exact .of_eq rfl rfl rfl rfl
  · exact .of_eq rfl rfl rfl rfl

theorem OnlyFrom.emit {stream : Stream} (h : s.OnlyFrom stream) {tick : Tick}
    (ht : tick.st = stream) : (s.emit tick).OnlyFrom stream := by
  unfold SimulatedSource.emit
  split
  · exact ⟨h.store, h.dispatcher.push ht, h.delayQueue⟩
  · exact h

theorem deliver_quiet {tick : Tick} (h : tick.st = s.currentStream) : Quiet s (s.deliver tick) := by
  unfold deliver
  split
  · refine ⟨.of_eq rfl rfl rfl rfl, fun hs => ⟨hs.store, hs.dispatcher, ?_⟩⟩
    intro envelope henvelope
    rcases List.mem_append.mp henvelope with henvelope | henvelope
    · exact hs.delayQueue envelope henvelope
    · rw [List.mem_singleton.mp henvelope]
      exact h
  · exact ⟨s.emit_sameSession tick, fun hs => hs.emit h⟩

theorem foldl_emit_sameSession (s : SimulatedSource) (ticks : List Tick) :
    SameSession s (ticks.foldl emit s) := by
  induction ticks generalizing s with
  | nil => exact .of_eq rfl rfl rfl rfl
  | cons tick ticks ih => exact (s.emit_sameSession tick).trans (ih _)

theorem OnlyFrom.foldl_emit {stream : Stream} (h : s.OnlyFrom stream) {ticks : List Tick}
    (hticks : ∀ tick ∈ ticks, tick.st = stream) :
    (ticks.foldl SimulatedSource.emit s).OnlyFrom stream := by
  induction ticks generalizing s with
  | nil => exact h
  | cons tick ticks ih =>
    rw [List.foldl_cons]
    apply ih
    · exact h.emit (hticks tick List.mem_cons_self)
    · intro tick' htick'
      exact hticks tick' (List.mem_cons_of_mem tick htick')

theorem drainDelayedQueue_quiet (s : SimulatedSource) : Quiet s s.drainDelayedQueue := by
  unfold drainDelayedQueue
  dsimp only
  generalize hdue : (fun envelope : DelayedEnvelope => decide (envelope.releaseAt ≤ s.now)) = isDue
  have hrest : SameSession s { s with delayQueue := s.delayQueue.dropWhile isDue } :=
    .of_eq rfl rfl rfl rfl
  refine ⟨hrest.trans (foldl_emit_sameSession _ _), fun h => ?_⟩
  apply OnlyFrom.foldl_emit
  · refine ⟨h.store, h.dispatcher, fun envelope henvelope => ?_⟩
    exact h.delayQueue envelope (List.dropWhile_suffix _ |>.subset henvelope)
  · intro tick htick
    obtain ⟨envelope, henvelope, rfl⟩ := List.mem_map.mp htick
    exact h.delayQueue envelope (List.takeWhile_prefix _ |>.subset henvelope)

theorem generateFor_quiet (s : SimulatedSource) {definition : SimSymbol} {runtime : SymbolRuntime}
    (h : s.runtimeBySymbol.get? definition.symbol = some runtime) :
    Quiet s (s.generateFor definition runtime) := by
  have hst : (s.draw definition runtime).tick.st = s.currentStream := rfl
  unfold generateFor
  generalize s.draw definition runtime = event at hst ⊢
  have hmoved : Quiet s { s with
      prng := event.prng
      globalEventSeq := s.globalEventSeq + 1
      runtimeBySymbol := s.runtimeBySymbol.set definition.symbol event.runtime } := by
    refine .of_eq ⟨rfl, rfl, rfl, fun symbol => ?_⟩ rfl rfl rfl
    rw [Knows, Knows, OrderedMap.mem_keys_set, or_iff_left_iff_imp]
    rintro rfl
    rw [← OrderedMap.isSome_get?, h]
    rfl
  exact hmoved.trans (deliver_quiet (hst.trans hmoved.currentStream.symm))

theorem generateOne_quiet (s : SimulatedSource) : Quiet s s.generateOne := by
  unfold generateOne
  dsimp only
  split
  · exact .of_eq (.of_eq rfl rfl rfl rfl) rfl rfl rfl
  · split
    · exact .of_eq (.of_eq rfl rfl rfl rfl) rfl rfl rfl
    · rename_i hruntime
      refine .trans ?_ (generateFor_quiet _ hruntime)
      exact .of_eq (.of_eq rfl rfl rfl rfl) rfl rfl rfl

theorem iterate_generateOne_quiet (s : SimulatedSource) (n : Nat) :
    Quiet s (generateOne^[n] s) := by
  induction n with
  | zero => exact .refl s
  | succ n ih =>
    rw [Function.iterate_succ_apply']
    exact ih.trans (generateOne_quiet _)

end Engine

/-! ## The session clock -/

section Session

variable (s : SimulatedSource)

/-- Rewriting every runtime in place keeps the instruments. -/
theorem mapValues_quiet (f : SymbolRuntime → SymbolRuntime) :
    Quiet s { s with runtimeBySymbol := s.runtimeBySymbol.mapValues f } := by
  refine .of_eq ⟨rfl, rfl, rfl, fun symbol => ?_⟩ rfl rfl rfl
  rw [Knows, Knows, OrderedMap.keys_mapValues]

theorem sampleHistory_quiet : Quiet s s.sampleHistory := by
  refine .trans (s.mapValues_quiet fun runtime => runtime.sample s.now) ?_
  exact .of_eq (.of_eq rfl rfl rfl rfl) rfl rfl rfl

theorem enterSession_quiet (status : MarketStatus) : Quiet s (s.enterSession status) := by
  unfold enterSession
  split
  · dsimp only
    generalize (if status.state = .open then s.now else status.sessionCloseAt) = target
    refine .trans
      (t := s.backfillAllSymbols status.sessionDateKey status.sessionOpenAt target) ?_ ?_
    · exact s.mapValues_quiet _
    · exact .of_eq (.of_eq rfl rfl rfl rfl) rfl rfl rfl
  · exact .refl s

theorem gateEngine_quiet (state : MarketState) : Quiet s (s.gateEngine state) := by
  unfold gateEngine
  split
  · exact .of_eq (.of_eq rfl rfl rfl rfl) rfl rfl rfl
  · exact .refl s
  · exact .of_eq (.of_eq rfl rfl rfl rfl) rfl rfl rfl

theorem ensureSessionFor_quiet (calendar : Calendar) : Quiet s (s.ensureSessionFor calendar) := by
  unfold ensureSessionFor
  refine .trans ?_ (drainSnapshotRequests_quiet _)
  refine .trans ?_ (gateEngine_quiet _ _)
  refine (s.enterSession_quiet (calendar s.now)).trans ?_
  exact .of_eq (.of_eq rfl rfl rfl rfl) rfl rfl rfl

theorem generateBatch_quiet (calendar : Calendar) : Quiet s (s.generateBatch calendar) := by
  have hsession := s.ensureSessionFor_quiet calendar
  unfold generateBatch
  dsimp only
  generalize s.ensureSessionFor calendar = t at hsession ⊢
  have hsample : Quiet t (if t.SampleDue then t.sampleHistory else t) := by
    split
    · exact t.sampleHistory_quiet
    · exact .refl t
  split
  · exact hsession
  · refine .trans ?_ (drainDelayedQueue_quiet _)
    exact (hsession.trans hsample).trans (iterate_generateOne_quiet _ _)

theorem getHistory_quiet (calendar : Calendar) (symbol : String) :
    Quiet s (s.getHistory calendar symbol) := by
  refine (s.ensureSessionFor_quiet calendar).trans ?_
  exact .of_eq (.of_eq rfl rfl rfl rfl) rfl rfl rfl

end Session

/-! ## Calls -/

section Calls

variable (s : SimulatedSource)

/-- A known symbol is subscribed; nothing that was subscribed is given up. -/
theorem subscribeOne_keeps (symbol : String) :
    (s.subscribeOne symbol).runtimeBySymbol = s.runtimeBySymbol ∧
      ∀ other, other ∈ s.subscribed ∨ other = symbol ∧ s.Knows symbol →
        other ∈ (s.subscribeOne symbol).subscribed := by
  unfold subscribeOne
  split
  · refine ⟨rfl, fun other hother => ?_⟩
    exact OrderedSet.mem_add.mpr (hother.imp_right And.left)
  · rename_i hunknown
    refine ⟨rfl, fun other hother => ?_⟩
    rcases hother with hother | ⟨-, hknown⟩
    · exact hother
    · exact absurd (OrderedMap.isSome_get?.mpr hknown) hunknown

theorem mem_subscribe {symbols : List String} {symbol : String}
    (h : symbol ∈ s.subscribed ∨ symbol ∈ symbols ∧ s.Knows symbol) :
    symbol ∈ (s.subscribe symbols).subscribed := by
  unfold subscribe
  induction symbols generalizing s with
  | nil =>
    rcases h with h | ⟨h, -⟩
    · exact h
    · exact absurd h List.not_mem_nil
  | cons first rest ih =>
    obtain ⟨hruntimes, hmem⟩ := s.subscribeOne_keeps first
    rw [List.foldl_cons]
    apply ih
    rw [Knows, hruntimes]
    rcases h with h | ⟨h, hknown⟩
    · exact Or.inl (hmem symbol (Or.inl h))
    · rcases List.mem_cons.mp h with rfl | h
      · exact Or.inl (hmem symbol (Or.inr ⟨rfl, hknown⟩))
      · exact Or.inr ⟨h, hknown⟩

/-- Subscribing touches no market data. -/
theorem subscribe_sameMarket (symbols : List String) : SameMarket s (s.subscribe symbols) := by
  unfold subscribe
  induction symbols generalizing s with
  | nil => exact ⟨rfl, rfl, rfl, rfl, rfl⟩
  | cons first rest ih =>
    have hfirst : SameMarket s (s.subscribeOne first) := by
      unfold subscribeOne
      split
      · exact ⟨rfl, rfl, rfl, rfl, rfl⟩
      · exact ⟨rfl, rfl, rfl, rfl, rfl⟩
    exact hfirst.trans (ih _)

theorem disconnect_quiet : Quiet s s.disconnect := .of_eq (.of_eq rfl rfl rfl rfl) rfl rfl rfl

theorem simulateDrop_quiet (code : CloseCode) : Quiet s (s.simulateDrop code) := by
  unfold simulateDrop
  split
  · exact .refl s
  · dsimp only
    split
    · exact .of_eq (.of_eq rfl rfl rfl rfl) rfl rfl rfl
    · exact .of_eq (.of_eq rfl rfl rfl rfl) rfl rfl rfl

end Calls

/-! ## Steps -/

variable {calendar : Calendar} {s t : SimulatedSource}

/-- What a step of the simulated source can do. -/
inductive Step (calendar : Calendar) (s : SimulatedSource) : Action → SimulatedSource → Prop
  | call (c : Call) : Step calendar s (.call c) (s.perform calendar c)
  | interval {due} (htimer : s.intervalHandle = some due) (hdue : due ≤ s.now) :
      Step calendar s (.timer .interval)
        ({ s with intervalHandle := some (s.now + batchIntervalMs) }.generateBatch calendar)
  | marketClock {due} (htimer : s.marketClockHandle = some due) (hdue : due ≤ s.now) :
      Step calendar s (.timer .marketClock)
        ({ s with
          marketClockHandle := some (s.now + marketClockIntervalMs) }.ensureSessionFor calendar)
  | dropReconnect {due} (htimer : s.dropReconnectTimer = some due) (hdue : due ≤ s.now) :
      Step calendar s (.timer .dropReconnect)
        ({ s with dropReconnectTimer := none }.connect calendar)
  | drain (htimers : 0 < s.drainTimers) :
      Step calendar s (.timer .drain)
        { s with drainTimers := s.drainTimers - 1 }.drainSnapshotRequests
  | frame (hframe : s.dispatcher.frameRequested = true) :
      Step calendar s .frame { s with
        dispatcher := (s.dispatcher.flushNow s.store s.now).1
        store := (s.dispatcher.flushNow s.store s.now).2 }
  | advance {ms} : Step calendar s (.advance ms) { s with now := s.now + ms }

theorem timerFired_cases {timer : Timer} (h : s.timerFired calendar timer = some t) :
    Step calendar s (.timer timer) t := by
  cases timer with
  | interval =>
    dsimp only [timerFired] at h
    split at h
    · split at h
      · cases h
        exact .interval ‹_› ‹_›
      · cases h
    · cases h
  | marketClock =>
    dsimp only [timerFired] at h
    split at h
    · split at h
      · cases h
        exact .marketClock ‹_› ‹_›
      · cases h
    · cases h
  | dropReconnect =>
    dsimp only [timerFired] at h
    split at h
    · split at h
      · cases h
        exact .dropReconnect ‹_› ‹_›
      · cases h
    · cases h
  | drain =>
    dsimp only [timerFired] at h
    split at h
    · cases h
      exact .drain ‹_›
    · cases h

theorem step_cases {a : Action} (h : s.step calendar a = some t) : Step calendar s a t := by
  cases a with
  | call c =>
    cases h
    exact .call c
  | timer timer => exact timerFired_cases h
  | frame =>
    dsimp only [step] at h
    split at h
    · cases h
      exact .frame ‹_›
    · cases h
  | advance ms =>
    cases h
    exact .advance

end Tckr.MarketWatch.SimulatedSource
