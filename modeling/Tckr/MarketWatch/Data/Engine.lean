import Tckr.MarketWatch.Data.Alike

/-!
# The moves of the engine

What each move of the simulated source writes. Answering requests and emitting
touch neither the runtimes nor the delay queue; following the calendar rewrites
the session and the live timer only; a batch follows the calendar, generates at
least one event while the market is open, and drains the queue. Every step is one
of these three: it leaves the engine alone, it follows the calendar, or it is a
batch.
-/

namespace Tckr.MarketWatch.SimulatedSource

/-! ## What a move writes -/

section Moves

variable (s : SimulatedSource)

theorem foldl_answer_eq (requests : List String) : ∃ store snapshots,
    requests.foldl answer s = { s with store := store, snapshots := snapshots } := by
  induction requests generalizing s with
  | nil => exact ⟨s.store, s.snapshots, rfl⟩
  | cons symbol requests ih =>
    obtain ⟨store, snapshots, hrest⟩ := ih (s.answer symbol)
    rw [List.foldl_cons, hrest]
    unfold answer
    split
    · exact ⟨store, snapshots, rfl⟩
    · exact ⟨store, snapshots, rfl⟩

theorem drainSnapshotRequests_eq : ∃ store snapshots, s.drainSnapshotRequests =
    { s with snapshotRequests := [], store := store, snapshots := snapshots } := by
  obtain ⟨store, snapshots, h⟩ :=
    foldl_answer_eq { s with snapshotRequests := [] } s.snapshotRequests
  exact ⟨store, snapshots, h⟩

theorem foldl_emit_eq (ticks : List Tick) : ∃ observed dispatcher,
    ticks.foldl emit s = { s with observed := observed, dispatcher := dispatcher } := by
  induction ticks generalizing s with
  | nil => exact ⟨s.observed, s.dispatcher, rfl⟩
  | cons tick ticks ih =>
    obtain ⟨observed, dispatcher, hrest⟩ := ih (s.emit tick)
    rw [List.foldl_cons, hrest]
    unfold emit
    split
    · exact ⟨observed, dispatcher, rfl⟩
    · exact ⟨observed, dispatcher, rfl⟩

theorem drainDelayedQueue_eq : ∃ observed dispatcher, s.drainDelayedQueue = { s with
    delayQueue := DelayLine.held DelayedEnvelope.releaseAt s.now s.delayQueue
    observed := observed
    dispatcher := dispatcher } := by
  obtain ⟨observed, dispatcher, h⟩ := foldl_emit_eq
    { s with delayQueue := DelayLine.held DelayedEnvelope.releaseAt s.now s.delayQueue }
    ((DelayLine.due DelayedEnvelope.releaseAt s.now s.delayQueue).map DelayedEnvelope.tick)
  exact ⟨observed, dispatcher, h⟩

theorem subscribe_eq (symbols : List String) : ∃ subscribed errors,
    s.subscribe symbols = { s with subscribed := subscribed, errors := errors } := by
  unfold subscribe
  induction symbols generalizing s with
  | nil => exact ⟨s.subscribed, s.errors, rfl⟩
  | cons symbol symbols ih =>
    obtain ⟨subscribed, errors, hrest⟩ := ih (s.subscribeOne symbol)
    rw [List.foldl_cons, hrest]
    unfold subscribeOne
    split
    · exact ⟨subscribed, errors, rfl⟩
    · exact ⟨subscribed, errors, rfl⟩

/-- When the live engine is due once the calendar has been followed. -/
def gated (state : MarketState) : Option Nat :=
  match state, s.intervalHandle with
  | .open, none => some (s.now + batchIntervalMs)
  | .open, some due => some due
  | .closed, _ => none

theorem gateEngine_eq (state : MarketState) :
    s.gateEngine state = { s with intervalHandle := s.gated state } := by
  unfold gateEngine gated
  cases state with
  | «open» =>
    cases h : s.intervalHandle with
    | none => rfl
    | some due =>
      dsimp only
      rw [← h]
  | closed => rfl

/-- The source on the session of the calendar. -/
def followed (status : MarketStatus) : SimulatedSource :=
  { s with
    runtimeBySymbol :=
      if s.Enters status then s.runtimeBySymbol.mapValues (s.reconstruct status)
      else s.runtimeBySymbol
    currentSessionDateKey := some status.sessionDateKey
    lastHistorySampleAt :=
      if s.Enters status then some (if status.state = .open then s.now else status.sessionCloseAt)
      else s.lastHistorySampleAt
    lastKnownMarketState := some status.state
    intervalHandle := s.gated status.state }

theorem ensureSessionFor_eq (calendar : Calendar) : ∃ store snapshots,
    s.ensureSessionFor calendar = { s.followed (calendar s.now) with
      snapshotRequests := [], store := store, snapshots := snapshots } := by
  have hentered : ({ s.enterSession (calendar s.now) with
        lastKnownMarketState := some (calendar s.now).state } : SimulatedSource).gateEngine
        (calendar s.now).state = s.followed (calendar s.now) := by
    rw [gateEngine_eq, followed]
    by_cases h : s.Enters (calendar s.now)
    · rw [enterSession_of_enters h, if_pos h, if_pos h]
      rfl
    · have hkey : some (calendar s.now).sessionDateKey = s.currentSessionDateKey :=
        not_ne_iff.mp fun hne => h (.inl hne)
      rw [enterSession_of_not_enters h, if_neg h, if_neg h, hkey]
      rfl
  unfold ensureSessionFor
  dsimp only
  rw [hentered]
  exact drainSnapshotRequests_eq _

theorem sampled_eq : ∃ runtimes last, s.sampled =
    { s with runtimeBySymbol := runtimes, lastHistorySampleAt := last } := by
  unfold sampled
  split
  · exact ⟨_, _, rfl⟩
  · exact ⟨_, _, rfl⟩

/-- Events move the generator, the runtimes and the queue, and are emitted. -/
theorem generateOne_eq : ∃ prng runtimes seq queue observed dispatcher, s.generateOne = { s with
    prng := prng
    runtimeBySymbol := runtimes
    globalEventSeq := seq
    delayQueue := queue
    observed := observed
    dispatcher := dispatcher } := by
  obtain ⟨prng, ⟨-, h⟩ | ⟨definition, runtime, -, -, h⟩⟩ := s.generateOne_cases
  · exact ⟨prng, s.runtimeBySymbol, s.globalEventSeq, s.delayQueue, s.observed, s.dispatcher, h⟩
  · rw [h, generateFor]
    generalize draw _ definition runtime = event
    dsimp only
    unfold deliver
    split
    · exact ⟨_, _, _, _, _, _, rfl⟩
    · unfold emit
      split
      · exact ⟨_, _, _, _, _, _, rfl⟩
      · exact ⟨_, _, _, _, _, _, rfl⟩

theorem iterate_generateOne_eq (n : Nat) : ∃ prng runtimes seq queue observed dispatcher,
    generateOne^[n] s = { s with
      prng := prng
      runtimeBySymbol := runtimes
      globalEventSeq := seq
      delayQueue := queue
      observed := observed
      dispatcher := dispatcher } := by
  induction n generalizing s with
  | zero => exact ⟨_, _, _, _, _, _, rfl⟩
  | succ n ih =>
    rw [Function.iterate_succ_apply]
    obtain ⟨_, _, _, _, _, _, hone⟩ := s.generateOne_eq
    obtain ⟨_, _, _, _, _, _, hrest⟩ := ih s.generateOne
    rw [hrest, hone]
    exact ⟨_, _, _, _, _, _, rfl⟩

end Moves

/-! ## What a step does to the engine -/

/-- The engine's own state is the same. -/
structure SameEngine (s t : SimulatedSource) : Prop where
  runtimes : t.runtimeBySymbol = s.runtimeBySymbol
  queue : t.delayQueue = s.delayQueue
  key : t.currentSessionDateKey = s.currentSessionDateKey
  state : t.lastKnownMarketState = s.lastKnownMarketState
  seq : t.globalEventSeq = s.globalEventSeq
  picker : t.picker = s.picker
  seed : t.config.seed = s.config.seed
  offset : t.config.delayedOffsetMs = s.config.delayedOffsetMs

theorem SameEngine.trans {s t u : SimulatedSource} (h : SameEngine s t) (h' : SameEngine t u) :
    SameEngine s u where
  runtimes := h'.runtimes.trans h.runtimes
  queue := h'.queue.trans h.queue
  key := h'.key.trans h.key
  state := h'.state.trans h.state
  seq := h'.seq.trans h.seq
  picker := h'.picker.trans h.picker
  seed := h'.seed.trans h.seed
  offset := h'.offset.trans h.offset

theorem SameEngine.enters {s t : SimulatedSource} (h : SameEngine s t) {status : MarketStatus} :
    t.Enters status ↔ s.Enters status := by
  rw [Enters, h.key, h.state, Enters]

/-- Two sources at one instant with the same engine follow the calendar to the same engine. -/
theorem SameEngine.followed {s t : SimulatedSource} (h : SameEngine s t) (hnow : t.now = s.now)
    (status : MarketStatus) : SameEngine (s.followed status) (t.followed status) := by
  have hreconstruct : t.reconstruct status = s.reconstruct status := by
    funext runtime
    rw [reconstruct, reconstruct, h.seed, hnow]
  refine ⟨?_, h.queue, rfl, rfl, h.seq, h.picker, h.seed, h.offset⟩
  simp only [SimulatedSource.followed, h.enters, h.runtimes, hreconstruct]

theorem ensureSessionFor_sameEngine (s : SimulatedSource) (calendar : Calendar) :
    SameEngine (s.followed (calendar s.now)) (s.ensureSessionFor calendar) := by
  obtain ⟨_, _, h⟩ := s.ensureSessionFor_eq calendar
  rw [h]
  exact ⟨rfl, rfl, rfl, rfl, rfl, rfl, rfl, rfl⟩

/-- The source as its live timer fires. -/
def rearmed (s : SimulatedSource) : SimulatedSource :=
  { s with intervalHandle := some (s.now + batchIntervalMs) }

/-- The step follows the calendar. -/
def Follows (s : SimulatedSource) : Action → Prop
  | .call .connect | .timer .dropReconnect => s.marketClockHandle = none
  | .call (.getHistory _) | .timer .interval | .timer .marketClock => True
  | _ => False

instance (s : SimulatedSource) : (a : Action) → Decidable (s.Follows a)
  | .call .connect | .timer .dropReconnect => inferInstanceAs (Decidable (_ = none))
  | .call (.getHistory _) | .timer .interval | .timer .marketClock =>
      inferInstanceAs (Decidable True)
  | .call .disconnect | .call (.subscribe _) | .call (.unsubscribe _) | .call (.getSnapshot _)
  | .call (.simulateEntitlementChange _) | .call (.simulateDrop _) | .timer .drain | .frame
  | .advance _ => inferInstanceAs (Decidable False)

theorem rearmed_sameEngine (s : SimulatedSource) : SameEngine s s.rearmed :=
  ⟨rfl, rfl, rfl, rfl, rfl, rfl, rfl, rfl⟩

/-- What a step does to the engine. -/
inductive EngineStep (calendar : Calendar) (s : SimulatedSource) : Action → SimulatedSource → Prop
  | idle {a t} (ha : ¬s.Follows a) (hsame : SameEngine s t) (hnow : s.now ≤ t.now) :
      EngineStep calendar s a t
  | follow {a t} (ha : s.Follows a) (hbatch : a ≠ .timer .interval)
      (hsame : SameEngine (s.followed (calendar s.now)) t) (hnow : t.now = s.now) :
      EngineStep calendar s a t
  | batch : EngineStep calendar s (.timer .interval) (s.rearmed.generateBatch calendar)

/-- Following the calendar from a source that differs outside the engine. -/
theorem followed_sameEngine (calendar : Calendar) {s u : SimulatedSource} (h : SameEngine s u)
    (hnow : u.now = s.now) :
    SameEngine (s.followed (calendar s.now)) (u.ensureSessionFor calendar) ∧
      (u.ensureSessionFor calendar).now = s.now := by
  have hfollowed := h.followed hnow (calendar s.now)
  rw [← hnow] at hfollowed ⊢
  exact ⟨hfollowed.trans (u.ensureSessionFor_sameEngine calendar),
    u.ensureSessionFor_clock calendar⟩

theorem connect_engineStep {calendar : Calendar} {s u : SimulatedSource} {a : Action}
    (ha : s.Follows a ↔ s.marketClockHandle = none) (hbatch : a ≠ .timer .interval)
    (h : SameEngine s u) (hnow : u.now = s.now)
    (hclock : u.marketClockHandle = s.marketClockHandle) :
    EngineStep calendar s a (u.connect calendar) := by
  by_cases hidle : u.marketClockHandle = none
  · have hidentified : SameEngine s u.identified :=
      h.trans ⟨rfl, rfl, rfl, rfl, rfl, rfl, rfl, rfl⟩
    obtain ⟨hsame, hnow'⟩ := followed_sameEngine calendar hidentified hnow
    rw [connect_of_idle hidle]
    exact .follow (ha.mpr (hclock ▸ hidle)) hbatch
      (hsame.trans ⟨rfl, rfl, rfl, rfl, rfl, rfl, rfl, rfl⟩) hnow'
  · rw [connect, if_pos (Option.isSome_iff_ne_none.mpr hidle)]
    exact .idle (fun hfollows => hidle (hclock.trans (ha.mp hfollows))) h hnow.ge

theorem step_engine {calendar : Calendar} {s t : SimulatedSource} {a : Action}
    (h : s.step calendar a = some t) : EngineStep calendar s a t := by
  have hsame : SameEngine s s := ⟨rfl, rfl, rfl, rfl, rfl, rfl, rfl, rfl⟩
  cases step_cases h with
  | call c =>
    cases c with
    | connect => exact connect_engineStep Iff.rfl (by simp) hsame rfl rfl
    | getHistory symbol =>
      obtain ⟨hfollowed, hnow⟩ := followed_sameEngine calendar hsame rfl
      exact .follow trivial (by simp)
        (hfollowed.trans ⟨rfl, rfl, rfl, rfl, rfl, rfl, rfl, rfl⟩) hnow
    | disconnect => exact .idle id ⟨rfl, rfl, rfl, rfl, rfl, rfl, rfl, rfl⟩ le_rfl
    | subscribe symbols =>
      obtain ⟨_, _, hsubscribe⟩ := s.subscribe_eq symbols
      rw [perform, hsubscribe]
      exact .idle id ⟨rfl, rfl, rfl, rfl, rfl, rfl, rfl, rfl⟩ le_rfl
    | unsubscribe symbols => exact .idle id ⟨rfl, rfl, rfl, rfl, rfl, rfl, rfl, rfl⟩ le_rfl
    | getSnapshot symbol => exact .idle id ⟨rfl, rfl, rfl, rfl, rfl, rfl, rfl, rfl⟩ le_rfl
    | simulateEntitlementChange user =>
      rw [perform, simulateEntitlementChange]
      dsimp only
      split
      · exact .idle id ⟨rfl, rfl, rfl, rfl, rfl, rfl, rfl, rfl⟩ le_rfl
      · exact .idle id ⟨rfl, rfl, rfl, rfl, rfl, rfl, rfl, rfl⟩ le_rfl
    | simulateDrop code =>
      by_cases hclock : s.marketClockHandle = none
      · rw [perform, simulateDrop, if_pos hclock]
        exact .idle id hsame le_rfl
      · obtain ⟨_, _, _, hdrop⟩ := simulateDrop_eq hclock code
        rw [perform, hdrop]
        exact .idle id ⟨rfl, rfl, rfl, rfl, rfl, rfl, rfl, rfl⟩ le_rfl
  | interval htimer hdue => exact .batch
  | marketClock htimer hdue =>
    have hrearmed : SameEngine s
        { s with marketClockHandle := some (s.now + marketClockIntervalMs) } :=
      ⟨rfl, rfl, rfl, rfl, rfl, rfl, rfl, rfl⟩
    obtain ⟨hfollowed, hnow⟩ := followed_sameEngine calendar hrearmed rfl
    exact .follow trivial (by simp) hfollowed hnow
  | dropReconnect htimer hdue =>
    exact connect_engineStep (u := { s with dropReconnectTimer := none }) Iff.rfl (by simp)
      ⟨rfl, rfl, rfl, rfl, rfl, rfl, rfl, rfl⟩ rfl rfl
  | drain htimers =>
    obtain ⟨_, _, hdrain⟩ := drainSnapshotRequests_eq { s with drainTimers := s.drainTimers - 1 }
    rw [hdrain]
    exact .idle id ⟨rfl, rfl, rfl, rfl, rfl, rfl, rfl, rfl⟩ le_rfl
  | frame hframe => exact .idle id ⟨rfl, rfl, rfl, rfl, rfl, rfl, rfl, rfl⟩ le_rfl
  | advance => exact .idle id ⟨rfl, rfl, rfl, rfl, rfl, rfl, rfl, rfl⟩ (Nat.le_add_right _ _)

theorem generateBatch_picker (s : SimulatedSource) (calendar : Calendar) :
    (s.generateBatch calendar).picker = s.picker := by
  have hsame := (s.ensureSessionFor_sameEngine calendar).picker
  rw [generateBatch_eq]
  split
  · exact hsame
  · generalize s.ensureSessionFor calendar = u at hsame
    obtain ⟨_, _, hsampled⟩ := u.sampled_eq
    obtain ⟨_, _, _, _, _, _, hgenerated⟩ := u.sampled.iterate_generateOne_eq u.sampled.perBatch
    obtain ⟨_, _, hdrained⟩ := (generateOne^[u.sampled.perBatch] u.sampled).drainDelayedQueue_eq
    rw [hdrained, hgenerated, hsampled]
    exact hsame

/-- No step adds or removes an instrument. -/
theorem EngineStep.universe {calendar : Calendar} {s t : SimulatedSource} {a : Action}
    (h : EngineStep calendar s a t) :
    t.picker = s.picker ∧ ∀ symbol, t.Knows symbol ↔ s.Knows symbol := by
  cases h with
  | idle ha hsame hnow =>
    exact ⟨hsame.picker, fun symbol => by rw [Knows, hsame.runtimes, Knows]⟩
  | follow ha hbatch hsame hnow =>
    refine ⟨hsame.picker, fun symbol => ?_⟩
    rw [Knows, hsame.runtimes, Knows]
    change symbol ∈ (if s.Enters (calendar s.now) then _ else _ : OrderedMap _ _).keys ↔ _
    split
    · rw [OrderedMap.keys_mapValues]
    · exact Iff.rfl
  | batch =>
    exact ⟨s.rearmed.generateBatch_picker calendar, (s.rearmed.generateBatch_quiet calendar).knows⟩

end Tckr.MarketWatch.SimulatedSource
