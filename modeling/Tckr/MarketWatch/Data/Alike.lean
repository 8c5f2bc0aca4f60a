import Mathlib.Logic.Function.Iterate
import Tckr.MarketWatch.Data.WithheldTape

/-!
# Sources a delayed client cannot tell apart

Two simulated sources of the same delayed client are alike when they differ only in
what the client cannot observe: the generator, the tape running ahead of the delay,
and the retry it times. Every move of the source keeps two sources alike as long as
no runtime is shown whose last event is still withheld.
-/

namespace Tckr.MarketWatch.SimulatedSource

/-- The part of the source the client does not observe. -/
structure Hidden where
  eventsPerSecond : Nat
  seed : Nat
  prng : Mulberry32
  runtimeBySymbol : OrderedMap String SymbolRuntime
  delayQueue : List DelayedEnvelope
  globalEventSeq : Nat
  currentConnectionState : ConnectionState
  dropReconnectTimer : Option Rat

def hidden (s : SimulatedSource) : Hidden where
  eventsPerSecond := s.config.eventsPerSecond
  seed := s.config.seed
  prng := s.prng
  runtimeBySymbol := s.runtimeBySymbol
  delayQueue := s.delayQueue
  globalEventSeq := s.globalEventSeq
  currentConnectionState := s.currentConnectionState
  dropReconnectTimer := s.dropReconnectTimer

def withHidden (s : SimulatedSource) (v : Hidden) : SimulatedSource :=
  { s with
    config := { s.config with eventsPerSecond := v.eventsPerSecond, seed := v.seed }
    prng := v.prng
    runtimeBySymbol := v.runtimeBySymbol
    delayQueue := v.delayQueue
    globalEventSeq := v.globalEventSeq
    currentConnectionState := v.currentConnectionState
    dropReconnectTimer := v.dropReconnectTimer }

/-- The tape running ahead of the delay. -/
def tape (s : SimulatedSource) : WithheldTape where
  runtimes := s.runtimeBySymbol
  queue := s.delayQueue
  now := s.now
  offset := s.config.delayedOffsetMs

/-- Two sources that a delayed client cannot tell apart by the time. -/
structure Alike (time : Nat) (s t : SimulatedSource) : Prop where
  visible : t = s.withHidden t.hidden
  tape : s.tape.Agree time t.tape

namespace Alike

variable {time : Nat} {s t : SimulatedSource} {symbol : String}

theorem now (h : Alike time s t) : t.now = s.now := h.tape.now.symm

theorem snapshotRequests (h : Alike time s t) : t.snapshotRequests = s.snapshotRequests := by
  rw [h.visible]
  rfl

/-- An instrument withheld by neither shows the same. -/
theorem get?_eq (h : Alike time s t) (hs : ¬s.tape.Withheld time symbol)
    (ht : ¬t.tape.Withheld time symbol) :
    s.runtimeBySymbol.get? symbol = t.runtimeBySymbol.get? symbol :=
  ((h.tape.runtimes symbol).resolve_left hs).resolve_left ht

/-- A move that leaves the tape alone and reads nothing hidden. -/
theorem keep (h : Alike time s t) (f : SimulatedSource → SimulatedSource)
    (htape : ∀ u, (f u).tape = u.tape)
    (hvisible : ∀ v, f (s.withHidden v) = (f s).withHidden (f (s.withHidden v)).hidden) :
    Alike time (f s) (f t) where
  visible := by
    have hft := hvisible t.hidden
    rwa [← h.visible] at hft
  tape := by
    rw [htape, htape]
    exact h.tape

/-! ## Snapshots -/

end Alike

theorem answer_tape (s : SimulatedSource) (symbol : String) : (s.answer symbol).tape = s.tape := by
  unfold answer
  split
  · rfl
  · rfl

theorem foldl_answer_tape (s : SimulatedSource) (requests : List String) :
    (requests.foldl answer s).tape = s.tape := by
  induction requests generalizing s with
  | nil => rfl
  | cons symbol requests ih => rw [List.foldl_cons, ih, answer_tape]

namespace Alike

variable {time : Nat} {s t : SimulatedSource} {symbol : String}

theorem answer (h : Alike time s t)
    (hsame : s.runtimeBySymbol.get? symbol = t.runtimeBySymbol.get? symbol) :
    Alike time (s.answer symbol) (t.answer symbol) where
  visible := by
    have hvisible := h.visible
    unfold SimulatedSource.answer
    rw [← hsame]
    generalize t.hidden = v at hvisible
    subst hvisible
    cases s.runtimeBySymbol.get? symbol with
    | none => rfl
    | some runtime => rfl
  tape := by
    rw [answer_tape, answer_tape]
    exact h.tape

theorem foldl_answer (h : Alike time s t) {requests : List String}
    (hsame : ∀ symbol ∈ requests,
      s.runtimeBySymbol.get? symbol = t.runtimeBySymbol.get? symbol) :
    Alike time (requests.foldl SimulatedSource.answer s)
      (requests.foldl SimulatedSource.answer t) := by
  induction requests generalizing s t with
  | nil => exact h
  | cons symbol requests ih =>
    apply ih (h.answer (hsame symbol List.mem_cons_self))
    intro other hother
    have hs := congrArg WithheldTape.runtimes (s.answer_tape symbol)
    have ht := congrArg WithheldTape.runtimes (t.answer_tape symbol)
    exact (congrArg (OrderedMap.get? · other) hs).trans
      ((hsame other (List.mem_cons_of_mem _ hother)).trans
        (congrArg (OrderedMap.get? · other) ht).symm)

/-- Requests are answered alike when what they show is the same. -/
theorem drainSnapshotRequests (h : Alike time s t)
    (hsame : ∀ symbol ∈ s.snapshotRequests,
      s.runtimeBySymbol.get? symbol = t.runtimeBySymbol.get? symbol) :
    Alike time s.drainSnapshotRequests t.drainSnapshotRequests := by
  unfold SimulatedSource.drainSnapshotRequests
  rw [h.snapshotRequests]
  have hempty := h.keep (fun u => { u with snapshotRequests := [] }) (fun _ => rfl) (fun _ => rfl)
  exact hempty.foldl_answer hsame

end Alike

/-! ## The session clock -/

/-- The session or the market's state has changed. -/
def Enters (s : SimulatedSource) (status : MarketStatus) : Prop :=
  some status.sessionDateKey ≠ s.currentSessionDateKey ∨
    some status.state ≠ s.lastKnownMarketState

instance (s : SimulatedSource) (status : MarketStatus) : Decidable (s.Enters status) :=
  inferInstanceAs (Decidable (_ ∨ _))

/-- How entering the session rewrites a runtime. -/
def reconstruct (s : SimulatedSource) (status : MarketStatus) (runtime : SymbolRuntime) :
    SymbolRuntime :=
  runtime.backfill s.config.seed status.sessionDateKey status.sessionOpenAt
    (if status.state = .open then s.now else status.sessionCloseAt)

/-- Both sources reconstruct the same session. -/
def SameSessions (status : MarketStatus) (s t : SimulatedSource) : Prop :=
  ∀ runtime ∈ s.runtimeBySymbol.values, s.reconstruct status runtime = t.reconstruct status runtime

instance (status : MarketStatus) (s t : SimulatedSource) : Decidable (SameSessions status s t) :=
  inferInstanceAs (Decidable (∀ runtime ∈ s.runtimeBySymbol.values, _))

theorem enterSession_of_enters {s : SimulatedSource} {status : MarketStatus}
    (h : s.Enters status) : s.enterSession status = { s with
      runtimeBySymbol := s.runtimeBySymbol.mapValues (s.reconstruct status)
      currentSessionDateKey := some status.sessionDateKey
      lastHistorySampleAt :=
        some (if status.state = .open then s.now else status.sessionCloseAt) } :=
  if_pos h

theorem enterSession_of_not_enters {s : SimulatedSource} {status : MarketStatus}
    (h : ¬s.Enters status) : s.enterSession status = s :=
  if_neg h

theorem enterSession_snapshotRequests (s : SimulatedSource) (status : MarketStatus) :
    (s.enterSession status).snapshotRequests = s.snapshotRequests := by
  by_cases h : s.Enters status
  · rw [enterSession_of_enters h]
  · rw [enterSession_of_not_enters h]

theorem gateEngine_tape (s : SimulatedSource) (state : MarketState) :
    (s.gateEngine state).tape = s.tape := by
  unfold gateEngine
  split
  · rfl
  · rfl
  · rfl

theorem gateEngine_snapshotRequests (s : SimulatedSource) (state : MarketState) :
    (s.gateEngine state).snapshotRequests = s.snapshotRequests := by
  unfold gateEngine
  split
  · rfl
  · rfl
  · rfl

theorem ensureSessionFor_tape (s : SimulatedSource) (calendar : Calendar) :
    (s.ensureSessionFor calendar).tape = (s.enterSession (calendar s.now)).tape := by
  unfold ensureSessionFor drainSnapshotRequests
  rw [foldl_answer_tape]
  exact gateEngine_tape _ _

namespace Alike

variable {time : Nat} {s t : SimulatedSource} {symbol : String}

theorem enters (h : Alike time s t) (status : MarketStatus) :
    t.Enters status ↔ s.Enters status := by
  rw [h.visible]
  rfl

/-- After following the calendar, an instrument shows the same if it did before or the session was
reconstructed. -/
theorem get?_enterSession (h : Alike time s t) {status : MarketStatus}
    (hsessions : s.Enters status → SameSessions status s t)
    (hshown : s.Enters status ∨
      s.runtimeBySymbol.get? symbol = t.runtimeBySymbol.get? symbol) :
    (s.enterSession status).runtimeBySymbol.get? symbol =
      (t.enterSession status).runtimeBySymbol.get? symbol := by
  by_cases henters : s.Enters status
  · rw [enterSession_of_enters henters, enterSession_of_enters ((h.enters status).mpr henters)]
    refine h.tape.get?_rebuild (fun symbol runtime hruntime runtime' _ hdefinition => ?_) symbol
    rw [hsessions henters runtime (OrderedMap.get?_eq_some_of_mem hruntime)]
    unfold reconstruct SymbolRuntime.backfill
    rw [hdefinition]
  · rw [enterSession_of_not_enters henters,
      enterSession_of_not_enters (henters ∘ (h.enters status).mp)]
    exact hshown.resolve_left henters

theorem enterSession (h : Alike time s t) {status : MarketStatus}
    (hsessions : s.Enters status → SameSessions status s t) :
    Alike time (s.enterSession status) (t.enterSession status) := by
  by_cases henters : s.Enters status
  · have hsame : ∀ symbol, (s.enterSession status).runtimeBySymbol.get? symbol =
        (t.enterSession status).runtimeBySymbol.get? symbol :=
      fun _ => h.get?_enterSession hsessions (.inl henters)
    rw [enterSession_of_enters henters, enterSession_of_enters ((h.enters status).mpr henters)]
      at hsame ⊢
    refine ⟨?_, h.tape.of_runtimes_eq hsame⟩
    rw [h.visible]
    rfl
  · rw [enterSession_of_not_enters henters,
      enterSession_of_not_enters (henters ∘ (h.enters status).mp)]
    exact h

theorem gateEngine (h : Alike time s t) (state : MarketState) :
    Alike time (s.gateEngine state) (t.gateEngine state) := by
  refine h.keep (SimulatedSource.gateEngine · state) (gateEngine_tape · state) (fun v => ?_)
  unfold SimulatedSource.gateEngine
  cases state with
  | «open» =>
    cases hinterval : s.intervalHandle with
    | none => simp only [withHidden, hinterval]; rfl
    | some due => simp only [withHidden, hinterval]; rfl
  | closed => rfl

/-- Following the calendar keeps two sources alike when they reconstruct the same session and
whatever they show without reconstructing it is the same. -/
theorem ensureSessionFor (h : Alike time s t) {calendar : Calendar}
    (hsessions : s.Enters (calendar s.now) → SameSessions (calendar s.now) s t)
    (hshown : ∀ symbol ∈ s.snapshotRequests, s.Enters (calendar s.now) ∨
      s.runtimeBySymbol.get? symbol = t.runtimeBySymbol.get? symbol) :
    Alike time (s.ensureSessionFor calendar) (t.ensureSessionFor calendar) := by
  unfold SimulatedSource.ensureSessionFor
  rw [h.now]
  generalize calendar s.now = status at hsessions hshown ⊢
  have hentered := (h.enterSession hsessions).keep
    (fun u => { u with lastKnownMarketState := some status.state }) (fun _ => rfl) (fun _ => rfl)
  apply (hentered.gateEngine status.state).drainSnapshotRequests
  intro symbol hsymbol
  rw [gateEngine_snapshotRequests, enterSession_snapshotRequests] at hsymbol
  have hs := congrArg WithheldTape.runtimes (gateEngine_tape
    { s.enterSession status with lastKnownMarketState := some status.state } status.state)
  have ht := congrArg WithheldTape.runtimes (gateEngine_tape
    { t.enterSession status with lastKnownMarketState := some status.state } status.state)
  refine (congrArg (OrderedMap.get? · symbol) hs).trans (.trans ?_
    (congrArg (OrderedMap.get? · symbol) ht).symm)
  exact h.get?_enterSession hsessions (hshown symbol hsymbol)

/-- A runtime shown after following the calendar, as one shown before it. -/
theorem get?_ensureSessionFor (h : Alike time s t) {calendar : Calendar}
    (hsessions : s.Enters (calendar s.now) → SameSessions (calendar s.now) s t)
    (hshown : s.Enters (calendar s.now) ∨
      s.runtimeBySymbol.get? symbol = t.runtimeBySymbol.get? symbol) :
    (s.ensureSessionFor calendar).runtimeBySymbol.get? symbol =
      (t.ensureSessionFor calendar).runtimeBySymbol.get? symbol := by
  have hs := congrArg WithheldTape.runtimes (s.ensureSessionFor_tape calendar)
  have ht := congrArg WithheldTape.runtimes (t.ensureSessionFor_tape calendar)
  rw [h.now] at ht
  refine (congrArg (OrderedMap.get? · symbol) hs).trans (.trans ?_
    (congrArg (OrderedMap.get? · symbol) ht).symm)
  exact h.get?_enterSession hsessions hshown

theorem getHistory (h : Alike time s t) {calendar : Calendar}
    (hsessions : s.Enters (calendar s.now) → SameSessions (calendar s.now) s t)
    (hshown : ∀ other ∈ symbol :: s.snapshotRequests, s.Enters (calendar s.now) ∨
      s.runtimeBySymbol.get? other = t.runtimeBySymbol.get? other) :
    Alike time (s.getHistory calendar symbol) (t.getHistory calendar symbol) := by
  have hensured := h.ensureSessionFor hsessions fun other hother =>
    hshown other (List.mem_cons_of_mem _ hother)
  have hsame := h.get?_ensureSessionFor hsessions (hshown symbol List.mem_cons_self)
  unfold SimulatedSource.getHistory
  generalize s.ensureSessionFor calendar = s', t.ensureSessionFor calendar = t' at hensured hsame
  refine ⟨?_, hensured.tape⟩
  dsimp only
  rw [← hsame]
  have hvisible := hensured.visible
  generalize t'.hidden = v at hvisible
  subst hvisible
  rfl

end Alike

/-! ## The live engine -/

/-- The event of a draw. -/
def Event.generated (event : Event) : Generated := ⟨event.tick, event.runtime.price⟩

/-- The event the engine would generate next. -/
def nextEvent (s : SimulatedSource) : Option Generated :=
  (pick s.picker s.prng.next.1).bind fun definition =>
    (s.runtimeBySymbol.get? definition.symbol).map fun runtime =>
      ({ s with prng := s.prng.next.2 }.draw definition runtime).generated

/-- The next events the engine would generate. -/
def nextEvents : Nat → SimulatedSource → List Generated
  | 0, _ => []
  | n + 1, s => s.nextEvent.toList ++ nextEvents n s.generateOne

/-- An event drawn moves the runtime of the instrument picked. -/
theorem draw_runtime (s : SimulatedSource) (definition : SimSymbol) (runtime : SymbolRuntime) :
    (s.draw definition runtime).runtime =
      runtime.after (s.draw definition runtime).generated := by
  unfold draw Event.generated SymbolRuntime.after
  dsimp only
  rw [Int.toNat_natCast]

theorem deliver_of_delayed {s : SimulatedSource} (h : s.currentStream = .delayed) (tick : Tick) :
    s.deliver tick =
      { s with delayQueue := s.delayQueue ++ [⟨tick, s.now + s.config.delayedOffsetMs⟩] } :=
  if_pos h

/-- Moving a runtime and holding its tick back touches only what is hidden, and extends the tape. -/
theorem move_hidden {s : SimulatedSource} (h : s.currentStream = .delayed) {event : Event}
    {symbol : String} (hmoved : WithheldTape.apply s.runtimeBySymbol event.generated =
      s.runtimeBySymbol.set symbol event.runtime) {t : SimulatedSource}
    (ht : t = { s with
      prng := event.prng
      globalEventSeq := s.globalEventSeq + 1
      runtimeBySymbol := s.runtimeBySymbol.set symbol event.runtime }.deliver event.tick) :
    t = s.withHidden t.hidden ∧ t.tape = s.tape.extend [event.generated] := by
  rw [deliver_of_delayed (by exact h)] at ht
  subst ht
  refine ⟨rfl, ?_⟩
  rw [WithheldTape.extend, List.foldl_cons, List.foldl_nil]
  dsimp only [tape]
  rw [hmoved]
  rfl

theorem apply_draw {s : SimulatedSource} {definition : SimSymbol} {runtime : SymbolRuntime}
    (hruntime : s.runtimeBySymbol.get? definition.symbol = some runtime) :
    WithheldTape.apply s.runtimeBySymbol (s.draw definition runtime).generated =
      s.runtimeBySymbol.set definition.symbol (s.draw definition runtime).runtime := by
  have hsymbol : (s.draw definition runtime).generated.tick.s = definition.symbol := rfl
  rw [WithheldTape.apply, hsymbol, hruntime, draw_runtime]

theorem generateFor_hidden {s : SimulatedSource} (h : s.currentStream = .delayed)
    {definition : SimSymbol} {runtime : SymbolRuntime}
    (hruntime : s.runtimeBySymbol.get? definition.symbol = some runtime) :
    s.generateFor definition runtime =
        s.withHidden (s.generateFor definition runtime).hidden ∧
      (s.generateFor definition runtime).tape =
        s.tape.extend [(s.draw definition runtime).generated] :=
  move_hidden h (apply_draw hruntime) (by unfold generateFor; rfl)

/-- What generating an event does. -/
theorem generateOne_cases (s : SimulatedSource) : ∃ prng,
    (s.nextEvent = none ∧ s.generateOne = { s with prng := prng }) ∨
      ∃ definition runtime, s.runtimeBySymbol.get? definition.symbol = some runtime ∧
        s.nextEvent = some ({ s with prng := prng }.draw definition runtime).generated ∧
        s.generateOne = { s with prng := prng }.generateFor definition runtime := by
  refine ⟨s.prng.next.2, ?_⟩
  unfold generateOne nextEvent
  cases hpick : pick s.picker s.prng.next.1 with
  | none => exact .inl ⟨rfl, by simp only [hpick]⟩
  | some definition =>
    cases hruntime : s.runtimeBySymbol.get? definition.symbol with
    | none =>
      refine .inl ⟨?_, ?_⟩
      · simp only [Option.bind_some, hruntime, Option.map_none]
      · simp only [hpick, hruntime]
    | some runtime =>
      refine .inr ⟨definition, runtime, hruntime, ?_, ?_⟩
      · simp only [Option.bind_some, hruntime, Option.map_some]
      · simp only [hpick, hruntime]

/-- Generating an event touches only what is hidden, and extends the tape by it. -/
theorem generateOne_hidden {s : SimulatedSource} (h : s.currentStream = .delayed) :
    s.generateOne = s.withHidden s.generateOne.hidden ∧
      s.generateOne.tape = s.tape.extend s.nextEvent.toList := by
  obtain ⟨prng, ⟨hnone, hsame⟩ | ⟨definition, runtime, hruntime, hsome, hmoved⟩⟩ :=
    s.generateOne_cases
  · rw [hsame, hnone, Option.toList_none, WithheldTape.extend_nil]
    exact ⟨rfl, rfl⟩
  · obtain ⟨hvisible, htape⟩ :=
      generateFor_hidden (s := { s with prng := prng }) h hruntime
    rw [hsome, hmoved, Option.toList_some]
    exact ⟨hvisible, htape⟩

/-- A batch touches only what is hidden, and extends the tape by its events. -/
theorem iterate_generateOne_hidden {s : SimulatedSource} (h : s.currentStream = .delayed)
    (n : Nat) :
    generateOne^[n] s = s.withHidden (generateOne^[n] s).hidden ∧
      (generateOne^[n] s).tape = s.tape.extend (nextEvents n s) := by
  induction n generalizing s with
  | zero => exact ⟨rfl, (WithheldTape.extend_nil _).symm⟩
  | succ n ih =>
    obtain ⟨hvisible, htape⟩ := generateOne_hidden h
    have hdelayed : s.generateOne.currentStream = .delayed := by
      rw [hvisible]
      exact h
    obtain ⟨hvisible', htape'⟩ := ih hdelayed
    rw [Function.iterate_succ_apply]
    constructor
    · rw [hvisible']
      nth_rewrite 1 [hvisible]
      rfl
    · rw [htape', htape, nextEvents, WithheldTape.extend_append]

/-- Emitting reads and writes nothing hidden, and leaves the tape alone. -/
theorem foldl_emit_hidden (s : SimulatedSource) (ticks : List Tick) :
    (ticks.foldl emit s).tape = s.tape ∧ ∀ v, ticks.foldl emit (s.withHidden v) =
      (ticks.foldl emit s).withHidden (ticks.foldl emit (s.withHidden v)).hidden := by
  induction ticks generalizing s with
  | nil => exact ⟨rfl, fun _ => rfl⟩
  | cons tick ticks ih =>
    obtain ⟨htape, hvisible⟩ := ih (s.emit tick)
    have hemit : (s.emit tick).tape = s.tape ∧
        ∀ v, (s.withHidden v).emit tick = (s.emit tick).withHidden v := by
      by_cases hsubscribed : tick.s ∈ s.subscribed
      · refine ⟨by rw [emit, if_pos hsubscribed]; rfl, fun v => ?_⟩
        rw [emit, emit, if_pos hsubscribed, if_pos (by exact hsubscribed)]
        rfl
      · refine ⟨by rw [emit, if_neg hsubscribed], fun v => ?_⟩
        rw [emit, emit, if_neg hsubscribed, if_neg (by exact hsubscribed)]
    simp only [List.foldl_cons]
    exact ⟨htape.trans hemit.1, fun v => by rw [hemit.2]; exact hvisible v⟩

namespace Alike

variable {time : Nat} {s t : SimulatedSource}

theorem currentStream (h : Alike time s t) : t.currentStream = s.currentStream := by
  rw [h.visible]
  rfl

theorem sampleHistory (h : Alike time s t) : Alike time s.sampleHistory t.sampleHistory where
  visible := by
    rw [h.visible]
    rfl
  tape := by
    have htape : t.sampleHistory.tape = { t.tape with
        runtimes := t.tape.runtimes.mapValues fun runtime => runtime.sample s.now } := by
      rw [← h.now]
      rfl
    rw [htape]
    exact h.tape.mapValues (f := fun runtime => runtime.sample s.now) (fun _ => rfl) fun _ => rfl

/-- Batches are alike when they are the same, or too late for a delayed client. -/
theorem iterate_generateOne (h : Alike time s t) (hdelayed : s.currentStream = .delayed)
    {m n : Nat} (hevents : s.tape.horizon ≤ time → nextEvents m s = nextEvents n t) :
    Alike time (generateOne^[m] s) (generateOne^[n] t) := by
  obtain ⟨hvisible, htape⟩ := iterate_generateOne_hidden hdelayed m
  obtain ⟨hvisible', htape'⟩ := iterate_generateOne_hidden (h.currentStream.trans hdelayed) n
  refine ⟨?_, ?_⟩
  · rw [hvisible']
    nth_rewrite 1 [h.visible]
    nth_rewrite 1 [hvisible]
    rfl
  · rw [htape, htape']
    rcases Nat.lt_or_ge time s.tape.horizon with hlate | hearly
    · exact h.tape.extend_late hlate _ _
    · rw [hevents hearly]
      exact h.tape.extend_early hearly _

theorem drainDelayedQueue (h : Alike time s t) (hnow : s.now ≤ time) :
    Alike time s.drainDelayedQueue t.drainDelayedQueue := by
  let ticks := (DelayLine.due DelayedEnvelope.releaseAt s.now s.delayQueue).map DelayedEnvelope.tick
  have hs : s.drainDelayedQueue = ticks.foldl emit
      { s with delayQueue := DelayLine.held DelayedEnvelope.releaseAt s.now s.delayQueue } := rfl
  have ht : t.drainDelayedQueue = ticks.foldl emit
      { t with delayQueue := DelayLine.held DelayedEnvelope.releaseAt s.now t.delayQueue } := by
    dsimp only [ticks]
    rw [show DelayLine.due _ _ s.delayQueue = _ from h.tape.due_eq hnow, ← h.now]
    rfl
  have hdrained : Alike time
      { s with delayQueue := DelayLine.held DelayedEnvelope.releaseAt s.now s.delayQueue }
      { t with delayQueue := DelayLine.held DelayedEnvelope.releaseAt s.now t.delayQueue } :=
    ⟨by rw [h.visible]; rfl, h.tape.drain hnow⟩
  rw [hs, ht]
  exact hdrained.keep (List.foldl emit · ticks) (fun u => (foldl_emit_hidden u ticks).1)
    (foldl_emit_hidden _ ticks).2

end Alike

/-- The source with a history sample taken if one is due. -/
def sampled (s : SimulatedSource) : SimulatedSource := if s.SampleDue then s.sampleHistory else s

/-- The events a batch generates. -/
def batchEvents (s : SimulatedSource) (calendar : Calendar) : List Generated :=
  let s := s.ensureSessionFor calendar
  if s.intervalHandle = none then [] else nextEvents s.sampled.perBatch s.sampled

theorem generateBatch_eq (s : SimulatedSource) (calendar : Calendar) :
    s.generateBatch calendar = if (s.ensureSessionFor calendar).intervalHandle = none then
      s.ensureSessionFor calendar
    else
      (generateOne^[(s.ensureSessionFor calendar).sampled.perBatch]
        (s.ensureSessionFor calendar).sampled).drainDelayedQueue := rfl

theorem sampled_clock (s : SimulatedSource) :
    s.sampled.now = s.now ∧ s.sampled.config = s.config ∧
      s.sampled.currentStream = s.currentStream := by
  unfold sampled
  split
  · exact ⟨rfl, rfl, rfl⟩
  · exact ⟨rfl, rfl, rfl⟩

theorem ensureSessionFor_clock (s : SimulatedSource) (calendar : Calendar) :
    (s.ensureSessionFor calendar).now = s.now := by
  refine (congrArg WithheldTape.now (s.ensureSessionFor_tape calendar)).trans ?_
  by_cases h : s.Enters (calendar s.now)
  · rw [enterSession_of_enters h]
    rfl
  · rw [enterSession_of_not_enters h]
    rfl

namespace Alike

variable {time : Nat} {s t : SimulatedSource} {symbol : String}

theorem sampled (h : Alike time s t) : Alike time s.sampled t.sampled := by
  have hsame : t.SampleDue ↔ s.SampleDue := by
    rw [h.visible]
    rfl
  unfold SimulatedSource.sampled
  by_cases hdue : s.SampleDue
  · rw [if_pos hdue, if_pos (hsame.mpr hdue)]
    exact h.sampleHistory
  · rw [if_neg hdue, if_neg (hdue ∘ hsame.mp)]
    exact h

/-- A batch is generated, and what is due is released. -/
theorem generate (h : Alike time s t) (hnow : s.now ≤ time) (hdelayed : s.currentStream = .delayed)
    {m n : Nat} (hevents : s.now + s.config.delayedOffsetMs ≤ time →
      nextEvents m s = nextEvents n t) :
    Alike time (generateOne^[m] s).drainDelayedQueue (generateOne^[n] t).drainDelayedQueue := by
  have hclock : (generateOne^[m] s).now = s.now :=
    congrArg WithheldTape.now (iterate_generateOne_hidden hdelayed m).2
  apply (h.iterate_generateOne hdelayed hevents).drainDelayedQueue
  rw [hclock]
  exact hnow

theorem generateBatch (h : Alike time s t) {calendar : Calendar} (hnow : s.now ≤ time)
    (hdelayed : s.currentStream = .delayed)
    (hsessions : s.Enters (calendar s.now) → SameSessions (calendar s.now) s t)
    (hshown : ∀ symbol ∈ s.snapshotRequests, s.Enters (calendar s.now) ∨
      s.runtimeBySymbol.get? symbol = t.runtimeBySymbol.get? symbol)
    (hevents : s.now + s.config.delayedOffsetMs ≤ time →
      s.batchEvents calendar = t.batchEvents calendar) :
    Alike time (s.generateBatch calendar) (t.generateBatch calendar) := by
  have hensured := h.ensureSessionFor hsessions hshown
  have hquiet := s.ensureSessionFor_quiet calendar
  have hclock := s.ensureSessionFor_clock calendar
  have hdelayed' := hquiet.currentStream.trans hdelayed
  rw [generateBatch_eq, generateBatch_eq]
  unfold batchEvents at hevents
  rw [← hclock, ← hquiet.config] at hevents
  rw [← hclock] at hnow
  clear hsessions hshown hquiet hclock
  generalize s.ensureSessionFor calendar = s', t.ensureSessionFor calendar = t' at *
  have hinterval : t'.intervalHandle = s'.intervalHandle := by
    rw [hensured.visible]
    rfl
  dsimp only at hevents
  rw [hinterval] at hevents ⊢
  by_cases hidle : s'.intervalHandle = none
  · rw [if_pos hidle, if_pos hidle]
    exact hensured
  · rw [if_neg hidle, if_neg hidle] at hevents
    rw [if_neg hidle, if_neg hidle]
    obtain ⟨hnow', hconfig', hstream'⟩ := s'.sampled_clock
    apply hensured.sampled.generate
    · rw [hnow']
      exact hnow
    · exact hstream'.trans hdelayed'
    · rw [hnow', hconfig']
      exact hevents

end Alike

/-! ## Calls -/

/-- A drop closes the tape; what the retry draws and times stays hidden. -/
theorem simulateDrop_eq {s : SimulatedSource} (h : s.marketClockHandle ≠ none) (code : CloseCode) :
    ∃ prng state timer, s.simulateDrop code = { s with
      marketClockHandle := none
      intervalHandle := none
      backoffAttempt :=
        if shouldReconnect code = true then s.backoffAttempt + 1 else s.backoffAttempt
      prng := prng
      currentConnectionState := state
      dropReconnectTimer := timer } := by
  rw [simulateDrop, if_neg h]
  by_cases hretry : shouldReconnect code = true
  · rw [if_pos hretry]
    dsimp only
    rw [if_pos hretry]
    exact ⟨_, _, _, rfl⟩
  · rw [if_neg hretry, if_neg hretry]
    exact ⟨_, _, _, rfl⟩

/-- The source with the user of its next session. -/
def identified (s : SimulatedSource) : SimulatedSource :=
  { s with
    connectAttempt := s.connectAttempt + 1
    currentConnectionState := .connecting (s.connectAttempt + 1)
    sessionCounter := s.sessionCounter + 1
    identityValue := some
      { userId := s.config.demoUser
        stream := resolveStream s.config.demoUser
        sessionId := "sim-session-" ++ toString (s.sessionCounter + 1) } }

/-- The source with its market clock running. -/
def opened (s : SimulatedSource) : SimulatedSource :=
  { s with
    marketClockHandle := some (s.now + marketClockIntervalMs)
    backoffAttempt := 0
    currentConnectionState := .connected s.now }

theorem connect_of_idle {s : SimulatedSource} {calendar : Calendar}
    (h : s.marketClockHandle = none) :
    s.connect calendar = (s.identified.ensureSessionFor calendar).opened := by
  have hidle : ¬s.marketClockHandle.isSome = true := by
    rw [h]
    decide
  rw [connect, if_neg hidle]
  exact congrArg (fun now =>
    { s.identified.ensureSessionFor calendar with
      marketClockHandle := some (now + marketClockIntervalMs)
      backoffAttempt := 0
      currentConnectionState := .connected now })
    (s.identified.ensureSessionFor_clock calendar).symm

namespace Alike

variable {time : Nat} {s t : SimulatedSource} {symbol : String}

theorem subscribeOne (h : Alike time s t) (symbol : String) :
    Alike time (s.subscribeOne symbol) (t.subscribeOne symbol) := by
  have hknown :
      (t.runtimeBySymbol.get? symbol).isSome = (s.runtimeBySymbol.get? symbol).isSome := by
    rw [← Option.isSome_map (f := SymbolRuntime.definition),
      ← Option.isSome_map (f := SymbolRuntime.definition)]
    exact congrArg Option.isSome (h.tape.definition symbol).symm
  unfold SimulatedSource.subscribeOne
  rw [hknown]
  split
  · exact h.keep (fun u => { u with subscribed := u.subscribed.add symbol }) (fun _ => rfl)
      fun _ => rfl
  · exact h.keep (SimulatedSource.emitError · .unknownSymbol ("Unknown symbol: " ++ symbol))
      (fun _ => rfl) fun _ => rfl

theorem subscribe (h : Alike time s t) (symbols : List String) :
    Alike time (s.subscribe symbols) (t.subscribe symbols) := by
  unfold SimulatedSource.subscribe
  induction symbols generalizing s t with
  | nil => exact h
  | cons symbol symbols ih => exact ih (h.subscribeOne symbol)

theorem simulateEntitlementChange (h : Alike time s t) (nextDemoUser : String) :
    Alike time (s.simulateEntitlementChange nextDemoUser)
      (t.simulateEntitlementChange nextDemoUser) := by
  refine h.keep (SimulatedSource.simulateEntitlementChange · nextDemoUser) (fun u => ?_)
    (fun v => ?_)
  · unfold SimulatedSource.simulateEntitlementChange
    dsimp only
    split
    · rfl
    · rfl
  · unfold SimulatedSource.simulateEntitlementChange
    dsimp only [withHidden]
    split
    · rfl
    · rfl

theorem simulateDrop (h : Alike time s t) (code : CloseCode) :
    Alike time (s.simulateDrop code) (t.simulateDrop code) := by
  obtain ⟨hvisible, htape⟩ := h
  have hhandle : t.marketClockHandle = s.marketClockHandle := by
    rw [hvisible]
    rfl
  by_cases hidle : s.marketClockHandle = none
  · rw [SimulatedSource.simulateDrop, SimulatedSource.simulateDrop, if_pos hidle,
      if_pos (hhandle.trans hidle)]
    exact ⟨hvisible, htape⟩
  · obtain ⟨prng, state, timer, hs⟩ := simulateDrop_eq hidle code
    obtain ⟨prng', state', timer', ht⟩ := simulateDrop_eq (hhandle ▸ hidle) code
    rw [hs, ht]
    generalize t.hidden = v at hvisible
    subst hvisible
    exact ⟨rfl, htape⟩

theorem getSnapshot (h : Alike time s t) (symbol : String) :
    Alike time (s.getSnapshot symbol) (t.getSnapshot symbol) :=
  h.keep (SimulatedSource.getSnapshot · symbol) (fun _ => rfl) fun _ => rfl

theorem connect (h : Alike time s t) {calendar : Calendar}
    (hsessions : s.marketClockHandle = none → s.Enters (calendar s.now) →
      SameSessions (calendar s.now) s t)
    (hshown : s.marketClockHandle = none → ∀ symbol ∈ s.snapshotRequests,
      s.Enters (calendar s.now) ∨
        s.runtimeBySymbol.get? symbol = t.runtimeBySymbol.get? symbol) :
    Alike time (s.connect calendar) (t.connect calendar) := by
  have hhandle : t.marketClockHandle = s.marketClockHandle := by
    rw [h.visible]
    rfl
  by_cases hidle : s.marketClockHandle = none
  · rw [connect_of_idle hidle, connect_of_idle (hhandle.trans hidle)]
    have hidentified := h.keep identified (fun _ => rfl) (fun _ => rfl)
    have hensured := hidentified.ensureSessionFor (hsessions hidle) (hshown hidle)
    exact hensured.keep opened (fun _ => rfl) (fun _ => rfl)
  · have hconnected := Option.isSome_iff_ne_none.mpr hidle
    rw [SimulatedSource.connect, SimulatedSource.connect, hhandle, if_pos hconnected,
      if_pos hconnected]
    exact h

end Alike

end Tckr.MarketWatch.SimulatedSource
