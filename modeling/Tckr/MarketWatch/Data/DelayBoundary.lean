import Tckr.MarketWatch.Data.Engine
import Tckr.MarketWatch.Data.MarketCalendar

/-!
# The delay queue across sessions

For a delayed client every event waits in the queue until a batch finds it due.
Events leave in the order they were generated and never early. But a batch leaves
its own events waiting, and nothing empties the queue when the session closes or
the source disconnects, so once an event has been generated under a positive delay
the queue is never empty again: the next session opens with the old one's events,
and delivers them.
-/

namespace Tckr.MarketWatch

namespace SimulatedSource

/-- A tick held back, with the instant and the session it was generated in. -/
structure Held where
  envelope : DelayedEnvelope
  generatedAt : Nat
  session : String
  deriving DecidableEq

/-- A tick that left the queue, with the instant and the session it did so in. -/
structure Released where
  held : Held
  releasedAt : Nat
  session : String
  deriving DecidableEq

/-- What a run generated, what still waits, and what has left. -/
structure Journal where
  generated : List Held := []
  waiting : List Held := []
  released : List Released := []
  deriving DecidableEq

/-- When the tick is released. -/
def Held.releaseAt : Held → Nat := DelayedEnvelope.releaseAt ∘ Held.envelope

/-- The ticks a step generates. -/
def heldBy (calendar : Calendar) (s : SimulatedSource) : Action → List Held
  | .timer .interval => (s.rearmed.batchEvents calendar).map fun event =>
      ⟨⟨event.tick, s.now + s.config.delayedOffsetMs⟩, s.now, (calendar s.now).sessionDateKey⟩
  | _ => []

/-- The step drains the queue. -/
def Drains (calendar : Calendar) (s : SimulatedSource) : Action → Prop
  | .timer .interval => (calendar s.now).state = .open
  | _ => False

instance (calendar : Calendar) (s : SimulatedSource) :
    (a : Action) → Decidable (Drains calendar s a)
  | .timer .interval => inferInstanceAs (Decidable (_ = _))
  | .call _ | .timer .marketClock | .timer .dropReconnect | .timer .drain | .frame | .advance _ =>
      inferInstanceAs (Decidable False)

/-- Keep the journal of a step. -/
def record (calendar : Calendar) (s : SimulatedSource) (a : Action) (_ : SimulatedSource)
    (journal : Journal) : Journal :=
  let waiting := journal.waiting ++ s.heldBy calendar a
  if Drains calendar s a then
    { generated := journal.generated ++ s.heldBy calendar a
      waiting := DelayLine.held Held.releaseAt s.now waiting
      released := journal.released ++ (DelayLine.due Held.releaseAt s.now waiting).map
        fun held => ⟨held, s.now, (calendar s.now).sessionDateKey⟩ }
  else { journal with generated := journal.generated ++ s.heldBy calendar a, waiting }

/-- The action does not move the user to another stream. -/
def KeepsDelayed : Action → Prop
  | .call (.simulateEntitlementChange nextDemoUser) => resolveStream nextDemoUser = .delayed
  | _ => True

instance : (a : Action) → Decidable (KeepsDelayed a)
  | .call (.simulateEntitlementChange _) => inferInstanceAs (Decidable (_ = _))
  | .call .connect | .call .disconnect | .call (.subscribe _) | .call (.unsubscribe _)
  | .call (.getSnapshot _) | .call (.getHistory _) | .call (.simulateDrop _) | .timer _ | .frame
  | .advance _ => inferInstanceAs (Decidable True)

/-- The user is entitled to the delayed stream. -/
structure Delayed (s : SimulatedSource) : Prop where
  demoUser : resolveStream s.config.demoUser = .delayed
  identity : ∀ identity ∈ s.identityValue, identity.stream = .delayed

/-- The step opens a session. -/
def Opens (calendar : Calendar) (s : SimulatedSource) (a : Action) : Prop :=
  s.Follows a ∧ (calendar s.now).state = .open ∧ s.Enters (calendar s.now)

instance (calendar : Calendar) (s : SimulatedSource) (a : Action) :
    Decidable (Opens calendar s a) :=
  inferInstanceAs (Decidable (_ ∧ _ ∧ _))

/-- A session opens only before any event, unless there is no delay. -/
def OpensFresh (calendar : Calendar) (s : SimulatedSource) (a : Action) : Prop :=
  Opens calendar s a → s.config.delayedOffsetMs = 0 ∨ s.globalEventSeq = 0

/-- No tick waits when a session opens. -/
def OpensEmpty (calendar : Calendar) (s : SimulatedSource) (a : Action) : Prop :=
  Opens calendar s a → s.delayQueue = []

instance (calendar : Calendar) (s : SimulatedSource) (a : Action) :
    Decidable (OpensFresh calendar s a) :=
  inferInstanceAs (Decidable (_ → _))

variable {calendar : Calendar} {s t : SimulatedSource} {journal : Journal}

/-! ## The stream -/

theorem Delayed.currentStream (h : Delayed s) : s.currentStream = .delayed := by
  unfold SimulatedSource.currentStream
  cases hidentity : s.identityValue with
  | none => exact h.demoUser
  | some identity => exact h.identity identity hidentity

theorem Delayed.of_eq (h : Delayed s) (hconfig : t.config = s.config)
    (hidentity : t.identityValue = s.identityValue) : Delayed t :=
  ⟨hconfig ▸ h.demoUser, hidentity ▸ h.identity⟩

/-- A new connection is of the user the source is configured with. -/
theorem Delayed.connect (h : Delayed s) (calendar : Calendar) : Delayed (s.connect calendar) := by
  by_cases hidle : s.marketClockHandle = none
  · have hquiet := s.identified.ensureSessionFor_quiet calendar
    have hidentified : Delayed s.identified :=
      ⟨h.demoUser, fun identity hidentity => Option.some.inj hidentity ▸ h.demoUser⟩
    rw [connect_of_idle hidle]
    exact hidentified.of_eq hquiet.config hquiet.identityValue
  · rw [SimulatedSource.connect, if_pos (Option.isSome_iff_ne_none.mpr hidle)]
    exact h

/-- A step that keeps the entitlement keeps the stream delayed. -/
theorem Delayed.step {a : Action} (h : Delayed s) (ha : KeepsDelayed a)
    (hstep : s.step calendar a = some t) : Delayed t := by
  have hquiet {u : SimulatedSource} (hu : Quiet s u) : Delayed u :=
    h.of_eq hu.config hu.identityValue
  cases step_cases hstep with
  | call c =>
    cases c with
    | connect => exact h.connect calendar
    | disconnect => exact hquiet s.disconnect_quiet
    | subscribe symbols =>
      have hsame := s.subscribe_sameMarket symbols
      exact h.of_eq hsame.config hsame.identityValue
    | unsubscribe symbols => exact h.of_eq rfl rfl
    | getSnapshot symbol => exact hquiet (s.getSnapshot_quiet symbol)
    | getHistory symbol => exact hquiet (s.getHistory_quiet calendar symbol)
    | simulateEntitlementChange user =>
      have hswitched : Delayed { s with
          config := { s.config with demoUser := user }
          identityValue := s.identityValue.map fun identity =>
            { identity with userId := user, stream := resolveStream user } } := by
        refine ⟨ha, fun identity hidentity => ?_⟩
        obtain ⟨before, -, rfl⟩ := Option.map_eq_some_iff.mp hidentity
        exact ha
      rw [perform, simulateEntitlementChange]
      dsimp only
      split
      · exact hswitched.of_eq rfl rfl
      · exact hswitched
    | simulateDrop code => exact hquiet (s.simulateDrop_quiet code)
  | interval htimer hdue =>
    have hbatch := s.rearmed.generateBatch_quiet calendar
    exact h.of_eq hbatch.config hbatch.identityValue
  | marketClock htimer hdue =>
    have hsession := ensureSessionFor_quiet
      { s with marketClockHandle := some (s.now + marketClockIntervalMs) } calendar
    exact h.of_eq hsession.config hsession.identityValue
  | dropReconnect htimer hdue =>
    exact Delayed.connect (s := { s with dropReconnectTimer := none }) (h.of_eq rfl rfl) calendar
  | drain htimers =>
    have hdrain := drainSnapshotRequests_quiet { s with drainTimers := s.drainTimers - 1 }
    exact h.of_eq hdrain.config hdrain.identityValue
  | frame hframe => exact h.of_eq rfl rfl
  | advance => exact h.of_eq rfl rfl

/-! ## A batch -/

theorem generateFor_seq (s : SimulatedSource) (definition : SimSymbol) (runtime : SymbolRuntime) :
    (s.generateFor definition runtime).globalEventSeq = s.globalEventSeq + 1 := by
  unfold generateFor
  generalize s.draw definition runtime = event
  dsimp only
  unfold deliver
  split
  · rfl
  · unfold emit
    split
    · rfl
    · rfl

/-- Every event is counted. -/
theorem iterate_generateOne_seq (n : Nat) :
    (generateOne^[n] s).globalEventSeq = s.globalEventSeq + (nextEvents n s).length := by
  induction n generalizing s with
  | zero => rfl
  | succ n ih =>
    rw [Function.iterate_succ_apply, ih, nextEvents, List.length_append]
    obtain ⟨prng, ⟨hnone, hsame⟩ | ⟨definition, runtime, -, hsome, hmoved⟩⟩ := s.generateOne_cases
    · rw [hnone, hsame]
      simp only [Option.toList_none, List.length_nil, Nat.zero_add]
    · rw [hsome, hmoved, generateFor_seq]
      simp only [Option.toList_some, List.length_singleton]
      omega

/-- The picker draws from the list it is given. -/
theorem pickFrom_mem {target running : Nat} {symbols : List SimSymbol} {definition : SimSymbol}
    (h : pickFrom target running symbols = some definition) : definition ∈ symbols := by
  induction symbols generalizing running with
  | nil => exact absurd h nofun
  | cons first rest ih =>
    rw [pickFrom] at h
    split at h
    · exact Option.some.inj h ▸ List.mem_cons_self
    · exact List.mem_cons_of_mem first (ih h)

theorem exists_pick {symbols : List SimSymbol} (h : symbols ≠ []) (roll : Roll) :
    ∃ definition ∈ symbols, pick symbols roll = some definition := by
  unfold pick
  dsimp only
  generalize symbols.foldl (fun total definition => total + definition.weight) 0 = total
  cases hpick : pickFrom (roll.raw.toNat * total) 0 symbols with
  | some definition => exact ⟨definition, pickFrom_mem hpick, rfl⟩
  | none =>
    exact ⟨symbols.getLast h, List.getLast_mem h, by
      rw [Option.none_or, List.getLast?_eq_some_getLast h]⟩

/-- The source knows every instrument it can pick. -/
def Provisioned (s : SimulatedSource) : Prop := ∀ definition ∈ s.picker, s.Knows definition.symbol

/-- A source with instruments generates at least one event in a batch. -/
theorem Provisioned.nextEvents_ne_nil (h : Provisioned s) (hpicker : s.picker ≠ []) {n : Nat}
    (hn : 1 ≤ n) : nextEvents n s ≠ [] := by
  obtain ⟨m, rfl⟩ := Nat.exists_eq_add_of_le' hn
  obtain ⟨definition, hmem, hpick⟩ := exists_pick hpicker s.prng.next.1
  obtain ⟨runtime, hruntime⟩ := Option.isSome_iff_exists.mp
    (OrderedMap.isSome_get?.mpr (h definition hmem))
  have hevent : s.nextEvent ≠ none := by
    rw [nextEvent, hpick, Option.bind_some, hruntime, Option.map_some]
    exact Option.some_ne_none _
  obtain ⟨event, hevent⟩ := Option.ne_none_iff_exists'.mp hevent
  rw [nextEvents, hevent, Option.toList_some]
  exact List.cons_ne_nil _ _

/-- A source without instruments generates nothing. -/
theorem nextEvents_of_picker_nil (h : s.picker = []) (n : Nat) : nextEvents n s = [] := by
  induction n generalizing s with
  | zero => rfl
  | succ n ih =>
    have hnone : s.nextEvent = none := by
      rw [nextEvent, h]
      rfl
    have hpicker : s.generateOne.picker = [] := by
      obtain ⟨_, _, _, _, _, _, hgenerated⟩ := s.generateOne_eq
      rw [hgenerated]
      exact h
    rw [nextEvents, hnone, Option.toList_none, List.nil_append]
    exact ih hpicker

/-- A batch in an open market. -/
structure LiveBatch (calendar : Calendar) (s t : SimulatedSource) : Prop where
  queue : t.delayQueue = DelayLine.held DelayedEnvelope.releaseAt s.now
    (s.delayQueue ++ (s.heldBy calendar (.timer .interval)).map Held.envelope)
  seq : t.globalEventSeq = s.globalEventSeq + (s.heldBy calendar (.timer .interval)).length
  key : t.currentSessionDateKey = some (calendar s.now).sessionDateKey
  state : t.lastKnownMarketState = some .open
  picker : t.picker = s.picker
  offset : t.config.delayedOffsetMs = s.config.delayedOffsetMs
  generates : Provisioned s → s.picker ≠ [] → s.heldBy calendar (.timer .interval) ≠ []
  barren : s.picker = [] → s.heldBy calendar (.timer .interval) = []

theorem one_le_perBatch (s : SimulatedSource) : 1 ≤ s.perBatch := le_max_left 1 _

/-- A batch in a closed market only follows the calendar. -/
theorem generateBatch_closed (s : SimulatedSource) (h : (calendar s.now).state = .closed) :
    SameEngine (s.followed (calendar s.now)) (s.rearmed.generateBatch calendar) ∧
      s.heldBy calendar (.timer .interval) = [] := by
  obtain ⟨hsame, -⟩ := followed_sameEngine calendar s.rearmed_sameEngine rfl
  have hidle : (s.rearmed.ensureSessionFor calendar).intervalHandle = none := by
    obtain ⟨_, _, heq⟩ := s.rearmed.ensureSessionFor_eq calendar
    rw [heq]
    change s.rearmed.gated (calendar s.now).state = none
    rw [h]
    rfl
  constructor
  · rw [generateBatch_eq, if_pos hidle]
    exact hsame
  · simp only [heldBy, batchEvents, hidle, if_true, List.map_nil]

/-- A batch in an open market holds its events back, and gives up what is due. -/
theorem generateBatch_live (s : SimulatedSource) (hdelayed : s.currentStream = .delayed)
    (h : (calendar s.now).state = .open) :
    LiveBatch calendar s (s.rearmed.generateBatch calendar) := by
  obtain ⟨hsame, hnow⟩ := followed_sameEngine calendar s.rearmed_sameEngine rfl
  have hquiet := s.rearmed.ensureSessionFor_quiet calendar
  have hlive : (s.rearmed.ensureSessionFor calendar).intervalHandle ≠ none := by
    obtain ⟨_, _, heq⟩ := s.rearmed.ensureSessionFor_eq calendar
    rw [heq]
    change s.rearmed.gated (calendar s.now).state ≠ none
    rw [h]
    exact Option.some_ne_none _
  have hheld : s.heldBy calendar (.timer .interval) = (nextEvents
      (s.rearmed.ensureSessionFor calendar).sampled.perBatch
      (s.rearmed.ensureSessionFor calendar).sampled).map fun event =>
        ⟨⟨event.tick, s.now + s.config.delayedOffsetMs⟩, s.now,
          (calendar s.now).sessionDateKey⟩ := by
    simp only [heldBy, batchEvents, if_neg hlive]
  rw [generateBatch_eq, if_neg hlive]
  generalize s.rearmed.ensureSessionFor calendar = u at *
  obtain ⟨hnow', hconfig, hstream⟩ := u.sampled_clock
  have hknows : ∀ symbol, u.sampled.Knows symbol ↔ s.Knows symbol := by
    intro symbol
    refine Iff.trans ?_ (hquiet.knows symbol)
    unfold sampled
    split
    · exact u.sampleHistory_quiet.knows symbol
    · exact Iff.rfl
  obtain ⟨runtimes, last, hsampled⟩ := u.sampled_eq
  have hqueue : u.sampled.delayQueue = u.delayQueue := by rw [hsampled]
  have hpicker : u.sampled.picker = u.picker := by rw [hsampled]
  have hseq : u.sampled.globalEventSeq = u.globalEventSeq := by rw [hsampled]
  have hkey : u.sampled.currentSessionDateKey = u.currentSessionDateKey := by rw [hsampled]
  have hstate : u.sampled.lastKnownMarketState = u.lastKnownMarketState := by rw [hsampled]
  generalize u.sampled = v at *
  have hvdelayed : v.currentStream = .delayed :=
    hstream.trans (hquiet.currentStream.trans hdelayed)
  have htape := (iterate_generateOne_hidden hvdelayed v.perBatch).2
  have hcount := iterate_generateOne_seq (s := v) v.perBatch
  obtain ⟨_, _, _, _, _, _, hgenerated⟩ := v.iterate_generateOne_eq v.perBatch
  obtain ⟨_, _, hdrained⟩ := (generateOne^[v.perBatch] v).drainDelayedQueue_eq
  have hhorizon : v.tape.horizon = s.now + s.config.delayedOffsetMs :=
    congr_arg₂ (· + ·) (hnow'.trans hnow)
      ((congrArg SimulatedSourceConfig.delayedOffsetMs hconfig).trans hsame.offset)
  have hlater : (generateOne^[v.perBatch] v).delayQueue = s.delayQueue ++
      (s.heldBy calendar (.timer .interval)).map Held.envelope := by
    refine (congrArg WithheldTape.queue htape).trans ?_
    rw [WithheldTape.extend, hhorizon, hheld, List.map_map]
    exact congrArg (· ++ _) (hqueue.trans hsame.queue)
  have hthen : (generateOne^[v.perBatch] v).now = s.now := by
    rw [hgenerated]
    exact hnow'.trans hnow
  rw [hlater, hthen] at hdrained
  refine ⟨by rw [hdrained], ?_, ?_, ?_, ?_, ?_, ?_, ?_⟩
  · rw [hdrained]
    refine hcount.trans ?_
    rw [hheld, List.length_map]
    exact congrArg (· + _) (hseq.trans hsame.seq)
  · rw [hdrained, hgenerated]
    exact hkey.trans hsame.key
  · rw [hdrained, hgenerated]
    exact hstate.trans (hsame.state.trans (congrArg some h))
  · rw [hdrained, hgenerated]
    exact hpicker.trans hsame.picker
  · rw [hdrained, hgenerated]
    exact (congrArg SimulatedSourceConfig.delayedOffsetMs hconfig).trans hsame.offset
  · intro hprovisioned hne
    have hsources : v.picker = s.picker := hpicker.trans hsame.picker
    have hv : Provisioned v := fun definition hmem =>
      (hknows definition.symbol).mpr (hprovisioned definition (hsources ▸ hmem))
    rw [hheld]
    exact fun hnil => hv.nextEvents_ne_nil (hsources ▸ hne) v.one_le_perBatch
      (List.map_eq_nil_iff.mp hnil)
  · intro hnil
    have hsources : v.picker = [] := (hpicker.trans hsame.picker).trans hnil
    rw [hheld, nextEvents_of_picker_nil hsources, List.map_nil]

/-! ## Every run -/

/-- What every run of a delayed source keeps. -/
structure Queued (offset : Nat) (s : SimulatedSource) (journal : Journal) : Prop where
  delayed : Delayed s
  provisioned : Provisioned s
  offset_eq : s.config.delayedOffsetMs = offset
  fifo : journal.generated = journal.released.map Released.held ++ journal.waiting
  queue : journal.waiting.map Held.envelope = s.delayQueue
  stamped : ∀ held ∈ journal.waiting, held.releaseAt = held.generatedAt + offset
  late : ∀ released ∈ journal.released,
    released.held.generatedAt + offset ≤ released.releasedAt
  barren : s.picker = [] → s.globalEventSeq = 0
  empty_iff : s.delayQueue = [] ↔ offset = 0 ∨ s.globalEventSeq = 0

/-- The ticks that wait in an open session belong to it, and so did those that left. -/
structure Matched (s : SimulatedSource) (journal : Journal) : Prop where
  waiting : s.lastKnownMarketState = some .open →
    ∀ held ∈ journal.waiting, s.currentSessionDateKey = some held.session
  released : ∀ released ∈ journal.released, released.held.session = released.session

/-- A step that generates and drains nothing leaves the journal alone. -/
theorem record_of_not_drains {a : Action} (hdrains : ¬Drains calendar s a)
    (hheld : s.heldBy calendar a = []) : record calendar s a t journal = journal := by
  rw [record, if_neg hdrains, hheld, List.append_nil, List.append_nil]

theorem heldBy_of_ne {a : Action} (ha : a ≠ .timer .interval) : s.heldBy calendar a = [] := by
  unfold heldBy
  split
  · exact absurd rfl ha
  · rfl

theorem not_drains_of_ne {a : Action} (ha : a ≠ .timer .interval) : ¬Drains calendar s a := by
  unfold Drains
  split
  · exact absurd rfl ha
  · exact id

/-- A step that leaves the queue and the count alone. -/
theorem Queued.of_same {offset : Nat} (h : Queued offset s journal) (hdelayed : Delayed t)
    (hprovisioned : Provisioned t) (hqueue : t.delayQueue = s.delayQueue)
    (hseq : t.globalEventSeq = s.globalEventSeq) (hpicker : t.picker = s.picker)
    (hoffset : t.config.delayedOffsetMs = s.config.delayedOffsetMs) : Queued offset t journal where
  delayed := hdelayed
  provisioned := hprovisioned
  offset_eq := hoffset.trans h.offset_eq
  fifo := h.fifo
  queue := h.queue.trans hqueue.symm
  stamped := h.stamped
  late := h.late
  barren := by rw [hpicker, hseq]; exact h.barren
  empty_iff := by rw [hqueue, hseq]; exact h.empty_iff

/-- Every tick a step generates is stamped with its delay, and belongs to the session in force. -/
theorem mem_heldBy {a : Action} {held : Held} (h : held ∈ s.heldBy calendar a) :
    held.generatedAt = s.now ∧ held.releaseAt = s.now + s.config.delayedOffsetMs ∧
      held.session = (calendar s.now).sessionDateKey := by
  by_cases ha : a = .timer .interval
  · subst ha
    obtain ⟨event, -, rfl⟩ := List.mem_map.mp h
    exact ⟨rfl, rfl, rfl⟩
  · rw [heldBy_of_ne ha] at h
    exact absurd h List.not_mem_nil

/-- A live batch leaves the queue empty exactly when there is no delay or no event yet. -/
theorem Queued.empty_batch {offset : Nat} (h : Queued offset s journal)
    (hlive : LiveBatch calendar s t) :
    t.delayQueue = [] ↔ offset = 0 ∨ t.globalEventSeq = 0 := by
  rw [hlive.queue, hlive.seq]
  constructor
  · intro hempty
    by_cases hoffset : offset = 0
    · exact .inl hoffset
    refine .inr ?_
    -- An event of this batch is not due yet, so there was none, and the source has no instruments.
    have hnone : s.heldBy calendar (.timer .interval) = [] := by
      by_contra hne
      obtain ⟨held, hheld⟩ := List.exists_mem_of_ne_nil _ hne
      have hmem : held.envelope ∈ DelayLine.held DelayedEnvelope.releaseAt s.now
          (s.delayQueue ++ (s.heldBy calendar (.timer .interval)).map Held.envelope) := by
        apply DelayLine.mem_held
        · exact List.mem_append_right _ (List.mem_map_of_mem hheld)
        · have hrelease : held.envelope.releaseAt = s.now + s.config.delayedOffsetMs :=
            (mem_heldBy hheld).2.1
          have hoffset' := h.offset_eq
          omega
      rw [hempty] at hmem
      exact absurd hmem List.not_mem_nil
    have hpicker : s.picker = [] := by
      by_contra hne
      exact hlive.generates h.provisioned hne hnone
    rw [hnone, List.length_nil, Nat.add_zero]
    exact h.barren hpicker
  · rintro (hoffset | hseq)
    · have hbefore : s.delayQueue = [] := h.empty_iff.mpr (.inl hoffset)
      rw [hbefore, List.nil_append, DelayLine.held, List.dropWhile_eq_nil_iff]
      intro envelope henvelope
      obtain ⟨held, hheld, rfl⟩ := List.mem_map.mp henvelope
      have hrelease : held.envelope.releaseAt = s.now + s.config.delayedOffsetMs :=
        (mem_heldBy hheld).2.1
      have hoffset' := h.offset_eq
      exact (DelayLine.isDue_iff _).mpr (by omega)
    · have hbefore : s.delayQueue = [] := h.empty_iff.mpr (.inr (by omega))
      have hnone : s.heldBy calendar (.timer .interval) = [] :=
        List.length_eq_zero_iff.mp (by omega)
      rw [hbefore, hnone]
      rfl

/-- A live batch keeps the law of the queue. -/
theorem Queued.batch {offset : Nat} (h : Queued offset s journal) (hdelayed : Delayed t)
    (hprovisioned : Provisioned t) (hopen : (calendar s.now).state = .open)
    (hlive : LiveBatch calendar s t) :
    Queued offset t (record calendar s (.timer .interval) t journal) := by
  have hstamped : ∀ held ∈ journal.waiting ++ s.heldBy calendar (.timer .interval),
      held.releaseAt = held.generatedAt + offset := by
    intro held hheld
    rcases List.mem_append.mp hheld with hheld | hheld
    · exact h.stamped held hheld
    · obtain ⟨hat, hrelease, -⟩ := mem_heldBy hheld
      rw [hrelease, hat, h.offset_eq]
  have hdrains : Drains calendar s (.timer .interval) := hopen
  rw [record, if_pos hdrains]
  refine ⟨hdelayed, hprovisioned, hlive.offset.trans h.offset_eq, ?_, ?_, ?_, ?_, ?_,
    h.empty_batch hlive⟩
  · dsimp only
    rw [h.fifo, List.map_append, List.map_map]
    have hid : Released.held ∘ (fun held : Held =>
        (⟨held, s.now, (calendar s.now).sessionDateKey⟩ : Released)) = id := rfl
    rw [hid, List.map_id, List.append_assoc, List.append_assoc, DelayLine.due_append_held]
  · dsimp only
    rw [hlive.queue, ← h.queue, ← List.map_append, DelayLine.held_map]
    rfl
  · exact fun held hheld => hstamped held (DelayLine.mem_of_mem_held hheld)
  · intro released hreleased
    rcases List.mem_append.mp hreleased with hreleased | hreleased
    · exact h.late released hreleased
    · obtain ⟨held, hheld, rfl⟩ := List.mem_map.mp hreleased
      obtain ⟨hmem, hdue⟩ := DelayLine.mem_due hheld
      exact (hstamped held hmem) ▸ hdue
  · intro hpicker
    have hempty : s.picker = [] := hlive.picker ▸ hpicker
    rw [hlive.seq, h.barren hempty, hlive.barren hempty]
    rfl

/-- Following the calendar, and everything that is not a batch, keeps the law of the queue. -/
theorem Queued.step {offset : Nat} {a : Action} (h : Queued offset s journal)
    (ha : KeepsDelayed a) (hstep : s.step calendar a = some t) :
    Queued offset t (record calendar s a t journal) := by
  have hdelayed := h.delayed.step ha hstep
  have hengine := step_engine hstep
  obtain ⟨hpicker, hknows⟩ := hengine.universe
  have hprovisioned : Provisioned t := fun definition hmem =>
    (hknows definition.symbol).mpr (h.provisioned definition (hpicker ▸ hmem))
  cases hengine with
  | idle hfollows hsame hnow =>
    have hne : a ≠ .timer .interval := by
      rintro rfl
      exact hfollows trivial
    rw [record_of_not_drains (not_drains_of_ne hne) (heldBy_of_ne hne)]
    exact h.of_same hdelayed hprovisioned hsame.queue hsame.seq hsame.picker hsame.offset
  | follow hfollows hne hsame hnow =>
    rw [record_of_not_drains (not_drains_of_ne hne) (heldBy_of_ne hne)]
    exact h.of_same hdelayed hprovisioned hsame.queue hsame.seq hsame.picker hsame.offset
  | batch =>
    cases hstate : (calendar s.now).state with
    | «open» =>
      exact h.batch hdelayed hprovisioned hstate
        (s.generateBatch_live h.delayed.currentStream hstate)
    | closed =>
      obtain ⟨hsame, hheld⟩ := s.generateBatch_closed hstate
      have hdrains : ¬Drains calendar s (.timer .interval) := by
        rw [Drains, hstate]
        exact nofun
      rw [record_of_not_drains hdrains hheld]
      exact h.of_same hdelayed hprovisioned hsame.queue hsame.seq hsame.picker hsame.offset

/-- Following the calendar keeps what waits with its session, unless it opens one on old ticks. -/
theorem Matched.follow (h : Matched s journal)
    (hqueue : journal.waiting.map Held.envelope = s.delayQueue)
    (hopens : (calendar s.now).state = .open → s.Enters (calendar s.now) → s.delayQueue = [])
    (hkey : t.currentSessionDateKey = some (calendar s.now).sessionDateKey)
    (hstate : t.lastKnownMarketState = some (calendar s.now).state) : Matched t journal := by
  refine ⟨fun hopen held hheld => ?_, h.released⟩
  have hcalendar : (calendar s.now).state = .open := Option.some.inj (hstate.symm.trans hopen)
  by_cases henters : s.Enters (calendar s.now)
  · have hempty : journal.waiting = [] :=
      List.map_eq_nil_iff.mp (hqueue.trans (hopens hcalendar henters))
    rw [hempty] at hheld
    exact absurd hheld List.not_mem_nil
  · obtain ⟨hsameKey, hsameState⟩ := not_or.mp henters
    have hwas : s.lastKnownMarketState = some .open :=
      (not_ne_iff.mp hsameState).symm.trans (congrArg some hcalendar)
    exact hkey.trans ((not_ne_iff.mp hsameKey).trans (h.waiting hwas held hheld))

/-- A step that opens no session on old ticks delivers ticks of the session in force. -/
theorem Matched.step {a : Action} (h : Matched s journal)
    (hqueue : journal.waiting.map Held.envelope = s.delayQueue) (hdelayed : Delayed s)
    (hopens : OpensEmpty calendar s a) (hstep : s.step calendar a = some t) :
    Matched t (record calendar s a t journal) := by
  cases step_engine hstep with
  | idle hfollows hsame hnow =>
    have hne : a ≠ .timer .interval := by
      rintro rfl
      exact hfollows trivial
    rw [record_of_not_drains (not_drains_of_ne hne) (heldBy_of_ne hne)]
    exact ⟨by rw [hsame.state, hsame.key]; exact h.waiting, h.released⟩
  | follow hfollows hne hsame hnow =>
    rw [record_of_not_drains (not_drains_of_ne hne) (heldBy_of_ne hne)]
    exact h.follow hqueue (fun hopen henters => hopens ⟨hfollows, hopen, henters⟩) hsame.key
      hsame.state
  | batch =>
    cases hstate : (calendar s.now).state with
    | «open» =>
      have hlive := s.generateBatch_live hdelayed.currentStream hstate
      have hfollowed := h.follow hqueue (fun hopen henters => hopens ⟨trivial, hopen, henters⟩)
        hlive.key (hlive.state.trans (congrArg some hstate.symm))
      have hdrains : Drains calendar s (.timer .interval) := hstate
      -- All that waits before the drain, old and new, belongs to the session in force.
      have hall : ∀ held ∈ journal.waiting ++ s.heldBy calendar (.timer .interval),
          held.session = (calendar s.now).sessionDateKey := by
        intro held hheld
        rcases List.mem_append.mp hheld with hheld | hheld
        · exact Option.some.inj ((hfollowed.waiting hlive.state held hheld).symm.trans hlive.key)
        · exact (mem_heldBy hheld).2.2
      rw [record, if_pos hdrains]
      refine ⟨fun _ held hheld => ?_, fun released hreleased => ?_⟩
      · rw [hall held (DelayLine.mem_of_mem_held hheld)]
        exact hlive.key
      · rcases List.mem_append.mp hreleased with hreleased | hreleased
        · exact h.released released hreleased
        · obtain ⟨held, hheld, rfl⟩ := List.mem_map.mp hreleased
          exact hall held (DelayLine.mem_due hheld).1
    | closed =>
      obtain ⟨hsame, hheld⟩ := s.generateBatch_closed hstate
      have hdrains : ¬Drains calendar s (.timer .interval) := by
        rw [Drains, hstate]
        exact nofun
      rw [record_of_not_drains hdrains hheld]
      exact h.follow hqueue (fun hopen henters => hopens ⟨trivial, hopen, henters⟩) hsame.key
        hsame.state

end SimulatedSource

open SimulatedSource

/-- The runs of the simulated source, with their journal. -/
def journaled (symbols : List SimSymbol) (calendar : Calendar) (config : SimulatedSourceConfig) :
    Machine (SimulatedSource × Journal) Action :=
  (simulated symbols calendar config).withHistory {} (record calendar)

/-- A new source knows every instrument of its universe. -/
theorem provisioned_create (symbols : List SimSymbol) (config : SimulatedSourceConfig) :
    Provisioned (create symbols config) := by
  have hknown (definitions : List SimSymbol) (runtimes : OrderedMap String SymbolRuntime)
      {symbol : String} (h : symbol ∈ runtimes.keys ∨ ∃ d ∈ definitions, d.symbol = symbol) :
      symbol ∈ (definitions.foldl
        (fun runtimes d => runtimes.set d.symbol (.create d)) runtimes).keys := by
    induction definitions generalizing runtimes with
    | nil => exact h.resolve_right fun ⟨_, hmem, _⟩ => absurd hmem List.not_mem_nil
    | cons first rest ih =>
      rw [List.foldl_cons]
      apply ih
      rw [OrderedMap.mem_keys_set]
      rcases h with h | ⟨d, hmem, rfl⟩
      · exact .inl (.inl h)
      · rcases List.mem_cons.mp hmem with rfl | hmem
        · exact .inl (.inr rfl)
        · exact .inr ⟨d, hmem, rfl⟩
  exact fun definition hmem => hknown symbols .empty (.inr ⟨definition, hmem, rfl⟩)

/-- A new source holds nothing back. -/
theorem Queued.create {symbols : List SimSymbol} {config : SimulatedSourceConfig}
    (h : resolveStream config.demoUser = .delayed) :
    Queued config.delayedOffsetMs (create symbols config) {} where
  delayed := ⟨h, nofun⟩
  provisioned := provisioned_create symbols config
  offset_eq := rfl
  fifo := rfl
  queue := rfl
  stamped := nofun
  late := nofun
  barren _ := rfl
  empty_iff := iff_of_true rfl (.inr rfl)

/-- On a Sunday morning a delayed client connects and lets three batches pass. -/
def delayedMorning : List Action :=
  [.advance 1767513600000, .call .connect, .call (.subscribe ["COMI"]), .advance 50,
    .timer .interval, .advance 100, .timer .interval]

/-- The client leaves with a tick waiting, and comes back on Monday morning. -/
def delayedReturn : List Action :=
  [.advance 1767513600000, .call .connect, .call (.subscribe ["COMI"]), .advance 50,
    .timer .interval, .call .disconnect, .advance 86399950, .call .connect, .advance 50,
    .timer .interval]

end Tckr.MarketWatch
