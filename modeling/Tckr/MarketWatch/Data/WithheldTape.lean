import Tckr.Core.DelayLine
import Tckr.MarketWatch.Data.SimulatedSteps

/-!
# The tape ahead of a delayed client

For a delayed client the live engine runs ahead: it moves the runtimes at once and
holds each tick back. Two tapes agree by a time when they give up the same ticks
until then and hold the same runtime of every instrument whose last event neither
of them still holds back at that time.
-/

namespace Tckr.MarketWatch

/-- What the live engine generates: a tick and the price it is written from. -/
structure Generated where
  tick : Tick
  price : Int
  deriving DecidableEq

/-- The runtime after an event of its instrument. -/
def SymbolRuntime.after (runtime : SymbolRuntime) (event : Generated) : SymbolRuntime :=
  { runtime with
    price := event.price
    high := max runtime.high event.price
    low := min runtime.low event.price
    volume := runtime.volume + event.tick.q.toNat
    lastEventId := event.tick.id
    lastTimestamp := event.tick.t }

/-- The runtimes and the ticks held back, with the clock and the delay. -/
structure WithheldTape where
  runtimes : OrderedMap String SymbolRuntime
  queue : List DelayedEnvelope
  now : Nat
  offset : Nat

namespace WithheldTape

/-- When a tick generated now is released. -/
def horizon (tape : WithheldTape) : Nat := tape.now + tape.offset

/-- The last event of the instrument is still held back at the time. -/
def Withheld (tape : WithheldTape) (time : Nat) (symbol : String) : Prop :=
  ∃ runtime ∈ tape.runtimes.get? symbol, ∃ envelope ∈ tape.queue,
    time < envelope.releaseAt ∧ envelope.tick.id = runtime.lastEventId

instance (tape : WithheldTape) (time : Nat) (symbol : String) :
    Decidable (tape.Withheld time symbol) :=
  inferInstanceAs (Decidable (∃ runtime ∈ tape.runtimes.get? symbol, _))

def apply (runtimes : OrderedMap String SymbolRuntime) (event : Generated) :
    OrderedMap String SymbolRuntime :=
  match runtimes.get? event.tick.s with
  | none => runtimes
  | some runtime => runtimes.set event.tick.s (runtime.after event)

/-- The tape with events generated now. -/
def extend (tape : WithheldTape) (events : List Generated) : WithheldTape :=
  { tape with
    runtimes := events.foldl apply tape.runtimes
    queue := tape.queue ++ events.map fun event => ⟨event.tick, tape.horizon⟩ }

/-- Nothing is held back longer than a tick generated now. -/
def Bounded (tape : WithheldTape) : Prop :=
  ∀ envelope ∈ tape.queue, envelope.releaseAt ≤ tape.horizon

/-- Two tapes that a client cannot tell apart by the time, as long as nothing withheld is shown. -/
structure Agree (time : Nat) (p q : WithheldTape) : Prop where
  now : p.now = q.now
  offset : p.offset = q.offset
  definition : ∀ symbol, (p.runtimes.get? symbol).map SymbolRuntime.definition =
    (q.runtimes.get? symbol).map SymbolRuntime.definition
  runtimes : ∀ symbol, p.Withheld time symbol ∨ q.Withheld time symbol ∨
    p.runtimes.get? symbol = q.runtimes.get? symbol
  due : DelayLine.due DelayedEnvelope.releaseAt time p.queue =
    DelayLine.due DelayedEnvelope.releaseAt time q.queue
  left_bounded : p.Bounded
  right_bounded : q.Bounded

variable {time : Nat} {p q : WithheldTape} {symbol : String}

/-- What is held back past the time was generated too late for it. -/
theorem Bounded.not_withheld (h : p.Bounded) (htime : p.horizon ≤ time) :
    ¬p.Withheld time symbol := by
  rintro ⟨_, -, envelope, henvelope, hlate, -⟩
  have := h envelope henvelope
  omega

theorem Bounded.extend (h : p.Bounded) (events : List Generated) : (p.extend events).Bounded := by
  intro envelope henvelope
  rcases List.mem_append.mp henvelope with henvelope | henvelope
  · exact h envelope henvelope
  · obtain ⟨event, -, rfl⟩ := List.mem_map.mp henvelope
    exact le_rfl

/-! ## Events -/

theorem extend_nil (tape : WithheldTape) : tape.extend [] = tape := by
  rw [extend, List.map_nil, List.append_nil]
  rfl

theorem extend_append (tape : WithheldTape) (events later : List Generated) :
    tape.extend (events ++ later) = (tape.extend events).extend later := by
  rw [extend, List.foldl_append, List.map_append, ← List.append_assoc]
  rfl

theorem get?_apply (runtimes : OrderedMap String SymbolRuntime) (event : Generated)
    (symbol : String) : (apply runtimes event).get? symbol =
      (runtimes.get? symbol).map fun runtime =>
        if event.tick.s = symbol then runtime.after event else runtime := by
  unfold apply
  by_cases hsymbol : event.tick.s = symbol
  · subst hsymbol
    cases hruntime : runtimes.get? event.tick.s with
    | none => simp only [hruntime, Option.map_none]
    | some runtime => simp only [OrderedMap.get?_set_self, Option.map_some, ite_true]
  · simp only [hsymbol, ite_false, Option.map_id']
    cases hruntime : runtimes.get? event.tick.s with
    | none => rfl
    | some runtime => exact OrderedMap.get?_set_of_ne _ _ (Ne.symm hsymbol)

/-- Events keep every instrument's definition. -/
theorem definition_foldl_apply (events : List Generated)
    (runtimes : OrderedMap String SymbolRuntime) :
    ((events.foldl apply runtimes).get? symbol).map SymbolRuntime.definition =
      (runtimes.get? symbol).map SymbolRuntime.definition := by
  induction events generalizing runtimes with
  | nil => rfl
  | cons event events ih =>
    rw [List.foldl_cons, ih, get?_apply, Option.map_map]
    congr 1
    funext runtime
    rw [Function.comp_apply]
    split_ifs
    · rfl
    · rfl

/-- An instrument shows one of the events, or what it showed before them. -/
theorem foldl_apply_cases (events : List Generated)
    (runtimes : OrderedMap String SymbolRuntime) (symbol : String) :
    (∃ runtime ∈ (events.foldl apply runtimes).get? symbol,
      ∃ event ∈ events, event.tick.id = runtime.lastEventId) ∨
    (events.foldl apply runtimes).get? symbol = runtimes.get? symbol := by
  induction events generalizing runtimes with
  | nil => exact .inr rfl
  | cons event events ih =>
    rw [List.foldl_cons]
    rcases ih (apply runtimes event) with ⟨runtime, hruntime, later, hlater, hid⟩ | hsame
    · exact .inl ⟨runtime, hruntime, later, List.mem_cons_of_mem _ hlater, hid⟩
    · rw [hsame, get?_apply]
      cases hruntime : runtimes.get? symbol with
      | none => exact .inr rfl
      | some runtime =>
        by_cases hsymbol : event.tick.s = symbol
        · refine .inl ⟨runtime.after event, ?_, event, List.mem_cons_self, rfl⟩
          rw [Option.map_some, if_pos hsymbol]
          exact Option.mem_def.mpr rfl
        · rw [Option.map_some, if_neg hsymbol]
          exact .inr rfl

/-- Late events withhold the instruments they are of, and only those. -/
theorem extend_late_cases (events : List Generated) (hlate : time < p.horizon) (symbol : String) :
    (p.extend events).Withheld time symbol ∨
      (p.extend events).runtimes.get? symbol = p.runtimes.get? symbol := by
  rcases foldl_apply_cases events p.runtimes symbol with ⟨runtime, hruntime, event, hevent, hid⟩ | h
  · refine .inl ⟨runtime, hruntime, ⟨event.tick, p.horizon⟩, ?_, hlate, hid⟩
    exact List.mem_append_right _ (List.mem_map_of_mem hevent)
  · exact .inr h

theorem Withheld.extend (h : p.Withheld time symbol) (hlate : time < p.horizon)
    (events : List Generated) : (p.extend events).Withheld time symbol := by
  obtain ⟨runtime, hruntime, envelope, henvelope, hreleased, hid⟩ := h
  rcases extend_late_cases events hlate symbol with hwithheld | hsame
  · exact hwithheld
  · exact ⟨runtime, hsame ▸ hruntime, envelope, List.mem_append_left _ henvelope, hreleased, hid⟩

namespace Agree

theorem horizon (h : Agree time p q) : p.horizon = q.horizon := by
  rw [WithheldTape.horizon, h.now, h.offset, WithheldTape.horizon]

/-- The same events, early enough to be released by the time. -/
theorem extend_early (h : Agree time p q) (hearly : p.horizon ≤ time) (events : List Generated) :
    Agree time (p.extend events) (q.extend events) := by
  have hearly' : q.horizon ≤ time := h.horizon ▸ hearly
  have hqueue : p.queue = q.queue := by
    have hdue := h.due
    rwa [DelayLine.due_eq_self fun envelope he => (h.left_bounded envelope he).trans hearly,
      DelayLine.due_eq_self fun envelope he => (h.right_bounded envelope he).trans hearly'] at hdue
  have hruntimes : ∀ symbol, p.runtimes.get? symbol = q.runtimes.get? symbol := fun symbol =>
    ((h.runtimes symbol).resolve_left (h.left_bounded.not_withheld hearly)).resolve_left
      (h.right_bounded.not_withheld hearly')
  refine ⟨h.now, h.offset, fun symbol => ?_, fun symbol => .inr (.inr ?_), ?_,
    h.left_bounded.extend events, h.right_bounded.extend events⟩
  · rw [WithheldTape.extend, WithheldTape.extend, definition_foldl_apply, definition_foldl_apply]
    exact h.definition symbol
  · dsimp only [WithheldTape.extend]
    generalize p.runtimes = runtimes, q.runtimes = runtimes' at hruntimes
    induction events generalizing runtimes runtimes' with
    | nil => exact hruntimes symbol
    | cons event events ih =>
      apply ih
      intro symbol
      rw [get?_apply, get?_apply, hruntimes symbol]
  · rw [WithheldTape.extend, WithheldTape.extend, hqueue, h.horizon]

/-- Any events on either side, generated too late to be released by the time. -/
theorem extend_late (h : Agree time p q) (hlate : time < p.horizon)
    (events events' : List Generated) :
    Agree time (p.extend events) (q.extend events') := by
  have hlate' : time < q.horizon := h.horizon ▸ hlate
  refine ⟨h.now, h.offset, fun symbol => ?_, fun symbol => ?_, ?_,
    h.left_bounded.extend events, h.right_bounded.extend events'⟩
  · rw [WithheldTape.extend, WithheldTape.extend, definition_foldl_apply, definition_foldl_apply]
    exact h.definition symbol
  · rcases extend_late_cases events hlate symbol with hwithheld | hsame
    · exact .inl hwithheld
    rcases extend_late_cases events' hlate' symbol with hwithheld | hsame'
    · exact .inr (.inl hwithheld)
    rcases h.runtimes symbol with hwithheld | hwithheld | heq
    · exact .inl (hwithheld.extend hlate events)
    · exact .inr (.inl (hwithheld.extend hlate' events'))
    · exact .inr (.inr (hsame.trans (heq.trans hsame'.symm)))
  · rw [WithheldTape.extend, WithheldTape.extend, DelayLine.due_append_late,
      DelayLine.due_append_late]
    · exact h.due
    · intro envelope henvelope
      obtain ⟨event, -, rfl⟩ := List.mem_map.mp henvelope
      exact hlate'
    · intro envelope henvelope
      obtain ⟨event, -, rfl⟩ := List.mem_map.mp henvelope
      exact hlate

/-! ## The other moves of a tape -/

/-- The clock moves on, for both alike. -/
theorem later (h : Agree time p q) (ms : Nat) :
    Agree time { p with now := p.now + ms } { q with now := q.now + ms } where
  now := congrArg (· + ms) h.now
  offset := h.offset
  definition := h.definition
  runtimes := h.runtimes
  due := h.due
  left_bounded envelope henvelope := (h.left_bounded envelope henvelope).trans
    (Nat.add_le_add_right (Nat.le_add_right _ _) _)
  right_bounded envelope henvelope := (h.right_bounded envelope henvelope).trans
    (Nat.add_le_add_right (Nat.le_add_right _ _) _)

/-- Both give up what is due by then. -/
theorem drain (h : Agree time p q) {now : Nat} (hnow : now ≤ time) :
    Agree time { p with queue := DelayLine.held DelayedEnvelope.releaseAt now p.queue }
      { q with queue := DelayLine.held DelayedEnvelope.releaseAt now q.queue } where
  now := h.now
  offset := h.offset
  definition := h.definition
  runtimes symbol := by
    have hheld : ∀ tape : WithheldTape, tape.Withheld time symbol →
        { tape with queue := DelayLine.held DelayedEnvelope.releaseAt now tape.queue }.Withheld
          time symbol := by
      rintro tape ⟨runtime, hruntime, envelope, henvelope, hlate, hid⟩
      exact ⟨runtime, hruntime, envelope, DelayLine.mem_held henvelope (hnow.trans_lt hlate),
        hlate, hid⟩
    exact (h.runtimes symbol).imp (hheld p) (Or.imp_left (hheld q))
  due := by rw [DelayLine.due_held hnow, DelayLine.due_held hnow, h.due]
  left_bounded envelope henvelope :=
    h.left_bounded envelope ((List.dropWhile_suffix _).subset henvelope)
  right_bounded envelope henvelope :=
    h.right_bounded envelope ((List.dropWhile_suffix _).subset henvelope)

/-- What is given up then is the same. -/
theorem due_eq (h : Agree time p q) {now : Nat} (hnow : now ≤ time) :
    DelayLine.due DelayedEnvelope.releaseAt now p.queue =
      DelayLine.due DelayedEnvelope.releaseAt now q.queue := by
  rw [← DelayLine.due_due hnow, h.due, DelayLine.due_due hnow]

/-- Every runtime is rewritten the same way, keeping what it is of and its last event. -/
theorem mapValues (h : Agree time p q) {f : SymbolRuntime → SymbolRuntime}
    (hdefinition : ∀ runtime, (f runtime).definition = runtime.definition)
    (hlast : ∀ runtime, (f runtime).lastEventId = runtime.lastEventId) :
    Agree time { p with runtimes := p.runtimes.mapValues f }
      { q with runtimes := q.runtimes.mapValues f } where
  now := h.now
  offset := h.offset
  definition symbol := by
    simp only [OrderedMap.get?_mapValues, Option.map_map, Function.comp_def, hdefinition]
    exact h.definition symbol
  runtimes symbol := by
    have hmap : ∀ tape : WithheldTape, tape.Withheld time symbol →
        { tape with runtimes := tape.runtimes.mapValues f }.Withheld time symbol := by
      rintro tape ⟨runtime, hruntime, envelope, henvelope, hlate, hid⟩
      refine ⟨f runtime, ?_, envelope, henvelope, hlate, hid.trans (hlast runtime).symm⟩
      rw [OrderedMap.get?_mapValues, Option.mem_def.mp hruntime]
      exact Option.mem_def.mpr rfl
    refine (h.runtimes symbol).imp (hmap p) (Or.imp (hmap q) fun heq => ?_)
    rw [OrderedMap.get?_mapValues, OrderedMap.get?_mapValues, heq]
  due := h.due
  left_bounded := h.left_bounded
  right_bounded := h.right_bounded

/-- Runtimes rebuilt from what they are of are the same on both sides. -/
theorem get?_rebuild (h : Agree time p q) {f g : SymbolRuntime → SymbolRuntime}
    (hfg : ∀ symbol, ∀ runtime ∈ p.runtimes.get? symbol, ∀ runtime' ∈ q.runtimes.get? symbol,
      runtime.definition = runtime'.definition → f runtime = g runtime') (symbol : String) :
    (p.runtimes.mapValues f).get? symbol = (q.runtimes.mapValues g).get? symbol := by
  rw [OrderedMap.get?_mapValues, OrderedMap.get?_mapValues]
  have hsame := h.definition symbol
  cases hp : p.runtimes.get? symbol with
  | none =>
    rw [hp, Option.map_none, eq_comm, Option.map_eq_none_iff] at hsame
    rw [hsame]
    rfl
  | some runtime =>
    rw [hp, Option.map_some, eq_comm, Option.map_eq_some_iff] at hsame
    obtain ⟨runtime', hq, heq⟩ := hsame
    rw [hq, Option.map_some, Option.map_some, hfg symbol runtime hp runtime' hq heq.symm]

/-- With the same runtimes on both sides, nothing is left to withhold. -/
theorem of_runtimes_eq (h : Agree time p q) {runtimes runtimes' : OrderedMap String SymbolRuntime}
    (hsame : ∀ symbol, runtimes.get? symbol = runtimes'.get? symbol) :
    Agree time { p with runtimes := runtimes } { q with runtimes := runtimes' } where
  now := h.now
  offset := h.offset
  definition symbol := congrArg _ (hsame symbol)
  runtimes symbol := .inr (.inr (hsame symbol))
  due := h.due
  left_bounded := h.left_bounded
  right_bounded := h.right_bounded

end Agree

end WithheldTape

end Tckr.MarketWatch
