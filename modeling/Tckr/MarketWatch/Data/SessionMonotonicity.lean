import Tckr.MarketWatch.Data.Engine
import Tckr.MarketWatch.Data.MarketCalendar

/-!
# A session's figures only grow

Two engines write a runtime: entering a session reconstructs it at once, and the
live engine moves it event by event. Each of them widens the range, adds to the
volume and keeps the opening price. But a session is entered once more as it
closes, and is then reconstructed up to the close: whatever the live engine has
added to it since is lost.
-/

namespace Tckr.MarketWatch

/-! ## Figures -/

/-- What a session shows of an instrument. -/
structure Figures where
  openPrice : Int
  price : Int
  high : Int
  low : Int
  volume : Nat
  deriving DecidableEq

namespace Figures

/-- The price lies in the range. -/
structure Bracketed (figures : Figures) : Prop where
  low_le : figures.low ≤ figures.price
  le_high : figures.price ≤ figures.high

/-- Later figures of the same session. -/
structure Extends (figures later : Figures) : Prop where
  openPrice : later.openPrice = figures.openPrice
  high : figures.high ≤ later.high
  low : later.low ≤ figures.low
  volume : figures.volume ≤ later.volume

theorem Extends.refl (figures : Figures) : Extends figures figures :=
  ⟨rfl, le_rfl, le_rfl, le_rfl⟩

theorem Extends.trans {a b c : Figures} (h : Extends a b) (h' : Extends b c) : Extends a c where
  openPrice := h'.openPrice.trans h.openPrice
  high := h.high.trans h'.high
  low := h'.low.trans h.low
  volume := h.volume.trans h'.volume

/-- A trade at a price. -/
def trade (figures : Figures) (price : Int) (quantity : Nat) : Figures where
  openPrice := figures.openPrice
  price := price
  high := max figures.high price
  low := min figures.low price
  volume := figures.volume + quantity

theorem extends_trade (figures : Figures) (price : Int) (quantity : Nat) :
    figures.Extends (figures.trade price quantity) :=
  ⟨rfl, le_max_left _ _, min_le_left _ _, Nat.le_add_right _ _⟩

theorem bracketed_trade (figures : Figures) (price : Int) (quantity : Nat) :
    (figures.trade price quantity).Bracketed :=
  ⟨min_le_right _ _, le_max_right _ _⟩

end Figures

/-! ## The reconstruction -/

def BackfilledSession.figures (session : BackfilledSession) : Figures :=
  ⟨session.openPrice, session.price, session.high, session.low, session.volume⟩

def SymbolRuntime.figures (runtime : SymbolRuntime) : Figures :=
  ⟨runtime.openPrice, runtime.price, runtime.high, runtime.low, runtime.volume⟩

/-- Every move of the reconstruction is a trade. -/
theorem backfillMove_figures (definition : SimSymbol) (rng : Mulberry32)
    (session : BackfilledSession) : ∃ price quantity,
    (backfillMove definition rng session).2.figures = session.figures.trade price quantity := by
  unfold backfillMove
  generalize pickSignedSteps rng session.price session.openPrice backfillMaxStepsPerSlot = moved
  dsimp only
  generalize Mulberry32.next moved.2 = lots
  exact ⟨_, _, rfl⟩

/-- A slot moves the session or leaves it. -/
theorem backfillSlot_figures (definition : SimSymbol) (sessionOpenAt : Nat)
    (state : Mulberry32 × BackfilledSession) (slot : Nat) :
    (backfillSlot definition sessionOpenAt state slot).2.figures = state.2.figures ∨
      ∃ price quantity, (backfillSlot definition sessionOpenAt state slot).2.figures =
        state.2.figures.trade price quantity := by
  obtain ⟨price, quantity, hmove⟩ := backfillMove_figures definition state.1 state.2
  by_cases hslot : slot > 0
  · refine .inr ⟨price, quantity, ?_⟩
    rw [← hmove, backfillSlot, if_pos hslot]
    rfl
  · refine .inl ?_
    rw [backfillSlot, if_neg hslot]
    rfl

/-- The session after some slots. -/
def backfilledTo (definition : SimSymbol) (sessionOpenAt : Nat) (seed : UInt32) (slots : Nat) :
    Figures :=
  let openPrice := auctionOpen definition seed
  let start : BackfilledSession := ⟨openPrice, openPrice, openPrice, openPrice, 0, []⟩
  ((List.range slots).foldl (backfillSlot definition sessionOpenAt)
    (Mulberry32.mk seed, start)).2.figures

variable {definition : SimSymbol} {sessionOpenAt : Nat} {seed : UInt32}

theorem backfilledTo_succ (slots : Nat) :
    backfilledTo definition sessionOpenAt seed (slots + 1) =
        backfilledTo definition sessionOpenAt seed slots ∨
      ∃ price quantity, backfilledTo definition sessionOpenAt seed (slots + 1) =
        (backfilledTo definition sessionOpenAt seed slots).trade price quantity := by
  unfold backfilledTo
  dsimp only
  rw [List.range_succ, List.foldl_append, List.foldl_cons, List.foldl_nil]
  exact backfillSlot_figures _ _ _ _

theorem backfilledTo_bracketed (slots : Nat) :
    (backfilledTo definition sessionOpenAt seed slots).Bracketed := by
  induction slots with
  | zero => exact ⟨le_rfl, le_rfl⟩
  | succ slots ih =>
    rcases backfilledTo_succ slots with h | ⟨price, quantity, h⟩
    · rw [h]
      exact ih
    · rw [h]
      exact Figures.bracketed_trade _ _ _

/-- A longer reconstruction extends a shorter one. -/
theorem backfilledTo_extends {slots slots' : Nat} (h : slots ≤ slots') :
    (backfilledTo definition sessionOpenAt seed slots).Extends
      (backfilledTo definition sessionOpenAt seed slots') := by
  induction slots', h using Nat.le_induction with
  | base => exact .refl _
  | succ slots' _ ih =>
    refine ih.trans ?_
    rcases backfilledTo_succ slots' with h | ⟨price, quantity, h⟩
    · rw [h]
      exact .refl _
    · rw [h]
      exact Figures.extends_trade _ _ _

/-- The session reconstructed up to some time. -/
def walkTo (definition : SimSymbol) (sessionOpenAt : Nat) (seed : UInt32) (targetTime : Nat) :
    Figures :=
  (computeBackfilledSession definition sessionOpenAt targetTime seed).figures

theorem walkTo_bracketed (targetTime : Nat) :
    (walkTo definition sessionOpenAt seed targetTime).Bracketed :=
  backfilledTo_bracketed _

theorem walkTo_extends {targetTime targetTime' : Nat} (h : targetTime ≤ targetTime') :
    (walkTo definition sessionOpenAt seed targetTime).Extends
      (walkTo definition sessionOpenAt seed targetTime') :=
  backfilledTo_extends (Nat.succ_le_succ (Nat.div_le_div_right (Nat.sub_le_sub_right h _)))

/-! ## The live engine -/

namespace SimulatedSource

/-- The last event of an instrument. -/
def lastOf (symbol : String) (events : List Generated) : Option Generated :=
  (events.filter fun event => event.tick.s = symbol).getLast?

/-- The price of the last event, if there is one. -/
def lastPrice (symbol : String) (events : List Generated) : Option Int :=
  (lastOf symbol events).map Generated.price

theorem lastPrice_append (symbol : String) (events later : List Generated) :
    lastPrice symbol (events ++ later) =
      (lastPrice symbol later).or (lastPrice symbol events) := by
  unfold lastPrice lastOf
  rw [List.filter_append, List.getLast?_append, Option.map_or]

/-- How events change what an instrument shows. -/
structure Traded (symbol : String) (events : List Generated) (runtime later : SymbolRuntime) :
    Prop where
  definition : later.definition = runtime.definition
  figures : runtime.figures.Extends later.figures
  bracketed : runtime.figures.Bracketed → later.figures.Bracketed
  untouched : lastPrice symbol events = none → later.figures = runtime.figures
  price : ∀ price ∈ lastPrice symbol events, later.price = price

theorem Traded.trans {symbol : String} {events events' : List Generated}
    {a b c : SymbolRuntime} (h : Traded symbol events a b) (h' : Traded symbol events' b c) :
    Traded symbol (events ++ events') a c where
  definition := h'.definition.trans h.definition
  figures := h.figures.trans h'.figures
  bracketed := h'.bracketed ∘ h.bracketed
  untouched hnone := by
    rw [lastPrice_append, Option.or_eq_none_iff] at hnone
    exact (h'.untouched hnone.1).trans (h.untouched hnone.2)
  price price hprice := by
    rw [lastPrice_append, Option.mem_def, Option.or_eq_some_iff] at hprice
    rcases hprice with hprice | ⟨hnone, hprice⟩
    · exact h'.price price hprice
    · have hsame : c.price = b.price := congrArg Figures.price (h'.untouched hnone)
      exact hsame.trans (h.price price hprice)

/-- Events the source may have generated, from one source to another. -/
def Trades (symbol : String) (events : List Generated) (s t : SimulatedSource) : Prop :=
  ∀ later, t.runtimeBySymbol.get? symbol = some later →
    ∃ runtime, s.runtimeBySymbol.get? symbol = some runtime ∧ Traded symbol events runtime later

variable {symbol : String} {s t u : SimulatedSource}

theorem Trades.of_figures {f : SymbolRuntime → SymbolRuntime}
    (hf : ∀ runtime, (f runtime).definition = runtime.definition ∧
      (f runtime).figures = runtime.figures)
    (h : t.runtimeBySymbol.get? symbol = (s.runtimeBySymbol.get? symbol).map f) :
    Trades symbol [] s t := by
  intro later hlater
  rw [h, Option.map_eq_some_iff] at hlater
  obtain ⟨runtime, hruntime, rfl⟩ := hlater
  obtain ⟨hdefinition, hfigures⟩ := hf runtime
  refine ⟨runtime, hruntime, hdefinition, ?_, ?_, fun _ => hfigures, nofun⟩
  · rw [hfigures]
    exact .refl _
  · rw [hfigures]
    exact id

theorem Trades.refl (symbol : String) (h : t.runtimeBySymbol = s.runtimeBySymbol) :
    Trades symbol [] s t :=
  .of_figures (f := id) (fun _ => ⟨rfl, rfl⟩) (by rw [h, Option.map_id, id_eq])

theorem Trades.trans {events events' : List Generated} (h : Trades symbol events s t)
    (h' : Trades symbol events' t u) : Trades symbol (events ++ events') s u := by
  intro later hlater
  obtain ⟨between, hbetween, hlater'⟩ := h' later hlater
  obtain ⟨runtime, hruntime, hbetween'⟩ := h between hbetween
  exact ⟨runtime, hruntime, hbetween'.trans hlater'⟩

/-- Emitting or holding back an event moves its own runtime only. -/
theorem generateFor_runtimes (s : SimulatedSource) (definition : SimSymbol)
    (runtime : SymbolRuntime) : (s.generateFor definition runtime).runtimeBySymbol =
      s.runtimeBySymbol.set definition.symbol (s.draw definition runtime).runtime := by
  unfold generateFor
  generalize s.draw definition runtime = event
  dsimp only
  unfold deliver
  split
  · rfl
  · unfold emit
    split
    · rfl
    · rfl

/-- An event is a trade of its instrument. -/
theorem traded_draw (s : SimulatedSource) (definition : SimSymbol) (runtime : SymbolRuntime) :
    (s.draw definition runtime).generated.tick.s = definition.symbol ∧
      Traded definition.symbol [(s.draw definition runtime).generated] runtime
        (s.draw definition runtime).runtime := by
  have hsymbol : (s.draw definition runtime).generated.tick.s = definition.symbol := rfl
  refine ⟨hsymbol, ?_⟩
  rw [draw_runtime]
  generalize (s.draw definition runtime).generated = event at *
  have hfigures : (runtime.after event).figures =
      runtime.figures.trade event.price event.tick.q.toNat := rfl
  have hlast : lastPrice definition.symbol [event] = some event.price := by
    simp only [lastPrice, lastOf, hsymbol, decide_true, List.filter_cons_of_pos, List.filter_nil,
      List.getLast?_singleton, Option.map_some]
  refine ⟨rfl, ?_, ?_, ?_, ?_⟩
  · rw [hfigures]
    exact Figures.extends_trade _ _ _
  · rw [hfigures]
    exact fun _ => Figures.bracketed_trade _ _ _
  · rw [hlast]
    exact nofun
  · intro price hprice
    rw [hlast, Option.mem_some] at hprice
    exact hprice

theorem generateOne_trades (symbol : String) (s : SimulatedSource) :
    Trades symbol s.nextEvent.toList s s.generateOne := by
  obtain ⟨prng, ⟨hnone, hsame⟩ | ⟨definition, runtime, hruntime, hsome, hmoved⟩⟩ :=
    s.generateOne_cases
  · rw [hnone, hsame]
    exact .refl symbol rfl
  · rw [hsome, hmoved, Option.toList_some]
    intro later hlater
    rw [generateFor_runtimes] at hlater
    obtain ⟨hsymbol, htraded⟩ :=
      traded_draw ({ s with prng := prng } : SimulatedSource) definition runtime
    generalize ({ s with prng := prng } : SimulatedSource).draw definition runtime = event at *
    by_cases hpicked : symbol = definition.symbol
    · subst hpicked
      rw [OrderedMap.get?_set_self, Option.some.injEq] at hlater
      exact ⟨runtime, hruntime, hlater ▸ htraded⟩
    · rw [OrderedMap.get?_set_of_ne _ _ hpicked] at hlater
      have hother : lastPrice symbol [event.generated] = none := by
        have hne : ¬event.generated.tick.s = symbol := fun heq => hpicked (heq ▸ hsymbol)
        simp only [lastPrice, lastOf, hne, decide_false, List.filter_cons_of_neg,
          Bool.false_eq_true, not_false_eq_true, List.filter_nil, List.getLast?_nil,
          Option.map_none]
      refine ⟨later, hlater, rfl, .refl _, id, fun _ => rfl, ?_⟩
      rw [hother]
      exact nofun

/-- The events of a batch. -/
theorem iterate_generateOne_trades (symbol : String) (s : SimulatedSource) (n : Nat) :
    Trades symbol (nextEvents n s) s (generateOne^[n] s) := by
  induction n generalizing s with
  | zero => exact .refl symbol rfl
  | succ n ih =>
    rw [Function.iterate_succ_apply, nextEvents]
    exact (s.generateOne_trades symbol).trans (ih s.generateOne)

/-- Sampling the history moves no figures. -/
theorem sampled_trades (symbol : String) (s : SimulatedSource) : Trades symbol [] s s.sampled := by
  unfold sampled
  split
  · exact .of_figures (f := fun runtime => runtime.sample s.now) (fun _ => ⟨rfl, rfl⟩)
      (OrderedMap.get?_mapValues _ _ _)
  · exact .refl symbol rfl

/-- A batch follows the calendar, and then only trades. -/
theorem generateBatch_trades (symbol : String) (s : SimulatedSource) (calendar : Calendar) :
    Trades symbol (s.batchEvents calendar) (s.ensureSessionFor calendar)
      (s.generateBatch calendar) := by
  rw [generateBatch_eq, batchEvents]
  generalize s.ensureSessionFor calendar = u
  split
  · exact .refl symbol rfl
  · obtain ⟨_, _, hdrained⟩ := (generateOne^[u.sampled.perBatch] u.sampled).drainDelayedQueue_eq
    have hdrain : Trades symbol [] (generateOne^[u.sampled.perBatch] u.sampled)
        (generateOne^[u.sampled.perBatch] u.sampled).drainDelayedQueue := by
      rw [hdrained]
      exact .refl symbol rfl
    have hevents := ((u.sampled_trades symbol).trans
      (u.sampled.iterate_generateOne_trades symbol u.sampled.perBatch)).trans hdrain
    rwa [List.nil_append, List.append_nil] at hevents

/-- A batch keeps the session the calendar has given it. -/
theorem generateBatch_session (s : SimulatedSource) (calendar : Calendar) :
    (s.generateBatch calendar).currentSessionDateKey =
        (s.ensureSessionFor calendar).currentSessionDateKey ∧
      (s.generateBatch calendar).lastKnownMarketState =
        (s.ensureSessionFor calendar).lastKnownMarketState ∧
      (s.generateBatch calendar).config = (s.ensureSessionFor calendar).config ∧
      (s.generateBatch calendar).now = (s.ensureSessionFor calendar).now := by
  rw [generateBatch_eq]
  generalize s.ensureSessionFor calendar = u
  split
  · exact ⟨rfl, rfl, rfl, rfl⟩
  · obtain ⟨_, _, hsampled⟩ := u.sampled_eq
    obtain ⟨_, _, _, _, _, _, hgenerated⟩ := u.sampled.iterate_generateOne_eq u.sampled.perBatch
    obtain ⟨_, _, hdrained⟩ := (generateOne^[u.sampled.perBatch] u.sampled).drainDelayedQueue_eq
    rw [hdrained, hgenerated, hsampled]
    exact ⟨rfl, rfl, rfl, rfl⟩

/-! ## The session on display -/

/-- When the calendar was last followed, and the price of the instrument's last event in the
session on display. -/
structure SessionLog where
  followedAt : Nat := 0
  lastPrice : Option Int := none
  deriving DecidableEq

/-- The events a step generates. -/
def eventsOf (calendar : Calendar) (s : SimulatedSource) : Action → List Generated
  | .timer .interval => s.rearmed.batchEvents calendar
  | _ => []

/-- The log as the calendar is followed. -/
def SessionLog.follow (log : SessionLog) (s : SimulatedSource) (status : MarketStatus) :
    SessionLog where
  followedAt := s.now
  lastPrice := if some status.sessionDateKey = s.currentSessionDateKey then log.lastPrice else none

/-- The log after events. -/
def SessionLog.trade (log : SessionLog) (symbol : String) (events : List Generated) : SessionLog :=
  { log with lastPrice := (SimulatedSource.lastPrice symbol events).or log.lastPrice }

/-- Keep the log of a step. -/
def logSession (calendar : Calendar) (symbol : String) (s : SimulatedSource) (a : Action)
    (_ : SimulatedSource) (log : SessionLog) : SessionLog :=
  if s.Follows a then (log.follow s (calendar s.now)).trade symbol (s.eventsOf calendar a) else log

/-- A session closes on display only if the live engine has not traded the instrument in it. -/
def ClosesUntouched (calendar : Calendar) (s : SimulatedSource) (log : SessionLog) (a : Action) :
    Prop :=
  s.Follows a ∧ some (calendar s.now).sessionDateKey = s.currentSessionDateKey ∧
      (calendar s.now).state = .closed ∧ s.lastKnownMarketState = some .open →
    log.lastPrice = none

instance (calendar : Calendar) (s : SimulatedSource) (log : SessionLog) (a : Action) :
    Decidable (ClosesUntouched calendar s log a) :=
  inferInstanceAs (Decidable (_ → _))

/-- The reconstruction of an instrument in a session. -/
def walkOf (s : SimulatedSource) (status : MarketStatus) (runtime : SymbolRuntime)
    (targetTime : Nat) : Figures :=
  walkTo runtime.definition status.sessionOpenAt
    (hashSeed s.config.seed runtime.definition.symbol status.sessionDateKey) targetTime

/-- What is known of the instrument's figures. -/
structure Displays (calendar : Calendar) (symbol : String) (s : SimulatedSource)
    (log : SessionLog) : Prop where
  past : log.followedAt ≤ s.now
  session : ∀ key, s.currentSessionDateKey = some key →
    key = (calendar log.followedAt).sessionDateKey ∧
      s.lastKnownMarketState = some (calendar log.followedAt).state
  bracketed : ∀ runtime, s.runtimeBySymbol.get? symbol = some runtime → runtime.figures.Bracketed
  /-- Without an event the figures are those of a reconstruction, and of all of it once closed. -/
  untouched : log.lastPrice = none → s.currentSessionDateKey ≠ none →
    ∀ runtime, s.runtimeBySymbol.get? symbol = some runtime →
      ∃ target ≤ (calendar log.followedAt).sessionCloseAt,
        runtime.figures = s.walkOf (calendar log.followedAt) runtime target ∧
        ((calendar log.followedAt).state = .closed →
          target = (calendar log.followedAt).sessionCloseAt)
  frozen : ∀ price ∈ log.lastPrice, ∀ runtime,
    s.runtimeBySymbol.get? symbol = some runtime → runtime.price = price

variable {calendar : Calendar} {log : SessionLog}

/-- The figures of a session only grow from one source to another. -/
def Grows (symbol : String) (s t : SimulatedSource) : Prop :=
  ∀ later, t.runtimeBySymbol.get? symbol = some later →
    ∃ runtime, s.runtimeBySymbol.get? symbol = some runtime ∧
      runtime.figures.Extends later.figures

theorem Grows.refl (h : t.runtimeBySymbol = s.runtimeBySymbol) : Grows symbol s t :=
  fun later hlater => ⟨later, h ▸ hlater, .refl _⟩

theorem Grows.trans (h : Grows symbol s t) (h' : Grows symbol t u) : Grows symbol s u := by
  intro later hlater
  obtain ⟨between, hbetween, hlater'⟩ := h' later hlater
  obtain ⟨runtime, hruntime, hbetween'⟩ := h between hbetween
  exact ⟨runtime, hruntime, hbetween'.trans hlater'⟩

/-- What the instrument shows depends on the engine alone. -/
theorem Displays.sameEngine (h : Displays calendar symbol s log) (hsame : SameEngine s t)
    (hnow : s.now ≤ t.now) : Displays calendar symbol t log where
  past := h.past.trans hnow
  session := by
    rw [hsame.key, hsame.state]
    exact h.session
  bracketed := by
    rw [hsame.runtimes]
    exact h.bracketed
  untouched := by
    simp only [hsame.runtimes, hsame.key, walkOf, hsame.seed]
    exact h.untouched
  frozen := by
    rw [hsame.runtimes]
    exact h.frozen

/-- Events keep what is known. -/
theorem Displays.trade {events : List Generated} (h : Displays calendar symbol s log)
    (htrades : Trades symbol events s t) (hnow : s.now ≤ t.now)
    (hkey : t.currentSessionDateKey = s.currentSessionDateKey)
    (hstate : t.lastKnownMarketState = s.lastKnownMarketState)
    (hseed : t.config.seed = s.config.seed) :
    Displays calendar symbol t (log.trade symbol events) where
  past := h.past.trans hnow
  session := by
    rw [hkey, hstate]
    exact h.session
  bracketed later hlater := by
    obtain ⟨runtime, hruntime, htraded⟩ := htrades later hlater
    exact htraded.bracketed (h.bracketed runtime hruntime)
  untouched hnone hsession later hlater := by
    obtain ⟨hevents, hlog⟩ := Option.or_eq_none_iff.mp hnone
    obtain ⟨runtime, hruntime, htraded⟩ := htrades later hlater
    obtain ⟨target, hle, hfigures, hclosed⟩ :=
      h.untouched hlog (hkey ▸ hsession) runtime hruntime
    refine ⟨target, hle, ?_, hclosed⟩
    rw [htraded.untouched hevents, hfigures, walkOf, walkOf, hseed, htraded.definition]
    rfl
  frozen price hprice later hlater := by
    obtain ⟨runtime, hruntime, htraded⟩ := htrades later hlater
    rcases Option.or_eq_some_iff.mp hprice with hprice | ⟨hnone, hprice⟩
    · exact htraded.price price hprice
    · have hsame : later.price = runtime.price :=
        congrArg Figures.price (htraded.untouched hnone)
      exact hsame.trans (h.frozen price hprice runtime hruntime)

/-- When a session is entered up to. -/
def entryTarget (s : SimulatedSource) (status : MarketStatus) : Nat :=
  if status.state = .open then s.now else status.sessionCloseAt

/-- A session is entered up to its close at the latest. -/
theorem entryTarget_le (hlawful : calendar.Lawful) (s : SimulatedSource) :
    s.entryTarget (calendar s.now) ≤ (calendar s.now).sessionCloseAt := by
  unfold entryTarget
  split
  · exact (hlawful.within s.now ‹_›).le
  · exact le_rfl

/-- Entering a session shows its reconstruction. -/
theorem get?_followed_of_enters {status : MarketStatus} (h : s.Enters status)
    {later : SymbolRuntime}
    (hlater : (s.followed status).runtimeBySymbol.get? symbol = some later) :
    ∃ runtime, s.runtimeBySymbol.get? symbol = some runtime ∧
      later.definition = runtime.definition ∧
      later.figures = s.walkOf status runtime (s.entryTarget status) := by
  change (if s.Enters status then _ else _ : OrderedMap _ _).get? symbol = _ at hlater
  rw [if_pos h, OrderedMap.get?_mapValues, Option.map_eq_some_iff] at hlater
  obtain ⟨runtime, hruntime, rfl⟩ := hlater
  exact ⟨runtime, hruntime, rfl, rfl⟩

/-- A session on display is entered again only as it closes. -/
theorem Displays.closes (h : Displays calendar symbol s log) (hlawful : calendar.Lawful)
    (hkey : some (calendar s.now).sessionDateKey = s.currentSessionDateKey)
    (henters : s.Enters (calendar s.now)) :
    (calendar s.now).state = .closed ∧ s.lastKnownMarketState = some .open := by
  obtain ⟨hsession, hstate⟩ := h.session _ hkey.symm
  have hne : (calendar s.now).state ≠ (calendar log.followedAt).state := by
    rcases henters with hne | hne
    · exact absurd hkey hne
    · exact fun heq => hne (by rw [hstate, heq])
  cases hbefore : (calendar log.followedAt).state with
  | «open» =>
    cases hafter : (calendar s.now).state with
    | «open» => exact absurd (hafter.trans hbefore.symm) hne
    | closed => exact ⟨rfl, hstate.trans (congrArg some hbefore)⟩
  | closed =>
    exact absurd ((hlawful.closed _ _ h.past hsession.symm hbefore).trans hbefore.symm) hne

/-- A session followed is the one read off the calendar. -/
theorem session_followed {s : SimulatedSource} {calendar : Calendar} {key : String}
    (hkey : (s.followed (calendar s.now)).currentSessionDateKey = some key) :
    key = (calendar s.now).sessionDateKey ∧
      (s.followed (calendar s.now)).lastKnownMarketState = some (calendar s.now).state :=
  ⟨(Option.some.inj hkey).symm, rfl⟩

/-- What enters a session is reconstructed up to its target, and in the same session only
reconstructed further. -/
theorem Displays.follow_of_enters (h : Displays calendar symbol s log) (hlawful : calendar.Lawful)
    (hguard : some (calendar s.now).sessionDateKey = s.currentSessionDateKey →
      (calendar s.now).state = .closed → s.lastKnownMarketState = some .open →
      log.lastPrice = none) (henters : s.Enters (calendar s.now)) :
    Displays calendar symbol (s.followed (calendar s.now)) (log.follow s (calendar s.now)) ∧
      (some (calendar s.now).sessionDateKey = s.currentSessionDateKey →
        Grows symbol s (s.followed (calendar s.now))) := by
  have hnone : (log.follow s (calendar s.now)).lastPrice = none := by
    unfold SessionLog.follow
    split
    · rename_i hkey
      obtain ⟨hclosed, hopen⟩ := h.closes hlawful hkey henters
      exact hguard hkey hclosed hopen
    · rfl
  refine ⟨⟨le_rfl, fun _ => session_followed, ?_, ?_, ?_⟩, ?_⟩
  · intro later hlater
    obtain ⟨runtime, -, -, hfigures⟩ := get?_followed_of_enters henters hlater
    rw [hfigures]
    exact walkTo_bracketed _
  · intro _ _ later hlater
    obtain ⟨runtime, -, hdefinition, hfigures⟩ := get?_followed_of_enters henters hlater
    refine ⟨s.entryTarget (calendar s.now), entryTarget_le hlawful s, ?_, fun hclosed => ?_⟩
    · rw [hfigures, walkOf, walkOf, hdefinition]
      rfl
    · have hstate : (calendar s.now).state = .closed := hclosed
      rw [entryTarget, hstate]
      rfl
  · rw [hnone]
    exact nofun
  · intro hkey later hlater
    obtain ⟨hclosed, hopen⟩ := h.closes hlawful hkey henters
    have hlast : log.lastPrice = none := hguard hkey hclosed hopen
    obtain ⟨runtime, hruntime, -, hfigures⟩ := get?_followed_of_enters henters hlater
    refine ⟨runtime, hruntime, ?_⟩
    obtain ⟨target, hle, hfigures', -⟩ :=
      h.untouched hlast (hkey ▸ Option.some_ne_none _) runtime hruntime
    obtain ⟨hkey', -⟩ := h.session _ hkey.symm
    obtain ⟨hopenAt, hcloseAt⟩ := hlawful.bounds _ _ hkey'
    have htarget : s.entryTarget (calendar s.now) = (calendar s.now).sessionCloseAt := by
      rw [entryTarget, hclosed]
      rfl
    rw [hfigures, hfigures', walkOf, walkOf, htarget, hkey', hopenAt]
    exact walkTo_extends (hcloseAt ▸ hle)

/-- What enters no session stays as it is. -/
theorem Displays.follow_of_not_enters (h : Displays calendar symbol s log)
    (hlawful : calendar.Lawful) (henters : ¬s.Enters (calendar s.now)) :
    Displays calendar symbol (s.followed (calendar s.now)) (log.follow s (calendar s.now)) ∧
      Grows symbol s (s.followed (calendar s.now)) := by
  have hkey : some (calendar s.now).sessionDateKey = s.currentSessionDateKey :=
    not_ne_iff.mp fun hne => henters (.inl hne)
  have hstate : some (calendar s.now).state = s.lastKnownMarketState :=
    not_ne_iff.mp fun hne => henters (.inr hne)
  obtain ⟨hkey', hstate'⟩ := h.session _ hkey.symm
  have hsame : (calendar s.now).state = (calendar log.followedAt).state :=
    Option.some.inj (hstate.trans hstate')
  obtain ⟨hopenAt, hcloseAt⟩ := hlawful.bounds _ _ hkey'
  have hruntimes : (s.followed (calendar s.now)).runtimeBySymbol = s.runtimeBySymbol :=
    if_neg henters
  have hlast : (log.follow s (calendar s.now)).lastPrice = log.lastPrice := if_pos hkey
  refine ⟨⟨le_rfl, fun _ => session_followed, ?_, ?_, ?_⟩, .refl hruntimes⟩
  · rw [hruntimes]
    exact h.bracketed
  · intro hnone _ runtime hruntime
    rw [hlast] at hnone
    rw [hruntimes] at hruntime
    obtain ⟨target, hle, hfigures, hclosed⟩ :=
      h.untouched hnone (hkey ▸ Option.some_ne_none _) runtime hruntime
    change ∃ target ≤ (calendar s.now).sessionCloseAt,
      runtime.figures = s.walkOf (calendar s.now) runtime target ∧
        ((calendar s.now).state = .closed → target = (calendar s.now).sessionCloseAt)
    unfold walkOf
    rw [hkey', hopenAt, hcloseAt, hsame]
    exact ⟨target, hle, hfigures, hclosed⟩
  · rw [hlast, hruntimes]
    exact h.frozen

/-- Following the calendar keeps what is known, and the figures of the session only grow. -/
theorem Displays.follow (h : Displays calendar symbol s log) (hlawful : calendar.Lawful)
    (hguard : some (calendar s.now).sessionDateKey = s.currentSessionDateKey →
      (calendar s.now).state = .closed → s.lastKnownMarketState = some .open →
      log.lastPrice = none) :
    Displays calendar symbol (s.followed (calendar s.now)) (log.follow s (calendar s.now)) ∧
      (some (calendar s.now).sessionDateKey = s.currentSessionDateKey →
        Grows symbol s (s.followed (calendar s.now))) := by
  by_cases henters : s.Enters (calendar s.now)
  · exact h.follow_of_enters hlawful hguard henters
  · exact (h.follow_of_not_enters hlawful henters).imp_right fun hgrows _ => hgrows

theorem eventsOf_of_ne {a : Action} (h : a ≠ .timer .interval) : s.eventsOf calendar a = [] := by
  unfold eventsOf
  split
  · exact absurd rfl h
  · rfl

theorem SessionLog.trade_nil (log : SessionLog) (symbol : String) : log.trade symbol [] = log := rfl

/-- What a step does to what is known. -/
structure DisplayStep (calendar : Calendar) (symbol : String) (s t : SimulatedSource)
    (log log' : SessionLog) : Prop where
  displays : Displays calendar symbol t log'
  followedAt : log.followedAt ≤ log'.followedAt
  session : s.currentSessionDateKey ≠ none → t.currentSessionDateKey ≠ none
  grows : s.currentSessionDateKey ≠ none →
    t.currentSessionDateKey = s.currentSessionDateKey → Grows symbol s t

/-- A step keeps what is known, and the figures of the session on display only grow. -/
theorem Displays.step {a : Action} (h : Displays calendar symbol s log)
    (hlawful : calendar.Lawful) (hguard : ClosesUntouched calendar s log a)
    (hstep : s.step calendar a = some t) :
    DisplayStep calendar symbol s t log (logSession calendar symbol s a t log) := by
  have hengine := step_engine hstep
  unfold logSession
  by_cases ha : s.Follows a
  · rw [if_pos ha]
    obtain ⟨hfollowed, hgrows⟩ := h.follow hlawful fun hkey hclosed hopen =>
      hguard ⟨ha, hkey, hclosed, hopen⟩
    -- What follows the calendar leaves its session on display, and then only trades.
    have hfinish {u : SimulatedSource} {log' : SessionLog} {events : List Generated}
        (hu : Displays calendar symbol u log') (hfollowedAt : log'.followedAt = s.now)
        (hkey : u.currentSessionDateKey = some (calendar s.now).sessionDateKey)
        (htrades : Trades symbol events (s.followed (calendar s.now)) u) :
        DisplayStep calendar symbol s u log log' := by
      refine ⟨hu, h.past.trans hfollowedAt.ge, fun _ => hkey ▸ Option.some_ne_none _, ?_⟩
      intro _ hsame
      refine (hgrows (hkey.symm.trans hsame)).trans fun later hlater => ?_
      obtain ⟨entered, hentered, htraded⟩ := htrades later hlater
      exact ⟨entered, hentered, htraded.figures⟩
    cases hengine with
    | idle hidle => exact absurd ha hidle
    | follow _ hbatch hsame hnow =>
      rw [eventsOf_of_ne hbatch, SessionLog.trade_nil]
      exact hfinish (hfollowed.sameEngine hsame hnow.ge) rfl hsame.key
        (.refl symbol hsame.runtimes)
    | batch =>
      obtain ⟨hsame, hnow⟩ := followed_sameEngine calendar s.rearmed_sameEngine rfl
      obtain ⟨hkey, hstate, hconfig, hclock⟩ := s.rearmed.generateBatch_session calendar
      have htrades := s.rearmed.generateBatch_trades symbol calendar
      have hfrom : Trades symbol [] (s.followed (calendar s.now))
          (s.rearmed.ensureSessionFor calendar) := .refl symbol hsame.runtimes
      exact hfinish ((hfollowed.sameEngine hsame hnow.ge).trade htrades hclock.ge hkey hstate
        (congrArg SimulatedSourceConfig.seed hconfig)) rfl (hkey.trans hsame.key)
        (hfrom.trans htrades)
  · rw [if_neg ha]
    cases hengine with
    | idle _ hsame hnow =>
      exact ⟨h.sameEngine hsame hnow, le_rfl, fun hsome => hsame.key ▸ hsome,
        fun _ _ => .refl hsame.runtimes⟩
    | follow hfollows => exact absurd hfollows ha
    | batch => exact absurd trivial ha

/-- A new source displays every instrument at its reference price. -/
theorem Displays.create (calendar : Calendar) (symbol : String) (symbols : List SimSymbol)
    (config : SimulatedSourceConfig) :
    Displays calendar symbol (SimulatedSource.create symbols config) {} where
  past := le_rfl
  session := nofun
  bracketed := by
    have hcreated (definitions : List SimSymbol) (runtimes : OrderedMap String SymbolRuntime)
        (h : ∀ runtime, runtimes.get? symbol = some runtime → runtime.figures.Bracketed) :
        ∀ runtime, (definitions.foldl (fun runtimes d => runtimes.set d.symbol (.create d))
          runtimes).get? symbol = some runtime → runtime.figures.Bracketed := by
      induction definitions generalizing runtimes with
      | nil => exact h
      | cons first rest ih =>
        apply ih
        intro runtime hruntime
        by_cases hsymbol : symbol = first.symbol
        · subst hsymbol
          rw [OrderedMap.get?_set_self, Option.some.injEq] at hruntime
          exact hruntime ▸ ⟨le_rfl, le_rfl⟩
        · rw [OrderedMap.get?_set_of_ne _ _ hsymbol] at hruntime
          exact h runtime hruntime
    exact hcreated symbols .empty nofun
  untouched _ hsession := absurd rfl hsession
  frozen := nofun

end SimulatedSource

open SimulatedSource

/-- The simulated source with the log of one instrument's session. -/
def sessionLogged (symbols : List SimSymbol) (calendar : Calendar) (config : SimulatedSourceConfig)
    (symbol : String) : Machine (SimulatedSource × SessionLog) Action :=
  (simulated symbols calendar config).withHistory {} (logSession calendar symbol)

section Runs

variable {symbols : List SimSymbol} {calendar : Calendar} {config : SimulatedSourceConfig}
  {symbol : String} {s t : SimulatedSource} {log log' : SessionLog}

theorem sessionLogged_step {a : Action} (h : Displays calendar symbol s log)
    (hlawful : calendar.Lawful) (hguard : ClosesUntouched calendar s log a)
    (hstep : (sessionLogged symbols calendar config symbol).step (s, log) a = some (t, log')) :
    DisplayStep calendar symbol s t log log' := by
  obtain ⟨ht, hlog⟩ := (Machine.withHistory_step _).mp hstep
  dsimp only at ht hlog
  rw [hlog]
  exact h.step hlawful hguard ht

/-- Along a run the figures of a session only grow while, and whenever, it is on display. -/
theorem SimulatedSource.Displays.run {actions : List Action} (h : Displays calendar symbol s log)
    (hlawful : calendar.Lawful)
    (hguard : (sessionLogged symbols calendar config symbol).Guarded
      (fun p a => ClosesUntouched calendar p.1 p.2 a) (s, log) actions)
    (hrun : (sessionLogged symbols calendar config symbol).runFrom (s, log) actions =
      some (t, log')) : DisplayStep calendar symbol s t log log' := by
  induction actions generalizing s log with
  | nil =>
    rw [Machine.runFrom_nil, Option.some.injEq, Prod.mk.injEq] at hrun
    obtain ⟨rfl, rfl⟩ := hrun
    exact ⟨h, le_rfl, id, fun _ _ => .refl rfl⟩
  | cons a actions ih =>
    rw [Machine.runFrom_cons, Option.bind_eq_some_iff] at hrun
    obtain ⟨⟨u, ulog⟩, hu, hrun⟩ := hrun
    obtain ⟨ha, hguard⟩ := (Machine.guarded_cons _ hu).mp hguard
    have hfirst := sessionLogged_step h hlawful ha hu
    have hrest := ih hfirst.displays hguard hrun
    refine ⟨hrest.displays, hfirst.followedAt.trans hrest.followedAt,
      hrest.session ∘ hfirst.session, fun hsome hsame => ?_⟩
    obtain ⟨key, hkey⟩ := Option.ne_none_iff_exists'.mp hsome
    obtain ⟨key', hkey'⟩ := Option.ne_none_iff_exists'.mp (hfirst.session hsome)
    obtain ⟨hs, -⟩ := h.session key hkey
    obtain ⟨ht, -⟩ := hrest.displays.session key (hsame.trans hkey)
    -- What is on display in between is the session that is displayed again.
    have hbetween : u.currentSessionDateKey = s.currentSessionDateKey := by
      obtain ⟨hu', -⟩ := hfirst.displays.session key' hkey'
      have hrecurs := hlawful.recurs _ _ _ hfirst.followedAt hrest.followedAt (hs.symm.trans ht)
      rw [hkey, hkey', hu', hrecurs, hs]
    exact (hfirst.grows hsome hbetween).trans
      (hrest.grows (hfirst.session hsome) (hsame.trans hbetween.symm))

/-- A closed session shows the price of its last event, or of its whole reconstruction. -/
theorem SimulatedSource.Displays.closing (h : Displays calendar symbol s log)
    (hlawful : calendar.Lawful)
    (hclosed : s.lastKnownMarketState = some .closed) {τ : Nat}
    (hkey : s.currentSessionDateKey = some (calendar τ).sessionDateKey) {runtime : SymbolRuntime}
    (hruntime : s.runtimeBySymbol.get? symbol = some runtime) :
    runtime.price = log.lastPrice.getD
      (s.walkOf (calendar τ) runtime (calendar τ).sessionCloseAt).price := by
  cases hlast : log.lastPrice with
  | some price => exact h.frozen price hlast runtime hruntime
  | none =>
    obtain ⟨hsame, hstate⟩ := h.session _ hkey
    obtain ⟨hopenAt, hcloseAt⟩ := hlawful.bounds _ _ hsame
    obtain ⟨target, -, hfigures, htarget⟩ :=
      h.untouched hlast (hkey ▸ Option.some_ne_none _) runtime hruntime
    have hnow : (calendar log.followedAt).state = .closed :=
      Option.some.inj (hstate.symm.trans hclosed)
    have hprice : runtime.price = runtime.figures.price := rfl
    rw [hprice, hfigures, htarget hnow, Option.getD_none]
    unfold walkOf
    rw [← hsame, ← hopenAt, ← hcloseAt]

end Runs

/-- In every run of the source in which each session that closes on display has had no live event
of the instrument, its figures only grow from any instant to any later one of the same session, its
price lies in its range, and a closed session shows the price of its last event. -/
theorem session_monotone {zone : CairoZone} {symbols : List SimSymbol}
    {config : SimulatedSourceConfig} {symbol : String} {actions later : List Action}
    {s t : SimulatedSource} {log log' : SessionLog}
    (h : (sessionLogged symbols (marketCalendar zone) config symbol).run actions = some (s, log))
    (h' : (sessionLogged symbols (marketCalendar zone) config symbol).runFrom (s, log) later =
      some (t, log'))
    (hguard : (sessionLogged symbols (marketCalendar zone) config symbol).Guarded
      (fun p a => ClosesUntouched (marketCalendar zone) p.1 p.2 a)
      (sessionLogged symbols (marketCalendar zone) config symbol).init (actions ++ later)) :
    (s.currentSessionDateKey ≠ none → t.currentSessionDateKey = s.currentSessionDateKey →
      ∀ runtime, t.runtimeBySymbol.get? symbol = some runtime →
        ∃ earlier, s.runtimeBySymbol.get? symbol = some earlier ∧
          earlier.figures.Extends runtime.figures) ∧
    ∀ runtime, t.runtimeBySymbol.get? symbol = some runtime →
      runtime.figures.Bracketed ∧
      ∀ τ, t.currentSessionDateKey = some (marketCalendar zone τ).sessionDateKey →
        t.lastKnownMarketState = some .closed →
        runtime.price = log'.lastPrice.getD (t.walkOf (marketCalendar zone τ) runtime
          (marketCalendar zone τ).sessionCloseAt).price := by
  have hlawful := marketCalendar_lawful zone
  have hguards := (Machine.guarded_append _ h).mp hguard
  have hs := (Displays.run (Displays.create _ symbol symbols config) hlawful hguards.1 h).displays
  have ht := hs.run hlawful hguards.2 h'
  exact ⟨ht.grows, fun runtime hruntime => ⟨ht.displays.bracketed runtime hruntime,
    fun τ hkey hclosed => ht.displays.closing hlawful hclosed hkey hruntime⟩⟩

/-- Connect as the exchange opens on a Sunday, and take a batch. -/
def openingBatch : List Action :=
  [.advance 1767513600000, .call .connect, .advance 50, .timer .interval]

/-- The source with the log of the one instrument. -/
abbrev sundayLog : Machine (SimulatedSource × SessionLog) Action :=
  sessionLogged [comi] (marketCalendar winterTime) (demoConfig "user-001") "COMI"

theorem session_monotone_secondBatch : ∃ s t log log',
    sundayLog.run openingBatch = some (s, log) ∧
    sundayLog.runFrom (s, log) [.advance 50, .timer .interval] = some (t, log') ∧
    s.currentSessionDateKey ≠ none ∧ t.currentSessionDateKey = s.currentSessionDateKey ∧
    ∀ runtime, t.runtimeBySymbol.get? "COMI" = some runtime →
      ∃ earlier, s.runtimeBySymbol.get? "COMI" = some earlier ∧
        earlier.figures.Extends runtime.figures := by
  have hfirst : (sundayLog.run openingBatch).map (fun p => p.1.currentSessionDateKey) =
      some (some "2026-01-04") := by decide +kernel
  have hboth : (sundayLog.run (openingBatch ++ [.advance 50, .timer .interval])).map
      (fun p => p.1.currentSessionDateKey) = some (some "2026-01-04") := by decide +kernel
  obtain ⟨⟨s, log⟩, hs, hkey⟩ := Option.map_eq_some_iff.mp hfirst
  obtain ⟨⟨t, log'⟩, ht, hkey'⟩ := Option.map_eq_some_iff.mp hboth
  rw [Machine.run, Machine.runFrom_append, ← Machine.run, hs, Option.bind_some] at ht
  have hsome : s.currentSessionDateKey ≠ none := Option.ne_none_iff_exists'.mpr ⟨_, hkey⟩
  have hsame : t.currentSessionDateKey = s.currentSessionDateKey := hkey'.trans hkey.symm
  exact ⟨s, t, log, log', hs, ht, hsome, hsame,
    (session_monotone hs ht (by decide +kernel)).1 hsome hsame⟩

/-- After a live event the close reconstructs another price. -/
theorem not_session_monotone : ¬∀ (zone : CairoZone) (symbols : List SimSymbol)
    (config : SimulatedSourceConfig) (symbol : String) (actions : List Action)
    (t : SimulatedSource) (log : SessionLog),
    (sessionLogged symbols (marketCalendar zone) config symbol).run actions = some (t, log) →
    t.lastKnownMarketState = some .closed → ∀ price ∈ log.lastPrice, ∀ runtime,
      t.runtimeBySymbol.get? symbol = some runtime → runtime.price = price := by
  intro h
  have hrun : (sundayLog.run (openingBatch ++ [.advance 16199950, .timer .marketClock])).map
      (fun p => (p.1.lastKnownMarketState, p.2.lastPrice,
        (p.1.runtimeBySymbol.get? "COMI").map SymbolRuntime.price)) =
      some (some .closed, some 858000, some 859500) := by decide +kernel
  obtain ⟨⟨t, log⟩, ht, hshown⟩ := Option.map_eq_some_iff.mp hrun
  obtain ⟨hclosed, hshown⟩ := Prod.mk.inj hshown
  obtain ⟨hlast, hprice⟩ := Prod.mk.inj hshown
  obtain ⟨runtime, hruntime, hprice⟩ := Option.map_eq_some_iff.mp hprice
  have hfrozen := h _ _ _ _ _ t log ht hclosed _ hlast runtime hruntime
  rw [hprice] at hfrozen
  exact absurd hfrozen (by decide)

end Tckr.MarketWatch
