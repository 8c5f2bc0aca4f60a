import Tckr.Core.Coalescing
import Tckr.Core.Machine
import Tckr.MarketWatch.Data.TickDispatcher

/-!
# Coalescing is exact

The dispatcher and the store it flushes into, beside a store that takes every tick
as it comes. Apart from the time of the last write the two show the same view of
every symbol as soon as the pending ticks are flushed, wherever the flushes fell
before that: a tick's quantity adds to the volume, and all else it writes replaces
what was there.
-/

namespace Tckr.MarketWatch

/-- A view without the time of its last write. -/
def SymbolView.untimed (view : SymbolView) : SymbolView := { view with lastUpdate := 0 }

/-- What the store shows for a symbol, the time of the last write left out. -/
def Store.displayed (s : Store) (symbol : String) : Option SymbolView :=
  (s.getSymbolSnapshot symbol).map SymbolView.untimed

/-- The view a tick of a primed symbol leaves behind. -/
def tickView (metas : OrderedMap String SymbolMeta) (tick : Tick) (view : Option SymbolView) :
    Option SymbolView :=
  match metas.get? tick.s with
  | none => view
  | some symbolMeta => some
      { symbol := tick.s
        name := symbolMeta.name
        price := tick.p
        change := tick.p.subtract symbolMeta.baseline
        changePercent := symbolMeta.baseline.percentChange tick.p
        volume := (view.map SymbolView.volume).getD 0 + tick.q
        lastUpdate := 0
        stream := tick.st }

/-- Ticks as coalesced updates of the views: quantities are added, all else is replaced. -/
def tickCoalescer (metas : OrderedMap String SymbolMeta) :
    Coalescer String Tick (Option SymbolView) where
  key := Tick.s
  merge existing tick := { tick with q := existing.q + tick.q }
  act := tickView metas
  key_merge _ _ := rfl
  act_merge a b view h := by
    unfold tickView
    rw [h]
    cases metas.get? b.s with
    | none => rfl
    | some symbolMeta =>
      simp only [Option.map_some, Option.getD_some, Option.some.injEq, SymbolView.mk.injEq,
        true_and, and_true]
      omega

@[simp] theorem tickCoalescer_key (metas : OrderedMap String SymbolMeta) (tick : Tick) :
    (tickCoalescer metas).key tick = tick.s := rfl

/-! ## The store refines the views -/

namespace Store

variable (s : Store) (tick : Tick) (now : Nat)

@[simp] theorem applyTick_metas : (s.applyTick tick now).metas = s.metas := by
  unfold applyTick
  split <;> rfl

/-- One write acts on the view of one symbol. -/
theorem displayed_applyTick :
    (s.applyTick tick now).displayed = (tickCoalescer s.metas).apply s.displayed tick := by
  funext symbol
  rw [Coalescer.apply, tickCoalescer_key]
  by_cases hs : symbol = tick.s
  · subst hs
    rw [Function.update_self]
    unfold displayed getSymbolSnapshot applyTick
    simp only [tickCoalescer, tickView]
    cases s.metas.get? tick.s with
    | none => rfl
    | some symbolMeta =>
      simp only [OrderedMap.get?_set_self, Option.join_some, Option.map_some, Option.map_map]
      rfl
  · rw [Function.update_of_ne hs]
    unfold displayed getSymbolSnapshot applyTick
    cases s.metas.get? tick.s with
    | none => rfl
    | some symbolMeta => simp only [OrderedMap.get?_set_of_ne _ _ hs]

/-- A series of writes acts on the views in turn. -/
theorem displayed_foldl_applyTick (ticks : List Tick) :
    (ticks.foldl (fun store tick => store.applyTick tick now) s).displayed =
      ticks.foldl (tickCoalescer s.metas).apply s.displayed := by
  induction ticks generalizing s with
  | nil => rfl
  | cons tick ticks ih =>
    rw [List.foldl_cons, List.foldl_cons, ih, applyTick_metas, displayed_applyTick]

theorem foldl_applyTick_metas (ticks : List Tick) :
    (ticks.foldl (fun store tick => store.applyTick tick now) s).metas = s.metas := by
  induction ticks generalizing s with
  | nil => rfl
  | cons tick ticks ih => rw [List.foldl_cons, ih, applyTick_metas]

end Store

namespace TickDispatcher

variable (d : TickDispatcher)

/-- The dispatcher's queue is the coalescer's. -/
theorem push_pending (metas : OrderedMap String SymbolMeta) (tick : Tick) :
    (d.push tick).pending = (tickCoalescer metas).push d.pending tick := by
  rw [Coalescer.push, tickCoalescer_key, push]
  cases d.pending.get? tick.s with
  | some existing => rfl
  | none => rfl

/-- A flush acts with everything queued. -/
theorem displayed_flushNow (store : Store) (now : Nat) :
    (d.flushNow store now).2.displayed =
      (tickCoalescer store.metas).flush d.pending store.displayed :=
  store.displayed_foldl_applyTick now d.pending.values

end TickDispatcher

/-! ## Runs -/

/-- The dispatcher, its store, the frames it has asked for, and a store that takes every tick
directly. -/
structure Coalescing where
  dispatcher : TickDispatcher := {}
  store : Store
  frames : Nat := 0
  direct : Store

inductive Coalescing.Action where
  | push (tick : Tick) (now : Nat)
  /-- A frame the dispatcher asked for. -/
  | frame (now : Nat)
  | flushNow (now : Nat)
  deriving DecidableEq

namespace Coalescing

/-- Write what is pending. -/
def flush (s : Coalescing) (now : Nat) : Coalescing :=
  let result := s.dispatcher.flushNow s.store now
  { s with dispatcher := result.1, store := result.2 }

/-- One call of the dispatcher. -/
def step (s : Coalescing) : Action → Option Coalescing
  | .push tick now => some { s with
      dispatcher := s.dispatcher.push tick
      frames := if s.dispatcher.frameRequested then s.frames else s.frames + 1
      direct := s.direct.applyTick tick now }
  | .frame now => if s.frames = 0 then none else some ({ s with frames := s.frames - 1 }.flush now)
  | .flushNow now => some (s.flush now)

end Coalescing

/-- The runs of a dispatcher over a store. -/
def coalescing (store : Store) : Machine Coalescing Coalescing.Action where
  init := { store := store, direct := store }
  step := Coalescing.step

namespace Coalescing

/-- Flushing would bring the store level with the direct one, and the books balance. -/
structure Exact (s : Coalescing) : Prop where
  keyed : (tickCoalescer s.store.metas).Keyed s.dispatcher.pending
  metas : s.direct.metas = s.store.metas
  level : (tickCoalescer s.store.metas).flush s.dispatcher.pending s.store.displayed =
    s.direct.displayed
  balance : s.dispatcher.received =
    s.dispatcher.flushed + s.dispatcher.coalesced + s.dispatcher.pending.values.length
  requested : s.dispatcher.pending.values ≠ [] → s.dispatcher.frameRequested = true
  scheduled : s.dispatcher.frameRequested = true → 0 < s.frames

/-- A push counts itself, as coalesced or as pending. -/
theorem push_balance (d : TickDispatcher) (tick : Tick)
    (h : d.received = d.flushed + d.coalesced + d.pending.values.length) :
    (d.push tick).received =
      (d.push tick).flushed + (d.push tick).coalesced + (d.push tick).pending.values.length := by
  have hlength := Coalescer.length_push (c := tickCoalescer .empty) d.pending tick
  rw [← d.push_pending] at hlength
  rw [hlength, tickCoalescer_key]
  unfold TickDispatcher.push
  cases d.pending.get? tick.s with
  | some existing =>
    simp only [Option.isSome_some, ite_true]
    omega
  | none =>
    simp only [Option.isSome_none, Bool.false_eq_true, ite_false]
    omega

theorem push_frameRequested (d : TickDispatcher) (tick : Tick) :
    (d.push tick).frameRequested = true := by
  unfold TickDispatcher.push
  split <;> rfl

theorem Exact.push {s : Coalescing} (h : Exact s) (tick : Tick) (now : Nat) :
    Exact { s with
      dispatcher := s.dispatcher.push tick
      frames := if s.dispatcher.frameRequested then s.frames else s.frames + 1
      direct := s.direct.applyTick tick now } where
  keyed := by
    dsimp only
    rw [s.dispatcher.push_pending s.store.metas]
    exact h.keyed.push tick
  metas := by
    dsimp only
    rw [Store.applyTick_metas, h.metas]
  level := by
    dsimp only
    rw [s.dispatcher.push_pending s.store.metas, h.keyed.flush_push, h.level,
      Store.displayed_applyTick, h.metas]
  balance := push_balance s.dispatcher tick h.balance
  requested _ := push_frameRequested s.dispatcher tick
  scheduled _ := by
    dsimp only
    by_cases hframe : s.dispatcher.frameRequested = true
    · rw [if_pos hframe]
      exact h.scheduled hframe
    · rw [if_neg hframe]
      exact Nat.succ_pos _

theorem Exact.flush {s : Coalescing} (h : Exact s) (frames now : Nat) :
    Exact ({ s with frames := frames }.flush now) where
  keyed := Coalescer.keyed_empty _
  metas := h.metas.trans (s.store.foldl_applyTick_metas now s.dispatcher.pending.values).symm
  level := by
    refine Eq.trans ?_ h.level
    exact s.dispatcher.displayed_flushNow s.store now
  balance := h.balance.trans (by
    simp only [Coalescing.flush, TickDispatcher.flushNow, OrderedMap.values, OrderedMap.empty,
      List.map_nil, List.length_nil]
    omega)
  requested hpending := absurd rfl hpending
  scheduled hframe := absurd hframe Bool.false_ne_true

/-- What one call of the dispatcher preserves. -/
theorem Exact.step {s t : Coalescing} {a : Action} (h : Exact s) (ht : s.step a = some t) :
    Exact t := by
  cases a with
  | push tick now =>
    obtain rfl := Option.some.inj ht
    exact h.push tick now
  | frame now =>
    simp only [Coalescing.step] at ht
    split at ht
    · exact absurd ht nofun
    · obtain rfl := Option.some.inj ht
      exact h.flush (s.frames - 1) now
  | flushNow now =>
    obtain rfl := Option.some.inj ht
    exact h.flush s.frames now

theorem Exact.init (store : Store) : Exact { store := store, direct := store } where
  keyed := Coalescer.keyed_empty _
  metas := rfl
  level := rfl
  balance := rfl
  requested hpending := absurd rfl hpending
  scheduled hframe := absurd hframe Bool.false_ne_true

/-- Two symbols, three ticks, a frame between them, and a tick of a symbol nobody primed. -/
def pushedFrames : List Action :=
  let tick (symbol : String) (q : Int) : Tick :=
    ⟨symbol, ⟨['1', '0'], by decide⟩, q, .trade, "", "", .live⟩
  [.push (tick "COMI" 3) 1, .push (tick "HRHO" 5) 2, .push (tick "COMI" 4) 3, .frame 16,
    .push (tick "COMI" 2) 17, .push (tick "NOPE" 1) 18]

/-- A store primed with two symbols. -/
def twoPrimed : Store :=
  Store.primeUniverse {} [⟨"COMI", "CIB", ⟨['9'], by decide⟩⟩, ⟨"HRHO", "EFG", ⟨['8'], by decide⟩⟩]

end Coalescing

end Tckr.MarketWatch
