import Mathlib.Data.String.Basic
import Tckr.Core.Tally
import Tckr.MarketWatch.Data.Coalesced

/-!
# Snapshots and ticks in one store

A snapshot is written at once, and ticks wait for a frame. The store adds a tick's
quantity to whatever volume it shows, so a tick that a snapshot already states is
counted twice when it is written after it, and a tick written before an older
snapshot is lost. Neither happens as long as every snapshot is cut exactly between
what the store shows and what the dispatcher still holds.
-/

namespace Tckr.MarketWatch

/-- The price and the volume the store shows for a symbol. -/
def Store.quote (s : Store) (symbol : String) : Option (DecimalString × Int) :=
  (s.getSymbolSnapshot symbol).map fun view => (view.price, view.volume)

/-- The universe knows the symbol. -/
def Store.primed (s : Store) (symbol : String) : Bool := (s.metas.get? symbol).isSome

/-- Merging two ticks keeps the later's symbol. -/
theorem symbol_merge (existing tick : Tick) :
    { tick with q := existing.q + tick.q }.s = tick.s := rfl

/-- Ticks as coalesced updates of what the store shows. -/
def quoteCoalescer (primed : String → Bool) :
    Coalescer String Tick (Option (DecimalString × Int)) where
  key := Tick.s
  merge existing tick := { tick with q := existing.q + tick.q }
  act tick quote :=
    if primed tick.s then some (tick.p, (quote.map Prod.snd).getD 0 + tick.q) else quote
  key_merge := symbol_merge
  act_merge a b quote h := by
    rw [h]
    cases primed b.s with
    | true => simp [add_assoc]
    | false => rfl

/-! ## What one call does to what the store shows -/

namespace Store

variable (s : Store)

theorem quote_applyTick (tick : Tick) (now : Nat) :
    (s.applyTick tick now).quote = (quoteCoalescer s.primed).apply s.quote tick := by
  funext symbol
  by_cases hs : symbol = tick.s
  · subst hs
    rw [Coalescer.apply]
    simp only [quoteCoalescer, Function.update_self]
    unfold quote getSymbolSnapshot applyTick primed
    cases s.metas.get? tick.s with
    | none => rfl
    | some symbolMeta => simp [OrderedMap.get?_set_self, Option.map_map, Function.comp_def,
        getSymbolSnapshot]
  · rw [Coalescer.apply]
    simp only [quoteCoalescer, Function.update_of_ne hs]
    unfold quote getSymbolSnapshot applyTick
    cases s.metas.get? tick.s with
    | none => rfl
    | some symbolMeta => simp only [OrderedMap.get?_set_of_ne _ _ hs]

@[simp] theorem primed_applyTick (tick : Tick) (now : Nat) :
    (s.applyTick tick now).primed = s.primed := by
  unfold primed
  rw [applyTick_metas]

/-- A series of writes acts in turn. -/
theorem quote_foldl_applyTick (ticks : List Tick) (now : Nat) :
    (ticks.foldl (fun store tick => store.applyTick tick now) s).quote =
      ticks.foldl (quoteCoalescer s.primed).apply s.quote := by
  induction ticks generalizing s with
  | nil => rfl
  | cons tick ticks ih =>
    rw [List.foldl_cons, List.foldl_cons, ih, primed_applyTick, quote_applyTick]

@[simp] theorem primed_foldl_applyTick (ticks : List Tick) (now : Nat) :
    (ticks.foldl (fun store tick => store.applyTick tick now) s).primed = s.primed := by
  unfold primed
  rw [foldl_applyTick_metas]

/-- A snapshot of a primed symbol is shown as it is. -/
theorem quote_applySnapshot_self {snapshot : Snapshot} (h : s.primed snapshot.symbol = true)
    (now : Nat) :
    (s.applySnapshot snapshot now).quote snapshot.symbol =
      some (snapshot.price, snapshot.volume) := by
  obtain ⟨existing, hmeta⟩ := Option.isSome_iff_exists.mp h
  simp [quote, getSymbolSnapshot, applySnapshot, hmeta, OrderedMap.get?_set_self]

/-- A snapshot leaves the other symbols alone. -/
theorem quote_applySnapshot_of_ne {snapshot : Snapshot} {symbol : String}
    (h : symbol ≠ snapshot.symbol) (now : Nat) :
    (s.applySnapshot snapshot now).quote symbol = s.quote symbol := by
  unfold quote getSymbolSnapshot applySnapshot
  cases s.metas.get? snapshot.symbol with
  | none => rfl
  | some existing => simp only [OrderedMap.get?_set_of_ne _ _ h]

@[simp] theorem primed_applySnapshot (snapshot : Snapshot) (now : Nat) :
    (s.applySnapshot snapshot now).primed = s.primed := by
  funext symbol
  unfold primed applySnapshot
  cases hmeta : s.metas.get? snapshot.symbol with
  | none => rfl
  | some existing =>
    by_cases hs : symbol = snapshot.symbol
    · subst hs
      simp [OrderedMap.get?_set_self, hmeta]
    · simp [OrderedMap.get?_set_of_ne _ _ hs]

end Store

/-! ## What the store should show -/

section Quotes

variable {τ : Type} [LinearOrder τ]

/-- Ticks and snapshots as a running total and its cuts, by the instants they carry. -/
def quoteTally (instant : String → τ) : Tally Tick Snapshot τ where
  time tick := instant tick.t
  amount := Tick.q
  cutTime snapshot := instant snapshot.exchangeTimestamp
  total := Snapshot.volume

/-- The price of the newest event, and the volume of the newest snapshot with the ticks newer
than it. The ticks are in the order of their timestamps. -/
def reconciled (instant : String → τ) (snapshots : List Snapshot) (ticks : List Tick) :
    Option (DecimalString × Int) :=
  let c := quoteTally instant
  let last := (c.newer snapshots ticks).getLast?
  (last.map Tick.p <|> (c.newest snapshots).map Snapshot.price).map
    fun price => (price, c.volume snapshots ticks)

variable {instant : String → τ} {snapshots : List Snapshot} {ticks : List Tick}

/-- Where nothing is to be shown, nothing has been traded. -/
theorem volume_reconciled :
    ((reconciled instant snapshots ticks).map Prod.snd).getD 0 =
      (quoteTally instant).volume snapshots ticks := by
  unfold reconciled
  dsimp only
  cases hlast : ((quoteTally instant).newer snapshots ticks).getLast? with
  | some tick => rfl
  | none =>
    cases hnewest : (quoteTally instant).newest snapshots with
    | some snapshot => rfl
    | none =>
      rw [List.getLast?_eq_none_iff] at hlast
      rw [Tally.volume, hlast, hnewest]
      rfl

/-- A tick that no snapshot states already is the newest event and adds its quantity. -/
theorem reconciled_append_of_fresh {tick : Tick}
    (h : (quoteTally instant).Fresh snapshots tick) :
    reconciled instant snapshots (ticks ++ [tick]) =
      some (tick.p, (quoteTally instant).volume snapshots ticks + tick.q) := by
  unfold reconciled
  dsimp only
  rw [Tally.newer_append_of_fresh h, Tally.volume_append_of_fresh h]
  simp [quoteTally]

/-- A snapshot that covers everything is shown as it is. -/
theorem reconciled_append_of_covers {snapshot : Snapshot}
    (h : (quoteTally instant).Covers snapshot snapshots ticks) :
    reconciled instant (snapshots ++ [snapshot]) ticks =
      some (snapshot.price, snapshot.volume) := by
  unfold reconciled
  dsimp only
  rw [Tally.newer_append_of_covers h, Tally.newest_append_of_le h.cuts,
    Tally.volume_append_of_covers h]
  rfl

/-- Writing fresh ticks of a primed symbol in turn keeps what is shown right. -/
theorem foldl_apply_reconciled {primed : String → Bool} {symbol : String}
    (hprimed : primed symbol = true) {waiting : List Tick}
    (hfresh : ∀ tick ∈ waiting, tick.s = symbol → (quoteTally instant).Fresh snapshots tick)
    {f : String → Option (DecimalString × Int)}
    (hf : f symbol = reconciled instant snapshots ticks) :
    waiting.foldl (quoteCoalescer primed).apply f symbol =
      reconciled instant snapshots (ticks ++ waiting.filter (·.s = symbol)) := by
  induction waiting generalizing f ticks with
  | nil => simpa using hf
  | cons tick waiting ih =>
    have hrest : ∀ tick ∈ waiting, tick.s = symbol → (quoteTally instant).Fresh snapshots tick :=
      fun tick htick => hfresh tick (List.mem_cons_of_mem _ htick)
    rw [List.foldl_cons]
    by_cases hs : tick.s = symbol
    · have hstep : (quoteCoalescer primed).apply f tick symbol =
          reconciled instant snapshots (ticks ++ [tick]) := by
        rw [reconciled_append_of_fresh (hfresh tick List.mem_cons_self hs), ← volume_reconciled,
          ← hf]
        subst hs
        simp [Coalescer.apply, quoteCoalescer, hprimed]
      rw [ih hrest hstep, List.filter_cons_of_pos (by simpa using hs), List.append_assoc]
      rfl
    · have hstep : (quoteCoalescer primed).apply f tick symbol =
          reconciled instant snapshots ticks := by
        rw [← hf]
        exact Function.update_of_ne (Ne.symm hs) _ _
      rw [ih hrest hstep, List.filter_cons_of_neg (by simpa using hs)]

end Quotes

/-! ## Runs -/

/-- A dispatcher and its store, with what has gone through them. -/
structure Reconciliation where
  dispatcher : TickDispatcher := {}
  store : Store
  /-- The ticks written to the store, in the order they were pushed. -/
  written : List Tick := []
  /-- The ticks pushed since the last flush. -/
  waiting : List Tick := []
  snapshots : List Snapshot := []

inductive Reconciliation.Action where
  | push (tick : Tick)
  /-- A frame, or a call of `flushNow`. -/
  | flushNow (now : Nat)
  /-- A snapshot arrives, over REST or pushed. -/
  | applySnapshot (snapshot : Snapshot) (now : Nat)
  deriving DecidableEq

namespace Reconciliation

variable (s : Reconciliation)

/-- The ticks of one symbol pushed so far. -/
def ticksOf (symbol : String) : List Tick := (s.written ++ s.waiting).filter (·.s = symbol)

/-- The snapshots of one symbol applied so far. -/
def snapshotsOf (symbol : String) : List Snapshot := s.snapshots.filter (·.symbol = symbol)

def flushNow (now : Nat) : Reconciliation :=
  let result := s.dispatcher.flushNow s.store now
  { s with
    dispatcher := result.1
    store := result.2
    written := s.written ++ s.waiting
    waiting := [] }

def step : Action → Option Reconciliation
  | .push tick => some { s with
      dispatcher := s.dispatcher.push tick
      waiting := s.waiting ++ [tick] }
  | .flushNow now => some (s.flushNow now)
  | .applySnapshot snapshot now => some { s with
      store := s.store.applySnapshot snapshot now
      snapshots := s.snapshots ++ [snapshot] }

end Reconciliation

/-- The runs of a dispatcher and a store that knows a universe. -/
def reconciliation (symbols : List SymbolDefinition) :
    Machine Reconciliation Reconciliation.Action where
  init := { store := Store.primeUniverse {} symbols }
  step s a := s.step a

namespace Reconciliation

variable {τ : Type} [LinearOrder τ] (instant : String → τ)

/-- A tick is newer than every snapshot of its symbol applied before it; a snapshot is at least as
new as those before it and as every tick written, and older than every tick waiting. -/
def Timely (s : Reconciliation) : Action → Prop
  | .push tick => (quoteTally instant).Fresh (s.snapshotsOf tick.s) tick
  | .flushNow _ => True
  | .applySnapshot snapshot _ =>
      (quoteTally instant).Covers snapshot (s.snapshotsOf snapshot.symbol)
          (s.written.filter (·.s = snapshot.symbol)) ∧
        ∀ tick ∈ s.waiting, tick.s = snapshot.symbol →
          (quoteTally instant).Fresh [snapshot] tick

instance (s : Reconciliation) (a : Action) : Decidable (s.Timely instant a) := by
  cases a with
  | push tick => exact inferInstanceAs (Decidable ((quoteTally instant).Fresh _ tick))
  | flushNow now => exact inferInstanceAs (Decidable True)
  | applySnapshot snapshot now => exact inferInstanceAs (Decidable (_ ∧ _))

/-- The store shows what it should of what was written, and what waits is newer. -/
structure Reconciled (s : Reconciliation) : Prop where
  keyed : (quoteCoalescer s.store.primed).Keyed s.dispatcher.pending
  level : ∀ f, (quoteCoalescer s.store.primed).flush s.dispatcher.pending f =
    s.waiting.foldl (quoteCoalescer s.store.primed).apply f
  shown : ∀ symbol, s.store.primed symbol = true → s.store.quote symbol =
    reconciled instant (s.snapshotsOf symbol) (s.written.filter (·.s = symbol))
  fresh : ∀ tick ∈ s.waiting, (quoteTally instant).Fresh (s.snapshotsOf tick.s) tick

variable {instant} {s t : Reconciliation}

/-- The dispatcher's queue is the coalescer's. -/
theorem push_pending (d : TickDispatcher) (primed : String → Bool) (tick : Tick) :
    (d.push tick).pending = (quoteCoalescer primed).push d.pending tick :=
  d.push_pending .empty tick

namespace Reconciled

theorem init (symbols : List SymbolDefinition) :
    Reconciled instant { store := Store.primeUniverse {} symbols } where
  keyed := Coalescer.keyed_empty _
  level _ := rfl
  shown _ _ := rfl
  fresh _ htick := absurd htick List.not_mem_nil

/-- A fresh tick waits. -/
theorem push (h : Reconciled instant s) {tick : Tick}
    (hfresh : (quoteTally instant).Fresh (s.snapshotsOf tick.s) tick) :
    Reconciled instant { s with
      dispatcher := s.dispatcher.push tick
      waiting := s.waiting ++ [tick] } where
  keyed := by
    dsimp only
    rw [push_pending _ s.store.primed]
    exact h.keyed.push tick
  level f := by
    dsimp only
    rw [push_pending _ s.store.primed, h.keyed.flush_push, h.level, List.foldl_append]
    rfl
  shown := h.shown
  fresh other hother := by
    rcases List.mem_append.mp hother with hother | hother
    · exact h.fresh other hother
    · rw [List.mem_singleton.mp hother]
      exact hfresh

/-- A flush leaves every primed symbol as it should be. -/
theorem quote_flushNow (h : Reconciled instant s) {symbol : String}
    (hprimed : s.store.primed symbol = true) (now : Nat) :
    (s.flushNow now).store.quote symbol =
      reconciled instant (s.snapshotsOf symbol) (s.ticksOf symbol) := by
  have hflush : (s.flushNow now).store.quote =
      s.waiting.foldl (quoteCoalescer s.store.primed).apply s.store.quote :=
    (s.store.quote_foldl_applyTick s.dispatcher.pending.values now).trans (h.level s.store.quote)
  rw [hflush, ticksOf, List.filter_append]
  refine foldl_apply_reconciled hprimed (fun tick htick hs => ?_) (h.shown symbol hprimed)
  exact hs ▸ h.fresh tick htick

theorem flushNow (h : Reconciled instant s) (now : Nat) : Reconciled instant (s.flushNow now) where
  keyed := Coalescer.keyed_empty _
  level _ := rfl
  shown symbol hprimed := by
    have hsame : (s.flushNow now).store.primed = s.store.primed :=
      s.store.primed_foldl_applyTick s.dispatcher.pending.values now
    rw [hsame] at hprimed
    exact h.quote_flushNow hprimed now
  fresh _ htick := absurd htick List.not_mem_nil

/-- A snapshot cut between what is written and what waits. -/
theorem applySnapshot (h : Reconciled instant s) {snapshot : Snapshot} (now : Nat)
    (hcovers : (quoteTally instant).Covers snapshot (s.snapshotsOf snapshot.symbol)
      (s.written.filter (·.s = snapshot.symbol)))
    (hwaiting : ∀ tick ∈ s.waiting, tick.s = snapshot.symbol →
      (quoteTally instant).Fresh [snapshot] tick) :
    Reconciled instant { s with
      store := s.store.applySnapshot snapshot now
      snapshots := s.snapshots ++ [snapshot] } where
  keyed := h.keyed
  level := by
    dsimp only
    rw [Store.primed_applySnapshot]
    exact h.level
  shown symbol hprimed := by
    dsimp only at hprimed ⊢
    rw [Store.primed_applySnapshot] at hprimed
    unfold snapshotsOf
    dsimp only
    rw [List.filter_append]
    by_cases hs : symbol = snapshot.symbol
    · subst hs
      rw [Store.quote_applySnapshot_self _ hprimed, List.filter_singleton]
      simp only [decide_true, cond_true]
      exact (reconciled_append_of_covers hcovers).symm
    · rw [Store.quote_applySnapshot_of_ne _ hs, List.filter_singleton]
      simp only [Ne.symm hs, decide_false, cond_false, List.append_nil]
      exact h.shown symbol hprimed
  fresh tick htick := by
    intro cut hcut
    obtain ⟨hcut, hsymbol⟩ := List.mem_filter.mp hcut
    rcases List.mem_append.mp hcut with hcut | hcut
    · exact h.fresh tick htick cut (List.mem_filter.mpr ⟨hcut, hsymbol⟩)
    · obtain rfl := List.mem_singleton.mp hcut
      exact hwaiting tick htick (of_decide_eq_true hsymbol).symm cut List.mem_cons_self

/-- What one call preserves. -/
theorem step (h : Reconciled instant s) {a : Action} (hg : s.Timely instant a)
    (ht : s.step a = some t) : Reconciled instant t := by
  cases a with
  | push tick =>
    obtain rfl := Option.some.inj ht
    exact h.push hg
  | flushNow now =>
    obtain rfl := Option.some.inj ht
    exact h.flushNow now
  | applySnapshot snapshot now =>
    obtain rfl := Option.some.inj ht
    exact h.applySnapshot now hg.1 hg.2

end Reconciled

theorem isDecimal_nine : isDecimal ['9'] = true := by decide

theorem isDecimal_ten : isDecimal ['1', '0'] = true := by decide

theorem isDecimal_one : isDecimal ['1'] = true := by decide

/-- One symbol, whose last close was 9. -/
def onlyComi : List SymbolDefinition := [⟨"COMI", "CIB", ⟨['9'], isDecimal_nine⟩⟩]

/-- A tick of `COMI` at a time of a quiet minute. -/
def tickAt (t : String) (q : Int) : Tick :=
  ⟨"COMI", ⟨['1', '0'], isDecimal_ten⟩, q, .trade, t, "", .live⟩

/-- A snapshot of `COMI` at such a time. -/
def snapshotAt (t : String) (volume : Int) : Snapshot where
  symbol := "COMI"
  stream := .live
  price := ⟨['1', '0'], isDecimal_ten⟩
  change := ⟨['1'], isDecimal_one⟩
  changePercent := "+11.11"
  openPrice := ⟨['9'], isDecimal_nine⟩
  previousClose := none
  high := ⟨['1', '0'], isDecimal_ten⟩
  low := ⟨['9'], isDecimal_nine⟩
  volume := volume
  lastEventId := ""
  exchangeTimestamp := t
  snapshotAge := 0
  simulated := true

/-- A tick is written, a snapshot that states it arrives, and two more ticks follow. -/
def cutBetween : List Action :=
  [.push (tickAt "10:31:04.881Z" 5), .flushNow 1, .push (tickAt "10:31:06.000Z" 2),
    .applySnapshot (snapshotAt "10:31:05.000Z" 5) 2, .push (tickAt "10:31:07.000Z" 1)]

/-- Where a run over `COMI` ends. -/
def endOf (actions : List Action) : Reconciliation :=
  ((reconciliation onlyComi).run actions).getD (reconciliation onlyComi).init

theorem run_eq_endOf {actions : List Action}
    (h : ((reconciliation onlyComi).run actions).isSome = true) :
    (reconciliation onlyComi).run actions = some (endOf actions) := by
  rw [endOf, ← Option.get_eq_getD (h := h), Option.some_get]

/-- A tick still waits when the snapshot that states it arrives. -/
def cutBefore : List Action :=
  [.push (tickAt "10:31:04.881Z" 5), .applySnapshot (snapshotAt "10:31:04.881Z" 5) 1]

end Reconciliation

end Tckr.MarketWatch
