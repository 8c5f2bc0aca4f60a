import Tckr.Core.Collections
import Tckr.MarketWatch.Contracts.Messages

/-!
# The market store

The only mutable price state of the client: static data of the primed universe
and, for every symbol that has ticked, its view. A view is only ever written by a
snapshot or a tick of a primed symbol, and carries the stream of what wrote it.
-/

namespace Tckr.MarketWatch

/-- A row's worth of live state. -/
structure SymbolView where
  symbol : String
  name : String
  price : DecimalString
  change : DecimalString
  /-- In ten-thousandths of a percent. -/
  changePercent : Int
  volume : Int
  lastUpdate : Nat
  stream : Stream
  deriving DecidableEq

structure SymbolMeta where
  name : String
  /-- Set by the universe, never overwritten. -/
  referencePrice : DecimalString
  /-- What changes are measured from. -/
  baseline : DecimalString
  deriving DecidableEq

structure Store where
  /-- The record of every symbol written or watched so far, by its view. -/
  records : OrderedMap String (Option SymbolView) := .empty
  /-- The primed universe; `meta` in the source. -/
  metas : OrderedMap String SymbolMeta := .empty
  symbolList : List String := []
  deriving DecidableEq

namespace Store

def getSymbolSnapshot (s : Store) (symbol : String) : Option SymbolView :=
  (s.records.get? symbol).join

/-- Register static data, leaving a baseline already tracked alone. -/
def primeUniverse (s : Store) (symbols : List SymbolDefinition) : Store where
  records := s.records
  metas := symbols.foldl (fun metas definition => metas.set definition.symbol
    { name := definition.name
      referencePrice := definition.referencePrice
      baseline := ((metas.get? definition.symbol).map SymbolMeta.baseline).getD
        definition.referencePrice }) s.metas
  symbolList := symbols.map SymbolDefinition.symbol

/-- Replace a primed symbol's view and re-anchor its baseline. -/
def applySnapshot (s : Store) (snapshot : Snapshot) (now : Nat) : Store :=
  match s.metas.get? snapshot.symbol with
  | none => s
  | some existing =>
      let baseline := snapshot.previousClose.getD snapshot.openPrice
      { s with
        metas := s.metas.set snapshot.symbol { existing with baseline := baseline }
        records := s.records.set snapshot.symbol (some
          { symbol := snapshot.symbol
            name := existing.name
            price := snapshot.price
            change := snapshot.price.subtract baseline
            changePercent := baseline.percentChange snapshot.price
            volume := snapshot.volume
            lastUpdate := now
            stream := snapshot.stream }) }

/-- Move a primed symbol's view to a tick, adding the quantity to its volume. -/
def applyTick (s : Store) (tick : Tick) (now : Nat) : Store :=
  match s.metas.get? tick.s with
  | none => s
  | some symbolMeta =>
      let previousVolume := ((s.getSymbolSnapshot tick.s).map SymbolView.volume).getD 0
      { s with
        records := s.records.set tick.s (some
          { symbol := tick.s
            name := symbolMeta.name
            price := tick.p
            change := tick.p.subtract symbolMeta.baseline
            changePercent := symbolMeta.baseline.percentChange tick.p
            volume := previousVolume + tick.q
            lastUpdate := now
            stream := tick.st }) }

/-- Clear every view and restore every baseline, keeping the universe. -/
def resetStream (s : Store) : Store where
  records := s.records.mapValues fun _ => none
  metas := s.metas.mapValues fun symbolMeta =>
    { symbolMeta with baseline := symbolMeta.referencePrice }
  symbolList := s.symbolList

/-- Every view the store holds comes from the stream. -/
def OnlyFrom (stream : Stream) (s : Store) : Prop :=
  ∀ view, some view ∈ s.records.values → view.stream = stream

instance (stream : Stream) (s : Store) : Decidable (s.OnlyFrom stream) :=
  decidable_of_iff (∀ record ∈ s.records.values, ∀ view ∈ record, SymbolView.stream view = stream)
    ⟨fun h view hv => h _ hv view rfl, fun h _ hv view hview => h view (hview ▸ hv)⟩

theorem OnlyFrom.getSymbolSnapshot {stream : Stream} {s : Store} (h : s.OnlyFrom stream)
    {symbol : String} {view : SymbolView} (hview : s.getSymbolSnapshot symbol = some view) :
    view.stream = stream := by
  rw [Store.getSymbolSnapshot, Option.join_eq_some_iff] at hview
  exact h view (OrderedMap.get?_eq_some_of_mem hview)

theorem OnlyFrom.applySnapshot {stream : Stream} {s : Store} (h : s.OnlyFrom stream)
    {snapshot : Snapshot} (hs : snapshot.stream = stream) (now : Nat) :
    (s.applySnapshot snapshot now).OnlyFrom stream := by
  unfold Store.applySnapshot
  split
  · exact h
  · intro view hview
    rcases OrderedMap.mem_values_set hview with hview | hview
    · rw [Option.some.injEq] at hview
      rw [hview]
      exact hs
    · exact h view hview

theorem OnlyFrom.applyTick {stream : Stream} {s : Store} (h : s.OnlyFrom stream) {tick : Tick}
    (ht : tick.st = stream) (now : Nat) : (s.applyTick tick now).OnlyFrom stream := by
  unfold Store.applyTick
  split
  · exact h
  · intro view hview
    rcases OrderedMap.mem_values_set hview with hview | hview
    · rw [Option.some.injEq] at hview
      rw [hview]
      exact ht
    · exact h view hview

/-- A reset store holds no view at all. -/
theorem onlyFrom_resetStream (stream : Stream) (s : Store) : s.resetStream.OnlyFrom stream := by
  intro view hview
  rw [resetStream, OrderedMap.values, OrderedMap.mapValues, List.map_map] at hview
  obtain ⟨e, -, he⟩ := List.mem_map.mp hview
  cases he

end Store

end Tckr.MarketWatch
