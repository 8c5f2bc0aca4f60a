import Tckr.MarketWatch.Data.Store

/-!
# Coalescing ticks into frames

Between two animation frames the dispatcher keeps one tick per symbol: the latest,
carrying the quantity of all it replaced. A frame writes each of them to the store.
-/

namespace Tckr.MarketWatch

structure TickDispatcher where
  /-- The coalesced tick of each symbol that has ticked since the last frame. -/
  pending : OrderedMap String Tick := .empty
  frameRequested : Bool := false
  received : Nat := 0
  flushed : Nat := 0
  coalesced : Nat := 0
  deriving DecidableEq

namespace TickDispatcher

/-- Take a tick, merging it into the one pending for its symbol. -/
def push (d : TickDispatcher) (tick : Tick) : TickDispatcher :=
  match d.pending.get? tick.s with
  | some existing =>
      { d with
        received := d.received + 1
        coalesced := d.coalesced + 1
        pending := d.pending.set tick.s { tick with q := existing.q + tick.q }
        frameRequested := true }
  | none =>
      { d with
        received := d.received + 1
        pending := d.pending.set tick.s tick
        frameRequested := true }

/-- Write what is pending to the store. -/
def flushNow (d : TickDispatcher) (store : Store) (now : Nat) : TickDispatcher × Store :=
  ({ d with
      frameRequested := false
      pending := .empty
      flushed := d.flushed + d.pending.values.length },
    d.pending.values.foldl (fun store tick => store.applyTick tick now) store)

/-- Every pending tick comes from the stream. -/
def OnlyFrom (stream : Stream) (d : TickDispatcher) : Prop :=
  ∀ tick ∈ d.pending.values, tick.st = stream

instance (stream : Stream) (d : TickDispatcher) : Decidable (d.OnlyFrom stream) :=
  inferInstanceAs (Decidable (∀ tick ∈ d.pending.values, Tick.st tick = stream))

theorem OnlyFrom.push {stream : Stream} {d : TickDispatcher} (h : d.OnlyFrom stream) {tick : Tick}
    (ht : tick.st = stream) : (d.push tick).OnlyFrom stream := by
  unfold TickDispatcher.push
  split
  · intro tick' htick'
    rcases OrderedMap.mem_values_set htick' with rfl | htick'
    · exact ht
    · exact h tick' htick'
  · intro tick' htick'
    rcases OrderedMap.mem_values_set htick' with rfl | htick'
    · exact ht
    · exact h tick' htick'

/-- Flushing one stream's ticks into one stream's store mixes nothing in. -/
theorem OnlyFrom.flushNow {stream : Stream} {d : TickDispatcher} {store : Store}
    (hd : d.OnlyFrom stream) (hs : store.OnlyFrom stream) (now : Nat) :
    (d.flushNow store now).1.OnlyFrom stream ∧ (d.flushNow store now).2.OnlyFrom stream := by
  constructor
  · intro tick htick
    exact absurd htick List.not_mem_nil
  · unfold TickDispatcher.flushNow
    unfold OnlyFrom at hd
    generalize d.pending.values = ticks at hd ⊢
    induction ticks generalizing store with
    | nil => exact hs
    | cons tick ticks ih =>
      apply ih
      · exact hs.applyTick (hd tick List.mem_cons_self) now
      · intro tick' htick'
        exact hd tick' (List.mem_cons_of_mem tick htick')

end TickDispatcher

end Tckr.MarketWatch
