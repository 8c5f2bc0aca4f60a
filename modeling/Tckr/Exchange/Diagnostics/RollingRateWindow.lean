import Mathlib.Data.BitVec
import Mathlib.Data.Rat.Defs
import Tckr.Core.Laps
import Tckr.Core.Machine

/-!
# The rolling rate window

Events are counted in a ring of time buckets, one more than the window has. Every call
first reads the clock and then takes the lock, so calls of several threads are two
steps each that interleave in any order. A count is a `long` and adds as one; the rate
is the exact quotient.
-/

namespace Tckr.Diagnostics

/-- A `long` count of events. -/
abbrev Count := BitVec 64

/-- The ring of counts, and its newest bucket. -/
structure RollingRateWindow (buckets : Nat) where
  bucketTicks : Nat
  startBucket : Int
  headBucket : Int
  counts : Fin (buckets + 1) → Count

/-- What a reader computes: the complete buckets, their total, and the events per second. -/
structure Report where
  complete : Int
  total : Count
  rate : ℚ
  deriving DecidableEq

namespace RollingRateWindow

variable {buckets : Nat}

/-- A window over a span of ticks, built at `now`; it is refused without a bucket or a span. -/
def construct (now : Nat) (span : Int) (buckets : Nat) : Option (RollingRateWindow buckets) :=
  if buckets < 1 ∨ span ≤ 0 then none
  else
    let bucketTicks := max 1 (span / buckets).toNat
    some
      { bucketTicks
        startBucket := (now / bucketTicks : Nat)
        headBucket := (now / bucketTicks : Nat)
        counts := fun _ => 0 }

/-- The bucket of a clock reading. -/
def bucketOf (w : RollingRateWindow buckets) (now : Nat) : Int := (now / w.bucketTicks : Nat)

/-- The slot of a bucket, by truncated remainders. -/
def slot (bucket : Int) : Fin (buckets + 1) :=
  ⟨((bucket.tmod (buckets + 1 : Nat) + (buckets + 1 : Nat)).tmod (buckets + 1 : Nat)).toNat, by
    have hpos : (0 : Int) < (buckets + 1 : Nat) := Int.natCast_pos.mpr buckets.succ_pos
    have hlt := Int.tmod_lt_of_pos (bucket.tmod (buckets + 1 : Nat) + (buckets + 1 : Nat)) hpos
    omega⟩

/-- Clear the slots of so many buckets in turn. -/
def clearSlots : Nat → Int → (Fin (buckets + 1) → Count) → Fin (buckets + 1) → Count
  | 0, _, counts => counts
  | count + 1, b, counts => clearSlots count (b + 1) (Function.update counts (slot b) 0)

/-- Move the head to a bucket, clearing every slot passed over. -/
def advanceTo (bucket : Int) (w : RollingRateWindow buckets) : RollingRateWindow buckets :=
  if bucket ≤ w.headBucket then w
  else
    let steps := bucket - w.headBucket
    { w with
      headBucket := bucket
      counts :=
        if (buckets + 1 : Nat) ≤ steps then fun _ => 0
        else clearSlots steps.toNat (w.headBucket + 1) w.counts }

/-- The locked part of an addition. -/
def add (bucket : Int) (count : Count) (w : RollingRateWindow buckets) :
    RollingRateWindow buckets :=
  let w := w.advanceTo bucket
  { w with counts := Function.update w.counts (slot bucket) (w.counts (slot bucket) + count) }

/-- The complete buckets before a bucket: at most the window, and no more than have elapsed. -/
def complete (current : Int) (w : RollingRateWindow buckets) : Int :=
  min buckets (current - w.startBucket)

/-- The counts of so many buckets in turn. -/
def sumSlots (first : Int) (count : Nat) (w : RollingRateWindow buckets) : Count :=
  ((List.range count).map fun i : Nat => w.counts (slot (first + i))).sum

/-- The locked part of a reading, and what it computes. -/
def eventsPerSecond (current : Int) (w : RollingRateWindow buckets) :
    RollingRateWindow buckets × Report :=
  let w := w.advanceTo current
  let complete := w.complete current
  let total := w.sumSlots (current - complete) complete.toNat
  let seconds : ℚ := (complete * w.bucketTicks : Int) / 10000000
  (w, { complete, total, rate := if complete ≤ 0 then 0 else total.toInt / seconds })

end RollingRateWindow

/-! ## Calls from several threads -/

/-- A call of the window. -/
inductive Call where
  | add (count : Count)
  | eventsPerSecond
  deriving DecidableEq

/-- The window, the clock, and the call of each thread that has read the clock. -/
structure Calls (buckets : Nat) (Thread : Type) where
  window : RollingRateWindow buckets
  now : Nat
  pending : Thread → Option (Call × Nat)

/-- What can happen next. -/
inductive Action (Thread : Type) where
  | tick (now : Nat)
  /-- A call reads the clock. -/
  | read (thread : Thread) (call : Call)
  /-- The call of a thread takes the lock. -/
  | enter (thread : Thread)

/-- What happened under the lock, with the reading of the clock that the call came with. -/
inductive Entry where
  | added (reading : Nat) (count : Count)
  | reported (reading : Nat) (report : Report)
  deriving DecidableEq

section

variable {buckets : Nat} {Thread : Type} [DecidableEq Thread]

/-- One step: the clock does not go back, and a thread makes one call at a time. -/
def Calls.step (s : Calls buckets Thread) : Action Thread → Option (Calls buckets Thread)
  | .tick now => if s.now ≤ now then some { s with now } else none
  | .read thread call =>
    if s.pending thread = none then
      -- Adding nothing returns before the clock is read.
      if call = .add 0 then some s
      else some { s with pending := Function.update s.pending thread (some (call, s.now)) }
    else none
  | .enter thread =>
    match s.pending thread with
    | none => none
    | some (.add count, reading) =>
      some { s with
        window := s.window.add (s.window.bucketOf reading) count
        pending := Function.update s.pending thread none }
    | some (.eventsPerSecond, reading) =>
      some { s with
        window := (s.window.eventsPerSecond (s.window.bucketOf reading)).1
        pending := Function.update s.pending thread none }

/-- Note what happens under the lock, in the order of the lock. -/
def Calls.record (s : Calls buckets Thread) :
    Action Thread → Calls buckets Thread → List Entry → List Entry
  | .enter thread, _, entries =>
    match s.pending thread with
    | none => entries
    | some (.add count, reading) => entries ++ [.added reading count]
    | some (.eventsPerSecond, reading) =>
      entries ++ [.reported reading (s.window.eventsPerSecond (s.window.bucketOf reading)).2]
  | _, _, entries => entries

/-- The calls of a window built at `now`, with the entries. -/
def calls (w : RollingRateWindow buckets) (now : Nat) (Thread : Type) [DecidableEq Thread] :
    Machine (Calls buckets Thread × List Entry) (Action Thread) :=
  (⟨⟨w, now, fun _ => none⟩, Calls.step⟩ :
    Machine (Calls buckets Thread) (Action Thread)).withHistory [] Calls.record

end

end Tckr.Diagnostics
