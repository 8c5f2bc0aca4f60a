import Mathlib.Data.Rat.Floor
import Mathlib.Tactic.LinearCombination
import Mathlib.Tactic.Ring

/-!
# The rate governor

The governor paces the generation loop: it waits until the next batch is due and
answers how many events the batch owes. Times are in ticks of 100 ns, doubles are
read as exact rationals, and the two long counters as integers without a bound.
A call consumes the clock readings it makes; the delay between two readings is the
environment's, so a law over all readings covers every delay.
-/

namespace Tckr.Session

/-- The ticks of one millisecond. -/
def ticksPerMillisecond : Int := 10000

/-- The largest count one batch can return. -/
def intMaxValue : Int := 2147483647

/-- A time span in seconds. -/
def totalSeconds (ticks : Int) : ℚ := ticks / 10000000

/-- What the constructor accepts: an interval of at least a millisecond. -/
structure GovernorConfig where
  batchIntervalMs : Nat := 5
  maxCatchUpBatches : Nat := 4
  /-- Where the wait goes over from delaying to spinning, in ticks. -/
  spinThreshold : Nat := 20000
  /-- Whether the clock is the system's own. -/
  spinSupported : Bool := true
  batchIntervalMs_pos : 1 ≤ batchIntervalMs := by decide
  spinThreshold_le : (spinThreshold : Int) ≤ batchIntervalMs * ticksPerMillisecond := by decide

/-- The spacing between two batches. -/
def GovernorConfig.batchInterval (c : GovernorConfig) : Int :=
  c.batchIntervalMs * ticksPerMillisecond

/-- The interval is positive. -/
theorem GovernorConfig.batchInterval_pos (c : GovernorConfig) : 0 < c.batchInterval := by
  have h := c.batchIntervalMs_pos
  unfold batchInterval ticksPerMillisecond
  omega

/-- The schedule, the events owed, and the counters. -/
structure RateGovernor where
  started : Bool := false
  accruedThrough : Int := 0
  nextDeadline : Int := 0
  owedEvents : ℚ := 0
  totalEventsScheduled : Int := 0
  currentLag : Int := 0
  catchUpBatchesDropped : Int := 0
  spinIterations : Nat := 0
  deriving DecidableEq

/-- The events carried into the next batch. -/
def RateGovernor.pendingFraction (s : RateGovernor) : ℚ := s.owedEvents

/-! ## One batch -/

section Batch

variable (c : GovernorConfig) (now : Int) (s : RateGovernor)

/-- How far past its deadline the batch woke. -/
def lag : Int :=
  if now - s.nextDeadline < 0 then 0 else now - s.nextDeadline

/-- The whole batches missed on top of the one that is due. -/
def behind : Int := lag now s / c.batchInterval

/-- More batches were missed than the catch-up may make up. -/
def capped : Bool := decide (behind c now s > c.maxCatchUpBatches)

/-- The batches this call accrues for. -/
def batchesToAccrue : Int :=
  1 + (if capped c now s then (c.maxCatchUpBatches : Int) else behind c now s)

/-- Where the schedule stands once the batch is accrued. -/
def accrueTo : Int := s.accruedThrough + c.batchInterval * batchesToAccrue c now s

/-- The schedule time this call accrues. -/
def accrued : Int := accrueTo c now s - s.accruedThrough

/-- The batches this call abandons. -/
def dropped : Int :=
  if capped c now s then behind c now s - c.maxCatchUpBatches else 0

/-- The events to emit when this much is owed. -/
def emission (owed : ℚ) : Int :=
  if owed ≥ 1 then
    if owed ≥ intMaxValue then intMaxValue else ⌊owed⌋
  else 0

/-- Decide how many events the batch due at `nextDeadline` owes and where the next deadline sits. -/
def scheduleBatch (eventsPerSecond : ℚ) : Int × RateGovernor :=
  let owed := s.owedEvents + totalSeconds (accrued c now s) * eventsPerSecond
  let emit := emission owed
  let counted := { s with
    owedEvents := owed - emit
    totalEventsScheduled := s.totalEventsScheduled + emit
    currentLag := lag now s
    catchUpBatchesDropped := s.catchUpBatchesDropped + dropped c now s }
  (emit,
    if capped c now s then
      -- The only deadline that comes from the clock and not from its predecessor.
      { counted with accruedThrough := now, nextDeadline := now + c.batchInterval }
    else
      { counted with
        accruedThrough := accrueTo c now s
        nextDeadline := accrueTo c now s + c.batchInterval })

end Batch

/-! ## One call -/

/-- A clock reading, and whether the token is cancelled when it is next consulted. -/
structure Poll where
  now : Int
  cancellationRequested : Bool := false
  deriving DecidableEq

/-- How the wait of a call ends. -/
inductive Wake where
  | due (now : Int)
  | canceled
  | outOfRange
  deriving DecidableEq

/-- Poll the clock until the deadline has passed; what is left are the polls not made. -/
def waitUntilDue (c : GovernorConfig) (rateIsPositive : Bool) :
    List Poll → RateGovernor → Option (Bool × RateGovernor × List Poll)
  | [], _ => none
  | poll :: polls, s =>
      let remaining := s.nextDeadline - poll.now
      if remaining ≤ 0 then some (true, s, polls)
      else if poll.cancellationRequested then some (false, s, polls)
      else if remaining > c.spinThreshold ∨ !rateIsPositive ∨ !c.spinSupported then
        waitUntilDue c rateIsPositive polls s
      else
        waitUntilDue c rateIsPositive polls { s with spinIterations := s.spinIterations + 1 }

/-- The first call puts the schedule one interval behind the clock. -/
def establish (c : GovernorConfig) : List Poll → RateGovernor → Option (RateGovernor × List Poll)
  | polls, s =>
    if s.started then some (s, polls)
    else match polls with
      | [] => none
      | poll :: polls =>
        some ({ s with
          started := true
          accruedThrough := poll.now - c.batchInterval
          nextDeadline := poll.now }, polls)

/-- Wait until the batch is due: how the wait ended, and the polls not made. -/
def awaitBatch (c : GovernorConfig) (eventsPerSecond : ℚ) (s : RateGovernor) :
    List Poll → Option (Wake × RateGovernor × List Poll)
  | [] => none
  | poll :: polls =>
    if poll.now ≥ s.nextDeadline then
      some (if poll.cancellationRequested then .canceled else .due poll.now, s, polls)
    else match waitUntilDue c (decide (eventsPerSecond > 0)) polls s with
      | none => none
      | some (false, t, rest) => some (.canceled, t, rest)
      | some (true, _, []) => none
      -- The batch is scheduled by a reading of its own, made after the wait.
      | some (true, t, last :: rest) => some (.due last.now, t, rest)

/-- Block until the next batch is due. -/
def waitForNextBatch (c : GovernorConfig) (eventsPerSecond : ℚ) (polls : List Poll)
    (s : RateGovernor) : Option (Wake × RateGovernor × List Poll) :=
  if eventsPerSecond < 0 then some (.outOfRange, s, polls)
  else match establish c polls s with
    | none => none
    | some (t, polls) => awaitBatch c eventsPerSecond t polls

/-! ## What one batch does to the schedule -/

section Laws

variable (c : GovernorConfig) (now : Int) (s : RateGovernor)

/-- A wake-up is never early by the schedule's account. -/
theorem lag_nonneg : 0 ≤ lag now s := by
  unfold lag
  split <;> omega

/-- A lag is what the clock is past the deadline, unless the clock is not past it. -/
theorem lag_eq_or : lag now s = now - s.nextDeadline ∨ lag now s = 0 ∧ now < s.nextDeadline := by
  unfold lag
  split <;> omega

/-- No batch is missed a negative number of times. -/
theorem behind_nonneg : 0 ≤ behind c now s :=
  Int.ediv_nonneg (lag_nonneg now s) c.batchInterval_pos.le

/-- The part of the lag that is no whole batch. -/
def remainder : Int := lag now s - behind c now s * c.batchInterval

theorem remainder_nonneg : 0 ≤ remainder c now s := by
  have h := Int.ediv_mul_le (lag now s) c.batchInterval_pos.ne'
  unfold remainder behind
  omega

theorem remainder_lt : remainder c now s < c.batchInterval := by
  have h := Int.lt_ediv_add_one_mul_self (lag now s) c.batchInterval_pos
  rw [add_mul, one_mul] at h
  unfold remainder behind
  omega

/-- Every batch that is due or missed is accrued or abandoned, and only one of them. -/
theorem batchesToAccrue_add_dropped :
    batchesToAccrue c now s + dropped c now s = 1 + behind c now s := by
  unfold batchesToAccrue dropped
  split <;> omega

/-- A call accrues for the batch that is due, at least. -/
theorem one_le_batchesToAccrue : 1 ≤ batchesToAccrue c now s := by
  have h := behind_nonneg c now s
  unfold batchesToAccrue
  split <;> omega

/-- A call accrues for no more than the catch-up allows. -/
theorem batchesToAccrue_le : batchesToAccrue c now s ≤ 1 + c.maxCatchUpBatches := by
  unfold batchesToAccrue
  split
  · exact le_rfl
  · rename_i hcap
    have : ¬ behind c now s > c.maxCatchUpBatches := by
      simpa only [capped, decide_eq_true_eq] using hcap
    omega

/-- The schedule time of a call is that of its batches. -/
theorem accrued_eq : accrued c now s = c.batchInterval * batchesToAccrue c now s := by
  unfold accrued accrueTo
  omega

/-- Schedule time moves forward. -/
theorem accrued_nonneg : 0 ≤ accrued c now s := by
  rw [accrued_eq]
  have h := one_le_batchesToAccrue c now s
  exact mul_nonneg c.batchInterval_pos.le (by omega)

/-- Schedule time moves by no more than the catch-up allows. -/
theorem accrued_le : accrued c now s ≤ (1 + c.maxCatchUpBatches) * c.batchInterval := by
  rw [accrued_eq, mul_comm]
  exact mul_le_mul_of_nonneg_right (batchesToAccrue_le c now s) c.batchInterval_pos.le

/-- No batch takes events back. -/
theorem emission_nonneg (owed : ℚ) : 0 ≤ emission owed := by
  unfold emission
  split
  · rename_i howed
    split
    · exact (by decide : 0 ≤ intMaxValue)
    · exact Int.floor_nonneg.mpr (zero_le_one.trans howed)
  · exact le_rfl

/-- A batch emits no more than what is owed. -/
theorem emission_le {owed : ℚ} (howed : 0 ≤ owed) : (emission owed : ℚ) ≤ owed := by
  unfold emission
  split
  · split
    · assumption
    · exact Int.floor_le owed
  · simpa only [Int.cast_zero] using howed

end Laws

section Schedule

variable (c : GovernorConfig) (now : Int) (s : RateGovernor) (eventsPerSecond : ℚ)

@[simp] theorem scheduleBatch_started :
    (scheduleBatch c now s eventsPerSecond).2.started = s.started := by
  unfold scheduleBatch
  split <;> rfl

@[simp] theorem scheduleBatch_owedEvents :
    (scheduleBatch c now s eventsPerSecond).2.owedEvents =
      s.owedEvents + totalSeconds (accrued c now s) * eventsPerSecond
        - (scheduleBatch c now s eventsPerSecond).1 := by
  unfold scheduleBatch
  split <;> rfl

@[simp] theorem scheduleBatch_totalEventsScheduled :
    (scheduleBatch c now s eventsPerSecond).2.totalEventsScheduled =
      s.totalEventsScheduled + (scheduleBatch c now s eventsPerSecond).1 := by
  unfold scheduleBatch
  split <;> rfl

@[simp] theorem scheduleBatch_catchUpBatchesDropped :
    (scheduleBatch c now s eventsPerSecond).2.catchUpBatchesDropped =
      s.catchUpBatchesDropped + dropped c now s := by
  unfold scheduleBatch
  split <;> rfl

/-- The deadline stays one interval past the accrued time. -/
theorem scheduleBatch_nextDeadline :
    (scheduleBatch c now s eventsPerSecond).2.nextDeadline =
      (scheduleBatch c now s eventsPerSecond).2.accruedThrough + c.batchInterval := by
  unfold scheduleBatch
  split <;> rfl

/-- Without a cap the schedule advances by what it accrued. -/
theorem scheduleBatch_accruedThrough (hcap : capped c now s = false) :
    (scheduleBatch c now s eventsPerSecond).2.accruedThrough =
      s.accruedThrough + accrued c now s := by
  simp only [scheduleBatch, hcap, Bool.false_eq_true, ite_false, accrued]
  omega

/-- With a cap it restarts from the clock. -/
theorem scheduleBatch_accruedThrough_of_capped (hcap : capped c now s = true) :
    (scheduleBatch c now s eventsPerSecond).2.accruedThrough = now := by
  simp only [scheduleBatch, hcap, ite_true]

/-- What the schedule advances by is accrued, abandoned, or the remainder a cap cuts off. -/
theorem scheduleBatch_elapsed (h : s.nextDeadline = s.accruedThrough + c.batchInterval) :
    (scheduleBatch c now s eventsPerSecond).2.nextDeadline =
      s.nextDeadline + accrued c now s + dropped c now s * c.batchInterval
        + (if capped c now s then remainder c now s else 0) := by
  rw [scheduleBatch_nextDeadline]
  cases hcap : capped c now s with
  | false =>
    rw [scheduleBatch_accruedThrough c now s _ hcap, h]
    simp only [dropped, hcap, Bool.false_eq_true, ite_false]
    ring
  | true =>
    have hlate : now = s.nextDeadline + lag now s := by
      rcases lag_eq_or now s with hlag | ⟨hlag, -⟩
      · omega
      · -- A lag of zero misses no batch, so no cap fires.
        have hnone : behind c now s = 0 := by rw [behind, hlag, Int.zero_ediv]
        simp only [capped, hnone, gt_iff_lt, decide_eq_true_eq] at hcap
        omega
    have hsum := batchesToAccrue_add_dropped c now s
    rw [scheduleBatch_accruedThrough_of_capped c now s _ hcap, accrued_eq, remainder]
    simp only [ite_true]
    linear_combination hlate - c.batchInterval * hsum

/-- The next deadline is later than the clock. -/
theorem now_lt_nextDeadline (h : s.nextDeadline = s.accruedThrough + c.batchInterval) :
    now < (scheduleBatch c now s eventsPerSecond).2.nextDeadline := by
  have hpos := c.batchInterval_pos
  cases hcap : capped c now s with
  | true =>
    rw [scheduleBatch_nextDeadline, scheduleBatch_accruedThrough_of_capped c now s _ hcap]
    omega
  | false =>
    have hbatches : batchesToAccrue c now s = 1 + behind c now s := by
      simp only [batchesToAccrue, hcap, Bool.false_eq_true, ite_false]
    have hrem := remainder_lt c now s
    have hlag := lag_eq_or now s
    rw [scheduleBatch_nextDeadline, scheduleBatch_accruedThrough c now s _ hcap, accrued_eq,
      hbatches, mul_add, mul_one, mul_comm]
    unfold remainder at hrem
    omega

end Schedule

end Tckr.Session
