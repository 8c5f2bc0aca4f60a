import Mathlib.Algebra.BigOperators.Ring.List
import Mathlib.Algebra.Order.BigOperators.Group.List
import Mathlib.Tactic.Linarith
import Mathlib.Tactic.NormNum
import Tckr.Core.Machine
import Tckr.Exchange.Session.RateGovernor

/-!
# Conservation of rate and schedule

A pacing run is a sequence of calls, each with a rate of its own and the clock
readings it makes. Beside the governor it keeps what every completed call found
and did, which no call reads. The events handed out and the fraction carried are
the accrued time times the rate, and the schedule is accrued, abandoned, or cut
off as a remainder where the catch-up was capped.
-/

namespace Tckr.Session

/-- What one completed call found and did. -/
structure Batch where
  eventsPerSecond : ℚ
  now : Int
  before : RateGovernor
  emitted : Int
  after : RateGovernor
  deriving DecidableEq

section Batch

variable (c : GovernorConfig) (b : Batch)

/-- The schedule time the call accrued. -/
def Batch.accrued : Int := Session.accrued c b.now b.before

/-- Whether the call was a cap event. -/
def Batch.capped : Bool := Session.capped c b.now b.before

/-- The intervals due or missed when the call woke. -/
def Batch.due : Int := 1 + behind c b.now b.before

/-- The intervals the call emitted for. -/
def Batch.emittedFor : Int := batchesToAccrue c b.now b.before

/-- The intervals the call reported as dropped. -/
def Batch.dropped : Int := Session.dropped c b.now b.before

/-- The remainder a cap event cuts off. -/
def Batch.remainder : Int := Session.remainder c b.now b.before

end Batch

/-- The governor, the reading its schedule started from, and the completed calls. -/
structure Pacing where
  governor : RateGovernor := {}
  start : Option Int := none
  batches : List Batch := []
  deriving DecidableEq

/-- One call of `WaitForNextBatchAsync`, with the polls it makes. -/
structure Call where
  eventsPerSecond : ℚ
  polls : List Poll

/-- The reading the schedule starts from. -/
def Pacing.startAfter (s : Pacing) (t : RateGovernor) (polls : List Poll) : Option Int :=
  if s.governor.started || !t.started then s.start else polls.head?.map Poll.now

/-- The wait is over: the governor has its schedule. -/
def Pacing.awaited (s : Pacing) (t : RateGovernor) (polls : List Poll) : Pacing :=
  { s with governor := t, start := s.startAfter t polls }

/-- Schedule a batch and keep what it did. -/
def Pacing.schedule (c : GovernorConfig) (now : Int) (eventsPerSecond : ℚ) (s : Pacing) : Pacing :=
  let result := scheduleBatch c now s.governor eventsPerSecond
  { s with
    governor := result.2
    batches := s.batches ++ [⟨eventsPerSecond, now, s.governor, result.1, result.2⟩] }

/-- Make one call. -/
def Pacing.step (c : GovernorConfig) (s : Pacing) (call : Call) : Option Pacing :=
  match waitForNextBatch c call.eventsPerSecond call.polls s.governor with
  | some (.due now, t, []) =>
    some ((s.awaited t call.polls).schedule c now call.eventsPerSecond)
  | some (.canceled, t, []) => some (s.awaited t call.polls)
  | some (.outOfRange, t, []) => some { s with governor := t }
  | _ => none

/-- The runs of one governor. -/
def pacing (c : GovernorConfig) : Machine Pacing Call where
  init := {}
  step := Pacing.step c

/-! ## What a wait leaves alone -/

/-- The governor at the deadline is the one that was called, its schedule established. -/
inductive Awaited (c : GovernorConfig) (polls : List Poll) (s : RateGovernor) :
    RateGovernor → Option Int → Prop where
  | running (spins : Nat) (hs : s.started = true) :
      Awaited c polls s { s with spinIterations := spins } none
  | established (spins : Nat) (poll : Poll) (rest : List Poll) (hs : s.started = false)
      (hpolls : polls = poll :: rest) :
      Awaited c polls s
        { s with
          started := true
          accruedThrough := poll.now - c.batchInterval
          nextDeadline := poll.now
          spinIterations := spins } (some poll.now)

variable {c : GovernorConfig}

/-- Polling the clock only counts spins. -/
theorem waitUntilDue_spins {positive ok : Bool} {polls rest : List Poll} {s t : RateGovernor}
    (h : waitUntilDue c positive polls s = some (ok, t, rest)) :
    ∃ spins, t = { s with spinIterations := spins } := by
  induction polls generalizing s with
  | nil => exact absurd h nofun
  | cons poll polls ih =>
    simp only [waitUntilDue] at h
    split at h
    · simp only [Option.some.injEq, Prod.mk.injEq] at h
      exact ⟨s.spinIterations, h.2.1.symm⟩
    · split at h
      · simp only [Option.some.injEq, Prod.mk.injEq] at h
        exact ⟨s.spinIterations, h.2.1.symm⟩
      · split at h
        · exact ih h
        · obtain ⟨spins, ht⟩ := ih h
          exact ⟨spins, ht⟩

/-- So does waiting for a batch. -/
theorem awaitBatch_spins {rate : ℚ} {polls rest : List Poll} {s t : RateGovernor} {wake : Wake}
    (h : awaitBatch c rate s polls = some (wake, t, rest)) :
    ∃ spins, t = { s with spinIterations := spins } := by
  cases polls with
  | nil => exact absurd h nofun
  | cons poll polls =>
    simp only [awaitBatch] at h
    split at h
    · simp only [Option.some.injEq, Prod.mk.injEq] at h
      exact ⟨s.spinIterations, h.2.1.symm⟩
    · split at h
      · exact absurd h nofun
      · rename_i hwait
        simp only [Option.some.injEq, Prod.mk.injEq] at h
        exact h.2.1 ▸ waitUntilDue_spins hwait
      · exact absurd h nofun
      · rename_i hwait
        simp only [Option.some.injEq, Prod.mk.injEq] at h
        exact h.2.1 ▸ waitUntilDue_spins hwait

/-- A wait does not end as out of range. -/
theorem awaitBatch_wake {rate : ℚ} {polls rest : List Poll} {s t : RateGovernor} {wake : Wake}
    (h : awaitBatch c rate s polls = some (wake, t, rest)) : wake ≠ .outOfRange := by
  rintro rfl
  cases polls with
  | nil => exact absurd h nofun
  | cons poll polls =>
    simp only [awaitBatch] at h
    split at h
    · split at h <;> simp only [Option.some.injEq, Prod.mk.injEq, reduceCtorEq, false_and] at h
    · split at h
      · exact absurd h nofun
      · simp only [Option.some.injEq, Prod.mk.injEq, reduceCtorEq, false_and] at h
      · exact absurd h nofun
      · simp only [Option.some.injEq, Prod.mk.injEq, reduceCtorEq, false_and] at h

/-- Establishing the schedule changes a governor that has none, once. -/
theorem establish_cases {polls rest : List Poll} {s t : RateGovernor}
    (h : establish c polls s = some (t, rest)) :
    (s.started = true ∧ t = s) ∨ (s.started = false ∧ ∃ poll, polls = poll :: rest ∧
      t = { s with
        started := true
        accruedThrough := poll.now - c.batchInterval
        nextDeadline := poll.now }) := by
  unfold establish at h
  cases hs : s.started with
  | true =>
    simp only [hs, ite_true, Option.some.injEq, Prod.mk.injEq] at h
    exact .inl ⟨rfl, h.1.symm⟩
  | false =>
    cases polls with
    | nil => simp only [hs, Bool.false_eq_true, ite_false, reduceCtorEq] at h
    | cons poll polls =>
      simp only [hs, Bool.false_eq_true, ite_false, Option.some.injEq, Prod.mk.injEq] at h
      exact .inr ⟨rfl, poll, by rw [h.2], h.1.symm⟩

/-- A call is refused, or waits with its schedule established. -/
theorem waitForNextBatch_cases {rate : ℚ} {polls rest : List Poll} {s t : RateGovernor}
    {wake : Wake} (h : waitForNextBatch c rate polls s = some (wake, t, rest)) :
    (rate < 0 ∧ wake = .outOfRange ∧ t = s) ∨
      (0 ≤ rate ∧ wake ≠ .outOfRange ∧ ∃ start, Awaited c polls s t start) := by
  unfold waitForNextBatch at h
  split at h
  · rename_i hrate
    simp only [Option.some.injEq, Prod.mk.injEq] at h
    exact .inl ⟨hrate, h.1.symm, h.2.1.symm⟩
  · rename_i hrate
    refine .inr ⟨not_lt.mp hrate, ?_⟩
    split at h
    · exact absurd h nofun
    · rename_i u polls' hestablish
      refine ⟨awaitBatch_wake h, ?_⟩
      obtain ⟨spins, rfl⟩ := awaitBatch_spins h
      rcases establish_cases hestablish with ⟨hs, rfl⟩ | ⟨hs, poll, hpolls, rfl⟩
      · exact ⟨none, .running spins hs⟩
      · exact ⟨some poll.now, .established spins poll _ hs hpolls⟩

/-- The wait of a call starts the schedule at its first reading, unless it runs already. -/
theorem awaited_eq {s : Pacing} {t : RateGovernor} {polls : List Poll} {start : Option Int}
    (h : Awaited c polls s.governor t start) :
    s.awaited t polls = { s with governor := t, start := start.or s.start } := by
  cases h with
  | running spins hs => simp only [Pacing.awaited, Pacing.startAfter, hs, Bool.true_or, ite_true,
      Option.none_or]
  | established spins poll rest hs hpolls =>
    simp only [Pacing.awaited, Pacing.startAfter, hs, hpolls, Bool.not_true, Bool.or_self,
      Bool.false_eq_true, ite_false, List.head?_cons, Option.map_some, Option.some_or]

/-- What one call can do: nothing, wait, or wait and schedule a batch. -/
theorem step_cases {s u : Pacing} {call : Call} (h : s.step c call = some u) :
    u = s ∨ ∃ t start, Awaited c call.polls s.governor t start ∧
      (u = { s with governor := t, start := start.or s.start } ∨
        0 ≤ call.eventsPerSecond ∧ ∃ now, u = Pacing.schedule c now call.eventsPerSecond
          { s with governor := t, start := start.or s.start }) := by
  unfold Pacing.step at h
  split at h
  · rename_i now t hwait
    rcases waitForNextBatch_cases hwait with ⟨-, hwake, -⟩ | ⟨hrate, -, start, hawait⟩
    · exact absurd hwake nofun
    · rw [awaited_eq hawait, Option.some.injEq] at h
      exact .inr ⟨t, start, hawait, .inr ⟨hrate, now, h.symm⟩⟩
  · rename_i t hwait
    rcases waitForNextBatch_cases hwait with ⟨-, hwake, -⟩ | ⟨-, -, start, hawait⟩
    · exact absurd hwake nofun
    · rw [awaited_eq hawait, Option.some.injEq] at h
      exact .inr ⟨t, start, hawait, .inl h.symm⟩
  · rename_i t hwait
    rcases waitForNextBatch_cases hwait with ⟨-, -, rfl⟩ | ⟨-, hwake, -⟩
    · rw [Option.some.injEq] at h
      exact .inl h.symm
    · exact absurd rfl hwake
  · exact absurd h nofun

/-- What a wait and a batch preserve, a call preserves. -/
theorem step_invariant {I : Pacing → Prop}
    (hwait : ∀ s t start polls, I s → Awaited c polls s.governor t start →
      I { s with governor := t, start := start.or s.start })
    (hschedule : ∀ s now rate, I s → s.governor.started = true → 0 ≤ rate →
      I (Pacing.schedule c now rate s))
    {s u : Pacing} {call : Call} (hs : I s) (h : s.step c call = some u) : I u := by
  rcases step_cases h with rfl | ⟨t, start, hawait, rfl | ⟨hrate, now, rfl⟩⟩
  · exact hs
  · exact hwait s t start _ hs hawait
  · refine hschedule _ now _ (hwait s t start _ hs hawait) ?_ hrate
    cases hawait with
    | running spins hs => exact hs
    | established => rfl

/-! ## Rate conservation -/

/-- Everything accrued is handed out or carried, and no call hands out too much. -/
structure Conserved (c : GovernorConfig) (s : Pacing) : Prop where
  total : (s.governor.totalEventsScheduled : ℚ) + s.governor.pendingFraction =
    (s.batches.map fun b => totalSeconds (b.accrued c) * b.eventsPerSecond).sum
  owed : 0 ≤ s.governor.owedEvents
  returned : ∀ b ∈ s.batches, 0 ≤ b.emitted ∧ (b.emitted : ℚ) ≤
    totalSeconds ((1 + c.maxCatchUpBatches) * c.batchInterval) * b.eventsPerSecond
      + b.before.pendingFraction

theorem totalSeconds_nonneg {ticks : Int} (h : 0 ≤ ticks) : 0 ≤ totalSeconds ticks :=
  div_nonneg (by exact_mod_cast h) (by norm_num)

theorem totalSeconds_mono {a b : Int} (h : a ≤ b) : totalSeconds a ≤ totalSeconds b :=
  div_le_div_of_nonneg_right (by exact_mod_cast h) (by norm_num)

/-- A wait owes and hands out nothing. -/
theorem Conserved.awaited {s : Pacing} {t : RateGovernor} {start : Option Int} {polls : List Poll}
    (h : Conserved c s) (hawait : Awaited c polls s.governor t start) :
    Conserved c { s with governor := t, start := start.or s.start } := by
  cases hawait with
  | running => exact ⟨h.total, h.owed, h.returned⟩
  | established => exact ⟨h.total, h.owed, h.returned⟩

/-- A batch hands out the whole part of what is owed. -/
theorem Conserved.schedule {s : Pacing} (h : Conserved c s) (now : Int) {rate : ℚ}
    (hrate : 0 ≤ rate) : Conserved c (s.schedule c now rate) := by
  have hgain : 0 ≤ totalSeconds (accrued c now s.governor) * rate :=
    mul_nonneg (totalSeconds_nonneg (accrued_nonneg c now s.governor)) hrate
  have howed : 0 ≤ s.governor.owedEvents + totalSeconds (accrued c now s.governor) * rate :=
    add_nonneg h.owed hgain
  have hemit : (scheduleBatch c now s.governor rate).1 =
      emission (s.governor.owedEvents + totalSeconds (accrued c now s.governor) * rate) := rfl
  refine ⟨?_, ?_, ?_⟩
  · have htotal := h.total
    simp only [RateGovernor.pendingFraction] at htotal
    simp only [Pacing.schedule, RateGovernor.pendingFraction, scheduleBatch_totalEventsScheduled,
      scheduleBatch_owedEvents, List.map_append, List.sum_append, List.map_singleton,
      List.sum_singleton, Int.cast_add, ← htotal]
    rw [Batch.accrued]
    ring
  · simp only [Pacing.schedule, scheduleBatch_owedEvents, hemit]
    have := emission_le howed
    linarith
  · intro b hb
    rcases List.mem_append.mp hb with hb | hb
    · exact h.returned b hb
    · obtain rfl := List.mem_singleton.mp hb
      have hcap : totalSeconds (accrued c now s.governor) * rate ≤
          totalSeconds ((1 + c.maxCatchUpBatches) * c.batchInterval) * rate :=
        mul_le_mul_of_nonneg_right (totalSeconds_mono (accrued_le c now s.governor)) hrate
      have := emission_le howed
      refine ⟨emission_nonneg _, ?_⟩
      simp only [hemit, RateGovernor.pendingFraction]
      linarith

/-- So does a call. -/
theorem Conserved.step {s u : Pacing} {call : Call} (hs : Conserved c s)
    (h : s.step c call = some u) : Conserved c u :=
  step_invariant (fun _ _ _ _ hs hawait => hs.awaited hawait)
    (fun _ now _ hs _ hrate => hs.schedule now hrate) hs h

/-- A new governor has scheduled and owes nothing. -/
theorem Conserved.init (c : GovernorConfig) : Conserved c {} where
  total := by simp only [RateGovernor.pendingFraction, List.map_nil, List.sum_nil, Int.cast_zero,
    add_zero]
  owed := le_refl (0 : ℚ)
  returned _ hb := absurd hb List.not_mem_nil

/-- After every run of calls the events scheduled and the fraction carried are what was
accrued, and every call stayed within the catch-up. -/
theorem rate_conserved {calls : List Call} {s : Pacing} (h : (pacing c).run calls = some s) :
    (s.governor.totalEventsScheduled : ℚ) + s.governor.pendingFraction =
        (s.batches.map fun b => totalSeconds (b.accrued c) * b.eventsPerSecond).sum ∧
      ∀ b ∈ s.batches, 0 ≤ b.emitted ∧ (b.emitted : ℚ) ≤
        totalSeconds ((1 + c.maxCatchUpBatches) * c.batchInterval) * b.eventsPerSecond
          + b.before.pendingFraction := by
  have hs : Conserved c s := Machine.run_invariant (m := pacing c) (I := Conserved c)
    (Conserved.init c) (fun _ _ _ hs ht => hs.step ht) h
  exact ⟨hs.total, hs.returned⟩

/-- Two calls at 17,384 events a second, the second ten intervals late, and a refused one. -/
def stalledCalls : List Call :=
  [⟨17384, [⟨1000, false⟩, ⟨1400, false⟩]⟩, ⟨17384, [⟨561000, false⟩]⟩, ⟨-1, []⟩]

theorem rate_conserved_stalled : ∃ s, (pacing {}).run stalledCalls = some s ∧
    (s.governor.totalEventsScheduled : ℚ) + s.governor.pendingFraction =
        (s.batches.map fun b => totalSeconds (b.accrued {}) * b.eventsPerSecond).sum ∧
      ∀ b ∈ s.batches, 0 ≤ b.emitted ∧ (b.emitted : ℚ) ≤
        totalSeconds ((1 + (4 : Nat)) * GovernorConfig.batchInterval {}) * b.eventsPerSecond
          + b.before.pendingFraction := by
  obtain ⟨s, hs⟩ := Option.isSome_iff_exists.mp
    (by decide +kernel : ((pacing {}).run stalledCalls).isSome = true)
  exact ⟨s, hs, rate_conserved hs⟩

/-! ## Schedule accounting -/

/-- The deadline is one interval past what is accrued, and the schedule since the start is
accrued, dropped, or cut off. -/
structure Accounted (c : GovernorConfig) (s : Pacing) : Prop where
  started : s.governor.started = s.start.isSome
  idle : s.governor.started = false → s.batches = []
  deadline : s.governor.started = true →
    s.governor.nextDeadline = s.governor.accruedThrough + c.batchInterval
  later : ∀ b ∈ s.batches, b.now < b.after.nextDeadline
  last : ∀ b ∈ s.batches.getLast?, b.after.nextDeadline = s.governor.nextDeadline
  dropped : s.governor.catchUpBatchesDropped = (s.batches.map (Batch.dropped c)).sum
  elapsed : ∀ start ∈ s.start, s.governor.nextDeadline - start =
    (s.batches.map (Batch.accrued c)).sum + s.governor.catchUpBatchesDropped * c.batchInterval
      + ((s.batches.filter (Batch.capped c)).map (Batch.remainder c)).sum

/-- One more batch adds its term to a sum over the batches that meet a condition. -/
theorem sum_filter_append_singleton (p : Batch → Bool) (f : Batch → Int) (batches : List Batch)
    (b : Batch) : (((batches ++ [b]).filter p).map f).sum =
      ((batches.filter p).map f).sum + (if p b then f b else 0) := by
  rw [List.filter_append, List.map_append, List.sum_append]
  congr 1
  by_cases hp : p b
  · rw [List.filter_cons_of_pos hp, if_pos hp]
    exact List.sum_singleton
  · rw [List.filter_cons_of_neg hp, if_neg hp]
    rfl

/-- A wait starts the schedule or leaves it alone. -/
theorem Accounted.awaited {s : Pacing} {t : RateGovernor} {start : Option Int} {polls : List Poll}
    (h : Accounted c s) (hawait : Awaited c polls s.governor t start) :
    Accounted c { s with governor := t, start := start.or s.start } := by
  cases hawait with
  | running spins hs =>
    exact ⟨h.started, h.idle, h.deadline, h.later, h.last, h.dropped, h.elapsed⟩
  | established spins poll rest hs hpolls =>
    have hnone := h.idle hs
    have hdropped : s.governor.catchUpBatchesDropped = 0 := by
      rw [h.dropped, hnone, List.map_nil, List.sum_nil]
    refine ⟨rfl, nofun, fun _ => ?_, h.later, ?_, h.dropped, ?_⟩
    · simp only [sub_add_cancel]
    · simp only [hnone, List.getLast?_nil, Option.mem_def, reduceCtorEq, false_imp_iff,
        implies_true]
    · intro start hstart
      obtain rfl : poll.now = start := Option.some.inj hstart
      simp only [hnone, hdropped, List.filter_nil, List.map_nil, List.sum_nil, sub_self, zero_mul,
        add_zero]

/-- A batch moves the deadline by what it accrues, drops and cuts off. -/
theorem Accounted.schedule {s : Pacing} (h : Accounted c s) (hs : s.governor.started = true)
    (now : Int) (rate : ℚ) : Accounted c (s.schedule c now rate) := by
  have hdeadline := h.deadline hs
  have hmove := scheduleBatch_elapsed c now s.governor rate hdeadline
  refine ⟨?_, ?_, ?_, ?_, ?_, ?_, ?_⟩
  · exact (scheduleBatch_started c now s.governor rate).trans h.started
  · intro hidle
    exact absurd ((scheduleBatch_started c now s.governor rate).symm.trans hidle) (by simp [hs])
  · intro _
    exact scheduleBatch_nextDeadline c now s.governor rate
  · intro b hb
    rcases List.mem_append.mp hb with hb | hb
    · exact h.later b hb
    · obtain rfl := List.mem_singleton.mp hb
      exact now_lt_nextDeadline c now s.governor rate hdeadline
  · intro b hb
    simp only [Pacing.schedule, List.getLast?_append, List.getLast?_singleton, Option.some_or,
      Option.mem_def, Option.some.injEq] at hb
    exact hb ▸ rfl
  · simp only [Pacing.schedule, scheduleBatch_catchUpBatchesDropped, h.dropped, List.map_append,
      List.map_singleton, List.sum_append, List.sum_singleton]
    rfl
  · intro start hstart
    have helapsed := h.elapsed start hstart
    simp only [Pacing.schedule, scheduleBatch_catchUpBatchesDropped, List.map_append,
      List.map_singleton, List.sum_append, List.sum_singleton, sum_filter_append_singleton, hmove]
    by_cases hcap : capped c now s.governor = true
    · simp only [Batch.accrued, Batch.capped, Batch.remainder, hcap, ite_true]
      linear_combination helapsed
    · simp only [Batch.accrued, Batch.capped, Batch.remainder, hcap, Bool.false_eq_true, ite_false]
      linear_combination helapsed

/-- So does a call. -/
theorem Accounted.step {s u : Pacing} {call : Call} (hs : Accounted c s)
    (h : s.step c call = some u) : Accounted c u :=
  step_invariant (fun _ _ _ _ hs hawait => hs.awaited hawait)
    (fun _ now rate hs hstarted _ => hs.schedule hstarted now rate) hs h

/-- A new governor has no schedule. -/
theorem Accounted.init (c : GovernorConfig) : Accounted c {} where
  started := rfl
  idle _ := rfl
  deadline h := absurd h Bool.false_ne_true
  later _ hb := absurd hb List.not_mem_nil
  last _ hb := absurd hb (Option.not_mem_none _)
  dropped := rfl
  elapsed _ h := absurd h (Option.not_mem_none _)

section Totals

variable {batches : List Batch}

/-- What was accrued is a whole number of intervals. -/
theorem sum_accrued (c : GovernorConfig) (batches : List Batch) :
    (batches.map (Batch.accrued c)).sum =
      (batches.map (Batch.emittedFor c)).sum * c.batchInterval := by
  rw [← List.sum_map_mul_right]
  refine congrArg List.sum (List.map_congr_left fun b _ => ?_)
  exact (accrued_eq c b.now b.before).trans (mul_comm _ _)

/-- Every interval due is emitted for or dropped. -/
theorem sum_due (c : GovernorConfig) (batches : List Batch) :
    (batches.map (Batch.due c)).sum =
      (batches.map (Batch.emittedFor c)).sum + (batches.map (Batch.dropped c)).sum := by
  rw [← List.sum_map_add]
  refine congrArg List.sum (List.map_congr_left fun b _ => ?_)
  exact (batchesToAccrue_add_dropped c b.now b.before).symm

/-- Where no cap fired nothing was dropped. -/
theorem sum_dropped_eq_zero (h : ∀ b ∈ batches, b.capped c = false) :
    (batches.map (Batch.dropped c)).sum = 0 := by
  refine List.sum_eq_zero fun x hx => ?_
  obtain ⟨b, hb, rfl⟩ := List.mem_map.mp hx
  have hcap : capped c b.now b.before = false := h b hb
  simp only [Batch.dropped, dropped, hcap, Bool.false_eq_true, ite_false]

end Totals

/-- Until a cap fires the deadline is on the grid of the start. -/
theorem Accounted.grid {s : Pacing} (h : Accounted c s) {start : Int}
    (hstart : s.start = some start)
    (hcaps : ∀ b ∈ s.batches, b.capped c = false) :
    s.governor.nextDeadline =
      start + (s.batches.map (Batch.emittedFor c)).sum * c.batchInterval := by
  have helapsed := h.elapsed start hstart
  have hnone : s.batches.filter (Batch.capped c) = [] :=
    List.filter_eq_nil_iff.mpr fun b hb => by simp only [hcaps b hb, Bool.false_eq_true,
      not_false_eq_true]
  rw [sum_accrued, h.dropped, sum_dropped_eq_zero hcaps, hnone, List.map_nil, List.sum_nil]
    at helapsed
  linarith

/-- After every run of calls: the deadline is one interval past what is accrued, every call
left it later than its reading, on the grid of the start until a cap fired, and the schedule
since the start is accrued, dropped, or the remainder of a cap event. -/
theorem schedule_accounted {calls : List Call} {s : Pacing} {start : Int}
    (h : (pacing c).run calls = some s) (hstart : s.start = some start) :
    s.governor.nextDeadline = s.governor.accruedThrough + c.batchInterval ∧
      (∀ b ∈ s.batches, b.now < b.after.nextDeadline) ∧
      (∀ b ∈ s.batches.getLast?, b.after.nextDeadline = s.governor.nextDeadline) ∧
      ((∀ b ∈ s.batches, b.capped c = false) →
        ∃ k : ℕ, s.governor.nextDeadline = start + k * c.batchInterval) ∧
      s.governor.nextDeadline - start =
        (s.batches.map (Batch.accrued c)).sum
          + s.governor.catchUpBatchesDropped * c.batchInterval
          + ((s.batches.filter (Batch.capped c)).map (Batch.remainder c)).sum ∧
      (∀ b ∈ s.batches, 0 ≤ b.remainder c ∧ b.remainder c < c.batchInterval) ∧
      (s.batches.map (Batch.due c)).sum =
        (s.batches.map (Batch.emittedFor c)).sum + s.governor.catchUpBatchesDropped := by
  have hs : Accounted c s := Machine.run_invariant (m := pacing c) (I := Accounted c)
    (Accounted.init c) (fun _ _ _ hs ht => hs.step ht) h
  refine ⟨hs.deadline ?_, hs.later, hs.last, fun hcaps => ?_, hs.elapsed start hstart,
    fun b _ => ⟨remainder_nonneg c b.now b.before, remainder_lt c b.now b.before⟩, ?_⟩
  · rw [hs.started, hstart, Option.isSome_some]
  · have hcount : 0 ≤ (s.batches.map (Batch.emittedFor c)).sum := by
      refine List.sum_nonneg fun x hx => ?_
      obtain ⟨b, -, rfl⟩ := List.mem_map.mp hx
      exact zero_le_one.trans (one_le_batchesToAccrue c b.now b.before)
    refine ⟨(s.batches.map (Batch.emittedFor c)).sum.toNat, ?_⟩
    rw [Int.toNat_of_nonneg hcount]
    exact hs.grid hstart hcaps
  · rw [sum_due, hs.dropped]

theorem schedule_accounted_stalled : ∃ s, (pacing {}).run stalledCalls = some s ∧
    s.start = some 1000 ∧
    s.governor.nextDeadline - 1000 =
        (s.batches.map (Batch.accrued {})).sum
          + s.governor.catchUpBatchesDropped * GovernorConfig.batchInterval {}
          + ((s.batches.filter (Batch.capped {})).map (Batch.remainder {})).sum := by
  obtain ⟨s, hs, hstart⟩ : ∃ s, (pacing {}).run stalledCalls = some s ∧ s.start = some 1000 := by
    have hrun : (((pacing {}).run stalledCalls).map Pacing.start) = some (some 1000) := by
      decide +kernel
    obtain ⟨s, hs, hstart⟩ := Option.map_eq_some_iff.mp hrun
    exact ⟨s, hs, hstart⟩
  exact ⟨s, hs, hstart, (schedule_accounted hs hstart).2.2.2.2.1⟩

end Tckr.Session
