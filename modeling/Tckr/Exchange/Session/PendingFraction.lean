import Tckr.Exchange.Session.Pacing

/-!
# The pending fraction

A batch emits the whole part of what is owed, but no more than a 32-bit count holds.
What it carries is therefore a fraction exactly when less than `2^31` events were
owed. The largest rate, interval and catch-up together can owe more in one call.
-/

namespace Tckr.Session

/-! ## One batch -/

/-- A fraction of an event. -/
def Fractional (q : ℚ) : Prop := 0 ≤ q ∧ q < 1

/-- What the emission leaves over is a fraction exactly below the largest count and one more. -/
theorem fractional_sub_emission_iff {owed : ℚ} (h : 0 ≤ owed) :
    Fractional (owed - emission owed) ↔ owed < 2147483648 := by
  have hlong : (intMaxValue : ℚ) = 2147483647 := by norm_num [intMaxValue]
  unfold Fractional emission
  by_cases hone : owed ≥ 1
  · by_cases hmax : owed ≥ intMaxValue
    · rw [if_pos hone, if_pos hmax]
      rw [hlong] at hmax ⊢
      constructor
      · rintro ⟨-, hlt⟩
        linarith
      · intro hlt
        constructor <;> linarith
    · rw [if_pos hone, if_neg hmax]
      rw [hlong] at hmax
      have hfloor := Int.floor_le owed
      have hnext := Int.lt_floor_add_one owed
      exact ⟨fun _ => by linarith, fun _ => ⟨by linarith, by linarith⟩⟩
  · rw [if_neg hone, Int.cast_zero, sub_zero]
    exact ⟨fun _ => by linarith, fun _ => ⟨h, by linarith⟩⟩

section Owed

variable (c : GovernorConfig) (b : Batch)

/-- The events owed when a batch is due: the fraction carried into it, and the rate over the
intervals due and missed, the missed ones up to the catch-up. -/
def Batch.owed : ℚ :=
  b.before.owedEvents + totalSeconds (c.batchInterval *
    (1 + min (max 0 (b.now - b.before.nextDeadline) / c.batchInterval) c.maxCatchUpBatches)) *
      b.eventsPerSecond

theorem lag_eq_max (now : Int) (s : RateGovernor) : lag now s = max 0 (now - s.nextDeadline) := by
  unfold lag
  split <;> omega

theorem owed_eq : b.owed c =
    b.before.owedEvents + totalSeconds (b.accrued c) * b.eventsPerSecond := by
  have hbatches : batchesToAccrue c b.now b.before =
      1 + min (behind c b.now b.before) c.maxCatchUpBatches := by
    unfold batchesToAccrue
    by_cases hcap : capped c b.now b.before = true
    · have hover : behind c b.now b.before > c.maxCatchUpBatches := by
        simpa only [capped, decide_eq_true_eq] using hcap
      rw [if_pos hcap, min_eq_right hover.le]
    · have hunder : ¬ behind c b.now b.before > c.maxCatchUpBatches := by
        simpa only [capped, decide_eq_true_eq] using hcap
      rw [if_neg hcap, min_eq_left (not_lt.mp hunder)]
  rw [Batch.owed, Batch.accrued, accrued_eq, hbatches, behind, lag_eq_max]

end Owed

/-! ## Every run -/

variable {c : GovernorConfig}

/-- Every batch carried what its emission left of what it owed. -/
structure Carried (c : GovernorConfig) (s : Pacing) : Prop where
  governor : 0 ≤ s.governor.owedEvents
  last : s.governor.owedEvents = (s.batches.getLast?.map (·.after.owedEvents)).getD 0
  batches : ∀ b ∈ s.batches,
    0 ≤ b.owed c ∧ b.after.owedEvents = b.owed c - emission (b.owed c)

/-- A wait carries on. -/
theorem Carried.awaited {s : Pacing} {t : RateGovernor} {start : Option Int} {polls : List Poll}
    (h : Carried c s) (hawait : Awaited c polls s.governor t start) :
    Carried c { s with governor := t, start := start.or s.start } := by
  cases hawait with
  | running => exact ⟨h.governor, h.last, h.batches⟩
  | established => exact ⟨h.governor, h.last, h.batches⟩

/-- A batch carries what it does not emit. -/
theorem Carried.schedule {s : Pacing} (h : Carried c s) (now : Int) {rate : ℚ} (hrate : 0 ≤ rate) :
    Carried c (s.schedule c now rate) := by
  have howed : 0 ≤ s.governor.owedEvents + totalSeconds (accrued c now s.governor) * rate :=
    add_nonneg h.governor
      (mul_nonneg (totalSeconds_nonneg (accrued_nonneg c now s.governor)) hrate)
  have hleft : (scheduleBatch c now s.governor rate).2.owedEvents =
      s.governor.owedEvents + totalSeconds (accrued c now s.governor) * rate -
        emission (s.governor.owedEvents + totalSeconds (accrued c now s.governor) * rate) :=
    scheduleBatch_owedEvents c now s.governor rate
  refine ⟨?_, ?_, ?_⟩
  · have hemit := emission_le howed
    simp only [Pacing.schedule, hleft]
    linarith
  · simp only [Pacing.schedule, List.getLast?_append, List.getLast?_singleton, Option.some_or,
      Option.map_some, Option.getD_some]
  · intro b hb
    rcases List.mem_append.mp hb with hb | hb
    · exact h.batches b hb
    · obtain rfl := List.mem_singleton.mp hb
      rw [owed_eq]
      exact ⟨howed, hleft⟩

/-- So does a call. -/
theorem Carried.step {s u : Pacing} {call : Call} (hs : Carried c s)
    (h : s.step c call = some u) : Carried c u :=
  step_invariant (fun _ _ _ _ hs hawait => hs.awaited hawait)
    (fun _ now _ hs _ hrate => hs.schedule now hrate) hs h

/-- A new governor carries nothing. -/
theorem Carried.init (c : GovernorConfig) : Carried c {} where
  governor := le_refl (0 : ℚ)
  last := rfl
  batches _ hb := absurd hb List.not_mem_nil

/-- Where every batch carried a fraction the governor carries one now. -/
theorem Carried.fractional {s : Pacing} (h : Carried c s)
    (hall : ∀ b ∈ s.batches, Fractional b.after.pendingFraction) :
    Fractional s.governor.pendingFraction := by
  rw [RateGovernor.pendingFraction, h.last]
  cases hlast : s.batches.getLast? with
  | none => exact ⟨le_refl (0 : ℚ), one_pos⟩
  | some b => exact hall b (List.mem_of_getLast? hlast)

/-- A call whose rate owes no more than a count holds, however far behind it is. -/
def Modest (c : GovernorConfig) (call : Call) : Prop :=
  totalSeconds ((1 + c.maxCatchUpBatches) * c.batchInterval) * call.eventsPerSecond ≤ 2147483647

/-- A modest call carries a fraction over from one. -/
theorem fractional_step {s u : Pacing} {call : Call} (hmodest : Modest c call)
    (hcarried : Carried c s) (hs : Fractional s.governor.pendingFraction)
    (hall : ∀ b ∈ s.batches, Fractional b.after.pendingFraction) (h : s.step c call = some u) :
    ∀ b ∈ u.batches, Fractional b.after.pendingFraction := by
  rcases step_cases h with rfl | ⟨t, start, hawait, rfl | ⟨hrate, now, rfl⟩⟩
  · exact hall
  · exact hall
  · have hcarried' := (hcarried.awaited hawait).schedule now hrate
    have howed : t.owedEvents = s.governor.owedEvents := by
      cases hawait with
      | running => rfl
      | established => rfl
    intro b hb
    rcases List.mem_append.mp hb with hold | hnew
    · exact hall b hold
    · obtain ⟨hnonneg, hafter⟩ := hcarried'.batches b hb
      rw [RateGovernor.pendingFraction, hafter, fractional_sub_emission_iff hnonneg,
        owed_eq]
      obtain rfl := List.mem_singleton.mp hnew
      have hcap : totalSeconds (accrued c now t) * call.eventsPerSecond ≤
          totalSeconds ((1 + c.maxCatchUpBatches) * c.batchInterval) * call.eventsPerSecond :=
        mul_le_mul_of_nonneg_right (totalSeconds_mono (accrued_le c now t)) hrate
      have hlt : s.governor.owedEvents < 1 := hs.2
      dsimp only [Batch.accrued]
      unfold Modest at hmodest
      rw [howed]
      linarith

/-- In every run of calls each carries a fraction exactly when less than `2^31` events were owed
at each. Where the rate of every call owes no more than a count holds over one interval and the
whole catch-up, that is so. -/
theorem pendingFraction_iff {calls : List Call} {s : Pacing}
    (h : (pacing c).run calls = some s) :
    ((∀ b ∈ s.batches, Fractional b.after.pendingFraction) ↔
        ∀ b ∈ s.batches, b.owed c < 2147483648) ∧
      ((∀ b ∈ s.batches, b.owed c < 2147483648) → Fractional s.governor.pendingFraction) ∧
      ((∀ call ∈ calls, Modest c call) → ∀ b ∈ s.batches, b.owed c < 2147483648) := by
  have hcarried : Carried c s := Machine.run_invariant (m := pacing c) (I := Carried c)
    (Carried.init c) (fun _ _ _ hs ht => hs.step ht) h
  have hiff : (∀ b ∈ s.batches, Fractional b.after.pendingFraction) ↔
      ∀ b ∈ s.batches, b.owed c < 2147483648 := by
    refine forall₂_congr fun b hb => ?_
    obtain ⟨hnonneg, hafter⟩ := hcarried.batches b hb
    rw [RateGovernor.pendingFraction, hafter, fractional_sub_emission_iff hnonneg]
  refine ⟨hiff, fun howed => hcarried.fractional (hiff.mpr howed), fun hmodest => ?_⟩
  refine hiff.mp (Machine.run_invariant_of_guarded (m := pacing c)
    (I := fun s => Carried c s ∧ ∀ b ∈ s.batches, Fractional b.after.pendingFraction)
    ⟨Carried.init c, fun b hb => absurd hb List.not_mem_nil⟩ ?_
    ((pacing c).guarded_of_mem hmodest _) h).2
  rintro s call u ⟨hs, hall⟩ hcall hu
  exact ⟨hs.step hu, fractional_step hcall hs (hs.fractional hall) hall hu⟩

theorem pendingFraction_iff_stalled : ∃ s, (pacing {}).run stalledCalls = some s ∧
    Fractional s.governor.pendingFraction := by
  have hrun : ((pacing {}).run stalledCalls).isSome = true := by decide +kernel
  obtain ⟨s, hs⟩ := Option.isSome_iff_exists.mp hrun
  obtain ⟨-, hgovernor, hmodest⟩ := pendingFraction_iff hs
  refine ⟨s, hs, hgovernor (hmodest fun call hcall => ?_)⟩
  simp only [stalledCalls, List.mem_cons, List.not_mem_nil, or_false] at hcall
  rcases hcall with rfl | rfl | rfl <;>
    norm_num [Modest, totalSeconds, GovernorConfig.batchInterval, ticksPerMillisecond]

/-- The largest interval and catch-up that options accept. -/
def widestGovernor : GovernorConfig where
  batchIntervalMs := 100
  maxCatchUpBatches := 1000

/-- Two calls at the largest rate, the second 400 intervals after the first. -/
def fastestCalls : List Call :=
  [⟨100000000, [⟨0, false⟩, ⟨0, false⟩]⟩, ⟨100000000, [⟨400000000, false⟩]⟩]

/-- Forty seconds late at the largest rate, a call carries nearly two billion events. -/
theorem not_pendingFraction : ¬ ∀ (c : GovernorConfig) (calls : List Call) (s : Pacing),
    c.batchIntervalMs ≤ 100 → c.maxCatchUpBatches ≤ 1000 →
    (∀ call ∈ calls, 0 ≤ call.eventsPerSecond ∧ call.eventsPerSecond ≤ 100000000) →
    (calls.flatMap (·.polls.map (·.now))).Pairwise (· ≤ ·) →
    (pacing c).run calls = some s → Fractional s.governor.pendingFraction := by
  intro h
  have hrun : ((pacing widestGovernor).run fastestCalls).map (·.governor.owedEvents) =
      some 1852516353 := by decide +kernel
  obtain ⟨s, hs, howed⟩ := Option.map_eq_some_iff.mp hrun
  have hfraction := h widestGovernor fastestCalls s (by decide) (by decide)
    (by
      intro call hcall
      simp only [fastestCalls, List.mem_cons, List.not_mem_nil, or_false] at hcall
      rcases hcall with rfl | rfl <;> norm_num)
    (by decide) hs
  have hlt := hfraction.2
  rw [RateGovernor.pendingFraction, howed] at hlt
  exact absurd hlt (by norm_num)

end Tckr.Session
