import Tckr.MarketWatch.Data.SessionMonotonicity

/-!
# A reconstruction and a longer one

Every slot draws the same number of times whatever it moves by, so a reconstruction that
runs longer passes through the same slots first. Its history begins with the shorter one,
and every sample keeps to the range and to the tick grid.
-/

namespace Tckr.MarketWatch

section Slots

variable (definition : SimSymbol) (sessionOpenAt : Nat) (seed : UInt32)

/-- The generator and the session after some slots. -/
def slotsTo (slots : Nat) : Mulberry32 × BackfilledSession :=
  let openPrice := auctionOpen definition seed
  let start : BackfilledSession := ⟨openPrice, openPrice, openPrice, openPrice, 0, []⟩
  (List.range slots).foldl (backfillSlot definition sessionOpenAt) (Mulberry32.mk seed, start)

/-- The slots up to a time, the first being the open's own. -/
def slotsUntil (targetTime : Nat) : Nat :=
  (targetTime - sessionOpenAt) / historySampleIntervalMs + 1

theorem computeBackfilledSession_eq (targetTime : Nat) :
    computeBackfilledSession definition sessionOpenAt targetTime seed =
      (slotsTo definition sessionOpenAt seed (slotsUntil sessionOpenAt targetTime)).2 := rfl

theorem slotsTo_succ (slots : Nat) : slotsTo definition sessionOpenAt seed (slots + 1) =
    backfillSlot definition sessionOpenAt (slotsTo definition sessionOpenAt seed slots) slots := by
  rw [slotsTo, List.range_succ, List.foldl_append]
  rfl

end Slots

section Grid

variable {definition : SimSymbol} {seed : UInt32}

/-- No opening price is below one tick. -/
theorem le_auctionOpen (definition : SimSymbol) (seed : UInt32) :
    definition.tickSize.toScaledInt ≤ auctionOpen definition seed := le_max_right _ _

/-- On a grid of ticks the auction stays on it. -/
theorem dvd_auctionOpen
    (hgrid : definition.tickSize.toScaledInt ∣ definition.referencePrice.toScaledInt) :
    definition.tickSize.toScaledInt ∣ auctionOpen definition seed := by
  rw [auctionOpen]
  obtain h | h := max_choice (definition.referencePrice.toScaledInt +
    definition.tickSize.toScaledInt * _) definition.tickSize.toScaledInt
  · rw [h]
    exact Int.dvd_add hgrid (Dvd.intro _ rfl)
  · rw [h]

/-- A move is by whole ticks, and to one tick at least. -/
theorem backfillMove_price (definition : SimSymbol) (rng : Mulberry32)
    (session : BackfilledSession) :
    ∃ steps : Int, (backfillMove definition rng session).2.price =
      max (session.price + definition.tickSize.toScaledInt * steps)
        definition.tickSize.toScaledInt :=
  ⟨_, rfl⟩

end Grid

/-! ## One slot -/

/-- What holds of a reconstruction of so many slots. -/
structure Reconstructed (definition : SimSymbol) (slots : Nat) (session : BackfilledSession) :
    Prop where
  length : session.history.length = slots
  last : 0 < slots → session.history.getLast?.map HistorySample.price = some session.price
  tick_le : definition.tickSize.toScaledInt ≤ session.price
  range : session.low ≤ session.price ∧ session.price ≤ session.high
  samples : ∀ sample ∈ session.history, session.low ≤ sample.price ∧
    sample.price ≤ session.high ∧ definition.tickSize.toScaledInt ≤ sample.price

/-- Every price is a number of ticks. -/
structure OnGrid (definition : SimSymbol) (session : BackfilledSession) : Prop where
  price : definition.tickSize.toScaledInt ∣ session.price
  samples : ∀ sample ∈ session.history, definition.tickSize.toScaledInt ∣ sample.price

section Slot

variable {definition : SimSymbol} {sessionOpenAt slots : Nat}
  {state : Mulberry32 × BackfilledSession}

/-- Below the cap a sample is appended. -/
theorem recordSample_of_lt {history : List HistorySample} (sample : HistorySample)
    (h : history.length < historyMaxPoints) :
    recordSample history sample = history ++ [sample] := by
  rw [recordSample, if_neg]
  rw [List.length_append]
  exact Nat.not_lt.mpr h

/-- The session that a slot samples. -/
def movedIn (definition : SimSymbol) (state : Mulberry32 × BackfilledSession) (slot : Nat) :
    BackfilledSession :=
  if slot > 0 then (backfillMove definition state.1 state.2).2 else state.2

theorem backfillMove_history (rng : Mulberry32) (session : BackfilledSession) :
    (backfillMove definition rng session).2.history = session.history := by
  unfold backfillMove
  generalize pickSignedSteps rng session.price session.openPrice backfillMaxStepsPerSlot = moved
  dsimp only

theorem backfillSlot_snd (definition : SimSymbol) (sessionOpenAt : Nat)
    (state : Mulberry32 × BackfilledSession) (slot : Nat) :
    (backfillSlot definition sessionOpenAt state slot).2 =
    { movedIn definition state slot with
      history := recordSample (movedIn definition state slot).history
        ⟨sessionOpenAt + slot * historySampleIntervalMs,
          (movedIn definition state slot).price⟩ } := by
  by_cases hslot : slot > 0
  · rw [backfillSlot, movedIn, if_pos hslot, if_pos hslot]
  · rw [backfillSlot, movedIn, if_neg hslot, if_neg hslot]

theorem movedIn_history (slot : Nat) :
    (movedIn definition state slot).history = state.2.history := by
  rw [movedIn]
  split
  · exact backfillMove_history _ _
  · rfl

/-- What a slot moves to lies in the range it leaves. -/
theorem Reconstructed.movedIn (h : Reconstructed definition slots state.2) (slot : Nat) :
    (movedIn definition state slot).low ≤ (movedIn definition state slot).price ∧
      (movedIn definition state slot).price ≤ (movedIn definition state slot).high ∧
      definition.tickSize.toScaledInt ≤ (movedIn definition state slot).price ∧
      (movedIn definition state slot).low ≤ state.2.low ∧
      state.2.high ≤ (movedIn definition state slot).high := by
  rw [MarketWatch.movedIn]
  split
  · exact ⟨min_le_right _ _, le_max_right _ _, le_max_right _ _, min_le_left _ _, le_max_left _ _⟩
  · exact ⟨h.range.1, h.range.2, h.tick_le, le_refl _, le_refl _⟩

/-- A slot below the cap appends one sample. -/
theorem backfillSlot_history (definition : SimSymbol) (sessionOpenAt : Nat)
    {state : Mulberry32 × BackfilledSession} (hcap : state.2.history.length < historyMaxPoints)
    (slot : Nat) :
    (backfillSlot definition sessionOpenAt state slot).2.history = state.2.history ++
      [⟨sessionOpenAt + slot * historySampleIntervalMs, (movedIn definition state slot).price⟩] := by
  rw [backfillSlot_snd]
  dsimp only
  rw [movedIn_history, recordSample_of_lt _ hcap]

theorem Reconstructed.slot (h : Reconstructed definition slots state.2)
    (hcap : slots < historyMaxPoints) :
    Reconstructed definition (slots + 1)
      (backfillSlot definition sessionOpenAt state slots).2 := by
  obtain ⟨hlow, hhigh, htick, hlower, hupper⟩ := h.movedIn slots
  have hlength : state.2.history.length < historyMaxPoints := by
    rw [h.length]
    exact hcap
  have hhistory := backfillSlot_history definition sessionOpenAt hlength slots
  have hrest := backfillSlot_snd definition sessionOpenAt state slots
  have hprice : (backfillSlot definition sessionOpenAt state slots).2.price =
      (MarketWatch.movedIn definition state slots).price := by rw [hrest]
  have hlowest : (backfillSlot definition sessionOpenAt state slots).2.low =
      (MarketWatch.movedIn definition state slots).low := by rw [hrest]
  have hhighest : (backfillSlot definition sessionOpenAt state slots).2.high =
      (MarketWatch.movedIn definition state slots).high := by rw [hrest]
  constructor
  · rw [hhistory, List.length_append, h.length]
    rfl
  · intro _
    rw [hhistory, List.getLast?_concat, hprice]
    rfl
  · rw [hprice]
    exact htick
  · rw [hprice, hlowest, hhighest]
    exact ⟨hlow, hhigh⟩
  · intro sample hsample
    rw [hlowest, hhighest]
    rw [hhistory, List.mem_append, List.mem_singleton] at hsample
    obtain hearlier | rfl := hsample
    · obtain ⟨hsamplelow, hsamplehigh, hsampletick⟩ := h.samples sample hearlier
      exact ⟨hlower.trans hsamplelow, hsamplehigh.trans hupper, hsampletick⟩
    · exact ⟨hlow, hhigh, htick⟩

theorem OnGrid.slot (h : OnGrid definition state.2)
    (hcap : state.2.history.length < historyMaxPoints) (slot : Nat) :
    OnGrid definition (backfillSlot definition sessionOpenAt state slot).2 := by
  have hmoved : definition.tickSize.toScaledInt ∣ (movedIn definition state slot).price := by
    rw [movedIn]
    split
    · obtain ⟨steps, hsteps⟩ := backfillMove_price definition state.1 state.2
      rw [hsteps]
      obtain hmax | hmax := max_choice
        (state.2.price + definition.tickSize.toScaledInt * steps) definition.tickSize.toScaledInt
      · rw [hmax]
        exact Int.dvd_add h.price (Dvd.intro _ rfl)
      · rw [hmax]
    · exact h.price
  constructor
  · rw [backfillSlot_snd]
    exact hmoved
  · intro sample hsample
    rw [backfillSlot_history definition sessionOpenAt hcap, List.mem_append,
      List.mem_singleton] at hsample
    obtain hearlier | rfl := hsample
    · exact h.samples sample hearlier
    · exact hmoved

end Slot

/-! ## A run of slots -/

section Run

variable {definition : SimSymbol} {sessionOpenAt slots slots' : Nat} {seed : UInt32}

theorem reconstructed_slotsTo (definition : SimSymbol) (sessionOpenAt : Nat) (seed : UInt32)
    (hcap : slots ≤ historyMaxPoints) :
    Reconstructed definition slots (slotsTo definition sessionOpenAt seed slots).2 := by
  induction slots with
  | zero =>
    have hopen := le_auctionOpen definition seed
    exact ⟨rfl, fun h => absurd h (Nat.lt_irrefl 0), hopen, ⟨le_refl _, le_refl _⟩,
      fun sample hsample => absurd hsample List.not_mem_nil⟩
  | succ slots ih =>
    rw [slotsTo_succ]
    exact (ih (Nat.le_of_succ_le hcap)).slot hcap

theorem onGrid_slotsTo
    (hgrid : definition.tickSize.toScaledInt ∣ definition.referencePrice.toScaledInt)
    (hcap : slots ≤ historyMaxPoints) :
    OnGrid definition (slotsTo definition sessionOpenAt seed slots).2 := by
  induction slots with
  | zero =>
    exact ⟨dvd_auctionOpen hgrid, fun sample hsample => absurd hsample List.not_mem_nil⟩
  | succ slots ih =>
    have hlength := (reconstructed_slotsTo definition sessionOpenAt seed
      (Nat.le_of_succ_le hcap)).length
    rw [slotsTo_succ]
    refine (ih (Nat.le_of_succ_le hcap)).slot ?_ slots
    rw [hlength]
    exact hcap

/-- More slots keep the samples there are. -/
theorem history_initial (hle : slots ≤ slots') (hcap : slots' ≤ historyMaxPoints) :
    (slotsTo definition sessionOpenAt seed slots).2.history <+:
      (slotsTo definition sessionOpenAt seed slots').2.history := by
  induction slots', hle using Nat.le_induction with
  | base => exact List.prefix_refl _
  | succ slots' _ ih =>
    have hlength := (reconstructed_slotsTo definition sessionOpenAt seed
      (Nat.le_of_succ_le hcap)).length
    rw [slotsTo_succ, backfillSlot_history definition sessionOpenAt (by rw [hlength]; exact hcap)]
    exact (ih (Nat.le_of_succ_le hcap)).trans (List.prefix_append _ _)

theorem slotsUntil_mono (sessionOpenAt : Nat) {targetTime targetTime' : Nat}
    (h : targetTime ≤ targetTime') :
    slotsUntil sessionOpenAt targetTime ≤ slotsUntil sessionOpenAt targetTime' :=
  Nat.succ_le_succ (Nat.div_le_div_right (Nat.sub_le_sub_right h _))

end Run

/-- A reconstruction and one that runs on from it. -/
structure RunsOn (session later : BackfilledSession) : Prop where
  history : session.history <+: later.history
  openPrice : later.openPrice = session.openPrice
  volume : session.volume ≤ later.volume
  high : session.high ≤ later.high
  low : later.low ≤ session.low

/-- The samples of a reconstruction. -/
structure Sampled (definition : SimSymbol) (samples : Nat) (session : BackfilledSession) :
    Prop where
  range : ∀ sample ∈ session.history, session.low ≤ sample.price ∧ sample.price ≤ session.high
  tick_le : ∀ sample ∈ session.history, definition.tickSize.toScaledInt ≤ sample.price
  grid : definition.tickSize.toScaledInt ∣ definition.referencePrice.toScaledInt →
    ∀ sample ∈ session.history, definition.tickSize.toScaledInt ∣ sample.price
  last : session.history.getLast?.map HistorySample.price = some session.price
  length : session.history.length = samples

/-- A reconstruction up to a time is the beginning of one up to a later time. Every sample
lies in the range, on the grid and at one tick at least, the last is the price, and there
is one for every 30 seconds begun. -/
theorem backfill_runsOn (definition : SimSymbol) (sessionOpenAt : Nat) (seed : UInt32) (t t' : Nat)
    (hle : t ≤ t')
    (hcap : (t' - sessionOpenAt) / historySampleIntervalMs + 1 ≤ historyMaxPoints) :
    RunsOn (computeBackfilledSession definition sessionOpenAt t seed)
        (computeBackfilledSession definition sessionOpenAt t' seed) ∧
      Sampled definition ((t - sessionOpenAt) / historySampleIntervalMs + 1)
        (computeBackfilledSession definition sessionOpenAt t seed) := by
  have hslots := slotsUntil_mono sessionOpenAt hle
  have hcap' : slotsUntil sessionOpenAt t ≤ historyMaxPoints := hslots.trans hcap
  have hreconstructed := reconstructed_slotsTo definition sessionOpenAt seed hcap'
  have hextends : (walkTo definition sessionOpenAt seed t).Extends
      (walkTo definition sessionOpenAt seed t') := walkTo_extends hle
  rw [computeBackfilledSession_eq, computeBackfilledSession_eq]
  exact ⟨⟨history_initial hslots hcap, hextends.openPrice, hextends.volume, hextends.high,
    hextends.low⟩, fun sample hsample => ⟨(hreconstructed.samples sample hsample).1,
      (hreconstructed.samples sample hsample).2.1⟩,
    fun sample hsample => (hreconstructed.samples sample hsample).2.2,
    fun hgrid => (onGrid_slotsTo hgrid hcap').samples, hreconstructed.last (Nat.succ_pos _),
    hreconstructed.length⟩

/-- An instrument at ten pounds, in ticks of a piastre. -/
def tenPounds : SimSymbol where
  symbol := "TEN"
  name := "Ten"
  referencePrice := ⟨"10.00".toList, rfl⟩
  tickSize := ⟨"0.01".toList, rfl⟩
  lotSize := 1
  weight := 1

/-- After one minute there are three samples, and two more after another. -/
theorem backfill_runsOn_minutes :
    RunsOn (computeBackfilledSession tenPounds 0 60000 7)
        (computeBackfilledSession tenPounds 0 120000 7) ∧
      (computeBackfilledSession tenPounds 0 60000 7).history.length = 3 := by
  have h := backfill_runsOn tenPounds 0 7 60000 120000 (by decide) (by decide)
  exact ⟨h.1, h.2.length⟩

end Tckr.MarketWatch
