import Mathlib.Algebra.Order.Floor.Ring
import Tckr.Exchange.Diagnostics.RollingRateWindow

/-!
# What the rolling rate window reports

As long as every call takes the lock while the ring still holds the buckets it is
about, the ring tells the recent past and a report is the sum of what was added in the
complete buckets before it. A call that comes too late reads and writes the slots of
other buckets.
-/

namespace Tckr.Diagnostics

open Laps

variable {buckets : Nat}

namespace RollingRateWindow

theorem slot_eq (bucket : Int) :
    (slot bucket : Fin (buckets + 1)) = Laps.slot (buckets + 1) bucket := by
  have hpos : (0 : Int) < (buckets + 1 : Nat) := Int.natCast_pos.mpr buckets.succ_pos
  have hgt := Int.lt_tmod_of_pos bucket hpos
  have hshift : 0 ≤ bucket.tmod (buckets + 1 : Nat) + (buckets + 1 : Nat) := by omega
  have hsame : (bucket.tmod (buckets + 1 : Nat) + (buckets + 1 : Nat)).tmod (buckets + 1 : Nat) =
      bucket % (buckets + 1 : Nat) := by
    rw [Int.tmod_eq_emod_of_nonneg hshift, Int.add_emod_right]
    conv_rhs => rw [← Int.tmod_add_mul_tdiv bucket (buckets + 1 : Nat), Int.add_mul_emod_self_left]
  exact Fin.ext (congrArg Int.toNat hsame)

theorem clearSlots_eq (count : Nat) (b : Int) (counts : Fin (buckets + 1) → Count) :
    clearSlots count b counts = Laps.fill 0 count b counts := by
  induction count generalizing b counts with
  | zero => rfl
  | succ count ih => rw [clearSlots, Laps.fill, ih, slot_eq]

variable {w : RollingRateWindow buckets} {f : Int → Count}

@[simp] theorem advanceTo_bucketTicks (bucket : Int) (w : RollingRateWindow buckets) :
    (w.advanceTo bucket).bucketTicks = w.bucketTicks := by
  unfold advanceTo
  split <;> rfl

@[simp] theorem advanceTo_startBucket (bucket : Int) (w : RollingRateWindow buckets) :
    (w.advanceTo bucket).startBucket = w.startBucket := by
  unfold advanceTo
  split <;> rfl

@[simp] theorem advanceTo_headBucket (bucket : Int) (w : RollingRateWindow buckets) :
    (w.advanceTo bucket).headBucket = max w.headBucket bucket := by
  unfold advanceTo
  split_ifs with hle
  · exact (max_eq_left hle).symm
  · exact (max_eq_right (not_le.mp hle).le).symm

/-- A head that moves on over empty buckets keeps what the ring tells. -/
theorem holds_advanceTo (h : Holds w.counts w.headBucket f)
    (hnew : ∀ b, w.headBucket < b → f b = 0) (bucket : Int) :
    Holds (w.advanceTo bucket).counts (w.advanceTo bucket).headBucket f := by
  unfold advanceTo
  split_ifs with hle
  · exact h
  dsimp only
  split_ifs with hsteps
  · refine holds_const fun b hb => hnew b ?_
    obtain ⟨hlo, -⟩ := hb
    omega
  · have hfill : Holds (Laps.fill 0 (bucket - w.headBucket).toNat (w.headBucket + 1) w.counts)
        (w.headBucket + (bucket - w.headBucket).toNat) f := h.fill fun b hlo _ => hnew b hlo
    have hhead : w.headBucket + ((bucket - w.headBucket).toNat : Int) = bucket := by omega
    rw [clearSlots_eq]
    rwa [hhead] at hfill

/-- Slots that hold a log add up to its amounts. -/
theorem sumSlots_eq {log : List (Int × Count)}
    (h : Holds w.counts w.headBucket (tallyAt log)) {first : Int} {count : Nat}
    (hlo : w.headBucket - buckets ≤ first) (hhi : 0 < count → first + count ≤ w.headBucket + 1) :
    w.sumSlots first count = tally log fun b => first ≤ b && b < first + count := by
  rw [← sum_tallyAt, sumSlots]
  congr 1
  refine List.map_congr_left fun i hi => ?_
  rw [List.mem_range] at hi
  have hlast := hhi (by omega)
  rw [slot_eq]
  exact h _ ⟨by omega, by omega⟩

theorem complete_le (current : Int) (w : RollingRateWindow buckets) :
    w.complete current ≤ buckets := min_le_left _ _

/-- A bucket holds the readings of its ticks. -/
theorem le_bucketOf_iff (hticks : 0 < w.bucketTicks) (first : Int) (now : Nat) :
    first ≤ w.bucketOf now ↔ first * w.bucketTicks ≤ now := by
  have hpos : (0 : Int) < w.bucketTicks := Int.natCast_pos.mpr hticks
  rw [bucketOf, Int.natCast_div, Int.le_ediv_iff_mul_le hpos]

theorem bucketOf_lt_iff (hticks : 0 < w.bucketTicks) (last : Int) (now : Nat) :
    w.bucketOf now < last ↔ (now : Int) < last * w.bucketTicks := by
  rw [← not_le, le_bucketOf_iff hticks, not_le]

end RollingRateWindow

/-! ## Entries -/

/-- The additions among the entries, with their readings. -/
def applied (entries : List Entry) : List (Nat × Count) :=
  entries.filterMap fun
    | .added reading count => some (reading, count)
    | .reported _ _ => none

/-- The additions with their buckets. -/
def positions (w : RollingRateWindow buckets) (entries : List Entry) : List (Int × Count) :=
  (applied entries).map fun e => (w.bucketOf e.1, e.2)

/-- What was added at readings from one instant to before another. -/
def addedBetween (entries : List Entry) (first last : Int) : Count :=
  (((applied entries).filter fun e => first ≤ e.1 && (e.1 : Int) < last).map Prod.snd).sum

@[simp] theorem positions_append_reported (w : RollingRateWindow buckets) (entries : List Entry)
    (reading : Nat) (report : Report) :
    positions w (entries ++ [.reported reading report]) = positions w entries := by
  simp [positions, applied, List.filterMap_append]

@[simp] theorem positions_append_added (w : RollingRateWindow buckets) (entries : List Entry)
    (reading : Nat) (count : Count) :
    positions w (entries ++ [.added reading count]) =
      positions w entries ++ [(w.bucketOf reading, count)] := by
  simp [positions, applied, List.filterMap_append]

/-- The buckets of the additions add up to their ticks. -/
theorem tally_positions {w : RollingRateWindow buckets} (hticks : 0 < w.bucketTicks)
    (entries : List Entry) (first last : Int) :
    (tally (positions w entries) fun b => first ≤ b && b < last) =
      addedBetween entries (first * w.bucketTicks) (last * w.bucketTicks) := by
  rw [tally, positions, addedBetween, List.filter_map, List.map_map]
  have hfilter : ((fun e : Int × Count => decide (first ≤ e.1) && decide (e.1 < last)) ∘
      fun e : Nat × Count => (w.bucketOf e.1, e.2)) =
      fun e => decide (first * w.bucketTicks ≤ (e.1 : Int)) &&
        decide ((e.1 : Int) < last * w.bucketTicks) := by
    funext e
    simp only [Function.comp_apply, w.le_bucketOf_iff hticks, w.bucketOf_lt_iff hticks]
  rw [hfilter]
  rfl

/-! ## Runs -/

/-- A report tells the recent past: what was added before it at readings in its complete buckets. -/
structure Tells (w : RollingRateWindow buckets) (before : List Entry) (reading : Nat)
    (report : Report) : Prop where
  /-- As many buckets as the window has, or as have elapsed. -/
  complete_eq : report.complete = min (buckets : Int) (w.bucketOf reading - w.startBucket)
  total_eq : report.total = addedBetween before
    ((w.bucketOf reading - report.complete) * w.bucketTicks) (w.bucketOf reading * w.bucketTicks)
  rate_eq : report.rate = if report.complete ≤ 0 then 0
    else report.total.toInt / (((report.complete * w.bucketTicks : Int) : ℚ) / 10000000)

/-- Every report of the entries tells the recent past. -/
def AllTell (w : RollingRateWindow buckets) (entries : List Entry) : Prop :=
  ∀ before reading report after, entries = before ++ .reported reading report :: after →
    Tells w before reading report

theorem allTell_nil (w : RollingRateWindow buckets) : AllTell w [] := by
  intro before reading report after h
  simp at h

theorem allTell_append_singleton {w : RollingRateWindow buckets} {entries : List Entry}
    (h : AllTell w entries) {e : Entry}
    (he : ∀ reading report, e = .reported reading report → Tells w entries reading report) :
    AllTell w (entries ++ [e]) := by
  intro before reading report after heq
  rcases List.append_eq_append_iff.mp heq with ⟨rest, hbefore, hrest⟩ | ⟨rest, hentries, hrest⟩
  · cases rest with
    | nil =>
      rw [List.append_nil] at hbefore
      obtain ⟨hsame, -⟩ := List.cons.inj hrest
      exact hbefore ▸ he reading report hsame
    | cons e' rest => simp at hrest
  · cases rest with
    | nil =>
      rw [List.append_nil] at hentries
      obtain ⟨hsame, -⟩ := List.cons.inj hrest
      exact hentries ▸ he reading report hsame.symm
    | cons e' rest =>
      obtain ⟨rfl, -⟩ := List.cons.inj hrest
      exact h before reading report rest hentries

/-- What the ring tells after the entries of a run. -/
structure Sound (w : RollingRateWindow buckets) (window : RollingRateWindow buckets)
    (entries : List Entry) : Prop where
  bucketTicks_eq : window.bucketTicks = w.bucketTicks
  startBucket_eq : window.startBucket = w.startBucket
  holds : Holds window.counts window.headBucket (tallyAt (positions w entries))
  le_head : ∀ e ∈ positions w entries, e.1 ≤ window.headBucket
  allTell : AllTell w entries

namespace Sound

variable {w window : RollingRateWindow buckets} {entries : List Entry}

theorem bucketOf_eq (h : Sound w window entries) (now : Nat) :
    window.bucketOf now = w.bucketOf now := by
  rw [RollingRateWindow.bucketOf, h.bucketTicks_eq, RollingRateWindow.bucketOf]

theorem advanceTo (h : Sound w window entries) (bucket : Int) :
    Sound w (window.advanceTo bucket) entries where
  bucketTicks_eq := by rw [RollingRateWindow.advanceTo_bucketTicks, h.bucketTicks_eq]
  startBucket_eq := by rw [RollingRateWindow.advanceTo_startBucket, h.startBucket_eq]
  holds := by
    refine RollingRateWindow.holds_advanceTo h.holds (fun b hb => ?_) bucket
    exact tallyAt_eq_zero fun e he => (h.le_head e he).trans_lt hb
  le_head e he := by
    rw [RollingRateWindow.advanceTo_headBucket]
    exact (h.le_head e he).trans (le_max_left _ _)
  allTell := h.allTell

/-- An addition that is not too late is counted in its own bucket. -/
theorem add (h : Sound w window entries) {reading : Nat} (count : Count)
    (hlate : window.headBucket ≤ w.bucketOf reading + buckets) :
    Sound w (window.add (w.bucketOf reading) count) (entries ++ [.added reading count]) := by
  have hadvanced := h.advanceTo (w.bucketOf reading)
  have hhead := RollingRateWindow.advanceTo_headBucket (w.bucketOf reading) window
  have hrecent : Recent (buckets + 1) (window.advanceTo (w.bucketOf reading)).headBucket
      (w.bucketOf reading) := by
    constructor <;> omega
  refine ⟨hadvanced.bucketTicks_eq, hadvanced.startBucket_eq, ?_, fun e he => ?_, ?_⟩
  · have hupdate := hadvanced.holds.update hrecent
      (tallyAt (positions w entries) (w.bucketOf reading) + count)
    rw [positions_append_added, tallyAt_append_singleton]
    rw [← hadvanced.holds _ hrecent, ← RollingRateWindow.slot_eq] at hupdate ⊢
    exact hupdate
  · rw [positions_append_added, List.mem_append, List.mem_singleton] at he
    rcases he with he | rfl
    · exact hadvanced.le_head e he
    · exact hrecent.2
  · exact allTell_append_singleton h.allTell fun _ _ heq => by cases heq

/-- A reading that is not too late tells the recent past. -/
theorem tells (h : Sound w window entries) (hticks : 0 < w.bucketTicks) {reading : Nat}
    (hlate : window.headBucket ≤ w.bucketOf reading - window.complete (w.bucketOf reading) +
      buckets) :
    Tells w entries reading (window.eventsPerSecond (w.bucketOf reading)).2 := by
  have hadvanced := h.advanceTo (w.bucketOf reading)
  have hhead := RollingRateWindow.advanceTo_headBucket (w.bucketOf reading) window
  have hcomplete : (window.advanceTo (w.bucketOf reading)).complete (w.bucketOf reading) =
      window.complete (w.bucketOf reading) := by
    rw [RollingRateWindow.complete, RollingRateWindow.advanceTo_startBucket,
      RollingRateWindow.complete]
  have hle := RollingRateWindow.complete_le (w.bucketOf reading) window
  have hsum : (window.advanceTo (w.bucketOf reading)).sumSlots
      (w.bucketOf reading - window.complete (w.bucketOf reading))
      (window.complete (w.bucketOf reading)).toNat = tally (positions w entries) fun b =>
        w.bucketOf reading - window.complete (w.bucketOf reading) ≤ b &&
          b < w.bucketOf reading - window.complete (w.bucketOf reading) +
            (window.complete (w.bucketOf reading)).toNat :=
    RollingRateWindow.sumSlots_eq hadvanced.holds (by omega) (by omega)
  have hbuckets : (fun b : Int =>
      decide (w.bucketOf reading - window.complete (w.bucketOf reading) ≤ b) &&
        decide (b < w.bucketOf reading - window.complete (w.bucketOf reading) +
          (window.complete (w.bucketOf reading)).toNat)) =
      fun b => decide (w.bucketOf reading - window.complete (w.bucketOf reading) ≤ b) &&
        decide (b < w.bucketOf reading) := by
    funext b
    rw [Bool.eq_iff_iff]
    simp only [Bool.and_eq_true, decide_eq_true_eq]
    omega
  refine ⟨?_, ?_, ?_⟩
  · rw [RollingRateWindow.eventsPerSecond, hcomplete, RollingRateWindow.complete, h.startBucket_eq]
  · rw [RollingRateWindow.eventsPerSecond, hcomplete]
    dsimp only
    rw [hsum, hbuckets, tally_positions hticks]
  · rw [RollingRateWindow.eventsPerSecond, hadvanced.bucketTicks_eq]

end Sound

theorem construct_cases {now : Nat} {span : Int} {w : RollingRateWindow buckets}
    (h : RollingRateWindow.construct now span buckets = some w) :
    0 < w.bucketTicks ∧ Sound w w [] := by
  unfold RollingRateWindow.construct at h
  split_ifs at h
  cases h
  refine ⟨lt_of_lt_of_le one_pos (le_max_left _ _), rfl, rfl, fun b _ => rfl, ?_, allTell_nil _⟩
  simp [positions, applied]

section

variable {Thread : Type} [DecidableEq Thread]

/-- The oldest bucket that a call is about: the one it adds to, or the first that it reads. -/
def oldestBucket (w : RollingRateWindow buckets) : Call × Nat → Int
  | (.add _, reading) => w.bucketOf reading
  | (.eventsPerSecond, reading) => w.bucketOf reading - w.complete (w.bucketOf reading)

/-- A call takes the lock in time: the ring still holds the oldest bucket that it is about. -/
def InTime (p : Calls buckets Thread × List Entry) : Action Thread → Prop
  | .enter thread => ∀ call ∈ p.1.pending thread,
      p.1.window.headBucket ≤ oldestBucket p.1.window call + buckets
  | .tick _ | .read _ _ => True

instance (p : Calls buckets Thread × List Entry) : (a : Action Thread) → Decidable (InTime p a)
  | .enter thread => inferInstanceAs (Decidable (∀ call ∈ p.1.pending thread, _))
  | .tick _ | .read _ _ => inferInstanceAs (Decidable True)

/-- One step in time keeps what the ring tells. -/
theorem Sound.step {w : RollingRateWindow buckets} (hticks : 0 < w.bucketTicks) (now : Nat)
    (p : Calls buckets Thread × List Entry) (a : Action Thread)
    (q : Calls buckets Thread × List Entry) (h : Sound w p.1.window p.2) (htime : InTime p a)
    (hstep : (calls w now Thread).step p a = some q) : Sound w q.1.window q.2 := by
  obtain ⟨s, entries⟩ := p
  obtain ⟨t, entries'⟩ := q
  obtain ⟨hs, hentries⟩ := (Machine.withHistory_step _).mp hstep
  dsimp only at hs hentries h htime ⊢
  subst hentries
  cases a with
  | tick now =>
    simp only [Calls.step] at hs
    split_ifs at hs
    cases hs
    exact h
  | read thread call =>
    simp only [Calls.step] at hs
    split_ifs at hs <;> cases hs <;> exact h
  | enter thread =>
    simp only [Calls.step, InTime, Calls.record] at hs htime ⊢
    split at hs
    · cases hs
    · next count reading hpending =>
      cases hs
      have hlate := htime _ hpending
      simp only [oldestBucket] at hlate
      dsimp only
      rw [h.bucketOf_eq] at hlate ⊢
      exact h.add count hlate
    · next reading hpending =>
      cases hs
      have hlate := htime _ hpending
      simp only [oldestBucket] at hlate
      dsimp only
      rw [h.bucketOf_eq] at hlate ⊢
      have hadvanced := h.advanceTo (w.bucketOf reading)
      refine ⟨hadvanced.bucketTicks_eq, hadvanced.startBucket_eq, ?_, ?_, ?_⟩
      · rw [positions_append_reported]
        exact hadvanced.holds
      · rw [positions_append_reported]
        exact hadvanced.le_head
      · refine allTell_append_singleton h.allTell fun reading' report heq => ?_
        cases heq
        exact h.tells hticks hlate

/-- In every run whose calls take the lock in time, every report tells the recent past, and every
bucket of the ring has what was added in it. -/
theorem reports_tell {now : Nat} {span : Int} {w : RollingRateWindow buckets}
    (h : RollingRateWindow.construct now span buckets = some w)
    {actions : List (Action Thread)} {s : Calls buckets Thread} {entries : List Entry}
    (htime : (calls w now Thread).Guarded InTime (calls w now Thread).init actions)
    (hrun : (calls w now Thread).run actions = some (s, entries)) :
    AllTell w entries ∧ ∀ b, s.window.headBucket - buckets ≤ b → b ≤ s.window.headBucket →
      s.window.counts (RollingRateWindow.slot b) =
        addedBetween entries (b * w.bucketTicks) ((b + 1) * w.bucketTicks) := by
  obtain ⟨hticks, hinit⟩ := construct_cases h
  have hsound : Sound w s.window entries :=
    Machine.run_invariant_of_guarded (I := fun p => Sound w p.1.window p.2) hinit
      (Sound.step hticks now) htime hrun
  refine ⟨hsound.allTell, fun b hlo hhi => ?_⟩
  rw [RollingRateWindow.slot_eq, hsound.holds b ⟨by omega, hhi⟩, ← tally_positions hticks, tallyAt]
  congr 1
  funext c
  rw [Bool.eq_iff_iff]
  simp only [Bool.and_eq_true, decide_eq_true_eq]
  omega

end

/-- A batch is added in the first bucket, and the rate is read in the second. -/
def addedThenRead : List (Action Bool) :=
  [.tick 2000000, .read false (.add 125), .enter false, .tick 7000000,
    .read true .eventsPerSecond, .enter true]

theorem reports_tell_addedThenRead :
    ∃ w s entries, RollingRateWindow.construct 0 50000000 10 = some w ∧
      (calls w 0 Bool).run addedThenRead = some (s, entries) ∧ AllTell w entries ∧
      ∀ b, s.window.headBucket - 10 ≤ b → b ≤ s.window.headBucket →
        s.window.counts (RollingRateWindow.slot b) =
          addedBetween entries (b * w.bucketTicks) ((b + 1) * w.bucketTicks) := by
  have hw : ∃ w, RollingRateWindow.construct 0 50000000 10 = some w ∧
      ∃ s entries, (calls w 0 Bool).run addedThenRead = some (s, entries) ∧
        (calls w 0 Bool).Guarded InTime (calls w 0 Bool).init addedThenRead := by
    exact ⟨_, rfl, _, _, rfl, by decide +kernel⟩
  obtain ⟨w, hw, s, entries, hrun, htime⟩ := hw
  exact ⟨w, s, entries, hw, hrun, reports_tell hw htime hrun⟩

/-- A reader that is overtaken by an addition of the next bucket takes it for an old one. -/
def overtaken : List (Action Bool) :=
  [.tick 54999999, .read true .eventsPerSecond, .tick 55000000, .read false (.add 125),
    .enter false, .enter true]

theorem not_reports_tell : ¬ ∀ (buckets : Nat) (now : Nat) (span : Int)
    (w : RollingRateWindow buckets) (actions : List (Action Bool)) (s : Calls buckets Bool)
    (entries : List Entry), RollingRateWindow.construct now span buckets = some w →
    (calls w now Bool).run actions = some (s, entries) → AllTell w entries := by
  intro h
  have htells := h 10 0 50000000 _ overtaken _ _ rfl rfl [.added 55000000 125] 54999999
    ⟨10, 125, 25⟩ [] (by decide +kernel)
  exact absurd htells.total_eq (by decide +kernel)

end Tckr.Diagnostics
