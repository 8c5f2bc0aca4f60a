import Mathlib.Tactic.Linarith
import Tckr.Core.Numbering
import Tckr.FeedProbe.ProbeSession

/-!
# The probe's loss count

The probe compares a number with the last one, not with the highest. Its loss count is
the sum of the holes below each new highest number as long as the numbers do not rise
again after a step back; from there on a hole is counted again.
-/

namespace Tckr.FeedProbe

open Protocol

/-! ## The numbers of a stream -/

/-- The numbers of the ticks among messages, in order. -/
def tickNumbers (stream : List (FeedMessage × Stamps)) : List UInt64 :=
  stream.filterMap fun
    | (.tick record, _) => some record.sequenceNumber
    | _ => none

/-- The last number and the records lost after numbers. -/
def track (numbers : List UInt64) : UInt64 × UInt64 :=
  numbers.foldl (fun p x => (x, match sequenceVerdict p.1 x with
    | .gap size => p.2 + size
    | .violation | .expected => p.2)) (0, 0)

theorem track_append_singleton (numbers : List UInt64) (x : UInt64) :
    track (numbers ++ [x]) = (x, match sequenceVerdict (track numbers).1 x with
      | .gap size => (track numbers).2 + size
      | .violation | .expected => (track numbers).2) := List.foldl_append

namespace ProbeSession

variable (s : ProbeSession)

theorem checkSequence_sequence (x : UInt64) :
    (s.checkSequence x).lastTickSequence = x ∧
      (s.checkSequence x).recordsLost = (match sequenceVerdict s.lastTickSequence x with
        | .gap size => s.recordsLost + size
        | .violation | .expected => s.recordsLost) ∧
      (s.checkSequence x).eventsReceived = s.eventsReceived := by
  unfold checkSequence
  cases sequenceVerdict s.lastTickSequence x <;> exact ⟨rfl, rfl, rfl⟩

theorem checkTimestampOrder_sequence (record : FeedRecord) :
    (s.checkTimestampOrder record).lastTickSequence = s.lastTickSequence ∧
      (s.checkTimestampOrder record).recordsLost = s.recordsLost ∧
      (s.checkTimestampOrder record).eventsReceived = s.eventsReceived := by
  unfold checkTimestampOrder
  split
  · cases s.lastTimestampNanos.get? record.symbol with
    | none => exact ⟨rfl, rfl, rfl⟩
    | some previous =>
      dsimp only
      split <;> exact ⟨rfl, rfl, rfl⟩
  · exact ⟨rfl, rfl, rfl⟩

/-- What a tick does to the numbers. -/
theorem noteTick_sequence (record : FeedRecord) (stamps : Stamps) :
    (s.noteTick record stamps).lastTickSequence = record.sequenceNumber ∧
      (s.noteTick record stamps).recordsLost =
        (match sequenceVerdict s.lastTickSequence record.sequenceNumber with
        | .gap size => s.recordsLost + size
        | .violation | .expected => s.recordsLost) ∧
      (s.noteTick record stamps).eventsReceived = s.eventsReceived + 1 := by
  have hchecked := (s.countTick record).checkSequence_sequence record.sequenceNumber
  have hordered := checkTimestampOrder_sequence
    (((s.countTick record).checkSequence record.sequenceNumber).sample record stamps) record
  exact ⟨hordered.1.trans hchecked.1, hordered.2.1.trans hchecked.2.1,
    hordered.2.2.trans hchecked.2.2⟩

/-- A heartbeat leaves the numbers alone. -/
theorem noteHeartbeat_sequence (stamps : Stamps) :
    (s.noteHeartbeat stamps).lastTickSequence = s.lastTickSequence ∧
      (s.noteHeartbeat stamps).recordsLost = s.recordsLost ∧
      (s.noteHeartbeat stamps).eventsReceived = s.eventsReceived := by
  unfold noteHeartbeat
  cases s.lastHeartbeatAt <;> exact ⟨rfl, rfl, rfl⟩

theorem noteAll_append (before after : List (FeedMessage × Stamps)) :
    s.noteAll (before ++ after) = match s.noteAll before with
      | .error e => .error e
      | .ok t => t.noteAll after := by
  induction before generalizing s with
  | nil => rfl
  | cons m before ih =>
    obtain ⟨message, stamps⟩ := m
    rw [List.cons_append, noteAll, noteAll]
    cases s.note message stamps with
    | error e => rfl
    | ok t => exact ih t

/-- A prefix of a stream that is taken in is taken in. -/
theorem exists_noteAll {s t : ProbeSession} {before after : List (FeedMessage × Stamps)}
    (h : s.noteAll (before ++ after) = .ok t) :
    ∃ u, s.noteAll before = .ok u ∧ u.noteAll after = .ok t := by
  rw [noteAll_append] at h
  cases hu : s.noteAll before with
  | error e =>
    rw [hu] at h
    cases h
  | ok u =>
    rw [hu] at h
    exact ⟨u, rfl, h⟩

end ProbeSession

/-- A fresh session keeps of a stream the track of its numbers. -/
theorem track_eq {options : ProbeSession} (hlast : options.lastTickSequence = 0)
    (hlost : options.recordsLost = 0) (hevents : options.eventsReceived = 0)
    {stream : List (FeedMessage × Stamps)} {s : ProbeSession} (h : options.noteAll stream = .ok s) :
    track (tickNumbers stream) = (s.lastTickSequence, s.recordsLost) ∧
      s.eventsReceived = UInt64.ofNat (tickNumbers stream).length := by
  induction stream using List.reverseRecOn generalizing s with
  | nil =>
    cases h
    exact ⟨by rw [hlast, hlost]; rfl, hevents⟩
  | append_singleton stream m ih =>
    obtain ⟨u, hu, hm⟩ := ProbeSession.exists_noteAll h
    obtain ⟨htrack, hcount⟩ := ih hu
    obtain ⟨message, stamps⟩ := m
    cases message with
    | tick record =>
      cases hm
      obtain ⟨hs, hl, he⟩ := u.noteTick_sequence record stamps
      have hnumbers : tickNumbers (stream ++ [(.tick record, stamps)]) =
          tickNumbers stream ++ [record.sequenceNumber] := by
        simp [tickNumbers, List.filterMap_append]
      rw [hnumbers, track_append_singleton, htrack]
      refine ⟨Prod.ext hs.symm hl.symm, ?_⟩
      rw [he, hcount, List.length_append, List.length_singleton, UInt64.ofNat_add]
      rfl
    | heartbeat lastSeq timestampNanos =>
      cases hm
      obtain ⟨hs, hl, he⟩ := u.noteHeartbeat_sequence stamps
      have hnumbers : tickNumbers (stream ++ [(.heartbeat lastSeq timestampNanos, stamps)]) =
          tickNumbers stream := by
        simp [tickNumbers, List.filterMap_append]
      rw [hnumbers, htrack, hs, hl, he]
      exact ⟨rfl, hcount⟩
    | sessionStart sessionId heartbeatMs startNanos => cases hm

/-! ## One number more -/

/-- The numbers as they count. -/
def values (numbers : List UInt64) : List Nat := numbers.map UInt64.toNat

@[simp] theorem values_append_singleton (numbers : List UInt64) (x : UInt64) :
    values (numbers ++ [x]) = values numbers ++ [x.toNat] := by
  simp [values]

/-- After a number the count is exact, and the number was taken for what it is. -/
def ExactAt (numbers : List UInt64) (x : UInt64) : Prop :=
  (track (numbers ++ [x])).2.toNat = holes (values (numbers ++ [x])) ∧
    (x.toNat ≤ highest (values numbers) → sequenceVerdict (track numbers).1 x = .violation)

/-- A number does not rise after a step back, nor follow the largest number there is. -/
def OrderlyAt (numbers : List UInt64) (x : UInt64) : Prop :=
  ∀ last ∈ numbers.getLast?, last.toNat ≠ 18446744073709551615 ∧
    (last < x → ∀ y ∈ numbers, y ≤ last)

theorem highest_values_lt (numbers : List UInt64) :
    highest (values numbers) < 18446744073709551616 := by
  rcases highest_mem (values numbers) with hmem | hzero
  · obtain ⟨x, -, hx⟩ := List.mem_map.mp hmem
    rw [← hx]
    exact x.toNat_lt
  · omega

/-- The last number is a highest so far, or lies below it. -/
theorem track_fst_cases (numbers : List UInt64) :
    (numbers = [] ∧ (track numbers).1 = 0) ∨
      ∃ last, numbers.getLast? = some last ∧ (track numbers).1 = last ∧
        last.toNat ≤ highest (values numbers) ∧
        ((∀ y ∈ numbers, y ≤ last) ↔ highest (values numbers) = last.toNat) := by
  induction numbers using List.reverseRecOn with
  | nil => exact .inl ⟨rfl, rfl⟩
  | append_singleton numbers x ih =>
    refine .inr ⟨x, by simp, by rw [track_append_singleton], ?_, ?_⟩
    · rw [values_append_singleton]
      exact le_highest (by simp)
    · constructor
      · intro hall
        have hle : highest (values (numbers ++ [x])) ≤ x.toNat := by
          rcases highest_mem (values (numbers ++ [x])) with hmem | hzero
          · obtain ⟨y, hy, heq⟩ := List.mem_map.mp hmem
            rw [← heq]
            exact UInt64.le_iff_toNat_le.mp (hall y hy)
          · omega
        exact le_antisymm hle (le_highest (by simp))
      · intro heq y hy
        rw [UInt64.le_iff_toNat_le, ← heq]
        exact le_highest (List.mem_map_of_mem hy)

/-- Below the largest number a verdict compares without wrapping. -/
theorem sequenceVerdict_cases {last : UInt64} (hlast : last.toNat ≠ 18446744073709551615)
    (x : UInt64) :
    (last.toNat + 1 < x.toNat ∧ ∃ size : UInt64, size.toNat = x.toNat - (last.toNat + 1) ∧
      sequenceVerdict last x = .gap size) ∨
    (x.toNat ≤ last.toNat ∧ sequenceVerdict last x = .violation) ∨
    x.toNat = last.toNat + 1 ∧ sequenceVerdict last x = .expected := by
  have hlt := last.toNat_lt
  have hexpected : (last + 1).toNat = last.toNat + 1 := by
    rw [UInt64.toNat_add, UInt64.toNat_one]
    omega
  unfold sequenceVerdict
  dsimp only
  split_ifs with hgap hback
  · rw [UInt64.lt_iff_toNat_lt, hexpected] at hgap
    refine .inl ⟨hgap, x - (last + 1), ?_, rfl⟩
    rw [UInt64.toNat_sub_of_le _ _ (UInt64.le_iff_toNat_le.mpr (by omega)), hexpected]
  · rw [UInt64.lt_iff_toNat_lt, hexpected] at hback
    exact .inr (.inl ⟨by omega, rfl⟩)
  · rw [UInt64.lt_iff_toNat_lt, hexpected] at hgap hback
    exact .inr (.inr ⟨by omega, rfl⟩)

/-- After the largest number nothing is taken for a violation. -/
theorem sequenceVerdict_ne_violation {last : UInt64} (hlast : last.toNat = 18446744073709551615)
    (x : UInt64) : sequenceVerdict last x ≠ .violation := by
  have hexpected : last + 1 = 0 := by
    apply UInt64.toNat_inj.mp
    rw [UInt64.toNat_add, UInt64.toNat_one, hlast]
    rfl
  have hnot : ¬ x < 0 := UInt64.not_lt_zero
  unfold sequenceVerdict
  dsimp only
  rw [hexpected, if_neg hnot]
  split <;> exact SequenceVerdict.noConfusion

/-- In order, by the last number and the highest. -/
theorem orderlyAt_iff (numbers : List UInt64) (x : UInt64) :
    OrderlyAt numbers x ↔ (track numbers).1.toNat ≠ 18446744073709551615 ∧
      ((track numbers).1.toNat < x.toNat →
        highest (values numbers) = (track numbers).1.toNat) := by
  rcases track_fst_cases numbers with ⟨rfl, hzero⟩ | ⟨last, hlast, htrack, -, hall⟩
  · rw [hzero]
    exact iff_of_true (fun last hlast => by cases hlast) ⟨by decide, fun _ => rfl⟩
  · rw [htrack, ← hall, ← UInt64.lt_iff_toNat_lt]
    constructor
    · exact fun h => h last hlast
    · intro h last' hlast'
      obtain rfl : last = last' := Option.some.inj (hlast.symm.trans hlast')
      exact h

/-- While the count is exact, it stays so exactly when the next number is in order. -/
theorem exactAt_iff {numbers : List UInt64} {x : UInt64}
    (h : (track numbers).2.toNat = holes (values numbers)) :
    ExactAt numbers x ↔ OrderlyAt numbers x := by
  have hle : (track numbers).1.toNat ≤ highest (values numbers) := by
    rcases track_fst_cases numbers with ⟨-, hzero⟩ | ⟨last, -, htrack, hlast, -⟩
    · rw [hzero]
      exact Nat.zero_le _
    · rwa [htrack]
  have hhighest := highest_values_lt numbers
  have hholes := holes_le_highest (values numbers)
  have hx := x.toNat_lt
  rw [orderlyAt_iff, ExactAt, track_append_singleton, values_append_singleton,
    holes_append_singleton, ← h]
  rw [← h] at hholes
  by_cases hmax : (track numbers).1.toNat = 18446744073709551615
  · refine iff_of_false (fun hexact => ?_) fun horder => horder.1 hmax
    exact sequenceVerdict_ne_violation hmax x (hexact.2 (by omega))
  rcases sequenceVerdict_cases hmax x with ⟨hgap, size, hsize, hverdict⟩ | ⟨hback, hverdict⟩ |
    ⟨hnext, hverdict⟩
  · have hadd : ((track numbers).2 + size).toNat =
        ((track numbers).2.toNat + (x.toNat - ((track numbers).1.toNat + 1))) % 2 ^ 64 := by
      rw [UInt64.toNat_add, hsize]
    simp only [hverdict, hadd, reduceCtorEq, imp_false, not_le]
    constructor
    · exact fun ⟨hcount, habove⟩ => ⟨hmax, fun _ => by omega⟩
    · exact fun ⟨_, hlast⟩ => by
        have hsame := hlast (by omega)
        exact ⟨by omega, by omega⟩
  · simp only [hverdict]
    exact iff_of_true ⟨by omega, fun _ => trivial⟩ ⟨hmax, fun hlt => by omega⟩
  · simp only [hverdict, reduceCtorEq, imp_false, not_le]
    constructor
    · exact fun ⟨_, habove⟩ => ⟨hmax, fun _ => by omega⟩
    · exact fun ⟨_, hlast⟩ => by
        have hsame := hlast (by omega)
        exact ⟨by omega, by omega⟩

/-! ## Streams -/

/-- A property of every number of a list, with the numbers before it. -/
def Throughout (P : List UInt64 → UInt64 → Prop) (numbers : List UInt64) : Prop :=
  ∀ before x after, numbers = before ++ x :: after → P before x

theorem throughout_append_singleton {P : List UInt64 → UInt64 → Prop} {numbers : List UInt64}
    {x : UInt64} : Throughout P (numbers ++ [x]) ↔ Throughout P numbers ∧ P numbers x := by
  constructor
  · intro h
    refine ⟨fun before y after heq => ?_, h numbers x [] rfl⟩
    exact h before y (after ++ [x]) (by rw [heq, List.append_assoc]; rfl)
  · rintro ⟨hnumbers, hx⟩ before y after heq
    rcases List.eq_nil_or_concat after with rfl | ⟨after, z, rfl⟩
    · obtain ⟨rfl, hy⟩ := List.append_inj' heq rfl
      obtain ⟨rfl, -⟩ := List.cons.inj hy
      exact hx
    · have hsplit : numbers ++ [x] = (before ++ y :: after) ++ [z] := by
        rw [heq, List.concat_eq_append, List.append_assoc]
        rfl
      exact hnumbers before y after (List.append_inj' hsplit rfl).1

/-- The count is exact throughout exactly when the numbers are in order throughout. -/
theorem throughout_iff (numbers : List UInt64) :
    (Throughout ExactAt numbers ↔ Throughout OrderlyAt numbers) ∧
      (Throughout ExactAt numbers → (track numbers).2.toNat = holes (values numbers)) := by
  induction numbers using List.reverseRecOn with
  | nil =>
    have hnil (P : List UInt64 → UInt64 → Prop) : Throughout P [] := by
      intro before x after heq
      simp at heq
    exact ⟨iff_of_true (hnil _) (hnil _), fun _ => rfl⟩
  | append_singleton numbers x ih =>
    obtain ⟨hiff, hcount⟩ := ih
    rw [throughout_append_singleton, throughout_append_singleton, ← hiff]
    exact ⟨and_congr_right fun hexact => exactAt_iff (hcount hexact), fun h => h.2.1⟩

/-- A number of a stream is a tick's, with the messages before and after it. -/
theorem tickNumbers_eq_append_iff {stream : List (FeedMessage × Stamps)}
    {numbers numbers' : List UInt64} {x : UInt64} :
    tickNumbers stream = numbers ++ x :: numbers' ↔ ∃ before record stamps after,
      stream = before ++ (.tick record, stamps) :: after ∧ tickNumbers before = numbers ∧
        record.sequenceNumber = x ∧ tickNumbers after = numbers' := by
  constructor
  · intro h
    obtain ⟨before, rest, rfl, hbefore, hrest⟩ := List.filterMap_eq_append_iff.mp h
    obtain ⟨quiet, ⟨message, stamps⟩, after, rfl, hquiet, hx, hafter⟩ :=
      List.filterMap_eq_cons_iff.mp hrest
    cases message with
    | tick record =>
      refine ⟨before ++ quiet, record, stamps, after, by simp, ?_, Option.some.inj hx, hafter⟩
      have hnone : tickNumbers quiet = [] := List.filterMap_eq_nil_iff.mpr hquiet
      rw [tickNumbers, List.filterMap_append, ← tickNumbers, ← tickNumbers, hnone,
        List.append_nil]
      exact hbefore
    | heartbeat lastSeq timestampNanos => cases hx
    | sessionStart sessionId heartbeatMs startNanos => cases hx
  · rintro ⟨before, record, stamps, after, rfl, rfl, rfl, rfl⟩
    rw [tickNumbers, List.filterMap_append]
    rfl

/-- A session that has seen nothing. -/
def ProbeSession.start (verifyOrder : Bool) (heartbeatIntervalMs : UInt32) : ProbeSession :=
  { verifyOrder, heartbeatIntervalMs }

/-- After every tick the records lost are the holes below the new highest numbers, and a tick at or
below the highest number is taken for a violation. -/
def CountsLoss (start : ProbeSession) (stream : List (FeedMessage × Stamps)) : Prop :=
  ∀ before record stamps after, stream = before ++ (.tick record, stamps) :: after →
    ∀ s, start.noteAll before = .ok s →
      (s.noteTick record stamps).recordsLost.toNat =
        holes (values (tickNumbers before ++ [record.sequenceNumber])) ∧
      (record.sequenceNumber.toNat ≤ highest (values (tickNumbers before)) →
        sequenceVerdict s.lastTickSequence record.sequenceNumber = .violation)

theorem track_start {verifyOrder : Bool} {heartbeatIntervalMs : UInt32}
    {stream : List (FeedMessage × Stamps)} {s : ProbeSession}
    (h : (ProbeSession.start verifyOrder heartbeatIntervalMs).noteAll stream = .ok s) :
    track (tickNumbers stream) = (s.lastTickSequence, s.recordsLost) ∧
      s.eventsReceived = UInt64.ofNat (tickNumbers stream).length :=
  track_eq rfl rfl rfl h

/-- What a session counts is what its numbers say. -/
theorem countsLoss_iff_throughout {verifyOrder : Bool} {heartbeatIntervalMs : UInt32}
    {stream : List (FeedMessage × Stamps)} {t : ProbeSession}
    (h : (ProbeSession.start verifyOrder heartbeatIntervalMs).noteAll stream = .ok t) :
    CountsLoss (ProbeSession.start verifyOrder heartbeatIntervalMs) stream ↔
      Throughout ExactAt (tickNumbers stream) := by
  have hat {before : List (FeedMessage × Stamps)} {record : FeedRecord} {stamps : Stamps}
      {s : ProbeSession}
      (hs : (ProbeSession.start verifyOrder heartbeatIntervalMs).noteAll before = .ok s) :
      ExactAt (tickNumbers before) record.sequenceNumber ↔
        (s.noteTick record stamps).recordsLost.toNat =
          holes (values (tickNumbers before ++ [record.sequenceNumber])) ∧
        (record.sequenceNumber.toNat ≤ highest (values (tickNumbers before)) →
          sequenceVerdict s.lastTickSequence record.sequenceNumber = .violation) := by
    have htrack := (track_start hs).1
    rw [ExactAt, track_append_singleton, htrack, ← (s.noteTick_sequence record stamps).2.1]
  constructor
  · intro hcounts numbers x numbers' heq
    obtain ⟨before, record, stamps, after, rfl, rfl, rfl, -⟩ := tickNumbers_eq_append_iff.mp heq
    obtain ⟨s, hs, -⟩ := ProbeSession.exists_noteAll h
    exact (hat hs).mpr (hcounts before record stamps after rfl s hs)
  · intro hexact before record stamps after heq s hs
    refine (hat hs).mp (hexact _ _ (tickNumbers after) ?_)
    exact tickNumbers_eq_append_iff.mpr ⟨before, record, stamps, after, heq, rfl, rfl, rfl⟩

theorem throughout_orderlyAt_of_pairwise {numbers : List UInt64}
    (h : numbers.Pairwise (· < ·)) : Throughout OrderlyAt numbers := by
  rintro before x after rfl last hlast
  obtain ⟨hbefore, -, hlater⟩ := List.pairwise_append.mp h
  have hlt : last < x := hlater last (List.mem_of_getLast? hlast) x List.mem_cons_self
  refine ⟨fun hmax => ?_, fun _ y hy => ?_⟩
  · have hx := x.toNat_lt
    rw [UInt64.lt_iff_toNat_lt] at hlt
    omega
  · rw [← List.dropLast_append_getLast? last hlast] at hy hbefore
    rcases List.mem_append.mp hy with hy | hy
    · exact UInt64.le_of_lt
        ((List.pairwise_append.mp hbefore).2.2 y hy last (List.mem_singleton_self last))
    · rw [List.mem_singleton.mp hy]
      exact UInt64.le_refl last

/-- A trade of `COMI` with a number. -/
def comiTrade (sequenceNumber : UInt64) : FeedMessage × Stamps :=
  (.tick
    { messageType := .trade, flags := 0, quantity := 100, sequenceNumber
      exchangeTimestampNanos := 0, priceScaled := 8000, symbol := ⟨0x20202020494D4F43⟩ },
    { nowMonoTicks := 0, nowWallNanos := 0, now := 0 })

end Tckr.FeedProbe
