import Mathlib.Logic.Function.Iterate

/-!
# The generator's randomness

xoshiro256** seeded by SplitMix64. Every draw moves the four words of the state by a
bijection, so the state of zeros is reached from itself alone, and no seed starts there.
-/

namespace Tckr.Generation

/-- The four words of the state. -/
@[ext]
structure Xoshiro256StarStar where
  s0 : UInt64
  s1 : UInt64
  s2 : UInt64
  s3 : UInt64
  deriving DecidableEq, Repr

/-- SplitMix64's golden-ratio increment. -/
def splitMixGamma : UInt64 := 0x9E3779B97F4A7C15

/-- One SplitMix64 step: the word, and the mixer after it. -/
def nextSplitMix (state : UInt64) : UInt64 × UInt64 :=
  let state := state + splitMixGamma
  let z := (state ^^^ (state >>> 30)) * 0xBF58476D1CE4E5B9
  let z := (z ^^^ (z >>> 27)) * 0x94D049BB133111EB
  (z ^^^ (z >>> 31), state)

/-- `BitOperations.RotateLeft` -/
def rotateLeft (value offset : UInt64) : UInt64 := (value <<< offset) ||| (value >>> (64 - offset))

namespace Xoshiro256StarStar

/-- The state of zeros. -/
def zero : Xoshiro256StarStar := ⟨0, 0, 0, 0⟩

def ofSeed (seed : UInt64) : Xoshiro256StarStar :=
  let (s0, mixer) := nextSplitMix seed
  let (s1, mixer) := nextSplitMix mixer
  let (s2, mixer) := nextSplitMix mixer
  let (s3, _) := nextSplitMix mixer
  if s0 ||| s1 ||| s2 ||| s3 = 0 then ⟨s0, s1, s2, splitMixGamma⟩ else ⟨s0, s1, s2, s3⟩

/-- The draw, and the state after it. -/
def nextUInt64 (s : Xoshiro256StarStar) : UInt64 × Xoshiro256StarStar :=
  let result := rotateLeft (s.s1 * 5) 7 * 9
  let t := s.s1 <<< 17
  let s2 := s.s2 ^^^ s.s0
  let s3 := s.s3 ^^^ s.s1
  let s1 := s.s1 ^^^ s2
  let s0 := s.s0 ^^^ s3
  let s2 := s2 ^^^ t
  let s3 := rotateLeft s3 45
  (result, ⟨s0, s1, s2, s3⟩)

/-- The state after a draw. -/
def advance (s : Xoshiro256StarStar) : Xoshiro256StarStar := s.nextUInt64.2

/-- The first draws of the seed zero. -/
example : (List.range 4).map (fun k => (advance^[k] (ofSeed 0)).nextUInt64.1) =
    [0x99EC5F36CB75F2B4, 0xBF6E1F784956452A, 0x1A5F849D4933E6E0, 0x6AA594F1262D2D2C] := by
  decide +kernel

/-! ## The transition is a bijection -/

/-- The rotation the other way. -/
def rotateRight (value offset : UInt64) : UInt64 := (value >>> offset) ||| (value <<< (64 - offset))

/-- What a word was before it was mixed with itself 17 places to the left. -/
def unmix (y : UInt64) : UInt64 := y ^^^ (y <<< 17) ^^^ (y <<< 34) ^^^ (y <<< 51)

/-- The state before a draw. -/
def rewind (s : Xoshiro256StarStar) : Xoshiro256StarStar :=
  let s3 := rotateRight s.s3 45
  let s0 := s.s0 ^^^ s3
  let s1 := unmix (s.s1 ^^^ s.s2)
  let s2 := s.s1 ^^^ s1
  ⟨s0, s1, s2 ^^^ s0, s3 ^^^ s1⟩

theorem rotateRight_rotateLeft (x : UInt64) : rotateRight (rotateLeft x 45) 45 = x := by
  apply UInt64.toBitVec_inj.mp
  apply BitVec.eq_of_getLsbD_eq
  intro i hi
  simp [rotateLeft, rotateRight]
  grind

theorem rotateLeft_rotateRight (x : UInt64) : rotateLeft (rotateRight x 45) 45 = x := by
  apply UInt64.toBitVec_inj.mp
  apply BitVec.eq_of_getLsbD_eq
  intro i hi
  simp [rotateLeft, rotateRight]
  grind

/-- What is shifted out is lost, and all else is mixed in twice. -/
theorem unmix_mix (x : UInt64) : unmix (x ^^^ (x <<< 17)) = x := by
  have hlost : x.toBitVec <<< 68 = 0#64 := BitVec.shiftLeft_eq_zero (by decide)
  apply UInt64.toBitVec_inj.mp
  simp [unmix, BitVec.shiftLeft_xor_distrib, ← BitVec.shiftLeft_add]
  grind

theorem mix_unmix (y : UInt64) : unmix y ^^^ (unmix y <<< 17) = y := by
  have hlost : y.toBitVec <<< 68 = 0#64 := BitVec.shiftLeft_eq_zero (by decide)
  apply UInt64.toBitVec_inj.mp
  simp [unmix, BitVec.shiftLeft_xor_distrib, ← BitVec.shiftLeft_add]
  grind

theorem xor_xor_cancel (x y : UInt64) : x ^^^ (x ^^^ y) = y := by
  rw [← UInt64.xor_assoc, UInt64.xor_self, UInt64.zero_xor]

theorem xor_xor_cancel_right (x y : UInt64) : (x ^^^ y) ^^^ y = x := by
  rw [UInt64.xor_assoc, UInt64.xor_self, UInt64.xor_zero]

theorem rewind_advance (s : Xoshiro256StarStar) : s.advance.rewind = s := by
  have hs0 : s.s0 ^^^ (s.s3 ^^^ s.s1) ^^^ (s.s3 ^^^ s.s1) = s.s0 := xor_xor_cancel_right _ _
  have hs1 : unmix (s.s1 ^^^ (s.s2 ^^^ s.s0) ^^^ (s.s2 ^^^ s.s0 ^^^ s.s1 <<< 17)) = s.s1 := by
    rw [UInt64.xor_assoc, xor_xor_cancel, unmix_mix]
  ext : 1
  · simp [advance, nextUInt64, rewind, rotateRight_rotateLeft, hs0]
  · simp [advance, nextUInt64, rewind, hs1]
  · simp only [advance, nextUInt64, rewind, rotateRight_rotateLeft, hs0, hs1]
    rw [UInt64.xor_comm s.s1, xor_xor_cancel_right, xor_xor_cancel_right]
  · simp only [advance, nextUInt64, rewind, rotateRight_rotateLeft, hs1]
    exact xor_xor_cancel_right _ _

theorem advance_rewind (s : Xoshiro256StarStar) : s.rewind.advance = s := by
  ext : 1
  · simp only [advance, nextUInt64, rewind]
    rw [xor_xor_cancel_right, xor_xor_cancel_right]
  · simp only [advance, nextUInt64, rewind]
    rw [xor_xor_cancel_right, UInt64.xor_comm s.s1 (unmix _), xor_xor_cancel]
  · simp only [advance, nextUInt64, rewind]
    rw [xor_xor_cancel_right, UInt64.xor_assoc, mix_unmix, xor_xor_cancel]
  · simp only [advance, nextUInt64, rewind]
    rw [xor_xor_cancel_right, rotateLeft_rotateRight]

/-- No state is lost and none is reached twice. -/
theorem advance_bijective : Function.Bijective advance :=
  Function.bijective_iff_has_inverse.mpr ⟨rewind, rewind_advance, advance_rewind⟩

theorem advance_zero : advance zero = zero := by
  decide +kernel

theorem advance_eq_zero_iff (s : Xoshiro256StarStar) : s.advance = zero ↔ s = zero := by
  constructor
  · intro h
    exact advance_bijective.injective (h.trans advance_zero.symm)
  · rintro rfl
    exact advance_zero

/-- Where the mixer gives four zeros, its increment is put in the last word. -/
theorem ofSeed_ne_zero (seed : UInt64) : ofSeed seed ≠ zero := by
  intro h
  simp only [ofSeed] at h
  split at h
  · have hgamma : splitMixGamma = 0 := congrArg s3 h
    exact absurd hgamma (by decide)
  · next hmixed =>
    simp only [zero, mk.injEq] at h
    obtain ⟨h0, h1, h2, h3⟩ := h
    exact hmixed (by simp [h0, h1, h2, h3])

theorem iterate_advance_ne_zero {s : Xoshiro256StarStar} (hs : s ≠ zero) (draws : Nat) :
    advance^[draws] s ≠ zero := by
  induction draws with
  | zero => exact hs
  | succ draws ih =>
    rw [Function.iterate_succ_apply', ne_eq, advance_eq_zero_iff]
    exact ih

/-- The transition permutes the states, none but the state of zeros is followed by it, and
no seed and no number of draws leads there. -/
theorem never_zero :
    Function.Bijective advance ∧ (∀ s : Xoshiro256StarStar, s.advance = zero ↔ s = zero) ∧
      ∀ (seed : UInt64) (draws : Nat), advance^[draws] (ofSeed seed) ≠ zero :=
  ⟨advance_bijective, advance_eq_zero_iff,
    fun seed => iterate_advance_ne_zero (ofSeed_ne_zero seed)⟩

end Xoshiro256StarStar

end Tckr.Generation
