import Mathlib.Data.Nat.Basic
import Mathlib.Data.List.Basic
import Mathlib.Tactic.Ring

/-!
# Fixed-width integers as bytes

The base-256 digits of a natural number, least significant first and cut to a
fixed width. Reading a field back gives the number modulo the width, and writing
what was read gives the bytes, so every fixed-width machine integer has exactly
one field. The typed readers take the leading bytes of a longer span, as a binary
reader that is handed the rest of a payload does.
-/

namespace Tckr

/-- A byte string. -/
abbrev Bytes := List UInt8

/-- The `n` least significant base-256 digits of `v`, least significant first. -/
def littleEndian : Nat → Nat → Bytes
  | 0, _ => []
  | n + 1, v => UInt8.ofNat v :: littleEndian n (v / 256)

/-- The number whose base-256 digits are the given bytes, least significant first. -/
def ofLittleEndian : Bytes → Nat
  | [] => 0
  | b :: bs => b.toNat + 256 * ofLittleEndian bs

@[simp] theorem littleEndian_length (n v : Nat) : (littleEndian n v).length = n := by
  induction n generalizing v with
  | zero => rfl
  | succ n ih => rw [littleEndian, List.length_cons, ih]

/-- Reading a field gives the written number modulo the field's width. -/
theorem ofLittleEndian_littleEndian (n v : Nat) :
    ofLittleEndian (littleEndian n v) = v % 256 ^ n := by
  induction n generalizing v with
  | zero => simp only [littleEndian, ofLittleEndian, pow_zero, Nat.mod_one]
  | succ n ih =>
      have hb : (UInt8.ofNat v).toNat = v % 256 := UInt8.toNat_ofNat'
      rw [littleEndian, ofLittleEndian, ih, hb, pow_succ', Nat.mod_mul]

/-- A field of `n` bytes holds a number below `256 ^ n`. -/
theorem ofLittleEndian_lt (bs : Bytes) : ofLittleEndian bs < 256 ^ bs.length := by
  induction bs with
  | nil => exact Nat.one_pos
  | cons b bs ih =>
      have hb : b.toNat < 256 := b.toNat_lt
      rw [ofLittleEndian, List.length_cons, pow_succ']
      omega

/-- Writing the number read from a field restores the field. -/
theorem littleEndian_ofLittleEndian (bs : Bytes) :
    littleEndian bs.length (ofLittleEndian bs) = bs := by
  induction bs with
  | nil => rfl
  | cons b bs ih =>
      have hb : b.toNat < 256 := b.toNat_lt
      have hdiv : (b.toNat + 256 * ofLittleEndian bs) / 256 = ofLittleEndian bs := by omega
      have hbyte : UInt8.ofNat (b.toNat + 256 * ofLittleEndian bs) = b := by
        apply UInt8.toNat_inj.mp
        rw [UInt8.toNat_ofNat']
        omega
      rw [List.length_cons, littleEndian, ofLittleEndian, hdiv, hbyte, ih]

/-! ## The typed fields of a binary writer -/

/-- The two bytes of a 16-bit integer, least significant first. -/
def writeUInt16LittleEndian (v : UInt16) : Bytes := littleEndian 2 v.toNat

/-- The four bytes of a 32-bit integer, least significant first. -/
def writeUInt32LittleEndian (v : UInt32) : Bytes := littleEndian 4 v.toNat

/-- The eight bytes of a 64-bit integer, least significant first. -/
def writeUInt64LittleEndian (v : UInt64) : Bytes := littleEndian 8 v.toNat

/-- A signed 64-bit integer is written as its two's complement. -/
def writeInt64LittleEndian (v : Int64) : Bytes := writeUInt64LittleEndian v.toUInt64

/-- The 16-bit integer in the first two bytes of a span. -/
def readUInt16LittleEndian (source : Bytes) : UInt16 :=
  UInt16.ofNat (ofLittleEndian (source.take 2))

/-- The 32-bit integer in the first four bytes of a span. -/
def readUInt32LittleEndian (source : Bytes) : UInt32 :=
  UInt32.ofNat (ofLittleEndian (source.take 4))

/-- The 64-bit integer in the first eight bytes of a span. -/
def readUInt64LittleEndian (source : Bytes) : UInt64 :=
  UInt64.ofNat (ofLittleEndian (source.take 8))

/-- The signed 64-bit integer in the first eight bytes of a span. -/
def readInt64LittleEndian (source : Bytes) : Int64 := (readUInt64LittleEndian source).toInt64

@[simp] theorem writeUInt16LittleEndian_length (v : UInt16) :
    (writeUInt16LittleEndian v).length = 2 := littleEndian_length 2 _

@[simp] theorem writeUInt32LittleEndian_length (v : UInt32) :
    (writeUInt32LittleEndian v).length = 4 := littleEndian_length 4 _

@[simp] theorem writeUInt64LittleEndian_length (v : UInt64) :
    (writeUInt64LittleEndian v).length = 8 := littleEndian_length 8 _

@[simp] theorem writeInt64LittleEndian_length (v : Int64) :
    (writeInt64LittleEndian v).length = 8 := littleEndian_length 8 _

/-- The field at the front of a span reads back what was written there. -/
theorem ofLittleEndian_take (n v : Nat) (rest : Bytes) :
    ofLittleEndian ((littleEndian n v ++ rest).take n) = v % 256 ^ n := by
  rw [List.take_left' (littleEndian_length n v), ofLittleEndian_littleEndian]

@[simp] theorem readUInt16LittleEndian_write (v : UInt16) (rest : Bytes) :
    readUInt16LittleEndian (writeUInt16LittleEndian v ++ rest) = v := by
  have hv : v.toNat % 256 ^ 2 = v.toNat := Nat.mod_eq_of_lt v.toNat_lt
  rw [readUInt16LittleEndian, writeUInt16LittleEndian, ofLittleEndian_take, hv, UInt16.ofNat_toNat]

@[simp] theorem readUInt32LittleEndian_write (v : UInt32) (rest : Bytes) :
    readUInt32LittleEndian (writeUInt32LittleEndian v ++ rest) = v := by
  have hv : v.toNat % 256 ^ 4 = v.toNat := Nat.mod_eq_of_lt v.toNat_lt
  rw [readUInt32LittleEndian, writeUInt32LittleEndian, ofLittleEndian_take, hv, UInt32.ofNat_toNat]

@[simp] theorem readUInt64LittleEndian_write (v : UInt64) (rest : Bytes) :
    readUInt64LittleEndian (writeUInt64LittleEndian v ++ rest) = v := by
  have hv : v.toNat % 256 ^ 8 = v.toNat := Nat.mod_eq_of_lt v.toNat_lt
  rw [readUInt64LittleEndian, writeUInt64LittleEndian, ofLittleEndian_take, hv, UInt64.ofNat_toNat]

@[simp] theorem readInt64LittleEndian_write (v : Int64) (rest : Bytes) :
    readInt64LittleEndian (writeInt64LittleEndian v ++ rest) = v := by
  rw [readInt64LittleEndian, writeInt64LittleEndian, readUInt64LittleEndian_write,
    Int64.toInt64_toUInt64]

/-- Rewriting the number read from a full-width field restores the field. -/
theorem littleEndian_take {n : Nat} {source : Bytes} (h : n ≤ source.length) :
    littleEndian n (ofLittleEndian (source.take n)) = source.take n := by
  have hl : (source.take n).length = n := by rw [List.length_take, Nat.min_eq_left h]
  calc littleEndian n (ofLittleEndian (source.take n))
      = littleEndian (source.take n).length (ofLittleEndian (source.take n)) := by rw [hl]
    _ = source.take n := littleEndian_ofLittleEndian _

private theorem ofLittleEndian_take_lt (n : Nat) (source : Bytes) :
    ofLittleEndian (source.take n) < 256 ^ n :=
  (ofLittleEndian_lt _).trans_le
    (Nat.pow_le_pow_right (by decide) (List.length_take_le n source))

/-- The 16-bit field at the front of a span is what the writer would put there. -/
theorem writeUInt16LittleEndian_read {source : Bytes} (h : 2 ≤ source.length) :
    writeUInt16LittleEndian (readUInt16LittleEndian source) = source.take 2 := by
  rw [writeUInt16LittleEndian, readUInt16LittleEndian,
    UInt16.toNat_ofNat_of_lt' (ofLittleEndian_take_lt 2 source), littleEndian_take h]

/-- The 32-bit field at the front of a span is what the writer would put there. -/
theorem writeUInt32LittleEndian_read {source : Bytes} (h : 4 ≤ source.length) :
    writeUInt32LittleEndian (readUInt32LittleEndian source) = source.take 4 := by
  rw [writeUInt32LittleEndian, readUInt32LittleEndian,
    UInt32.toNat_ofNat_of_lt' (ofLittleEndian_take_lt 4 source), littleEndian_take h]

/-- The 64-bit field at the front of a span is what the writer would put there. -/
theorem writeUInt64LittleEndian_read {source : Bytes} (h : 8 ≤ source.length) :
    writeUInt64LittleEndian (readUInt64LittleEndian source) = source.take 8 := by
  rw [writeUInt64LittleEndian, readUInt64LittleEndian,
    UInt64.toNat_ofNat_of_lt' (ofLittleEndian_take_lt 8 source), littleEndian_take h]

/-- The signed field at the front of a span is what the writer would put there. -/
theorem writeInt64LittleEndian_read {source : Bytes} (h : 8 ≤ source.length) :
    writeInt64LittleEndian (readInt64LittleEndian source) = source.take 8 := by
  rw [writeInt64LittleEndian, readInt64LittleEndian, UInt64.toUInt64_toInt64,
    writeUInt64LittleEndian_read h]

/-- Different numbers have different 64-bit fields. -/
theorem writeUInt64LittleEndian_injective : Function.Injective writeUInt64LittleEndian := by
  intro v w h
  have hv := readUInt64LittleEndian_write v []
  rw [h, readUInt64LittleEndian_write] at hv
  exact hv.symm

end Tckr
