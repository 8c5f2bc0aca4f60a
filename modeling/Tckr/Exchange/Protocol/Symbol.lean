import Tckr.Exchange.Protocol.Messages
import Mathlib.Data.Set.Function

/-!
# The packed ticker symbol

A symbol is one 64-bit word whose little-endian bytes are its wire field: the
ticker, right-padded with spaces. Both constructors accept exactly the words
whose field is a padded ticker, so text, word and field determine one another.
-/

namespace Tckr.Protocol

/-- A ticker symbol in its wire form, as one packed word. -/
structure Symbol8 where
  /-- Wire bytes 0 to 7 in little-endian order. -/
  packed : UInt64
  deriving DecidableEq, Repr

namespace Symbol8

/-- Bytes a symbol occupies on the wire. -/
abbrev length : Nat := 8

/-- Byte used to right-pad shorter symbols. -/
def padding : UInt8 := 0x20

/-- The first printable character, past the space used as padding. -/
def firstPrintable : UInt8 := 0x21

/-- The last printable character. -/
def lastPrintable : UInt8 := 0x7E

/-- The first index of the padding byte, or the field's length. -/
def paddingIndex (bytes : Bytes) : Nat := (bytes.idxOf? padding).getD length

/-- A character a symbol may hold. -/
def isPrintableChar (c : UInt16) : Bool := firstPrintable.toUInt16 ≤ c && c ≤ lastPrintable.toUInt16

/-- A byte the used part of a symbol field may hold. -/
def isPrintableByte (b : UInt8) : Bool := firstPrintable ≤ b && b ≤ lastPrintable

/-- Build a symbol from text, padding it to the field's length. -/
def fromAscii (symbol : Text) : Except ArgumentException Symbol8 :=
  if symbol.length = 0 ∨ length < symbol.length then .error (.symbolLength symbol.length)
  else match symbol.findIdx? (fun c => !isPrintableChar c) with
    | some i => .error (.symbolCharacter symbol i)
    | none => .ok ⟨readUInt64LittleEndian
        (symbol.map UInt16.toUInt8 ++ List.replicate (length - symbol.length) padding)⟩

/-- Read a symbol out of a frame payload, validating the padding rule. -/
def fromWire (source : Bytes) : Except FeedException Symbol8 :=
  if source.length ≠ length then .error (.argument (.symbolField source.length))
  else
    let finish := paddingIndex source
    if finish = 0 then .error (.invalidData .emptySymbol)
    else match (source.take finish).findIdx? (fun b => !isPrintableByte b) with
      | some i => .error (.invalidData (.symbolByte (source.getD i 0) i))
      | none => match (source.drop finish).findIdx? (fun b => b ≠ padding) with
        | some i => .error (.invalidData (.embeddedSpace (finish + i) (source.getD (finish + i) 0)))
        | none => .ok ⟨readUInt64LittleEndian source⟩

/-- The eight wire bytes. -/
def writeTo (s : Symbol8) : Bytes := writeUInt64LittleEndian s.packed

/-- Characters before the trailing padding. -/
def trimmedLength (s : Symbol8) : Nat := paddingIndex s.writeTo

/-- ASCII decoding: a byte outside ASCII reads as a question mark. -/
def asciiGetString (bytes : Bytes) : Text :=
  bytes.map fun b => if b < 0x80 then b.toUInt16 else 0x3F

/-- The symbol as text. -/
def toString (s : Symbol8) : Text := asciiGetString (s.writeTo.take s.trimmedLength)

@[simp] theorem writeTo_length (s : Symbol8) : s.writeTo.length = length :=
  writeUInt64LittleEndian_length s.packed

/-- The wire field determines the symbol. -/
theorem writeTo_injective : Function.Injective writeTo := by
  intro s t h
  have hp := writeUInt64LittleEndian_injective h
  cases s
  cases t
  exact congrArg Symbol8.mk hp

/-! ## Tickers and their padded fields -/

/-- One to eight printable non-space ASCII characters. -/
def IsTicker (text : Text) : Prop :=
  0 < text.length ∧ text.length ≤ length ∧ ∀ c ∈ text, isPrintableChar c

instance (text : Text) : Decidable (IsTicker text) :=
  decidable_of_iff (0 < text.length ∧ text.length ≤ length ∧ text.all isPrintableChar = true)
    (by rw [IsTicker, List.all_eq_true])

/-- The ticker's field: its characters, right-padded with spaces. -/
def field (text : Text) : Bytes :=
  text.map UInt16.toUInt8 ++ List.replicate (length - text.length) padding

theorem field_length {text : Text} (h : IsTicker text) : (field text).length = length := by
  rw [field, List.length_append, List.length_map, List.length_replicate]
  exact Nat.add_sub_of_le h.2.1

private theorem printableChar_toNat {c : UInt16} (h : isPrintableChar c = true) :
    33 ≤ c.toNat ∧ c.toNat ≤ 126 := by
  simp only [isPrintableChar, Bool.and_eq_true, decide_eq_true_eq, UInt16.le_iff_toNat_le] at h
  exact h

private theorem printableByte_toNat {b : UInt8} (h : isPrintableByte b = true) :
    33 ≤ b.toNat ∧ b.toNat ≤ 126 := by
  simp only [isPrintableByte, Bool.and_eq_true, decide_eq_true_eq, UInt8.le_iff_toNat_le] at h
  exact h

/-- Cutting a printable character to a byte loses nothing. -/
theorem toUInt16_toUInt8 {c : UInt16} (h : isPrintableChar c = true) : c.toUInt8.toUInt16 = c := by
  have hc := printableChar_toNat h
  apply UInt16.toNat_inj.mp
  rw [UInt8.toNat_toUInt16, UInt16.toNat_toUInt8]
  omega

theorem isPrintableByte_toUInt8 {c : UInt16} (h : isPrintableChar c = true) :
    isPrintableByte c.toUInt8 = true := by
  have hc := printableChar_toNat h
  have hn : c.toUInt8.toNat = c.toNat := by rw [UInt16.toNat_toUInt8]; omega
  simp only [isPrintableByte, Bool.and_eq_true, decide_eq_true_eq, UInt8.le_iff_toNat_le, hn]
  exact hc

theorem isPrintableChar_toUInt16 {b : UInt8} (h : isPrintableByte b = true) :
    isPrintableChar b.toUInt16 = true := by
  have hb := printableByte_toNat h
  simp only [isPrintableChar, Bool.and_eq_true, decide_eq_true_eq, UInt16.le_iff_toNat_le,
    UInt8.toNat_toUInt16]
  exact hb

private theorem padding_notMem {text : Text} (h : ∀ c ∈ text, isPrintableChar c) :
    padding ∉ text.map UInt16.toUInt8 := by
  intro hmem
  obtain ⟨c, hc, he⟩ := List.mem_map.mp hmem
  have hb := printableByte_toNat (isPrintableByte_toUInt8 (h c hc))
  rw [he] at hb
  exact absurd hb (by decide)

/-- In a full-length field the padding starts at the first padding byte, if any. -/
theorem paddingIndex_eq_idxOf {source : Bytes} (h : source.length = length) :
    paddingIndex source = source.idxOf padding := by
  rw [paddingIndex, List.idxOf_eq_getD_idxOf?, h]

/-- The padding of a ticker's field starts where the ticker ends. -/
theorem paddingIndex_field {text : Text} (h : IsTicker text) :
    paddingIndex (field text) = text.length := by
  have hzero : (List.replicate (length - text.length) padding).idxOf padding = 0 := by
    cases length - text.length with
    | zero => rfl
    | succ n => rw [List.replicate_succ, List.idxOf_cons_self]
  rw [paddingIndex_eq_idxOf (field_length h), field,
    List.idxOf_append_of_notMem (padding_notMem h.2.2), hzero, List.length_map, Nat.add_zero]

/-- Text is accepted exactly when it is a ticker, and its word holds the padded field. -/
theorem fromAscii_eq_ok_iff {text : Text} {s : Symbol8} :
    fromAscii text = .ok s ↔ IsTicker text ∧ s.writeTo = field text := by
  unfold fromAscii
  have hlen (h : IsTicker text) : 8 ≤ (field text).length := (field_length h).ge
  have hfield (h : IsTicker text) :
      writeTo ⟨readUInt64LittleEndian (field text)⟩ = field text := by
    rw [writeTo, writeUInt64LittleEndian_read (hlen h),
      List.take_of_length_le (field_length h).le]
  split_ifs with hsize
  · refine ⟨fun h => (nomatch h), fun ⟨h, _⟩ => ?_⟩
    have h0 := h.1
    have h8 := h.2.1
    omega
  · cases hf : text.findIdx? (fun c => !isPrintableChar c) with
    | some i =>
        refine ⟨fun h => (nomatch h), fun ⟨h, _⟩ => ?_⟩
        obtain ⟨hi, hbad, _⟩ := List.findIdx?_eq_some_iff_getElem.mp hf
        rw [h.2.2 _ (List.getElem_mem hi)] at hbad
        contradiction
    | none =>
        rw [List.findIdx?_eq_none_iff] at hf
        have ht : IsTicker text :=
          ⟨by omega, by omega, fun c hc => by simpa only [Bool.not_eq_false'] using hf c hc⟩
        change Except.ok ⟨readUInt64LittleEndian (field text)⟩ = Except.ok s ↔ _
        rw [Except.ok.injEq]
        refine ⟨fun h => ⟨ht, by rw [← h]; exact hfield ht⟩, fun ⟨_, h⟩ => ?_⟩
        exact writeTo_injective (by rw [hfield ht, h])

/-- Printable bytes, then padding, make the field of a ticker. -/
theorem eq_field_of_padded {source : Bytes} (hlen : source.length = length)
    (hnonempty : paddingIndex source ≠ 0)
    (hprint : ∀ b ∈ source.take (paddingIndex source), isPrintableByte b = true)
    (hpad : ∀ b ∈ source.drop (paddingIndex source), b = padding) :
    ∃ text, IsTicker text ∧ source = field text := by
  have hle : paddingIndex source ≤ length := by
    rw [paddingIndex_eq_idxOf hlen, ← hlen]
    exact List.idxOf_le_length
  refine ⟨(source.take (paddingIndex source)).map UInt8.toUInt16, ⟨?_, ?_, ?_⟩, ?_⟩
  · rw [List.length_map, List.length_take, hlen]
    exact Nat.lt_min.mpr ⟨by omega, by decide⟩
  · rw [List.length_map, List.length_take]
    omega
  · intro c hc
    obtain ⟨b, hb, rfl⟩ := List.mem_map.mp hc
    exact isPrintableChar_toUInt16 (hprint b hb)
  · have hback : ((source.take (paddingIndex source)).map UInt8.toUInt16).map
        UInt16.toUInt8 = source.take (paddingIndex source) := by
      rw [List.map_map]
      exact List.map_id'' (fun b => UInt8.toUInt8_toUInt16 b) _
    have hdrop : source.drop (paddingIndex source) =
        List.replicate (length - paddingIndex source) padding := by
      rw [List.eq_replicate_iff, List.length_drop, hlen]
      exact ⟨rfl, hpad⟩
    rw [field, hback, List.length_map, List.length_take, hlen, Nat.min_eq_left hle, ← hdrop,
      List.take_append_drop]

/-- The field of a ticker is accepted as the word that holds it. -/
theorem fromWire_field {text : Text} (ht : IsTicker text) {s : Symbol8}
    (hs : s.writeTo = field text) : fromWire (field text) = .ok s := by
  have hidx := paddingIndex_field ht
  have htake : (field text).take text.length = text.map UInt16.toUInt8 :=
    List.take_left' (List.length_map _)
  have hdrop : (field text).drop text.length =
      List.replicate (length - text.length) padding := List.drop_left' (List.length_map _)
  have hp : (text.map UInt16.toUInt8).findIdx? (fun b => !isPrintableByte b) = none := by
    rw [List.findIdx?_eq_none_iff]
    intro b hb
    obtain ⟨c, hc, rfl⟩ := List.mem_map.mp hb
    rw [isPrintableByte_toUInt8 (ht.2.2 c hc), Bool.not_true]
  have hr : (List.replicate (length - text.length) padding).findIdx?
      (fun b => b ≠ padding) = none := by
    rw [List.findIdx?_eq_none_iff]
    intro b hb
    simp only [List.eq_of_mem_replicate hb, ne_eq, not_true_eq_false, decide_false]
  have hword : (⟨readUInt64LittleEndian (field text)⟩ : Symbol8) = s := by
    apply writeTo_injective
    rw [hs, writeTo, writeUInt64LittleEndian_read (field_length ht).ge,
      List.take_of_length_le (field_length ht).le]
  have hpos : text.length ≠ 0 := by have := ht.1; omega
  rw [fromWire, if_neg (not_not.mpr (field_length ht))]
  simp only [hidx, hpos, ite_false, htake, hdrop, hp, hr, hword]

/-- A field is accepted exactly when it is some ticker's, and its word holds it. -/
theorem fromWire_eq_ok_iff {source : Bytes} {s : Symbol8} :
    fromWire source = .ok s ↔ s.writeTo = source ∧ ∃ text, IsTicker text ∧ source = field text := by
  constructor
  · intro h
    unfold fromWire at h
    dsimp only at h
    split_ifs at h with hlen hzero
    rw [not_not] at hlen
    cases hp : (source.take (paddingIndex source)).findIdx? (fun b => !isPrintableByte b) with
    | some i => simp only [hp, reduceCtorEq] at h
    | none =>
      cases hr : (source.drop (paddingIndex source)).findIdx? (fun b => b ≠ padding) with
      | some i => simp only [hp, hr, reduceCtorEq] at h
      | none =>
        simp only [hp, hr, Except.ok.injEq] at h
        rw [List.findIdx?_eq_none_iff] at hp hr
        have hs : s.writeTo = source := by
          rw [← h, writeTo, writeUInt64LittleEndian_read hlen.ge, List.take_of_length_le hlen.le]
        exact ⟨hs, eq_field_of_padded hlen hzero
          (fun b hb => by simpa only [Bool.not_eq_false'] using hp b hb)
          fun b hb => by simpa using hr b hb⟩
  · rintro ⟨hs, text, ht, rfl⟩
    exact fromWire_field ht hs

/-- A ticker's symbol reads back as the ticker. -/
theorem toString_of_writeTo {text : Text} {s : Symbol8} (ht : IsTicker text)
    (hs : s.writeTo = field text) : s.toString = text := by
  have htake : (field text).take text.length = text.map UInt16.toUInt8 :=
    List.take_left' (List.length_map _)
  rw [toString, trimmedLength, hs, paddingIndex_field ht, htake, asciiGetString, List.map_map]
  conv_rhs => rw [← List.map_id text]
  apply List.map_congr_left
  intro c hc
  have hp := ht.2.2 c hc
  have hb := printableByte_toNat (isPrintableByte_toUInt8 hp)
  have hlt : c.toUInt8 < 0x80 := by
    rw [UInt8.lt_iff_toNat_lt]
    exact lt_of_le_of_lt hb.2 (by decide)
  simp only [Function.comp_apply, hlt, ite_true, toUInt16_toUInt8 hp, id_eq]

/-- The symbols either constructor can produce. -/
def Listed (s : Symbol8) : Prop := ∃ text, IsTicker text ∧ s.writeTo = field text

/-- Building from text and printing are inverse between tickers and listed symbols. -/
theorem fromAscii_eq_ok_iff_toString {text : Text} {s : Symbol8} :
    fromAscii text = .ok s ↔ s.Listed ∧ s.toString = text := by
  rw [fromAscii_eq_ok_iff]
  constructor
  · rintro ⟨ht, hs⟩
    exact ⟨⟨text, ht, hs⟩, toString_of_writeTo ht hs⟩
  · rintro ⟨⟨text', ht, hs⟩, rfl⟩
    rw [toString_of_writeTo ht hs]
    exact ⟨ht, hs⟩

/-- Reading a field and writing it are inverse on the listed symbols. -/
theorem fromWire_eq_ok_iff_writeTo {source : Bytes} {s : Symbol8} :
    fromWire source = .ok s ↔ s.Listed ∧ s.writeTo = source := by
  rw [fromWire_eq_ok_iff]
  constructor
  · rintro ⟨hs, text, ht, hf⟩
    exact ⟨⟨text, ht, hs.trans hf⟩, hs⟩
  · rintro ⟨⟨text, ht, hf⟩, hs⟩
    exact ⟨hs, text, ht, hs.symm.trans hf⟩

end Symbol8

end Tckr.Protocol
