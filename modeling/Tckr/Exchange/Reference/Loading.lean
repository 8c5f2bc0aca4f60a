import Tckr.Exchange.Reference.SymbolUniverse

/-!
# What loading a universe gives

Loading is all or nothing: a universe of the asked size, or a refusal of the data.
The one way out is a ticker followed by a line feed, which the listing pattern lets
through and the packing does not.
-/

namespace Tckr.Reference

open Protocol Generation

/-! ## Tickers -/

theorem isListedChar_toNat {c : UInt16} (h : isListedChar c = true) :
    0x30 ≤ c.toNat ∧ c.toNat ≤ 0x5A := by
  simp only [isListedChar, Bool.or_eq_true, Bool.and_eq_true, decide_eq_true_eq,
    UInt16.le_iff_toNat_le] at h
  rcases h with ⟨h₁, h₂⟩ | ⟨h₁, h₂⟩
  · exact ⟨le_trans (by decide) h₁, h₂⟩
  · exact ⟨h₁, h₂.trans (by decide)⟩

/-- What may be listed can be encoded. -/
theorem isTicker_encodes {text : Text} (h : isTicker text = true) : Symbol8.IsTicker text := by
  simp only [isTicker, Bool.and_eq_true, decide_eq_true_eq, List.all_eq_true] at h
  refine ⟨h.1.1, h.1.2, fun c hc => ?_⟩
  have hrange := isListedChar_toNat (h.2 c hc)
  simp only [Symbol8.isPrintableChar, Bool.and_eq_true, decide_eq_true_eq,
    UInt16.le_iff_toNat_le]
  exact ⟨le_trans (by decide) hrange.1, hrange.2.trans (by decide)⟩

theorem exists_fromAscii {text : Text} (h : isTicker text = true) :
    ∃ packed, Symbol8.fromAscii text = .ok packed := by
  have hticker := isTicker_encodes h
  refine ⟨⟨readUInt64LittleEndian (Symbol8.field text)⟩,
    Symbol8.fromAscii_eq_ok_iff.mpr ⟨hticker, ?_⟩⟩
  rw [Symbol8.writeTo, writeUInt64LittleEndian_read (Symbol8.field_length hticker).ge,
    List.take_of_length_le (Symbol8.field_length hticker).le]

/-- A line feed does not pack. -/
theorem exists_fromAscii_error {text : Text} (h : lineFeed ∈ text) :
    ∃ e, Symbol8.fromAscii text = .error e := by
  cases hpack : Symbol8.fromAscii text with
  | error e => exact ⟨e, rfl⟩
  | ok packed =>
    have hprintable := (Symbol8.fromAscii_eq_ok_iff.mp hpack).1.2.2 lineFeed h
    exact absurd hprintable (by decide)

/-- The pattern matches tickers, and tickers with a line feed at the end. -/
theorem symbolRegexIsMatch_iff {text : Text} : symbolRegexIsMatch text = true ↔
    isTicker text = true ∨ ∃ ticker, isTicker ticker = true ∧ text = ticker ++ [lineFeed] := by
  rw [symbolRegexIsMatch, Bool.or_eq_true, Bool.and_eq_true, beq_iff_eq]
  refine or_congr_right ⟨fun ⟨hlast, hticker⟩ => ⟨_, hticker, ?_⟩, ?_⟩
  · exact (List.dropLast_append_getLast? lineFeed hlast).symm
  · rintro ⟨ticker, hticker, rfl⟩
    rw [List.getLast?_concat, List.dropLast_concat]
    exact ⟨rfl, hticker⟩

/-! ## One definition -/

/-- A definition that is fit to be listed, with its symbol packed. -/
structure SymbolListing.Listed (d : SymbolListing) : Prop where
  valid : d.firstInvalid = none
  ticker : isTicker d.symbol = true
  packs : Symbol8.fromAscii d.symbol = .ok d.packed

namespace SymbolListing

variable {d : SymbolListing}

theorem symbolRegexIsMatch_of_valid (h : d.firstInvalid = none) :
    symbolRegexIsMatch d.symbol = true := by
  by_contra hmatch
  rw [firstInvalid, if_pos (by simpa using hmatch)] at h
  cases h

theorem isPositive_of_valid (h : d.firstInvalid = none) : d.weight.isPositive = true := by
  by_contra hpositive
  unfold firstInvalid at h
  split_ifs at h with _ _ _ _ _ hweight
  exact hpositive (by simpa using hweight)

theorem Listed.weight_pos (h : d.Listed) : 0 < d.weight.value := by
  have hpositive := isPositive_of_valid h.valid
  cases hweight : d.weight with
  | finite value =>
    rw [hweight] at hpositive
    exact of_decide_eq_true hpositive
  | infinite negative => simp [hweight, Double.isPositive] at hpositive
  | nan => simp [hweight, Double.isPositive] at hpositive

/-- A definition whose symbol is a ticker followed by a line feed, and nothing else is amiss. -/
def Misread (d : SymbolListing) : Prop :=
  d.firstInvalid = none ∧ ∃ ticker, isTicker ticker = true ∧ d.symbol = ticker ++ [lineFeed]

theorem Misread.mem (h : d.Misread) : lineFeed ∈ d.symbol := by
  obtain ⟨-, ticker, -, hsymbol⟩ := h
  rw [hsymbol]
  exact List.mem_append_right _ (List.mem_singleton_self _)

/-- A definition is refused, or packed, or its symbol does not pack. -/
theorem admitted_cases (origin : Origin) (d : SymbolListing) :
    (∃ property, d.firstInvalid = some property ∧
      d.admitted origin = .error (.invalidData (.invalid origin d.symbol property))) ∨
    (∃ packed, d.admitted origin = .ok { d with packed } ∧ { d with packed }.Listed) ∨
    d.Misread ∧ ∃ e, d.admitted origin = .error (.argument e) := by
  cases hinvalid : d.firstInvalid with
  | some property => exact .inl ⟨property, rfl, by rw [admitted, validate, hinvalid]⟩
  | none =>
    have hadmitted : d.admitted origin = d.withPackedSymbol := by
      rw [admitted, validate, hinvalid]
    rcases symbolRegexIsMatch_iff.mp (symbolRegexIsMatch_of_valid hinvalid) with hticker | hfeed
    · obtain ⟨packed, hpacked⟩ := exists_fromAscii hticker
      refine .inr (.inl ⟨packed, ?_, hinvalid, hticker, hpacked⟩)
      rw [hadmitted, withPackedSymbol, hpacked]
    · have hmisread : d.Misread := ⟨hinvalid, hfeed⟩
      obtain ⟨e, he⟩ := exists_fromAscii_error hmisread.mem
      refine .inr (.inr ⟨hmisread, e, ?_⟩)
      rw [hadmitted, withPackedSymbol, he]

end SymbolListing

/-! ## One element -/

namespace JsonElement

/-- The definition an element spells out, if no property is missing. -/
def listing (e : JsonElement) : Option SymbolListing := (e.read 0).toOption

/-- An element that is listed. -/
def Accepted (e : JsonElement) : Prop :=
  ∃ d, e.listing = some d ∧ d.firstInvalid = none ∧ isTicker d.symbol = true

/-- An element whose symbol is a ticker followed by a line feed, and nothing else is amiss. -/
def Misread (e : JsonElement) : Prop := ∃ d, e.listing = some d ∧ d.Misread

/-- A definition comes from an element. -/
def Loads (e : JsonElement) (d : SymbolListing) : Prop := ∃ ordinal, e.load ordinal = .ok d

/-- What an element spells out does not depend on where it stands. -/
theorem read_cases (e : JsonElement) (ordinal : Nat) :
    (∃ d, e.listing = some d ∧ e.read ordinal = .ok d) ∨
      e.listing = none ∧ ∃ reason, e.read ordinal = .error reason := by
  cases e with
  | other => exact .inr ⟨rfl, _, rfl⟩
  | object symbol name referencePrice tickSize lotSize weight =>
    rcases symbol with - | symbol
    · exact .inr ⟨rfl, _, rfl⟩
    rcases name with - | name
    · exact .inr ⟨rfl, _, rfl⟩
    rcases referencePrice with - | referencePrice
    · exact .inr ⟨rfl, _, rfl⟩
    rcases tickSize with - | tickSize
    · exact .inr ⟨rfl, _, rfl⟩
    rcases lotSize with - | lotSize
    · exact .inr ⟨rfl, _, rfl⟩
    rcases weight with - | weight
    · exact .inr ⟨rfl, _, rfl⟩
    · exact .inl ⟨_, rfl, rfl⟩

theorem not_accepted_and_misread {e : JsonElement} (h : e.Accepted) : ¬ e.Misread := by
  rintro ⟨d, hd, hmisread⟩
  obtain ⟨d', hd', -, hticker⟩ := h
  obtain rfl : d = d' := Option.some.inj (hd.symm.trans hd')
  obtain ⟨packed, hpacked⟩ := exists_fromAscii hticker
  obtain ⟨e, he⟩ := exists_fromAscii_error hmisread.mem
  rw [hpacked] at he
  cases he

/-- An element is listed, or refused, or its symbol does not pack. -/
theorem load_cases (e : JsonElement) (ordinal : Nat) :
    (e.Accepted ∧ ∃ d, e.load ordinal = .ok d ∧ d.Listed ∧
      ∃ d', e.listing = some d' ∧ d.weight = d'.weight) ∨
    (¬ e.Accepted ∧ ¬ e.Misread ∧ ∃ reason, e.load ordinal = .error (.invalidData reason)) ∨
    e.Misread ∧ ∃ reason, e.load ordinal = .error (.argument reason) := by
  rcases e.read_cases ordinal with ⟨d, hlisting, hread⟩ | ⟨hlisting, reason, hread⟩
  · have hload : e.load ordinal = d.admitted (.element ordinal) := by rw [load, hread]
    rw [hload]
    rcases d.admitted_cases (.element ordinal) with
      ⟨property, hinvalid, hrefused⟩ | ⟨packed, hpacked, hlisted⟩ | ⟨hmisread, reason, hthrown⟩
    · refine .inr (.inl ⟨?_, ?_, _, hrefused⟩)
      · rintro ⟨d', hd', hvalid, -⟩
        rw [hlisting, Option.some.injEq] at hd'
        rw [← hd', hinvalid] at hvalid
        cases hvalid
      · rintro ⟨d', hd', hvalid, -⟩
        rw [hlisting, Option.some.injEq] at hd'
        rw [← hd', hinvalid] at hvalid
        cases hvalid
    · exact .inl ⟨⟨d, hlisting, hlisted.valid, hlisted.ticker⟩, _, hpacked, hlisted, d, hlisting,
        rfl⟩
    · exact .inr (.inr ⟨⟨d, hlisting, hmisread⟩, reason, hthrown⟩)
  · refine .inr (.inl ⟨?_, ?_, reason, by rw [load, hread]⟩)
    · rintro ⟨d, hd, -⟩
      rw [hlisting] at hd
      cases hd
    · rintro ⟨d, hd, -⟩
      rw [hlisting] at hd
      cases hd

end JsonElement

/-! ## The array -/

/-- The first element that is not listed is misread. -/
def Misread (array : List JsonElement) : Prop :=
  ∃ before e after, array = before ++ e :: after ∧ (∀ e' ∈ before, e'.Accepted) ∧ e.Misread

theorem not_misread_nil : ¬ Misread [] := by
  rintro ⟨before, e, after, heq, -⟩
  simp at heq

theorem misread_cons_iff {e : JsonElement} {array : List JsonElement} :
    Misread (e :: array) ↔ e.Misread ∨ e.Accepted ∧ Misread array := by
  constructor
  · rintro ⟨before, e', after, heq, haccepted, hmisread⟩
    cases before with
    | nil =>
      obtain ⟨rfl, -⟩ := List.cons.inj heq
      exact .inl hmisread
    | cons e'' before =>
      obtain ⟨rfl, rfl⟩ := List.cons.inj heq
      exact .inr ⟨haccepted e List.mem_cons_self, before, e', after, rfl,
        fun p hp => haccepted p (List.mem_cons_of_mem e hp), hmisread⟩
  · rintro (hmisread | ⟨haccepted, before, e', after, rfl, hbefore, hmisread⟩)
    · exact ⟨[], e, array, rfl, by simp, hmisread⟩
    · exact ⟨e :: before, e', after, rfl, List.forall_mem_cons.mpr ⟨haccepted, hbefore⟩, hmisread⟩

/-- A definition with a weight of the element it comes from. -/
def Spells (e : JsonElement) (d : SymbolListing) : Prop :=
  e.Loads d ∧ d.Listed ∧ ∃ d', e.listing = some d' ∧ d.weight = d'.weight

/-- An array is listed, or refused, or misread. -/
theorem parseElements_cases (ordinal : Nat) (array : List JsonElement) :
    (¬ Misread array ∧ ∃ ds, parseElements ordinal array = .ok ds ∧
      List.Forall₂ Spells array ds) ∨
    (¬ Misread array ∧ ∃ reason, parseElements ordinal array = .error (.invalidData reason)) ∨
    Misread array ∧ ∃ reason, parseElements ordinal array = .error (.argument reason) := by
  induction array generalizing ordinal with
  | nil => exact .inl ⟨not_misread_nil, [], rfl, .nil⟩
  | cons e es ih =>
    rw [misread_cons_iff]
    rcases e.load_cases ordinal with
      ⟨haccepted, d, hload, hlisted, hweight⟩ | ⟨haccepted, hmisread, reason, hload⟩ |
        ⟨hmisread, reason, hload⟩
    · have hnot := JsonElement.not_accepted_and_misread haccepted
      have hparse : parseElements ordinal (e :: es) =
          (parseElements (ordinal + 1) es).map (d :: ·) := by rw [parseElements, hload]
      rw [hparse]
      rcases ih (ordinal + 1) with ⟨hes, ds, hds, hspells⟩ | ⟨hes, reason, hds⟩ | ⟨hes, reason, hds⟩
      · refine .inl ⟨by tauto, d :: ds, by rw [hds]; rfl, .cons ?_ hspells⟩
        exact ⟨⟨ordinal, hload⟩, hlisted, hweight⟩
      · exact .inr (.inl ⟨by tauto, reason, by rw [hds]; rfl⟩)
      · exact .inr (.inr ⟨.inr ⟨haccepted, hes⟩, reason, by rw [hds]; rfl⟩)
    · exact .inr (.inl ⟨by tauto, reason, by rw [parseElements, hload]⟩)
    · exact .inr (.inr ⟨.inl hmisread, reason, by rw [parseElements, hload]⟩)

/-- The named symbols are listed, or refused, or misread. -/
theorem parseNamed_cases (array : List JsonElement) :
    (¬ Misread array ∧ ∃ ds, parseNamed array = .ok ds ∧ ds ≠ [] ∧ List.Forall₂ Spells array ds) ∨
    (¬ Misread array ∧ ∃ reason, parseNamed array = .error (.invalidData reason)) ∨
    Misread array ∧ ∃ reason, parseNamed array = .error (.argument reason) := by
  rcases parseElements_cases 0 array with
    ⟨hnot, ds, hds, hspells⟩ | ⟨hnot, reason, hds⟩ | ⟨hmisread, reason, hds⟩
  · cases ds with
    | nil => exact .inr (.inl ⟨hnot, .noSymbols, by rw [parseNamed, hds]⟩)
    | cons d ds =>
      exact .inl ⟨hnot, d :: ds, by rw [parseNamed, hds], List.cons_ne_nil d ds, hspells⟩
  · exact .inr (.inl ⟨hnot, reason, by rw [parseNamed, hds]⟩)
  · exact .inr (.inr ⟨hmisread, reason, by rw [parseNamed, hds]⟩)

/-! ## The synthetic tail -/

theorem ne_lineFeed_of_mem_rankDigits {rank : Nat} {c : UInt16} (h : c ∈ rankDigits rank) :
    c ≠ lineFeed := by
  rcases List.mem_append.mp h with hpad | hdigit
  · rw [List.eq_of_mem_replicate hpad]
    decide
  · obtain ⟨d, hd, rfl⟩ := List.mem_map.mp hdigit
    have hlt : d < 10 := Nat.digits_lt_base (by omega) (List.mem_reverse.mp hd)
    intro heq
    have hnat := congrArg UInt16.toNat heq
    rw [UInt16.toNat_ofNat'] at hnat
    simp only [lineFeed, UInt16.reduceToNat] at hnat
    omega

theorem lineFeed_notMem_syntheticSymbol (rank : Nat) : lineFeed ∉ syntheticSymbol rank := by
  intro h
  rcases List.mem_append.mp h with hprefix | hdigits
  · exact absurd hprefix (by decide)
  · exact ne_lineFeed_of_mem_rankDigits hdigits rfl

/-- The weight of a synthetic instrument. -/
def tailWeight (a : Arithmetic) (leastNamedWeight : ℚ) (rank : Nat) : ℚ :=
  a.round (headWeight a leastNamedWeight / a.pow rank)

/-- The tail is of the asked length, with its symbols and weights in order, or it is refused. -/
theorem syntheticTail_cases (a : Arithmetic) (least : ℚ) (count rank : Nat) (random : UInt64) :
    (∃ ds, syntheticTail a least count rank random = .ok ds ∧ (∀ d ∈ ds, d.Listed) ∧
      ds.map (·.symbol) = (List.range' rank count).map syntheticSymbol ∧
      ds.map (·.weight.value) = (List.range' rank count).map (tailWeight a least)) ∨
    ∃ reason, syntheticTail a least count rank random = .error (.invalidData reason) := by
  induction count generalizing rank random with
  | zero => exact .inl ⟨[], rfl, by simp, rfl, rfl⟩
  | succ count ih =>
    rcases (syntheticListing a least rank (splitMix64 random).1).admitted_cases
        .syntheticPadding with
      ⟨property, -, hrefused⟩ | ⟨packed, hadmitted, hlisted⟩ | ⟨hmisread, -⟩
    · exact .inr ⟨_, by rw [syntheticTail, hrefused]⟩
    · rw [syntheticTail, hadmitted]
      rcases ih (rank + 1) (splitMix64 random).2 with
        ⟨ds, hds, hall, hsymbols, hweights⟩ | ⟨reason, hds⟩
      · refine .inl ⟨_ :: ds, by simp only [hds]; rfl, List.forall_mem_cons.mpr ⟨hlisted, hall⟩,
          ?_, ?_⟩
        · rw [List.map_cons, hsymbols, List.range'_succ, List.map_cons]
          rfl
        · rw [List.map_cons, hweights, List.range'_succ, List.map_cons]
          rfl
      · exact .inr ⟨reason, by simp only [hds]; rfl⟩
    · exact absurd hmisread.mem (lineFeed_notMem_syntheticSymbol rank)

namespace Arithmetic.Lawful

variable {a : Arithmetic} (h : a.Lawful) {least : ℚ}

include h

theorem round_nonneg {x : ℚ} (hx : 0 ≤ x) : 0 ≤ a.round x := by
  rw [← h.round_zero]
  exact h.round_mono 0 x hx

theorem headWeight_nonneg (hleast : 0 ≤ least) : 0 ≤ headWeight a least :=
  h.round_nonneg (mul_nonneg hleast (h.round_nonneg (by norm_num)))

/-- The tail starts below the least active named symbol. -/
theorem headWeight_le (hleast : 0 ≤ least) (hdouble : a.round least = least) :
    headWeight a least ≤ least := by
  have hfactor : a.round (9 / 10) ≤ 1 := by
    rw [← h.round_one]
    exact h.round_mono _ _ (by norm_num)
  calc headWeight a least ≤ a.round least :=
        h.round_mono _ _ (mul_le_of_le_one_right hleast hfactor)
    _ = least := hdouble

theorem tailWeight_le (hleast : 0 ≤ least) (hdouble : a.round least = least) {rank : Nat}
    (hrank : 1 ≤ rank) : tailWeight a least rank ≤ least := by
  have hhead := h.headWeight_nonneg hleast
  calc tailWeight a least rank ≤ a.round (headWeight a least) :=
        h.round_mono _ _ (div_le_self hhead (h.one_le_pow rank hrank))
    _ = headWeight a least := h.round_idem _
    _ ≤ least := h.headWeight_le hleast hdouble

theorem tailWeight_antitone (hleast : 0 ≤ least) {rank rank' : Nat} (hrank : 1 ≤ rank)
    (hle : rank ≤ rank') : tailWeight a least rank' ≤ tailWeight a least rank := by
  have hpos : 0 < a.pow rank := lt_of_lt_of_le one_pos (h.one_le_pow rank hrank)
  exact h.round_mono _ _
    (div_le_div_of_nonneg_left (h.headWeight_nonneg hleast) hpos (h.pow_mono rank rank' hle))

end Arithmetic.Lawful

/-! ## Duplicates and indexes -/

theorem firstListedTwice_eq_none {seen symbols : List Text}
    (h : firstListedTwice seen symbols = none) :
    symbols.Nodup ∧ ∀ symbol ∈ symbols, symbol ∉ seen := by
  induction symbols generalizing seen with
  | nil => exact ⟨List.nodup_nil, by simp⟩
  | cons symbol symbols ih =>
    rw [firstListedTwice] at h
    split_ifs at h with hmem
    obtain ⟨hnodup, hnew⟩ := ih h
    refine ⟨List.nodup_cons.mpr ⟨fun hin => ?_, hnodup⟩, ?_⟩
    · exact hnew symbol hin List.mem_cons_self
    · exact List.forall_mem_cons.mpr ⟨hmem, fun s hs hin =>
        hnew s hs (List.mem_cons_of_mem symbol hin)⟩

/-- Distinct keys are all added, each under its position. -/
theorem addAll_spec {κ : Type} [DecidableEq κ] {keys : List κ} (h : keys.Nodup) (index : Nat)
    (m : OrderedMap κ Nat) (hnew : ∀ key ∈ keys, key ∉ m.keys) :
    ∃ m', addAll index keys m = .ok m' ∧ ∀ key i, m'.get? key = some i ↔
      m.get? key = some i ∨ ∃ k, keys[k]? = some key ∧ i = index + k := by
  induction keys generalizing index m with
  | nil => exact ⟨m, rfl, by simp⟩
  | cons key keys ih =>
    obtain ⟨hkey, hkeys⟩ := List.nodup_cons.mp h
    have habsent : key ∉ m.keys := hnew key List.mem_cons_self
    have hrest : ∀ key' ∈ keys, key' ∉ (m.set key index).keys := by
      intro key' hmem
      rw [OrderedMap.mem_keys_set, not_or]
      refine ⟨hnew key' (List.mem_cons_of_mem key hmem), ?_⟩
      rintro rfl
      exact hkey hmem
    obtain ⟨m', hm', hget⟩ := ih hkeys (index + 1) (m.set key index) hrest
    refine ⟨m', by rw [addAll, if_neg habsent, hm'], fun key' i => ?_⟩
    rw [hget, OrderedMap.get?_eq_some_iff, OrderedMap.mem_entries_set,
      ← OrderedMap.get?_eq_some_iff]
    constructor
    · rintro ((⟨rfl, rfl⟩ | ⟨-, hold⟩) | ⟨k, hk, rfl⟩)
      · exact .inr ⟨0, rfl, rfl⟩
      · exact .inl hold
      · exact .inr ⟨k + 1, hk, by omega⟩
    · rintro (hold | ⟨k, hk, rfl⟩)
      · refine .inl (.inr ⟨?_, hold⟩)
        rintro rfl
        exact habsent (OrderedMap.isSome_get?.mp (Option.isSome_of_eq_some hold))
      · cases k with
        | zero => exact .inl (.inl ⟨(Option.some.inj hk).symm, rfl⟩)
        | succ k => exact .inr ⟨k, hk, by omega⟩

theorem addAll_empty {κ : Type} [DecidableEq κ] {keys : List κ} (h : keys.Nodup) :
    ∃ m, addAll 0 keys OrderedMap.empty = .ok m ∧
      ∀ key i, m.get? key = some i ↔ keys[i]? = some key := by
  have hnone (key : κ) (i : Nat) : (OrderedMap.empty : OrderedMap κ Nat).get? key ≠ some i := by
    intro hsome
    cases hsome
  obtain ⟨m, hm, hget⟩ := addAll_spec h 0 OrderedMap.empty (by simp [OrderedMap.keys,
    OrderedMap.empty])
  refine ⟨m, hm, fun key i => ?_⟩
  rw [hget]
  constructor
  · rintro (hsome | ⟨k, hk, rfl⟩)
    · exact absurd hsome (hnone key i)
    · rwa [Nat.zero_add]
  · exact fun hi => .inr ⟨i, hi, (Nat.zero_add i).symm⟩

/-- Different listed tickers have different packed symbols. -/
theorem packed_nodup {ds : List SymbolListing} (hlisted : ∀ d ∈ ds, d.Listed)
    (h : (ds.map (·.symbol)).Nodup) : (ds.map (·.packed)).Nodup := by
  have hback : ds.map (·.symbol) = (ds.map (·.packed)).map Symbol8.toString := by
    rw [List.map_map]
    refine List.map_congr_left fun d hd => ?_
    exact (Symbol8.fromAscii_eq_ok_iff_toString.mp (hlisted d hd).packs).2.symm
  rw [hback] at h
  exact List.Nodup.of_map Symbol8.toString h

/-- Listed definitions with different tickers are indexed both ways. -/
theorem build_spec {ds : List SymbolListing} (hlisted : ∀ d ∈ ds, d.Listed)
    (h : (ds.map (·.symbol)).Nodup) :
    ∃ u, LoadedUniverse.build ds = .ok u ∧ u.definitions = ds ∧ u.packed = ds.map (·.packed) ∧
      (∀ symbol i, u.tryGetIndex symbol = some i ↔ (ds.map (·.symbol))[i]? = some symbol) ∧
      ∀ packed i, u.tryGetPackedIndex packed = some i ↔ u.packed[i]? = some packed := by
  obtain ⟨m, hm, hsymbol⟩ := addAll_empty h
  obtain ⟨m', hm', hpacked⟩ := addAll_empty (packed_nodup hlisted h)
  exact ⟨⟨ds, ds.map SymbolListing.packed, m, m'⟩, by rw [LoadedUniverse.build, hm, hm'], rfl, rfl,
    hsymbol, hpacked⟩

/-! ## The universe -/

/-- A universe of a size, loaded from an array. -/
structure LoadedUniverse.WellFormed (array : List JsonElement) (size : Nat) (u : LoadedUniverse) :
    Prop where
  length : u.definitions.length = size
  listed : ∀ d ∈ u.definitions, d.Listed
  packed_eq : u.packed = u.definitions.map (·.packed)
  symbols_nodup : (u.definitions.map (·.symbol)).Nodup
  packed_nodup : u.packed.Nodup
  /-- Most active first. -/
  ordered : u.definitions.Pairwise fun d d' => d'.weight.value ≤ d.weight.value
  /-- The elements of the array come before the synthetic ones. -/
  named_first : ∃ named tail, u.definitions = named ++ tail ∧
    named.length = min size array.length ∧ (∀ d ∈ named, ∃ e ∈ array, e.Loads d) ∧
    tail.map (·.symbol) = (List.range' 1 tail.length).map syntheticSymbol
  index_iff : ∀ symbol i,
    u.tryGetIndex symbol = some i ↔ (u.definitions.map (·.symbol))[i]? = some symbol
  packedIndex_iff : ∀ packed i, u.tryGetPackedIndex packed = some i ↔ u.packed[i]? = some packed

/-- A universe of the asked size, or a refusal of the data. -/
def AllOrNothing (array : List JsonElement) (size : Nat) :
    Except LoadException LoadedUniverse → Prop
  | .ok u => u.WellFormed array size
  | .error (.invalidData _) => True
  | .error _ => False

/-- The weights of an array are doubles. -/
def HasDoubles (a : Arithmetic) (array : List JsonElement) : Prop :=
  ∀ e ∈ array, ∀ d, e.listing = some d → a.round d.weight.value = d.weight.value

theorem mem_byWeight {named : List SymbolListing} {d : SymbolListing} :
    d ∈ byWeight named ↔ d ∈ named :=
  List.mem_insertionSort _

theorem byWeight_pairwise (named : List SymbolListing) :
    (byWeight named).Pairwise fun d d' => d'.weight.value ≤ d.weight.value := by
  have htotal : Std.Total fun d d' : SymbolListing => d'.weight.value ≤ d.weight.value :=
    ⟨fun d d' => le_total d'.weight.value d.weight.value⟩
  have htrans : IsTrans SymbolListing fun d d' => d'.weight.value ≤ d.weight.value :=
    ⟨fun _ _ _ h h' => le_trans h' h⟩
  exact List.pairwise_insertionSort _ named

/-- The last of an ordered list is the least. -/
theorem getLast_le {ds : List SymbolListing} {last : SymbolListing}
    (h : ds.Pairwise fun d d' => d'.weight.value ≤ d.weight.value) (hlast : ds.getLast? = some last)
    {d : SymbolListing} (hd : d ∈ ds) : last.weight.value ≤ d.weight.value := by
  have hsplit := List.dropLast_append_getLast? last hlast
  rw [← hsplit, List.mem_append, List.mem_singleton] at hd
  rw [← hsplit, List.pairwise_append] at h
  rcases hd with hd | rfl
  · exact h.2.2 d hd last (List.mem_singleton_self last)
  · exact le_rfl

/-- What the named part of a universe is. -/
structure NamedPart (array : List JsonElement) (size : Nat) (named : List SymbolListing) :
    Prop where
  length : named.length = min size array.length
  spells : ∀ d ∈ named, ∃ e ∈ array, Spells e d
  ordered : named.Pairwise fun d d' => d'.weight.value ≤ d.weight.value

theorem NamedPart.of_parsed {array : List JsonElement} {ds : List SymbolListing}
    (h : List.Forall₂ Spells array ds) (size : Nat) :
    NamedPart array size ((byWeight ds).take size) where
  length := by
    rw [List.length_take, byWeight, List.length_insertionSort, h.length_eq]
  spells := by
    intro d hd
    obtain ⟨i, hi, rfl⟩ := List.getElem_of_mem (mem_byWeight.mp (List.mem_of_mem_take hd))
    have hi' : i < array.length := h.length_eq ▸ hi
    exact ⟨array[i], List.getElem_mem hi', (List.forall₂_iff_get.mp h).2 i hi' hi⟩
  ordered := (byWeight_pairwise ds).sublist (List.take_sublist size _)

/-- Named and synthetic symbols together are ordered by their weights. -/
theorem NamedPart.ordered_append {a : Arithmetic} (ha : a.Lawful) {array : List JsonElement}
    {size : Nat} {named tail : List SymbolListing} (h : NamedPart array size named)
    (hdoubles : HasDoubles a array) {last : SymbolListing} (hlast : named.getLast? = some last)
    (htail : tail.map (·.weight.value) =
      (List.range' 1 tail.length).map (tailWeight a last.weight.value)) :
    (named ++ tail).Pairwise fun d d' => d'.weight.value ≤ d.weight.value := by
  obtain ⟨e, he, -, hlisted, d, hd, hweight⟩ := h.spells last (List.mem_of_getLast? hlast)
  have hleast : 0 ≤ last.weight.value := hlisted.weight_pos.le
  have hdouble : a.round last.weight.value = last.weight.value := by
    rw [hweight]
    exact hdoubles e he d hd
  refine List.pairwise_append.mpr ⟨h.ordered, ?_, fun d hd d' hd' => ?_⟩
  · have hranks : ((List.range' 1 tail.length).map
        (tailWeight a last.weight.value)).Pairwise (fun w w' : ℚ => w' ≤ w) := by
      rw [List.pairwise_map]
      refine List.pairwise_iff_getElem.mpr fun i j hi hj hij => ?_
      rw [List.getElem_range', List.getElem_range']
      exact ha.tailWeight_antitone hleast (by omega) (by omega)
    rw [← htail, List.pairwise_map] at hranks
    exact hranks
  · have hmem : d'.weight.value ∈ tail.map (·.weight.value) := List.mem_map_of_mem hd'
    rw [htail, List.mem_map] at hmem
    obtain ⟨rank, hrank, heq⟩ := hmem
    have hone : 1 ≤ rank := (List.mem_range'_1.mp hrank).1
    calc d'.weight.value = tailWeight a last.weight.value rank := heq.symm
      _ ≤ last.weight.value := ha.tailWeight_le hleast hdouble hone
      _ ≤ d.weight.value := getLast_le h.ordered hlast hd

/-- Listed and ordered symbols, the named ones first, make a universe unless one is listed
twice. -/
theorem NamedPart.exists_build {array : List JsonElement} {size : Nat}
    {named tail : List SymbolListing} (h : NamedPart array size named)
    (hlength : tail.length = size - named.length) (hlisted : ∀ d ∈ tail, d.Listed)
    (hsymbols : tail.map (·.symbol) = (List.range' 1 tail.length).map syntheticSymbol)
    (hordered : (named ++ tail).Pairwise fun d d' => d'.weight.value ≤ d.weight.value)
    (hnodup : ((named ++ tail).map (·.symbol)).Nodup) :
    ∃ u, LoadedUniverse.build (named ++ tail) = .ok u ∧ u.WellFormed array size := by
  have hall : ∀ d ∈ named ++ tail, d.Listed := by
    intro d hd
    rcases List.mem_append.mp hd with hd | hd
    · obtain ⟨e, -, hspelled⟩ := h.spells d hd
      exact hspelled.2.1
    · exact hlisted d hd
  have hle : named.length ≤ size := h.length.trans_le (Nat.min_le_left _ _)
  obtain ⟨u, hu, hdefs, hpacked, hindex, hpackedIndex⟩ := build_spec hall hnodup
  refine ⟨u, hu, ?_⟩
  exact
    { length := by rw [hdefs, List.length_append, hlength, Nat.add_sub_cancel' hle]
      listed := by rwa [hdefs]
      packed_eq := by rw [hpacked, hdefs]
      symbols_nodup := by rwa [hdefs]
      packed_nodup := by rw [hpacked]; exact packed_nodup hall hnodup
      ordered := by rwa [hdefs]
      named_first := by
        refine ⟨named, tail, hdefs, h.length, fun d hd => ?_, hsymbols⟩
        obtain ⟨e, he, hspelled⟩ := h.spells d hd
        exact ⟨e, he, hspelled.1⟩
      index_iff := by rwa [hdefs]
      packedIndex_iff := hpackedIndex }

/-- Once the array is read, loading gives a universe or refuses the data. -/
theorem allOrNothing_of_parsed {a : Arithmetic} (ha : a.Lawful) {array : List JsonElement}
    {size : Nat} (hsize : 1 ≤ size) (hmax : size ≤ maxSize) (hdoubles : HasDoubles a array)
    (seed : UInt64) {ds : List SymbolListing} (hds : parseNamed array = .ok ds) (hne : ds ≠ [])
    (hspells : List.Forall₂ Spells array ds) :
    AllOrNothing array size (loadFrom a array size seed) := by
  have hnamed := NamedPart.of_parsed hspells size
  rw [loadFrom, if_neg (by omega), hds]
  dsimp only
  generalize (byWeight ds).take size = named at hnamed ⊢
  have hcount : named ≠ [] := by
    intro hnil
    have hlength := hnamed.length
    have harray : array.length ≠ 0 := by
      rw [hspells.length_eq]
      exact fun hzero => hne (List.length_eq_zero_iff.mp hzero)
    rw [hnil, List.length_nil] at hlength
    omega
  obtain ⟨last, hlast⟩ : ∃ last, named.getLast? = some last :=
    ⟨_, List.getLast?_eq_some_getLast hcount⟩
  rw [hlast]
  rcases syntheticTail_cases a last.weight.value (size - named.length) 1
      (seed ^^^ 0x53594E5449434B52) with
    ⟨tail, htail, hlisted, hsymbols, hweights⟩ | ⟨reason, htail⟩
  · have hlength : tail.length = size - named.length := by
      simpa using congrArg List.length hsymbols
    simp only [Option.map_some, Option.getD_some, htail]
    cases htwice : firstListedTwice [] ((named ++ tail).map (·.symbol)) with
    | some symbol => trivial
    | none =>
      have hnodup := (firstListedTwice_eq_none htwice).1
      rw [← hlength] at hsymbols hweights
      have hordered := hnamed.ordered_append ha hdoubles hlast hweights
      obtain ⟨u, hu, hwell⟩ := hnamed.exists_build hlength hlisted hsymbols hordered hnodup
      simp only [hu]
      exact hwell
  · simp only [Option.map_some, Option.getD_some, htail]
    trivial

/-- A misread array throws past the refusals. -/
theorem not_allOrNothing_of_misread (a : Arithmetic) {array : List JsonElement} {size : Nat}
    (hsize : 1 ≤ size) (hmax : size ≤ maxSize) (seed : UInt64) (h : Misread array) :
    ¬ AllOrNothing array size (loadFrom a array size seed) := by
  rcases parseNamed_cases array with ⟨hnot, -⟩ | ⟨hnot, -⟩ | ⟨-, reason, hds⟩
  · exact absurd h hnot
  · exact absurd h hnot
  · rw [loadFrom, if_neg (by omega), hds]
    exact id

/-- Arithmetic on the grid that doubles have between a half and one. -/
def gridArithmetic : Arithmetic where
  round x := ⌊x * 9007199254740992 + 1 / 2⌋ / 9007199254740992
  pow rank := rank
  toDecimal x := ⌊x * 1000000000000000 + 1 / 2⌋ / 1000000000000000

theorem gridArithmetic_lawful : gridArithmetic.Lawful where
  round_mono := by
    intro x y hxy
    refine div_le_div_of_nonneg_right ?_ (by norm_num)
    exact_mod_cast Int.floor_mono (by linarith)
  round_idem := by
    intro x
    simp only [gridArithmetic]
    rw [div_mul_cancel₀ _ (by norm_num), Int.floor_intCast_add]
    norm_num
  round_zero := by norm_num [gridArithmetic]
  round_one := by norm_num [gridArithmetic]
  one_le_pow := by
    intro rank hrank
    exact Nat.one_le_cast.mpr hrank
  pow_mono := by
    intro rank rank' hle
    exact Nat.cast_le.mpr hle

/-- `COMI`, with a suffix. -/
def comi (suffix : Text) : JsonElement :=
  .object (some ([0x43, 0x4F, 0x4D, 0x49] ++ suffix)) (some [0x43, 0x49, 0x42]) (some 80)
    (some (1 / 100)) (some 100) (some (.finite 1))

theorem hasDoubles_comi (suffix : Text) : HasDoubles gridArithmetic [comi suffix] := by
  intro e he d hd
  obtain rfl := List.mem_singleton.mp he
  cases hd
  exact gridArithmetic_lawful.round_one

end Tckr.Reference
