import Tckr.Core.Wrapping
import Tckr.Exchange.Generation.Tape

/-!
# The quantity law

A quantity should be a positive whole number of lots between the configured
limits. The product of lots and lot size is taken in 32 bits, so this holds of
every draw exactly when the ranges of lots that a draw can reach fit below one
another's wraparound.
-/

namespace Tckr.Generation

/-- A positive whole number of lots, between the smallest and the largest order. -/
structure QuantityLaw (o : GenerationOptions) (lotSize : Nat) (quantity : UInt32) : Prop where
  pos : 0 < quantity.toNat
  dvd : lotSize ∣ quantity.toNat
  lower : min o.minLots o.blockMinLots * lotSize ≤ quantity.toNat
  upper : quantity.toNat ≤ max o.maxLots o.blockMaxLots * lotSize

/-- The ranges of lots that some draw reaches keep whole lots in 32 bits. -/
structure LotsFit (o : GenerationOptions) (lotSize : Nat) : Prop where
  normal : o.blockThresholdQ32 < 4294967296 →
    Fits 4294967296 lotSize (min o.minLots o.blockMinLots) o.minLots o.maxLots
  block : 0 < o.blockThresholdQ32 →
    Fits 4294967296 lotSize (min o.minLots o.blockMinLots) o.blockMinLots o.blockMaxLots

/-! ## The lots of a draw -/

section Lots

variable {o : GenerationOptions}

theorem low_lt (draw : UInt64) : low draw < 4294967296 :=
  Nat.mod_lt _ (Nat.zero_lt_succ _)

/-- Every pair of fields is a draw's. -/
theorem exists_draw {h l : Nat} (hh : h < 4294967296) (hl : l < 4294967296) :
    ∃ draw : UInt64, high draw = h ∧ low draw = l := by
  refine ⟨UInt64.ofNat (h * 4294967296 + l), ?_⟩
  unfold high low
  rw [UInt64.toNat_ofNat']
  omega

/-- A draw is in one of the two ranges. -/
theorem lots_mem (ho : o.Validated) (d : Draws) :
    (low d.size < o.blockThresholdQ32 ∧ o.blockMinLots ≤ lots o d ∧ lots o d ≤ o.blockMaxLots) ∨
      (o.blockThresholdQ32 ≤ low d.size ∧ o.minLots ≤ lots o d ∧ lots o d ≤ o.maxLots) := by
  have horder := ho.minLots_le
  have hblock := ho.blockMinLots_le
  have hlots : lemire (high d.size) o.lotOutcomes < o.lotOutcomes :=
    lemire_lt (high_lt d.size) (Nat.succ_pos _)
  have hblocks : lemire (high d.size) o.blockLotOutcomes < o.blockLotOutcomes :=
    lemire_lt (high_lt d.size) (Nat.succ_pos _)
  unfold GenerationOptions.lotOutcomes at hlots
  unfold GenerationOptions.blockLotOutcomes at hblocks
  by_cases hlow : low d.size < o.blockThresholdQ32
  · refine .inl ⟨hlow, ?_⟩
    rw [lots, if_pos hlow, GenerationOptions.blockLotOutcomes]
    omega
  · refine .inr ⟨not_lt.mp hlow, ?_⟩
    rw [lots, if_neg hlow, GenerationOptions.lotOutcomes]
    omega

/-- Every normal size is drawn, unless every draw is a block. -/
theorem exists_lots_eq (ho : o.Validated) (hthreshold : o.blockThresholdQ32 < 4294967296) {n : Nat}
    (hmin : o.minLots ≤ n) (hmax : n ≤ o.maxLots) :
    ∃ size : UInt64, ∀ d : Draws, d.size = size → lots o d = n := by
  have hle := ho.maxLots_le
  have hone := ho.one_le_minLots
  have hmem : n - o.minLots < o.lotOutcomes ∧ o.lotOutcomes ≤ 4294967296 := by
    unfold GenerationOptions.lotOutcomes
    omega
  obtain ⟨h, hlt, hscaled⟩ := exists_scaled_eq hmem.1 hmem.2
  obtain ⟨size, hhigh, hlow⟩ := exists_draw hlt hthreshold
  refine ⟨size, fun d hd => ?_⟩
  rw [lots, hd, hlow, hhigh, if_neg (lt_irrefl _), lemire, hscaled]
  omega

/-- Every block size is drawn, unless no draw is a block. -/
theorem exists_blockLots_eq (ho : o.Validated) (hthreshold : 0 < o.blockThresholdQ32) {n : Nat}
    (hmin : o.blockMinLots ≤ n) (hmax : n ≤ o.blockMaxLots) :
    ∃ size : UInt64, ∀ d : Draws, d.size = size → lots o d = n := by
  have hle := ho.blockMaxLots_le
  have hone := ho.one_le_blockMinLots
  have hmem : n - o.blockMinLots < o.blockLotOutcomes ∧ o.blockLotOutcomes ≤ 4294967296 := by
    unfold GenerationOptions.blockLotOutcomes
    omega
  obtain ⟨h, hlt, hscaled⟩ := exists_scaled_eq hmem.1 hmem.2
  obtain ⟨size, hhigh, hlow⟩ := exists_draw hlt (Nat.zero_lt_succ _)
  refine ⟨size, fun d hd => ?_⟩
  rw [lots, hd, hlow, hhigh, if_pos hthreshold, lemire, hscaled]
  omega

end Lots

/-! ## One quantity -/

section Quantity

variable {o : GenerationOptions} {s : SymbolState}

theorem toNat_quantity (o : GenerationOptions) (d : Draws) (s : SymbolState) :
    (quantity o d s).toNat = lots o d * s.lotSize % 4294967296 := by
  rw [quantity, UInt32.toNat_ofNat']

/-- The smallest order is at least one lot. -/
theorem one_le_min (ho : o.Validated) : 1 ≤ min o.minLots o.blockMinLots :=
  le_min ho.one_le_minLots ho.one_le_blockMinLots

/-- Whole lots above the floor are all that the law asks for. -/
theorem quantityLaw_of_kept (ho : o.Validated) (hlot : 1 ≤ s.lotSize) {d : Draws}
    (h : s.lotSize ∣ lots o d * s.lotSize % 4294967296 ∧
      min o.minLots o.blockMinLots * s.lotSize ≤ lots o d * s.lotSize % 4294967296) :
    QuantityLaw o s.lotSize (quantity o d s) := by
  have hmax : lots o d ≤ max o.maxLots o.blockMaxLots := by
    rcases lots_mem ho d with ⟨-, -, hle⟩ | ⟨-, -, hle⟩
    · exact hle.trans (le_max_right _ _)
    · exact hle.trans (le_max_left _ _)
  obtain ⟨hdvd, hfloor⟩ := h
  rw [← toNat_quantity] at hdvd hfloor
  refine ⟨?_, hdvd, hfloor, ?_⟩
  · exact (Nat.mul_pos (one_le_min ho) hlot).trans_le hfloor
  · rw [toNat_quantity]
    exact (Nat.mod_le _ _).trans (Nat.mul_le_mul_right _ hmax)

theorem QuantityLaw.kept {d : Draws} (h : QuantityLaw o s.lotSize (quantity o d s)) :
    s.lotSize ∣ lots o d * s.lotSize % 4294967296 ∧
      min o.minLots o.blockMinLots * s.lotSize ≤ lots o d * s.lotSize % 4294967296 := by
  rw [← toNat_quantity]
  exact ⟨h.dvd, h.lower⟩

/-- Every draw's quantity is lawful exactly when the reachable ranges of lots fit. -/
theorem forall_quantityLaw_iff (ho : o.Validated) (hlot : 1 ≤ s.lotSize) :
    (∀ d : Draws, QuantityLaw o s.lotSize (quantity o d s)) ↔ LotsFit o s.lotSize := by
  have hbase : 0 < 4294967296 := Nat.zero_lt_succ _
  have hnormal := fits_iff hlot hbase
    (one_le_min ho) ho.minLots_le
  have hblock := fits_iff hlot hbase
    (one_le_min ho) ho.blockMinLots_le
  constructor
  · intro h
    refine ⟨fun hthreshold => hnormal.mpr fun n hmin hmax => ?_,
      fun hthreshold => hblock.mpr fun n hmin hmax => ?_⟩
    · obtain ⟨size, hsize⟩ := exists_lots_eq ho hthreshold hmin hmax
      exact hsize ⟨0, 0, 0, size, 0⟩ rfl ▸ (h ⟨0, 0, 0, size, 0⟩).kept
    · obtain ⟨size, hsize⟩ := exists_blockLots_eq ho hthreshold hmin hmax
      exact hsize ⟨0, 0, 0, size, 0⟩ rfl ▸ (h ⟨0, 0, 0, size, 0⟩).kept
  · intro h d
    apply quantityLaw_of_kept ho hlot
    rcases lots_mem ho d with ⟨hlow, hmin, hmax⟩ | ⟨hlow, hmin, hmax⟩
    · exact hblock.mp (h.block (by omega)) _ hmin hmax
    · exact hnormal.mp (h.normal (hlow.trans_lt (low_lt d.size))) _ hmin hmax

end Quantity

/-! ## Every run -/

section Runs

variable {c : GeneratorConfig} {g g' : RandomWalkGenerator}

/-- Every symbol trades in the lots of its definition. -/
structure Lotted (c : GeneratorConfig) (g : RandomWalkGenerator) : Prop where
  length : g.states.length = c.symbolUniverse.symbols.length
  lotSize : Each c (fun definition s => s.lotSize = definition.lotSize) g

/-- A session trades in the lots of the definition, whatever the state it opens from. -/
theorem resetSymbol_lotSize {o : GenerationOptions} {opened : Bool} {d : SymbolDefinition}
    {s t : SymbolState} (h : resetSymbol o opened d s = some t) : t.lotSize = d.lotSize := by
  simp only [resetSymbol, Option.bind_eq_some_iff, Option.map_eq_some_iff] at h
  obtain ⟨_, -, _, -, _, -, rfl⟩ := h
  rfl

/-- Opening a session makes every symbol trade in its lots. -/
theorem Lotted.of_reset {reading : ClockReading}
    (hlength : g.states.length = c.symbolUniverse.symbols.length)
    (h : resetSession c reading g = some g') : Lotted c g' := by
  exact ⟨(resetSymbols_getElem? (resetSession_states h).1).1.trans hlength,
    .of_reset h fun _ _ _ _ _ _ => resetSymbol_lotSize⟩

theorem Lotted.of_construct {reading : ClockReading} (h : construct c reading = some g) :
    Lotted c g :=
  Lotted.of_reset (List.length_map _) h

/-- An event keeps the lots of every symbol. -/
theorem Lotted.of_emits {d : Draws} {index : Nat} {r : TapeRecord} {definition : SymbolDefinition}
    {s : SymbolState} (h : Lotted c g) (he : Emits c d g index r g' definition s) :
    Lotted c g' := by
  obtain ⟨_, _, hnext⟩ := nextSymbol_eq c.options d s
  refine ⟨by rw [he.states_eq, List.length_set, h.length], h.lotSize.of_emits he fun hs => ?_⟩
  rw [hnext]
  exact hs

/-- What one step preserves. -/
theorem Lotted.step {t u : Tape} {a : Action} (h : Lotted c t.generator)
    (hu : t.step c a = some u) : Lotted c u.generator := by
  cases a with
  | next d timestamp =>
    simp only [Tape.step, Option.bind_eq_some_iff, Option.map_eq_some_iff] at hu
    obtain ⟨⟨index, r, g'⟩, hnext, after, -, rfl⟩ := hu
    obtain ⟨definition, s, he⟩ := next_emits hnext
    exact h.of_emits he
  | reset reading =>
    simp only [Tape.step, Option.map_eq_some_iff] at hu
    obtain ⟨g', hg, rfl⟩ := hu
    exact .of_reset h.length hg

/-- In every run every symbol trades in the lots of its definition. -/
theorem lotted_run {reading : ClockReading} {actions : List Action} {t : Tape}
    (hg : construct c reading = some g) (h : (tape c g).run actions = some t) :
    Lotted c t.generator :=
  Machine.run_invariant (m := tape c g) (I := fun t => Lotted c t.generator)
    (Lotted.of_construct hg) (fun _ _ _ hs hu => hs.step hu) h

/-- The quantity of a record is the one drawn for its symbol. -/
theorem next_quantity {d : Draws} {timestamp : Int} {index : Nat} {r : TapeRecord}
    (h : next c d timestamp g = some (index, r, g')) :
    index = c.symbolUniverse.picker.next d.pick ∧
      ∃ s, g.states[index]? = some s ∧ r.quantity = quantity c.options d s := by
  unfold next at h
  dsimp only at h
  split at h
  · rename_i s definition hs hdefinition
    simp only [Option.some.injEq, Prod.mk.injEq] at h
    obtain ⟨rfl, rfl, rfl⟩ := h
    exact ⟨rfl, s, hs, rfl⟩
  · exact absurd h nofun

/-- A draw emits a record of the symbol it picks. -/
theorem exists_next_quantity {d : Draws} (timestamp : Int) {definition : SymbolDefinition}
    {s : SymbolState} (hs : g.states[c.symbolUniverse.picker.next d.pick]? = some s)
    (hdefinition : c.symbolUniverse.symbols[c.symbolUniverse.picker.next d.pick]? =
      some definition) :
    ∃ r g', next c d timestamp g = some (c.symbolUniverse.picker.next d.pick, r, g') ∧
      r.quantity = quantity c.options d s := by
  unfold next
  dsimp only
  rw [hs, hdefinition]
  exact ⟨_, _, rfl, rfl⟩

/-- In every state a run reaches, the quantity of every draw is lawful exactly when the ranges
of lots fit for every symbol that a draw can pick. -/
theorem quantity_law_iff {reading : ClockReading} {actions : List Action} {t : Tape}
    (ho : c.options.Validated) (hu : c.symbolUniverse.Loaded) (hg : construct c reading = some g)
    (h : (tape c g).run actions = some t) :
    (∀ d timestamp index r g' definition,
        next c d timestamp t.generator = some (index, r, g') →
        c.symbolUniverse.symbols[index]? = some definition →
        QuantityLaw c.options definition.lotSize r.quantity) ↔
      ∀ pick definition,
        c.symbolUniverse.symbols[c.symbolUniverse.picker.next pick]? = some definition →
        LotsFit c.options definition.lotSize := by
  have hlotted := lotted_run hg h
  constructor
  · intro hlaw pick definition hdefinition
    obtain ⟨hlt, -⟩ := List.getElem?_eq_some_iff.mp hdefinition
    obtain ⟨s, hs⟩ : ∃ s, t.generator.states[c.symbolUniverse.picker.next pick]? = some s :=
      ⟨_, List.getElem?_eq_getElem (hlotted.length ▸ hlt)⟩
    have hsize := hlotted.lotSize _ definition s hdefinition hs
    have hlot := (hu.validated definition (List.mem_of_getElem? hdefinition)).one_le_lotSize
    rw [← hsize, ← forall_quantityLaw_iff ho (hsize ▸ hlot)]
    -- The lots do not depend on the pick, so any draw may be made to pick this symbol.
    intro d
    obtain ⟨r, g', hnext, hquantity⟩ :=
      exists_next_quantity (d := { d with pick }) 0 hs hdefinition
    have hlawful := hlaw _ 0 _ r g' definition hnext hdefinition
    rw [hquantity, ← hsize] at hlawful
    exact hlawful
  · intro hfit d timestamp index r g' definition hnext hdefinition
    obtain ⟨rfl, s, hs, hquantity⟩ := next_quantity hnext
    have hsize := hlotted.lotSize _ definition s hdefinition hs
    have hlot := (hu.validated definition (List.mem_of_getElem? hdefinition)).one_le_lotSize
    rw [hquantity, ← hsize]
    exact (forall_quantityLaw_iff ho (hsize ▸ hlot)).mpr
      (hsize ▸ hfit d.pick definition hdefinition) d

/-- The instruments of `twoSymbols` under the default options. -/
theorem twoSymbols_loaded : twoSymbols.symbolUniverse.Loaded := by
  refine ⟨fun d hd => ?_, by decide, by decide⟩
  simp only [twoSymbols, List.mem_cons, List.not_mem_nil, or_false] at hd
  rcases hd with rfl | rfl
  · exact ⟨by norm_num, by norm_num, by norm_num, by norm_num⟩
  · exact ⟨by norm_num, by norm_num, by norm_num, by norm_num⟩

theorem quantity_law_iff_twoSessions : ∃ g t, construct twoSymbols ⟨0, 0⟩ = some g ∧
    (tape twoSymbols g).run twoSessions = some t ∧
    ∀ d timestamp index r g' definition, next twoSymbols d timestamp t.generator =
        some (index, r, g') → twoSymbols.symbolUniverse.symbols[index]? = some definition →
      QuantityLaw twoSymbols.options definition.lotSize r.quantity := by
  have hrun : ((construct twoSymbols ⟨0, 0⟩).bind fun g =>
      ((tape twoSymbols g).run twoSessions)).isSome = true := by decide +kernel
  obtain ⟨t, ht⟩ := Option.isSome_iff_exists.mp hrun
  obtain ⟨g, hg, ht⟩ := Option.bind_eq_some_iff.mp ht
  refine ⟨g, t, hg, ht, (quantity_law_iff GenerationOptions.validated_default
    twoSymbols_loaded hg ht).mpr fun pick definition hdefinition => ?_⟩
  have hmem := List.mem_of_getElem? hdefinition
  simp only [twoSymbols, List.mem_cons, List.not_mem_nil, or_false] at hmem
  rcases hmem with rfl | rfl
  · exact ⟨fun _ => by decide, fun _ => by decide⟩
  · exact ⟨fun _ => by decide, fun _ => by decide⟩

/-- The instruments of `twoSymbols`, with no limit of its own on the lots of an order. -/
def unlimitedLots : GeneratorConfig := { twoSymbols with options := { maxLots := 2147483647 } }

theorem unlimitedLots_validated : unlimitedLots.options.Validated := by
  constructor <;> norm_num [unlimitedLots, longMaxValue]

/-- The largest order of ten-share lots wraps around to a fraction of a lot. -/
theorem not_quantity_law : ¬ ∀ (c : GeneratorConfig) (reading : ClockReading)
    (g : RandomWalkGenerator) (actions : List Action) (t : Tape), c.options.Validated →
    c.symbolUniverse.Loaded → construct c reading = some g →
    (tape c g).run actions = some t →
    ∀ d timestamp index r g' definition,
      next c d timestamp t.generator = some (index, r, g') →
      c.symbolUniverse.symbols[index]? = some definition →
      QuantityLaw c.options definition.lotSize r.quantity := by
  intro h
  have hrun : ((construct unlimitedLots ⟨0, 0⟩).bind fun g =>
      (next unlimitedLots ⟨0, 0, 0, 18446744073709551615, 0⟩ 0 g).map fun result =>
        (result.1, result.2.1.quantity)) = some (0, 4294967286) := by decide +kernel
  obtain ⟨g, hg, hnext⟩ := Option.bind_eq_some_iff.mp hrun
  obtain ⟨⟨index, r, g'⟩, hnext, heq⟩ := Option.map_eq_some_iff.mp hnext
  obtain ⟨rfl, hquantity⟩ := Prod.mk.inj heq
  have hlaw := h unlimitedLots ⟨0, 0⟩ g [] _ unlimitedLots_validated twoSymbols_loaded hg rfl
    _ 0 _ r g' _ hnext rfl
  have hdvd := hlaw.dvd
  rw [hquantity] at hdvd
  exact absurd hdvd (by decide)

end Runs

end Tckr.Generation
