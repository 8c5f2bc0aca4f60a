import Mathlib.Data.Finset.Card
import Tckr.Exchange.Protocol.Codec
import Tckr.FeedProbe.SymbolTable

/-!
# Each symbol has the figures of its own ticks

The six arrays stay aligned under the slots the index gives out, so a tick touches
the figures of its own symbol only. They are right as long as they fit: a move of
`2^63` or more wraps or throws, a count of `2^63` wraps, and a full table of `2^30`
slots cannot double.
-/

namespace Tckr.FeedProbe.SymbolTable

open Protocol

/-- The prices of the ticks, by symbol. -/
def prices (ticks : List FeedRecord) : List (Symbol8 × Int) :=
  ticks.map fun record => (record.symbol, record.priceScaled.toInt)

/-- Every symbol has one slot, and every slot the figures of its symbol's own ticks. -/
structure Reports (t : SymbolTable) (log : List (Symbol8 × Int)) : Prop where
  slots : ∀ symbol ∈ log.map Prod.fst, ∃! slot, slot < t.slotCount ∧ t.symbolAt slot = symbol
  figures : ∀ slot < t.slotCount, ∃ first rest,
    own (t.symbolAt slot) log = first :: rest ∧ t.figuresAt slot = Figures.of first rest

/-- No tick throws, and the table reports them all. -/
def Tells (verifyOrder : Bool) (ticks : List FeedRecord) : Prop :=
  ∃ t, handleTicks verifyOrder (create defaultCapacity) ticks = .ok t ∧ Reports t (prices ticks)

/-- The most slots that doubling from the default capacity gives. -/
def maxSlots : Nat := defaultCapacity * 2 ^ 21

/-- The figures of the ticks fit the table. -/
structure Fits (log : List (Symbol8 × Int)) : Prop where
  symbols : (log.map Prod.fst).toFinset.card ≤ maxSlots
  counts : ∀ symbol, (own symbol log).length < 2 ^ 63
  moves : ∀ symbol first rest, own symbol log = first :: rest →
    ∀ move ∈ moves first rest, move < 2 ^ 63

/-! ## Arrays -/

theorem getD_set {α : Type} {l : List α} {i : Nat} (h : i < l.length) (v d : α) (j : Nat) :
    (l.set i v).getD j d = if i = j then v else l.getD j d := by
  rw [List.getD_eq_getElem?_getD, List.getElem?_set, List.getD_eq_getElem?_getD]
  by_cases hij : i = j
  · rw [if_pos hij, if_pos h, if_pos hij, Option.getD_some]
  · rw [if_neg hij, if_neg hij]

/-- Padding with the default reads the same. -/
theorem getD_append_replicate {α : Type} (l : List α) (n : Nat) (d : α) (j : Nat) :
    (l ++ List.replicate n d).getD j d = l.getD j d := by
  rw [List.getD_eq_getElem?_getD, List.getD_eq_getElem?_getD]
  by_cases hj : j < l.length
  · rw [List.getElem?_append_left hj]
  · rw [List.getElem?_append_right (Nat.le_of_not_lt hj), List.getElem?_replicate,
      List.getElem?_eq_none (Nat.le_of_not_lt hj)]
    split
    · rfl
    · rfl

theorem length_resize {newSize : Nat} {l : List Int64} (h : l.length ≤ newSize) :
    (resize newSize l).length = newSize := by
  rw [resize, List.length_append, List.length_replicate]
  omega

/-- The arrays are as long as the one of the symbols. -/
structure Aligned (t : SymbolTable) : Prop where
  counts : t.counts.length = t.symbols.length
  minPriceScaled : t.minPriceScaled.length = t.symbols.length
  maxPriceScaled : t.maxPriceScaled.length = t.symbols.length
  lastPriceScaled : t.lastPriceScaled.length = t.symbols.length
  maxMoveScaled : t.maxMoveScaled.length = t.symbols.length

theorem aligned_create (initialCapacity : Nat) : Aligned (create initialCapacity) := by
  constructor
  all_goals simp only [create, List.length_replicate]

/-! ## Recording at a slot -/

/-- What a tick of a slot leaves alone. -/
structure Touches (slot : Nat) (t u : SymbolTable) : Prop where
  index : u.index = t.index
  symbols : u.symbols = t.symbols
  slotCount : u.slotCount = t.slotCount
  aligned : Aligned t → Aligned u
  others : ∀ other, other ≠ slot → u.figuresAt other = t.figuresAt other

variable {t u : SymbolTable} {slot : Nat} {priceScaled : Int64} {log : List (Symbol8 × Int)}

theorem mathAbs_sub {a b : Int64} (h : |a.toInt - b.toInt| < 2 ^ 63) :
    ∃ move, mathAbs (a - b) = .ok move ∧ move.toInt = |a.toInt - b.toInt| := by
  obtain ⟨hlower, hupper⟩ := abs_lt.mp h
  have hexact : (a - b).toInt = a.toInt - b.toInt := by
    rw [Int64.toInt_sub]
    apply Int.bmod_eq_of_le
    · norm_num at hlower ⊢
      omega
    · norm_num at hupper ⊢
      omega
  have hmin : a - b ≠ Int64.minValue := by
    intro heq
    rw [heq, Int64.toInt_minValue] at hexact
    omega
  rw [mathAbs, if_neg hmin]
  refine ⟨_, rfl, ?_⟩
  by_cases hneg : a - b < 0
  · rw [if_pos hneg, Int64.toInt_neg, hexact]
    rw [Int64.lt_iff_toInt_lt, hexact, Int64.toInt_zero] at hneg
    rw [abs_of_neg hneg]
    apply Int.bmod_eq_of_le
    · norm_num
      omega
    · norm_num at hlower ⊢
      omega
  · rw [if_neg hneg, hexact]
    rw [Int64.lt_iff_toInt_lt, hexact, Int64.toInt_zero] at hneg
    rw [abs_of_nonneg (Int.not_lt.mp hneg)]

theorem counted_touches (ha : Aligned t) (count : Int64) (hslot : slot < t.symbols.length) :
    Touches slot t { t with counts := t.counts.set slot count } ∧
      ({ t with counts := t.counts.set slot count } : SymbolTable).figuresAt slot =
        { t.figuresAt slot with count := count.toInt } := by
  have hlength : slot < t.counts.length := ha.counts ▸ hslot
  refine ⟨⟨rfl, rfl, rfl, fun h => ⟨?_, h.2, h.3, h.4, h.5⟩, fun other hother => ?_⟩, ?_⟩
  · rw [List.length_set]
    exact h.1
  · simp only [figuresAt, getD_set hlength, hother.symm, if_false]
  · simp only [figuresAt, getD_set hlength, if_true]

theorem recordFirst_touches (ha : Aligned t) (hslot : slot < t.symbols.length) :
    Touches slot t (t.recordFirst slot priceScaled) ∧
      (t.recordFirst slot priceScaled).figuresAt slot =
        { t.figuresAt slot with
          least := priceScaled.toInt
          greatest := priceScaled.toInt
          last := priceScaled.toInt } := by
  have hmin : slot < t.minPriceScaled.length := ha.minPriceScaled ▸ hslot
  have hmax : slot < t.maxPriceScaled.length := ha.maxPriceScaled ▸ hslot
  have hlast : slot < t.lastPriceScaled.length := ha.lastPriceScaled ▸ hslot
  refine ⟨⟨rfl, rfl, rfl, fun h => ⟨h.1, ?_, ?_, ?_, h.5⟩, fun other hother => ?_⟩, ?_⟩
  · exact List.length_set.trans h.2
  · exact List.length_set.trans h.3
  · exact List.length_set.trans h.4
  · simp only [figuresAt, recordFirst, getD_set hmin, getD_set hmax, getD_set hlast, hother.symm,
      if_false]
  · simp only [figuresAt, recordFirst, getD_set hmin, getD_set hmax, getD_set hlast, if_true]

/-- A conditional overwrite of one slot. -/
theorem getD_ite_set {l : List Int64} {i : Nat} (h : i < l.length) (c : Prop) [Decidable c]
    (v : Int64) (j : Nat) :
    (if c then l.set i v else l).getD j 0 = if i = j ∧ c then v else l.getD j 0 := by
  by_cases hc : c
  · simp only [hc, if_true, and_true]
    exact getD_set h v 0 j
  · simp only [hc, if_false, and_false]

theorem length_ite_set (l : List Int64) (i : Nat) (c : Prop) [Decidable c] (v : Int64) :
    (if c then l.set i v else l).length = l.length := by
  split
  · exact List.length_set
  · rfl

theorem toInt_min (a b : Int64) : (if a < b then a else b).toInt = min b.toInt a.toInt := by
  split
  · rename_i h
    exact (min_eq_right (Int64.lt_iff_toInt_lt.mp h).le).symm
  · rename_i h
    exact (min_eq_left (Int.not_lt.mp (h ∘ Int64.lt_iff_toInt_lt.mpr))).symm

theorem toInt_max (a b : Int64) : (if b < a then a else b).toInt = max b.toInt a.toInt := by
  split
  · rename_i h
    exact (max_eq_right (Int64.lt_iff_toInt_lt.mp h).le).symm
  · rename_i h
    exact (max_eq_left (Int.not_lt.mp (h ∘ Int64.lt_iff_toInt_lt.mpr))).symm

theorem recordNext_touches (ha : Aligned t) (hslot : slot < t.symbols.length) (move : Int64) :
    Touches slot t (t.recordNext slot priceScaled move) ∧
      (t.recordNext slot priceScaled move).figuresAt slot =
        { count := (t.figuresAt slot).count
          least := min (t.figuresAt slot).least priceScaled.toInt
          greatest := max (t.figuresAt slot).greatest priceScaled.toInt
          last := priceScaled.toInt
          widest := max (t.figuresAt slot).widest move.toInt } := by
  have hmin : slot < t.minPriceScaled.length := ha.minPriceScaled ▸ hslot
  have hmax : slot < t.maxPriceScaled.length := ha.maxPriceScaled ▸ hslot
  have hlast : slot < t.lastPriceScaled.length := ha.lastPriceScaled ▸ hslot
  have hmove : slot < t.maxMoveScaled.length := ha.maxMoveScaled ▸ hslot
  refine ⟨⟨rfl, rfl, rfl, fun h => ⟨h.1, ?_, ?_, ?_, ?_⟩, fun other hother => ?_⟩, ?_⟩
  · exact (length_ite_set _ _ _ _).trans h.2
  · exact (length_ite_set _ _ _ _).trans h.3
  · exact List.length_set.trans h.4
  · exact (length_ite_set _ _ _ _).trans h.5
  · simp only [figuresAt, recordNext, getD_ite_set hmin, getD_ite_set hmax, getD_set hlast,
      getD_ite_set hmove, hother.symm, false_and, if_false]
  · simp only [figuresAt, recordNext, getD_ite_set hmin, getD_ite_set hmax, getD_set hlast,
      getD_ite_set hmove, true_and, if_true, toInt_min, toInt_max]

/-- The figures of some prices; a slot without any has counted nothing. -/
def Shows (f : Figures Int) : List Int → Prop
  | [] => f.count = 0 ∧ f.widest = 0
  | first :: rest => f = Figures.of first rest

theorem Touches.trans {v : SymbolTable} (h : Touches slot t u) (h' : Touches slot u v) :
    Touches slot t v where
  index := h'.index.trans h.index
  symbols := h'.symbols.trans h.symbols
  slotCount := h'.slotCount.trans h.slotCount
  aligned := h'.aligned ∘ h.aligned
  others other hother := (h'.others other hother).trans (h.others other hother)

/-- A tick that fits adds its price to the figures of its slot. -/
theorem recordAt_shows (ha : Aligned t) (hslot : slot < t.symbols.length) {before : List Int}
    (hshows : Shows (t.figuresAt slot) before)
    (hcount : (before ++ [priceScaled.toInt]).length < 2 ^ 63)
    (hmoves : ∀ first rest, before ++ [priceScaled.toInt] = first :: rest →
      ∀ move ∈ moves first rest, move < 2 ^ 63) :
    ∃ u, t.recordAt slot priceScaled = .ok u ∧ Touches slot t u ∧
      Shows (u.figuresAt slot) (before ++ [priceScaled.toInt]) := by
  rw [List.length_append, List.length_singleton] at hcount
  have hbefore : (t.counts.getD slot 0).toInt = before.length := by
    cases before with
    | nil => exact hshows.1
    | cons first rest => exact congrArg Figures.count hshows
  obtain ⟨count, hc⟩ : ∃ count, count = t.counts.getD slot 0 + 1 := ⟨_, rfl⟩
  have hexact : count.toInt = before.length + 1 := by
    rw [hc, Int64.toInt_add, hbefore, Int64.toInt_one]
    apply Int.bmod_eq_of_le
    · norm_num
      omega
    · norm_num
      omega
  obtain ⟨htouches, hfigures⟩ := counted_touches ha count hslot
  have hlast : (t.lastPriceScaled.getD slot 0).toInt = (t.figuresAt slot).last := rfl
  obtain ⟨v, hv⟩ : ∃ v, v = { t with counts := t.counts.set slot count } := ⟨_, rfl⟩
  rw [← hv] at htouches hfigures
  have hvslot : slot < v.symbols.length := htouches.symbols ▸ hslot
  unfold recordAt
  dsimp only
  rw [← hc, ← hv]
  cases before with
  | nil =>
    have hone : count = 1 := Int64.toInt_inj.mp (by rw [hexact]; rfl)
    obtain ⟨htouches', hfigures'⟩ :=
      @recordFirst_touches v slot priceScaled (htouches.aligned ha) hvslot
    refine ⟨v.recordFirst slot priceScaled, by rw [if_pos hone], htouches.trans htouches', ?_⟩
    rw [hfigures', hfigures]
    have hwidest : (t.figuresAt slot).widest = 0 := hshows.2
    simp only [List.nil_append, Shows, Figures.of, hwidest, hexact, moves, List.foldl_nil,
      List.getLastD_nil, List.length_nil]
  | cons first rest =>
    have hne : count ≠ 1 := by
      intro hone
      rw [hone, Int64.toInt_one, List.length_cons] at hexact
      omega
    have hshows : t.figuresAt slot = Figures.of first rest := hshows
    have hmove : |priceScaled.toInt - (t.lastPriceScaled.getD slot 0).toInt| < 2 ^ 63 := by
      apply hmoves first (rest ++ [priceScaled.toInt]) rfl
      rw [moves_append_singleton, List.mem_append, List.mem_singleton, hlast, hshows]
      exact .inr rfl
    obtain ⟨move, habs, hvalue⟩ := mathAbs_sub hmove
    obtain ⟨htouches', hfigures'⟩ :=
      @recordNext_touches v slot priceScaled (htouches.aligned ha) hvslot move
    refine ⟨v.recordNext slot priceScaled move, by rw [if_neg hne, habs]; rfl,
      htouches.trans htouches', ?_⟩
    show (v.recordNext slot priceScaled move).figuresAt slot =
      Figures.of first (rest ++ [priceScaled.toInt])
    rw [Figures.of_append_singleton, ← hshows, hfigures', hfigures, hvalue, hlast, hexact]
    simp only [Figures.note, hshows, Figures.of, List.length_cons]
    push_cast
    rfl

/-! ## Slots -/

/-- The arrays double from the default capacity, and the slots in use fit them. -/
structure Sized (t : SymbolTable) : Prop where
  capacity : ∃ k ≤ 21, t.symbols.length = defaultCapacity * 2 ^ k
  bounded : t.slotCount ≤ t.symbols.length

/-- What doubling the arrays leaves alone. -/
structure Extends (t u : SymbolTable) : Prop where
  index : u.index = t.index
  slotCount : u.slotCount = t.slotCount
  aligned : Aligned t → Aligned u
  sized : Sized u
  room : u.slotCount < u.symbols.length
  symbolAt : ∀ slot, u.symbolAt slot = t.symbolAt slot
  figuresAt : ∀ slot, u.figuresAt slot = t.figuresAt slot

/-- The table with room for one more slot. -/
def makeRoom (t : SymbolTable) : Except TableException SymbolTable :=
  if t.slotCount = t.symbols.length then t.grow else .ok t

/-- The table with a symbol at its next slot. -/
def assign (t : SymbolTable) (slot : Nat) (symbol : Symbol8) : SymbolTable :=
  { t with
    symbols := t.symbols.set slot symbol
    index := t.index.set symbol slot
    slotCount := t.slotCount + 1 }

theorem makeRoom_extends (h : Sized t) (hok : t.makeRoom = .ok u) : Extends t u := by
  unfold makeRoom at hok
  obtain ⟨k, hk, hlength⟩ := h.capacity
  split at hok
  · rename_i hfull
    unfold grow at hok
    dsimp only at hok
    split at hok
    · cases hok
    · rename_i hfits
      cases hok
      have hpow : t.symbols.length * 2 = defaultCapacity * 2 ^ (k + 1) := by
        rw [hlength, Nat.mul_assoc, ← Nat.pow_succ]
      have hlt : k + 1 ≤ 21 := by
        by_contra hge
        have : 2 ^ 22 ≤ 2 ^ (k + 1) := Nat.pow_le_pow_right (by decide) (by omega)
        rw [hpow, defaultCapacity, maxInt] at hfits
        omega
      have hsymbols : (t.symbols ++ List.replicate (t.symbols.length * 2 - t.symbols.length)
          (⟨0⟩ : Symbol8)).length = t.symbols.length * 2 := by
        rw [List.length_append, List.length_replicate]
        omega
      have hpos : 0 < t.symbols.length := by
        rw [hlength]
        exact Nat.mul_pos (by decide) (Nat.two_pow_pos k)
      refine ⟨rfl, rfl, fun ha => ?_, ⟨⟨k + 1, hlt, hsymbols.trans hpow⟩, ?_⟩, ?_, ?_, ?_⟩
      · constructor
        · exact (length_resize (by rw [ha.1]; omega)).trans hsymbols.symm
        · exact (length_resize (by rw [ha.2]; omega)).trans hsymbols.symm
        · exact (length_resize (by rw [ha.3]; omega)).trans hsymbols.symm
        · exact (length_resize (by rw [ha.4]; omega)).trans hsymbols.symm
        · exact (length_resize (by rw [ha.5]; omega)).trans hsymbols.symm
      · rw [hsymbols, hfull]
        omega
      · rw [hsymbols, hfull]
        omega
      · exact fun slot => getD_append_replicate _ _ _ slot
      · intro slot
        simp only [figuresAt, resize, getD_append_replicate]
  · rename_i hroom
    cases hok
    exact ⟨rfl, rfl, id, h, Nat.lt_of_le_of_ne h.bounded hroom, fun _ => rfl, fun _ => rfl⟩

theorem makeRoom_ok (h : Sized t) (hroom : t.slotCount < maxSlots) : ∃ u, t.makeRoom = .ok u := by
  unfold makeRoom
  split
  · rename_i hfull
    unfold grow
    dsimp only
    rw [if_neg]
    · exact ⟨_, rfl⟩
    · obtain ⟨k, -, hlength⟩ := h.capacity
      rw [hfull, hlength] at hroom
      have hlt : k < 21 := by
        by_contra hge
        exact absurd hroom (Nat.not_lt.mpr
          (Nat.mul_le_mul_left _ (Nat.pow_le_pow_right Nat.two_pos (Nat.not_lt.mp hge))))
      have hpow : 2 ^ k ≤ 2 ^ 20 := Nat.pow_le_pow_right Nat.two_pos (Nat.le_of_lt_succ hlt)
      have hfits : defaultCapacity * 2 ^ k * 2 ≤ defaultCapacity * 2 ^ 20 * 2 :=
        Nat.mul_le_mul_right _ (Nat.mul_le_mul_left _ hpow)
      rw [hlength]
      exact Nat.not_lt.mpr (hfits.trans (by decide))
  · exact ⟨t, rfl⟩

theorem resolveSlot_of_none {symbol : Symbol8} (h : t.index.get? symbol = none) :
    t.resolveSlot symbol = t.makeRoom.map fun u => (u.assign t.slotCount symbol, t.slotCount) := by
  unfold resolveSlot
  rw [h]
  rfl

theorem assign_sized (h : Extends t u) (symbol : Symbol8) :
    Sized (u.assign t.slotCount symbol) := by
  have hlength : (u.assign t.slotCount symbol).symbols.length = u.symbols.length :=
    List.length_set
  refine ⟨?_, ?_⟩
  · rw [hlength]
    exact h.sized.capacity
  · rw [hlength]
    exact h.room

theorem resolveSlot_sized {symbol : Symbol8} (h : Sized t)
    (hok : t.resolveSlot symbol = .ok (u, slot)) : Sized u := by
  cases hget : t.index.get? symbol with
  | some known =>
    unfold resolveSlot at hok
    rw [hget] at hok
    cases hok
    exact h
  | none =>
    rw [resolveSlot_of_none hget] at hok
    cases hv : t.makeRoom with
    | error e =>
      rw [hv] at hok
      cases hok
    | ok v =>
      rw [hv] at hok
      cases hok
      exact assign_sized (makeRoom_extends h hv) symbol

/-! ## Every table -/

/-- The table after some ticks, and the symbols it knows. -/
structure Sound (t : SymbolTable) (known : Finset Symbol8) (log : List (Symbol8 × Int)) :
    Prop where
  aligned : Aligned t
  sized : Sized t
  indexed : ∀ symbol slot,
    t.index.get? symbol = some slot ↔ slot < t.slotCount ∧ t.symbolAt slot = symbol
  knows : ∀ symbol, symbol ∈ known ↔ ∃ slot < t.slotCount, t.symbolAt slot = symbol
  counted : t.slotCount = known.card
  logged : ∀ symbol ∈ log.map Prod.fst, symbol ∈ known
  shows : ∀ slot < t.slotCount, Shows (t.figuresAt slot) (own (t.symbolAt slot) log)
  fresh : ∀ slot, t.slotCount ≤ slot → Shows (t.figuresAt slot) []

variable {known : Finset Symbol8}

theorem sound_create : Sound (create defaultCapacity) ∅ [] where
  aligned := aligned_create _
  sized := ⟨⟨0, Nat.zero_le _, List.length_replicate⟩, Nat.zero_le _⟩
  indexed symbol slot := ⟨fun h => absurd h.symm (Option.some_ne_none slot),
    fun h => absurd h.1 (Nat.not_lt_zero slot)⟩
  knows symbol := ⟨fun h => absurd h (Finset.notMem_empty symbol),
    fun h => absurd h.choose_spec.1 (Nat.not_lt_zero _)⟩
  counted := rfl
  logged symbol h := absurd h List.not_mem_nil
  shows slot h := absurd h (Nat.not_lt_zero slot)
  fresh slot _ := by
    have hread : ∀ n, (List.replicate n (0 : Int64)).getD slot 0 = 0 := fun n => by
      rw [← List.nil_append (List.replicate n (0 : Int64)), getD_append_replicate, List.getD_nil]
    refine ⟨?_, ?_⟩
    · exact congrArg Int64.toInt (hread _)
    · exact congrArg Int64.toInt (hread _)

theorem assign_symbolAt (h : Extends t u) (symbol : Symbol8) (slot : Nat) :
    (u.assign t.slotCount symbol).symbolAt slot =
      if t.slotCount = slot then symbol else t.symbolAt slot := by
  unfold symbolAt assign
  rw [getD_set (h.slotCount ▸ h.room)]
  exact congrArg _ (h.symbolAt slot)

/-- A symbol at first sight gets the next slot. -/
theorem assign_sound (h : Sound t known log) (hx : Extends t u) {symbol : Symbol8}
    (hnew : symbol ∉ known) :
    Sound (u.assign t.slotCount symbol) (insert symbol known) log := by
  have hcount : (u.assign t.slotCount symbol).slotCount = t.slotCount + 1 :=
    congrArg (· + 1) hx.slotCount
  have hfigures : ∀ slot, (u.assign t.slotCount symbol).figuresAt slot = t.figuresAt slot :=
    hx.figuresAt
  have hold : ∀ slot < t.slotCount,
      (u.assign t.slotCount symbol).symbolAt slot = t.symbolAt slot := by
    intro slot hslot
    rw [assign_symbolAt hx, if_neg (Nat.ne_of_gt hslot)]
  have hself : (u.assign t.slotCount symbol).symbolAt t.slotCount = symbol := by
    rw [assign_symbolAt hx, if_pos rfl]
  have hother : ∀ slot < t.slotCount, t.symbolAt slot ≠ symbol := by
    rintro slot hslot rfl
    exact hnew ((h.knows _).mpr ⟨slot, hslot, rfl⟩)
  refine ⟨hx.aligned h.aligned |> fun ha => ?_, assign_sized hx symbol, ?_, ?_, ?_, ?_, ?_, ?_⟩
  · have hlength : (u.assign t.slotCount symbol).symbols.length = u.symbols.length :=
      List.length_set
    exact ⟨ha.1.trans hlength.symm, ha.2.trans hlength.symm, ha.3.trans hlength.symm,
      ha.4.trans hlength.symm, ha.5.trans hlength.symm⟩
  · intro other slot
    show (u.index.set symbol t.slotCount).get? other = some slot ↔ _
    rw [hx.index, hcount, Nat.lt_succ_iff_lt_or_eq]
    by_cases hs : other = symbol
    · subst hs
      rw [OrderedMap.get?_set_self, Option.some.injEq]
      constructor
      · rintro rfl
        exact ⟨.inr rfl, hself⟩
      · rintro ⟨hslot | rfl, hat⟩
        · exact absurd ((hold slot hslot).symm.trans hat) (hother slot hslot)
        · rfl
    · rw [OrderedMap.get?_set_of_ne _ _ hs, h.indexed]
      constructor
      · rintro ⟨hslot, hat⟩
        exact ⟨.inl hslot, (hold slot hslot).trans hat⟩
      · rintro ⟨hslot | rfl, hat⟩
        · exact ⟨hslot, (hold slot hslot).symm.trans hat⟩
        · exact absurd (hat.symm.trans hself) hs
  · intro other
    rw [Finset.mem_insert, h.knows, hcount]
    constructor
    · rintro (rfl | ⟨slot, hslot, hat⟩)
      · exact ⟨t.slotCount, Nat.lt_succ_self _, hself⟩
      · exact ⟨slot, Nat.lt_succ_of_lt hslot, (hold slot hslot).trans hat⟩
    · rintro ⟨slot, hslot, hat⟩
      rcases Nat.lt_succ_iff_lt_or_eq.mp hslot with hslot | rfl
      · exact .inr ⟨slot, hslot, (hold slot hslot).symm.trans hat⟩
      · exact .inl (hat.symm.trans hself)
  · rw [hcount, h.counted, Finset.card_insert_of_notMem hnew]
  · exact fun other hother => Finset.mem_insert_of_mem (h.logged other hother)
  · intro slot hslot
    rw [hcount] at hslot
    rcases Nat.lt_succ_iff_lt_or_eq.mp hslot with hslot | rfl
    · rw [hfigures, hold slot hslot]
      exact h.shows slot hslot
    · rw [hfigures, hself, own_eq_nil.mpr (hnew ∘ h.logged symbol)]
      exact h.fresh _ (Nat.le_refl _)
  · intro slot hslot
    rw [hcount] at hslot
    rw [hfigures]
    exact h.fresh slot (Nat.le_of_succ_le hslot)

theorem resolveSlot_sound (h : Sound t known log) {symbol : Symbol8}
    (hroom : (insert symbol known).card ≤ maxSlots) :
    ∃ u slot, t.resolveSlot symbol = .ok (u, slot) ∧ Sound u (insert symbol known) log ∧
      slot < u.slotCount ∧ u.symbolAt slot = symbol := by
  cases hget : t.index.get? symbol with
  | some slot =>
    obtain ⟨hslot, hat⟩ := (h.indexed symbol slot).mp hget
    have hknown : symbol ∈ known := (h.knows symbol).mpr ⟨slot, hslot, hat⟩
    refine ⟨t, slot, ?_, (Finset.insert_eq_of_mem hknown).symm ▸ h, hslot, hat⟩
    unfold resolveSlot
    rw [hget]
  | none =>
    have hnew : symbol ∉ known := by
      intro hknown
      obtain ⟨slot, hat⟩ := (h.knows symbol).mp hknown
      rw [(h.indexed symbol slot).mpr hat] at hget
      cases hget
    rw [Finset.card_insert_of_notMem hnew, ← h.counted] at hroom
    obtain ⟨u, hu⟩ := makeRoom_ok h.sized hroom
    have hx := makeRoom_extends h.sized hu
    refine ⟨u.assign t.slotCount symbol, t.slotCount, ?_, assign_sound h hx hnew, ?_, ?_⟩
    · rw [resolveSlot_of_none hget, hu]
      rfl
    · exact hx.slotCount ▸ Nat.lt_succ_self _
    · rw [assign_symbolAt hx, if_pos rfl]

/-- A tick at the slot of its symbol is noted in the figures of that symbol only. -/
theorem sound_of_touches (h : Sound t known log) (hslot : slot < t.slotCount)
    (htouches : Touches slot t u)
    (hshows : Shows (u.figuresAt slot) (own (t.symbolAt slot) log ++ [priceScaled.toInt])) :
    Sound u known (log ++ [(t.symbolAt slot, priceScaled.toInt)]) := by
  have hat : ∀ other, u.symbolAt other = t.symbolAt other := by
    intro other
    unfold symbolAt
    rw [htouches.symbols]
  refine ⟨htouches.aligned h.aligned, ?_, ?_, ?_, ?_, ?_, ?_, ?_⟩
  · refine ⟨?_, ?_⟩
    · rw [htouches.symbols]
      exact h.sized.capacity
    · rw [htouches.symbols, htouches.slotCount]
      exact h.sized.bounded
  · intro symbol other
    rw [htouches.index, htouches.slotCount, hat]
    exact h.indexed symbol other
  · intro symbol
    simp only [htouches.slotCount, hat]
    exact h.knows symbol
  · exact htouches.slotCount.trans h.counted
  · intro symbol hsymbol
    rw [List.map_append, List.mem_append, List.map_singleton, List.mem_singleton] at hsymbol
    rcases hsymbol with hsymbol | rfl
    · exact h.logged symbol hsymbol
    · exact (h.knows _).mpr ⟨slot, hslot, rfl⟩
  · intro other hother
    rw [htouches.slotCount] at hother
    rw [hat]
    by_cases hs : other = slot
    · rw [hs, own_append_self]
      exact hshows
    · have hne : t.symbolAt slot ≠ t.symbolAt other := by
        intro heq
        have hmine := (h.indexed (t.symbolAt slot) slot).mpr ⟨hslot, rfl⟩
        have hyours := (h.indexed (t.symbolAt slot) other).mpr ⟨hother, heq.symm⟩
        exact hs (Option.some.inj (hyours.symm.trans hmine))
      rw [own_append_of_ne hne, htouches.others other hs]
      exact h.shows other hother
  · intro other hother
    rw [htouches.slotCount] at hother
    rw [htouches.others other (by omega)]
    exact h.fresh other hother

/-! ## Ticks -/

theorem Fits.of_append {more : List (Symbol8 × Int)} (h : Fits (log ++ more)) : Fits log where
  symbols := by
    refine (Finset.card_le_card ?_).trans h.symbols
    intro symbol hsymbol
    rw [List.mem_toFinset] at hsymbol ⊢
    rw [List.map_append]
    exact List.mem_append_left _ hsymbol
  counts symbol := by
    have hall := h.counts symbol
    rw [own_append, List.length_append] at hall
    exact Nat.lt_of_le_of_lt (Nat.le_add_right _ _) hall
  moves symbol first rest hown move hmove := by
    apply h.moves symbol first (rest ++ own symbol more)
    · rw [own_append, hown, List.cons_append]
    · exact mem_moves_append hmove _

theorem handleTick_sound (verifyOrder : Bool) (record : FeedRecord)
    (h : Sound t (log.map Prod.fst).toFinset log)
    (hfits : Fits (log ++ prices [record])) :
    ∃ u, t.handleTick verifyOrder record = .ok u ∧
      Sound u ((log ++ prices [record]).map Prod.fst).toFinset (log ++ prices [record]) := by
  have hknown : ((log ++ prices [record]).map Prod.fst).toFinset =
      insert record.symbol (log.map Prod.fst).toFinset := by
    rw [List.map_append, List.toFinset_append, Finset.union_comm]
    rfl
  have hsymbols := hfits.symbols
  rw [hknown] at hsymbols ⊢
  obtain ⟨v, slot, hresolve, hv, hslot, hat⟩ := resolveSlot_sound h hsymbols
  have hshows := hv.shows slot hslot
  have hown : own record.symbol (log ++ prices [record]) =
      own record.symbol log ++ [record.priceScaled.toInt] := own_append_self _ _ _
  have hcount := hfits.counts record.symbol
  have hmoves := hfits.moves record.symbol
  rw [hown] at hcount hmoves
  rw [hat] at hshows
  obtain ⟨u, hrecord, htouches, hu⟩ := recordAt_shows hv.aligned
    (Nat.lt_of_lt_of_le hslot hv.sized.bounded) hshows hcount hmoves
  rw [← hat] at hu
  have hsound := sound_of_touches hv hslot htouches hu
  rw [hat] at hsound
  have hok : t.record record.symbol record.priceScaled = .ok (u, slot) := by
    rw [SymbolTable.record, hresolve]
    show Except.map _ (v.recordAt slot record.priceScaled) = _
    rw [hrecord]
    rfl
  unfold handleTick
  rw [hok]
  refine ⟨_, rfl, ?_⟩
  cases verifyOrder with
  | false => exact hsound
  | true =>
    exact ⟨⟨hsound.1.1, hsound.1.2, hsound.1.3, hsound.1.4, hsound.1.5⟩,
      ⟨hsound.2.1, hsound.2.2⟩, hsound.3, hsound.4, hsound.5, hsound.6, hsound.7, hsound.8⟩

theorem handleTicks_sound (verifyOrder : Bool) (ticks : List FeedRecord)
    (h : Sound t (log.map Prod.fst).toFinset log) (hfits : Fits (log ++ prices ticks)) :
    ∃ u, handleTicks verifyOrder t ticks = .ok u ∧
      Sound u ((log ++ prices ticks).map Prod.fst).toFinset (log ++ prices ticks) := by
  induction ticks generalizing t log with
  | nil =>
    refine ⟨t, rfl, ?_⟩
    rw [prices, List.map_nil, List.append_nil]
    exact h
  | cons record ticks ih =>
    have hsplit : log ++ prices (record :: ticks) = log ++ prices [record] ++ prices ticks := by
      rw [List.append_assoc]
      rfl
    rw [hsplit] at hfits ⊢
    obtain ⟨v, hv, hsound⟩ := handleTick_sound verifyOrder record h hfits.of_append
    obtain ⟨u, hu, hlast⟩ := ih hsound hfits
    refine ⟨u, ?_, hlast⟩
    rw [handleTicks, hv]
    exact hu

/-- A table that has every tick reports them. -/
theorem Sound.reports (h : Sound t (log.map Prod.fst).toFinset log) : Reports t log where
  slots symbol hsymbol := by
    obtain ⟨slot, hslot, hat⟩ := (h.knows symbol).mp (List.mem_toFinset.mpr hsymbol)
    refine ⟨slot, ⟨hslot, hat⟩, ?_⟩
    rintro other ⟨hother, hatother⟩
    have hmine := (h.indexed symbol slot).mpr ⟨hslot, hat⟩
    have hyours := (h.indexed symbol other).mpr ⟨hother, hatother⟩
    exact Option.some.inj (hyours.symm.trans hmine)
  figures slot hslot := by
    have hshows := h.shows slot hslot
    cases hown : own (t.symbolAt slot) log with
    | nil =>
      have hknown := (h.knows (t.symbolAt slot)).mpr ⟨slot, hslot, rfl⟩
      exact absurd (List.mem_toFinset.mp hknown) (own_eq_nil.mp hown)
    | cons first rest =>
      rw [hown] at hshows
      exact ⟨first, rest, rfl, hshows⟩

theorem recordAt_sized (h : Sized t) (hok : t.recordAt slot priceScaled = .ok u) : Sized u := by
  unfold recordAt at hok
  dsimp only at hok
  split at hok
  · cases hok
    exact ⟨h.1, h.2⟩
  · generalize mathAbs _ = move at hok
    cases move with
    | error e => cases hok
    | ok move =>
      cases hok
      exact ⟨h.1, h.2⟩

theorem handleTick_sized {verifyOrder : Bool} {record : FeedRecord} (h : Sized t)
    (hok : t.handleTick verifyOrder record = .ok u) : Sized u := by
  unfold handleTick SymbolTable.record at hok
  cases hresolve : t.resolveSlot record.symbol with
  | error e =>
    rw [hresolve] at hok
    cases hok
  | ok r =>
    cases hrecord : r.1.recordAt r.2 record.priceScaled with
    | error e =>
      rw [hresolve, Except.bind, hrecord] at hok
      cases hok
    | ok v =>
      rw [hresolve, Except.bind, hrecord] at hok
      have hv : Sized v := recordAt_sized (resolveSlot_sized h hresolve) hrecord
      cases hok
      cases verifyOrder with
      | false => exact hv
      | true => exact ⟨hv.1, hv.2⟩

theorem handleTicks_sized {verifyOrder : Bool} {ticks : List FeedRecord} (h : Sized t)
    (hok : handleTicks verifyOrder t ticks = .ok u) : Sized u := by
  induction ticks generalizing t with
  | nil =>
    cases hok
    exact h
  | cons record ticks ih =>
    rw [handleTicks] at hok
    cases hv : t.handleTick verifyOrder record with
    | error e =>
      rw [hv] at hok
      cases hok
    | ok v =>
      rw [hv] at hok
      exact ih (handleTick_sized h hv) hok

/-- Figures that are reported were kept in 64 bits, and the symbols in the slots there are. -/
theorem Reports.fits (hsized : Sized t) (h : Reports t log) : Fits log := by
  have hslot : ∀ symbol first rest, own symbol log = first :: rest →
      ∃ slot, t.figuresAt slot = Figures.of first rest := by
    intro symbol first rest hown
    have hmem : symbol ∈ log.map Prod.fst := by
      by_contra hnot
      rw [own_eq_nil.mpr hnot] at hown
      cases hown
    obtain ⟨slot, ⟨hlt, hat⟩, -⟩ := h.slots symbol hmem
    obtain ⟨first', rest', hown', hfigures⟩ := h.figures slot hlt
    rw [hat, hown, List.cons.injEq] at hown'
    rw [hown'.1, hown'.2]
    exact ⟨slot, hfigures⟩
  refine ⟨?_, fun symbol => ?_, fun symbol first rest hown => ?_⟩
  · have hsub : (log.map Prod.fst).toFinset ⊆ (Finset.range t.slotCount).image t.symbolAt := by
      intro symbol hsymbol
      obtain ⟨slot, hslot, -⟩ := h.slots symbol (List.mem_toFinset.mp hsymbol)
      exact Finset.mem_image.mpr ⟨slot, Finset.mem_range.mpr hslot.1, hslot.2⟩
    obtain ⟨k, hk, hcapacity⟩ := hsized.capacity
    calc (log.map Prod.fst).toFinset.card
        ≤ ((Finset.range t.slotCount).image t.symbolAt).card := Finset.card_le_card hsub
      _ ≤ t.slotCount := Finset.card_image_le.trans (Finset.card_range _).le
      _ ≤ defaultCapacity * 2 ^ k := hcapacity ▸ hsized.bounded
      _ ≤ maxSlots := Nat.mul_le_mul_left _ (Nat.pow_le_pow_right Nat.two_pos hk)
  · cases hown : own symbol log with
    | nil => exact Nat.two_pow_pos 63
    | cons first rest =>
      obtain ⟨slot, hfigures⟩ := hslot symbol first rest hown
      have hcount : (t.counts.getD slot 0).toInt = rest.length + 1 :=
        congrArg Figures.count hfigures
      have hlt := Int64.toInt_lt (t.counts.getD slot 0)
      rw [hcount] at hlt
      rw [List.length_cons]
      omega
  · obtain ⟨slot, hfigures⟩ := hslot symbol first rest hown
    have hwidest : (t.maxMoveScaled.getD slot 0).toInt = (moves first rest).foldl max 0 :=
      congrArg Figures.widest hfigures
    have hlt := Int64.toInt_lt (t.maxMoveScaled.getD slot 0)
    rw [hwidest] at hlt
    exact (foldl_max_lt_iff.mp hlt).2

theorem Tells.fits {verifyOrder : Bool} {ticks : List FeedRecord} (h : Tells verifyOrder ticks) :
    Fits (prices ticks) := by
  obtain ⟨t, hok, hreports⟩ := h
  exact hreports.fits (handleTicks_sized sound_create.sized hok)

/-- The table reports every tick exactly when the figures fit it. -/
theorem tells_iff (verifyOrder : Bool) (ticks : List FeedRecord) :
    Tells verifyOrder ticks ↔ Fits (prices ticks) := by
  constructor
  · exact Tells.fits
  · intro hfits
    obtain ⟨t, hok, hsound⟩ :=
      @handleTicks_sound (create defaultCapacity) [] verifyOrder ticks sound_create hfits
    exact ⟨t, hok, hsound.reports⟩

/-- A tick of one symbol, at a price. -/
def tickAt (priceScaled : Int64) : FeedRecord where
  messageType := .trade
  flags := 0
  quantity := 1
  sequenceNumber := 1
  exchangeTimestampNanos := 0
  priceScaled := priceScaled
  symbol := ⟨0x2020202020202041⟩

/-- The reader accepts every price, and the move from zero to the least is not reported. -/
theorem not_tells_least : ¬ ∀ (ticks : List FeedRecord) (verifyOrder : Bool),
    (∀ record ∈ ticks, readTick (tickPayload record) = .ok record) → Tells verifyOrder ticks := by
  intro hall
  have hread : ∀ priceScaled, readTick (tickPayload (tickAt priceScaled)) =
      .ok (tickAt priceScaled) := by
    intro priceScaled
    apply readTick_tickPayload
    · rfl
    · show Symbol8.fromWire (Symbol8.writeTo ⟨0x2020202020202041⟩) = .ok ⟨0x2020202020202041⟩
      decide
  have htells := hall [tickAt 0, tickAt Int64.minValue] false (by
    intro record hrecord
    rw [List.mem_pair] at hrecord
    rcases hrecord with rfl | rfl
    · exact hread 0
    · exact hread Int64.minValue)
  have hmove := htells.fits.moves ⟨0x2020202020202041⟩ 0 [Int64.minValue.toInt] (by decide)
    |Int64.minValue.toInt - 0| (List.mem_singleton_self _)
  rw [Int64.toInt_minValue, sub_zero, abs_neg] at hmove
  exact absurd hmove (not_lt.mpr (le_abs_self _))

end Tckr.FeedProbe.SymbolTable
