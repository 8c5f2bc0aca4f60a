import Tckr.Core.Ranking
import Tckr.MarketWatch.Pages.ClosestInstruments

/-!
# What is suggested

A query that matched nothing is compared with the symbol of every instrument and with the
starts of the words of its name. What is close enough is offered, tickers alone where the
query looks like a ticker and one is close, and the best of what is offered are suggested.
-/

namespace Tckr.MarketWatch

/-- The functions of strings. -/
structure TextPlatform where
  trim : CodeUnits → CodeUnits
  toLowerCase : CodeUnits → CodeUnits
  /-- The parts between runs of white space. -/
  splitWords : CodeUnits → List CodeUnits
  splitWords_ne_nil : ∀ text, splitWords text ≠ []
  localeCompare : Comparator CodeUnits

/-- What a suggestion reads of a `SymbolDefinition`. -/
structure Instrument where
  symbol : CodeUnits
  name : CodeUnits
  deriving DecidableEq

structure Candidate where
  definition : Instrument
  distance : Nat
  rank : Nat

/-- A digit or a small letter. -/
def isTickerUnit (unit : UInt16) : Bool :=
  (97 ≤ unit && unit ≤ 122) || (48 ≤ unit && unit ≤ 57)

/-- Two to six digits and small letters. -/
def tickerShaped (q : CodeUnits) : Bool := 2 ≤ q.length && q.length ≤ 6 && q.all isTickerUnit

/-- An edit for every three units, and always one. -/
def allowed (q : CodeUnits) : Nat := max 1 (q.length / 3)

namespace TextPlatform

variable (p : TextPlatform)

def symbolDistance (q : CodeUnits) (definition : Instrument) : Nat :=
  editDistance q (p.toLowerCase definition.symbol)

/-- As much of each word of the name as the query is long. -/
def nameWordStarts (q : CodeUnits) (definition : Instrument) : List CodeUnits :=
  (p.splitWords (p.toLowerCase definition.name)).map (·.take q.length)

def nameDistance (q : CodeUnits) (definition : Instrument) : Nat :=
  ((p.nameWordStarts q definition).map (editDistance q)).min?.getD 0

/-- At equal distance the symbol ranks before the name. -/
def candidate (q : CodeUnits) (definition : Instrument) : Candidate where
  definition := definition
  distance := min (p.symbolDistance q definition) (p.nameDistance q definition)
  rank := min (p.symbolDistance q definition * 2) (p.nameDistance q definition * 2 + 1)

def byRank : Comparator Candidate :=
  (Comparator.ofKey fun c => (c.rank : Int)).thenBy
    (p.localeCompare.on fun c => c.definition.symbol)

def closestInstruments (query : CodeUnits) (instruments : List Instrument) (limit : Nat) :
    List Instrument :=
  let q := p.toLowerCase (p.trim query)
  if q.length < 2 then []
  else
    let candidates := (instruments.map (p.candidate q)).filter fun c => c.distance ≤ allowed q
    let tickerMatches := candidates.filter fun c => p.symbolDistance q c.definition ≤ allowed q
    let chosen :=
      if tickerShaped q && !tickerMatches.isEmpty then tickerMatches else candidates
    ((p.byRank.sort chosen).take limit).map Candidate.definition

/-! ## What is close -/

/-- The symbol is few enough edits away. -/
def SymbolNear (q : CodeUnits) (definition : Instrument) : Prop :=
  ∃ n ≤ allowed q, Edits n q (p.toLowerCase definition.symbol)

/-- The start of a word of the name is. -/
def NameNear (q : CodeUnits) (definition : Instrument) : Prop :=
  ∃ n ≤ allowed q, ∃ start ∈ p.nameWordStarts q definition, Edits n q start

/-- A mistyped ticker is not taken for a name. -/
def Offered (q : CodeUnits) (instruments : List Instrument) (definition : Instrument) : Prop :=
  p.SymbolNear q definition ∨ p.NameNear q definition ∧
    ¬(tickerShaped q = true ∧ ∃ other ∈ instruments, p.SymbolNear q other)

/-- What it costs to make the query the symbol, or the start of a word of the name; edits count
twice, and a name one more. -/
def costs (q : CodeUnits) (definition : Instrument) : Set Nat :=
  {cost | (∃ n, Edits n q (p.toLowerCase definition.symbol) ∧ cost = n * 2) ∨
    ∃ start ∈ p.nameWordStarts q definition, ∃ n, Edits n q start ∧ cost = n * 2 + 1}

variable {p} {q : CodeUnits} {definition : Instrument}

theorem symbolDistance_isLeast :
    IsLeast {n | Edits n q (p.toLowerCase definition.symbol)} (p.symbolDistance q definition) := by
  rw [symbolDistance, editDistance_eq_distance]
  exact isLeast_distance _ _

theorem nameDistance_isLeast :
    IsLeast {n | ∃ start ∈ p.nameWordStarts q definition, Edits n q start}
      (p.nameDistance q definition) := by
  have hwords : (p.nameWordStarts q definition).map (editDistance q) ≠ [] := by
    simp [nameWordStarts, p.splitWords_ne_nil]
  obtain ⟨least, hleast⟩ := Option.isSome_iff_exists.mp (List.isSome_min?_of_ne_nil hwords)
  obtain ⟨hmem, hle⟩ := List.min?_eq_some_iff.mp hleast
  rw [nameDistance, hleast, Option.getD_some]
  obtain ⟨start, hstart, rfl⟩ := List.mem_map.mp hmem
  constructor
  · refine ⟨start, hstart, ?_⟩
    rw [editDistance_eq_distance]
    exact edits_distance q start
  · rintro n ⟨other, hother, hedits⟩
    have hbound := hle _ (List.mem_map_of_mem hother)
    rw [editDistance_eq_distance q other] at hbound
    exact hbound.trans (distance_le_of_edits hedits)

theorem symbolDistance_le_iff :
    p.symbolDistance q definition ≤ allowed q ↔ p.SymbolNear q definition :=
  ⟨fun hle => ⟨_, hle, symbolDistance_isLeast.1⟩,
    fun ⟨_, hle, hedits⟩ => (symbolDistance_isLeast.2 hedits).trans hle⟩

theorem nameDistance_le_iff :
    p.nameDistance q definition ≤ allowed q ↔ p.NameNear q definition :=
  ⟨fun hle => ⟨_, hle, nameDistance_isLeast.1⟩,
    fun ⟨_, hle, hedits⟩ => (nameDistance_isLeast.2 hedits).trans hle⟩

theorem distance_le_iff : (p.candidate q definition).distance ≤ allowed q ↔
    p.SymbolNear q definition ∨ p.NameNear q definition := by
  rw [candidate, min_le_iff, symbolDistance_le_iff, nameDistance_le_iff]

instance : Decidable (p.SymbolNear q definition) := decidable_of_iff _ symbolDistance_le_iff

instance : Decidable (p.NameNear q definition) := decidable_of_iff _ nameDistance_le_iff

instance (instruments : List Instrument) : Decidable (p.Offered q instruments definition) :=
  inferInstanceAs (Decidable (_ ∨ _ ∧ ¬(_ ∧ ∃ other ∈ instruments, p.SymbolNear q other)))

theorem rank_isLeast : IsLeast (p.costs q definition) (p.candidate q definition).rank := by
  constructor
  · rcases le_total (p.symbolDistance q definition * 2) (p.nameDistance q definition * 2 + 1)
      with hle | hle
    · exact .inl ⟨_, symbolDistance_isLeast.1, min_eq_left hle⟩
    · have hname : IsLeast {n | ∃ start ∈ p.nameWordStarts q definition, Edits n q start}
          (p.nameDistance q definition) := nameDistance_isLeast
      obtain ⟨start, hstart, hedits⟩ := hname.1
      exact .inr ⟨start, hstart, _, hedits, min_eq_right hle⟩
  · rintro cost (⟨n, hedits, rfl⟩ | ⟨start, hstart, n, hedits, rfl⟩)
    · have hleast := symbolDistance_isLeast.2 hedits
      exact (min_le_left _ _).trans (by omega)
    · have hleast := nameDistance_isLeast.2 ⟨start, hstart, hedits⟩
      exact (min_le_right _ _).trans (by omega)

/-! ## What is suggested -/

/-- What is offered, in the order of the universe. -/
def offered (p : TextPlatform) (q : CodeUnits) (instruments : List Instrument) : List Instrument :=
  instruments.filter fun definition => p.Offered q instruments definition

/-- Cheaper before dearer, and symbols that cost the same in their order. -/
def precedence (p : TextPlatform) (cost : Instrument → Nat) : Comparator Instrument :=
  (Comparator.ofKey fun definition => (cost definition : Int)).thenBy
    (p.localeCompare.on Instrument.symbol)

/-- What is left of the candidates is what is offered. -/
theorem chosen_eq (q : CodeUnits) (instruments : List Instrument) :
    (let candidates := (instruments.map (p.candidate q)).filter fun c => c.distance ≤ allowed q
    let tickerMatches := candidates.filter fun c => p.symbolDistance q c.definition ≤ allowed q
    if tickerShaped q && !tickerMatches.isEmpty then tickerMatches else candidates) =
      (p.offered q instruments).map (p.candidate q) := by
  have hcandidates : (instruments.map (p.candidate q)).filter (fun c => c.distance ≤ allowed q) =
      (instruments.filter fun definition =>
        p.SymbolNear q definition ∨ p.NameNear q definition).map (p.candidate q) := by
    rw [List.filter_map]
    refine congrArg _ (List.filter_congr fun definition _ => ?_)
    exact decide_eq_decide.mpr distance_le_iff
  have htickers : ((instruments.filter fun definition =>
        p.SymbolNear q definition ∨ p.NameNear q definition).map (p.candidate q)).filter
        (fun c => p.symbolDistance q c.definition ≤ allowed q) =
      (instruments.filter fun definition => p.SymbolNear q definition).map (p.candidate q) := by
    rw [List.filter_map, List.filter_filter]
    refine congrArg _ (List.filter_congr fun definition _ => ?_)
    by_cases hnear : p.SymbolNear q definition
    · simp [candidate, symbolDistance_le_iff, hnear]
    · simp [candidate, symbolDistance_le_iff, hnear]
  simp only [hcandidates, htickers]
  have hsome : (!((instruments.filter fun definition => p.SymbolNear q definition).map
      (p.candidate q)).isEmpty) = true ↔ ∃ other ∈ instruments, p.SymbolNear q other := by
    simp
  simp only [Bool.and_eq_true, hsome]
  split_ifs with htyped
  · refine congrArg _ (List.filter_congr fun definition _ => ?_)
    exact decide_eq_decide.mpr ⟨.inl, fun h => h.resolve_right fun hname => hname.2 htyped⟩
  · refine congrArg _ (List.filter_congr fun definition _ => ?_)
    exact decide_eq_decide.mpr ⟨.imp_right fun hname => ⟨hname, htyped⟩, .imp_right And.left⟩

/-- What is suggested for a query of two units or more are the best of what is offered, as many
as asked for: with what else is offered they make a stable sort of it by what it costs to make
the query a symbol or the start of a word of a name. -/
theorem closestInstruments_best (p : TextPlatform) (query : CodeUnits)
    (instruments : List Instrument) (limit : Nat) :
    let q := p.toLowerCase (p.trim query)
    let suggested := p.closestInstruments query instruments limit
    if q.length < 2 then suggested = []
    else suggested.length = min limit (p.offered q instruments).length ∧
      ∃ cost : Instrument → Nat, (∀ definition, IsLeast (p.costs q definition) (cost definition)) ∧
        ∃ rest, (p.precedence cost).Sorts (p.offered q instruments) (suggested ++ rest) := by
  intro q suggested
  split_ifs with hshort
  · exact if_pos hshort
  · have hsuggested : suggested =
        ((p.precedence fun definition => (p.candidate q definition).rank).sort
          (p.offered q instruments)).take limit := by
      have hsort := Comparator.map_sort_on p.byRank (p.candidate q) (p.offered q instruments)
      have hchosen := chosen_eq (p := p) q instruments
      refine (if_neg hshort).trans ?_
      dsimp only at hchosen ⊢
      rw [hchosen, ← hsort, ← List.map_take, List.map_map]
      exact List.map_id _
    refine ⟨?_, fun definition => (p.candidate q definition).rank, fun _ => rank_isLeast,
      ((p.precedence fun definition => (p.candidate q definition).rank).sort
        (p.offered q instruments)).drop limit, ?_⟩
    · rw [hsuggested, List.length_take, Comparator.sort, List.length_mergeSort]
    · rw [hsuggested, List.take_append_drop]
      exact Comparator.sorts_sort _ _

/-- Letters of the English alphabet and single blanks; tickers of one length compare as
numbers. -/
def english : TextPlatform where
  trim text := ((text.dropWhile (· == 32)).reverse.dropWhile (· == 32)).reverse
  toLowerCase text := text.map fun unit => if 65 ≤ unit && unit ≤ 90 then unit + 32 else unit
  splitWords text := text.splitOn 32
  splitWords_ne_nil text := text.splitOn_ne_nil 32
  localeCompare := .ofKey fun text => text.foldl (fun n unit => n * 65536 + (unit.toNat : Int)) 0

/-- COMI, of CIB, and ORAS, of Orascom. -/
def comiAndOras : List Instrument :=
  [⟨[67, 79, 77, 73], [67, 73, 66]⟩, ⟨[79, 82, 65, 83], [79, 114, 97, 115, 99, 111, 109]⟩]

/-- For "COMY" only COMI is suggested. -/
theorem closestInstruments_best_comy :
    english.closestInstruments [67, 79, 77, 89] comiAndOras 3 = comiAndOras.take 1 := by
  have hq : english.toLowerCase (english.trim [67, 79, 77, 89]) = [99, 111, 109, 121] := by decide
  have hoffered : english.offered [99, 111, 109, 121] comiAndOras = comiAndOras.take 1 := by
    decide +kernel
  have hbest := closestInstruments_best english [67, 79, 77, 89] comiAndOras 3
  dsimp only at hbest
  rw [hq, if_neg (by decide), hoffered] at hbest
  obtain ⟨hlength, cost, -, rest, hsorts⟩ := hbest
  have hperm := hsorts.perm
  have hcount := hperm.length_eq
  rw [List.length_append, hlength] at hcount
  have hrest : rest = [] := List.eq_nil_of_length_eq_zero (by simpa [comiAndOras] using hcount)
  rw [hrest, List.append_nil] at hperm
  exact List.perm_singleton.mp hperm

end TextPlatform

end Tckr.MarketWatch
