import Tckr.MarketWatch.Data.Store

/-!
# Change baselines

What a symbol's change should be measured from is told by the writes alone: the last
snapshot since the stream was reset, or else the last primed reference price. The
store keeps its baselines true to that as long as priming again repeats the reference
price of every symbol without a snapshot: the old baseline stays, whatever is primed.
-/

namespace Tckr.MarketWatch

/-- A call of the write side. -/
inductive StoreWrite where
  | primeUniverse (symbols : List SymbolDefinition)
  | applySnapshot (snapshot : Snapshot) (now : Nat)
  | applyTick (tick : Tick) (now : Nat)
  | resetStream
  deriving DecidableEq

namespace Store

def write (s : Store) : StoreWrite → Store
  | .primeUniverse symbols => s.primeUniverse symbols
  | .applySnapshot snapshot now => s.applySnapshot snapshot now
  | .applyTick tick now => s.applyTick tick now
  | .resetStream => s.resetStream

/-- The store after some writes. -/
def written (writes : List StoreWrite) : Store := writes.foldl write {}

end Store

/-- The prices that a call primes for a symbol, in order. -/
def primedPrices (symbol : String) (symbols : List SymbolDefinition) : List DecimalString :=
  (symbols.filter fun definition => definition.symbol = symbol).map SymbolDefinition.referencePrice

/-- What a snapshot's change is measured from. -/
def Snapshot.anchor (snapshot : Snapshot) : DecimalString :=
  snapshot.previousClose.getD snapshot.openPrice

/-- What the writes say of a primed symbol. -/
structure Tracked where
  /-- The latest primed price. -/
  referencePrice : DecimalString
  /-- The latest snapshot's, since the stream was reset. -/
  anchor : Option DecimalString
  /-- What the change of the view was to be measured from when it was written. -/
  viewed : Option DecimalString
  deriving DecidableEq

/-- What changes are to be measured from. -/
def Tracked.baseline (t : Tracked) : DecimalString := t.anchor.getD t.referencePrice

/-- What the writes say of every symbol; nothing of one never primed. -/
abbrev History := String → Option Tracked

namespace History

def write (h : History) : StoreWrite → History
  | .primeUniverse symbols => fun symbol =>
    ((primedPrices symbol symbols).getLast?.map fun price =>
      { referencePrice := price
        anchor := (h symbol).bind Tracked.anchor
        viewed := (h symbol).bind Tracked.viewed }).or (h symbol)
  | .applySnapshot snapshot _ => fun symbol =>
    if symbol = snapshot.symbol then
      (h symbol).map ({ · with anchor := some snapshot.anchor, viewed := some snapshot.anchor })
    else h symbol
  | .applyTick tick _ => fun symbol =>
    if symbol = tick.s then (h symbol).map fun t => { t with viewed := some t.baseline }
    else h symbol
  | .resetStream => fun symbol => (h symbol).map ({ · with anchor := none, viewed := none })

/-- What some writes say. -/
def of (writes : List StoreWrite) : History := writes.foldl write fun _ => none

/-- Priming again repeats the price of every symbol without a snapshot. -/
def Repeats (h : History) (symbols : List SymbolDefinition) : Prop :=
  ∀ symbol, (h symbol).bind Tracked.anchor = none →
    ∀ price, (primedPrices symbol symbols).getLast? = some price →
      ((h symbol).map Tracked.referencePrice).or (primedPrices symbol symbols).head? = some price

end History

/-- The store measures changes from what the writes say. -/
structure Measures (s : Store) (h : History) : Prop where
  baseline : ∀ symbol,
    (s.metas.get? symbol).map SymbolMeta.baseline = (h symbol).map Tracked.baseline
  views : ∀ symbol view, s.getSymbolSnapshot symbol = some view →
    ∃ baseline, (h symbol).bind Tracked.viewed = some baseline ∧
      view.change = view.price.subtract baseline ∧
      view.changePercent = baseline.percentChange view.price
  primed : ∀ symbol, (s.getSymbolSnapshot symbol).isSome = true → (h symbol).isSome = true

variable {s : Store} {h : History} {symbols : List SymbolDefinition} {symbol : String}

/-! ## Priming -/

theorem primedPrices_cons (definition : SymbolDefinition) (symbols : List SymbolDefinition)
    (symbol : String) : primedPrices symbol (definition :: symbols) =
      if definition.symbol = symbol then definition.referencePrice :: primedPrices symbol symbols
      else primedPrices symbol symbols := by
  unfold primedPrices
  by_cases hs : definition.symbol = symbol
  · simp only [List.filter_cons, hs, decide_true, if_true, List.map_cons]
  · simp only [List.filter_cons, hs, decide_false, Bool.false_eq_true, if_false]

/-- Baselines already there stay, others are the first price primed. -/
theorem primeUniverse_baseline (s : Store) (symbols : List SymbolDefinition) (symbol : String) :
    ((s.primeUniverse symbols).metas.get? symbol).map SymbolMeta.baseline =
      ((s.metas.get? symbol).map SymbolMeta.baseline).or (primedPrices symbol symbols).head? := by
  unfold Store.primeUniverse
  dsimp only
  generalize s.metas = metas
  induction symbols generalizing metas with
  | nil => exact (Option.or_none).symm
  | cons definition symbols ih =>
    rw [List.foldl_cons, ih, primedPrices_cons]
    by_cases hs : definition.symbol = symbol
    · rw [if_pos hs, hs, OrderedMap.get?_set_self]
      cases (metas.get? symbol).map SymbolMeta.baseline with
      | none => rfl
      | some baseline => rfl
    · rw [if_neg hs, OrderedMap.get?_set_of_ne _ _ (Ne.symm hs)]

/-- Reference prices are the last price primed. -/
theorem primeUniverse_referencePrice (s : Store) (symbols : List SymbolDefinition)
    (symbol : String) :
    ((s.primeUniverse symbols).metas.get? symbol).map SymbolMeta.referencePrice =
      (primedPrices symbol symbols).getLast?.or
        ((s.metas.get? symbol).map SymbolMeta.referencePrice) := by
  unfold Store.primeUniverse
  dsimp only
  generalize s.metas = metas
  induction symbols generalizing metas with
  | nil => exact (Option.none_or).symm
  | cons definition symbols ih =>
    rw [List.foldl_cons, ih, primedPrices_cons]
    by_cases hs : definition.symbol = symbol
    · rw [if_pos hs, hs, OrderedMap.get?_set_self, List.getLast?_cons]
      cases (primedPrices symbol symbols).getLast? with
      | none => rfl
      | some price => rfl
    · rw [if_neg hs, OrderedMap.get?_set_of_ne _ _ (Ne.symm hs)]

/-! ## One write -/

/-- The reference prices are the latest primed. -/
def References (s : Store) (h : History) : Prop :=
  ∀ symbol,
    (s.metas.get? symbol).map SymbolMeta.referencePrice = (h symbol).map Tracked.referencePrice

theorem History.prime_referencePrice (h : History) (symbols : List SymbolDefinition)
    (symbol : String) : (h.write (.primeUniverse symbols) symbol).map Tracked.referencePrice =
      (primedPrices symbol symbols).getLast?.or ((h symbol).map Tracked.referencePrice) := by
  unfold History.write
  dsimp only
  cases (primedPrices symbol symbols).getLast? with
  | none => rfl
  | some price => rfl

theorem applySnapshot_metas (s : Store) (snapshot : Snapshot) (now : Nat) (symbol : String) :
    (s.applySnapshot snapshot now).metas.get? symbol =
      if symbol = snapshot.symbol then
        (s.metas.get? symbol).map ({ · with baseline := snapshot.anchor })
      else s.metas.get? symbol := by
  unfold Store.applySnapshot
  by_cases hs : symbol = snapshot.symbol
  · rw [if_pos hs, hs]
    cases hget : s.metas.get? snapshot.symbol with
    | none => exact hget
    | some existing => exact OrderedMap.get?_set_self _ _ _
  · rw [if_neg hs]
    cases s.metas.get? snapshot.symbol with
    | none => rfl
    | some existing => exact OrderedMap.get?_set_of_ne _ _ hs

theorem applyTick_metas (s : Store) (tick : Tick) (now : Nat) :
    (s.applyTick tick now).metas = s.metas := by
  unfold Store.applyTick
  split
  · rfl
  · rfl

theorem References.write (hr : References s h) (w : StoreWrite) :
    References (s.write w) (h.write w) := by
  intro symbol
  cases w with
  | primeUniverse symbols =>
    rw [History.prime_referencePrice, ← hr symbol]
    exact primeUniverse_referencePrice s symbols symbol
  | applySnapshot snapshot now =>
    show ((s.applySnapshot snapshot now).metas.get? symbol).map _ =
      (if _ then _ else _ : Option _).map _
    rw [applySnapshot_metas]
    split
    · rw [Option.map_map, Option.map_map]
      exact hr symbol
    · exact hr symbol
  | applyTick tick now =>
    show ((s.applyTick tick now).metas.get? symbol).map _ = (if _ then _ else _ : Option _).map _
    rw [applyTick_metas]
    split
    · rw [Option.map_map]
      exact hr symbol
    · exact hr symbol
  | resetStream =>
    show ((s.metas.mapValues _).get? symbol).map _ = ((h symbol).map _).map _
    rw [OrderedMap.get?_mapValues, Option.map_map, Option.map_map]
    exact hr symbol

/-- After a call that primes, the baselines are right exactly when it repeats the prices. -/
theorem prime_baseline_iff
    (hb : ∀ symbol, (s.metas.get? symbol).map SymbolMeta.baseline =
      (h symbol).map Tracked.baseline) (symbols : List SymbolDefinition) :
    (∀ symbol, ((s.primeUniverse symbols).metas.get? symbol).map SymbolMeta.baseline =
      (h.write (.primeUniverse symbols) symbol).map Tracked.baseline) ↔ h.Repeats symbols := by
  have hsymbol : ∀ symbol, ((s.primeUniverse symbols).metas.get? symbol).map SymbolMeta.baseline =
      (h.write (.primeUniverse symbols) symbol).map Tracked.baseline ↔
      ((h symbol).bind Tracked.anchor = none →
        ∀ price, (primedPrices symbol symbols).getLast? = some price →
          ((h symbol).map Tracked.referencePrice).or (primedPrices symbol symbols).head? =
            some price) := by
    intro symbol
    rw [primeUniverse_baseline, hb symbol]
    unfold History.write
    dsimp only
    cases hlast : (primedPrices symbol symbols).getLast? with
    | none =>
      rw [List.getLast?_eq_none_iff] at hlast
      rw [hlast, List.head?_nil, Option.or_none]
      exact iff_of_true rfl fun _ price hprice => by cases hprice
    | some price =>
      cases htracked : h symbol with
      | none =>
        simp only [Option.map_none, Option.none_or, Option.map_some, Option.some_or,
          Option.bind_none, Tracked.baseline, Option.getD_none, true_implies, Option.some.injEq,
          forall_eq']
      | some t =>
        cases hanchor : t.anchor with
        | none =>
          simp only [Option.map_some, Option.some_or, Option.bind_some, hanchor, Tracked.baseline,
            Option.getD_none, true_implies, Option.some.injEq, forall_eq']
        | some anchor =>
          simp only [Option.map_some, Option.some_or, Option.bind_some, hanchor, Tracked.baseline,
            Option.getD_some, reduceCtorEq, false_implies]
  exact forall_congr' hsymbol

theorem Measures.primeUniverse (hm : Measures s h) (symbols : List SymbolDefinition)
    (hr : h.Repeats symbols) :
    Measures (s.primeUniverse symbols) (h.write (.primeUniverse symbols)) where
  baseline := (prime_baseline_iff hm.baseline symbols).mpr hr
  views symbol view hview := by
    obtain ⟨baseline, hviewed, hchange⟩ := hm.views symbol view hview
    refine ⟨baseline, ?_, hchange⟩
    unfold History.write
    dsimp only
    cases (primedPrices symbol symbols).getLast? with
    | none => exact hviewed
    | some price => exact hviewed
  primed symbol hview := by
    have hprimed := hm.primed symbol hview
    unfold History.write
    dsimp only
    cases (primedPrices symbol symbols).getLast? with
    | none => exact hprimed
    | some price => rfl

/-- A view written for one symbol, measured from what the writes say. -/
theorem Measures.of_set (hm : Measures s h) {s' : Store} {h' : History} {view : SymbolView}
    {baseline : DecimalString} (hrecords : s'.records = s.records.set symbol (some view))
    (hchange : view.change = view.price.subtract baseline ∧
      view.changePercent = baseline.percentChange view.price)
    (hviewed : (h' symbol).bind Tracked.viewed = some baseline)
    (hothers : ∀ other, other ≠ symbol → h' other = h other)
    (hbaseline : ∀ symbol, (s'.metas.get? symbol).map SymbolMeta.baseline =
      (h' symbol).map Tracked.baseline) : Measures s' h' where
  baseline := hbaseline
  views other written hwritten := by
    unfold Store.getSymbolSnapshot at hwritten
    rw [hrecords] at hwritten
    by_cases hs : other = symbol
    · rw [hs, OrderedMap.get?_set_self, Option.join_some, Option.some.injEq] at hwritten
      rw [hs, ← hwritten]
      exact ⟨baseline, hviewed, hchange⟩
    · rw [OrderedMap.get?_set_of_ne _ _ hs] at hwritten
      rw [hothers other hs]
      exact hm.views other written hwritten
  primed other hother := by
    unfold Store.getSymbolSnapshot at hother
    rw [hrecords] at hother
    by_cases hs : other = symbol
    · obtain ⟨t, ht, -⟩ := Option.bind_eq_some_iff.mp hviewed
      rw [hs, ht]
      rfl
    · rw [OrderedMap.get?_set_of_ne _ _ hs] at hother
      rw [hothers other hs]
      exact hm.primed other hother

/-- A symbol is in the store's universe exactly when it was ever primed. -/
theorem Measures.tracked_iff (hm : Measures s h) (symbol : String) :
    s.metas.get? symbol = none ↔ h symbol = none := by
  have hb := hm.baseline symbol
  constructor
  · intro hnone
    rw [hnone, Option.map_none, eq_comm, Option.map_eq_none_iff] at hb
    exact hb
  · intro hnone
    rw [hnone, Option.map_none, Option.map_eq_none_iff] at hb
    exact hb

theorem Measures.applySnapshot (hm : Measures s h) (snapshot : Snapshot) (now : Nat) :
    Measures (s.applySnapshot snapshot now) (h.write (.applySnapshot snapshot now)) := by
  have hbaseline : ∀ symbol, ((s.applySnapshot snapshot now).metas.get? symbol).map
      SymbolMeta.baseline =
        (h.write (.applySnapshot snapshot now) symbol).map Tracked.baseline := by
    intro symbol
    rw [applySnapshot_metas]
    unfold History.write
    dsimp only
    split
    · cases htracked : h symbol with
      | none =>
        rw [(hm.tracked_iff symbol).mpr htracked]
        rfl
      | some t =>
        cases hget : s.metas.get? symbol with
        | none =>
          rw [(hm.tracked_iff symbol).mp hget] at htracked
          cases htracked
        | some existing => rfl
    · exact hm.baseline symbol
  cases hget : s.metas.get? snapshot.symbol with
  | none =>
    have hsame : h.write (.applySnapshot snapshot now) = h := by
      funext symbol
      unfold History.write
      dsimp only
      split
      · rename_i hs
        rw [hs, (hm.tracked_iff _).mp hget]
        rfl
      · rfl
    have hdropped : s.applySnapshot snapshot now = s := by
      unfold Store.applySnapshot
      rw [hget]
    rw [hsame, hdropped]
    exact hm
  | some existing =>
    have hrecords : ∃ view, (s.applySnapshot snapshot now).records =
        s.records.set snapshot.symbol (some view) ∧
        view.change = view.price.subtract snapshot.anchor ∧
        view.changePercent = snapshot.anchor.percentChange view.price := by
      unfold Store.applySnapshot
      rw [hget]
      exact ⟨_, rfl, rfl, rfl⟩
    obtain ⟨view, hview, hchange⟩ := hrecords
    refine hm.of_set hview hchange ?_ (fun other hother => if_neg hother) hbaseline
    unfold History.write
    dsimp only
    rw [if_pos rfl]
    cases htracked : h snapshot.symbol with
    | none =>
      rw [(hm.tracked_iff _).mpr htracked] at hget
      cases hget
    | some t => rfl

theorem Measures.applyTick (hm : Measures s h) (tick : Tick) (now : Nat) :
    Measures (s.applyTick tick now) (h.write (.applyTick tick now)) := by
  have hbaseline : ∀ symbol, ((s.applyTick tick now).metas.get? symbol).map
      SymbolMeta.baseline = (h.write (.applyTick tick now) symbol).map Tracked.baseline := by
    intro symbol
    rw [applyTick_metas]
    unfold History.write
    dsimp only
    split
    · rw [Option.map_map]
      exact hm.baseline symbol
    · exact hm.baseline symbol
  cases hget : s.metas.get? tick.s with
  | none =>
    have hsame : h.write (.applyTick tick now) = h := by
      funext symbol
      unfold History.write
      dsimp only
      split
      · rename_i hs
        rw [hs, (hm.tracked_iff _).mp hget]
        rfl
      · rfl
    have hdropped : s.applyTick tick now = s := by
      unfold Store.applyTick
      rw [hget]
    rw [hsame, hdropped]
    exact hm
  | some symbolMeta =>
    have hrecords : ∃ view, (s.applyTick tick now).records =
        s.records.set tick.s (some view) ∧
        view.change = view.price.subtract symbolMeta.baseline ∧
        view.changePercent = symbolMeta.baseline.percentChange view.price := by
      unfold Store.applyTick
      rw [hget]
      exact ⟨_, rfl, rfl, rfl⟩
    obtain ⟨view, hview, hchange⟩ := hrecords
    refine hm.of_set hview hchange ?_ (fun other hother => if_neg hother) hbaseline
    have hb := hm.baseline tick.s
    rw [hget, Option.map_some, eq_comm, Option.map_eq_some_iff] at hb
    obtain ⟨t, ht, htracked⟩ := hb
    unfold History.write
    dsimp only
    rw [if_pos rfl, ht, ← htracked]
    rfl

/-- Once the stream is reset, changes are measured from the reference prices. -/
theorem References.resetStream (hr : References s h) :
    Measures s.resetStream (h.write .resetStream) := by
  have hnone : ∀ symbol, s.resetStream.getSymbolSnapshot symbol = none := by
    intro symbol
    unfold Store.getSymbolSnapshot Store.resetStream
    rw [OrderedMap.get?_mapValues]
    cases s.records.get? symbol with
    | none => rfl
    | some record => rfl
  refine ⟨fun symbol => ?_, fun symbol view hview => ?_, fun symbol hview => ?_⟩
  · show ((s.metas.mapValues _).get? symbol).map _ = ((h symbol).map _).map _
    rw [OrderedMap.get?_mapValues, Option.map_map, Option.map_map]
    exact hr symbol
  · rw [hnone] at hview
    cases hview
  · rw [hnone] at hview
    cases hview

/-! ## Every run -/

theorem Measures.write (hm : Measures s h) (hr : References s h) (w : StoreWrite)
    (hprime : ∀ symbols, w = .primeUniverse symbols → h.Repeats symbols) :
    Measures (s.write w) (h.write w) := by
  cases w with
  | primeUniverse symbols => exact hm.primeUniverse symbols (hprime symbols rfl)
  | applySnapshot snapshot now => exact hm.applySnapshot snapshot now
  | applyTick tick now => exact hm.applyTick tick now
  | resetStream => exact hr.resetStream

theorem written_append_singleton (writes : List StoreWrite) (w : StoreWrite) :
    Store.written (writes ++ [w]) = (Store.written writes).write w := by
  rw [Store.written, List.foldl_append]
  rfl

theorem History.of_append_singleton (writes : List StoreWrite) (w : StoreWrite) :
    History.of (writes ++ [w]) = (History.of writes).write w := by
  rw [History.of, List.foldl_append]
  rfl

theorem references_written (writes : List StoreWrite) :
    References (Store.written writes) (History.of writes) := by
  induction writes using List.reverseRecOn with
  | nil => exact fun symbol => rfl
  | append_singleton writes w ih =>
    rw [written_append_singleton, History.of_append_singleton]
    exact ih.write w

/-- The store measures changes from what the writes say, after every write of a run,
exactly when every call that primes again repeats the prices. -/
theorem measures_iff (writes : List StoreWrite) :
    (∀ before, before <+: writes → Measures (Store.written before) (History.of before)) ↔
      ∀ before symbols, before ++ [.primeUniverse symbols] <+: writes →
        (History.of before).Repeats symbols := by
  constructor
  · intro hall before symbols hinitial
    have hafter := (hall _ hinitial).baseline
    rw [written_append_singleton, History.of_append_singleton] at hafter
    exact (prime_baseline_iff (hall before ((List.prefix_append _ _).trans hinitial)).baseline
      symbols).mp hafter
  · intro hrepeats before hinitial
    induction before using List.reverseRecOn with
    | nil =>
      exact ⟨fun _ => rfl, fun _ _ hview => (by cases hview), fun _ hview => (by cases hview)⟩
    | append_singleton before w ih =>
      rw [written_append_singleton, History.of_append_singleton]
      apply (ih ((List.prefix_append _ _).trans hinitial)).write (references_written before)
      rintro symbols rfl
      exact hrepeats before symbols hinitial

/-- The universe is fetched again with another reference price. -/
theorem not_measures_refetched : ¬ ∀ writes : List StoreWrite,
    Measures (Store.written writes) (History.of writes) := by
  intro hall
  have hbaseline := (hall
    [.primeUniverse [⟨"COMI", "CIB", ⟨['8', '0'], by decide⟩⟩],
      .primeUniverse [⟨"COMI", "CIB", ⟨['8', '1'], by decide⟩⟩]]).baseline "COMI"
  revert hbaseline
  decide

end Tckr.MarketWatch
