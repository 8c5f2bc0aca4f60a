import Tckr.MarketWatch.Data.Reconciliation
import Tckr.MarketWatch.Display.BetweenBeats

/-!
# From the tape to the board

Ticks wait for a frame in the dispatcher, a frame and a snapshot write the store, and the
board paints what a beat found there. Merging the ticks of a frame loses nothing: a beat
paints what a store would show that is given every tick by itself, and until the next one
a row goes on showing it.
-/

namespace Tckr.MarketWatch

open PacedViews (Stands Standing)
open Reconciliation (isDecimal_one isDecimal_nine isDecimal_ten)

/-- A view object of the store. No two writes make the same one. -/
structure HeldView where
  view : SymbolView
  serial : Nat
  deriving DecidableEq

/-- The dispatcher, the store it writes, and what is painted of the store's views. Beside them
stands a store that is given the ticks of a frame one by one. -/
structure Pipeline (L : Type) [DecidableEq L] where
  dispatcher : TickDispatcher := {}
  store : Store := {}
  paced : PacedViews HeldView L := (pacedViews HeldView L).init
  /-- The frames the dispatcher has asked for. -/
  frames : Nat := 0
  /-- The number of view objects made. -/
  serial : Nat := 0
  /-- The ticks that wait for a frame. -/
  queue : List Tick := []
  direct : Store := {}

inductive Pipeline.Action (L : Type)
  | push (tick : Tick)
  | frame (now : Nat)
  | primeUniverse (symbols : List SymbolDefinition)
  | applySnapshot (snapshot : Snapshot) (now : Nat)
  | resetStream
  /-- Whatever else happens to the painted views. -/
  | display (a : PacedAction HeldView L)

namespace Pipeline

variable {L : Type} [DecidableEq L]

/-- The store was written under a symbol, if that is primed. -/
def write (store : Store) (symbol : String) (s : Pipeline L) : Option (Pipeline L) :=
  if store.primed symbol then
    (store.getSymbolSnapshot symbol).bind fun view =>
    ((pacedViews HeldView L).step s.paced (.write symbol ⟨view, s.serial⟩)).map fun paced =>
      { s with store, paced, serial := s.serial + 1 }
  else some { s with store }

def applyTick (now : Nat) (s : Pipeline L) (tick : Tick) : Option (Pipeline L) :=
  s.write (s.store.applyTick tick now) tick.s

def flushNow (now : Nat) (s : Pipeline L) : Option (Pipeline L) :=
  s.dispatcher.pending.values.foldlM (applyTick now)
    { s with
      dispatcher := (s.dispatcher.flushNow s.store now).1
      queue := []
      direct := s.queue.foldl (fun store tick => store.applyTick tick now) s.direct }

/-- The actions of the painted views that are not the store's. -/
def reads : PacedAction HeldView L → Bool
  | .write _ _ | .resetStream => false
  | _ => true

def step (s : Pipeline L) : Action L → Option (Pipeline L)
  | .push tick => some { s with
      dispatcher := s.dispatcher.push tick
      frames := if s.dispatcher.frameRequested then s.frames else s.frames + 1
      queue := s.queue ++ [tick] }
  | .frame now => if s.frames = 0 then none else { s with frames := s.frames - 1 }.flushNow now
  | .primeUniverse symbols => some { s with
      store := s.store.primeUniverse symbols
      direct := s.direct.primeUniverse symbols }
  | .applySnapshot snapshot now => ({ s with
      direct := s.direct.applySnapshot snapshot now }).write
        (s.store.applySnapshot snapshot now) snapshot.symbol
  | .resetStream => ((pacedViews HeldView L).step s.paced .resetStream).map fun paced =>
      { s with paced, store := s.store.resetStream, direct := s.direct.resetStream }
  | .display a =>
      if reads a then ((pacedViews HeldView L).step s.paced a).map fun paced => { s with paced }
      else none

/-- What is painted of a symbol, the time of the last write left out. -/
def painted (s : Pipeline L) (symbol : String) : Option SymbolView :=
  (s.paced.getPacedSymbolSnapshot symbol).map fun held => held.view.untimed

end Pipeline

/-- The runs of the pipeline. -/
def pipeline (L : Type) [DecidableEq L] : Machine (Pipeline L) (Pipeline.Action L) where
  init := {}
  step := Pipeline.step

/-! ## What the store shows -/

namespace Store

/-- Two stores that show the same, whatever is written to both. -/
structure ShowsAs (s t : Store) : Prop where
  metas : s.metas = t.metas
  displayed : s.displayed = t.displayed

section

variable {s t : Store}

theorem ShowsAs.primeUniverse (h : s.ShowsAs t) (symbols : List SymbolDefinition) :
    (s.primeUniverse symbols).ShowsAs (t.primeUniverse symbols) where
  metas := by
    unfold Store.primeUniverse
    rw [h.metas]
  displayed := h.displayed

theorem ShowsAs.applySnapshot (h : s.ShowsAs t) (snapshot : Snapshot) (now : Nat) :
    (s.applySnapshot snapshot now).ShowsAs (t.applySnapshot snapshot now) := by
  unfold Store.applySnapshot
  rw [h.metas]
  cases t.metas.get? snapshot.symbol with
  | none => exact h
  | some existing =>
    refine ⟨rfl, funext fun symbol => ?_⟩
    by_cases hs : symbol = snapshot.symbol
    · simp [Store.displayed, getSymbolSnapshot, hs]
    · have hbefore := congrFun h.displayed symbol
      simpa [Store.displayed, getSymbolSnapshot, OrderedMap.get?_set_of_ne _ _ hs] using hbefore

theorem getSymbolSnapshot_resetStream (s : Store) (symbol : String) :
    s.resetStream.getSymbolSnapshot symbol = none := by
  rw [getSymbolSnapshot, resetStream, OrderedMap.get?_mapValues]
  cases s.records.get? symbol with
  | none => rfl
  | some view => rfl

theorem ShowsAs.resetStream (h : s.ShowsAs t) : s.resetStream.ShowsAs t.resetStream where
  metas := by
    unfold Store.resetStream
    rw [h.metas]
  displayed := by
    funext symbol
    simp [Store.displayed, getSymbolSnapshot_resetStream]

/-- A write gives one symbol a view, if that symbol is primed. -/
structure Written (symbol : String) (s t : Store) : Prop where
  others : ∀ other, other ≠ symbol → t.getSymbolSnapshot other = s.getSymbolSnapshot other
  unprimed : t.primed symbol = false →
    ∀ other, t.getSymbolSnapshot other = s.getSymbolSnapshot other

theorem written_applyTick (s : Store) (tick : Tick) (now : Nat) :
    Written tick.s s (s.applyTick tick now) := by
  unfold applyTick
  cases hmeta : s.metas.get? tick.s with
  | none => exact ⟨fun _ _ => rfl, fun _ _ => rfl⟩
  | some symbolMeta =>
    refine ⟨fun other hne => ?_, fun hprimed => ?_⟩
    · simp [getSymbolSnapshot, OrderedMap.get?_set_of_ne _ _ hne]
    · simp [primed, hmeta] at hprimed

theorem written_applySnapshot (s : Store) (snapshot : Snapshot) (now : Nat) :
    Written snapshot.symbol s (s.applySnapshot snapshot now) := by
  unfold applySnapshot
  cases hmeta : s.metas.get? snapshot.symbol with
  | none => exact ⟨fun _ _ => rfl, fun _ _ => rfl⟩
  | some existing =>
    refine ⟨fun other hne => ?_, fun hprimed => ?_⟩
    · simp [getSymbolSnapshot, OrderedMap.get?_set_of_ne _ _ hne]
    · simp [primed] at hprimed

end

end Store

namespace Pipeline

variable {L : Type} [DecidableEq L]

/-! ## What is painted from -/

/-- The views that are painted from are the store's. -/
structure Synced (paced : PacedViews HeldView L) (store : Store) : Prop where
  level : ¬paced.Clearing → ∀ symbol,
    (paced.getSymbolSnapshot symbol).map HeldView.view = store.getSymbolSnapshot symbol
  /-- A reset store has no view from the start, and the walk over the records has yet to see. -/
  cleared : paced.Clearing → ∀ symbol, store.getSymbolSnapshot symbol = none

/-- What a write of the store changes. -/
structure Wrote (s t : Pipeline L) (store : Store) : Prop where
  same : t = { s with store, paced := t.paced, serial := t.serial }
  /-- Nothing painted is touched. -/
  unpainted : ∃ records, t.paced = { s.paced with records := records }
  paced : t.paced.Inv
  synced : Synced t.paced store

theorem wrote_write {s t : Pipeline L} {store : Store} {symbol : String}
    (h : s.write store symbol = some t) (hpaced : s.paced.Inv) (hsynced : Synced s.paced s.store)
    (hwritten : s.store.Written symbol store) : Wrote s t store := by
  unfold write at h
  split at h
  · simp only [Option.bind_eq_some_iff, Option.map_eq_some_iff] at h
    obtain ⟨view, hview, paced, hstep, rfl⟩ := h
    have hinv := (PacedViews.step_moves hpaced hstep).1
    simp only [pacedViews, Option.ite_none_right_eq_some, Option.some.injEq] at hstep
    obtain ⟨hrest, rfl⟩ := hstep
    refine ⟨rfl, ⟨_, rfl⟩, hinv, ?_⟩
    have hclear : ¬s.paced.Clearing := fun hclear => by
      rw [PacedViews.atRest_eq_false_of_clearing hclear] at hrest
      cases hrest
    refine ⟨fun _ other => ?_, fun hafter => absurd hafter hclear⟩
    have hbefore := hsynced.level hclear other
    by_cases hs : other = symbol
    · simp [PacedViews.getSymbolSnapshot, LiveMap.get?_set, hs, hview]
    · rw [hwritten.others other hs, ← hbefore]
      simp [PacedViews.getSymbolSnapshot, LiveMap.get?_set, hs]
  · rename_i hprimed
    cases h
    have hsame := hwritten.unprimed (by simpa using hprimed)
    exact ⟨rfl, ⟨_, rfl⟩, hpaced,
      fun hclear other => (hsynced.level hclear other).trans (hsame other).symm,
      fun hclear other => (hsame other).trans (hsynced.cleared hclear other)⟩

/-- The ticks of a frame are written one after the other. -/
theorem wrote_foldlM {now : Nat} {ticks : List Tick} {s t : Pipeline L}
    (h : ticks.foldlM (applyTick now) s = some t) (hpaced : s.paced.Inv)
    (hsynced : Synced s.paced s.store) :
    Wrote s t (ticks.foldl (fun store tick => store.applyTick tick now) s.store) := by
  induction ticks generalizing s with
  | nil =>
    cases h
    exact ⟨rfl, ⟨_, rfl⟩, hpaced, hsynced⟩
  | cons tick ticks ih =>
    rw [List.foldlM_cons] at h
    obtain ⟨u, hu, h⟩ := Option.bind_eq_some_iff.mp h
    obtain ⟨hsame, ⟨records, hrecords⟩, hpaced, hsynced⟩ :=
      wrote_write hu hpaced hsynced (s.store.written_applyTick tick now)
    have hstore : u.store = s.store.applyTick tick now := by rw [hsame]
    rw [← hstore] at hsynced
    obtain ⟨hrest, ⟨records', hrecords'⟩, hpaced, hsynced⟩ := ih h hpaced hsynced
    rw [hstore] at hrest hsynced
    refine ⟨hrest.trans ?_, ⟨records', ?_⟩, hpaced, hsynced⟩
    · rw [hsame]
      rfl
    · rw [hrecords', hrecords]

/-- Other than by writes and resets the views that are painted from do not change. -/
theorem synced_display {paced paced' : PacedViews HeldView L} {store : Store}
    {a : PacedAction HeldView L} (hpaced : paced.Inv) (hsynced : Synced paced store)
    (hreads : reads a = true) (h : (pacedViews HeldView L).step paced a = some paced') :
    Synced paced' store := by
  have hreset : a ≠ .resetStream := fun heq => by
    rw [heq] at hreads
    cases hreads
  have hwrite (symbol : String) (view : HeldView) : a ≠ .write symbol view := fun heq => by
    rw [heq] at hreads
    cases hreads
  refine ⟨fun hafter symbol => ?_, fun hafter =>
    hsynced.cleared (PacedViews.clearing_of_step hpaced hreset h hafter)⟩
  by_cases hclear : paced.Clearing
  · rcases PacedViews.clearing_step hpaced hclear h with hstill | hcleared
    · exact absurd hstill hafter
    · rw [hcleared symbol, hsynced.cleared hclear symbol]
      rfl
  · have hrecords := PacedViews.records_step hpaced hclear hwrite h
    rw [← hsynced.level hclear symbol, PacedViews.getSymbolSnapshot, hrecords]
    rfl

/-! ## Steps -/

/-- What is kept between any two steps. -/
structure Inv (s : Pipeline L) : Prop where
  keyed : ∀ metas, (tickCoalescer metas).Keyed s.dispatcher.pending
  /-- Flushing what is pending is taking the ticks that wait in turn. -/
  pending : ∀ metas views, (tickCoalescer metas).flush s.dispatcher.pending views =
    s.queue.foldl (tickCoalescer metas).apply views
  shown : s.store.ShowsAs s.direct
  paced : s.paced.Inv
  synced : Synced s.paced s.store

theorem inv_init : (pipeline L).init.Inv where
  keyed _ := Coalescer.keyed_empty _
  pending _ _ := rfl
  shown := ⟨rfl, rfl⟩
  paced := PacedViews.inv_init
  synced := ⟨fun _ _ => rfl, fun _ _ => rfl⟩

theorem Inv.push {s t : Pipeline L} {tick : Tick} (h : s.Inv) (ht : s.step (.push tick) = some t) :
    t.Inv := by
  cases ht
  refine ⟨fun metas => ?_, fun metas views => ?_, h.shown, h.paced, h.synced⟩
  · dsimp only
    rw [s.dispatcher.push_pending metas]
    exact (h.keyed metas).push tick
  · dsimp only
    rw [s.dispatcher.push_pending metas, (h.keyed metas).flush_push, h.pending, List.foldl_append,
      List.foldl_cons, List.foldl_nil]

/-- A frame shows what the ticks that waited for it would, one by one. -/
theorem Inv.flushNow {s t : Pipeline L} (h : s.Inv) (now : Nat) (ht : s.flushNow now = some t) :
    t.Inv := by
  obtain ⟨hsame, -, hpaced, hsynced⟩ := wrote_foldlM ht h.paced h.synced
  rw [hsame]
  refine ⟨fun _ => Coalescer.keyed_empty _, fun _ _ => rfl, ?_, hpaced, hsynced⟩
  have hmetas := s.store.foldl_applyTick_metas now s.dispatcher.pending.values
  have hdirect := s.direct.foldl_applyTick_metas now s.queue
  refine ⟨hmetas.trans (h.shown.metas.trans hdirect.symm), ?_⟩
  dsimp only
  rw [Store.displayed_foldl_applyTick, Store.displayed_foldl_applyTick, ← h.pending,
    h.shown.metas, h.shown.displayed]
  rfl

theorem Inv.step {s t : Pipeline L} {a : Action L} (h : s.Inv)
    (ht : (pipeline L).step s a = some t) : t.Inv := by
  cases a with
  | push tick => exact h.push ht
  | frame now =>
    simp only [pipeline, Pipeline.step, Option.ite_none_left_eq_some] at ht
    have hframe : Inv { s with frames := s.frames - 1 } :=
      ⟨h.keyed, h.pending, h.shown, h.paced, h.synced⟩
    exact hframe.flushNow now ht.2
  | primeUniverse symbols =>
    cases ht
    exact ⟨h.keyed, h.pending, h.shown.primeUniverse symbols, h.paced, h.synced.level,
      h.synced.cleared⟩
  | applySnapshot snapshot now =>
    obtain ⟨hsame, -, hpaced, hsynced⟩ :=
      wrote_write (s := { s with direct := s.direct.applySnapshot snapshot now }) ht h.paced
        h.synced (s.store.written_applySnapshot snapshot now)
    rw [hsame]
    exact ⟨h.keyed, h.pending, h.shown.applySnapshot snapshot now, hpaced, hsynced⟩
  | resetStream =>
    simp only [pipeline, Pipeline.step, Option.map_eq_some_iff] at ht
    obtain ⟨paced, hstep, rfl⟩ := ht
    refine ⟨h.keyed, h.pending, h.shown.resetStream, (PacedViews.step_moves h.paced hstep).1, ?_⟩
    refine ⟨fun hclear => absurd ?_ hclear, fun _ => s.store.getSymbolSnapshot_resetStream⟩
    simp only [pacedViews, Option.ite_none_right_eq_some, Option.some.injEq] at hstep
    exact ⟨0, hstep.2 ▸ rfl⟩
  | display a =>
    simp only [pipeline, Pipeline.step, Option.ite_none_right_eq_some,
      Option.map_eq_some_iff] at ht
    obtain ⟨hreads, paced, hstep, rfl⟩ := ht
    exact ⟨h.keyed, h.pending, h.shown, (PacedViews.step_moves h.paced hstep).1,
      synced_display h.paced h.synced hreads hstep⟩

/-! ## What is painted -/

/-- A step of the pipeline writes views and paints nothing, or is one of the painted views. -/
theorem step_paced {s t : Pipeline L} {a : Action L} (h : s.Inv)
    (ht : (pipeline L).step s a = some t) :
    (∃ records, t.paced = { s.paced with records := records }) ∨
      (a = .resetStream ∧ s.paced.atRest = true) ∨
      ∃ b, a = .display b ∧ (pacedViews HeldView L).step s.paced b = some t.paced := by
  cases a with
  | push tick | primeUniverse symbols =>
    cases ht
    exact .inl ⟨_, rfl⟩
  | frame now =>
    simp only [pipeline, Pipeline.step, Option.ite_none_left_eq_some] at ht
    exact .inl (wrote_foldlM ht.2 h.paced h.synced).unpainted
  | applySnapshot snapshot now =>
    refine .inl (wrote_write (s := { s with direct := s.direct.applySnapshot snapshot now }) ht
      h.paced h.synced (s.store.written_applySnapshot snapshot now)).unpainted
  | resetStream =>
    simp only [pipeline, Pipeline.step, Option.map_eq_some_iff, pacedViews,
      Option.ite_none_right_eq_some] at ht
    obtain ⟨-, ⟨hrest, -⟩, -⟩ := ht
    exact .inr (.inl ⟨rfl, hrest⟩)
  | display a =>
    simp only [pipeline, Pipeline.step, Option.ite_none_right_eq_some,
      Option.map_eq_some_iff] at ht
    obtain ⟨-, paced, hstep, rfl⟩ := ht
    exact .inr (.inr ⟨a, rfl, hstep⟩)

/-- What leaves a symbol painted as it is. -/
def Settled (symbol : String) (s : Pipeline L) : Action L → Prop
  | .resetStream => False
  | .display a => Stands symbol s.paced a
  | _ => True

theorem standing_step {symbol : String} {entry : Nat} {view : Option HeldView} {s t : Pipeline L}
    {a : Action L} (h : s.Inv ∧ Standing symbol entry view s.paced) (ha : Settled symbol s a)
    (ht : (pipeline L).step s a = some t) : t.Inv ∧ Standing symbol entry view t.paced := by
  obtain ⟨hinv, hstanding⟩ := h
  have hafter := hinv.step ht
  refine ⟨hafter, ?_⟩
  rcases step_paced hinv ht with ⟨records, hrecords⟩ | ⟨rfl, -⟩ | ⟨b, rfl, hstep⟩
  · have hpaced := hafter.paced
    rw [hrecords] at hpaced ⊢
    exact ⟨hpaced, hstanding.quiet, hstanding.listened, hstanding.painted⟩
  · exact ha.elim
  · exact hstanding.step ha hstep

/-- What is painted from shows what the store shows, as long as no reset is under way. -/
theorem Inv.displayed {s : Pipeline L} (h : s.Inv) (hclear : ¬s.paced.Clearing)
    (symbol : String) : (s.paced.getSymbolSnapshot symbol).map (fun held => held.view.untimed) =
      s.direct.displayed symbol := by
  rw [← h.shown.displayed, Store.displayed, ← h.synced.level hclear, Option.map_map]
  rfl

/-- Two symbols are primed and one is listened to; three ticks make a frame, and a beat paints it
up to the end of its walk. -/
def paintedRun : List (Action Nat) :=
  let tick (symbol : String) (q : Int) : Tick :=
    ⟨symbol, ⟨['1', '0'], isDecimal_ten⟩, q, .trade, "", "", .live⟩
  [.primeUniverse [⟨"COMI", "CIB", ⟨['9'], isDecimal_nine⟩⟩,
      ⟨"HRHO", "EFG", ⟨['1'], isDecimal_one⟩⟩],
    .display (.subscribePacedSymbol "COMI" 1), .push (tick "COMI" 3), .push (tick "HRHO" 5),
    .push (tick "COMI" 4), .frame 16, .display .beat, .display .proceed, .display .proceed,
    .display .ends, .display .proceed]

/-- The next frame comes before the next beat. -/
def nextFrame : List (Action Nat) :=
  [.push ⟨"COMI", ⟨['1', '1'], by decide⟩, 2, .trade, "", "", .live⟩, .display .proceed, .frame 32]

end Pipeline

end Tckr.MarketWatch
