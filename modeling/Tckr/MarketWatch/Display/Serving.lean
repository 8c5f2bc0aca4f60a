import Tckr.MarketWatch.Display.PacedViews

/-!
# Serving the listeners of paced views

What subscribing, unsubscribing and publishing keep, wherever a listener calls them:
entries are listened to, the timer and the watch on discards are set while somebody
listens, and an entry that holds the store's view goes on holding it.
-/

namespace Tckr.MarketWatch.PacedViews

variable {V L : Type}

/-! ## The representation -/

/-- Somebody listens. -/
def Registered (s : PacedViews V L) : Prop :=
  (∃ symbol entry, s.entries.Has symbol entry) ∨ s.beatListeners.elems ≠ []

/-- A beat is under way. -/
def Beating (s : PacedViews V L) : Prop :=
  (∃ position, s.task = .beatPublishing position) ∨ ∃ remaining, s.task = .beatListening remaining

theorem unheard_eq_false_iff {s : PacedViews V L} : s.unheard = false ↔ s.Registered := by
  rw [unheard, Bool.and_eq_false_iff, Registered, ← Bool.not_eq_true, LiveMap.isEmpty_iff,
    List.isEmpty_eq_false_iff]
  push Not
  exact Iff.rfl

theorem unheard_eq_true_iff {s : PacedViews V L} : s.unheard = true ↔ ¬s.Registered := by
  rw [← unheard_eq_false_iff, Bool.not_eq_false]

/-- What the entries are relied on for. -/
structure Sound (s : PacedViews V L) : Prop where
  /-- Every entry is listened to. -/
  listened : ∀ symbol entry, s.entries.Has symbol entry →
    ∃ active, s.heap[entry]? = some active ∧ active.listeners.elems ≠ []
  /-- No two symbols share an entry. -/
  apart : ∀ symbol other entry, s.entries.Has symbol entry → s.entries.Has other entry →
    symbol = other
  /-- A function that ends a subscription knows the symbol of its entry. -/
  returned : ∀ symbol entry cb, .symbol symbol entry cb ∈ s.returned →
    entry < s.heap.length ∧ ∀ other, s.entries.Has other entry → other = symbol

/-- What is set while somebody listens. -/
structure Switched (s : PacedViews V L) : Prop where
  timer : s.beatTimer = true → s.Registered
  armed : ¬s.Beating → s.Registered → s.beatTimer = true
  watch : s.stopDiscardWatch = true ↔ s.Registered
  watched : s.streamDiscardListeners.Has .publishAll () ↔ s.stopDiscardWatch = true

/-- An entry holds the view the store has. -/
def Current (s : PacedViews V L) (symbol : String) (entry : Nat) : Prop :=
  s.viewOf entry = s.getSymbolSnapshot symbol

def AllCurrent (s : PacedViews V L) : Prop := ∀ symbol entry, s.entries.Has symbol entry →
  s.Current symbol entry

/-- The store has no view. -/
def Cleared (s : PacedViews V L) : Prop := ∀ symbol, s.getSymbolSnapshot symbol = none

/-- The walk over the discard listeners has not come to `publishAll`. -/
def Pending (s : PacedViews V L) (position : Nat) : Prop :=
  ∃ place, position ≤ place ∧ s.streamDiscardListeners.At place .publishAll ()

/-- What the task has achieved. -/
def Progress (s : PacedViews V L) : Prop :=
  match s.task with
  | .idle => True
  | .beatPublishing position => s.entries.Passed position s.Current
  | .beatListening _ => True
  | .clearing position => s.records.Passed position fun _ view => view = none
  | .discarding position => s.Cleared ∧ (s.AllCurrent ∨ s.Pending position)
  | .discardPublishing _ position => s.Cleared ∧ s.entries.Passed position s.Current

structure Inv (s : PacedViews V L) : Prop where
  sound : s.Sound
  switched : s.Switched
  progress : s.Progress

/-- What every call of a script keeps. -/
structure Serves (s t : PacedViews V L) : Prop where
  records : t.records = s.records
  task : t.task = s.task
  /-- Entries that hold the store's view keep it, and new ones are given it. -/
  follows : ∀ position, s.entries.Passed position s.Current → t.entries.Passed position t.Current
  pending : ∀ position, s.Pending position → t.AllCurrent ∨ t.Pending position

theorem Serves.allCurrent {s t : PacedViews V L} (h : Serves s t) (hall : s.AllCurrent) :
    t.AllCurrent := by
  rintro symbol entry ⟨place, hat⟩
  have hpassed := h.follows (place + 1) fun x symbol entry _ hat => hall symbol entry ⟨x, hat⟩
  exact hpassed place symbol entry (Nat.lt_succ_self place) hat

theorem Serves.snapshot {s t : PacedViews V L} (h : Serves s t) (symbol : String) :
    t.getSymbolSnapshot symbol = s.getSymbolSnapshot symbol := by
  rw [getSymbolSnapshot, h.records, getSymbolSnapshot]

theorem Serves.cleared {s t : PacedViews V L} (h : Serves s t) (hcleared : s.Cleared) :
    t.Cleared := fun symbol => (h.snapshot symbol).trans (hcleared symbol)

/-- Scripts do not undo what the task has achieved. -/
theorem Serves.progress {s t : PacedViews V L} (h : Serves s t) (hprogress : s.Progress) :
    t.Progress := by
  unfold Progress at *
  rw [h.task]
  cases htask : s.task with
  | idle => trivial
  | beatPublishing position =>
    rw [htask] at hprogress
    exact h.follows position hprogress
  | beatListening remaining => trivial
  | clearing position =>
    rw [htask] at hprogress
    dsimp only
    rw [h.records]
    exact hprogress
  | discarding position =>
    rw [htask] at hprogress
    obtain ⟨hcleared, hcurrent | hpending⟩ := hprogress
    · exact ⟨h.cleared hcleared, .inl (h.allCurrent hcurrent)⟩
    · exact ⟨h.cleared hcleared, h.pending position hpending⟩
  | discardPublishing outer position =>
    rw [htask] at hprogress
    exact ⟨h.cleared hprogress.1, h.follows position hprogress.2⟩

theorem Serves.trans {s t u : PacedViews V L} (h : Serves s t) (h' : Serves t u) : Serves s u where
  records := h'.records.trans h.records
  task := h'.task.trans h.task
  follows position hpassed := h'.follows position (h.follows position hpassed)
  pending position hpending := by
    rcases h.pending position hpending with hcurrent | hpending
    · exact .inl (h'.allCurrent hcurrent)
    · exact h'.pending position hpending

/-! ## Switches -/

/-- The entries and what they hold are the same. -/
structure SameEntries (s t : PacedViews V L) : Prop where
  records : t.records = s.records
  task : t.task = s.task
  heap : t.heap = s.heap
  entries : t.entries = s.entries
  beatListeners : t.beatListeners = s.beatListeners
  returned : t.returned = s.returned

theorem SameEntries.viewOf {s t : PacedViews V L} (h : SameEntries s t) (entry : Nat) :
    t.viewOf entry = s.viewOf entry := by
  rw [PacedViews.viewOf, h.heap, PacedViews.viewOf]

theorem SameEntries.sound {s t : PacedViews V L} (h : SameEntries s t) (hs : s.Sound) :
    t.Sound where
  listened := by
    rw [h.entries, h.heap]
    exact hs.listened
  apart := by
    rw [h.entries]
    exact hs.apart
  returned := by
    rw [h.entries, h.heap, h.returned]
    exact hs.returned

theorem SameEntries.follows {s t : PacedViews V L} (h : SameEntries s t) (position : Nat)
    (hpassed : s.entries.Passed position s.Current) : t.entries.Passed position t.Current := by
  rw [h.entries]
  refine hpassed.imp fun symbol entry _ hcurrent => ?_
  rw [Current, h.viewOf, hcurrent, getSymbolSnapshot, getSymbolSnapshot, h.records]

theorem sameEntries_schedule (s : PacedViews V L) : SameEntries s s.schedule := by
  unfold schedule
  split
  · exact ⟨rfl, rfl, rfl, rfl, rfl, rfl⟩
  · exact ⟨rfl, rfl, rfl, rfl, rfl, rfl⟩

theorem schedule_stopDiscardWatch (s : PacedViews V L) :
    s.schedule.stopDiscardWatch = s.stopDiscardWatch := by
  unfold schedule
  split
  · rfl
  · rfl

theorem schedule_streamDiscardListeners (s : PacedViews V L) :
    s.schedule.streamDiscardListeners = s.streamDiscardListeners := by
  unfold schedule
  split
  · rfl
  · rfl

/-- The timer is set exactly when there is somebody to hear the beat. -/
theorem schedule_beatTimer {s : PacedViews V L} (h : s.beatTimer = true → s.Registered) :
    s.schedule.beatTimer = true ↔ s.Registered := by
  unfold schedule
  by_cases hset : s.beatTimer = true
  · rw [hset, Bool.true_or, if_pos rfl, hset]
    exact ⟨fun _ => h hset, fun _ => rfl⟩
  · rw [Bool.not_eq_true] at hset
    rw [hset, Bool.false_or]
    split
    · rename_i hunheard
      rw [hset, ← Bool.not_eq_false, ← unheard_eq_false_iff, hunheard]
      exact ⟨fun hfalse => absurd rfl hfalse, fun hfalse => absurd hfalse Bool.noConfusion⟩
    · rename_i hheard
      rw [Bool.not_eq_true, unheard_eq_false_iff] at hheard
      exact ⟨fun _ => hheard, fun _ => rfl⟩

theorem Registered.congr {s t : PacedViews V L} (hentries : t.entries = s.entries)
    (hbeat : t.beatListeners = s.beatListeners) : t.Registered ↔ s.Registered := by
  unfold Registered
  rw [hentries, hbeat]

theorem SameEntries.registered {s t : PacedViews V L} (h : SameEntries s t) :
    t.Registered ↔ s.Registered := Registered.congr h.entries h.beatListeners

theorem Beating.congr {s t : PacedViews V L} (htask : t.task = s.task) : t.Beating ↔ s.Beating := by
  unfold Beating
  rw [htask]

/-- What is set is the same. -/
structure SameSwitches (s t : PacedViews V L) : Prop where
  records : t.records = s.records
  task : t.task = s.task
  beatTimer : t.beatTimer = s.beatTimer
  stopDiscardWatch : t.stopDiscardWatch = s.stopDiscardWatch
  streamDiscardListeners : t.streamDiscardListeners = s.streamDiscardListeners

theorem SameSwitches.switched {s t : PacedViews V L} (h : SameSwitches s t) (hs : s.Switched)
    (hregistered : t.Registered ↔ s.Registered) : t.Switched where
  timer := by
    rw [h.beatTimer, hregistered]
    exact hs.timer
  armed := by
    rw [h.beatTimer, hregistered, Beating.congr h.task]
    exact hs.armed
  watch := by
    rw [h.stopDiscardWatch, hregistered]
    exact hs.watch
  watched := by
    rw [h.streamDiscardListeners, h.stopDiscardWatch]
    exact hs.watched

theorem SameSwitches.pending {s t : PacedViews V L} (h : SameSwitches s t) {position : Nat}
    (hpending : s.Pending position) : t.AllCurrent ∨ t.Pending position := by
  unfold Pending
  rw [h.streamDiscardListeners]
  exact .inr hpending

/-! ## Entries -/

theorem heap_listen (s : PacedViews V L) (entry : Nat) (f : OrderedSet L → OrderedSet L)
    (x : Nat) : (s.listen entry f).heap[x]? = s.heap[x]?.map fun active =>
      if entry = x then { active with listeners := f active.listeners } else active :=
  List.getElem?_modify _ _ _ _

theorem viewOf_listen (s : PacedViews V L) (entry : Nat) (f : OrderedSet L → OrderedSet L)
    (x : Nat) : (s.listen entry f).viewOf x = s.viewOf x := by
  rw [viewOf, heap_listen, viewOf]
  cases s.heap[x]? with
  | none => rfl
  | some active =>
    dsimp only [Option.map_some, Option.bind_some]
    split
    · rfl
    · rfl

theorem has_withEntry {s : PacedViews V L} {symbol other : String} {entry : Nat} :
    (s.withEntry symbol).entries.Has other entry ↔
      s.entries.Has other entry ∨ other = symbol ∧ entry = s.entryFor symbol := by
  unfold withEntry entryFor
  cases hget : s.entries.get? symbol with
  | none =>
    rw [if_neg (by decide)]
    exact LiveMap.has_set_of_absent hget
  | some active =>
    rw [if_pos (by rfl), Option.getD_some, iff_self_or]
    rintro ⟨rfl, rfl⟩
    exact LiveMap.get?_eq_some_iff.mp hget

theorem heap_withEntry {s : PacedViews V L} {symbol : String} {x : Nat} {active : PacedEntry V L} :
    (s.withEntry symbol).heap[x]? = some active ↔ s.heap[x]? = some active ∨
      s.entries.get? symbol = none ∧ x = s.heap.length ∧
        ⟨s.getSymbolSnapshot symbol, .empty⟩ = active := by
  unfold withEntry
  cases hget : s.entries.get? symbol with
  | none =>
    rw [if_neg (by decide)]
    simp only [LiveMap.getElem?_concat_eq_some, true_and]
  | some active =>
    rw [if_pos (by rfl)]
    simp only [reduceCtorEq, false_and, or_false]

/-- The entry of a symbol is one that was made, or the one after the last. -/
theorem exists_heap_entryFor {s : PacedViews V L} (hs : s.Sound) (symbol : String) :
    ∃ active, (s.withEntry symbol).heap[s.entryFor symbol]? = some active := by
  cases hget : s.entries.get? symbol with
  | none => exact ⟨_, heap_withEntry.mpr (.inr ⟨hget, by rw [entryFor, hget]; rfl, rfl⟩)⟩
  | some entry =>
    obtain ⟨active, hactive, -⟩ := hs.listened symbol entry (LiveMap.get?_eq_some_iff.mp hget)
    refine ⟨active, heap_withEntry.mpr (.inl ?_)⟩
    rw [entryFor, hget]
    exact hactive

theorem Sound.lt_length {s : PacedViews V L} (hs : s.Sound) {symbol : String} {entry : Nat}
    (h : s.entries.Has symbol entry) : entry < s.heap.length := by
  obtain ⟨active, hactive, -⟩ := hs.listened symbol entry h
  exact (List.getElem?_eq_some_iff.mp hactive).1

/-- No other symbol has the entry of a symbol. -/
theorem eq_of_has_entryFor {s : PacedViews V L} (hs : s.Sound) {symbol other : String}
    (h : s.entries.Has other (s.entryFor symbol)) : other = symbol := by
  unfold entryFor at h
  cases hget : s.entries.get? symbol with
  | none =>
    rw [hget] at h
    exact absurd (hs.lt_length h) (Nat.lt_irrefl _)
  | some entry =>
    rw [hget] at h
    exact hs.apart other symbol entry h (LiveMap.get?_eq_some_iff.mp hget)

theorem getSymbolSnapshot_congr {s t : PacedViews V L} (h : t.records = s.records)
    (symbol : String) : t.getSymbolSnapshot symbol = s.getSymbolSnapshot symbol := by
  rw [getSymbolSnapshot, h, getSymbolSnapshot]

theorem sound_returned {s : PacedViews V L} (hs : s.Sound) {symbol : String} {active : Nat}
    {cb : L} (hhas : s.entries.Has symbol active) :
    Sound { s with returned := s.returned ++ [.symbol symbol active cb] } where
  listened := hs.listened
  apart := hs.apart
  returned other entry cb' hmem := by
    rcases List.mem_append.mp hmem with hmem | hmem
    · exact hs.returned other entry cb' hmem
    · obtain ⟨rfl, rfl, rfl⟩ := Unsubscribe.symbol.inj (List.mem_singleton.mp hmem)
      exact ⟨hs.lt_length hhas, fun another hother => hs.apart another other entry hother hhas⟩

theorem heap_dropSilent (s : PacedViews V L) (symbol : String) (active : Nat) :
    (s.dropSilent symbol active).heap = s.heap := by
  unfold dropSilent
  split
  · rfl
  · rfl

theorem sameSwitches_dropSilent (s : PacedViews V L) (symbol : String) (active : Nat) :
    SameSwitches s (s.dropSilent symbol active) := by
  unfold dropSilent
  split
  · exact ⟨rfl, rfl, rfl, rfl, rfl⟩
  · exact ⟨rfl, rfl, rfl, rfl, rfl⟩

theorem has_of_has_dropSilent {s : PacedViews V L} {symbol other : String} {active entry : Nat}
    (h : (s.dropSilent symbol active).entries.Has other entry) : s.entries.Has other entry := by
  unfold dropSilent at h
  split at h
  · exact (LiveMap.has_delete.mp h).2
  · exact h

/-! ## Starting and stopping -/

section

variable [DecidableEq L]

theorem sameEntries_start (s : PacedViews V L) : SameEntries s s.start := by
  unfold start
  have h := sameEntries_schedule { s with
    stopDiscardWatch := true
    streamDiscardListeners :=
      if s.stopDiscardWatch then s.streamDiscardListeners
      else s.streamDiscardListeners.set .publishAll () }
  exact ⟨h.records, h.task, h.heap, h.entries, h.beatListeners, h.returned⟩

/-- Starting sets the switches when somebody has begun to listen. -/
theorem switched_start {s : PacedViews V L} (hregistered : s.Registered)
    (hwatched : s.streamDiscardListeners.Has .publishAll () ↔ s.stopDiscardWatch = true) :
    s.start.Switched := by
  have hsame := sameEntries_start s
  have hstarted := hsame.registered.mpr hregistered
  have hstop : s.start.stopDiscardWatch = true := schedule_stopDiscardWatch _
  refine ⟨fun _ => hstarted, fun _ _ => ?_, by rw [hstop]; exact ⟨fun _ => hstarted, fun _ => rfl⟩,
    ?_⟩
  · unfold start
    apply (schedule_beatTimer _).mpr
    · exact (Registered.congr rfl rfl).mpr hregistered
    · exact fun _ => (Registered.congr rfl rfl).mpr hregistered
  · rw [hstop]
    refine ⟨fun _ => rfl, fun _ => ?_⟩
    unfold start
    rw [schedule_streamDiscardListeners]
    dsimp only
    split
    · rename_i hwatch
      exact hwatched.mpr hwatch
    · rename_i hwatch
      have habsent : s.streamDiscardListeners.get? .publishAll = none := by
        rw [Option.eq_none_iff_forall_ne_some]
        intro _ hget
        exact hwatch (hwatched.mp (LiveMap.get?_eq_some_iff.mp hget))
      exact (LiveMap.has_set_of_absent habsent).mpr (.inr ⟨rfl, rfl⟩)

theorem sameEntries_stopIfIdle (s : PacedViews V L) : SameEntries s s.stopIfIdle := by
  unfold stopIfIdle
  split
  · exact ⟨rfl, rfl, rfl, rfl, rfl, rfl⟩
  · exact ⟨rfl, rfl, rfl, rfl, rfl, rfl⟩

/-- Stopping clears the switches when the last has stopped to listen. -/
theorem switched_stopIfIdle {s t : PacedViews V L} (h : SameSwitches s t) (hs : s.Switched)
    (hregistered : t.Registered → s.Registered) : t.stopIfIdle.Switched := by
  by_cases hidle : t.unheard = true
  · have hnone : ¬t.Registered := unheard_eq_true_iff.mp hidle
    have hstopped : ¬t.stopIfIdle.Registered := hnone ∘ (sameEntries_stopIfIdle t).registered.mp
    refine ⟨fun htimer => ?_, fun _ hregistered => absurd hregistered hstopped,
      ⟨fun hstop => ?_, fun hregistered => absurd hregistered hstopped⟩, ?_⟩
    · rw [stopIfIdle, if_pos hidle] at htimer
      cases htimer
    · rw [stopIfIdle, if_pos hidle] at hstop
      cases hstop
    · rw [stopIfIdle, if_pos hidle]
      dsimp only
      split
      · simp only [LiveMap.has_delete, ne_eq, not_true_eq_false, false_and, Bool.false_eq_true]
      · rename_i hwatch
        rw [h.streamDiscardListeners, hs.watched, ← h.stopDiscardWatch]
        simp only [hwatch, Bool.false_eq_true]
  · rw [stopIfIdle, if_neg hidle]
    rw [Bool.not_eq_true, unheard_eq_false_iff] at hidle
    exact h.switched hs ⟨fun _ => hregistered hidle, fun _ => hidle⟩

/-! ## Listening -/

/-- The state with one more listener of the symbol. -/
def enrol (s : PacedViews V L) (symbol : String) (cb : L) : PacedViews V L :=
  (s.withEntry symbol).listen (s.entryFor symbol) (·.add cb)

theorem has_enrol {s : PacedViews V L} {symbol other : String} {cb : L} {entry : Nat} :
    (s.enrol symbol cb).entries.Has other entry ↔
      s.entries.Has other entry ∨ other = symbol ∧ entry = s.entryFor symbol := has_withEntry

theorem length_enrol (s : PacedViews V L) (symbol : String) (cb : L) :
    s.heap.length ≤ (s.enrol symbol cb).heap.length := by
  unfold enrol listen withEntry
  dsimp only
  rw [List.length_modify]
  split
  · exact Nat.le_refl _
  · rw [List.length_append]
    exact Nat.le_add_right _ _

theorem add_ne_nil (listeners : OrderedSet L) (cb : L) : (listeners.add cb).elems ≠ [] :=
  List.ne_nil_of_mem (OrderedSet.mem_def.mp (OrderedSet.mem_add.mpr (.inr rfl)))

theorem sound_enrol {s : PacedViews V L} (hs : s.Sound) (symbol : String) (cb : L) :
    (s.enrol symbol cb).Sound where
  listened other entry hhas := by
    by_cases heq : s.entryFor symbol = entry
    · obtain ⟨active, hactive⟩ := exists_heap_entryFor hs symbol
      refine ⟨{ active with listeners := active.listeners.add cb }, ?_, add_ne_nil _ cb⟩
      rw [enrol, heap_listen, ← heq, hactive, Option.map_some, if_pos rfl]
    · rcases has_enrol.mp hhas with hold | ⟨-, hnew⟩
      · obtain ⟨active, hactive, hlistened⟩ := hs.listened other entry hold
        refine ⟨active, ?_, hlistened⟩
        rw [enrol, heap_listen, heap_withEntry.mpr (.inl hactive), Option.map_some, if_neg heq]
      · exact absurd hnew.symm heq
  apart first second entry hfirst hsecond := by
    rcases has_enrol.mp hfirst with hold | ⟨rfl, rfl⟩
    · rcases has_enrol.mp hsecond with hold' | ⟨rfl, rfl⟩
      · exact hs.apart first second entry hold hold'
      · exact eq_of_has_entryFor hs hold
    · rcases has_enrol.mp hsecond with hold' | ⟨rfl, -⟩
      · exact (eq_of_has_entryFor hs hold').symm
      · rfl
  returned other entry other' hreturned := by
    have hreturned : .symbol other entry other' ∈ s.returned := by
      unfold enrol listen withEntry at hreturned
      dsimp only at hreturned
      split at hreturned
      · exact hreturned
      · exact hreturned
    obtain ⟨hlt, howner⟩ := hs.returned other entry other' hreturned
    refine ⟨Nat.lt_of_lt_of_le hlt (length_enrol s symbol cb), fun another hhas => ?_⟩
    rcases has_enrol.mp hhas with hold | ⟨rfl, rfl⟩
    · exact howner another hold
    · -- The entry was made before, so it is the symbol's own.
      cases hget : s.entries.get? another with
      | none =>
        unfold entryFor at hlt
        rw [hget] at hlt
        exact absurd hlt (Nat.lt_irrefl _)
      | some entry =>
        apply howner another
        rw [entryFor, hget]
        exact LiveMap.get?_eq_some_iff.mp hget

/-- A view is not touched by those who come to listen. -/
theorem viewOf_enrol {s : PacedViews V L} {symbol : String} {cb : L} {entry : Nat}
    (h : entry < s.heap.length) : (s.enrol symbol cb).viewOf entry = s.viewOf entry := by
  rw [enrol, viewOf_listen, viewOf, viewOf]
  have hactive : s.heap[entry]? = some s.heap[entry] := List.getElem?_eq_getElem h
  rw [heap_withEntry.mpr (.inl hactive), hactive]

/-- A new entry takes the store's view. -/
theorem viewOf_enrol_new {s : PacedViews V L} {symbol : String} {cb : L}
    (h : s.entries.get? symbol = none) :
    (s.enrol symbol cb).viewOf s.heap.length = s.getSymbolSnapshot symbol := by
  rw [enrol, viewOf_listen, viewOf, heap_withEntry.mpr (.inr ⟨h, rfl, rfl⟩), Option.bind_some]

theorem serves_start (s : PacedViews V L) : Serves s s.start where
  records := (sameEntries_start s).records
  task := (sameEntries_start s).task
  follows := (sameEntries_start s).follows
  pending position hpending := by
    obtain ⟨place, hle, hat⟩ := hpending
    refine .inr ⟨place, hle, ?_⟩
    unfold start
    rw [schedule_streamDiscardListeners]
    dsimp only
    split
    · exact hat
    · exact (hat.set .publishAll ()).choose_spec

theorem serves_stopIfIdle (s : PacedViews V L) : Serves s s.stopIfIdle where
  records := (sameEntries_stopIfIdle s).records
  task := (sameEntries_stopIfIdle s).task
  follows := (sameEntries_stopIfIdle s).follows
  pending position hpending := by
    by_cases hidle : s.unheard = true
    · left
      intro symbol entry hhas
      rw [(sameEntries_stopIfIdle s).entries] at hhas
      exact absurd (.inl ⟨symbol, entry, hhas⟩) (unheard_eq_true_iff.mp hidle)
    · rw [stopIfIdle, if_neg hidle]
      exact .inr hpending

theorem sameSwitches_enrol (s : PacedViews V L) (symbol : String) (cb : L) :
    SameSwitches s (s.enrol symbol cb) := by
  unfold enrol listen withEntry
  split
  · exact ⟨rfl, rfl, rfl, rfl, rfl⟩
  · exact ⟨rfl, rfl, rfl, rfl, rfl⟩

theorem serves_enrol {s : PacedViews V L} (hs : s.Sound) (symbol : String) (cb : L) :
    Serves s (s.enrol symbol cb) where
  records := (sameSwitches_enrol s symbol cb).records
  task := (sameSwitches_enrol s symbol cb).task
  follows position hpassed := by
    have hsnapshot := getSymbolSnapshot_congr (sameSwitches_enrol s symbol cb).records
    have hold : s.entries.Passed position (s.enrol symbol cb).Current := by
      refine hpassed.imp fun other entry hhas hcurrent => ?_
      rw [Current, viewOf_enrol (hs.lt_length hhas), hcurrent, hsnapshot]
    cases hget : s.entries.get? symbol with
    | none =>
      have hentries : (s.enrol symbol cb).entries = s.entries.set symbol s.heap.length := by
        unfold enrol listen withEntry
        rw [hget, if_neg (by decide)]
      rw [hentries]
      apply hold.set
      rw [Current, viewOf_enrol_new hget, hsnapshot]
    | some entry =>
      have hentries : (s.enrol symbol cb).entries = s.entries := by
        unfold enrol listen withEntry
        rw [hget, if_pos (by rfl)]
      rw [hentries]
      exact hold
  pending _ hpending := (sameSwitches_enrol s symbol cb).pending hpending

/-! ## Subscribing -/

/-- What a call of a script leaves behind. -/
structure Served (s t : PacedViews V L) : Prop where
  inv : t.Inv
  records : t.records = s.records
  task : t.task = s.task
  /-- No view is touched. -/
  viewOf : ∀ symbol entry, s.entries.Has symbol entry → t.viewOf entry = s.viewOf entry

theorem subscribePacedSymbol_served {s : PacedViews V L} (h : s.Inv) (symbol : String) (cb : L) :
    Served s (s.subscribePacedSymbol symbol cb) := by
  have hsame := sameEntries_start (s.enrol symbol cb)
  have hhas : (s.enrol symbol cb).entries.Has symbol (s.entryFor symbol) :=
    has_enrol.mpr (.inr ⟨rfl, rfl⟩)
  have hsound : (s.enrol symbol cb).start.Sound := hsame.sound (sound_enrol h.sound symbol cb)
  have hregistered : (s.enrol symbol cb).Registered := .inl ⟨symbol, _, hhas⟩
  have hwatched : (s.enrol symbol cb).streamDiscardListeners.Has .publishAll () ↔
      (s.enrol symbol cb).stopDiscardWatch = true := by
    rw [(sameSwitches_enrol s symbol cb).streamDiscardListeners,
      (sameSwitches_enrol s symbol cb).stopDiscardWatch]
    exact h.switched.watched
  have hswitched := switched_start hregistered hwatched
  have hserves := (serves_enrol h.sound symbol cb).trans (serves_start _)
  have hprogress := hserves.progress h.progress
  have heq : s.subscribePacedSymbol symbol cb = { (s.enrol symbol cb).start with
      returned := (s.enrol symbol cb).start.returned ++
        [.symbol symbol (s.entryFor symbol) cb] } := by
    rw [hsame.returned]
    rfl
  rw [heq]
  refine ⟨⟨sound_returned hsound (hsame.entries.symm ▸ hhas), ?_, hprogress⟩,
    hserves.records, hserves.task, fun other entry hother => ?_⟩
  · exact ⟨hswitched.timer, hswitched.armed, hswitched.watch, hswitched.watched⟩
  · exact (hsame.viewOf entry).trans (viewOf_enrol (h.sound.lt_length hother))

theorem subscribeBeat_served {s : PacedViews V L} (h : s.Inv) (cb : L) :
    Served s (s.subscribeBeat cb) := by
  obtain ⟨heard, hheard⟩ : ∃ heard : PacedViews V L,
      heard = { s with beatListeners := s.beatListeners.add cb } := ⟨_, rfl⟩
  have hsame := sameEntries_start heard
  have hregistered : heard.Registered := by
    rw [hheard]
    exact .inr (add_ne_nil _ cb)
  have hsound : heard.Sound := by
    rw [hheard]
    exact ⟨h.sound.listened, h.sound.apart, h.sound.returned⟩
  have hstarted := hsame.sound hsound
  have hswitched : heard.start.Switched := by
    apply switched_start hregistered
    rw [hheard]
    exact h.switched.watched
  have hserves : Serves s heard := by
    rw [hheard]
    exact ⟨rfl, rfl, fun _ hpassed => hpassed, fun _ hpending => .inr hpending⟩
  have hprogress := (hserves.trans (serves_start heard)).progress h.progress
  have heq : s.subscribeBeat cb =
      { heard.start with returned := heard.start.returned ++ [.beat cb] } := by
    rw [hsame.returned, hheard]
    rfl
  have hviews (entry : Nat) : heard.start.viewOf entry = s.viewOf entry := by
    rw [hsame.viewOf, hheard]
    rfl
  rw [heq]
  refine ⟨⟨⟨hstarted.listened, hstarted.apart, fun symbol entry cb' hmem => ?_⟩,
    ⟨hswitched.timer, hswitched.armed, hswitched.watch, hswitched.watched⟩, hprogress⟩,
    (serves_start heard).records.trans hserves.records,
    (serves_start heard).task.trans hserves.task, fun _ entry _ => hviews entry⟩
  rcases List.mem_append.mp hmem with hmem | hmem
  · exact hstarted.returned symbol entry cb' hmem
  · cases List.mem_singleton.mp hmem

/-! ## Unsubscribing -/

/-- The state with one listener less of an entry. -/
def dismiss (s : PacedViews V L) (symbol : String) (active : Nat) (cb : L) : PacedViews V L :=
  (s.listen active (·.delete cb)).dropSilent symbol active

theorem viewOf_dismiss (s : PacedViews V L) (symbol : String) (active : Nat) (cb : L)
    (entry : Nat) : (s.dismiss symbol active cb).viewOf entry = s.viewOf entry := by
  rw [dismiss, viewOf, heap_dropSilent, ← viewOf, viewOf_listen]

theorem sameSwitches_dismiss (s : PacedViews V L) (symbol : String) (active : Nat) (cb : L) :
    SameSwitches s (s.dismiss symbol active cb) := by
  have h := sameSwitches_dropSilent (s.listen active (·.delete cb)) symbol active
  exact ⟨h.records, h.task, h.beatTimer, h.stopDiscardWatch, h.streamDiscardListeners⟩

theorem has_of_has_dismiss {s : PacedViews V L} {symbol other : String} {active entry : Nat}
    {cb : L} (h : (s.dismiss symbol active cb).entries.Has other entry) : s.entries.Has other entry := by
  have hold : (s.listen active (·.delete cb)).entries.Has other entry := has_of_has_dropSilent h
  exact hold

theorem sound_dismiss {s : PacedViews V L} (hs : s.Sound) {symbol : String} {active : Nat} {cb : L}
    (howner : ∀ other, s.entries.Has other active → other = symbol) :
    (s.dismiss symbol active cb).Sound where
  listened other entry hhas := by
    have hold : s.entries.Has other entry := has_of_has_dismiss hhas
    obtain ⟨held, hheld, hlistened⟩ := hs.listened other entry hold
    unfold dismiss
    rw [heap_dropSilent, heap_listen, hheld, Option.map_some]
    by_cases heq : active = entry
    · rw [if_pos heq]
      refine ⟨_, rfl, fun hsilent => ?_⟩
      -- An entry that falls silent is the symbol's, and is removed.
      subst heq
      obtain rfl := howner other hold
      have hdropped : ((s.listen active (·.delete cb)).heap[active]?.any
          fun entry => entry.listeners.elems.isEmpty) = true ∧
          (s.listen active (·.delete cb)).entries.get? other = some active := by
        refine ⟨?_, LiveMap.get?_eq_some_iff.mpr hold⟩
        rw [heap_listen, hheld, Option.map_some, if_pos rfl, Option.any_some, List.isEmpty_iff]
        exact hsilent
      rw [dismiss, dropSilent, if_pos hdropped] at hhas
      exact (LiveMap.has_delete.mp hhas).1 rfl
    · rw [if_neg heq]
      exact ⟨held, rfl, hlistened⟩
  apart first second entry hfirst hsecond :=
    hs.apart first second entry (has_of_has_dismiss hfirst) (has_of_has_dismiss hsecond)
  returned other entry cb' hmem := by
    have hreturned : .symbol other entry cb' ∈ s.returned := by
      unfold dismiss dropSilent at hmem
      split at hmem
      · exact hmem
      · exact hmem
    obtain ⟨hlt, hknown⟩ := hs.returned other entry cb' hreturned
    refine ⟨?_, fun another hhas => hknown another (has_of_has_dismiss hhas)⟩
    unfold dismiss
    rw [heap_dropSilent, listen, List.length_modify]
    exact hlt

theorem serves_dismiss (s : PacedViews V L) (symbol : String) (active : Nat) (cb : L) :
    Serves s (s.dismiss symbol active cb) where
  records := (sameSwitches_dismiss s symbol active cb).records
  task := (sameSwitches_dismiss s symbol active cb).task
  follows position hpassed := by
    have hsnapshot := getSymbolSnapshot_congr (sameSwitches_dismiss s symbol active cb).records
    have hold : s.entries.Passed position (s.dismiss symbol active cb).Current := by
      refine hpassed.imp fun other entry _ hcurrent => ?_
      rw [Current, viewOf_dismiss, hcurrent, hsnapshot]
    unfold dismiss dropSilent at *
    split
    · rename_i hdropped
      rw [if_pos hdropped] at hold
      exact hold.delete symbol
    · rename_i hkept
      rw [if_neg hkept] at hold
      exact hold
  pending _ hpending := (sameSwitches_dismiss s symbol active cb).pending hpending

theorem registered_of_dismiss {s : PacedViews V L} {symbol : String} {active : Nat} {cb : L}
    (h : (s.dismiss symbol active cb).Registered) : s.Registered := by
  rcases h with ⟨other, entry, hhas⟩ | hbeat
  · exact .inl ⟨other, entry, has_of_has_dismiss hhas⟩
  · right
    unfold dismiss dropSilent at hbeat
    split at hbeat
    · exact hbeat
    · exact hbeat

theorem unsubscribe_served {s : PacedViews V L} (h : s.Inv) {f : Unsubscribe L}
    (hf : f ∈ s.returned) : Served s (s.unsubscribe f) := by
  cases f with
  | symbol symbol active cb =>
    have howner := (h.sound.returned symbol active cb hf).2
    have hsame := sameEntries_stopIfIdle (s.dismiss symbol active cb)
    have hserves := (serves_dismiss s symbol active cb).trans (serves_stopIfIdle _)
    exact ⟨⟨hsame.sound (sound_dismiss h.sound howner),
      switched_stopIfIdle (sameSwitches_dismiss s symbol active cb) h.switched
        registered_of_dismiss,
      hserves.progress h.progress⟩, hserves.records, hserves.task,
      fun _ entry _ => (hsame.viewOf entry).trans (viewOf_dismiss s symbol active cb entry)⟩
  | beat cb =>
    obtain ⟨left, hleft⟩ : ∃ left : PacedViews V L,
        left = { s with beatListeners := s.beatListeners.delete cb } := ⟨_, rfl⟩
    have hsame := sameEntries_stopIfIdle left
    have hsound : left.Sound := by
      rw [hleft]
      exact ⟨h.sound.listened, h.sound.apart, h.sound.returned⟩
    have hserves : Serves s left := by
      rw [hleft]
      exact ⟨rfl, rfl, fun _ hpassed => hpassed, fun _ hpending => .inr hpending⟩
    have hswitches : SameSwitches s left := by
      rw [hleft]
      exact ⟨rfl, rfl, rfl, rfl, rfl⟩
    have hregistered : left.Registered → s.Registered := by
      rw [hleft]
      rintro (hentry | hbeat)
      · exact .inl hentry
      · refine .inr fun hnil => hbeat ?_
        dsimp only [OrderedSet.delete]
        rw [hnil, List.erase_nil]
    have hviews (entry : Nat) : left.stopIfIdle.viewOf entry = s.viewOf entry := by
      rw [hsame.viewOf, hleft]
      rfl
    have heq : s.unsubscribe (.beat cb) = left.stopIfIdle := by
      rw [hleft]
      rfl
    rw [heq]
    exact ⟨⟨hsame.sound hsound, switched_stopIfIdle hswitches h.switched hregistered,
      (hserves.trans (serves_stopIfIdle left)).progress h.progress⟩,
      (serves_stopIfIdle left).records.trans hserves.records,
      (serves_stopIfIdle left).task.trans hserves.task, fun _ entry _ => hviews entry⟩

end

/-! ## Publishing -/

section

variable [DecidableEq V]

/-- Publishing gives the entry the store's view, and leaves its listeners and the other entries. -/
theorem heap_publish (s : PacedViews V L) (symbol : String) (entry x : Nat) :
    (s.publish symbol entry).heap[x]? = s.heap[x]?.map fun active =>
      if entry = x then { active with view := s.getSymbolSnapshot symbol } else active := by
  unfold publish
  cases hactive : s.heap[entry]? with
  | none =>
    by_cases heq : entry = x
    · rw [← heq, hactive, Option.map_none]
    · simp only [heq, if_false, Option.map_id']
  | some active =>
    dsimp only
    split
    · rename_i hsame
      by_cases heq : entry = x
      · rw [← heq, hactive, Option.map_some, if_pos rfl, hsame]
      · simp only [heq, if_false, Option.map_id']
    · dsimp only
      rw [List.getElem?_set]
      by_cases heq : entry = x
      · have hlt := (List.getElem?_eq_some_iff.mp hactive).1
        rw [if_pos heq, if_pos hlt, ← heq, hactive, Option.map_some, if_pos rfl]
      · simp only [heq, if_false, Option.map_id']

/-- Apart from the view and the calls it leads to, publishing changes nothing. -/
theorem publish_same (s : PacedViews V L) (symbol : String) (entry : Nat) :
    SameSwitches s (s.publish symbol entry) ∧ (s.publish symbol entry).entries = s.entries ∧
      (s.publish symbol entry).beatListeners = s.beatListeners ∧
      (s.publish symbol entry).returned = s.returned := by
  unfold publish
  split
  · exact ⟨⟨rfl, rfl, rfl, rfl, rfl⟩, rfl, rfl, rfl⟩
  · dsimp only
    split
    · exact ⟨⟨rfl, rfl, rfl, rfl, rfl⟩, rfl, rfl, rfl⟩
    · exact ⟨⟨rfl, rfl, rfl, rfl, rfl⟩, rfl, rfl, rfl⟩

theorem viewOf_publish_of_ne (s : PacedViews V L) (symbol : String) {entry x : Nat}
    (h : entry ≠ x) : (s.publish symbol entry).viewOf x = s.viewOf x := by
  rw [viewOf, heap_publish, viewOf]
  simp only [h, if_false, Option.map_id']

theorem viewOf_publish {s : PacedViews V L} {symbol : String} {entry : Nat}
    (h : entry < s.heap.length) :
    (s.publish symbol entry).viewOf entry = s.getSymbolSnapshot symbol := by
  rw [viewOf, heap_publish, List.getElem?_eq_getElem h, Option.map_some, if_pos rfl,
    Option.bind_some]

theorem sound_publish {s : PacedViews V L} (hs : s.Sound) (symbol : String) (entry : Nat) :
    (s.publish symbol entry).Sound where
  listened other x hhas := by
    rw [(publish_same s symbol entry).2.1] at hhas
    obtain ⟨active, hactive, hlistened⟩ := hs.listened other x hhas
    rw [heap_publish, hactive, Option.map_some]
    refine ⟨_, rfl, ?_⟩
    split
    · exact hlistened
    · exact hlistened
  apart := by
    rw [(publish_same s symbol entry).2.1]
    exact hs.apart
  returned other x cb hmem := by
    rw [(publish_same s symbol entry).2.2.2] at hmem
    obtain ⟨hlt, howner⟩ := hs.returned other x cb hmem
    rw [(publish_same s symbol entry).2.1]
    refine ⟨?_, howner⟩
    have hpresent := heap_publish s symbol entry x
    rw [List.getElem?_eq_getElem hlt, Option.map_some] at hpresent
    exact (List.getElem?_eq_some_iff.mp hpresent).1

theorem current_publish {s : PacedViews V L} (hs : s.Sound) {symbol : String} {entry : Nat}
    (h : s.entries.Has symbol entry) : (s.publish symbol entry).Current symbol entry := by
  rw [Current, viewOf_publish (hs.lt_length h),
    getSymbolSnapshot_congr (publish_same s symbol entry).1.records]

/-- Publishing the entry of a symbol keeps other entries with the store's view. -/
theorem serves_publish {s : PacedViews V L} (hs : s.Sound) {symbol : String} {entry : Nat}
    (h : s.entries.Has symbol entry) : Serves s (s.publish symbol entry) where
  records := (publish_same s symbol entry).1.records
  task := (publish_same s symbol entry).1.task
  follows position hpassed := by
    rw [(publish_same s symbol entry).2.1]
    refine hpassed.imp fun other x hhas hcurrent => ?_
    by_cases heq : entry = x
    · subst heq
      rw [hs.apart other symbol entry hhas h]
      exact current_publish hs h
    · rw [Current, viewOf_publish_of_ne s symbol heq, hcurrent,
        getSymbolSnapshot_congr (publish_same s symbol entry).1.records]
  pending _ hpending := (publish_same s symbol entry).1.pending hpending

theorem inv_publish {s : PacedViews V L} (h : s.Inv) {symbol : String} {entry : Nat}
    (hhas : s.entries.Has symbol entry) : (s.publish symbol entry).Inv where
  sound := sound_publish h.sound symbol entry
  switched := (publish_same s symbol entry).1.switched h.switched
    (Registered.congr (publish_same s symbol entry).2.1 (publish_same s symbol entry).2.2.1)
  progress := (serves_publish h.sound hhas).progress h.progress

end

end Tckr.MarketWatch.PacedViews
