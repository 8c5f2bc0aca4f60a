import Tckr.MarketWatch.Display.Serving

/-!
# What the beat paints

Each step of the module, inside a beat, inside a discard and between them. A walk leaves
every entry it has passed, and every new one, with the view the store has, and the store
stands still as long as anything is under way: so all the views a beat paints are the
store's at one instant, and a discard leaves none.
-/

namespace Tckr.MarketWatch.PacedViews

variable {V L : Type}

/-! ## Steps -/

/-- What a step is allowed to do. -/
structure Moves (s : PacedViews V L) (a : PacedAction V L) (t : PacedViews V L) : Prop where
  /-- A view changes by a flush for its symbol, or where a beat or a discard publishes. -/
  views : ∀ symbol entry, s.entries.Has symbol entry → t.viewOf entry ≠ s.viewOf entry →
    a = .flushPacedSymbol symbol ∨ a = .proceed ∧
      ((∃ position, s.task = .beatPublishing position) ∨
        ∃ outer position, s.task = .discardPublishing outer position)
  /-- The store stands still while a beat is under way. -/
  still : s.Beating → t.records = s.records
  /-- When a beat has published, before any of its listeners is called, every view is the
  store's. -/
  published : ∀ position, s.task = .beatPublishing position → ∀ remaining,
    t.task = .beatListening remaining → remaining = t.beatListeners.elems ∧ t.calls = [] ∧
      ∀ symbol, t.getPacedSymbolSnapshot symbol = t.getSymbolSnapshot symbol
  /-- When `resetStream` returns there is no view. -/
  discarded : ∀ position, s.task = .discarding position → t.task = .idle →
    ∀ symbol, t.getPacedSymbolSnapshot symbol = none

/-- A step within a task that leaves the entries' views and the store alone. -/
theorem Moves.of_same {s t : PacedViews V L} {a : PacedAction V L}
    (hviews : ∀ symbol entry, s.entries.Has symbol entry → t.viewOf entry = s.viewOf entry)
    (hrecords : t.records = s.records) (htask : t.task = s.task) : Moves s a t where
  views symbol entry hhas hne := absurd (hviews symbol entry hhas) hne
  still _ := hrecords
  published position hposition remaining hremaining := by
    rw [htask, hposition] at hremaining
    cases hremaining
  discarded position hposition hidle := by
    rw [htask, hposition] at hidle
    cases hidle

theorem Served.moves [DecidableEq L] {s t : PacedViews V L} (h : Served s t)
    (a : PacedAction V L) : Moves s a t := Moves.of_same h.viewOf h.records h.task

/-- A step that changes neither the entries nor the switches keeps the invariant, if the task
makes progress. -/
theorem inv_of_same {s t : PacedViews V L} (h : s.Inv) (hheap : t.heap = s.heap)
    (hentries : t.entries = s.entries) (hbeat : t.beatListeners = s.beatListeners)
    (hreturned : t.returned = s.returned) (hstop : t.stopDiscardWatch = s.stopDiscardWatch)
    (hdiscard : t.streamDiscardListeners.Has .publishAll () ↔
      s.streamDiscardListeners.Has .publishAll ())
    (htimer : t.beatTimer = true → t.Registered)
    (harmed : ¬t.Beating → t.Registered → t.beatTimer = true) (hprogress : t.Progress) :
    t.Inv where
  sound := by
    constructor
    · rw [hentries, hheap]
      exact h.sound.listened
    · rw [hentries]
      exact h.sound.apart
    · rw [hentries, hheap, hreturned]
      exact h.sound.returned
  switched := by
    refine ⟨htimer, harmed, ?_, ?_⟩
    · rw [hstop, Registered.congr hentries hbeat]
      exact h.switched.watch
    · rw [hdiscard, hstop]
      exact h.switched.watched
  progress := hprogress

/-- Calls come and go within a task. -/
theorem inv_calls {s : PacedViews V L} (h : s.Inv) (calls : List (Call L)) :
    Inv { s with calls := calls } :=
  inv_of_same h rfl rfl rfl rfl rfl Iff.rfl h.switched.timer h.switched.armed h.progress

theorem progress_clearing {s : PacedViews V L} (h : s.Inv) {position : Nat}
    (htask : s.task = .clearing position) :
    s.records.Passed position fun _ view => view = none := by
  have hprogress := h.progress
  unfold Progress at hprogress
  rw [htask] at hprogress
  exact hprogress

theorem progress_discarding {s : PacedViews V L} (h : s.Inv) {position : Nat}
    (htask : s.task = .discarding position) :
    s.Cleared ∧ (s.AllCurrent ∨ s.Pending position) := by
  have hprogress := h.progress
  unfold Progress at hprogress
  rw [htask] at hprogress
  exact hprogress

theorem progress_discardPublishing {s : PacedViews V L} (h : s.Inv) {outer position : Nat}
    (htask : s.task = .discardPublishing outer position) :
    s.Cleared ∧ s.entries.Passed position s.Current := by
  have hprogress := h.progress
  unfold Progress at hprogress
  rw [htask] at hprogress
  exact hprogress

theorem progress_beatPublishing {s : PacedViews V L} (h : s.Inv) {position : Nat}
    (htask : s.task = .beatPublishing position) : s.entries.Passed position s.Current := by
  have hprogress := h.progress
  unfold Progress at hprogress
  rw [htask] at hprogress
  exact hprogress

/-- A view of the store is the view of a record. -/
theorem getSymbolSnapshot_eq_none {s : PacedViews V L}
    (h : ∀ symbol view, s.records.Has symbol view → view = none) : s.Cleared := by
  intro symbol
  unfold getSymbolSnapshot
  cases hget : s.records.get? symbol with
  | none => rfl
  | some view =>
    rw [h symbol view (LiveMap.get?_eq_some_iff.mp hget)]
    rfl

/-- What the entries hold is what is painted. -/
theorem AllCurrent.getPacedSymbolSnapshot {s : PacedViews V L} (h : s.AllCurrent)
    (symbol : String) : s.getPacedSymbolSnapshot symbol = s.getSymbolSnapshot symbol := by
  unfold PacedViews.getPacedSymbolSnapshot
  cases hget : s.entries.get? symbol with
  | none => rfl
  | some entry => exact h symbol entry (LiveMap.get?_eq_some_iff.mp hget)

section

variable [DecidableEq V]

/-- A walk over the entries publishes the next one. -/
theorem follows_publish {s : PacedViews V L} (hs : s.Sound) {position next entry : Nat}
    {symbol : String} (hpassed : s.entries.Passed position s.Current)
    (hnext : s.entries.next position = some (next, symbol, entry)) :
    (s.publish symbol entry).entries.Passed next (s.publish symbol entry).Current := by
  have hhas := LiveMap.has_of_next hnext
  have hfollows := (serves_publish hs hhas).follows position hpassed
  rw [(publish_same s symbol entry).2.1] at *
  exact hfollows.next hnext (current_publish hs hhas)

/-- The beat publishes the next entry. -/
theorem proceed_beatPublishing {s : PacedViews V L} (h : s.Inv) {position next entry : Nat}
    {symbol : String} (htask : s.task = .beatPublishing position)
    (hnext : s.entries.next position = some (next, symbol, entry)) :
    let t := publish { s with task := .beatPublishing next } symbol entry
    t.Inv ∧ Moves s .proceed t := by
  intro t
  obtain ⟨u, hu⟩ : ∃ u : PacedViews V L, u = { s with task := .beatPublishing next } := ⟨_, rfl⟩
  have ht : t = u.publish symbol entry := by rw [hu]
  have hsound : u.Sound := by
    rw [hu]
    exact ⟨h.sound.listened, h.sound.apart, h.sound.returned⟩
  have hbeating : u.Beating := by
    rw [hu]
    exact .inl ⟨next, rfl⟩
  have hswitched : u.Switched := by
    refine ⟨?_, fun hidle => absurd hbeating hidle, ?_, ?_⟩
    · rw [hu]
      exact h.switched.timer
    · rw [hu]
      exact h.switched.watch
    · rw [hu]
      exact h.switched.watched
  have hpassed : u.entries.Passed position u.Current := by
    rw [hu]
    exact progress_beatPublishing h htask
  have hfollows := follows_publish hsound hpassed (by rw [hu]; exact hnext)
  obtain ⟨hsame, hentries, hbeat, -⟩ := publish_same u symbol entry
  have htask' : t.task = .beatPublishing next := by rw [ht, hsame.task, hu]
  refine ⟨⟨ht ▸ sound_publish hsound symbol entry,
    ht ▸ hsame.switched hswitched (Registered.congr hentries hbeat), ?_⟩, ?_⟩
  · unfold Progress
    rw [htask']
    exact ht ▸ hfollows
  · refine ⟨fun _ _ _ _ => .inr ⟨rfl, .inl ⟨position, htask⟩⟩, fun _ => ?_, ?_, ?_⟩
    · rw [ht, hsame.records, hu]
    · intro _ _ remaining hremaining
      rw [htask'] at hremaining
      cases hremaining
    · intro _ hposition
      rw [htask] at hposition
      cases hposition

/-- A discard publishes the next entry. -/
theorem proceed_discardPublishing {s : PacedViews V L} (h : s.Inv) {outer position next entry : Nat}
    {symbol : String} (htask : s.task = .discardPublishing outer position)
    (hnext : s.entries.next position = some (next, symbol, entry)) :
    let t := publish { s with task := .discardPublishing outer next } symbol entry
    t.Inv ∧ Moves s .proceed t := by
  intro t
  obtain ⟨u, hu⟩ : ∃ u : PacedViews V L, u = { s with task := .discardPublishing outer next } :=
    ⟨_, rfl⟩
  have ht : t = u.publish symbol entry := by rw [hu]
  have hsound : u.Sound := by
    rw [hu]
    exact ⟨h.sound.listened, h.sound.apart, h.sound.returned⟩
  have hidle : ¬s.Beating := by
    rintro (⟨_, hbeat⟩ | ⟨_, hbeat⟩)
    · rw [htask] at hbeat
      cases hbeat
    · rw [htask] at hbeat
      cases hbeat
  have hswitched : u.Switched := by
    rw [hu]
    exact ⟨h.switched.timer, fun _ => h.switched.armed hidle, h.switched.watch, h.switched.watched⟩
  have hprogress := progress_discardPublishing h htask
  have hpassed : u.entries.Passed position u.Current := by
    rw [hu]
    exact hprogress.2
  have hfollows := follows_publish hsound hpassed (by rw [hu]; exact hnext)
  obtain ⟨hsame, hentries, hbeat, -⟩ := publish_same u symbol entry
  have htask' : t.task = .discardPublishing outer next := by rw [ht, hsame.task, hu]
  have hrecords : t.records = s.records := by rw [ht, hsame.records, hu]
  refine ⟨⟨ht ▸ sound_publish hsound symbol entry,
    ht ▸ hsame.switched hswitched (Registered.congr hentries hbeat), ?_⟩, ?_⟩
  · unfold Progress
    rw [htask']
    exact ⟨fun other => (getSymbolSnapshot_congr hrecords other).trans (hprogress.1 other),
      ht ▸ hfollows⟩
  · refine ⟨fun _ _ _ _ => .inr ⟨rfl, .inr ⟨outer, position, htask⟩⟩, fun _ => hrecords, ?_, ?_⟩
    · intro _ hposition
      rw [htask] at hposition
      cases hposition
    · intro _ hposition
      rw [htask] at hposition
      cases hposition

end

/-- The publication of the beat is over. -/
theorem proceed_published {s : PacedViews V L} (h : s.Inv) {position : Nat}
    (htask : s.task = .beatPublishing position) (hcalls : s.calls = [])
    (hnext : s.entries.next position = none) :
    let t := { s with task := .beatListening s.beatListeners.elems }
    t.Inv ∧ Moves s .proceed t := by
  intro t
  have hcurrent : t.AllCurrent := fun symbol entry hhas =>
    LiveMap.Passed.forall (progress_beatPublishing h htask) hnext hhas
  have hbeating : t.Beating := .inr ⟨_, rfl⟩
  refine ⟨inv_of_same h rfl rfl rfl rfl rfl Iff.rfl h.switched.timer
    (fun hidle => absurd hbeating hidle) trivial, ?_⟩
  refine ⟨fun _ _ _ hne => absurd rfl hne, fun _ => rfl, fun _ _ remaining hremaining => ?_, ?_⟩
  · exact ⟨(Task.beatListening.inj hremaining).symm, hcalls, hcurrent.getPacedSymbolSnapshot⟩
  · intro _ hposition
    rw [htask] at hposition
    cases hposition

/-- A step to another part of the task, with the entries and the switches as they are. -/
theorem proceed_task {s : PacedViews V L} (h : s.Inv) (task : Task L) (calls : List (Call L))
    (hbeating : Beating { s with task := task, calls := calls } ↔ s.Beating)
    (hprogress : Progress { s with task := task, calls := calls }) :
    Inv { s with task := task, calls := calls } :=
  inv_of_same h rfl rfl rfl rfl rfl Iff.rfl h.switched.timer
    (fun hidle => h.switched.armed (hidle ∘ hbeating.mpr)) hprogress

/-- A step that publishes nothing and ends nothing. -/
theorem Moves.of_quiet {s t : PacedViews V L} {a : PacedAction V L} (hheap : t.heap = s.heap)
    (hstill : s.Beating → t.records = s.records)
    (hpublishing : ∀ position, s.task = .beatPublishing position → False)
    (hdiscarding : ∀ position, s.task = .discarding position → t.task ≠ .idle) : Moves s a t where
  views symbol entry _ hne := by
    rw [viewOf, hheap] at hne
    exact absurd rfl hne
  still := hstill
  published position hposition := (hpublishing position hposition).elim
  discarded position hposition hidle := absurd hidle (hdiscarding position hposition)

/-- The beat calls its next listener. -/
theorem proceed_beatListening {s : PacedViews V L} (h : s.Inv) {cb : L} {remaining : List L}
    (htask : s.task = .beatListening (cb :: remaining)) :
    let t := { s with task := .beatListening remaining, calls := [.listener cb] }
    t.Inv ∧ Moves s .proceed t := by
  intro t
  refine ⟨proceed_task h _ _ ⟨fun _ => .inr ⟨_, htask⟩, fun _ => .inr ⟨_, rfl⟩⟩ trivial,
    Moves.of_quiet rfl (fun _ => rfl) (fun _ hposition => ?_) fun _ hposition => ?_⟩
  · rw [htask] at hposition
    cases hposition
  · rw [htask] at hposition
    cases hposition

/-- The beat is over and the timer is set again. -/
theorem proceed_beatEnds {s : PacedViews V L} (h : s.Inv) (htask : s.task = .beatListening []) :
    let t := schedule { s with task := .idle }
    t.Inv ∧ Moves s .proceed t := by
  intro t
  have hsame : SameEntries { s with task := .idle } t := sameEntries_schedule _
  have htimer : t.beatTimer = true ↔ t.Registered := by
    rw [hsame.registered]
    exact schedule_beatTimer h.switched.timer
  have hprogress : t.Progress := by
    unfold Progress
    rw [hsame.task]
    trivial
  refine ⟨inv_of_same h hsame.heap hsame.entries hsame.beatListeners hsame.returned
    (schedule_stopDiscardWatch _) (by rw [schedule_streamDiscardListeners]) htimer.mp
    (fun _ => htimer.mpr) hprogress,
    Moves.of_quiet hsame.heap (fun _ => hsame.records) (fun _ hposition => ?_)
      fun _ hposition => ?_⟩
  · rw [htask] at hposition
    cases hposition
  · rw [htask] at hposition
    cases hposition

/-- `resetStream` clears the next record. -/
theorem proceed_clearing {s : PacedViews V L} (h : s.Inv) {position next : Nat} {symbol : String}
    {view : V} (htask : s.task = .clearing position)
    (hnext : s.records.next position = some (next, symbol, some view)) :
    let t := { s with
      records := s.records.set symbol none
      task := .clearing next
      calls := [.notify symbol] }
    t.Inv ∧ Moves s .proceed t := by
  intro t
  have hidle : ¬s.Beating := by
    rintro (⟨_, hbeat⟩ | ⟨_, hbeat⟩)
    · rw [htask] at hbeat
      cases hbeat
    · rw [htask] at hbeat
      cases hbeat
  have hpassed := progress_clearing h htask
  have hprogress : t.Progress := by
    have hbut : s.records.Passed next fun other view => other = symbol ∨ view = none :=
      LiveMap.Passed.next (hpassed.imp fun _ _ _ hnone => .inr hnone) hnext (.inl rfl)
    exact hbut.set_of_or (LiveMap.has_of_next hnext) rfl
  refine ⟨inv_of_same h rfl rfl rfl rfl rfl Iff.rfl h.switched.timer
    (fun _ => h.switched.armed hidle) hprogress,
    Moves.of_quiet rfl (fun hbeat => absurd hbeat hidle)
      (fun _ hposition => ?_) fun _ hposition => ?_⟩
  · rw [htask] at hposition
    cases hposition
  · rw [htask] at hposition
    cases hposition

/-- A step of `resetStream` that changes neither the store nor an entry. -/
theorem proceed_reset {s : PacedViews V L} (h : s.Inv) (task : Task L) (calls : List (Call L))
    (hreset : (∃ position, s.task = .clearing position) ∨
      (∃ position, s.task = .discarding position) ∨
      ∃ outer position, s.task = .discardPublishing outer position)
    (hprogress : Progress { s with task := task, calls := calls })
    (hends : ∀ position, s.task = .discarding position → task = .idle →
      ∀ symbol, s.getPacedSymbolSnapshot symbol = none) :
    let t := { s with task := task, calls := calls }
    t.Inv ∧ Moves s .proceed t := by
  intro t
  have hidle : ¬s.Beating := by
    rintro (⟨_, hbeat⟩ | ⟨_, hbeat⟩)
    all_goals
      rw [hbeat] at hreset
      obtain ⟨_, hreset⟩ | ⟨_, hreset⟩ | ⟨_, _, hreset⟩ := hreset
      all_goals cases hreset
  refine ⟨inv_of_same h rfl rfl rfl rfl rfl Iff.rfl h.switched.timer
    (fun _ => h.switched.armed hidle) hprogress, ?_⟩
  refine ⟨fun _ _ _ hne => absurd rfl hne, fun _ => rfl, fun position hposition => ?_, hends⟩
  exact absurd (.inl ⟨position, hposition⟩) hidle

/-- With the records cleared, `publishAll` is still to be called or there is nothing to paint. -/
theorem progress_cleared {s : PacedViews V L} (h : s.Inv) {position : Nat}
    (htask : s.task = .clearing position) (hnext : s.records.next position = none) :
    s.Cleared ∧ (s.AllCurrent ∨ s.Pending 0) := by
  have hcleared : s.Cleared := getSymbolSnapshot_eq_none fun symbol view hhas =>
    LiveMap.Passed.forall (P := fun _ view => view = none) (progress_clearing h htask) hnext hhas
  refine ⟨hcleared, ?_⟩
  by_cases hregistered : s.Registered
  · obtain ⟨place, hat⟩ := h.switched.watched.mpr (h.switched.watch.mpr hregistered)
    exact .inr ⟨place, Nat.zero_le place, hat⟩
  · exact .inl fun symbol entry hhas => absurd (.inl ⟨symbol, entry, hhas⟩) hregistered

/-- A discard listener other than `publishAll` leaves it pending. -/
theorem pending_next {s : PacedViews V L} {position next : Nat} {cb : L} {held : Unit}
    (hnext : s.streamDiscardListeners.next position = some (next, .other cb, held))
    (h : s.AllCurrent ∨ s.Pending position) : s.AllCurrent ∨ s.Pending next := by
  rcases h with hcurrent | ⟨place, hle, hat⟩
  · exact .inl hcurrent
  · rcases LiveMap.eq_or_le_of_next hnext hle hat with heq | hlater
    · cases heq
    · exact .inr ⟨place, hlater, hat⟩

/-- When all the discard listeners have been called every entry is current. -/
theorem allCurrent_of_next {s : PacedViews V L} {position : Nat}
    (hnext : s.streamDiscardListeners.next position = none)
    (h : s.AllCurrent ∨ s.Pending position) : s.AllCurrent := by
  rcases h with hcurrent | ⟨place, hle, hat⟩
  · exact hcurrent
  · exact absurd (LiveMap.lt_of_next_eq_none hnext hat) (Nat.not_lt.mpr hle)

section

variable [DecidableEq V]

/-- Steps outside of scripts keep the invariant. -/
theorem proceed_moves {s t : PacedViews V L} (h : s.Inv) (hstep : s.proceed = some t) :
    t.Inv ∧ Moves s .proceed t := by
  have hwithin (calls : List (Call L)) : Inv { s with calls := calls } ∧
      Moves s .proceed { s with calls := calls } :=
    ⟨inv_calls h calls, Moves.of_same (fun _ _ _ => rfl) rfl rfl⟩
  unfold proceed at hstep
  split at hstep
  · cases hstep
  · cases hstep
  · cases hstep
    exact hwithin _
  · cases hstep
    exact hwithin _
  · cases hstep
  · rename_i position hcalls htask
    split at hstep
    · rename_i hnext
      cases hstep
      exact proceed_beatPublishing h htask hnext
    · rename_i hnext
      cases hstep
      exact proceed_published h htask hcalls hnext
  · rename_i htask
    cases hstep
    exact proceed_beatListening h htask
  · rename_i htask
    cases hstep
    exact proceed_beatEnds h htask
  · rename_i position hcalls htask
    have hreset : ∃ position, s.task = .clearing position := ⟨position, htask⟩
    have hends (place : Nat) (hplace : s.task = .discarding place) : False := by
      rw [htask] at hplace
      cases hplace
    split at hstep
    · rename_i hnext
      cases hstep
      exact proceed_clearing h htask hnext
    · rename_i hnext
      cases hstep
      exact proceed_reset h _ s.calls (.inl hreset)
        (LiveMap.Passed.next (progress_clearing h htask) hnext rfl)
        fun place hplace => (hends place hplace).elim
    · rename_i hnext
      have hprogress := progress_cleared h htask hnext
      cases hstep
      exact proceed_reset h _ s.calls (.inl hreset) hprogress
        fun place hplace => (hends place hplace).elim
  · rename_i position hcalls htask
    have hreset : ∃ position, s.task = .discarding position := ⟨position, htask⟩
    obtain ⟨hcleared, hpending⟩ := progress_discarding h htask
    split at hstep
    · cases hstep
      exact proceed_reset h _ s.calls (.inr (.inl hreset)) ⟨hcleared, LiveMap.passed_zero⟩
        fun _ _ hidle => by cases hidle
    · rename_i hnext
      cases hstep
      exact proceed_reset h _ _ (.inr (.inl hreset)) ⟨hcleared, pending_next hnext hpending⟩
        fun _ _ hidle => by cases hidle
    · rename_i hnext
      cases hstep
      refine proceed_reset h _ s.calls (.inr (.inl hreset)) trivial fun _ _ _ symbol => ?_
      rw [(allCurrent_of_next hnext hpending).getPacedSymbolSnapshot, hcleared]
  · rename_i outer position hcalls htask
    obtain ⟨hcleared, hpassed⟩ := progress_discardPublishing h htask
    split at hstep
    · rename_i hnext
      cases hstep
      exact proceed_discardPublishing h htask hnext
    · rename_i hnext
      cases hstep
      have hcurrent : s.AllCurrent := fun symbol entry hhas =>
        LiveMap.Passed.forall hpassed hnext hhas
      exact proceed_reset h _ s.calls (.inr (.inr ⟨outer, position, htask⟩))
        ⟨hcleared, .inl hcurrent⟩ fun _ _ hidle => by cases hidle

end

/-! ## Calls of scripts -/

theorem task_of_atRest {s : PacedViews V L} (h : s.atRest = true) : s.task = .idle := by
  unfold atRest at h
  split at h
  · assumption
  · cases h

/-- From rest the event loop turns to the store or to a task. -/
theorem atRest_moves {s t : PacedViews V L} {a : PacedAction V L} (h : s.Inv)
    (hrest : s.atRest = true) (hheap : t.heap = s.heap) (hentries : t.entries = s.entries)
    (hbeat : t.beatListeners = s.beatListeners) (hreturned : t.returned = s.returned)
    (hstop : t.stopDiscardWatch = s.stopDiscardWatch)
    (hdiscard : t.streamDiscardListeners = s.streamDiscardListeners)
    (htimer : t.beatTimer = s.beatTimer ∨ t.beatTimer = false ∧ t.Beating)
    (hprogress : t.Progress) : t.Inv ∧ Moves s a t := by
  have hregistered : t.Registered ↔ s.Registered := Registered.congr hentries hbeat
  have hidle : ¬s.Beating := by
    rintro (⟨_, hbeat⟩ | ⟨_, hbeat⟩)
    all_goals
      rw [task_of_atRest hrest] at hbeat
      cases hbeat
  refine ⟨inv_of_same h hheap hentries hbeat hreturned hstop (by rw [hdiscard]) (fun hset => ?_)
    (fun hunbeaten hheard => ?_) hprogress, Moves.of_quiet hheap (fun hbeat => absurd hbeat hidle)
    (fun _ hposition => ?_) fun _ hposition => ?_⟩
  · rcases htimer with hsame | ⟨hunset, -⟩
    · exact hregistered.mpr (h.switched.timer (hsame ▸ hset))
    · rw [hunset] at hset
      cases hset
  · rcases htimer with hsame | ⟨-, hbeating⟩
    · rw [hsame]
      exact h.switched.armed hidle (hregistered.mp hheard)
    · exact absurd hbeating hunbeaten
  · rw [task_of_atRest hrest] at hposition
    cases hposition
  · rw [task_of_atRest hrest] at hposition
    cases hposition

/-- Listeners of discards other than `publishAll` come and go. -/
theorem discardListeners_served {s : PacedViews V L} (h : s.Inv)
    {listeners : LiveMap (DiscardListener L) Unit}
    (hplaces : ∀ place, listeners.At place .publishAll () ↔
      s.streamDiscardListeners.At place .publishAll ()) :
    Served s { s with streamDiscardListeners := listeners } where
  inv := by
    refine inv_of_same h rfl rfl rfl rfl rfl ?_ h.switched.timer h.switched.armed ?_
    · exact exists_congr hplaces
    · have hserves : Serves s { s with streamDiscardListeners := listeners } := by
        refine ⟨rfl, rfl, fun _ hpassed => hpassed, fun position hpending => .inr ?_⟩
        obtain ⟨place, hle, hat⟩ := hpending
        exact ⟨place, hle, (hplaces place).mpr hat⟩
      exact hserves.progress h.progress
  records := rfl
  task := rfl
  viewOf _ _ _ := rfl

section

variable [DecidableEq V]

/-- A flush publishes the entry of its symbol. -/
theorem flushPacedSymbol_moves {s : PacedViews V L} (h : s.Inv) (symbol : String) :
    (s.flushPacedSymbol symbol).Inv ∧
      Moves s (.flushPacedSymbol symbol) (s.flushPacedSymbol symbol) := by
  unfold flushPacedSymbol
  cases hget : s.entries.get? symbol with
  | none => exact ⟨h, Moves.of_same (fun _ _ _ => rfl) rfl rfl⟩
  | some entry =>
    have hhas := LiveMap.get?_eq_some_iff.mp hget
    have hsame := (publish_same s symbol entry).1
    refine ⟨inv_publish h hhas, fun other x hother hne => ?_, fun _ => hsame.records, ?_, ?_⟩
    · by_cases heq : entry = x
      · subst heq
        rw [h.sound.apart other symbol entry hother hhas]
        exact .inl rfl
      · exact absurd (viewOf_publish_of_ne s symbol heq) hne
    · intro _ hposition _ hremaining
      rw [hsame.task, hposition] at hremaining
      cases hremaining
    · intro _ hposition hidle
      rw [hsame.task, hposition] at hidle
      cases hidle

end

section

variable [DecidableEq V] [DecidableEq L]

/-- The place of `publishAll` does not depend on the listeners that come. -/
theorem at_set_other {listeners : LiveMap (DiscardListener L) Unit} {place : Nat} {cb : L} :
    (listeners.set (.other cb) ()).At place .publishAll () ↔ listeners.At place .publishAll () := by
  constructor
  · intro hat
    cases hget : listeners.get? (.other cb) with
    | none =>
      rcases (LiveMap.at_set_of_absent hget).mp hat with hat | ⟨-, heq, -⟩
      · exact hat
      · cases heq
    | some held =>
      rw [LiveMap.set_of_has (LiveMap.get?_eq_some_iff.mp hget), LiveMap.at_overwrite] at hat
      rcases hat with ⟨heq, -⟩ | ⟨-, hat⟩
      · cases heq
      · exact hat
  · exact fun hat => (hat.set (.other cb) ()).choose_spec

/-- Every step keeps the invariant. -/
theorem step_moves {s t : PacedViews V L} {a : PacedAction V L} (h : s.Inv)
    (hstep : (pacedViews V L).step s a = some t) : t.Inv ∧ Moves s a t := by
  have hserved {u : PacedViews V L} (hu : Served s u) (heq : u = t) : t.Inv ∧ Moves s a t :=
    heq ▸ ⟨hu.inv, hu.moves a⟩
  have hwithin (calls : List (Call L)) : Inv { s with calls := calls } ∧
      Moves s a { s with calls := calls } :=
    ⟨inv_calls h calls, Moves.of_same (fun _ _ _ => rfl) rfl rfl⟩
  cases a with
  | subscribePacedSymbol symbol cb =>
    simp only [pacedViews, Option.ite_none_right_eq_some, Option.some.injEq] at hstep
    exact hserved (subscribePacedSymbol_served h symbol cb) hstep.2
  | subscribeBeat cb =>
    simp only [pacedViews, Option.ite_none_right_eq_some, Option.some.injEq] at hstep
    exact hserved (subscribeBeat_served h cb) hstep.2
  | unsubscribe index =>
    simp only [pacedViews, Option.ite_none_right_eq_some, Option.map_eq_some_iff] at hstep
    obtain ⟨-, f, hf, heq⟩ := hstep
    exact hserved (unsubscribe_served h (List.mem_of_getElem? hf)) heq
  | flushPacedSymbol symbol =>
    simp only [pacedViews, Option.ite_none_right_eq_some, Option.some.injEq] at hstep
    exact hstep.2 ▸ flushPacedSymbol_moves h symbol
  | onStreamDiscard cb =>
    simp only [pacedViews, Option.ite_none_right_eq_some, Option.some.injEq] at hstep
    exact hserved (discardListeners_served h fun _ => at_set_other) hstep.2
  | offStreamDiscard cb =>
    simp only [pacedViews, Option.ite_none_right_eq_some, Option.some.injEq] at hstep
    refine hserved (discardListeners_served h fun place => ?_) hstep.2
    simp only [LiveMap.at_delete, ne_eq, reduceCtorEq, not_false_eq_true, true_and]
  | write symbol view =>
    simp only [pacedViews, Option.ite_none_right_eq_some, Option.some.injEq] at hstep
    obtain ⟨hrest, rfl⟩ := hstep
    refine atRest_moves h hrest rfl rfl rfl rfl rfl rfl (.inl rfl) ?_
    unfold Progress
    dsimp only
    rw [task_of_atRest hrest]
    trivial
  | resetStream =>
    simp only [pacedViews, Option.ite_none_right_eq_some, Option.some.injEq] at hstep
    obtain ⟨hrest, rfl⟩ := hstep
    exact atRest_moves h hrest rfl rfl rfl rfl rfl rfl (.inl rfl) LiveMap.passed_zero
  | beat =>
    simp only [pacedViews, Option.ite_none_right_eq_some, Option.some.injEq] at hstep
    obtain ⟨hrest, rfl⟩ := hstep
    exact atRest_moves h hrest rfl rfl rfl rfl rfl rfl (.inr ⟨rfl, .inl ⟨0, rfl⟩⟩)
      LiveMap.passed_zero
  | ends =>
    simp only [pacedViews] at hstep
    split at hstep
    · cases hstep
      exact hwithin _
    · cases hstep
      exact hwithin _
    · cases hstep
  | proceed => exact proceed_moves h hstep

/-! ## Runs -/

theorem inv_init : (pacedViews V L).init.Inv where
  sound := by
    refine ⟨fun symbol entry hhas => ?_, fun symbol other entry hhas => ?_, fun _ _ _ hmem => ?_⟩
    · exact absurd hhas (LiveMap.isEmpty_iff.mp rfl symbol entry)
    · exact absurd hhas (LiveMap.isEmpty_iff.mp rfl symbol entry)
    · cases hmem
  switched := by
    have hnone : ¬(pacedViews V L).init.Registered := by
      rintro (⟨symbol, entry, hhas⟩ | hbeat)
      · exact LiveMap.isEmpty_iff.mp rfl symbol entry hhas
      · exact hbeat rfl
    have hunset {P : Prop} (hset : false = true) : P := absurd hset Bool.false_ne_true
    refine ⟨hunset, fun _ hheard => absurd hheard hnone,
      ⟨hunset, fun hheard => absurd hheard hnone⟩, ⟨fun hhas => ?_, hunset⟩⟩
    exact absurd hhas (LiveMap.isEmpty_iff.mp rfl DiscardListener.publishAll ())
  progress := trivial

theorem inv_run {as : List (PacedAction V L)} {s : PacedViews V L}
    (h : (pacedViews V L).run as = some s) : s.Inv :=
  (pacedViews V L).run_invariant inv_init (fun _ _ _ hs hstep => (step_moves hs hstep).1) h

/-- What is kept between any two steps. -/
structure Paced (s : PacedViews V L) : Prop where
  /-- Unless a beat is under way, the timer is set exactly while somebody listens. -/
  armed : ¬s.Beating → (s.beatTimer = true ↔ s.Registered)
  /-- Every entry is listened to. -/
  listened : ∀ symbol entry, s.entries.Has symbol entry →
    ∃ active, s.heap[entry]? = some active ∧ active.listeners.elems ≠ []

/-- Everything on screen moves on one beat, whatever the listeners do. -/
theorem one_beat {as : List (PacedAction V L)} {s : PacedViews V L}
    (h : (pacedViews V L).run as = some s) :
    Paced s ∧ ∀ a t, (pacedViews V L).step s a = some t → Moves s a t := by
  have hinv := inv_run h
  exact ⟨⟨fun hidle => ⟨hinv.switched.timer, hinv.switched.armed hidle⟩, hinv.sound.listened⟩,
    fun a t hstep => (step_moves hinv hstep).2⟩

end

/-- A listener ends its own subscription while the beat publishes. -/
theorem one_beat_ended : ∃ s, (pacedViews Nat Nat).run [.subscribePacedSymbol "COMI" 1,
    .subscribeBeat 2, .write "COMI" 7, .beat, .proceed, .proceed, .unsubscribe 0, .ends, .proceed] =
      some s ∧ Paced s ∧ ∀ a t, (pacedViews Nat Nat).step s a = some t → Moves s a t := by
  obtain ⟨s, hs⟩ := Option.isSome_iff_exists.mp (by decide +kernel :
    ((pacedViews Nat Nat).run [.subscribePacedSymbol "COMI" 1, .subscribeBeat 2,
      .write "COMI" 7, .beat, .proceed, .proceed, .unsubscribe 0, .ends, .proceed]).isSome = true)
  exact ⟨s, hs, one_beat hs⟩

end Tckr.MarketWatch.PacedViews
