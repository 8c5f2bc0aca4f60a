import Tckr.MarketWatch.Display.OneBeat

/-!
# Between beats

What a step does to the store, to the task and to the entries, said once; and from it that
a row goes on painting what it painted until a beat, a discard, a flush for its symbol or
the end of its subscription.
-/

namespace Tckr.MarketWatch

variable {V L : Type}

/-- A beat walks over the entries. -/
def Task.isPublishing : Task L → Bool
  | .beatPublishing _ => true
  | _ => false

/-- A beat calls its listeners. -/
def Task.isListening : Task L → Bool
  | .beatListening _ => true
  | _ => false

theorem Task.isPublishing_iff {task : Task L} :
    task.isPublishing = true ↔ ∃ position, task = .beatPublishing position := by
  cases task <;> simp [isPublishing]

theorem Task.isListening_iff {task : Task L} :
    task.isListening = true ↔ ∃ remaining, task = .beatListening remaining := by
  cases task <;> simp [isListening]

namespace PacedViews

/-- The walk of `resetStream` over the records is under way. -/
def Clearing (s : PacedViews V L) : Prop := ∃ position, s.task = .clearing position

/-- Nothing publishes. -/
def Quiet (s : PacedViews V L) : Prop :=
  s.task = .idle ∨ ∃ remaining, s.task = .beatListening remaining

theorem atRest_eq_false_of_clearing {s : PacedViews V L} (h : s.Clearing) :
    s.atRest = false := by
  obtain ⟨position, htask⟩ := h
  unfold atRest
  rw [htask]
  split
  · rename_i hidle
    cases hidle
  · rfl

section

variable [DecidableEq L]

/-- A function that ends a subscription leaves the entries of other symbols alone. -/
theorem has_unsubscribe {s : PacedViews V L} {symbol : String} {entry : Nat}
    (hhas : s.entries.Has symbol entry) {f : Unsubscribe L}
    (hf : ∀ active cb, f ≠ .symbol symbol active cb) :
    (s.unsubscribe f).entries.Has symbol entry := by
  cases f with
  | beat cb =>
    rw [unsubscribe, (sameEntries_stopIfIdle _).entries]
    exact hhas
  | symbol other active cb =>
    have hne : symbol ≠ other := fun heq => hf active cb (by rw [heq])
    rw [unsubscribe, (sameEntries_stopIfIdle _).entries, dropSilent]
    split
    · exact LiveMap.has_delete.mpr ⟨hne, hhas⟩
    · exact hhas

theorem has_subscribePacedSymbol {s : PacedViews V L} {symbol : String} {entry : Nat}
    (hhas : s.entries.Has symbol entry) (other : String) (cb : L) :
    (s.subscribePacedSymbol other cb).entries.Has symbol entry := by
  have hsame := (sameEntries_start (s.enrol other cb)).entries
  have hstarted : (s.enrol other cb).start.entries.Has symbol entry :=
    hsame.symm ▸ has_enrol.mpr (.inl hhas)
  exact hstarted

end

/-- What the event loop does by itself to the entries, the store and the task. -/
structure Proceeds (s t : PacedViews V L) : Prop where
  entries : t.entries = s.entries
  /-- Only the walk that clears the views writes the store. -/
  records : ¬s.Clearing → t.records = s.records
  /-- Where nothing publishes, nothing will until a beat or a discard. -/
  quiet : s.Quiet → t.Quiet

/-- A step of a task that publishes or walks over a reset. -/
theorem Proceeds.of_busy {s t : PacedViews V L} (hentries : t.entries = s.entries)
    (hrecords : ¬s.Clearing → t.records = s.records) (hidle : s.task ≠ .idle)
    (hlistening : ∀ remaining, s.task ≠ .beatListening remaining) : Proceeds s t where
  entries := hentries
  records := hrecords
  quiet hquiet := by
    rcases hquiet with htask | ⟨remaining, htask⟩
    · exact absurd htask hidle
    · exact absurd htask (hlistening remaining)

section

variable [DecidableEq V]

theorem proceed_proceeds {s t : PacedViews V L} (h : s.proceed = some t) : Proceeds s t := by
  unfold proceed at h
  split at h
  · cases h
  · cases h
  · cases h
    exact ⟨rfl, fun _ => rfl, id⟩
  · cases h
    exact ⟨rfl, fun _ => rfl, id⟩
  · cases h
  · rename_i htask
    split at h
    · cases h
      exact .of_busy (publish_same _ _ _).2.1 (fun _ => (publish_same _ _ _).1.records)
        (by simp [htask]) (by simp [htask])
    · cases h
      exact ⟨rfl, fun _ => rfl, fun _ => .inr ⟨_, rfl⟩⟩
  · cases h
    exact ⟨rfl, fun _ => rfl, fun _ => .inr ⟨_, rfl⟩⟩
  · cases h
    have hsame := sameEntries_schedule { s with task := .idle }
    exact ⟨hsame.entries, fun _ => hsame.records, fun _ => .inl hsame.task⟩
  · rename_i position _ htask
    have hclear : s.Clearing := ⟨position, htask⟩
    split at h
    all_goals
      cases h
      exact .of_busy rfl (fun hnot => absurd hclear hnot) (by simp [htask]) (by simp [htask])
  · rename_i htask
    split at h
    all_goals
      cases h
      exact .of_busy rfl (fun _ => rfl) (by simp [htask]) (by simp [htask])
  · rename_i htask
    split at h
    · cases h
      exact .of_busy (publish_same _ _ _).2.1 (fun _ => (publish_same _ _ _).1.records)
        (by simp [htask]) (by simp [htask])
    · cases h
      exact .of_busy rfl (fun _ => rfl) (by simp [htask]) (by simp [htask])

/-- The walk that clears the views goes on, or has cleared them all. -/
theorem clearing_proceed {s t : PacedViews V L} (hinv : s.Inv) (hclear : s.Clearing)
    (h : s.proceed = some t) : t.Clearing ∨ t.Cleared := by
  obtain ⟨position, htask⟩ := hclear
  unfold proceed at h
  simp only [htask] at h
  split at h
  · cases h
  · cases h
  · cases h
    exact .inl ⟨position, rfl⟩
  · cases h
    exact .inl ⟨position, rfl⟩
  · rename_i hidle
    cases hidle
  all_goals
    rename_i hsame
    cases hsame
  split at h
  · cases h
    exact .inl ⟨_, rfl⟩
  · cases h
    exact .inl ⟨_, rfl⟩
  · rename_i hnext
    cases h
    refine .inr (getSymbolSnapshot_eq_none fun symbol view hhas => ?_)
    exact LiveMap.Passed.forall (P := fun _ view => view = none) (progress_clearing hinv htask)
      hnext hhas

/-- The walk that clears the views is begun by `resetStream` alone. -/
theorem clearing_of_proceed {s t : PacedViews V L} (h : s.proceed = some t)
    (hclear : t.Clearing) : s.Clearing := by
  obtain ⟨position, htask⟩ := hclear
  unfold proceed at h
  split at h
  · cases h
  · cases h
  · cases h
    exact ⟨position, htask⟩
  · cases h
    exact ⟨position, htask⟩
  · cases h
  · split at h
    · cases h
      rw [(publish_same _ _ _).1.task] at htask
      cases htask
    · cases h
      cases htask
  · cases h
    cases htask
  · cases h
    rw [(sameEntries_schedule _).task] at htask
    cases htask
  · rename_i hbefore
    exact ⟨_, hbefore⟩
  · split at h
    all_goals
      cases h
      cases htask
  · split at h
    · cases h
      rw [(publish_same _ _ _).1.task] at htask
      cases htask
    · cases h
      cases htask

variable [DecidableEq L]

/-- The action does not end a subscription of the symbol. -/
def KeepsListening (symbol : String) (s : PacedViews V L) (a : PacedAction V L) : Prop :=
  ∀ index, a = .unsubscribe index → ∀ active cb,
    s.returned[index]? ≠ some (.symbol symbol active cb)

/-- What a step does to the store, the task and the entries. -/
inductive Steps (s : PacedViews V L) : PacedAction V L → PacedViews V L → Prop
  /-- A script calls into the module, or returns. -/
  | script {a : PacedAction V L} {t : PacedViews V L} (hrecords : t.records = s.records)
      (htask : t.task = s.task)
      (hentries : ∀ symbol entry, KeepsListening symbol s a → s.entries.Has symbol entry →
        t.entries.Has symbol entry) : Steps s a t
  | write {symbol : String} {view : V} (hrest : s.atRest = true) :
      Steps s (.write symbol view) { s with records := s.records.set symbol (some view) }
  | resetStream (hrest : s.atRest = true) : Steps s .resetStream { s with task := .clearing 0 }
  | beat (hrest : s.atRest = true) :
      Steps s .beat { s with beatTimer := false, task := .beatPublishing 0 }
  | proceed {t : PacedViews V L} (hstep : s.proceed = some t) : Steps s .proceed t

theorem step_steps {s t : PacedViews V L} {a : PacedAction V L} (hinv : s.Inv)
    (h : (pacedViews V L).step s a = some t) : Steps s a t := by
  cases a with
  | subscribePacedSymbol symbol cb =>
    simp only [pacedViews, Option.ite_none_right_eq_some, Option.some.injEq] at h
    obtain ⟨-, rfl⟩ := h
    have hserved := subscribePacedSymbol_served hinv symbol cb
    exact .script hserved.records hserved.task fun _ _ _ hhas =>
      has_subscribePacedSymbol hhas symbol cb
  | subscribeBeat cb =>
    simp only [pacedViews, Option.ite_none_right_eq_some, Option.some.injEq] at h
    obtain ⟨-, rfl⟩ := h
    have hserved := subscribeBeat_served hinv cb
    refine .script hserved.records hserved.task fun symbol entry _ hhas => ?_
    have hsame := (sameEntries_start { s with beatListeners := s.beatListeners.add cb }).entries
    exact (hsame.symm ▸ hhas : LiveMap.Has _ symbol entry)
  | unsubscribe index =>
    simp only [pacedViews, Option.ite_none_right_eq_some, Option.map_eq_some_iff] at h
    obtain ⟨-, f, hf, rfl⟩ := h
    have hserved := unsubscribe_served hinv (List.mem_of_getElem? hf)
    refine .script hserved.records hserved.task fun symbol entry hkeeps hhas => ?_
    refine has_unsubscribe hhas fun active cb heq => hkeeps index rfl active cb ?_
    rw [hf, heq]
  | flushPacedSymbol symbol =>
    simp only [pacedViews, Option.ite_none_right_eq_some, Option.some.injEq] at h
    obtain ⟨-, rfl⟩ := h
    unfold flushPacedSymbol
    split
    · have hsame := publish_same s symbol
      exact .script (hsame _).1.records (hsame _).1.task fun _ _ _ hhas =>
        (hsame _).2.1.symm ▸ hhas
    · exact .script rfl rfl fun _ _ _ hhas => hhas
  | onStreamDiscard cb | offStreamDiscard cb =>
    simp only [pacedViews, Option.ite_none_right_eq_some, Option.some.injEq] at h
    obtain ⟨-, rfl⟩ := h
    exact .script rfl rfl fun _ _ _ hhas => hhas
  | write symbol view =>
    simp only [pacedViews, Option.ite_none_right_eq_some, Option.some.injEq] at h
    obtain ⟨hrest, rfl⟩ := h
    exact .write hrest
  | resetStream =>
    simp only [pacedViews, Option.ite_none_right_eq_some, Option.some.injEq] at h
    obtain ⟨hrest, rfl⟩ := h
    exact .resetStream hrest
  | beat =>
    simp only [pacedViews, Option.ite_none_right_eq_some, Option.some.injEq] at h
    obtain ⟨hrest, rfl⟩ := h
    exact .beat hrest
  | ends =>
    simp only [pacedViews] at h
    split at h
    · cases h
      exact .script rfl rfl fun _ _ _ hhas => hhas
    · cases h
      exact .script rfl rfl fun _ _ _ hhas => hhas
    · cases h
  | proceed => exact .proceed h

/-- Beside the writes of the store only the walk that clears the views writes it. -/
theorem records_step {s t : PacedViews V L} {a : PacedAction V L} (hinv : s.Inv)
    (hclear : ¬s.Clearing) (hwrite : ∀ symbol view, a ≠ .write symbol view)
    (h : (pacedViews V L).step s a = some t) : t.records = s.records := by
  cases step_steps hinv h with
  | script hrecords => exact hrecords
  | write => exact absurd rfl (hwrite _ _)
  | resetStream | beat => rfl
  | proceed hstep => exact (proceed_proceeds hstep).records hclear

/-- While the views are cleared, nothing else writes the store. -/
theorem clearing_step {s t : PacedViews V L} {a : PacedAction V L} (hinv : s.Inv)
    (hclear : s.Clearing) (h : (pacedViews V L).step s a = some t) : t.Clearing ∨ t.Cleared := by
  have hbusy := atRest_eq_false_of_clearing hclear
  cases step_steps hinv h with
  | script _ htask =>
    obtain ⟨position, hposition⟩ := hclear
    exact .inl ⟨position, htask.trans hposition⟩
  | write hrest | resetStream hrest | beat hrest => exact absurd hrest (by simp [hbusy])
  | proceed hstep => exact clearing_proceed hinv hclear hstep

/-- No step but `resetStream` begins the walk that clears the views. -/
theorem clearing_of_step {s t : PacedViews V L} {a : PacedAction V L} (hinv : s.Inv)
    (hreset : a ≠ .resetStream) (h : (pacedViews V L).step s a = some t) (hclear : t.Clearing) :
    s.Clearing := by
  cases step_steps hinv h with
  | script _ htask =>
    obtain ⟨position, hposition⟩ := hclear
    exact ⟨position, htask.symm.trans hposition⟩
  | write => exact hclear
  | resetStream => exact absurd rfl hreset
  | beat =>
    obtain ⟨position, htask⟩ := hclear
    cases htask
  | proceed hstep => exact clearing_of_proceed hstep hclear

/-- What leaves the painted view of a symbol alone. -/
def Stands (symbol : String) (s : PacedViews V L) (a : PacedAction V L) : Prop :=
  a ≠ .beat ∧ a ≠ .resetStream ∧ a ≠ .flushPacedSymbol symbol ∧ KeepsListening symbol s a

/-- A symbol that is listened to, and what is painted of it, where nothing publishes. -/
structure Standing (symbol : String) (entry : Nat) (view : Option V) (s : PacedViews V L) :
    Prop where
  inv : s.Inv
  quiet : s.Quiet
  listened : s.entries.Has symbol entry
  painted : s.viewOf entry = view

theorem Standing.step {symbol : String} {entry : Nat} {view : Option V} {s t : PacedViews V L}
    {a : PacedAction V L} (h : Standing symbol entry view s) (ha : Stands symbol s a)
    (hstep : (pacedViews V L).step s a = some t) : Standing symbol entry view t := by
  obtain ⟨hbeat, hreset, hflush, hkeeps⟩ := ha
  obtain ⟨hinv, hmoves⟩ := step_moves h.inv hstep
  have hpainted : t.viewOf entry = view := by
    by_contra hne
    rw [← h.painted] at hne
    rcases hmoves.views symbol entry h.listened hne with heq | ⟨-, ⟨_, htask⟩ | ⟨_, _, htask⟩⟩
    · exact hflush heq
    all_goals
      rcases h.quiet with hquiet | ⟨_, hquiet⟩
      all_goals
        rw [hquiet] at htask
        cases htask
  cases step_steps h.inv hstep with
  | script _ htask hentries =>
    refine ⟨hinv, ?_, hentries symbol entry hkeeps h.listened, hpainted⟩
    unfold Quiet
    rw [htask]
    exact h.quiet
  | write => exact ⟨hinv, h.quiet, h.listened, hpainted⟩
  | resetStream => exact absurd rfl hreset
  | beat => exact absurd rfl hbeat
  | proceed hproceed =>
    have hsame := proceed_proceeds hproceed
    exact ⟨hinv, hsame.quiet h.quiet, hsame.entries.symm ▸ h.listened, hpainted⟩

end

theorem Standing.getPacedSymbolSnapshot {symbol : String} {entry : Nat} {view : Option V}
    {s : PacedViews V L} (h : Standing symbol entry view s) :
    s.getPacedSymbolSnapshot symbol = view := by
  rw [PacedViews.getPacedSymbolSnapshot, LiveMap.get?_eq_some_iff.mpr h.listened]
  exact h.painted

end PacedViews

end Tckr.MarketWatch
