import Tckr.Exchange.Generation.Walk

/-!
# Runs of the generator

A tape is a run of `Next` and `ResetSession` in any order, for any draws and any
clock. Beside the generator it keeps the session count and every event with the
state it left behind, which no step reads.
-/

namespace Tckr.Generation

open Protocol

/-- One record, and the state it left its symbol in. -/
structure Event where
  session : Nat
  index : Nat
  record : TapeRecord
  after : SymbolState
  deriving DecidableEq, Repr

/-- The generator, the sessions opened since it was built, and what it emitted. -/
structure Tape where
  generator : RandomWalkGenerator
  session : Nat := 0
  events : List Event := []
  deriving DecidableEq, Repr

/-- What the publisher can ask of the generator. -/
inductive Action where
  | next (d : Draws) (timestamp : Int)
  | reset (reading : ClockReading)

/-- Take one record, or open a new session. -/
def Tape.step (c : GeneratorConfig) (t : Tape) : Action → Option Tape
  | .next d timestamp =>
    (next c d timestamp t.generator).bind fun result =>
    (result.2.2.states[result.1]?).map fun after =>
      { t with
        generator := result.2.2
        events := t.events ++ [⟨t.session, result.1, result.2.1, after⟩] }
  | .reset reading =>
    (resetSession c reading t.generator).map fun g =>
      { t with generator := g, session := t.session + 1 }

/-- The runs of a generator. -/
def tape (c : GeneratorConfig) (g : RandomWalkGenerator) : Machine Tape Action where
  init := { generator := g }
  step := Tape.step c

variable {c : GeneratorConfig} {g g' : RandomWalkGenerator}

/-- Every symbol walks, on the tick of its definition. -/
structure Sound (c : GeneratorConfig) (g : RandomWalkGenerator) : Prop where
  opened : g.hasOpened = true
  length : g.states.length = c.symbolUniverse.symbols.length
  walking : ∀ (i : Nat) definition s, c.symbolUniverse.symbols[i]? = some definition →
    g.states[i]? = some s → Walking c.options (toScaled definition.tickSize) s

/-! ## One step -/

/-- What one event does: one symbol's state moves, and the clock. -/
structure Emits (c : GeneratorConfig) (d : Draws) (g : RandomWalkGenerator) (index : Nat)
    (r : TapeRecord) (g' : RandomWalkGenerator) (definition : SymbolDefinition)
    (s : SymbolState) : Prop where
  index_eq : index = c.symbolUniverse.picker.next d.pick
  definition_eq : c.symbolUniverse.symbols[index]? = some definition
  state_eq : g.states[index]? = some s
  messageType_eq : r.messageType = messageType c.options d
  priceScaled_eq : r.priceScaled = eventPrice c.options d s
  states_eq : g'.states = g.states.set index (nextSymbol c.options d s)
  opened_eq : g'.hasOpened = g.hasOpened

/-- The timestamp clock leaves the walk alone. -/
theorem nextTimestampNanos_states (c : GeneratorConfig) (timestamp : Int)
    (g : RandomWalkGenerator) :
    (nextTimestampNanos c timestamp g).2.states = g.states ∧
      (nextTimestampNanos c timestamp g).2.hasOpened = g.hasOpened := by
  unfold nextTimestampNanos
  split <;> exact ⟨rfl, rfl⟩

/-- A record comes from the symbol its draw picks, and moves that symbol only. -/
theorem next_emits {d : Draws} {timestamp : Int} {index : Nat} {r : TapeRecord}
    (h : next c d timestamp g = some (index, r, g')) :
    ∃ definition s, Emits c d g index r g' definition s := by
  unfold next at h
  dsimp only at h
  split at h
  · rename_i s definition hs hdefinition
    simp only [Option.some.injEq, Prod.mk.injEq] at h
    obtain ⟨rfl, rfl, rfl⟩ := h
    exact ⟨definition, s, rfl, hdefinition, hs, rfl, rfl, rfl,
      (nextTimestampNanos_states c timestamp g).2⟩
  · exact absurd h nofun

/-- In a sound generator every draw picks a symbol. -/
theorem Sound.exists_next (h : Sound c g) (d : Draws) (timestamp : Int) :
    ∃ index r g', next c d timestamp g = some (index, r, g') := by
  have hpick : c.symbolUniverse.picker.next d.pick < c.symbolUniverse.symbols.length :=
    c.symbolUniverse.picker_length ▸ c.symbolUniverse.picker.next_lt d.pick
  have hstate : c.symbolUniverse.picker.next d.pick < g.states.length := h.length ▸ hpick
  unfold next
  dsimp only
  rw [List.getElem?_eq_getElem hstate, List.getElem?_eq_getElem hpick]
  exact ⟨_, _, _, rfl⟩

/-- An event keeps every symbol walking. -/
theorem Sound.of_emits {d : Draws} {index : Nat} {r : TapeRecord} {definition : SymbolDefinition}
    {s : SymbolState} (h : Sound c g) (he : Emits c d g index r g' definition s) :
    Sound c g' where
  opened := he.opened_eq.trans h.opened
  length := by rw [he.states_eq, List.length_set, h.length]
  walking i definition' s' hdefinition' hs' := by
    rw [he.states_eq] at hs'
    by_cases hi : index = i
    · subst hi
      have hlt : index < g.states.length := (List.getElem?_eq_some_iff.mp he.state_eq).1
      rw [List.getElem?_set_self hlt, Option.some.injEq] at hs'
      obtain rfl := hs'
      exact (h.walking index definition' s hdefinition' he.state_eq).nextSymbol d
    · rw [List.getElem?_set_ne hi] at hs'
      exact h.walking i definition' s' hdefinition' hs'

/-- A reset opens the session of every symbol. -/
theorem resetSymbols_getElem? {o : GenerationOptions} {opened : Bool}
    {ds : List SymbolDefinition} {ss ts : List SymbolState}
    (h : resetSymbols o opened ds ss = some ts) :
    ts.length = ss.length ∧ ∀ (i : Nat) definition t, ds[i]? = some definition → ts[i]? = some t →
      ∃ s, ss[i]? = some s ∧ resetSymbol o opened definition s = some t := by
  induction ds generalizing ss ts with
  | nil =>
    cases ss with
    | nil =>
      simp only [resetSymbols, Option.some.injEq] at h
      exact h ▸ ⟨rfl, fun i d t hd _ => by simp only [List.getElem?_nil, reduceCtorEq] at hd⟩
    | cons s ss => exact absurd h nofun
  | cons d ds ih =>
    cases ss with
    | nil =>
      simp only [resetSymbols, Option.some.injEq] at h
      exact h ▸ ⟨rfl, fun i d t _ ht => by simp only [List.getElem?_nil, reduceCtorEq] at ht⟩
    | cons s ss =>
      simp only [resetSymbols, Option.bind_eq_some_iff, Option.map_eq_some_iff] at h
      obtain ⟨t, ht, ts', hts, rfl⟩ := h
      obtain ⟨hlength, hall⟩ := ih hts
      refine ⟨by rw [List.length_cons, List.length_cons, hlength], fun i definition u hd hu => ?_⟩
      cases i with
      | zero =>
        simp only [List.getElem?_cons_zero, Option.some.injEq] at hd hu
        exact ⟨s, rfl, hd ▸ hu ▸ ht⟩
      | succ i =>
        simp only [List.getElem?_cons_succ] at hd hu ⊢
        exact hall i definition u hd hu

/-- Where every symbol's session can be opened, all of them can. -/
theorem exists_resetSymbols {o : GenerationOptions} {opened : Bool} {ds : List SymbolDefinition}
    {ss : List SymbolState} (hlength : ss.length = ds.length)
    (h : ∀ (i : Nat) d s, ds[i]? = some d → ss[i]? = some s →
      ∃ t, resetSymbol o opened d s = some t) :
    ∃ ts, resetSymbols o opened ds ss = some ts := by
  induction ds generalizing ss with
  | nil =>
    obtain rfl := List.length_eq_zero_iff.mp hlength
    exact ⟨[], rfl⟩
  | cons d ds ih =>
    cases ss with
    | nil => exact absurd hlength nofun
    | cons s ss =>
      obtain ⟨t, ht⟩ := h 0 d s rfl rfl
      obtain ⟨ts, hts⟩ := ih (Nat.succ_inj.mp hlength) fun i d s hd hs => h (i + 1) d s hd hs
      exact ⟨t :: ts, by simp only [resetSymbols, ht, hts, Option.bind_some, Option.map_some]⟩

/-- The ticks of the universe are at least one in scaled prices. -/
def TicksScale (c : GeneratorConfig) : Prop :=
  ∀ d ∈ c.symbolUniverse.symbols, 1 ≤ toScaled d.tickSize

/-- A state whose symbols walk, or that has never been opened. -/
structure Resettable (c : GeneratorConfig) (g : RandomWalkGenerator) : Prop where
  length : g.states.length = c.symbolUniverse.symbols.length
  walking : g.hasOpened = true → ∀ (i : Nat) definition s,
    c.symbolUniverse.symbols[i]? = some definition →
    g.states[i]? = some s → Walking c.options (toScaled definition.tickSize) s

theorem Sound.resettable (h : Sound c g) : Resettable c g := ⟨h.length, fun _ => h.walking⟩

/-- Opening a session never throws. -/
theorem Resettable.exists_reset (h : Resettable c g) (ho : c.options.Validated)
    (htick : TicksScale c) (reading : ClockReading) : ∃ g', resetSession c reading g = some g' := by
  obtain ⟨ts, hts⟩ := exists_resetSymbols h.length fun i d s hd hs =>
    have hwalks : g.hasOpened = true → Walking c.options (toScaled d.tickSize) s :=
      fun hopen => h.walking hopen i d s hd hs
    (exists_resetSymbol ho (htick d (List.mem_of_getElem? hd)) hwalks).imp fun _ ht => ht.1
  exact ⟨_, by rw [resetSession, hts]; rfl⟩

/-- Opening a session leaves every symbol walking. -/
theorem Resettable.sound (h : Resettable c g) (ho : c.options.Validated) (htick : TicksScale c)
    {reading : ClockReading} (hg : resetSession c reading g = some g') : Sound c g' := by
  unfold resetSession at hg
  rw [Option.map_eq_some_iff] at hg
  obtain ⟨ts, hts, rfl⟩ := hg
  obtain ⟨hlength, hall⟩ := resetSymbols_getElem? hts
  have hwalking : ∀ (i : Nat) definition s, c.symbolUniverse.symbols[i]? = some definition →
      ts[i]? = some s → Walking c.options (toScaled definition.tickSize) s := by
    intro i definition t hdefinition ht
    obtain ⟨s, hs, hreset⟩ := hall i definition t hdefinition ht
    have hwalks : g.hasOpened = true → Walking c.options (toScaled definition.tickSize) s :=
      fun hopen => h.walking hopen i definition s hdefinition hs
    obtain ⟨t', ht', hwalk⟩ :=
      exists_resetSymbol ho (htick definition (List.mem_of_getElem? hdefinition)) hwalks
    rw [hreset, Option.some.injEq] at ht'
    exact ht' ▸ hwalk
  dsimp only
  split
  · rename_i hopen
    exact ⟨hopen, hlength.trans h.length, hwalking⟩
  · exact ⟨rfl, hlength.trans h.length, hwalking⟩

/-- Opening a session leaves the clock aside and opens every symbol. -/
theorem resetSession_states {reading : ClockReading} (h : resetSession c reading g = some g') :
    resetSymbols c.options g.hasOpened c.symbolUniverse.symbols g.states = some g'.states ∧
      g'.hasOpened = true := by
  unfold resetSession at h
  rw [Option.map_eq_some_iff] at h
  obtain ⟨states, hstates, rfl⟩ := h
  dsimp only
  split
  · rename_i hopened
    exact ⟨hopened ▸ hstates, hopened⟩
  · exact ⟨hstates, rfl⟩

/-! ## One property of every symbol -/

/-- A property of every symbol beside its definition. -/
def Each (c : GeneratorConfig) (P : SymbolDefinition → SymbolState → Prop)
    (g : RandomWalkGenerator) : Prop :=
  ∀ (i : Nat) definition s, c.symbolUniverse.symbols[i]? = some definition →
    g.states[i]? = some s → P definition s

section Each

variable {P : SymbolDefinition → SymbolState → Prop}

/-- An event keeps what it keeps of the symbol it moves. -/
theorem Each.of_emits {d : Draws} {index : Nat} {r : TapeRecord} {definition : SymbolDefinition}
    {s : SymbolState} (h : Each c P g) (he : Emits c d g index r g' definition s)
    (hnext : P definition s → P definition (nextSymbol c.options d s)) : Each c P g' := by
  intro i definition' t hdefinition ht
  rw [he.states_eq] at ht
  by_cases hi : index = i
  · subst hi
    rw [List.getElem?_set_self (List.getElem?_eq_some_iff.mp he.state_eq).1,
      Option.some.injEq] at ht
    rw [he.definition_eq, Option.some.injEq] at hdefinition
    exact ht ▸ hdefinition ▸ hnext (h index definition s he.definition_eq he.state_eq)
  · rw [List.getElem?_set_ne hi] at ht
    exact h i definition' t hdefinition ht

/-- A new session brings what it brings to the symbols one by one. -/
theorem Each.of_reset {reading : ClockReading} (h : resetSession c reading g = some g')
    (hreset : ∀ (i : Nat) definition s t, c.symbolUniverse.symbols[i]? = some definition →
      g.states[i]? = some s → resetSymbol c.options g.hasOpened definition s = some t →
      P definition t) : Each c P g' := by
  intro i definition t hdefinition ht
  obtain ⟨-, hall⟩ := resetSymbols_getElem? (resetSession_states h).1
  obtain ⟨s, hs, hst⟩ := hall i definition t hdefinition ht
  exact hreset i definition s t hdefinition hs hst

/-- What an event and a new session bring to the symbols, a step brings to them. -/
theorem Each.step {t u : Tape} {a : Action} (h : Each c P t.generator)
    (hnext : ∀ d definition s, P definition s → P definition (nextSymbol c.options d s))
    (hreset : ∀ reading g', resetSession c reading t.generator = some g' → Each c P g')
    (hu : t.step c a = some u) : Each c P u.generator := by
  cases a with
  | next d timestamp =>
    simp only [Tape.step, Option.bind_eq_some_iff, Option.map_eq_some_iff] at hu
    obtain ⟨⟨index, r, g'⟩, hnext', after, -, rfl⟩ := hu
    obtain ⟨definition, s, he⟩ := next_emits hnext'
    exact h.of_emits he (hnext d definition s)
  | reset reading =>
    simp only [Tape.step, Option.map_eq_some_iff] at hu
    obtain ⟨g', hg, rfl⟩ := hu
    exact hreset reading g' hg

end Each

/-! ## Runs -/

/-- A list with one more entry splits at an old entry or at the new one. -/
theorem split_append_singleton {α : Type} {l before after : List α} {x y : α}
    (h : l ++ [x] = before ++ y :: after) :
    (after = [] ∧ y = x ∧ l = before) ∨
      ∃ rest, after = rest ++ [x] ∧ l = before ++ y :: rest := by
  rcases List.eq_nil_or_concat after with rfl | ⟨rest, z, rfl⟩
  · obtain ⟨hl, hx⟩ := List.append_inj' h rfl
    exact .inl ⟨rfl, (List.singleton_inj.mp hx).symm, hl⟩
  · rw [List.concat_eq_append] at h ⊢
    rw [← List.cons_append, ← List.append_assoc] at h
    obtain ⟨hl, hx⟩ := List.append_inj' h rfl
    exact .inr ⟨rest, by rw [List.singleton_inj.mp hx], hl⟩

/-- What a run of the generator satisfies: its events conform, its symbols walk, and the
walk of a symbol stands where its last event of the session left it. -/
structure Continuous (c : GeneratorConfig) (t : Tape) : Prop where
  sound : Sound c t.generator
  sessions : ∀ e ∈ t.events, e.session ≤ t.session
  conforms : ∀ e ∈ t.events, ∃ definition, c.symbolUniverse.symbols[e.index]? = some definition ∧
    Conforms c.options (toScaled definition.tickSize) e.after e.record
  stands : ∀ before e after, t.events = before ++ e :: after → e.session = t.session →
    (∀ m ∈ after, m.index ≠ e.index) →
    ∃ s, t.generator.states[e.index]? = some s ∧ s.midPriceScaled = e.after.midPriceScaled
  moves : ∀ before e between e' after definition,
    t.events = before ++ e :: (between ++ e' :: after) → e'.index = e.index →
    e'.session = e.session → (∀ m ∈ between, m.index ≠ e.index) →
    c.symbolUniverse.symbols[e.index]? = some definition →
    |e'.after.midPriceScaled - e.after.midPriceScaled| ≤
      c.options.maxTickMove * toScaled definition.tickSize

/-- A new session keeps what was emitted, and no event belongs to it yet. -/
theorem Continuous.reset {t : Tape} (h : Continuous c t) (ho : c.options.Validated)
    (htick : TicksScale c) {reading : ClockReading}
    (hg : resetSession c reading t.generator = some g') :
    Continuous c { t with generator := g', session := t.session + 1 } where
  sound := h.sound.resettable.sound ho htick hg
  sessions e he := (h.sessions e he).trans (Nat.le_succ _)
  conforms := h.conforms
  stands before e after hevents hsession _ := by
    have hmem : e ∈ t.events := by
      rw [show t.events = before ++ e :: after from hevents]
      exact List.mem_append_right _ List.mem_cons_self
    have hle := h.sessions e hmem
    have hnew : e.session = t.session + 1 := hsession
    omega
  moves := h.moves

/-- An event conforms, and continues the walk of its symbol. -/
theorem Continuous.next {t : Tape} (h : Continuous c t) (ho : c.options.Validated) {d : Draws}
    {index : Nat} {r : TapeRecord} {definition : SymbolDefinition} {s : SymbolState}
    (he : Emits c d t.generator index r g' definition s) :
    Continuous c { t with
      generator := g'
      events := t.events ++ [⟨t.session, index, r, nextSymbol c.options d s⟩] } := by
  have hwalk := h.sound.walking index definition s he.definition_eq he.state_eq
  have hlt : index < t.generator.states.length := (List.getElem?_eq_some_iff.mp he.state_eq).1
  refine ⟨h.sound.of_emits he, ?_, ?_, ?_, ?_⟩
  · intro e hmem
    rcases List.mem_append.mp hmem with hmem | hmem
    · exact h.sessions e hmem
    · rw [List.mem_singleton.mp hmem]
  · intro e hmem
    rcases List.mem_append.mp hmem with hmem | hmem
    · exact h.conforms e hmem
    · rw [List.mem_singleton.mp hmem]
      exact ⟨definition, he.definition_eq, hwalk.conforms ho d he.messageType_eq he.priceScaled_eq⟩
  · intro before e after hevents hsession hlast
    rcases split_append_singleton hevents with ⟨-, rfl, -⟩ | ⟨rest, rfl, hold⟩
    · exact ⟨_, by rw [he.states_eq, List.getElem?_set_self hlt], rfl⟩
    · have hne : index ≠ e.index :=
        hlast _ (List.mem_append_right _ (List.mem_singleton_self _))
      obtain ⟨s', hs', hmid⟩ := h.stands before e rest hold hsession fun m hm =>
        hlast m (List.mem_append_left _ hm)
      exact ⟨s', by rw [he.states_eq, List.getElem?_set_ne hne, hs'], hmid⟩
  · intro before e between e' after definition' hevents hindex hsession hbetween hdefinition
    have hassoc : t.events ++ [⟨t.session, index, r, nextSymbol c.options d s⟩] =
        (before ++ e :: between) ++ e' :: after := by
      rw [show t.events ++ [_] = _ from hevents, List.append_assoc, List.cons_append]
    rcases split_append_singleton hassoc with ⟨-, rfl, hold⟩ | ⟨rest, rfl, hold⟩
    · -- The new event is the later of the two: the walk stands where the earlier one left it.
      obtain ⟨s', hs', hmid⟩ := h.stands before e between hold hsession.symm hbetween
      have hi : index = e.index := hindex
      rw [← hi, he.state_eq, Option.some.injEq] at hs'
      rw [← hi, he.definition_eq, Option.some.injEq] at hdefinition
      rw [← hdefinition, ← hmid, ← hs', nextSymbol_mid]
      exact hwalk.abs_nextMid_sub_le d
    · rw [List.append_assoc, List.cons_append] at hold
      exact h.moves before e between e' rest definition' hold hindex hsession hbetween hdefinition

/-- What one step preserves. -/
theorem Continuous.step {t u : Tape} {a : Action} (h : Continuous c t) (ho : c.options.Validated)
    (htick : TicksScale c) (hu : t.step c a = some u) : Continuous c u := by
  cases a with
  | next d timestamp =>
    simp only [Tape.step, Option.bind_eq_some_iff, Option.map_eq_some_iff] at hu
    obtain ⟨⟨index, r, g'⟩, hnext, after, hafter, rfl⟩ := hu
    obtain ⟨definition, s, he⟩ := next_emits hnext
    have hlt : index < t.generator.states.length := (List.getElem?_eq_some_iff.mp he.state_eq).1
    have hstate : nextSymbol c.options d s = after := by
      rw [he.states_eq, List.getElem?_set_self hlt, Option.some.injEq] at hafter
      exact hafter
    exact hstate ▸ h.next ho he
  | reset reading =>
    simp only [Tape.step, Option.map_eq_some_iff] at hu
    obtain ⟨g', hg, rfl⟩ := hu
    exact h.reset ho htick hg

/-- A new generator has emitted nothing and walks. -/
theorem Continuous.init (ho : c.options.Validated) (htick : TicksScale c)
    {reading : ClockReading} (hg : construct c reading = some g) :
    Continuous c { generator := g } where
  sound := Resettable.sound ⟨List.length_map _, fun hopen => absurd hopen Bool.false_ne_true⟩
    ho htick hg
  sessions _ he := absurd he List.not_mem_nil
  conforms _ he := absurd he List.not_mem_nil
  stands _ _ _ hevents :=
    absurd hevents.symm (List.append_ne_nil_of_right_ne_nil _ (List.cons_ne_nil _ _))
  moves _ _ _ _ _ _ hevents :=
    absurd hevents.symm (List.append_ne_nil_of_right_ne_nil _ (List.cons_ne_nil _ _))

/-- What every session brings to the symbols and every event keeps holds in every run. -/
theorem each_run {P : SymbolDefinition → SymbolState → Prop} {reading : ClockReading}
    {actions : List Action} {t : Tape} (ho : c.options.Validated) (htick : TicksScale c)
    (hg : construct c reading = some g) (h : (tape c g).run actions = some t)
    (hopens : ∀ reading g g', Resettable c g → resetSession c reading g = some g' → Each c P g')
    (hnext : ∀ d definition s, P definition s → P definition (nextSymbol c.options d s)) :
    Each c P t.generator := by
  have hfresh : Resettable c { states := c.symbolUniverse.symbols.map fun _ => {} } :=
    ⟨List.length_map _, fun hopen => absurd hopen Bool.false_ne_true⟩
  refine (Machine.run_invariant (m := tape c g)
    (I := fun t => Continuous c t ∧ Each c P t.generator)
    ⟨Continuous.init ho htick hg, hopens reading _ g hfresh hg⟩ ?_ h).2
  rintro u a v ⟨hu, hall⟩ hv
  exact ⟨hu.step ho htick hv,
    hall.step hnext (fun reading g' => hopens reading _ g' hu.sound.resettable) hv⟩

/-- In every run of events and session openings each record conforms to the state it leaves
behind, and between consecutive events of a symbol within a session its mid moves by at most
the configured ticks. -/
theorem walk_conforms {reading : ClockReading} {actions : List Action} {t : Tape}
    (ho : c.options.Validated) (htick : TicksScale c) (hg : construct c reading = some g)
    (h : (tape c g).run actions = some t) :
    (∀ e ∈ t.events, ∃ definition, c.symbolUniverse.symbols[e.index]? = some definition ∧
        Conforms c.options (toScaled definition.tickSize) e.after e.record) ∧
      ∀ before e between e' after definition,
        t.events = before ++ e :: (between ++ e' :: after) → e'.index = e.index →
        e'.session = e.session → (∀ m ∈ between, m.index ≠ e.index) →
        c.symbolUniverse.symbols[e.index]? = some definition →
        |e'.after.midPriceScaled - e.after.midPriceScaled| ≤
          c.options.maxTickMove * toScaled definition.tickSize := by
  have ht : Continuous c t := Machine.run_invariant (m := tape c g) (I := Continuous c)
    (Continuous.init ho htick hg) (fun _ _ _ hs hu => hs.step ho htick hu) h
  exact ⟨ht.conforms, ht.moves⟩

/-- The defaults are accepted. -/
theorem GenerationOptions.validated_default : ({} : GenerationOptions).Validated := by
  constructor <;> norm_num [longMaxValue]

/-- A universe of two instruments, the second cheaper than its band is wide. -/
def twoSymbols : GeneratorConfig where
  symbolUniverse := {
    symbols := [⟨⟨1⟩, 50, 1 / 100, 10⟩, ⟨⟨2⟩, 3 / 100, 1 / 100, 1⟩]
    picker := {
      thresholds := [4294967295, 4294967295]
      aliases := [0, 1]
      length_eq := rfl
      length_pos := by decide
      aliases_lt := by decide }
    picker_length := rfl }

/-- Two events of the cheap instrument, a new session, and two more events. -/
def twoSessions : List Action :=
  let trade : Draws := ⟨18446744073709551615, 0, 0, 0, 0⟩
  let quote : Draws := ⟨18446744073709551615, 18446744073709551615, 4294967295, 0, 0⟩
  [.next trade 0, .next quote 0, .reset ⟨0, 0⟩, .next quote 5, .next trade 7]

theorem walk_conforms_twoSessions : ∃ g t, construct twoSymbols ⟨0, 0⟩ = some g ∧
    (tape twoSymbols g).run twoSessions = some t ∧
    ∀ e ∈ t.events, ∃ definition,
      twoSymbols.symbolUniverse.symbols[e.index]? = some definition ∧
        Conforms twoSymbols.options (toScaled definition.tickSize) e.after e.record := by
  have hrun : ((construct twoSymbols ⟨0, 0⟩).bind fun g =>
      ((tape twoSymbols g).run twoSessions)).isSome = true := by decide +kernel
  obtain ⟨t, ht⟩ := Option.isSome_iff_exists.mp hrun
  obtain ⟨g, hg, ht⟩ := Option.bind_eq_some_iff.mp ht
  have hticks : TicksScale twoSymbols := by
    intro d hd
    simp only [twoSymbols, List.mem_cons, List.not_mem_nil, or_false] at hd
    rcases hd with rfl | rfl <;> decide +kernel
  exact ⟨g, t, hg, ht,
    (walk_conforms GenerationOptions.validated_default hticks hg ht).1⟩

/-- No run gets stuck: every event and every session opening goes through. -/
theorem Continuous.exists_step {t : Tape} (h : Continuous c t) (ho : c.options.Validated)
    (htick : TicksScale c) (a : Action) : ∃ u, t.step c a = some u := by
  cases a with
  | next d timestamp =>
    obtain ⟨index, r, g', hnext⟩ := h.sound.exists_next d timestamp
    obtain ⟨definition, s, he⟩ := next_emits hnext
    have hlt : index < t.generator.states.length := (List.getElem?_eq_some_iff.mp he.state_eq).1
    rw [← Option.isSome_iff_exists]
    simp only [Tape.step, hnext, Option.bind_some, he.states_eq, List.getElem?_set_self hlt,
      Option.map_some, Option.isSome_some]
  | reset reading =>
    obtain ⟨g', hg⟩ := h.sound.resettable.exists_reset ho htick reading
    exact ⟨_, by simp only [Tape.step, hg, Option.map_some]; rfl⟩

end Tckr.Generation
