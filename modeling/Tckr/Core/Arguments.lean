import Mathlib.Tactic.Common

/-!
# Argument lists

Arguments are read from the left, a flag at a time. A switch takes no value; another flag takes
the value in its own argument, or else the next argument whatever it looks like. What is read
is a list of uses of flags, and the first argument that is not accepted says why.
-/

namespace Tckr

universe u v

/-- What a flag does to the settings so far. -/
inductive Setting (σ : Type u) (ε : Type v) where
  | switch (set : σ → σ)
  | valued (assign : String → σ → Except ε σ)

/-- A flag with the value it takes; a switch takes none. -/
structure FlagUse where
  flag : String
  value : Option String
  deriving DecidableEq, Repr

/-- The flags of a program, and what it says to a list that does not use them well. -/
structure Flags (σ : Type u) (ε : Type v) where
  /-- An argument's flag, and the value in it. -/
  split : String → String × Option String
  setting : String → Option (Setting σ ε)
  unknown : String → ε
  missing : String → ε

namespace Flags

variable {σ : Type u} {ε : Type v} (g : Flags σ ε)

def read : List String → σ → Except ε σ
  | [], s => .ok s
  | arg :: rest, s =>
    match g.setting (g.split arg).1 with
    | none => .error (g.unknown (g.split arg).1)
    | some (.switch set) => read rest (set s)
    | some (.valued assign) =>
      match (g.split arg).2 with
      | some value => assign value s >>= fun s => read rest s
      | none =>
        match rest with
        | [] => .error (g.missing (g.split arg).1)
        | value :: rest => assign value s >>= fun s => read rest s

/-- A use of a flag. -/
def apply (s : σ) (use : FlagUse) : Except ε σ :=
  match g.setting use.flag, use.value with
  | some (.switch set), none => .ok (set s)
  | some (.valued assign), some value => assign value s
  | _, _ => .error (g.unknown use.flag)

/-- The arguments spell these uses, in this order. -/
inductive Spells : List String → List FlagUse → Prop
  | nil : Spells [] []
  | switch {arg : String} {set : σ → σ} {rest : List String} {uses : List FlagUse}
      (hsetting : g.setting (g.split arg).1 = some (.switch set)) (hrest : Spells rest uses) :
      Spells (arg :: rest) (⟨(g.split arg).1, none⟩ :: uses)
  | inline {arg value : String} {assign : String → σ → Except ε σ} {rest : List String}
      {uses : List FlagUse} (hsetting : g.setting (g.split arg).1 = some (.valued assign))
      (hvalue : (g.split arg).2 = some value) (hrest : Spells rest uses) :
      Spells (arg :: rest) (⟨(g.split arg).1, some value⟩ :: uses)
  | apart {arg value : String} {assign : String → σ → Except ε σ} {rest : List String}
      {uses : List FlagUse} (hsetting : g.setting (g.split arg).1 = some (.valued assign))
      (hvalue : (g.split arg).2 = none) (hrest : Spells rest uses) :
      Spells (arg :: value :: rest) (⟨(g.split arg).1, some value⟩ :: uses)

/-- The first of the arguments is not accepted after these settings. -/
inductive Rejects : List String → σ → ε → Prop
  | unknown {arg : String} {rest : List String} {s : σ}
      (hsetting : g.setting (g.split arg).1 = none) :
      Rejects (arg :: rest) s (g.unknown (g.split arg).1)
  | missing {arg : String} {s : σ} {assign : String → σ → Except ε σ}
      (hsetting : g.setting (g.split arg).1 = some (.valued assign))
      (hvalue : (g.split arg).2 = none) : Rejects [arg] s (g.missing (g.split arg).1)
  | inline {arg value : String} {assign : String → σ → Except ε σ} {rest : List String} {s : σ}
      {e : ε} (hsetting : g.setting (g.split arg).1 = some (.valued assign))
      (hvalue : (g.split arg).2 = some value) (hassign : assign value s = .error e) :
      Rejects (arg :: rest) s e
  | apart {arg value : String} {assign : String → σ → Except ε σ} {rest : List String} {s : σ}
      {e : ε} (hsetting : g.setting (g.split arg).1 = some (.valued assign))
      (hvalue : (g.split arg).2 = none) (hassign : assign value s = .error e) :
      Rejects (arg :: value :: rest) s e

variable {g} {arg value : String} {rest : List String} {s s' : σ} {e : ε}
  {assign : String → σ → Except ε σ}

theorem read_switch {set : σ → σ} (hsetting : g.setting (g.split arg).1 = some (.switch set)) :
    g.read (arg :: rest) s = g.read rest (set s) := by
  rw [read, hsetting]

theorem read_inline (hsetting : g.setting (g.split arg).1 = some (.valued assign))
    (hvalue : (g.split arg).2 = some value) :
    g.read (arg :: rest) s = assign value s >>= g.read rest := by
  rw [read, hsetting, hvalue]

theorem read_apart (hsetting : g.setting (g.split arg).1 = some (.valued assign))
    (hvalue : (g.split arg).2 = none) :
    g.read (arg :: value :: rest) s = assign value s >>= g.read rest := by
  rw [read, hsetting, hvalue]

theorem apply_valued {flag : String} (hsetting : g.setting flag = some (.valued assign)) :
    g.apply s ⟨flag, some value⟩ = assign value s := by
  rw [apply, hsetting]

theorem Spells.append {before after : List String} {uses uses' : List FlagUse}
    (hspells : g.Spells before uses) (hspells' : g.Spells after uses') :
    g.Spells (before ++ after) (uses ++ uses') := by
  induction hspells with
  | nil => exact hspells'
  | switch hsetting _ ih => exact .switch hsetting ih
  | inline hsetting hvalue _ ih => exact .inline hsetting hvalue ih
  | apart hsetting hvalue _ ih => exact .apart hsetting hvalue ih

/-- What the first arguments spell is applied before the others are read. -/
theorem Spells.read_append {before : List String} {uses : List FlagUse}
    (hspells : g.Spells before uses) (rest : List String) (s : σ) :
    g.read (before ++ rest) s = uses.foldlM g.apply s >>= g.read rest := by
  induction hspells generalizing s with
  | nil => rfl
  | switch hsetting _ ih =>
    rw [List.cons_append, read_switch hsetting, ih, List.foldlM_cons, apply, hsetting]
    rfl
  | inline hsetting hvalue _ ih =>
    rw [List.cons_append, read_inline hsetting hvalue, List.foldlM_cons, apply_valued hsetting,
      bind_assoc]
    exact bind_congr ih
  | apart hsetting hvalue _ ih =>
    rw [List.cons_append, List.cons_append, read_apart hsetting hvalue, List.foldlM_cons,
      apply_valued hsetting, bind_assoc]
    exact bind_congr ih

theorem Spells.read_eq {args : List String} {uses : List FlagUse} (hspells : g.Spells args uses)
    (s : σ) : g.read args s = uses.foldlM g.apply s := by
  have happend := hspells.read_append [] s
  rw [List.append_nil] at happend
  exact happend.trans (bind_pure _)

theorem Rejects.read_eq (hrejects : g.Rejects rest s e) : g.read rest s = .error e := by
  cases hrejects with
  | unknown hsetting => rw [read, hsetting]
  | missing hsetting hvalue => rw [read, hsetting, hvalue]
  | inline hsetting hvalue hassign =>
    rw [read_inline hsetting hvalue, hassign]
    rfl
  | apart hsetting hvalue hassign =>
    rw [read_apart hsetting hvalue, hassign]
    rfl

/-- The arguments spell uses that are applied in their order. -/
def Accepts (g : Flags σ ε) (args : List String) (s s' : σ) : Prop :=
  ∃ uses, g.Spells args uses ∧ uses.foldlM g.apply s = .ok s'

/-- The first arguments spell uses that are applied, and the next one is not accepted. -/
def Refuses (g : Flags σ ε) (args : List String) (s : σ) (e : ε) : Prop :=
  ∃ before rest s', args = before ++ rest ∧ g.Accepts before s s' ∧ g.Rejects rest s' e

theorem Accepts.read_append {before : List String} (h : g.Accepts before s s')
    (rest : List String) : g.read (before ++ rest) s = g.read rest s' := by
  obtain ⟨uses, hspells, huses⟩ := h
  rw [hspells.read_append, huses]
  rfl

theorem Accepts.read_eq {args : List String} (h : g.Accepts args s s') :
    g.read args s = .ok s' := by
  have happend := h.read_append []
  rwa [List.append_nil] at happend

theorem Refuses.read_eq {args : List String} (h : g.Refuses args s e) :
    g.read args s = .error e := by
  obtain ⟨before, rest, s', rfl, haccepts, hrejects⟩ := h
  rw [haccepts.read_append, hrejects.read_eq]

theorem accepts_nil (s : σ) : g.Accepts [] s s := ⟨[], .nil, rfl⟩

theorem Refuses.of_rejects (hrejects : g.Rejects rest s e) : g.Refuses rest s e :=
  ⟨[], rest, s, rfl, accepts_nil s, hrejects⟩

theorem Accepts.append {before after : List String} {s'' : σ} (h : g.Accepts before s s')
    (h' : g.Accepts after s' s'') : g.Accepts (before ++ after) s s'' := by
  obtain ⟨uses, hspells, huses⟩ := h
  obtain ⟨uses', hspells', huses'⟩ := h'
  refine ⟨uses ++ uses', hspells.append hspells', ?_⟩
  rw [List.foldlM_append, huses]
  exact huses'

theorem Refuses.append {before after : List String} (h : g.Accepts before s s')
    (h' : g.Refuses after s' e) : g.Refuses (before ++ after) s e := by
  obtain ⟨between, rest, s'', rfl, haccepts, hrejects⟩ := h'
  exact ⟨before ++ between, rest, s'', (List.append_assoc ..).symm, h.append haccepts, hrejects⟩

theorem accepts_switch {set : σ → σ} (hsetting : g.setting (g.split arg).1 = some (.switch set)) :
    g.Accepts [arg] s (set s) :=
  ⟨_, .switch hsetting .nil, by rw [List.foldlM_cons, apply, hsetting]; rfl⟩

theorem accepts_inline (hsetting : g.setting (g.split arg).1 = some (.valued assign))
    (hvalue : (g.split arg).2 = some value) (hassign : assign value s = .ok s') :
    g.Accepts [arg] s s' :=
  ⟨_, .inline hsetting hvalue .nil, by
    rw [List.foldlM_cons, apply_valued hsetting, hassign]; rfl⟩

theorem accepts_apart (hsetting : g.setting (g.split arg).1 = some (.valued assign))
    (hvalue : (g.split arg).2 = none) (hassign : assign value s = .ok s') :
    g.Accepts [arg, value] s s' :=
  ⟨_, .apart hsetting hvalue .nil, by
    rw [List.foldlM_cons, apply_valued hsetting, hassign]; rfl⟩

/-- A setting that may be left out. -/
theorem accepts_elim {α : Type} (x : Option α) {args : α → List String} (set : Option α → σ)
    (hnone : set none = s) (hsome : ∀ a, g.Accepts (args a) s (set (some a))) :
    g.Accepts (x.elim [] args) s (set x) := by
  cases x with
  | none =>
    rw [hnone]
    exact accepts_nil s
  | some a => exact hsome a

/-- A switch that may be off. -/
theorem accepts_if (on : Bool) {args : List String} (set : Bool → σ) (hoff : set false = s)
    (hon : g.Accepts args s (set true)) : g.Accepts (if on then args else []) s (set on) := by
  cases on with
  | false =>
    rw [hoff]
    exact accepts_nil s
  | true => exact hon

/-- Every list is accepted or refused. -/
theorem accepts_or_refuses (g : Flags σ ε) (args : List String) (s : σ) :
    (∃ s', g.Accepts args s s') ∨ ∃ e, g.Refuses args s e := by
  fun_induction g.read args s with
  | case1 s => exact .inl ⟨s, accepts_nil s⟩
  | case2 arg rest s hsetting => exact .inr ⟨_, .of_rejects (.unknown hsetting)⟩
  | case3 arg rest s set hsetting ih =>
    exact ih.imp (fun ⟨s', h⟩ => ⟨s', (accepts_switch hsetting).append h⟩)
      fun ⟨e, h⟩ => ⟨e, .append (accepts_switch hsetting) h⟩
  | case4 arg rest s assign hsetting value hvalue ih =>
    cases hassign : assign value s with
    | error e => exact .inr ⟨e, .of_rejects (.inline hsetting hvalue hassign)⟩
    | ok s' =>
      have hfirst := accepts_inline hsetting hvalue hassign
      exact (ih s').imp (fun ⟨s'', h⟩ => ⟨s'', hfirst.append h⟩)
        fun ⟨e, h⟩ => ⟨e, .append hfirst h⟩
  | case5 arg s assign hsetting hvalue => exact .inr ⟨_, .of_rejects (.missing hsetting hvalue)⟩
  | case6 arg s assign hsetting hvalue value rest ih =>
    cases hassign : assign value s with
    | error e => exact .inr ⟨e, .of_rejects (.apart hsetting hvalue hassign)⟩
    | ok s' =>
      have hfirst := accepts_apart hsetting hvalue hassign
      exact (ih s').imp (fun ⟨s'', h⟩ => ⟨s'', hfirst.append h⟩)
        fun ⟨e, h⟩ => ⟨e, .append hfirst h⟩

theorem read_eq_ok_iff {args : List String} : g.read args s = .ok s' ↔ g.Accepts args s s' := by
  refine ⟨fun hread => ?_, Accepts.read_eq⟩
  obtain ⟨s'', haccepts⟩ | ⟨e, hrefuses⟩ := g.accepts_or_refuses args s
  · rw [haccepts.read_eq, Except.ok.injEq] at hread
    exact hread ▸ haccepts
  · rw [hrefuses.read_eq] at hread
    cases hread

theorem read_eq_error_iff {args : List String} : g.read args s = .error e ↔ g.Refuses args s e := by
  refine ⟨fun hread => ?_, Refuses.read_eq⟩
  obtain ⟨s', haccepts⟩ | ⟨e', hrefuses⟩ := g.accepts_or_refuses args s
  · rw [haccepts.read_eq] at hread
    cases hread
  · rw [hrefuses.read_eq, Except.error.injEq] at hread
    exact hread ▸ hrefuses

end Flags

end Tckr
