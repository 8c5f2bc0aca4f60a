import Mathlib.Data.List.Basic
import Mathlib.Logic.Basic

/-!
# Step machines and their runs

A machine is a start state and a partial step function: `none` says that the
action is not enabled. A run is the list of the actions taken, so one definition
serves concrete traces, which are evaluated, and laws over all runs, which are
proved by the induction principles below. A guarded run additionally meets a
condition on the state before every step. What the steps of a run put out is a list
that splits where the run splits. Attaching a history to a machine never changes its
runs, so a law may be proved about a machine that keeps more. A law about two runs is
a law about the machine that takes both in lockstep. A machine whose steps another one
matches has its runs matched too. A machine made of components has their runs in its
own, so their laws hold of it.
-/

namespace Tckr

universe u v w x y z

/-- A start state and a partial step function. -/
structure Machine (σ : Type u) (α : Type v) where
  /-- The state every run starts in. -/
  init : σ
  /-- One step; `none` when the action is not enabled. -/
  step : σ → α → Option σ

namespace Machine

variable {σ : Type u} {α : Type v} {γ : Type w} (m : Machine σ α)

/-- Take the actions in order, stopping at the first that is not enabled. -/
def runFrom : σ → List α → Option σ
  | s, [] => some s
  | s, a :: as => (m.step s a).bind fun t => runFrom t as

/-- Take the actions in order from the start state. -/
def run (as : List α) : Option σ := m.runFrom m.init as

@[simp] theorem runFrom_nil (s : σ) : m.runFrom s [] = some s := rfl

@[simp] theorem runFrom_cons (s : σ) (a : α) (as : List α) :
    m.runFrom s (a :: as) = (m.step s a).bind fun t => m.runFrom t as := rfl

theorem runFrom_singleton (s : σ) (a : α) : m.runFrom s [a] = m.step s a :=
  Option.bind_fun_some _

/-- A run splits at every point into a run to some state and a run from it. -/
theorem runFrom_append (s : σ) (as bs : List α) :
    m.runFrom s (as ++ bs) = (m.runFrom s as).bind fun t => m.runFrom t bs := by
  induction as generalizing s with
  | nil => rfl
  | cons a as ih =>
      simp only [List.cons_append, runFrom_cons, Option.bind_assoc]
      exact congrArg (Option.bind (m.step s a)) (funext fun t => ih t)

/-- A state is reachable when some run ends in it. -/
def Reachable (s : σ) : Prop := ∃ as, m.run as = some s

/-- Every step of the run from `s` is taken from a state that meets the guard. -/
def Guarded (G : σ → α → Prop) : σ → List α → Prop
  | _, [] => True
  | s, a :: as => G s a ∧ match m.step s a with
      | some t => Guarded G t as
      | none => True

@[simp] theorem guarded_nil (G : σ → α → Prop) (s : σ) : m.Guarded G s [] := trivial

theorem guarded_cons {G : σ → α → Prop} {s t : σ} {a : α} {as : List α}
    (hs : m.step s a = some t) :
    m.Guarded G s (a :: as) ↔ G s a ∧ m.Guarded G t as := by
  simp only [Guarded, hs]

instance decidableGuarded (G : σ → α → Prop) [∀ s a, Decidable (G s a)] :
    ∀ s as, Decidable (m.Guarded G s as)
  | _, [] => inferInstanceAs (Decidable True)
  | s, a :: as => by
      unfold Guarded
      exact match m.step s a with
        | some t => @instDecidableAnd _ _ _ (decidableGuarded G t as)
        | none => inferInstance

theorem guarded_append {G : σ → α → Prop} {s t : σ} {as bs : List α}
    (h : m.runFrom s as = some t) :
    m.Guarded G s (as ++ bs) ↔ m.Guarded G s as ∧ m.Guarded G t bs := by
  induction as generalizing s with
  | nil =>
      rw [runFrom_nil, Option.some.injEq] at h
      simp only [h, List.nil_append, guarded_nil, true_and]
  | cons a as ih =>
      rw [runFrom_cons, Option.bind_eq_some_iff] at h
      obtain ⟨u, hu, h⟩ := h
      rw [List.cons_append, m.guarded_cons hu, m.guarded_cons hu, ih h, and_assoc]

/-- A guard that holds everywhere restricts no run. -/
theorem guarded_of_forall {G : σ → α → Prop} (h : ∀ s a, G s a) (s : σ) (as : List α) :
    m.Guarded G s as := by
  induction as generalizing s with
  | nil => trivial
  | cons a as ih =>
      refine ⟨h s a, ?_⟩
      cases m.step s a with
      | none => trivial
      | some t => exact ih t

/-- A condition on the actions alone is a guard. -/
theorem guarded_of_mem {P : α → Prop} {as : List α} (h : ∀ a ∈ as, P a) (s : σ) :
    m.Guarded (fun _ a => P a) s as := by
  induction as generalizing s with
  | nil => trivial
  | cons a as ih =>
      refine ⟨h a List.mem_cons_self, ?_⟩
      cases m.step s a with
      | none => trivial
      | some t => exact ih (fun b hb => h b (List.mem_cons_of_mem a hb)) t

/-- A run that meets two guards meets both. -/
theorem Guarded.and {m : Machine σ α} {G H : σ → α → Prop} {s : σ} {as : List α}
    (hG : m.Guarded G s as) (hH : m.Guarded H s as) :
    m.Guarded (fun s a => G s a ∧ H s a) s as := by
  induction as generalizing s with
  | nil => trivial
  | cons a as ih =>
      refine ⟨⟨hG.1, hH.1⟩, ?_⟩
      obtain ⟨-, hG⟩ := hG
      obtain ⟨-, hH⟩ := hH
      cases hs : m.step s a with
      | none => trivial
      | some t =>
          rw [hs] at hG hH
          exact ih hG hH

/-- The property holds of every state the run from `s` passes through. -/
def Always (I : σ → Prop) : σ → List α → Prop
  | s, [] => I s
  | s, a :: as => I s ∧ match m.step s a with
      | some t => Always I t as
      | none => True

theorem always_cons {I : σ → Prop} {s t : σ} {a : α} {as : List α} (hs : m.step s a = some t) :
    m.Always I s (a :: as) ↔ I s ∧ m.Always I t as := by
  simp only [Always, hs]

section Invariants

variable {m} {I : σ → Prop} {G : σ → α → Prop}

/-- What every guarded step preserves, every guarded run preserves. -/
theorem runFrom_invariant (hstep : ∀ s a t, I s → G s a → m.step s a = some t → I t)
    {s t : σ} {as : List α} (hs : I s) (hg : m.Guarded G s as)
    (h : m.runFrom s as = some t) : I t := by
  induction as generalizing s with
  | nil =>
      rw [runFrom_nil, Option.some.injEq] at h
      exact h ▸ hs
  | cons a as ih =>
      rw [runFrom_cons, Option.bind_eq_some_iff] at h
      obtain ⟨u, hu, h⟩ := h
      obtain ⟨ha, hg⟩ := (m.guarded_cons hu).mp hg
      exact ih (hstep s a u hs ha hu) hg h

/-- Guards that an invariant makes equal guard the same runs. -/
theorem guarded_congr {H : σ → α → Prop}
    (hstep : ∀ s a t, I s → G s a → m.step s a = some t → I t)
    {H' : σ → α → Prop} (h : ∀ s a, I s → (H s a ↔ H' s a)) {s : σ} {as : List α} (hs : I s)
    (hg : m.Guarded G s as) : m.Guarded H s as ↔ m.Guarded H' s as := by
  induction as generalizing s with
  | nil => exact Iff.rfl
  | cons a as ih =>
      cases hu : m.step s a with
      | none =>
          simp only [Guarded, hu, and_true]
          exact h s a hs
      | some t =>
          obtain ⟨ha, hg⟩ := (m.guarded_cons hu).mp hg
          rw [m.guarded_cons hu, m.guarded_cons hu, h s a hs, ih (hstep s a t hs ha hu) hg]

/-- What holds at the start and is preserved by every guarded step holds after
every guarded run. -/
theorem run_invariant_of_guarded (hinit : I m.init)
    (hstep : ∀ s a t, I s → G s a → m.step s a = some t → I t)
    {s : σ} {as : List α} (hg : m.Guarded G m.init as) (h : m.run as = some s) : I s :=
  runFrom_invariant hstep hinit hg h

/-- What holds at the start and is preserved by every step holds after every run. -/
theorem run_invariant (hinit : I m.init)
    (hstep : ∀ s a t, I s → m.step s a = some t → I t)
    {s : σ} {as : List α} (h : m.run as = some s) : I s :=
  runFrom_invariant (G := fun _ _ => True) (fun s a t hs _ ht => hstep s a t hs ht) hinit
    (m.guarded_of_forall (fun _ _ => trivial) _ as) h

/-- A machine that takes the steps of another where these meet a guard has its guarded runs. -/
theorem runFrom_iff_guarded {m' : Machine σ α}
    (hstep : ∀ s a t, I s → m.step s a = some t → I t)
    (h : ∀ s a t, I s → (m'.step s a = some t ↔ G s a ∧ m.step s a = some t))
    {s t : σ} {as : List α} (hs : I s) :
    m'.runFrom s as = some t ↔ m.Guarded G s as ∧ m.runFrom s as = some t := by
  induction as generalizing s with
  | nil => simp only [runFrom_nil, guarded_nil, true_and]
  | cons a as ih =>
      simp only [runFrom_cons, Option.bind_eq_some_iff]
      constructor
      · rintro ⟨u, hu, ht⟩
        obtain ⟨ha, hu⟩ := (h s a u hs).mp hu
        obtain ⟨hg, ht⟩ := (ih (hstep s a u hs hu)).mp ht
        exact ⟨(m.guarded_cons hu).mpr ⟨ha, hg⟩, u, hu, ht⟩
      · rintro ⟨hg, u, hu, ht⟩
        obtain ⟨ha, hg⟩ := (m.guarded_cons hu).mp hg
        exact ⟨u, (h s a u hs).mpr ⟨ha, hu⟩, (ih (hstep s a u hs hu)).mpr ⟨hg, ht⟩⟩

/-- Where a step keeps a property exactly when it meets a guard, a run has the property
throughout exactly when it is guarded. -/
theorem always_iff_guarded (hstep : ∀ s a t, I s → m.step s a = some t → (I t ↔ G s a))
    {s t : σ} {as : List α} (hs : I s) (h : m.runFrom s as = some t) :
    m.Always I s as ↔ m.Guarded G s as := by
  induction as generalizing s with
  | nil => exact ⟨fun _ => trivial, fun _ => hs⟩
  | cons a as ih =>
      rw [runFrom_cons, Option.bind_eq_some_iff] at h
      obtain ⟨u, hu, h⟩ := h
      rw [m.always_cons hu, m.guarded_cons hu]
      constructor
      · rintro ⟨-, hrest⟩
        have hI : I u := by
          cases as with
          | nil => exact hrest
          | cons b bs => exact hrest.1
        exact ⟨(hstep s a u hs hu).mp hI, (ih hI h).mp hrest⟩
      · rintro ⟨ha, hg⟩
        exact ⟨hs, (ih ((hstep s a u hs hu).mpr ha) h).mpr hg⟩

end Invariants

/-! ## Outputs -/

section Outputs

variable {β : Type x} (f : σ → α → List β)

/-- What the steps of the run from `s` put out, in order. -/
def outputs : σ → List α → List β
  | _, [] => []
  | s, a :: as => f s a ++ match m.step s a with
      | some t => outputs t as
      | none => []

variable {m f} {G : σ → α → Prop} {s t : σ} {a : α} {as : List α}

theorem outputs_cons (hs : m.step s a = some t) :
    m.outputs f s (a :: as) = f s a ++ m.outputs f t as := by
  simp only [outputs, hs]

/-- What the actions put out in any state, a run of them puts out. -/
theorem outputs_eq_flatMap {f : α → List β} (h : m.runFrom s as = some t) :
    m.outputs (fun _ => f) s as = as.flatMap f := by
  induction as generalizing s with
  | nil => rfl
  | cons a as ih =>
      rw [runFrom_cons, Option.bind_eq_some_iff] at h
      obtain ⟨u, hu, h⟩ := h
      rw [outputs_cons hu, ih h, List.flatMap_cons]

/-- The outputs of a run split where the run splits. -/
theorem outputs_append (bs : List α) (h : m.runFrom s as = some t) :
    m.outputs f s (as ++ bs) = m.outputs f s as ++ m.outputs f t bs := by
  induction as generalizing s with
  | nil =>
      rw [runFrom_nil, Option.some.injEq] at h
      rw [h, List.nil_append, outputs, List.nil_append]
  | cons a as ih =>
      rw [runFrom_cons, Option.bind_eq_some_iff] at h
      obtain ⟨u, hu, h⟩ := h
      rw [List.cons_append, outputs_cons hu, outputs_cons hu, ih h, List.append_assoc]

/-- A property of the state and of the outputs so far that every guarded step keeps holds
behind every guarded run. -/
theorem runFrom_invariant_with_outputs {I : σ → List β → Prop}
    (hstep : ∀ s a t out, I s out → G s a → m.step s a = some t → I t (out ++ f s a))
    {out : List β} (hs : I s out) (hg : m.Guarded G s as) (h : m.runFrom s as = some t) :
    I t (out ++ m.outputs f s as) := by
  induction as generalizing s out with
  | nil =>
      rw [runFrom_nil, Option.some.injEq] at h
      rw [outputs, List.append_nil]
      exact h ▸ hs
  | cons a as ih =>
      rw [runFrom_cons, Option.bind_eq_some_iff] at h
      obtain ⟨u, hu, h⟩ := h
      obtain ⟨ha, hg⟩ := (m.guarded_cons hu).mp hg
      rw [outputs_cons hu, ← List.append_assoc]
      exact ih (hstep s a u out hs ha hu) hg h

/-- The same from the initial state, before which nothing was put out. -/
theorem run_invariant_with_outputs {I : σ → List β → Prop}
    (hstep : ∀ s a t out, I s out → G s a → m.step s a = some t → I t (out ++ f s a))
    (hinit : I m.init []) (hg : m.Guarded G m.init as) (h : m.run as = some t) :
    I t (m.outputs f m.init as) := by
  have hrun := m.runFrom_invariant_with_outputs hstep hinit hg h
  rwa [List.nil_append] at hrun

/-- Where an invariant lets no step put anything out, neither does a run. -/
theorem outputs_eq_nil {I : σ → Prop} (hstep : ∀ s a t, I s → m.step s a = some t → I t)
    (hnil : ∀ s a, I s → f s a = []) (hs : I s) (as : List α) : m.outputs f s as = [] := by
  induction as generalizing s with
  | nil => rfl
  | cons a as ih =>
      rw [outputs, hnil s a hs, List.nil_append]
      cases hu : m.step s a with
      | none => rfl
      | some t => exact ih (hstep s a t hs hu)

end Outputs

/-! ## Histories -/

/-- The same machine, carrying a history that no step reads. -/
def withHistory (start : γ) (record : σ → α → σ → γ → γ) : Machine (σ × γ) α where
  init := (m.init, start)
  step p a := (m.step p.1 a).map fun t => (t, record p.1 a t p.2)

variable {start : γ} {record : σ → α → σ → γ → γ}

theorem withHistory_step {p q : σ × γ} {a : α} :
    (m.withHistory start record).step p a = some q ↔
      m.step p.1 a = some q.1 ∧ q.2 = record p.1 a q.1 p.2 := by
  simp only [withHistory, Option.map_eq_some_iff]
  constructor
  · rintro ⟨t, ht, rfl⟩
    exact ⟨ht, rfl⟩
  · rintro ⟨ht, hq⟩
    exact ⟨q.1, ht, Prod.ext rfl hq.symm⟩

/-- Every guarded run of the plain machine is a run with some history. -/
theorem exists_withHistory (start : γ) (record : σ → α → σ → γ → γ) {G : σ → α → Prop}
    {s t : σ} (g : γ) {as : List α} (hg : m.Guarded G s as) (h : m.runFrom s as = some t) :
    ∃ g', (m.withHistory start record).runFrom (s, g) as = some (t, g') ∧
      (m.withHistory start record).Guarded (fun p a => G p.1 a) (s, g) as := by
  induction as generalizing s g with
  | nil =>
      rw [runFrom_nil, Option.some.injEq] at h
      exact ⟨g, by rw [h]; rfl, trivial⟩
  | cons a as ih =>
      rw [runFrom_cons, Option.bind_eq_some_iff] at h
      obtain ⟨u, hu, h⟩ := h
      obtain ⟨ha, hg⟩ := (m.guarded_cons hu).mp hg
      have hstep : (m.withHistory start record).step (s, g) a =
          some (u, record s a u g) := (m.withHistory_step).mpr ⟨hu, rfl⟩
      obtain ⟨g', hrun, hg'⟩ := ih (record s a u g) hg h
      exact ⟨g', by rw [runFrom_cons, hstep]; exact hrun,
        ((m.withHistory start record).guarded_cons hstep).mpr ⟨ha, hg'⟩⟩

/-- A law about the machine with a history is a law about every guarded run of
the plain machine, for some history. -/
theorem run_invariant_with_history (record : σ → α → σ → γ → γ) {G : σ → α → Prop}
    {I : σ → γ → Prop} (hinit : I m.init start)
    (hstep : ∀ s a t g, I s g → G s a → m.step s a = some t → I t (record s a t g))
    {s : σ} {as : List α} (hg : m.Guarded G m.init as) (h : m.run as = some s) :
    ∃ g, I s g := by
  obtain ⟨g, hrun, hg'⟩ := m.exists_withHistory start record start hg h
  refine ⟨g, runFrom_invariant (m := m.withHistory start record) (I := fun p => I p.1 p.2)
    (G := fun p a => G p.1 a) ?_ hinit hg' hrun⟩
  intro p a q hp ha hq
  obtain ⟨hq, hrec⟩ := (m.withHistory_step).mp hq
  rw [hrec]
  exact hstep p.1 a q.1 p.2 hp ha hq

/-! ## Two runs -/

section Lockstep

variable {τ : Type x} {m : Machine σ α} {m' : Machine τ α}

/-- Two machines taking every action together. -/
def lockstep (m : Machine σ α) (m' : Machine τ α) : Machine (σ × τ) α where
  init := (m.init, m'.init)
  step p a := (m.step p.1 a).bind fun s => (m'.step p.2 a).map fun t => (s, t)

theorem lockstep_step {p q : σ × τ} {a : α} :
    (m.lockstep m').step p a = some q ↔ m.step p.1 a = some q.1 ∧ m'.step p.2 a = some q.2 := by
  simp only [lockstep, Option.bind_eq_some_iff, Option.map_eq_some_iff]
  constructor
  · rintro ⟨s, hs, t, ht, rfl⟩
    exact ⟨hs, ht⟩
  · rintro ⟨hs, ht⟩
    exact ⟨q.1, hs, q.2, ht, rfl⟩

/-- Two machines run in lockstep exactly when each runs. -/
theorem lockstep_runFrom {p q : σ × τ} {as : List α} :
    (m.lockstep m').runFrom p as = some q ↔
      m.runFrom p.1 as = some q.1 ∧ m'.runFrom p.2 as = some q.2 := by
  induction as generalizing p with
  | nil => simp only [runFrom_nil, Option.some.injEq, Prod.ext_iff]
  | cons a as ih =>
      simp only [runFrom_cons, Option.bind_eq_some_iff, lockstep_step, ih]
      constructor
      · rintro ⟨r, ⟨hs, ht⟩, hs', ht'⟩
        exact ⟨⟨r.1, hs, hs'⟩, ⟨r.2, ht, ht'⟩⟩
      · rintro ⟨⟨s, hs, hs'⟩, ⟨t, ht, ht'⟩⟩
        exact ⟨(s, t), ⟨hs, ht⟩, hs', ht'⟩

/-- What every guarded step of both preserves, every guarded run of both preserves. -/
theorem lockstep_invariant {I : σ → τ → Prop} {G : σ → τ → α → Prop} (hinit : I m.init m'.init)
    (hstep : ∀ s t a s' t', I s t → G s t a → m.step s a = some s' → m'.step t a = some t' →
      I s' t')
    {s : σ} {t : τ} {as : List α}
    (hg : (m.lockstep m').Guarded (fun p => G p.1 p.2) (m.lockstep m').init as)
    (hs : m.run as = some s) (ht : m'.run as = some t) : I s t := by
  refine run_invariant_of_guarded (m := m.lockstep m') (I := fun p => I p.1 p.2)
    (s := (s, t)) hinit ?_ hg (lockstep_runFrom.mpr ⟨hs, ht⟩)
  intro p a q hp ha hq
  obtain ⟨hs, ht⟩ := lockstep_step.mp hq
  exact hstep p.1 p.2 a q.1 q.2 hp ha hs ht

end Lockstep

/-! ## Simulations -/

section Simulations

variable {τ : Type x} {β : Type y} {m : Machine σ α} {m' : Machine τ β} {R : σ → τ → Prop}

/-- Where every step of a machine is matched by a run of another, so is every run. -/
theorem exists_runFrom_of_simulation
    (hstep : ∀ s a t u, R s u → m.step s a = some t → ∃ bs v, m'.runFrom u bs = some v ∧ R t v)
    {s t : σ} {u : τ} {as : List α} (hR : R s u) (h : m.runFrom s as = some t) :
    ∃ bs v, m'.runFrom u bs = some v ∧ R t v := by
  induction as generalizing s u with
  | nil =>
      rw [runFrom_nil, Option.some.injEq] at h
      exact ⟨[], u, rfl, h ▸ hR⟩
  | cons a as ih =>
      rw [runFrom_cons, Option.bind_eq_some_iff] at h
      obtain ⟨s', hs', h⟩ := h
      obtain ⟨bs, u', hbs, hR'⟩ := hstep s a s' u hR hs'
      obtain ⟨cs, v, hcs, hv⟩ := ih hR' h
      exact ⟨bs ++ cs, v, by rw [runFrom_append, hbs, Option.bind_some, hcs], hv⟩

end Simulations

/-! ## Components -/

section Components

variable {τ : Type x} {β : Type y} {m : Machine σ α} {m' : Machine τ β} {view : σ → τ}
  {part : σ → α → List β}

/-- Where every step of a machine is a run of its component, so is every run. -/
theorem runFrom_component
    (hstep : ∀ s a t, m.step s a = some t → m'.runFrom (view s) (part s a) = some (view t))
    {s t : σ} {as : List α} (h : m.runFrom s as = some t) :
    m'.runFrom (view s) (m.outputs part s as) = some (view t) := by
  induction as generalizing s with
  | nil =>
      rw [runFrom_nil, Option.some.injEq] at h
      rw [h]
      rfl
  | cons a as ih =>
      rw [runFrom_cons, Option.bind_eq_some_iff] at h
      obtain ⟨u, hu, h⟩ := h
      rw [outputs_cons hu, runFrom_append, hstep s a u hu, Option.bind_some]
      exact ih h

/-- What a component puts out in a run is what it puts out in the steps of the machine. -/
theorem outputs_component {δ : Type z} {f : τ → β → List δ}
    (hstep : ∀ s a t, m.step s a = some t → m'.runFrom (view s) (part s a) = some (view t))
    {s t : σ} {as : List α} (h : m.runFrom s as = some t) :
    m'.outputs f (view s) (m.outputs part s as) =
      m.outputs (fun s a => m'.outputs f (view s) (part s a)) s as := by
  induction as generalizing s with
  | nil => rfl
  | cons a as ih =>
      rw [runFrom_cons, Option.bind_eq_some_iff] at h
      obtain ⟨u, hu, h⟩ := h
      rw [outputs_cons hu, outputs_cons hu, outputs_append _ (hstep s a u hu), ih h]

end Components

end Machine

end Tckr
