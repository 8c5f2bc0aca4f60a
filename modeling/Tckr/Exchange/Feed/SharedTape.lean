import Tckr.Exchange.Feed.Exchange

/-!
# One tape for all consumers

The publishing thread offers every session in the roster the same batches in the same
order, from the first one that finds the session started to the last one whose roster
held it. So the numbers of one consumer and those of another differ by a constant, and
whatever two consumers receive of the same place of the published stream is the same
record, however differently they lag, lose records, come and go.
-/

namespace Tckr.Feed

open Protocol

/-! ## The roster -/

namespace FeedServer

variable {o : AdmissionOptions} {s t : FeedServer} {c : Nat}

/-- A session enters the roster in `Admit` only. -/
theorem mem_sessions_of_step {a : Action} (h : s.step o a = some t) (hc : c ∈ t.sessions) :
    c ∈ s.sessions ∨ s.acceptLoop = .rostering c := by
  cases a with
  | admitStep =>
    cases hl : s.acceptLoop with
    | rostering d =>
      simp only [step, admitStep, hl, Option.some.injEq] at h
      subst h
      unfold admitToRoster at hc
      split at hc
      · exact .inl hc
      · rcases List.mem_append.mp hc with hc | hc
        · exact .inl hc
        · rw [List.mem_singleton.mp hc]
          exact .inr rfl
    | dropping d =>
      simp only [step, admitStep, hl, Option.ite_none_left_eq_some, Option.some.injEq] at h
      obtain ⟨-, rfl⟩ := h
      exact .inl hc
    | listening | ended => simp only [step, admitStep, hl, reduceCtorEq] at h
    | _ =>
      simp only [step, admitStep, hl, Option.some.injEq] at h
      subst h
      exact .inl hc
  | throws =>
    cases hl : s.acceptLoop <;> simp only [step, throws, hl, Option.some.injEq, reduceCtorEq] at h
    all_goals
      subst h
      exact .inl hc
  | removeSession d =>
    obtain ⟨-, h⟩ := Option.ite_none_right_eq_some.mp h
    cases h
    unfold removeSession at hc
    split at hc
    · exact .inl (List.mem_of_mem_erase hc)
    · exact .inl hc
  | takeRoster =>
    obtain ⟨-, h⟩ := Option.ite_none_right_eq_some.mp h
    cases h
    exact absurd hc List.not_mem_nil
  | stop =>
    cases h
    exact .inl hc
  | accept | finish | releaseSlot | countClosed | cancel | endAccepting =>
    obtain ⟨-, h⟩ := Option.ite_none_right_eq_some.mp h
    cases h
    exact .inl hc

/-- A session counted as accepted stays counted. -/
theorem mem_accepted_of_step {a : Action} (h : s.step o a = some t) (hc : c ∈ s.accepted) :
    c ∈ t.accepted := by
  cases a with
  | admitStep =>
    cases hl : s.acceptLoop with
    | rostering d =>
      simp only [step, admitStep, hl, Option.some.injEq] at h
      subst h
      unfold admitToRoster
      split <;> exact hc
    | accepting d =>
      simp only [step, admitStep, hl, Option.some.injEq] at h
      subst h
      exact List.mem_cons_of_mem d hc
    | dropping d =>
      simp only [step, admitStep, hl, Option.ite_none_left_eq_some, Option.some.injEq] at h
      obtain ⟨-, rfl⟩ := h
      exact hc
    | listening | ended => simp only [step, admitStep, hl, reduceCtorEq] at h
    | _ =>
      simp only [step, admitStep, hl, Option.some.injEq] at h
      subst h
      exact hc
  | throws =>
    cases hl : s.acceptLoop <;> simp only [step, throws, hl, Option.some.injEq, reduceCtorEq] at h
    all_goals
      subst h
      exact hc
  | removeSession d =>
    obtain ⟨-, h⟩ := Option.ite_none_right_eq_some.mp h
    cases h
    unfold removeSession
    split <;> exact hc
  | stop =>
    cases h
    exact hc
  | accept | finish | releaseSlot | countClosed | cancel | endAccepting | takeRoster =>
    obtain ⟨-, h⟩ := Option.ite_none_right_eq_some.mp h
    cases h
    exact hc

namespace Accounted

/-- No session is in the roster twice. -/
theorem nodup_sessions (h : Accounted o s) : s.sessions.Nodup := by
  refine List.nodup_iff_count_le_one.mpr fun c => ?_
  have hslots := (h.balanced c).slots
  have htaken := h.count_taken_le_one c
  omega

/-- A session about to be started is counted as accepted. -/
theorem accepted_of_starting (h : Accounted o s) (hl : s.acceptLoop = .starting c) :
    c ∈ s.accepted := by
  have hledger := (h.balanced c).ledger
  rw [hl] at hledger
  simp only [AcceptLoop.unstarted, List.count_singleton_self] at hledger
  exact List.count_pos_iff.mp (by omega)

/-- A session counted as accepted is past the roster. -/
theorem not_rostering (h : Accounted o s) (hc : c ∈ s.accepted) :
    s.acceptLoop ≠ .rostering c := by
  intro hl
  have hdecided := h.decided_le_one c
  have hpos := List.count_pos_iff.mpr hc
  rw [hl] at hdecided
  simp only [AcceptLoop.undecided, List.count_singleton_self] at hdecided
  omega

/-- A session counted as accepted enters the roster no more. -/
theorem mem_sessions_of_accepted (h : Accounted o s) {a : Action} (hstep : s.step o a = some t)
    (haccepted : c ∈ s.accepted) (hc : c ∈ t.sessions) : c ∈ s.sessions :=
  (mem_sessions_of_step hstep hc).resolve_right (h.not_rostering haccepted)

end Accounted

end FeedServer

/-! ## One session -/

namespace Session

variable {o : FeedServerOptions} {sessionId : Guid} {s t : Session}

/-- Only `Start` starts a session, and none is started back. -/
theorem started_of_step {a : Action} (h : s.step o sessionId a = some t) :
    t.started = s.started ∨ ∃ startNanos, a = .owner (.start startNanos) ∧ s.started = false := by
  cases a with
  | publisher a =>
    refine .inl ?_
    cases publisherStep_cases h with
    | published => exact (flushBatch_sameTape o _ _).started
    | closedFaulted => exact (beginClose_sameTape _ s).started
    | _ => rfl
  | handler a => exact .inl (handlerStep_sameTape h).started
  | writeLoop a =>
    cases writeLoopStep_cases h <;> exact .inl rfl
  | owner a =>
    cases ownerStep_cases h with
    | started hnew => exact .inr ⟨_, rfl, hnew⟩
    | closed => exact .inl (beginClose_sameTape _ s).started
    | timer | tornDown => exact .inl rfl

/-- A party other than the publishing thread leaves it where it stands. -/
theorem publisher_of_step {a : Action} (h : s.step o sessionId a = some t)
    (ha : ∀ b, a ≠ .publisher b) : t.publisher = s.publisher := by
  cases a with
  | publisher a => exact absurd rfl (ha a)
  | handler a => exact (handlerStep_sameTape h).publisher
  | writeLoop a => cases writeLoopStep_cases h <;> rfl
  | owner a =>
    cases ownerStep_cases h with
    | closed => exact (beginClose_sameTape _ s).publisher
    | started | timer | tornDown => rfl

end Session

/-! ## One step of the exchange -/

namespace Publication

/-- The batches that a session still waits for. -/
def due (p : Publication) (c : Nat) : List (List FeedRecord) :=
  if c ∈ p.rest then p.batch?.toList else []

@[simp] theorem rest_reach (p : Publication) (count : Nat) : (p.reach count).rest = p.rest := by
  cases p <;> rfl

@[simp] theorem batch?_reach (p : Publication) (count : Nat) :
    (p.reach count).batch? = p.batch? := by
  cases p <;> rfl

@[simp] theorem callee?_reach (p : Publication) (count : Nat) :
    (p.reach count).callee? = p.callee? := by
  cases p <;> rfl

@[simp] theorem due_reach (p : Publication) (count : Nat) (c : Nat) :
    (p.reach count).due c = p.due c := by
  simp [due]

theorem due_congr {p q : Publication} {c : Nat} (hbatch : p.batch? = q.batch?)
    (hrest : c ∈ p.rest ↔ c ∈ q.rest) : p.due c = q.due c :=
  if_congr hrest (congrArg Option.toList hbatch) rfl

theorem due_of_not_mem {p : Publication} {c : Nat} (hc : c ∉ p.rest) : p.due c = [] := if_neg hc

end Publication

namespace Exchange

/-- What a step of the exchange can do. -/
inductive Step (k : ExchangeConfig) (e : Exchange) : Action → Exchange → Prop
  | server {a t} (hadmits : e.admits a = true) (hstep : e.server.step k.admission a = some t) :
      Step k e (.server a) { e with server := t }
  | session {c a t} (hpermits : e.permits c a = true)
      (hstep : (e.session c).step k.feed (k.sessionId c) a = some t) :
      Step k e (.session c a) { e with
        session := Function.update e.session c t
        publication := e.publication.reach (if (e.session c).accepted a = [] then 0 else 1) }
  | published {batch} (hpub : e.publication = .idle) :
      Step k e (.publish batch) { e with
        published := e.published ++ [batch]
        publication := .visiting batch (if batch = [] then [] else e.server.sessions) 0 }
  | visited {batch c rest reached t} (hpub : e.publication = .visiting batch (c :: rest) reached)
      (hstep : (e.session c).step k.feed (k.sessionId c) (.publisher (.tryPublish batch)) =
        some t) :
      Step k e .visit { e with
        session := Function.update e.session c t
        publication := .calling batch c rest reached }
  | returned {batch c rest reached} (hpub : e.publication = .calling batch c rest reached)
      (hidle : (e.session c).publisher = .idle) :
      Step k e .finish { e with publication := .visiting batch rest reached }
  | finished {batch reached} (hpub : e.publication = .visiting batch [] reached) :
      Step k e .finish { e with publication := .idle, reached := e.reached ++ [reached] }

variable {k : ExchangeConfig} {e f : Exchange}

theorem step_cases {a : Action} (h : e.step k a = some f) : Step k e a f := by
  cases a with
  | server a =>
    obtain ⟨hadmits, h⟩ := Option.ite_none_right_eq_some.mp h
    obtain ⟨t, ht, rfl⟩ := Option.map_eq_some_iff.mp h
    exact .server hadmits ht
  | session c a =>
    obtain ⟨hpermits, h⟩ := Option.ite_none_right_eq_some.mp h
    obtain ⟨t, ht, rfl⟩ := Option.map_eq_some_iff.mp h
    exact .session hpermits ht
  | publish batch =>
    dsimp only [step] at h
    split at h <;> cases h
    rename_i hpub
    exact .published hpub
  | visit =>
    dsimp only [step] at h
    split at h
    · rename_i hpub
      obtain ⟨t, ht, rfl⟩ := Option.map_eq_some_iff.mp h
      exact .visited hpub ht
    · cases h
  | finish =>
    dsimp only [step] at h
    split at h
    · rename_i hpub
      obtain ⟨hidle, h⟩ := Option.ite_none_right_eq_some.mp h
      cases h
      exact .returned hpub hidle
    · rename_i hpub
      cases h
      exact .finished hpub
    · cases h

/-- A step of the exchange is a step of a session, or leaves the session alone. -/
theorem session_component (c : Nat) {a : Action} (h : (exchange k).step e a = some f) :
    (feedSession k.feed (k.sessionId c)).runFrom (e.session c) (part c e a) =
      some (f.session c) := by
  cases step_cases h with
  | server | published | returned | finished => rfl
  | @session d a t _ hstep =>
    by_cases hd : d = c
    · subst hd
      simp only [part, if_pos, Machine.runFrom_cons, Machine.runFrom_nil, Function.update_self]
      exact (Option.bind_eq_some_iff).mpr ⟨t, hstep, rfl⟩
    · simp only [part, if_neg hd, Machine.runFrom_nil, Function.update_of_ne (Ne.symm hd)]
  | @visited batch d rest reached t hpub hstep =>
    by_cases hd : d = c
    · subst hd
      simp only [part, hpub, if_pos, Machine.runFrom_cons, Machine.runFrom_nil,
        Function.update_self]
      exact (Option.bind_eq_some_iff).mpr ⟨t, hstep, rfl⟩
    · simp only [part, hpub, if_neg hd, Machine.runFrom_nil, Function.update_of_ne (Ne.symm hd)]

/-- The server's roster is in order, the publishing thread is in one call at a time, and the
batch under way was published last. -/
structure Orderly (k : ExchangeConfig) (e : Exchange) : Prop where
  accounted : FeedServer.Accounted k.admission e.server
  distinct : e.publication.rest.Nodup
  last : ∀ batch ∈ e.publication.batch?, ∃ earlier, e.published = earlier ++ [batch]
  inCall : ∀ c, (e.session c).publisher ≠ .idle → e.publication.callee? = some c

namespace Orderly

variable {k : ExchangeConfig} {e f : Exchange}

theorem init : Orderly k {} where
  accounted := .init
  distinct := List.nodup_nil
  last _ hb := absurd hb (Option.not_mem_none _)
  inCall _ hpc := absurd rfl hpc

/-- A session outside the call under way is between calls. -/
theorem publisher_idle (h : Orderly k e) {c : Nat} (hc : e.publication.callee? ≠ some c) :
    (e.session c).publisher = .idle :=
  not_not.mp fun hpc => hc (h.inCall c hpc)

theorem step (h : Orderly k e) {a : Action} (hstep : e.step k a = some f) : Orderly k f := by
  cases step_cases hstep with
  | server _ hserver => exact { h with accounted := h.accounted.step hserver }
  | @session c a t hpermits hsession =>
    refine ⟨h.accounted, by simpa using h.distinct, by simpa using h.last, fun d hd => ?_⟩
    rw [Publication.callee?_reach]
    dsimp only at hd
    by_cases hdc : d = c
    · subst hdc
      rw [Function.update_self] at hd
      by_cases hpublisher : ∃ b, a = .publisher b
      · obtain ⟨b, rfl⟩ := hpublisher
        cases b <;> simp_all [permits]
      · rw [not_exists] at hpublisher
        rw [Session.publisher_of_step hsession hpublisher] at hd
        exact h.inCall d hd
    · rw [Function.update_of_ne hdc] at hd
      exact h.inCall d hd
  | @published batch hpub =>
    refine ⟨h.accounted, ?_, fun b hb => ?_, fun c hc => ?_⟩
    · dsimp only [Publication.rest]
      split
      · exact List.nodup_nil
      · exact h.accounted.nodup_sessions
    · rw [Publication.batch?, Option.mem_some] at hb
      exact ⟨e.published, by rw [hb]⟩
    · exact absurd (h.publisher_idle (by rw [hpub]; exact nofun)) hc
  | @visited batch c rest reached t hpub =>
    have hdistinct := h.distinct
    have hlast := h.last
    rw [hpub] at hdistinct hlast
    refine ⟨h.accounted, (List.nodup_cons.mp hdistinct).2, hlast, fun d hd => ?_⟩
    by_cases hdc : d = c
    · rw [hdc]
      rfl
    · dsimp only at hd
      rw [Function.update_of_ne hdc] at hd
      exact absurd (h.publisher_idle (by rw [hpub]; exact nofun)) hd
  | @returned batch c rest reached hpub hidle =>
    have hdistinct := h.distinct
    have hlast := h.last
    rw [hpub] at hdistinct hlast
    refine ⟨h.accounted, hdistinct, hlast, fun d hd => ?_⟩
    have hcallee := h.inCall d hd
    rw [hpub, Publication.callee?, Option.some.injEq] at hcallee
    exact absurd (hcallee ▸ hidle) hd
  | @finished batch reached hpub =>
    refine ⟨h.accounted, List.nodup_nil, fun _ hb => absurd hb (Option.not_mem_none _),
      fun c hc => ?_⟩
    exact absurd (h.publisher_idle (by rw [hpub]; exact nofun)) hc

end Orderly

/-! ## What one session is offered -/

/-- A session is offered what is published between its start and its end, from the batch it
waited for when it started. -/
structure Offered (e : Exchange) (c : Nat) (called : List FeedRecord) : Prop where
  unstarted : (e.session c).started = false → called = []
  accepted : (e.session c).started = true → c ∈ e.server.accepted
  window : (e.session c).started = true → ∃ before middle after,
    e.published = before ++ middle ++ after ∧ middle.flatten = called ∧
      (c ∈ e.server.sessions ∨ c ∈ e.publication.rest → after = e.publication.due c)

/-- The records that a step of the exchange offers to a session. -/
def offers (k : ExchangeConfig) (c : Nat) (e : Exchange) (a : Action) : List FeedRecord :=
  (feedSession k.feed (k.sessionId c)).outputs Session.called (e.session c) (part c e a)

/-- The parties of a session other than the publishing thread offer it nothing. -/
theorem offers_session {k : ExchangeConfig} {e : Exchange} {c d : Nat} {a : Session.Action}
    (h : e.permits d a = true) : offers k c e (.session d a) = [] := by
  by_cases hd : d = c
  · simp only [offers, part, if_pos hd, Machine.outputs]
    have hcalled : (e.session c).called a = [] := by
      cases a with
      | publisher a => cases a <;> simp_all [permits, Session.called]
      | _ => rfl
    rw [hcalled]
    cases (feedSession k.feed (k.sessionId c)).step (e.session c) a <;> rfl
  · simp only [offers, part, if_neg hd]
    rfl

namespace Offered

variable {k : ExchangeConfig} {e f : Exchange} {c : Nat} {called : List FeedRecord}

theorem init : Offered {} c [] where
  unstarted _ := rfl
  accepted h := by cases h
  window h := by cases h

/-- A step that leaves the session's start and the published batches alone, and its wait no
longer than it was. -/
theorem of_same (h : Offered e c called) (hstarted : (f.session c).started = (e.session c).started)
    (haccepted : c ∈ e.server.accepted → c ∈ f.server.accepted)
    (hpublished : f.published = e.published) (hdue : f.publication.due c = e.publication.due c)
    (hwaits : c ∈ e.server.accepted → c ∈ f.server.sessions ∨ c ∈ f.publication.rest →
      c ∈ e.server.sessions ∨ c ∈ e.publication.rest) : Offered f c called where
  unstarted hf := h.unstarted (hstarted ▸ hf)
  accepted hf := haccepted (h.accepted (hstarted ▸ hf))
  window hf := by
    have he : (e.session c).started = true := hstarted ▸ hf
    obtain ⟨before, middle, after, hsplit, hcalled, hafter⟩ := h.window he
    refine ⟨before, middle, after, by rw [hpublished, hsplit], hcalled, fun hin => ?_⟩
    rw [hdue]
    exact hafter (hwaits (h.accepted he) hin)

/-- A session starts with the batch it waits for, or behind everything published. -/
theorem start (h : Offered e c called) (horderly : Orderly k e)
    (hunstarted : (e.session c).started = false) (haccepted : c ∈ e.server.accepted)
    (hserver : f.server = e.server) (hpublished : f.published = e.published)
    (hdue : f.publication.due c = e.publication.due c) : Offered f c called where
  unstarted _ := h.unstarted hunstarted
  accepted _ := by rwa [hserver]
  window _ := by
    rw [h.unstarted hunstarted, hpublished, hdue]
    by_cases hc : c ∈ e.publication.rest
    · obtain ⟨batch, hbatch⟩ : ∃ batch, batch ∈ e.publication.batch? := by
        cases hp : e.publication with
        | idle =>
          rw [hp] at hc
          exact absurd hc List.not_mem_nil
        | visiting batch | calling batch => exact ⟨batch, rfl⟩
      obtain ⟨earlier, hlast⟩ := horderly.last batch hbatch
      refine ⟨earlier, [], [batch], by rw [hlast, List.append_nil], rfl, fun _ => ?_⟩
      rw [Publication.due, if_pos hc, Option.mem_def.mp hbatch]
      rfl
    · exact ⟨e.published, [], [], by simp, rfl, fun _ => (Publication.due_of_not_mem hc).symm⟩

/-- A batch is published to those in the roster. -/
theorem publish (h : Offered e c called) (batch : List FeedRecord)
    (hpub : e.publication = .idle) : Offered { e with
      published := e.published ++ [batch]
      publication := .visiting batch (if batch = [] then [] else e.server.sessions) 0 } c
      called where
  unstarted := h.unstarted
  accepted := h.accepted
  window hf := by
    obtain ⟨before, middle, after, hsplit, hcalled, hafter⟩ := h.window hf
    have hrest : c ∉ e.publication.rest := by
      rw [hpub]
      exact List.not_mem_nil
    rw [Publication.due_of_not_mem hrest] at hafter
    dsimp only
    rw [hsplit]
    by_cases hc : c ∈ e.server.sessions
    · obtain rfl := hafter (.inl hc)
      by_cases hbatch : batch = []
      · -- An empty batch reaches nobody, and nobody misses it.
        subst hbatch
        exact ⟨before, middle ++ [[]], [], by simp, by simp [hcalled], fun _ => by
          simp [Publication.due, Publication.rest]⟩
      · exact ⟨before, middle, [batch], by simp, hcalled, fun _ => by
          simp [Publication.due, Publication.rest, Publication.batch?, hbatch, hc]⟩
    · refine ⟨before, middle, after ++ [batch], by simp, hcalled, fun hin => ?_⟩
      rcases hin with hin | hin
      · exact absurd hin hc
      · rw [Publication.rest] at hin
        split at hin
        · exact absurd hin List.not_mem_nil
        · exact absurd hin hc

/-- The session whose turn it is gets the batch. -/
theorem visit (h : Offered e c called) (horderly : Orderly k e) {batch : List FeedRecord}
    {rest : List Nat} {reached : Nat} (hpub : e.publication = .visiting batch (c :: rest) reached)
    (hstarted : (f.session c).started = (e.session c).started) (hserver : f.server = e.server)
    (hpublished : f.published = e.published)
    (hcalling : f.publication = .calling batch c rest reached) :
    Offered f c (called ++ (e.session c).called (.publisher (.tryPublish batch))) where
  unstarted hf := by
    rw [hstarted] at hf
    simp [h.unstarted hf, Session.called, hf]
  accepted hf := by
    rw [hstarted] at hf
    rw [hserver]
    exact h.accepted hf
  window hf := by
    rw [hstarted] at hf
    obtain ⟨before, middle, after, hsplit, hcalled, hafter⟩ := h.window hf
    have hdistinct := horderly.distinct
    rw [hpub] at hdistinct hafter
    obtain rfl : after = [batch] :=
      (hafter (.inr List.mem_cons_self)).trans (if_pos List.mem_cons_self)
    refine ⟨before, middle ++ [batch], [], by simp [hpublished, hsplit], ?_, fun _ => ?_⟩
    · simp [hcalled, Session.called, hf]
    · rw [hcalling]
      exact (Publication.due_of_not_mem (List.nodup_cons.mp hdistinct).1).symm

theorem step (h : Offered e c called) (horderly : Orderly k e) {a : Action}
    (hstep : e.step k a = some f) : Offered f c (called ++ offers k c e a) := by
  have hnone : called ++ [] = called := List.append_nil called
  cases step_cases hstep with
  | server _ hserver =>
    rw [show offers k c e (.server _) = [] from rfl, hnone]
    exact h.of_same rfl (FeedServer.mem_accepted_of_step hserver) rfl rfl fun haccepted hin =>
      hin.imp_left (horderly.accounted.mem_sessions_of_accepted hserver haccepted)
  | @session d a t hpermits hsession =>
    rw [offers_session hpermits, hnone]
    by_cases hd : d = c
    · subst hd
      rcases Session.started_of_step hsession with hstarted | ⟨startNanos, rfl, hstarted⟩
      · exact h.of_same (by simpa using hstarted) id rfl (by simp) fun _ hin => by simpa using hin
      · have hstarting : e.server.acceptLoop = .starting d := of_decide_eq_true hpermits
        exact h.start horderly hstarted (horderly.accounted.accepted_of_starting hstarting) rfl rfl
          (by simp)
    · exact h.of_same (by simp [Function.update_of_ne (Ne.symm hd)]) id rfl (by simp)
        fun _ hin => by simpa using hin
  | published hpub =>
    rw [show offers k c e (.publish _) = [] from rfl, hnone]
    exact h.publish _ hpub
  | @visited batch d rest reached t hpub hsession =>
    by_cases hd : d = c
    · subst hd
      have hcall : (feedSession k.feed (k.sessionId d)).step (e.session d)
          (.publisher (.tryPublish batch)) = some t := hsession
      have hoffers : offers k d e .visit =
          (e.session d).called (.publisher (.tryPublish batch)) := by
        simp only [offers, part, hpub, if_pos]
        rw [Machine.outputs_cons hcall, Machine.outputs, List.append_nil]
      rw [hoffers]
      refine h.visit horderly hpub ?_ rfl rfl rfl
      rcases Session.started_of_step hsession with hstarted | ⟨_, hstart, -⟩
      · simpa using hstarted
      · cases hstart
    · have hoffers : offers k c e .visit = [] := by
        simp only [offers, part, hpub, if_neg hd]
        rfl
      rw [hoffers, hnone]
      refine h.of_same (by simp [Function.update_of_ne (Ne.symm hd)]) id rfl ?_ fun _ hin => ?_
      · exact Publication.due_congr (by rw [hpub]; rfl)
          (by simp [Publication.rest, hpub, Ne.symm hd])
      · rw [hpub]
        exact hin.imp_right (List.mem_cons_of_mem d)
  | returned hpub =>
    rw [show offers k c e .finish = [] from rfl, hnone]
    refine h.of_same rfl id rfl (by rw [hpub]; rfl) fun _ hin => ?_
    rw [hpub]
    exact hin
  | finished hpub =>
    rw [show offers k c e .finish = [] from rfl, hnone]
    refine h.of_same rfl id rfl (by rw [hpub]; rfl) fun _ hin => ?_
    rw [hpub]
    exact hin

end Offered

/-- Every run leaves the exchange orderly, and each session with the records it was called
with. -/
theorem exists_offered {k : ExchangeConfig} {e : Exchange} {as : List Action}
    (h : (exchange k).run as = some e) (c : Nat) :
    Orderly k e ∧ Offered e c (calls k.feed (k.sessionId c) (sessionRun k as c)) := by
  have hinvariant := Machine.run_invariant_with_outputs (m := exchange k)
    (f := offers k c) (G := fun _ _ => True)
    (I := fun e called => Orderly k e ∧ Offered e c called)
    (fun _ _ _ _ ⟨horderly, hoffered⟩ _ hstep =>
      ⟨horderly.step hstep, hoffered.step horderly hstep⟩)
    ⟨.init, .init⟩ ((exchange k).guarded_of_forall (fun _ _ => trivial) _ as) h
  have hcomponent : calls k.feed (k.sessionId c) (sessionRun k as c) =
      (exchange k).outputs (offers k c) {} as :=
    Machine.outputs_component (f := Session.called) (fun _ _ _ => session_component c) h
  rwa [hcomponent]

/-- What one consumer is sent are records of the published stream, each where its number says,
counted from the consumer's start; and while the consumer is served, its numbering is in step
with the stream. -/
theorem exists_start {k : ExchangeConfig} {e : Exchange} {as : List Action}
    (h : (exchange k).run as = some e) (c : Nat) : ∃ start : Nat,
      (∃ sent : List (Nat × FeedRecord), (e.session c).sentTicks = sent.map numberedPayload ∧
        Excerpt e.published.flatten (sent.map fun x => (start + x.1, x.2))) ∧
      (e.publication = .idle → c ∈ e.server.sessions → (e.session c).started = true →
        (e.session c).state ≠ .closing →
        start + (e.session c).nextSequence = e.published.flatten.length + 1) := by
  obtain ⟨horderly, hoffered⟩ := exists_offered h c
  have hsession : (feedSession k.feed (k.sessionId c)).run (sessionRun k as c) =
      some (e.session c) := Machine.runFrom_component (fun _ _ _ => session_component c) h
  obtain ⟨L, hk, hn, hf⟩ := exists_faithful hsession
  obtain ⟨sent, hsent, hexcerpt, -⟩ := hf.exists_sent hk hn
  by_cases hstarted : (e.session c).started = true
  · obtain ⟨before, middle, after, hsplit, hcalled, hafter⟩ := hoffered.window hstarted
    have hstream : e.published.flatten = before.flatten ++
        (calls k.feed (k.sessionId c) (sessionRun k as c) ++ after.flatten) := by
      rw [hsplit, ← hcalled, List.flatten_append, List.flatten_append, List.append_assoc]
    refine ⟨before.flatten.length, ⟨sent, hsent, ?_⟩, fun hidle hc _ hopen => ?_⟩
    · rw [hstream]
      exact (hexcerpt.append after.flatten).prepend before.flatten
    · obtain ⟨numbered, rest, hall, hlength, hawaits⟩ := hf.next hopen
      have hbetween : (e.session c).publisher = .idle :=
        horderly.publisher_idle (by rw [hidle]; exact nofun)
      rw [hbetween] at hawaits
      obtain rfl : rest = [] := hawaits
      obtain rfl : after = [] := by
        rw [hafter (.inl hc), hidle]
        rfl
      rw [hstream, hall]
      simp only [List.append_nil, List.flatten_nil, List.length_append]
      omega
  · have hnone := hoffered.unstarted (Bool.eq_false_iff.mpr hstarted)
    rw [hnone] at hexcerpt
    refine ⟨0, ⟨sent, hsent, ?_⟩, fun _ _ hs => absurd hs hstarted⟩
    simpa using hexcerpt.append e.published.flatten

end Exchange

/-- Every consumer of an exchange holds one and the same published stream: what it is sent are
records of the stream, each where its number, displaced by a constant of the consumer, says.
While a consumer is served, the next number it gives stands for the next record to be
published. -/
theorem one_tape (k : ExchangeConfig) {e : Exchange} (as : List Exchange.Action)
    (hrun : (exchange k).run as = some e) :
    ∃ start : Nat → Nat, ∀ c,
      (∃ sent : List (Nat × FeedRecord), (e.session c).sentTicks = sent.map numberedPayload ∧
        Excerpt e.published.flatten (sent.map fun x => (start c + x.1, x.2))) ∧
      (e.publication = .idle → c ∈ e.server.sessions → (e.session c).started = true →
        (e.session c).state ≠ .closing →
        start c + (e.session c).nextSequence = e.published.flatten.length + 1) := by
  choose start hstart using Exchange.exists_start hrun
  exact ⟨start, hstart⟩

/-- Room for two consumers. -/
def smallExchange : ExchangeConfig := ⟨⟨2, by decide⟩, smallBuffer .disconnect, fun _ => default⟩

/-- A higher trade in COMI. -/
def comiUptick : FeedRecord := { comiTrade with priceScaled := 852000 }

/-- A consumer connects, is admitted and gets its first frame. -/
def joining (c : Nat) : List Exchange.Action :=
  .server .accept :: .replicate 5 (.server .admitStep) ++ [.session c (.owner (.start 0))] ++
    .replicate 2 (.server .admitStep) ++ .session c (.writeLoop .run) ::
    (sending 36).map (.session c)

/-- The sessions called all queue the batch. -/
def visiting (cs : List Nat) : List Exchange.Action :=
  cs.flatMap (fun c => [.visit, .session c (.publisher .readState),
    .session c (.publisher .enterGate), .finish]) ++ [.finish]

/-- A batch is published to sessions that all queue it. -/
def broadcast (batch : List FeedRecord) (cs : List Nat) : List Exchange.Action :=
  .publish batch :: visiting cs

/-- A second consumer joins between two trades. -/
def lateConsumer : List Exchange.Action :=
  joining 0 ++ broadcast [comiTrade] [0] ++ joining 1 ++ broadcast [comiUptick] [0, 1] ++
    (sending 88).map (.session 0) ++ (sending 44).map (.session 1)

def lateExchange : Exchange := ((exchange smallExchange).run lateConsumer).getD {}

/-- What is the second record to the one is the first to the other. -/
theorem one_tape_lateConsumer :
    (lateExchange.session 0).sentTicks =
        [numberedPayload (1, comiTrade), numberedPayload (2, comiUptick)] ∧
      (lateExchange.session 1).sentTicks = [numberedPayload (1, comiUptick)] ∧
      lateExchange.reached = [1, 2] ∧
      ∃ start : Nat → Nat, ∀ c,
        (∃ sent : List (Nat × FeedRecord),
          (lateExchange.session c).sentTicks = sent.map numberedPayload ∧
          Excerpt lateExchange.published.flatten (sent.map fun x => (start c + x.1, x.2))) ∧
        (lateExchange.publication = .idle → c ∈ lateExchange.server.sessions →
          (lateExchange.session c).started = true → (lateExchange.session c).state ≠ .closing →
          start c + (lateExchange.session c).nextSequence =
            lateExchange.published.flatten.length + 1) := by
  have hruns : ((exchange smallExchange).run lateConsumer).isSome = true := by decide +kernel
  have hrun : (exchange smallExchange).run lateConsumer = some lateExchange := by
    rw [lateExchange, ← Option.get_eq_getD _ (h := hruns), Option.some_get]
  exact ⟨by decide +kernel, by decide +kernel, by decide +kernel,
    one_tape smallExchange lateConsumer hrun⟩

end Tckr.Feed
