import Tckr.Exchange.Feed.Server

/-!
# Admission

Every connection is accounted for at one place: before its slot, in `Admit`, in the
roster, in a call of `OnSessionClosed`, or done. Each step moves one connection from
one place to the next, so the number of slots out is the counter, and what was
counted as accepted and not as closed is what still lives.
-/

namespace Tckr.Feed

namespace AcceptLoop

/-- The connection that may yet take a slot. -/
@[grind] def untaken : AcceptLoop → List Nat
  | .entered c | .counting c => [c]
  | _ => []

/-- The connection whose slot `Admit` holds outside the roster. -/
@[grind] def holding : AcceptLoop → List Nat
  | .overLimit c | .settingUp c | .setupFailed c | .rostering c => [c]
  | _ => []

/-- The session in the roster that is not counted as accepted yet. -/
@[grind] def uncounted : AcceptLoop → List Nat
  | .accepting c => [c]
  | _ => []

/-- The session counted as accepted that is not started yet. -/
@[grind] def unstarted : AcceptLoop → List Nat
  | .starting c => [c]
  | _ => []

/-- The connection that is neither refused nor counted as accepted yet. -/
@[grind] def undecided : AcceptLoop → List Nat
  | .entered c | .counting c | .overLimit c | .settingUp c | .setupFailed c | .rostering c
  | .accepting c | .rejecting c _ => [c]
  | _ => []

/-- The slots taken beyond the limit, until they are given back. -/
@[grind] def excess : AcceptLoop → Nat
  | .overLimit _ => 1
  | _ => 0

/-- Going from one point to the other moves nothing but a connection that takes no slot. -/
structure Keeps (q p : AcceptLoop) : Prop where
  going : q ≠ .ended
  holding : p.holding = q.holding
  uncounted : p.uncounted = q.uncounted
  unstarted : p.unstarted = q.unstarted
  untaken : ∀ c, p.untaken.count c ≤ q.untaken.count c
  undecided : p.undecided = q.undecided
  excess : p.excess = q.excess

end AcceptLoop

namespace FeedServer

/-- Where one connection is: the slots it took and the times its session was counted,
by the places they may be at. -/
structure Balanced (s : FeedServer) (c : Nat) : Prop where
  slots : s.taken.count c = s.returned.count c + s.sessions.count c + s.releasing.count c +
    (s.drained.getD []).count c + s.acceptLoop.holding.count c
  roster : s.drained = none → s.sessions.count c = s.acceptLoop.uncounted.count c +
    s.acceptLoop.unstarted.count c + s.writeLoops.count c + s.removing.count c
  ledger : s.accepted.count c = s.acceptLoop.unstarted.count c + s.writeLoops.count c +
    s.removing.count c + s.releasing.count c + s.closing.count c + s.closed.count c
  oneSlot : s.acceptLoop.untaken.count c + s.taken.count c ≤
    if c < s.nextConnection then 1 else 0
  decided : s.acceptLoop.undecided.count c + s.refused.count c + s.accepted.count c ≤
    if c < s.nextConnection then 1 else 0

/-- Every connection is somewhere, and the counters count them. -/
structure Accounted (o : AdmissionOptions) (s : FeedServer) : Prop where
  balanced : ∀ c, s.Balanced c
  counter : s.admitted = (s.taken.length : Int) - s.returned.length
  limit : s.admitted ≤ o.maxSessions + s.acceptLoop.excess
  acceptedTotal : s.metrics.acceptedTotal = s.accepted.length
  closedTotal : s.metrics.closedTotal = s.closed.length
  drains : s.drained ≠ none → s.cancelled = true ∧ s.acceptLoop = .ended ∧ s.sessions = []
  cancels : s.cancelled = true → s.stopped = true

variable {o : AdmissionOptions} {s t : FeedServer} {c : Nat}

/-- A server that has just started has nothing to account for. -/
theorem Accounted.init : Accounted o {} where
  balanced _ := ⟨rfl, fun _ => rfl, rfl, Nat.zero_le _, Nat.zero_le _⟩
  counter := rfl
  limit := Int.natCast_nonneg _
  acceptedTotal := rfl
  closedTotal := rfl
  drains := nofun
  cancels := nofun

/-! ## What one step moves -/

/-- Moving an element from one list to another keeps the number of times it stands in both. -/
theorem count_erase_add_count_cons {l : List Nat} (hc : c ∈ l) (l' : List Nat) (d : Nat) :
    (l.erase c).count d + (c :: l').count d = l.count d + l'.count d := by
  have hpos := List.count_pos_iff.mpr hc
  rw [List.count_cons, List.count_erase]
  split
  · rename_i heq
    rw [eq_of_beq heq] at hpos
    omega
  · omega

namespace Accounted

/-- An accept loop that has not ended has its roster. -/
theorem drained_eq_none (h : Accounted o s) (hl : s.acceptLoop ≠ .ended) : s.drained = none :=
  not_not.mp fun hd => hl (h.drains hd).2.1

/-- `Admit` going on without touching the counters. -/
theorem proceed (h : Accounted o s) {q p : AcceptLoop} (hl : s.acceptLoop = q)
    (hkeeps : q.Keeps p) :
    Accounted o { s with acceptLoop := p } := by
  subst hl
  obtain ⟨hgoing, hholding, huncounted, hunstarted, huntaken, hundecided, hexcess⟩ := hkeeps
  exact { h with
    balanced := fun d =>
      { slots := by simpa only [hholding] using (h.balanced d).slots
        roster := by simpa only [huncounted, hunstarted] using (h.balanced d).roster
        ledger := by simpa only [hunstarted] using (h.balanced d).ledger
        oneSlot := Nat.le_trans (Nat.add_le_add_right (huntaken d) _) (h.balanced d).oneSlot
        decided := by simpa only [hundecided] using (h.balanced d).decided }
    limit := by simpa only [hexcess] using h.limit
    drains := fun hdrained => absurd (h.drained_eq_none hgoing) hdrained }

/-- A new connection. -/
theorem accept (h : Accounted o s) (hl : s.acceptLoop = .listening) :
    Accounted o { s with
      acceptLoop := .entered s.nextConnection
      nextConnection := s.nextConnection + 1 } :=
  { h with
    balanced := fun d => by
      obtain ⟨hslots, hroster, hledger, hslot, hdecided⟩ := h.balanced d
      constructor <;> grind
    limit := by
      have hlimit := h.limit
      grind
    drains := fun hdrained => absurd (h.drained_eq_none (hl ▸ nofun)) hdrained }

/-- A connection takes its slot, which may be one too many. -/
theorem take (h : Accounted o s) (hl : s.acceptLoop = .counting c) {p : AcceptLoop}
    (hp : p = if (s.incrementAdmitted c).admitted > o.maxSessions then .overLimit c
      else .settingUp c) :
    Accounted o { s.incrementAdmitted c with acceptLoop := p } :=
  { h with
    balanced := fun d => by
      obtain ⟨hslots, hroster, hledger, hslot, hdecided⟩ := h.balanced d
      constructor <;> grind [incrementAdmitted]
    counter := by
      have hcounter := h.counter
      grind [incrementAdmitted]
    limit := by
      have hlimit := h.limit
      grind [incrementAdmitted]
    drains := fun hdrained => absurd (h.drained_eq_none (hl ▸ nofun)) hdrained }

/-- `Admit` gives a slot back that never came into the roster. -/
theorem giveBack (h : Accounted o s) (reason : RejectReason)
    (hl : s.acceptLoop = .overLimit c ∨ s.acceptLoop = .setupFailed c) :
    Accounted o { s.decrementAdmitted c with acceptLoop := .rejecting c reason } :=
  { h with
    balanced := fun d => by
      obtain ⟨hslots, hroster, hledger, hslot, hdecided⟩ := h.balanced d
      constructor <;> grind [decrementAdmitted]
    counter := by
      have hcounter := h.counter
      grind [decrementAdmitted]
    limit := by
      have hlimit := h.limit
      grind [decrementAdmitted]
    drains := fun hdrained => absurd
      (h.drained_eq_none (by rcases hl with hl | hl <;> rw [hl] <;> nofun)) hdrained }

/-- The connection is turned away under the roster lock, because a stop was first. -/
theorem turnAway (h : Accounted o s) (hl : s.acceptLoop = .rostering c) :
    Accounted o { s.decrementAdmitted c with
      refused := c :: s.refused
      acceptLoop := .listening } :=
  { h with
    balanced := fun d => by
      obtain ⟨hslots, hroster, hledger, hslot, hdecided⟩ := h.balanced d
      constructor <;> grind [decrementAdmitted]
    counter := by
      have hcounter := h.counter
      grind [decrementAdmitted]
    limit := by
      have hlimit := h.limit
      grind [decrementAdmitted]
    drains := fun hdrained => absurd (h.drained_eq_none (hl ▸ nofun)) hdrained }

/-- The session comes into the roster. -/
theorem enroll (h : Accounted o s) (hl : s.acceptLoop = .rostering c) :
    Accounted o { s with sessions := s.sessions ++ [c], acceptLoop := .accepting c } :=
  { h with
    balanced := fun d => by
      obtain ⟨hslots, hroster, hledger, hslot, hdecided⟩ := h.balanced d
      constructor <;> grind
    limit := by
      have hlimit := h.limit
      grind
    drains := fun hdrained => absurd (h.drained_eq_none (hl ▸ nofun)) hdrained }

/-- The session is counted as accepted. -/
theorem countAccepted (h : Accounted o s) (hl : s.acceptLoop = .accepting c) :
    Accounted o { s with
      metrics := s.metrics.sessionAccepted
      accepted := c :: s.accepted
      acceptLoop := .starting c } :=
  { h with
    balanced := fun d => by
      obtain ⟨hslots, hroster, hledger, hslot, hdecided⟩ := h.balanced d
      constructor <;> grind
    limit := by
      have hlimit := h.limit
      grind
    drains := fun hdrained => absurd (h.drained_eq_none (hl ▸ nofun)) hdrained
    acceptedTotal := congrArg (· + 1) h.acceptedTotal }

/-- The session starts. -/
theorem start (h : Accounted o s) (hl : s.acceptLoop = .starting c) :
    Accounted o { s with writeLoops := c :: s.writeLoops, acceptLoop := .receiving c } :=
  { h with
    balanced := fun d => by
      obtain ⟨hslots, hroster, hledger, hslot, hdecided⟩ := h.balanced d
      constructor <;> grind
    limit := by
      have hlimit := h.limit
      grind
    drains := fun hdrained => absurd (h.drained_eq_none (hl ▸ nofun)) hdrained }

/-- The session fails to start, and `Admit` closes it. -/
theorem failStart (h : Accounted o s) (hl : s.acceptLoop = .starting c) :
    Accounted o { s with removing := c :: s.removing, acceptLoop := .dropping c } :=
  { h with
    balanced := fun d => by
      obtain ⟨hslots, hroster, hledger, hslot, hdecided⟩ := h.balanced d
      constructor <;> grind
    limit := by
      have hlimit := h.limit
      grind
    drains := fun hdrained => absurd (h.drained_eq_none (hl ▸ nofun)) hdrained }

/-- The connection is rejected. -/
theorem reject (h : Accounted o s) {reason : RejectReason}
    (hl : s.acceptLoop = .rejecting c reason) :
    Accounted o { s.reject c reason with acceptLoop := .listening } :=
  { h with
    balanced := fun d => by
      obtain ⟨hslots, hroster, hledger, hslot, hdecided⟩ := h.balanced d
      constructor <;> grind [FeedServer.reject]
    limit := by
      have hlimit := h.limit
      grind [FeedServer.reject]
    drains := fun hdrained => absurd (h.drained_eq_none (hl ▸ nofun)) hdrained }

/-- A write loop ends and calls `OnSessionClosed`. -/
theorem finish (h : Accounted o s) (hc : c ∈ s.writeLoops) :
    Accounted o { s with writeLoops := s.writeLoops.erase c, removing := c :: s.removing } :=
  { h with
    balanced := fun d => by
      obtain ⟨hslots, hroster, hledger, hslot, hdecided⟩ := h.balanced d
      have hmove := count_erase_add_count_cons hc s.removing d
      constructor <;> grind }

/-- The block of `OnSessionClosed` under the roster lock. -/
theorem removeSession (h : Accounted o s) (hc : c ∈ s.removing) :
    Accounted o (s.removeSession c) := by
  unfold FeedServer.removeSession
  split
  · rename_i hin
    exact { h with
      balanced := fun d => by
        obtain ⟨hslots, hroster, hledger, hslot, hdecided⟩ := h.balanced d
        have hmove := count_erase_add_count_cons hc s.releasing d
        have hleave := count_erase_add_count_cons hin s.releasing d
        constructor <;> grind
      drains := fun hdrained => by
        have hempty := (h.drains hdrained).2.2
        rw [hempty] at hin
        exact absurd hin List.not_mem_nil }
  · rename_i hout
    -- Only a drained roster can lack a session that has not left it.
    exact { h with
      balanced := fun d => by
        obtain ⟨hslots, hroster, hledger, hslot, hdecided⟩ := h.balanced d
        have hmove := count_erase_add_count_cons hc s.closing d
        have hpos := List.count_pos_iff.mpr hc
        have hnone := List.count_eq_zero_of_not_mem hout
        have hrosterc := (h.balanced c).roster
        constructor <;> grind }

/-- `OnSessionClosed` gives the slot back. -/
theorem releaseSlot (h : Accounted o s) (hc : c ∈ s.releasing) :
    Accounted o (s.releaseSlot c) :=
  { h with
    balanced := fun d => by
      obtain ⟨hslots, hroster, hledger, hslot, hdecided⟩ := h.balanced d
      have hmove := count_erase_add_count_cons hc s.closing d
      constructor <;> grind [FeedServer.releaseSlot, decrementAdmitted]
    counter := by
      have hcounter := h.counter
      grind [FeedServer.releaseSlot, decrementAdmitted]
    limit := by
      have hlimit := h.limit
      grind [FeedServer.releaseSlot, decrementAdmitted] }

/-- `OnSessionClosed` counts the session as closed. -/
theorem countClosed (h : Accounted o s) (hc : c ∈ s.closing) :
    Accounted o (s.countClosed c) :=
  { h with
    balanced := fun d => by
      obtain ⟨hslots, hroster, hledger, hslot, hdecided⟩ := h.balanced d
      have hmove := count_erase_add_count_cons hc s.closed d
      constructor <;> grind [FeedServer.countClosed]
    closedTotal := congrArg (· + 1) h.closedTotal }

/-- `StopAsync` takes the roster. -/
theorem takeRoster (h : Accounted o s) (hcancelled : s.cancelled = true)
    (hl : s.acceptLoop = .ended) (hopen : s.drained = none) : Accounted o s.takeRoster :=
  { h with
    balanced := fun d => by
      obtain ⟨hslots, hroster, hledger, hslot, hdecided⟩ := h.balanced d
      constructor <;> grind [FeedServer.takeRoster]
    drains := fun _ => ⟨hcancelled, hl, rfl⟩ }

/-- One step of the accept loop inside `Admit`. -/
theorem admitStep (h : Accounted o s) (ht : s.admitStep o s.acceptLoop = some t) :
    Accounted o t := by
  cases hl : s.acceptLoop with
  | listening => rw [hl] at ht; cases ht
  | ended => rw [hl] at ht; cases ht
  | entered c =>
    rw [hl] at ht
    cases ht
    refine h.proceed hl ?_
    split
    · exact ⟨nofun, rfl, rfl, rfl, fun _ => Nat.zero_le _, rfl, rfl⟩
    · exact ⟨nofun, rfl, rfl, rfl, fun _ => Nat.le_refl _, rfl, rfl⟩
  | counting c =>
    rw [hl] at ht
    cases ht
    exact h.take hl rfl
  | overLimit c =>
    rw [hl] at ht
    cases ht
    exact h.giveBack .maxSessions (.inl hl)
  | settingUp c =>
    rw [hl] at ht
    cases ht
    exact h.proceed hl ⟨nofun, rfl, rfl, rfl, fun _ => Nat.zero_le _, rfl, rfl⟩
  | setupFailed c =>
    rw [hl] at ht
    cases ht
    exact h.giveBack .setupFailed (.inr hl)
  | rostering c =>
    rw [hl] at ht
    cases ht
    unfold FeedServer.admitToRoster
    split
    · exact h.turnAway hl
    · exact h.enroll hl
  | accepting c =>
    rw [hl] at ht
    cases ht
    exact h.countAccepted hl
  | starting c =>
    rw [hl] at ht
    cases ht
    exact h.start hl
  | receiving c =>
    rw [hl] at ht
    cases ht
    exact h.proceed hl ⟨nofun, rfl, rfl, rfl, fun _ => Nat.zero_le _, rfl, rfl⟩
  | dropping c =>
    rw [hl] at ht
    unfold FeedServer.admitStep at ht
    dsimp only at ht
    split at ht
    · cases ht
    · cases ht
      exact h.proceed hl ⟨nofun, rfl, rfl, rfl, fun _ => Nat.zero_le _, rfl, rfl⟩
  | rejecting c reason =>
    rw [hl] at ht
    cases ht
    exact h.reject hl

/-- Set-up or `Start` throws. -/
theorem throws (h : Accounted o s) (ht : s.throws s.acceptLoop = some t) : Accounted o t := by
  unfold FeedServer.throws at ht
  split at ht
  · rename_i hl
    cases ht
    exact h.proceed hl ⟨nofun, rfl, rfl, rfl, fun _ => Nat.zero_le _, rfl, rfl⟩
  · rename_i hl
    cases ht
    exact h.failStart hl
  · cases ht

/-- Every step keeps the accounts. -/
theorem step (h : Accounted o s) {a : Action} (ht : s.step o a = some t) : Accounted o t := by
  cases a with
  | admitStep => exact h.admitStep ht
  | throws => exact h.throws ht
  | stop =>
    cases ht
    exact { h with
      balanced := fun d => { h.balanced d with }
      cancels := fun _ => rfl }
  | accept =>
    obtain ⟨hl, ht⟩ := Option.ite_none_right_eq_some.mp ht
    cases ht
    exact h.accept hl
  | finish c =>
    obtain ⟨hc, ht⟩ := Option.ite_none_right_eq_some.mp ht
    cases ht
    exact h.finish hc
  | removeSession c =>
    obtain ⟨hc, ht⟩ := Option.ite_none_right_eq_some.mp ht
    cases ht
    exact h.removeSession hc
  | releaseSlot c =>
    obtain ⟨hc, ht⟩ := Option.ite_none_right_eq_some.mp ht
    cases ht
    exact h.releaseSlot hc
  | countClosed c =>
    obtain ⟨hc, ht⟩ := Option.ite_none_right_eq_some.mp ht
    cases ht
    exact h.countClosed hc
  | cancel =>
    obtain ⟨hstopped, ht⟩ := Option.ite_none_right_eq_some.mp ht
    cases ht
    exact { h with
      balanced := fun d => { h.balanced d with }
      cancels := fun _ => hstopped
      drains := fun hdrained => ⟨rfl, (h.drains hdrained).2⟩ }
  | endAccepting =>
    obtain ⟨⟨hcancelled, hl⟩, ht⟩ := Option.ite_none_right_eq_some.mp ht
    cases ht
    exact h.proceed hl ⟨nofun, rfl, rfl, rfl, fun _ => Nat.zero_le _, rfl, rfl⟩
  | takeRoster =>
    obtain ⟨⟨hcancelled, hl, hopen⟩, ht⟩ := Option.ite_none_right_eq_some.mp ht
    cases ht
    exact h.takeRoster hcancelled hl hopen

/-- The accounts are kept in every reachable state. -/
theorem of_reachable (h : (feedServer o).Reachable s) : Accounted o s := by
  obtain ⟨as, hrun⟩ := h
  exact (feedServer o).run_invariant (I := Accounted o) .init
    (fun _ _ _ hs hstep => hs.step hstep) hrun

end Accounted

/-! ## What the accounts say -/

/-- A call of `Admit` is in progress. -/
def Admitting (s : FeedServer) : Prop := s.acceptLoop ≠ .listening ∧ s.acceptLoop ≠ .ended

/-- A call of `OnSessionClosed` for this session is in progress. -/
def Closes (s : FeedServer) (c : Nat) : Prop := c ∈ s.removing ∨ c ∈ s.releasing ∨ c ∈ s.closing

/-- No call of either is in progress. -/
def Quiet (s : FeedServer) : Prop := ¬s.Admitting ∧ ∀ c, ¬s.Closes c

/-- A session counted as accepted that has not ended. -/
def Lives (s : FeedServer) (c : Nat) : Prop := s.acceptLoop = .starting c ∨ c ∈ s.writeLoops

/-- A session that was counted as accepted and whose end was dealt with. -/
def Ended (s : FeedServer) (c : Nat) : Prop := c ∈ s.accepted ∧ ¬s.Lives c ∧ ¬s.Closes c

namespace Accounted

/-- The slots out, by place. -/
theorem admitted_eq (h : Accounted o s) :
    s.admitted = s.sessions.length + s.releasing.length + (s.drained.getD []).length +
      s.acceptLoop.holding.length := by
  have hperm : s.taken.Perm (s.returned ++ s.sessions ++ s.releasing ++ s.drained.getD [] ++
      s.acceptLoop.holding) := by
    rw [List.perm_iff_count]
    intro c
    simp only [List.count_append]
    exact (h.balanced c).slots
  have hlength := hperm.length_eq
  simp only [List.length_append] at hlength
  have hcounter := h.counter
  omega

/-- A server that has not been stopped has its roster. -/
theorem drained_eq_none_of_running (h : Accounted o s) (hrunning : s.stopped = false) :
    s.drained = none := by
  by_contra hdrained
  have hstopped := h.cancels (h.drains hdrained).1
  rw [hrunning] at hstopped
  cases hstopped

/-- The roster never outgrows the limit. -/
theorem length_sessions_le (h : Accounted o s) : s.sessions.length ≤ o.maxSessions := by
  have hplaces := h.admitted_eq
  have hlimit := h.limit
  have hexcess : s.acceptLoop.excess ≤ s.acceptLoop.holding.length := by
    cases s.acceptLoop <;> simp [AcceptLoop.excess, AcceptLoop.holding]
  omega

/-- Before a stop, the counter covers the roster. -/
theorem length_sessions_le_admitted (h : Accounted o s) :
    (s.sessions.length : Int) ≤ s.admitted := by
  have hplaces := h.admitted_eq
  omega

/-- Before a stop and between the calls, the counter is the length of the roster. -/
theorem admitted_eq_of_quiet (h : Accounted o s) (hrunning : s.stopped = false) (hquiet : s.Quiet) :
    s.admitted = s.sessions.length := by
  have hplaces := h.admitted_eq
  rw [h.drained_eq_none_of_running hrunning] at hplaces
  have hreleasing : s.releasing = [] :=
    List.eq_nil_iff_forall_not_mem.mpr fun c hc => hquiet.2 c (.inr (.inl hc))
  have hholding : s.acceptLoop.holding = [] := by
    by_contra hheld
    refine hquiet.1 ⟨fun hl => hheld ?_, fun hl => hheld ?_⟩ <;> rw [hl] <;> rfl
  rw [hreleasing, hholding] at hplaces
  simpa using hplaces

/-- No connection takes two slots. -/
theorem count_taken_le_one (h : Accounted o s) (c : Nat) : s.taken.count c ≤ 1 := by
  have hslot := (h.balanced c).oneSlot
  split at hslot <;> omega

/-- No slot is given back twice. -/
theorem count_returned_le_one (h : Accounted o s) (c : Nat) : s.returned.count c ≤ 1 := by
  have hslots := (h.balanced c).slots
  have hone := h.count_taken_le_one c
  omega

/-- A session in the roster has its slot. -/
theorem count_returned_of_mem (h : Accounted o s) (hc : c ∈ s.sessions) :
    s.returned.count c = 0 := by
  have hslots := (h.balanced c).slots
  have hone := h.count_taken_le_one c
  have hpos := List.count_pos_iff.mpr hc
  omega

/-- No session is counted as accepted twice, nor both accepted and refused. -/
theorem decided_le_one (h : Accounted o s) (c : Nat) :
    s.acceptLoop.undecided.count c + s.refused.count c + s.accepted.count c ≤ 1 := by
  have hdecided := (h.balanced c).decided
  split at hdecided <;> omega

/-- What `Admit` holds or has only rostered is not decided. -/
theorem count_holding_le (p : AcceptLoop) (c : Nat) :
    p.holding.count c ≤ p.undecided.count c ∧ p.uncounted.count c ≤ p.undecided.count c := by
  cases p <;> exact ⟨by simp [AcceptLoop.holding, AcceptLoop.undecided], by
    simp [AcceptLoop.uncounted, AcceptLoop.undecided]⟩

/-- A session that neither lives nor closes is nowhere on its way. -/
theorem count_eq_zero_of_not_lives (hlives : ¬s.Lives c) (hcloses : ¬s.Closes c) :
    s.acceptLoop.unstarted.count c = 0 ∧ s.writeLoops.count c = 0 ∧ s.removing.count c = 0 ∧
      s.releasing.count c = 0 ∧ s.closing.count c = 0 := by
  refine ⟨?_, List.count_eq_zero.mpr fun hc => hlives (.inr hc),
    List.count_eq_zero.mpr fun hc => hcloses (.inl hc),
    List.count_eq_zero.mpr fun hc => hcloses (.inr (.inl hc)),
    List.count_eq_zero.mpr fun hc => hcloses (.inr (.inr hc))⟩
  cases hl : s.acceptLoop with
  | starting d =>
    have hne : d ≠ c := fun hd => hlives (.inl (hd ▸ hl))
    exact List.count_eq_zero.mpr fun hc => hne (List.mem_singleton.mp hc).symm
  | _ => rfl

/-- Before a stop, the slot of a connection refused or a session ended has been given back. -/
theorem count_returned_of_done (h : Accounted o s) (hrunning : s.stopped = false)
    (hc : c ∈ s.taken) (hdone : c ∈ s.refused ∨ s.Ended c) : s.returned.count c = 1 := by
  have hopen := h.drained_eq_none_of_running hrunning
  obtain ⟨hslots, hroster, hledger, -, -⟩ := h.balanced c
  have hroster := hroster hopen
  rw [hopen] at hslots
  have htaken := List.count_pos_iff.mpr hc
  have hone := h.count_taken_le_one c
  have hdecided := h.decided_le_one c
  obtain ⟨hholding, huncounted⟩ := count_holding_le s.acceptLoop c
  rcases hdone with hrefused | ⟨haccepted, hlives, hcloses⟩
  · have hpos := List.count_pos_iff.mpr hrefused
    simp only [Option.getD_none, List.count_nil] at hslots
    omega
  · have hpos := List.count_pos_iff.mpr haccepted
    have hnowhere := count_eq_zero_of_not_lives hlives hcloses
    simp only [Option.getD_none, List.count_nil] at hslots
    omega

/-- A session that was counted as accepted is counted as closed once it ended, and once. -/
theorem count_closed (h : Accounted o s) (hc : c ∈ s.accepted) :
    s.closed.count c ≤ 1 ∧ (s.closed.count c = 1 ↔ s.Ended c) := by
  have hledger := (h.balanced c).ledger
  have hdecided := h.decided_le_one c
  have hpos := List.count_pos_iff.mpr hc
  refine ⟨by omega, fun hclosed => ⟨hc, ?_, ?_⟩, fun hended => ?_⟩
  · rintro (hl | hlive)
    · rw [hl] at hledger
      simp only [AcceptLoop.unstarted, List.count_singleton_self] at hledger
      omega
    · have hlive := List.count_pos_iff.mpr hlive
      omega
  · rintro (hin | hin | hin) <;> have hin := List.count_pos_iff.mpr hin <;> omega
  · have hnowhere := count_eq_zero_of_not_lives hended.2.1 hended.2.2
    omega

/-- What was counted as closed was counted as accepted, at least as often. -/
theorem count_closed_le (h : Accounted o s) (c : Nat) : s.closed.count c ≤ s.accepted.count c := by
  have hledger := (h.balanced c).ledger
  omega

/-- The ledger is the number of sessions accepted and not yet closed. -/
theorem ledger_eq (h : Accounted o s) :
    (s.metrics.acceptedTotal : Int) - s.metrics.closedTotal =
      (s.accepted.filter (· ∉ s.closed)).length := by
  have hperm : (s.accepted.filter (· ∈ s.closed)).Perm s.closed := by
    rw [List.perm_iff_count]
    intro c
    have hle := h.count_closed_le c
    have hone := h.decided_le_one c
    by_cases hc : c ∈ s.closed
    · have hpos := List.count_pos_iff.mpr hc
      rw [List.count_filter (by simpa using hc)]
      omega
    · rw [List.count_eq_zero.mpr hc, List.count_eq_zero]
      exact fun hin => hc (of_decide_eq_true (List.mem_filter.mp hin).2)
  have hsplit := List.length_eq_length_filter_add (l := s.accepted) (· ∈ s.closed)
  rw [hperm.length_eq] at hsplit
  have hnot : s.accepted.filter (fun c => !decide (c ∈ s.closed)) =
      s.accepted.filter (· ∉ s.closed) :=
    List.filter_congr fun c _ => (decide_not).symm
  rw [hnot] at hsplit
  rw [h.acceptedTotal, h.closedTotal]
  omega

end Accounted

/-- In every order of the threads the roster keeps to its limit, the counter covers the
roster, no slot is lost or given back twice, and the ledger is what lives. -/
theorem admission_accounted (h : (feedServer o).Reachable s) :
    s.sessions.length ≤ o.maxSessions ∧
    (s.stopped = false → (s.sessions.length : Int) ≤ s.admitted ∧
      (s.Quiet → s.admitted = s.sessions.length)) ∧
    (∀ c, s.returned.count c ≤ 1 ∧ (c ∈ s.sessions → s.returned.count c = 0) ∧
      (s.stopped = false → c ∈ s.taken → c ∈ s.refused ∨ s.Ended c → s.returned.count c = 1)) ∧
    (∀ c, s.closed.count c ≤ s.accepted.count c ∧
      (c ∈ s.accepted → s.closed.count c ≤ 1 ∧ (s.closed.count c = 1 ↔ s.Ended c))) ∧
    (s.metrics.acceptedTotal : Int) - s.metrics.closedTotal =
      (s.accepted.filter (· ∉ s.closed)).length ∧
    s.metrics.sessionLedgerCount =
      min ((s.accepted.filter (· ∉ s.closed)).length : Int) FeedMetrics.intMaxValue := by
  have hs := Accounted.of_reachable h
  refine ⟨hs.length_sessions_le,
    fun hrunning => ⟨hs.length_sessions_le_admitted, hs.admitted_eq_of_quiet hrunning⟩,
    fun c => ⟨hs.count_returned_le_one c, hs.count_returned_of_mem, hs.count_returned_of_done⟩,
    fun c => ⟨hs.count_closed_le c, hs.count_closed⟩, hs.ledger_eq, ?_⟩
  unfold FeedMetrics.sessionLedgerCount
  rw [hs.ledger_eq]
  unfold FeedMetrics.intMaxValue
  dsimp only
  omega

/-- Room for one session: a second connection is refused, the first session ends, and a
third connection takes its place and fails to start while a stop begins. -/
def slotReused : List Action :=
  .accept :: .replicate 7 .admitStep ++ .accept :: .replicate 4 .admitStep ++
    [.finish 0, .removeSession 0, .releaseSlot 0, .countClosed 0] ++
    .accept :: .replicate 5 .admitStep ++ [.throws, .stop, .removeSession 2]

theorem admission_accounted_slotReused :
    ∃ s, (feedServer ⟨1, by decide⟩).run slotReused = some s ∧ s.accepted = [2, 0] ∧
      s.refused = [1] ∧ s.admitted = 1 ∧ s.sessions.length ≤ 1 ∧
      (s.metrics.acceptedTotal : Int) - s.metrics.closedTotal =
        (s.accepted.filter (· ∉ s.closed)).length := by
  have hrun : ((feedServer ⟨1, by decide⟩).run slotReused).isSome = true := by decide
  have hs := admission_accounted ⟨slotReused, (Option.some_get hrun).symm⟩
  exact ⟨_, (Option.some_get hrun).symm, rfl, rfl, rfl, hs.1, hs.2.2.2.2.1⟩

end FeedServer
end Tckr.Feed
