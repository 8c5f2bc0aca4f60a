import Tckr.Exchange.Feed.Loss

/-!
# Numbers to the end of a session

The accounts of an open session end with it, since a closing session takes batches
it does not number, and a batch that cannot be encoded takes numbers that nobody gets.
What they say of the numbers that did go to records outlasts the session: each of
them is kept, dropped, withheld or reserved by a skip under way, and just once.
-/

namespace Tckr.Feed

open Protocol

/-- A skip decided on, its numbers not yet taken. -/
def Publisher.Skips : Publisher → Prop
  | .skipping _ => True
  | .idle | .reading _ | .entering _ | .skipCounting .. | .skipReporting .. | .faulted => False

/-- The numbers that went to records are the first ones, and while more may follow, all. -/
def Numbered (s : Session) (L : Ledger) : Prop :=
  ∃ n, (positions L.kept ++ (s.withheld ++ positions L.dropped) ++ s.publisher.reserved).Perm
      (List.range' 1 n) ∧
    (s.state ≠ .closing ∨ s.publisher.Skips → s.nextSequence = n + 1)

namespace Numbered

variable {o : FeedServerOptions} {sessionId : Guid} {s t : Session} {L M : Ledger}

theorem init : Numbered {} {} := ⟨0, List.Perm.nil, fun _ => rfl⟩

/-- A step that takes no number and loses none. -/
theorem of_same (h : Numbered s L)
    (hperm : (positions M.kept ++ (t.withheld ++ positions M.dropped) ++ t.publisher.reserved).Perm
      (positions L.kept ++ (s.withheld ++ positions L.dropped) ++ s.publisher.reserved))
    (hnext : t.nextSequence = s.nextSequence)
    (hgoes : t.state ≠ .closing ∨ t.publisher.Skips → s.state ≠ .closing ∨ s.publisher.Skips) :
    Numbered t M := by
  obtain ⟨n, hnumbers, hlast⟩ := h
  exact ⟨n, hperm.trans hnumbers, fun ht => hnext.trans (hlast (hgoes ht))⟩

theorem of_publisher (h : Numbered s L)
    (hreserved : t.publisher.reserved = s.publisher.reserved) (hwithheld : t.withheld = s.withheld)
    (hnext : t.nextSequence = s.nextSequence)
    (hgoes : t.state ≠ .closing ∨ t.publisher.Skips → s.state ≠ .closing ∨ s.publisher.Skips) :
    Numbered t L :=
  h.of_same (by rw [hreserved, hwithheld]) hnext hgoes

theorem of_sameTape (h : Numbered s L) (hst : s.SameTape t)
    (hopen : t.state ≠ .closing → s.state ≠ .closing) : Numbered t L := by
  refine h.of_same ?_ hst.nextSequence fun ht => ?_
  · rw [hst.withheld, hst.publisher]
  · rw [hst.publisher] at ht
    exact ht.imp_left hopen

/-- The next numbers go to records that are kept, withheld or about to be. -/
theorem extend (h : Numbered s L) (hgoes : s.state ≠ .closing ∨ s.publisher.Skips) {count : Nat}
    (hperm : (positions M.kept ++ (t.withheld ++ positions M.dropped) ++ t.publisher.reserved).Perm
      (positions L.kept ++ (s.withheld ++ positions L.dropped) ++ s.publisher.reserved ++
        List.range' s.nextSequence count))
    (hnext : t.nextSequence = s.nextSequence + count) : Numbered t M := by
  obtain ⟨n, hnumbers, hlast⟩ := h
  have hfirst := hlast hgoes
  have hext := perm_range'_extend count (Nat.succ_pos n) hnumbers
  refine ⟨n + count, hperm.trans ?_, fun _ => by omega⟩
  rw [hfirst]
  have hcount : n + 1 + count - 1 = n + count := by omega
  rwa [hcount] at hext

theorem publisherStep (h : Numbered s L) (hd : s.Shutdown) {a : Session.PublisherAction}
    (hstep : s.publisherStep o a = some t) :
    Numbered t (record o sessionId s (.publisher a) t L) := by
  cases Session.publisherStep_cases hstep with
  | ignored => exact h
  | called hpc | readRunning hpc | readClosing hpc =>
    exact h.of_publisher (by rw [hpc]; rfl) rfl rfl fun ht => .inl (ht.resolve_right id)
  | readBehind hpc hstate =>
    exact h.of_publisher (by rw [hpc]; rfl) rfl rfl fun _ => .inl (by simp [hstate])
  | @published batch bytes hpc hstate hencode =>
    obtain ⟨rfl, hfs⟩ := encodeBatch_eq_ok hencode
    have hsame := Session.flushBatch_sameTape o (frames (tickFrames s.nextSequence batch))
      { s.reserve batch.length with
        lastSequenceQueued := s.nextSequence + batch.length - 1
        offered := s.offered + batch.length
        publisher := .idle }
    simp only [record, Ledger.publish, hpc, hstate, hencode]
    refine h.extend (.inl (by simp [hstate])) ?_ hsame.nextSequence
    rw [hsame.withheld, hsame.publisher, hpc, Ledger.kept_enqueue, positions_append, hfs]
    simp only [Session.reserve, Ledger.enqueue, Publisher.reserved, List.perm_iff_count,
      List.count_append, List.count_nil]
    intro x
    omega
  | encodingFailed hpc hstate hencode =>
    simp only [record, Ledger.publish, hpc, hstate, hencode]
    obtain ⟨n, hnumbers, -⟩ := h
    rw [hpc] at hnumbers
    exact ⟨n, hnumbers, fun ht => absurd rfl (ht.resolve_right id)⟩
  | @skippedAtGate batch hpc hstate =>
    simp only [record, Ledger.publish, hpc, hstate]
    refine h.extend (.inl (by simp [hstate])) ?_ rfl
    rw [hpc]
    simp only [Session.reserve, Session.countSkipped, Session.reportSkipped, Publisher.reserved,
      List.perm_iff_count, List.count_append, List.count_nil]
    intro x
    omega
  | refusedAtGate hpc hstate =>
    simp only [record, Ledger.publish, hpc, hstate]
    exact h.of_publisher (by rw [hpc]; rfl) rfl rfl fun ht => absurd rfl (ht.resolve_right id)
  | @reserved count hpc =>
    refine h.extend (.inr (by rw [hpc]; trivial)) ?_ rfl
    rw [hpc]
    simp only [record, Ledger.publish, Session.reserve, Publisher.reserved, List.append_nil]
    exact List.Perm.refl _
  | counted hpc =>
    exact h.of_publisher (by rw [hpc]; rfl) rfl rfl fun ht => .inl (ht.resolve_right id)
  | @reported first count hpc =>
    refine h.of_same ?_ rfl fun ht => .inl (ht.resolve_right id)
    rw [hpc]
    simp only [record, Ledger.publish, Session.reportSkipped, Publisher.reserved,
      List.perm_iff_count, List.count_append, List.count_nil]
    intro x
    omega
  | closedFaulted hpc =>
    have hsame := Session.beginClose_sameTape .writeFailed s
    have hclosed := Session.beginClose_state hd .writeFailed
    exact h.of_publisher (by rw [hpc]; rfl) hsame.withheld hsame.nextSequence fun ht =>
      absurd hclosed (ht.resolve_right id)

theorem writeLoopStep (h : Numbered s L) {a : Session.WriteLoopAction}
    (hstep : s.writeLoopStep o a = some t) :
    Numbered t (record o sessionId s (.writeLoop a) t L) := by
  cases Session.writeLoopStep_cases hstep with
  | read | readEnd | readEmpty =>
    exact h.of_same
      (by rw [record, Ledger.write, Ledger.kept_take]; exact List.Perm.refl _) rfl id
  | heartbeat =>
    exact h.of_same
      (by rw [record, Ledger.write, positions_kept_beat]; exact List.Perm.refl _) rfl id
  | reportedDiscard hpc =>
    refine h.of_same ?_ rfl id
    simp only [record, Ledger.write, Ledger.kept, Ledger.throw, positions_append, List.append_nil,
      List.perm_iff_count, List.count_append]
    intro x
    omega
  | completed | completedHeartbeat =>
    exact h.of_same
      (by rw [record, Ledger.write, Ledger.kept_deliver]; exact List.Perm.refl _) rfl id
  | failed | finishedState =>
    exact h.of_same (List.Perm.refl _) rfl fun ht => ht.elim (absurd rfl) .inr
  | _ => exact h.of_same (List.Perm.refl _) rfl id

theorem step (h : Numbered s L) (hd : s.Shutdown) {a : Session.Action}
    (hstep : s.step o sessionId a = some t) : Numbered t (record o sessionId s a t L) := by
  have hopen : t.state ≠ .closing → s.state ≠ .closing := fun ht hs =>
    ht (Session.closing_stable hd hstep hs)
  cases a with
  | publisher a => exact h.publisherStep hd hstep
  | handler a => exact h.of_sameTape (Session.handlerStep_sameTape hstep) hopen
  | writeLoop a => exact h.writeLoopStep hstep
  | owner a =>
    cases Session.ownerStep_cases hstep with
    | started =>
      refine h.of_same ?_ rfl id
      rw [record, Ledger.kept_enqueue, positions_append, positions_sessionStart, positions_nil,
        List.append_nil]
      exact List.Perm.refl _
    | timer | tornDown => exact h.of_same (List.Perm.refl _) rfl id
    | closed => exact h.of_sameTape (Session.beginClose_sameTape _ s) hopen

end Numbered

end Tckr.Feed
