import Mathlib.Data.List.Nodup
import Tckr.Core.SetLog
import Tckr.MarketWatch.Data.Sockets

/-!
# The server and the client agree on the subscriptions

The server keeps one set of symbols per session and replays the frames of that
session in wire order. What the client wants is tracked by its queue and the wire
of its current socket; a session that has to be resubscribed is recovering until
its continuation has run.
-/

namespace Tckr.MarketWatch

/-- What a frame does to the server's set. -/
def ClientMessage.op : ClientMessage → Option (SetOp String)
  | .subscribe symbols _ => some (.insert symbols)
  | .unsubscribe symbols _ => some (.remove symbols)
  | .ping _ => none

/-- What frames do to the server's set, in order. -/
def ops (msgs : List ClientMessage) : List (SetOp String) := msgs.filterMap ClientMessage.op

theorem ops_append (msgs msgs' : List ClientMessage) :
    ops (msgs ++ msgs') = ops msgs ++ ops msgs' :=
  List.filterMap_append

/-- The server's set for the session of a socket: empty at `connected`, then changed by
the frames that follow. -/
def GatewaySocket.serverSet (socket : GatewaySocket) : Finset String :=
  match socket.announced with
  | some n => SetOp.replay ∅ (ops (socket.sent.drop n))
  | none => ∅

namespace TckrGatewaySource

/-- The current socket itself. -/
def current (s : TckrGatewaySource) : Option GatewaySocket := s.socket.bind fun i => s.sockets[i]?

/-- What the server of the current session holds. -/
def serverSet (s : TckrGatewaySource) : Finset String :=
  (s.current.map GatewaySocket.serverSet).getD ∅

/-- What the client is subscribed to. -/
def want (s : TckrGatewaySource) : Finset String := s.subscribedSymbols.elems.toFinset

def queue (s : TckrGatewaySource) : List (SetOp String) := ops s.pendingOutbound

/-- What the current socket has carried. -/
def wire (s : TckrGatewaySource) : List (SetOp String) :=
  ops ((s.current.map GatewaySocket.sent).getD [])

/-! ## What is assumed and what is required -/

/-- The server opens one session per socket and rejects no symbol. -/
def ServerPromise (s : TckrGatewaySource) : Action → Prop
  | .socket i (.message (some (.connected _))) =>
      ∀ socket ∈ s.sockets[i]?, GatewaySocket.announced socket = none
  | .socket _ (.message (some (.subscribed m))) => m.rejected = []
  | _ => True

instance (s : TckrGatewaySource) (a : Action) : Decidable (s.ServerPromise a) := by
  unfold ServerPromise
  split
  · exact inferInstanceAs (Decidable (∀ socket ∈ s.sockets[_]?, _))
  · exact inferInstanceAs (Decidable (_ = _))
  · exact inferInstanceAs (Decidable True)

/-- Every subscribed symbol is named by a queued frame. -/
def Queued (s : TckrGatewaySource) : Prop :=
  ∀ symbol ∈ s.subscribedSymbols.elems, SetOp.lastWord symbol s.queue ≠ none

instance (s : TckrGatewaySource) : Decidable s.Queued :=
  inferInstanceAs (Decidable (∀ symbol ∈ s.subscribedSymbols.elems, _))

/-- The call opens a session only with every subscription queued, and sends a frame
past the queue only when no queued frame has the opposite last word on its symbols. -/
def CallAgrees (s : TckrGatewaySource) : Call → Prop
  | .connect => s.HasSocket ∨ s.Queued
  | .reconnectSharedSource => s.Queued
  | .subscribe symbols => s.CanSend → (SetOp.insert (wanted symbols)).Unopposed s.queue
  | .unsubscribe symbols => s.CanSend → (SetOp.remove (wanted symbols)).Unopposed s.queue
  | .disconnect | .getSnapshot _ => True

instance (s : TckrGatewaySource) (c : Call) : Decidable (s.CallAgrees c) := by
  cases c with
  | connect => exact inferInstanceAs (Decidable (_ ∨ _))
  | reconnectSharedSource => exact inferInstanceAs (Decidable s.Queued)
  | subscribe symbols => exact inferInstanceAs (Decidable (_ → _))
  | unsubscribe symbols => exact inferInstanceAs (Decidable (_ → _))
  | disconnect => exact inferInstanceAs (Decidable True)
  | getSnapshot symbol => exact inferInstanceAs (Decidable True)

/-- What a run has to respect for the agreement to hold. -/
def KeepsAgreement (s : TckrGatewaySource) (a : Action) : Prop :=
  s.ServerPromise a ∧ s.OpensFree a ∧
    match a with
    | .call c => s.CallAgrees c
    | _ => True

instance (s : TckrGatewaySource) (a : Action) : Decidable (s.KeepsAgreement a) := by
  cases a with
  | call c => exact inferInstanceAs (Decidable (_ ∧ _ ∧ s.CallAgrees c))
  | _ => exact inferInstanceAs (Decidable (_ ∧ _ ∧ True))

/-! ## The wire -/

/-- A socket that can be sent on exists and carries what is sent. -/
theorem current_transmit {s : TckrGatewaySource} (h : s.CanSend) (msgs : List ClientMessage) :
    ∃ socket, s.current = some socket ∧
      (s.transmit msgs).current = some { socket with sent := socket.sent ++ msgs } := by
  obtain ⟨-, -, hstate⟩ := h
  rw [socketState, Option.bind_eq_some_iff] at hstate
  obtain ⟨i, hi, hr⟩ := hstate
  rw [readyState?, Option.map_eq_some_iff] at hr
  obtain ⟨socket, hsocket, -⟩ := hr
  refine ⟨socket, by rw [current, hi]; exact hsocket, ?_⟩
  simp only [transmit, hi, current, Option.bind_some, List.getElem?_modify, hsocket, ite_true,
    Option.map_eq_map, Option.map_some]

theorem wire_transmit {s : TckrGatewaySource} (h : s.CanSend) (msgs : List ClientMessage) :
    (s.transmit msgs).wire = s.wire ++ ops msgs := by
  obtain ⟨socket, hs, ht⟩ := current_transmit h msgs
  rw [wire, wire, hs, ht, ← ops_append]
  rfl

/-! ## The handshake -/

/-- `#reconnectNow` has still to resubscribe. -/
def Recovering (s : TckrGatewaySource) : Prop :=
  s.connectResolvers = some .reconnectNow ∨ s.continuations ≠ [] ∨ s.authWaiters ≠ 0

/-- Nobody waits once authenticated, an open socket's promise is settled, and nothing
is sent before the server has announced the session. -/
structure Handshake (s : TckrGatewaySource) : Prop where
  waiters : s.authenticated = true → s.authWaiters = 0
  opened : s.socketState = some .opened → s.connectResolvers = none
  session : ∀ socket, s.current = some socket →
    socket.announced = none ∧ s.authenticated = false ∧ socket.sent = [] ∨
      socket.announced = some 0

/-- The same handshake: no socket event has been handled, and only an authenticated
session has sent anything. -/
structure SameHandshake (s t : TckrGatewaySource) : Prop extends SameSockets s t where
  authenticated : t.authenticated = s.authenticated
  authWaiters : t.authWaiters = s.authWaiters
  connectResolvers : t.connectResolvers = s.connectResolvers
  continuations : t.continuations = s.continuations
  session : ∀ socket', t.current = some socket' → ∃ socket, s.current = some socket ∧
    socket'.announced = socket.announced ∧ (s.authenticated = false → socket'.sent = socket.sent)

namespace SameHandshake

variable {s t u : TckrGatewaySource}

theorem of_eq (hsocket : t.socket = s.socket) (hsockets : t.sockets = s.sockets)
    (hauth : t.authenticated = s.authenticated) (hwaiters : t.authWaiters = s.authWaiters)
    (hresolvers : t.connectResolvers = s.connectResolvers)
    (hcont : t.continuations = s.continuations) : SameHandshake s t := by
  refine ⟨.of_eq hsocket hsockets, hauth, hwaiters, hresolvers, hcont, ?_⟩
  intro socket h
  refine ⟨socket, ?_, rfl, fun _ => rfl⟩
  rw [current, ← hsocket, ← hsockets]
  exact h

theorem trans (h : SameHandshake s t) (h' : SameHandshake t u) : SameHandshake s u := by
  refine ⟨h.toSameSockets.trans h'.toSameSockets, h'.authenticated.trans h.authenticated,
    h'.authWaiters.trans h.authWaiters, h'.connectResolvers.trans h.connectResolvers,
    h'.continuations.trans h.continuations, ?_⟩
  intro socket'' h''
  obtain ⟨socket', ht, ha', hs'⟩ := h'.session socket'' h''
  obtain ⟨socket, hs, ha, hs''⟩ := h.session socket' ht
  refine ⟨socket, hs, ha'.trans ha, fun hauth => ?_⟩
  exact (hs' (h.authenticated.trans hauth)).trans (hs'' hauth)

theorem recovering (h : SameHandshake s t) : t.Recovering ↔ s.Recovering := by
  rw [Recovering, Recovering, h.connectResolvers, h.continuations, h.authWaiters]

end SameHandshake

variable {s t : TckrGatewaySource}

theorem Handshake.of_same (h : s.Handshake) (hst : SameHandshake s t) : t.Handshake := by
  constructor
  · rw [hst.authenticated, hst.authWaiters]
    exact h.waiters
  · rw [hst.socketState, hst.connectResolvers]
    exact h.opened
  · intro socket' ht
    obtain ⟨socket, hs, ha, hsent⟩ := hst.session socket' ht
    rcases h.session socket hs with ⟨hnone, hauth, hnil⟩ | hzero
    · exact Or.inl ⟨ha.trans hnone, hst.authenticated.trans hauth, (hsent hauth).trans hnil⟩
    · exact Or.inr (ha.trans hzero)

theorem transmit_sameHandshake (h : s.CanSend) (msgs : List ClientMessage) :
    SameHandshake s (s.transmit msgs) := by
  have hrest := s.transmit_sockets_only msgs
  refine ⟨s.transmit_sameSockets msgs, ?_, ?_, ?_, ?_, ?_⟩
  · rw [hrest]
  · rw [hrest]
  · rw [hrest]
  · rw [hrest]
  · intro socket' ht
    obtain ⟨socket, hs, hsent⟩ := current_transmit h msgs
    rw [hsent, Option.some.injEq] at ht
    refine ⟨socket, hs, by rw [← ht], fun hauth => ?_⟩
    rw [h.1] at hauth
    cases hauth

theorem send_sameHandshake (s : TckrGatewaySource) (msg : ClientMessage) :
    SameHandshake s (s.send msg) := by
  have heffect := s.send_effect msg
  generalize s.send msg = t at heffect ⊢
  cases heffect with
  | direct h => exact transmit_sameHandshake h [msg]
  | queued h timer => exact .of_eq rfl rfl rfl rfl rfl rfl

theorem flushOutbound_sameHandshake (s : TckrGatewaySource) :
    SameHandshake s s.flushOutbound := by
  have heffect := s.flush_effect
  generalize s.flushOutbound = t at heffect ⊢
  cases heffect with
  | flushed h =>
    refine .trans (t := { s with pendingOutbound := [] }) ?_ ?_
    · exact .of_eq rfl rfl rfl rfl rfl rfl
    · exact transmit_sameHandshake (s := { s with pendingOutbound := [] }) h _
  | held => exact .of_eq rfl rfl rfl rfl rfl rfl

/-! ## The books -/

/-- What is wanted is tracked by the queue and the wire, and announced in full unless
a resubscription is still to come. -/
structure Agrees (s : TckrGatewaySource) : Prop where
  named : "" ∉ s.subscribedSymbols
  tracks : SetOp.Tracks s.want s.queue s.wire
  covers : s.socket ≠ none → ¬ s.Recovering → SetOp.Covers s.want s.queue s.wire

/-- The same books: nothing wanted, queued or sent anew. -/
structure SameBooks (s t : TckrGatewaySource) : Prop where
  subscribedSymbols : t.subscribedSymbols = s.subscribedSymbols
  pendingOutbound : t.pendingOutbound = s.pendingOutbound
  wire : t.wire = s.wire

theorem Agrees.of_same (h : s.Agrees) (hb : SameBooks s t) (hsocket : t.socket = s.socket)
    (hrecovering : s.Recovering → t.Recovering) : t.Agrees := by
  have hwant : t.want = s.want := by rw [want, hb.subscribedSymbols, want]
  have hqueue : t.queue = s.queue := by rw [queue, hb.pendingOutbound, queue]
  constructor
  · rw [hb.subscribedSymbols]
    exact h.named
  · rw [hwant, hqueue, hb.wire]
    exact h.tracks
  · intro ht hr
    rw [hwant, hqueue, hb.wire]
    exact h.covers (hsocket ▸ ht) fun hs => hr (hrecovering hs)

/-- What `#send` does to the books. -/
theorem send_books (s : TckrGatewaySource) (msg : ClientMessage) :
    (s.send msg).subscribedSymbols = s.subscribedSymbols ∧
      (s.CanSend ∧ (s.send msg).queue = s.queue ∧ (s.send msg).wire = s.wire ++ ops [msg] ∨
        ¬ s.CanSend ∧ (s.send msg).queue = s.queue ++ ops [msg] ∧ (s.send msg).wire = s.wire) := by
  have heffect := s.send_effect msg
  generalize s.send msg = t at heffect ⊢
  cases heffect with
  | direct h =>
    refine ⟨?_, Or.inl ⟨h, ?_, wire_transmit h [msg]⟩⟩
    · rw [s.transmit_sockets_only [msg]]
    · rw [s.transmit_sockets_only [msg], queue, queue]
  | queued h timer => exact ⟨rfl, Or.inr ⟨h, ops_append _ _, rfl⟩⟩

/-- What `#flushOutbound` does to the books. -/
theorem flush_books (s : TckrGatewaySource) :
    s.flushOutbound.subscribedSymbols = s.subscribedSymbols ∧
      (s.flushOutbound.queue = [] ∧ s.flushOutbound.wire = s.wire ++ s.queue ∨
        s.flushOutbound.queue = s.queue ∧ s.flushOutbound.wire = s.wire) := by
  have heffect := s.flush_effect
  generalize s.flushOutbound = t at heffect ⊢
  cases heffect with
  | flushed h =>
    have hrest := transmit_sockets_only { s with pendingOutbound := [] } s.pendingOutbound
    refine ⟨?_, Or.inl ⟨?_, wire_transmit (s := { s with pendingOutbound := [] }) h _⟩⟩
    · rw [hrest]
    · rw [hrest, queue]
      rfl
  | held => exact ⟨rfl, Or.inr ⟨rfl, rfl⟩⟩

theorem Agrees.flush (h : s.Agrees) : s.flushOutbound.Agrees := by
  obtain ⟨hsymbols, hbooks⟩ := s.flush_books
  have hsame := s.flushOutbound_sameHandshake
  have hwant : s.flushOutbound.want = s.want := by rw [want, hsymbols, want]
  refine ⟨hsymbols ▸ h.named, ?_, ?_⟩
  · rcases hbooks with ⟨hqueue, hwire⟩ | ⟨hqueue, hwire⟩
    · rw [hwant, hqueue, hwire]
      exact h.tracks.flush
    · rw [hwant, hqueue, hwire]
      exact h.tracks
  · intro hsocket hr
    have hcovers := h.covers (hsame.socket ▸ hsocket) (hsame.recovering.not.mp hr)
    rcases hbooks with ⟨hqueue, hwire⟩ | ⟨hqueue, hwire⟩
    · rw [hwant, hqueue, hwire]
      exact SetOp.Covers.flush h.tracks hcovers
    · rw [hwant, hqueue, hwire]
      exact hcovers

/-- A frame that changes nothing at the server changes no books. -/
theorem Agrees.send_ping (h : s.Agrees) (id : String) : (s.send (.ping id)).Agrees := by
  obtain ⟨hsymbols, hbooks⟩ := s.send_books (.ping id)
  have hsame := s.send_sameHandshake (.ping id)
  have hwant : (s.send (.ping id)).want = s.want := by rw [want, hsymbols, want]
  have hsame' : (s.send (.ping id)).queue = s.queue ∧ (s.send (.ping id)).wire = s.wire := by
    rcases hbooks with ⟨-, hqueue, hwire⟩ | ⟨-, hqueue, hwire⟩
    · exact ⟨hqueue, hwire.trans (List.append_nil _)⟩
    · exact ⟨hqueue.trans (List.append_nil _), hwire⟩
  refine ⟨hsymbols ▸ h.named, ?_, ?_⟩
  · rw [hwant, hsame'.1, hsame'.2]
    exact h.tracks
  · intro hsocket hr
    rw [hwant, hsame'.1, hsame'.2]
    exact h.covers (hsame.socket ▸ hsocket) (hsame.recovering.not.mp hr)

/-- Wanting a change and sending its frame, unless a queued frame opposes it. -/
theorem Agrees.change {u : TckrGatewaySource} (h : s.Agrees) (hsu : SameHandshake s u)
    (hpending : u.pendingOutbound = s.pendingOutbound) (hwire : u.wire = s.wire)
    {msg : ClientMessage} {op : SetOp String} (hop : msg.op = some op)
    (hwant : u.want = op.apply s.want) (hnamed : "" ∉ u.subscribedSymbols)
    (hfree : u.CanSend → op.Unopposed s.queue) : (u.send msg).Agrees := by
  obtain ⟨hsymbols, hbooks⟩ := u.send_books msg
  have hsame := hsu.trans (u.send_sameHandshake msg)
  have hops : ops [msg] = [op] := by rw [ops, List.filterMap_cons, hop, List.filterMap_nil]
  have hqueue : u.queue = s.queue := by rw [queue, hpending, queue]
  have ht : (u.send msg).want = op.apply s.want := by rw [want, hsymbols, ← hwant, want]
  rw [hops, hqueue, hwire] at hbooks
  refine ⟨hsymbols ▸ hnamed, ?_, ?_⟩
  · rcases hbooks with ⟨hcan, hq, hw⟩ | ⟨-, hq, hw⟩
    · rw [ht, hq, hw]
      exact h.tracks.send (hfree hcan)
    · rw [ht, hq, hw]
      exact h.tracks.enqueue op
  · intro hsocket hr
    have hcovers := h.covers (hsame.socket ▸ hsocket) (hsame.recovering.not.mp hr)
    rcases hbooks with ⟨-, hq, hw⟩ | ⟨-, hq, hw⟩
    · rw [ht, hq, hw]
      exact hcovers.send op
    · rw [ht, hq, hw]
      exact hcovers.enqueue op

theorem Agrees.subscribe (h : s.Agrees) {symbols : List String}
    (hfree : s.CanSend → (SetOp.insert (wanted symbols)).Unopposed s.queue) :
    (s.subscribe symbols).Agrees := by
  unfold TckrGatewaySource.subscribe
  split
  · exact h
  · refine h.change (u := { s with
        subscribedSymbols := s.subscribedSymbols.addAll (wanted symbols)
        requestSeq := s.requestSeq + 1 }) (.of_eq rfl rfl rfl rfl rfl rfl) rfl rfl rfl ?_ ?_ hfree
    · ext symbol
      simp only [SetOp.apply, want, Finset.mem_union, List.mem_toFinset, ← OrderedSet.mem_def,
        OrderedSet.mem_addAll]
    · rw [OrderedSet.mem_addAll, not_or]
      exact ⟨h.named, fun hmem => absurd (List.mem_filter.mp hmem).2 (by decide)⟩

theorem Agrees.unsubscribe (h : s.Agrees) {symbols : List String}
    (hfree : s.CanSend → (SetOp.remove (wanted symbols)).Unopposed s.queue) :
    (s.unsubscribe symbols).Agrees := by
  unfold TckrGatewaySource.unsubscribe
  split
  · exact h
  · refine h.change (u := { s with
        subscribedSymbols := s.subscribedSymbols.deleteAll (wanted symbols)
        requestSeq := s.requestSeq + 1 }) (.of_eq rfl rfl rfl rfl rfl rfl) rfl rfl rfl ?_ ?_ hfree
    · ext symbol
      simp only [SetOp.apply, want, Finset.mem_sdiff, List.mem_toFinset, ← OrderedSet.mem_def,
        OrderedSet.mem_deleteAll]
    · intro hmem
      exact h.named (OrderedSet.mem_deleteAll.mp hmem).1

theorem subscribe_sameHandshake (s : TckrGatewaySource) (symbols : List String) :
    SameHandshake s (s.subscribe symbols) := by
  unfold TckrGatewaySource.subscribe
  split
  · exact .of_eq rfl rfl rfl rfl rfl rfl
  · refine .trans ?_ (send_sameHandshake _ _)
    exact .of_eq rfl rfl rfl rfl rfl rfl

theorem unsubscribe_sameHandshake (s : TckrGatewaySource) (symbols : List String) :
    SameHandshake s (s.unsubscribe symbols) := by
  unfold TckrGatewaySource.unsubscribe
  split
  · exact .of_eq rfl rfl rfl rfl rfl rfl
  · refine .trans ?_ (send_sameHandshake _ _)
    exact .of_eq rfl rfl rfl rfl rfl rfl

/-- Nothing is left out of a set of named symbols. -/
theorem wanted_elems (h : "" ∉ s.subscribedSymbols) :
    wanted s.subscribedSymbols.elems = s.subscribedSymbols.elems := by
  rw [wanted, List.filter_eq_self]
  intro symbol hsymbol
  rw [decide_eq_true_eq]
  rintro rfl
  exact h hsymbol

/-- Announcing everything again covers everything, recovering or not. -/
theorem Agrees.resubscribe {u : TckrGatewaySource} (h : s.Agrees)
    (hb : SameBooks s u) : (u.subscribe u.subscribedSymbols.elems).Agrees := by
  have hwanted := wanted_elems (s := u) (hb.subscribedSymbols ▸ h.named)
  have hwant : u.want = s.want := by rw [want, hb.subscribedSymbols, want]
  have hqueue : u.queue = s.queue := by rw [queue, hb.pendingOutbound, queue]
  unfold TckrGatewaySource.subscribe
  rw [hwanted]
  by_cases hnil : u.subscribedSymbols.elems = []
  · simp only [hnil, ite_true]
    refine ⟨hb.subscribedSymbols ▸ h.named, by rw [hwant, hqueue, hb.wire]; exact h.tracks, ?_⟩
    intro _ _ symbol hsymbol
    rw [want, hnil] at hsymbol
    cases hsymbol
  · simp only [hnil, ite_false]
    have hadd : (u.subscribedSymbols.addAll u.subscribedSymbols.elems).elems.toFinset = s.want := by
      rw [← hwant]
      ext symbol
      simp only [want, List.mem_toFinset, ← OrderedSet.mem_def, OrderedSet.mem_addAll, or_self]
    generalize hv : { u with
      subscribedSymbols := u.subscribedSymbols.addAll u.subscribedSymbols.elems
      requestSeq := u.requestSeq + 1 } = v
    have hvwant : v.want = s.want := by rw [← hv]; exact hadd
    have hvqueue : v.queue = s.queue := by rw [← hv]; exact hqueue
    have hvwire : v.wire = s.wire := by rw [← hv]; exact hb.wire
    have hvnamed : "" ∉ v.subscribedSymbols := by
      rw [← hv, OrderedSet.mem_addAll, ← OrderedSet.mem_def, or_self, hb.subscribedSymbols]
      exact h.named
    have helems : u.subscribedSymbols.elems.toFinset = s.want := hwant
    obtain ⟨hsymbols, hbooks⟩ := v.send_books
      (.subscribe u.subscribedSymbols.elems u.nextRequestId)
    have ht : (v.send (.subscribe u.subscribedSymbols.elems u.nextRequestId)).want = s.want := by
      rw [want, hsymbols, ← hvwant, want]
    rw [hvqueue, hvwire] at hbooks
    have hself := SetOp.apply_insert_self helems
    refine ⟨hsymbols ▸ hvnamed, ?_, fun _ _ => ?_⟩
    · rcases hbooks with ⟨-, hq, hw⟩ | ⟨-, hq, hw⟩
      · rw [ht, hq, hw]
        exact hself ▸ h.tracks.send (h.tracks.unopposed_insert helems)
      · rw [ht, hq, hw]
        exact hself ▸ h.tracks.enqueue (.insert u.subscribedSymbols.elems)
    · rcases hbooks with ⟨-, hq, hw⟩ | ⟨-, hq, hw⟩
      · rw [ht, hq, hw]
        exact SetOp.covers_send_insert helems
      · rw [ht, hq, hw]
        exact SetOp.covers_enqueue_insert helems

/-! ## Opening, closing and hearing from sockets -/

theorem current_openSocket (opener : Opener) : (s.openSocket opener).current = some {} := by
  rw [current, openSocket, Option.bind_some, List.getElem?_concat_length]

theorem Agrees.openSocket (h : s.Agrees) {opener : Opener}
    (hqueued : opener = .connect → s.Queued) : (s.openSocket opener).Agrees := by
  have hwire : (s.openSocket opener).wire = [] := by
    rw [wire, current_openSocket]
    rfl
  refine ⟨h.named, ?_, ?_⟩
  · rw [hwire]
    exact h.tracks.restart
  · intro _ hr symbol hsymbol hnone
    cases opener with
    | connect => exact absurd hnone (hqueued rfl symbol (List.mem_toFinset.mp hsymbol))
    | reconnectNow => exact absurd (Or.inl rfl) hr

theorem handshake_openSocket (opener : Opener) : (s.openSocket opener).Handshake := by
  constructor
  · intro hauth
    cases hauth
  · intro hstate
    have hcurrent := current_openSocket (s := s) opener
    rw [socketState, openSocket, Option.bind_some, readyState?, List.getElem?_concat_length]
      at hstate
    cases hstate
  · intro socket hsocket
    rw [current_openSocket, Option.some.injEq] at hsocket
    rw [← hsocket]
    exact Or.inl ⟨rfl, rfl, rfl⟩

/-- Closing keeps what is wanted and queued, and gives up the wire. -/
theorem handleClose_books (code : Nat) (reason : String) (rand : Rat) :
    (s.handleClose code reason rand).subscribedSymbols = s.subscribedSymbols ∧
      (s.handleClose code reason rand).pendingOutbound = s.pendingOutbound ∧
      (s.handleClose code reason rand).authenticated = false ∧
      (s.handleClose code reason rand).current = none := by
  have hcurrent : (s.handleClose code reason rand).current = none := by
    rw [current, handleClose_socket, Option.bind_none]
  rw [hcurrent]
  unfold TckrGatewaySource.handleClose
  dsimp only
  split
  · exact ⟨rfl, rfl, rfl, rfl⟩
  · split
    · exact ⟨rfl, rfl, rfl, rfl⟩
    · exact ⟨rfl, rfl, rfl, rfl⟩

theorem Agrees.handleClose (h : s.Agrees) (code : Nat) (reason : String) (rand : Rat) :
    (s.handleClose code reason rand).Agrees := by
  obtain ⟨hsymbols, hpending, -, hcurrent⟩ := s.handleClose_books code reason rand
  have hwant : (s.handleClose code reason rand).want = s.want := by rw [want, hsymbols, want]
  have hqueue : (s.handleClose code reason rand).queue = s.queue := by rw [queue, hpending, queue]
  have hwire : (s.handleClose code reason rand).wire = [] := by
    rw [wire, hcurrent]
    rfl
  refine ⟨hsymbols ▸ h.named, ?_, ?_⟩
  · rw [hwant, hqueue, hwire]
    exact h.tracks.restart
  · intro hsocket
    exact absurd (handleClose_socket code reason rand) hsocket

theorem handshake_handleClose (code : Nat) (reason : String) (rand : Rat) :
    (s.handleClose code reason rand).Handshake := by
  obtain ⟨-, -, hauth, hcurrent⟩ := s.handleClose_books code reason rand
  constructor
  · intro htrue
    rw [hauth] at htrue
    cases htrue
  · intro hstate
    rw [socketState, handleClose_socket] at hstate
    cases hstate
  · intro socket hsocket
    rw [hcurrent] at hsocket
    cases hsocket

/-- Changing a ready state leaves what has passed over the current socket. -/
theorem traffic_setReadyState (i : Nat) (r : ReadyState) :
    (s.setReadyState i r).current.map (fun k => (k.sent, k.announced)) =
      s.current.map fun k => (k.sent, k.announced) := by
  rw [current, setReadyState, current]
  cases s.socket with
  | none => rfl
  | some j =>
    rw [Option.bind_some, Option.bind_some, List.getElem?_modify, Option.map_eq_map,
      Option.map_map]
    congr 1
    funext k
    by_cases hij : i = j
    · simp only [Function.comp_apply, hij, ite_true]
    · simp only [Function.comp_apply, hij, ite_false]

theorem wire_setReadyState (i : Nat) (r : ReadyState) : (s.setReadyState i r).wire = s.wire := by
  have h := congrArg (Option.map Prod.fst) (s.traffic_setReadyState i r)
  rw [Option.map_map, Option.map_map] at h
  rw [wire, wire]
  exact congrArg (fun sent => ops (sent.getD [])) h

theorem session_setReadyState {i : Nat} {r : ReadyState} (h : s.Handshake) (socket : GatewaySocket)
    (hsocket : (s.setReadyState i r).current = some socket) :
    socket.announced = none ∧ s.authenticated = false ∧ socket.sent = [] ∨
      socket.announced = some 0 := by
  have htraffic := s.traffic_setReadyState i r
  rw [hsocket, Option.map_some] at htraffic
  obtain ⟨socket', hs, heq⟩ := Option.map_eq_some_iff.mp htraffic.symm
  rw [Prod.mk.injEq] at heq
  rw [← heq.1, ← heq.2]
  exact h.session socket' hs

/-- The current socket was in its state before, unless it is the state that was set. -/
theorem socketState_setReadyState {i : Nat} {r q : ReadyState} (hr : r ≠ q)
    (h : (s.setReadyState i r).socketState = some q) : s.socketState = some q := by
  rw [socketState, Option.bind_eq_some_iff] at h
  obtain ⟨j, hj, h⟩ := h
  have hsocket : s.socket = some j := hj
  rw [readyState?_setReadyState] at h
  rw [socketState, hsocket, Option.bind_some]
  by_cases hij : i = j
  · simp only [hij, ite_true] at h
    obtain ⟨_, -, heq⟩ := Option.map_eq_some_iff.mp h
    exact absurd heq hr
  · simpa only [hij, ite_false] using h

theorem Handshake.setReadyState (h : s.Handshake) {i : Nat} {r : ReadyState} (hr : r ≠ .opened) :
    (s.setReadyState i r).Handshake :=
  ⟨h.waiters, fun hstate => h.opened (socketState_setReadyState hr hstate),
    session_setReadyState h⟩

theorem Agrees.setReadyState (h : s.Agrees) (i : Nat) (r : ReadyState) :
    (s.setReadyState i r).Agrees :=
  h.of_same ⟨rfl, rfl, s.wire_setReadyState i r⟩ rfl id

theorem Handshake.closeSocket (h : s.Handshake) (i : Nat) : (s.closeSocket i).Handshake := by
  unfold TckrGatewaySource.closeSocket
  split
  · exact h.setReadyState (by decide)
  · exact h.setReadyState (by decide)
  · exact h

theorem Agrees.closeSocket (h : s.Agrees) (i : Nat) : (s.closeSocket i).Agrees := by
  unfold TckrGatewaySource.closeSocket
  split
  · exact h.setReadyState i .closing
  · exact h.setReadyState i .closing
  · exact h

/-- What every step keeps. -/
structure Sound (s : TckrGatewaySource) : Prop where
  tracked : s.Tracked
  handshake : s.Handshake
  agrees : s.Agrees

theorem Sound.of_same (h : s.Sound) (hst : SameHandshake s t) (hb : SameBooks s t) : t.Sound :=
  ⟨h.tracked.of_sameSockets hst.toSameSockets, h.handshake.of_same hst,
    h.agrees.of_same hb hst.socket hst.recovering.mpr⟩

/-- Settling an open socket's promise hands the recovery on to a continuation. -/
theorem Sound.handleOpen (h : s.Sound) {i : Nat} (hi : s.readyState? i = some .connecting) :
    ((s.setReadyState i .opened).handleOpen).Sound := by
  have htracked : (s.setReadyState i .opened).Tracked :=
    h.tracked.of_live rfl fun j => live_setReadyState ⟨_, hi, by decide⟩ (by decide) j
  have hagrees := h.agrees.setReadyState i .opened
  have hsession := session_setReadyState (r := .opened) (i := i) h.handshake
  have hwaiters := h.handshake.waiters
  refine ⟨htracked.of_sameSockets (handleOpen_sameSockets _), ?_, ?_⟩
  · unfold TckrGatewaySource.handleOpen
    split
    · exact ⟨hwaiters, fun _ => rfl, hsession⟩
    · exact ⟨hwaiters, fun _ => rfl, hsession⟩
  · unfold TckrGatewaySource.handleOpen
    split
    · refine hagrees.of_same ⟨rfl, rfl, rfl⟩ rfl fun _ => ?_
      exact Or.inr (Or.inl (List.append_ne_nil_of_right_ne_nil _ (List.cons_ne_nil _ _)))
    · rename_i hresolvers
      refine hagrees.of_same ⟨rfl, rfl, rfl⟩ rfl fun hr => ?_
      rcases hr with hr | hr
      · exact absurd hr hresolvers
      · exact Or.inr hr

/-- Releasing the waiters hands the recovery on to their continuations. -/
theorem Agrees.releaseWaiters (h : s.Agrees) : s.releaseWaiters.Agrees := by
  refine h.of_same ⟨rfl, rfl, rfl⟩ rfl fun hr => ?_
  rcases hr with hr | hr | hr
  · exact Or.inl hr
  · exact Or.inr (Or.inl (List.append_ne_nil_of_left_ne_nil hr _))
  · refine Or.inr (Or.inl (List.append_ne_nil_of_right_ne_nil _ ?_))
    rw [ne_eq, List.replicate_eq_nil_iff]
    exact hr

theorem current_announce {i : Nat} {socket : GatewaySocket} (m : Connected)
    (hi : s.socket = some i) (hsocket : s.sockets[i]? = some socket) :
    (s.announce i (some (.connected m))).current =
      some { socket with announced := some socket.sent.length } := by
  simp only [announce, current, hi, Option.bind_some, List.getElem?_modify, hsocket, ite_true,
    Option.map_eq_map, Option.map_some]

/-- A session opens with nothing sent, and flushes what was queued. -/
theorem Sound.handleConnected (h : s.Sound) {i : Nat} (hi : s.readyState? i = some .opened)
    (m : Connected) (hpromise : s.ServerPromise (.socket i (.message (some (.connected m))))) :
    ((s.announce i (some (.connected m))).handleConnected m).Sound := by
  have hsocket : s.socket = some i := (h.tracked i).mp ⟨_, hi, by decide⟩
  have hopen : s.connectResolvers = none :=
    h.handshake.opened (by rw [socketState, hsocket]; exact hi)
  obtain ⟨socket, hget, -⟩ := Option.map_eq_some_iff.mp hi
  have hcurrent : s.current = some socket := by rw [current, hsocket]; exact hget
  have hsent : socket.sent = [] := by
    rcases h.handshake.session socket hcurrent with ⟨-, -, hnil⟩ | hzero
    · exact hnil
    · rw [hpromise socket hget] at hzero
      cases hzero
  have hannounce := current_announce m hsocket hget
  generalize hu : s.announce i (some (.connected m)) = u at hannounce ⊢
  have hwire : u.wire = s.wire := by rw [wire, wire, hannounce, hcurrent]; rfl
  have hagrees : u.Agrees := by
    subst hu
    exact h.agrees.of_same ⟨rfl, rfl, hwire⟩ rfl id
  have hresolvers : u.connectResolvers = none := by
    subst hu
    exact hopen
  have htracked : u.Tracked := by
    rw [← hu]
    exact h.tracked.of_sameSockets (s.announce_sameSockets i _)
  have htracked' := htracked.of_sameSockets (u.handleConnected_sameSockets m)
  obtain ⟨v, hv, hvcurrent, hvresolvers, hvsame, hvsocket, hvrecovering⟩ :
      ∃ v : TckrGatewaySource, u.handleConnected m = v.flushOutbound.releaseWaiters ∧
        v.current = u.current ∧ v.connectResolvers = u.connectResolvers ∧ SameBooks u v ∧
        v.socket = u.socket ∧ (u.Recovering → v.Recovering) :=
    ⟨_, rfl, rfl, rfl, ⟨rfl, rfl, rfl⟩, rfl, id⟩
  rw [hv] at htracked' ⊢
  have hsame := v.flushOutbound_sameHandshake
  refine ⟨htracked', ⟨fun _ => rfl, fun _ => ?_, ?_⟩, ?_⟩
  · exact (hsame.connectResolvers.trans hvresolvers).trans hresolvers
  · intro socket' hs
    obtain ⟨k, hk, hannounced, -⟩ := hsame.session socket' hs
    rw [hvcurrent, hannounce, Option.some.injEq] at hk
    refine Or.inr ?_
    rw [hannounced, ← hk, hsent]
    rfl
  · apply Agrees.releaseWaiters
    apply Agrees.flush
    exact hagrees.of_same hvsame hvsocket hvrecovering

theorem scheduleThrottleFlush_same (s : TckrGatewaySource) :
    SameHandshake s s.scheduleThrottleFlush ∧ SameBooks s s.scheduleThrottleFlush := by
  unfold scheduleThrottleFlush
  split
  · exact ⟨.of_eq rfl rfl rfl rfl rfl rfl, rfl, rfl, rfl⟩
  · exact ⟨.of_eq rfl rfl rfl rfl rfl rfl, rfl, rfl, rfl⟩

/-- Edits of other fields change neither the handshake nor the books. -/
theorem Sound.of_edit (h : s.Sound) (hst : SameHandshake s t)
    (hsymbols : t.subscribedSymbols = s.subscribedSymbols)
    (hpending : t.pendingOutbound = s.pendingOutbound) (hwire : t.wire = s.wire) : t.Sound :=
  h.of_same hst ⟨hsymbols, hpending, hwire⟩

theorem Sound.scheduleThrottleFlush (h : s.Sound) : s.scheduleThrottleFlush.Sound :=
  h.of_same s.scheduleThrottleFlush_same.1 s.scheduleThrottleFlush_same.2

theorem Sound.flushOutbound (h : s.Sound) : s.flushOutbound.Sound :=
  ⟨h.tracked.of_sameSockets s.flushOutbound_sameSockets,
    h.handshake.of_same s.flushOutbound_sameHandshake, h.agrees.flush⟩

theorem Sound.handleMessage (h : s.Sound) {i : Nat} (hi : s.readyState? i = some .opened)
    {m : Option ServerMessage} (hpromise : s.ServerPromise (.socket i (.message m))) :
    ((s.announce i m).handleMessage m).Sound := by
  cases m with
  | none => exact h
  | some m =>
    cases m with
    | connected m => exact h.handleConnected hi m hpromise
    | subscribed m =>
      have hnone : m.rejected = [] := hpromise
      have hsame : s.subscribedSymbols.deleteAll m.rejected = s.subscribedSymbols := by
        rw [hnone]
        rfl
      exact h.of_edit (.of_eq rfl rfl rfl rfl rfl rfl) hsame rfl rfl
    | unsubscribed m => exact h
    | error m =>
      change (s.handleError m).Sound
      unfold handleError
      split
      · apply Sound.scheduleThrottleFlush
        exact h.of_edit (.of_eq rfl rfl rfl rfl rfl rfl) rfl rfl rfl
      · exact h
    | entitlementChanged m =>
      change (s.handleEntitlementChanged m).Sound
      unfold handleEntitlementChanged
      split
      · exact h
      · exact h.of_edit (.of_eq rfl rfl rfl rfl rfl rfl) rfl rfl rfl
    | tick m | snapshot m | heartbeat m =>
      exact h.of_edit (.of_eq rfl rfl rfl rfl rfl rfl) rfl rfl rfl

/-- Every continuation but the last leaves another one to come, and the last resubscribes. -/
theorem Sound.resume (h : s.Sound) {c : Continuation} {rest : List Continuation} :
    ({ s with continuations := rest }.resume c).Sound := by
  obtain ⟨htracked, hhandshake, hagrees⟩ := h
  cases c with
  | afterOpen =>
    unfold TckrGatewaySource.resume
    dsimp only
    split
    · refine ⟨htracked.of_sameSockets (.of_eq rfl rfl),
        ⟨hhandshake.waiters, hhandshake.opened, hhandshake.session⟩,
        hagrees.of_same ⟨rfl, rfl, rfl⟩ rfl fun _ => ?_⟩
      exact Or.inr (Or.inl (List.append_ne_nil_of_right_ne_nil _ (List.cons_ne_nil _ _)))
    · rename_i hauth
      refine ⟨htracked.of_sameSockets (.of_eq rfl rfl),
        ⟨fun htrue => absurd htrue hauth, hhandshake.opened, hhandshake.session⟩,
        hagrees.of_same ⟨rfl, rfl, rfl⟩ rfl fun _ => ?_⟩
      exact Or.inr (Or.inr (Nat.succ_ne_zero _))
  | afterAuthenticated =>
    have hagrees' := Agrees.resubscribe (u := { s with continuations := rest }) hagrees
      ⟨rfl, rfl, rfl⟩
    have hhandshake' : Handshake { s with continuations := rest } :=
      ⟨hhandshake.waiters, hhandshake.opened, hhandshake.session⟩
    unfold TckrGatewaySource.resume
    rw [foldl_getSnapshot]
    refine Sound.of_edit ⟨?_, hhandshake'.of_same (subscribe_sameHandshake _ _), hagrees'⟩
      (.of_eq rfl rfl rfl rfl rfl rfl) rfl rfl rfl
    exact htracked.of_sameSockets ((subscribe_sameSockets _ _).of_edit rfl rfl)

theorem Sound.openSocket (h : s.Sound) (hfree : s.socket = none) {opener : Opener}
    (hqueued : opener = .connect → s.Queued) : (s.openSocket opener).Sound :=
  ⟨h.tracked.openSocket hfree opener, handshake_openSocket opener, h.agrees.openSocket hqueued⟩

theorem Sound.closeSocket (h : s.Sound) (i : Nat) : (s.closeSocket i).Sound :=
  ⟨h.tracked.closeSocket i, h.handshake.closeSocket i, h.agrees.closeSocket i⟩

theorem Sound.connect (h : s.Sound) (hfree : s.HasSocket ∨ s.socket = none)
    (hqueued : s.HasSocket ∨ s.Queued) : s.connect.Sound := by
  unfold TckrGatewaySource.connect
  by_cases hsocket : s.HasSocket
  · simp only [hsocket, ite_true]
    exact h
  · simp only [hsocket, ite_false]
    apply Sound.openSocket
    · exact h.of_edit (.of_eq rfl rfl rfl rfl rfl rfl) rfl rfl rfl
    · exact hfree.resolve_left hsocket
    · intro _
      exact hqueued.resolve_left hsocket

theorem Sound.disconnect (h : s.Sound) : s.disconnect.Sound := by
  unfold TckrGatewaySource.disconnect
  dsimp only
  split
  · apply Sound.closeSocket
    exact h.of_edit (.of_eq rfl rfl rfl rfl rfl rfl) rfl rfl rfl
  · exact h.of_edit (.of_eq rfl rfl rfl rfl rfl rfl) rfl rfl rfl

theorem queued_disconnect : s.disconnect.Queued ↔ s.Queued := by
  unfold TckrGatewaySource.disconnect closeSocket
  dsimp only
  split
  · split
    · exact Iff.rfl
    · exact Iff.rfl
    · exact Iff.rfl
  · exact Iff.rfl

theorem Sound.perform (h : s.Sound) {c : Call} (hfree : s.OpensFree (.call c))
    (hc : s.CallAgrees c) : (s.perform c).Sound := by
  cases c with
  | connect => exact h.connect hfree hc
  | disconnect => exact h.disconnect
  | reconnectSharedSource =>
    exact h.disconnect.connect (Or.inr (disconnect_socket.trans hfree))
      (Or.inr (queued_disconnect.mpr hc))
  | subscribe symbols =>
    exact ⟨h.tracked.of_sameSockets (s.subscribe_sameSockets symbols),
      h.handshake.of_same (s.subscribe_sameHandshake symbols), h.agrees.subscribe hc⟩
  | unsubscribe symbols =>
    exact ⟨h.tracked.of_sameSockets (s.unsubscribe_sameSockets symbols),
      h.handshake.of_same (s.unsubscribe_sameHandshake symbols), h.agrees.unsubscribe hc⟩
  | getSnapshot symbol => exact h.of_edit (.of_eq rfl rfl rfl rfl rfl rfl) rfl rfl rfl

theorem Sound.step (h : s.Sound) {a : Action} (hg : s.KeepsAgreement a)
    (hstep : s.step a = some t) : t.Sound := by
  obtain ⟨hpromise, hfree, hcall⟩ := hg
  have htracked := h.tracked.step hfree hstep
  cases step_cases hstep with
  | call c => exact h.perform hfree hcall
  | opened hidle hi => exact h.handleOpen hi
  | message hidle hi => exact h.handleMessage hi hpromise
  | closing hidle hi =>
    exact ⟨htracked, h.handshake.setReadyState (by decide), h.agrees.setReadyState _ _⟩
  | closed hidle hi =>
    exact ⟨htracked, handshake_handleClose _ _ _, (h.agrees.setReadyState _ _).handleClose _ _ _⟩
  | throttle =>
    have hedit := h.of_edit (t := { s with throttleTimer := none })
      (.of_eq rfl rfl rfl rfl rfl rfl) rfl rfl rfl
    unfold throttleTimerFired
    dsimp only
    split
    · exact hedit.scheduleThrottleFlush
    · exact hedit.flushOutbound
  | reconnect =>
    apply Sound.openSocket
    · exact h.of_edit (.of_eq rfl rfl rfl rfl rfl rfl) rfl rfl rfl
    · exact hfree
    · intro hconnect
      cases hconnect
  | @watchdog w due rand hidle hwatch hhandle hdue =>
    have hedit := h.of_edit (t := { s with heartbeatWatchdog := some w.fired })
      (.of_eq rfl rfl rfl rfl rfl rfl) rfl rfl rfl
    unfold forceLocalClose at htracked ⊢
    split at htracked
    · exact hedit.closeSocket _
    · exact ⟨htracked, handshake_handleClose _ _ _, hedit.agrees.handleClose _ _ _⟩
  | ping =>
    have hedit := h.of_edit (t := { s with
      requestSeq := s.requestSeq + 1
      pingTimer := s.heartbeatIntervalMs.map (s.now + ·) })
      (.of_eq rfl rfl rfl rfl rfl rfl) rfl rfl rfl
    exact ⟨htracked, hedit.handshake.of_same (send_sameHandshake _ _), hedit.agrees.send_ping _⟩
  | continuation => exact h.resume
  | frame | snapshotAnswered | snapshotArrived | snapshotFailed | universeArrived | advance =>
    exact h.of_edit (.of_eq rfl rfl rfl rfl rfl rfl) rfl rfl rfl

theorem sound_init : gateway.init.Sound := by
  refine ⟨tracked_init, ⟨fun _ => rfl, fun _ => rfl, ?_⟩, ⟨List.not_mem_nil, SetOp.tracks_nil, ?_⟩⟩
  · intro socket hsocket
    cases hsocket
  · intro hsocket
    exact absurd rfl hsocket

/-- In every run that keeps to the conditions, whenever the client is authenticated on
an open socket with nothing queued and no continuation to run, the server holds
exactly the symbols the client is subscribed to. -/
theorem subscription_agreement {as : List Action} {s : TckrGatewaySource}
    (hg : gateway.Guarded KeepsAgreement gateway.init as) (h : gateway.run as = some s)
    (hauth : s.authenticated = true) (hopen : s.socketState = some .opened)
    (hqueue : s.pendingOutbound = []) (hidle : s.continuations = []) :
    s.serverSet = s.subscribedSymbols.elems.toFinset := by
  have hsound : s.Sound := by
    apply Machine.run_invariant_of_guarded (m := gateway) (G := KeepsAgreement) sound_init _ hg h
    intro s a t hs ha ht
    exact hs.step ha ht
  have hcan : s.socket ≠ none := by
    intro hnone
    rw [socketState, hnone] at hopen
    cases hopen
  have hsettled : ¬ s.Recovering := by
    rintro (hr | hr | hr)
    · rw [hsound.handshake.opened hopen] at hr
      cases hr
    · exact hr hidle
    · exact hr (hsound.handshake.waiters hauth)
  have hcovers := hsound.agrees.covers hcan hsettled
  have hreplay := hsound.agrees.tracks.replay_eq hcovers
  rw [queue, hqueue, ops, List.filterMap_nil, List.append_nil] at hreplay
  obtain ⟨i, hi, hr⟩ := Option.bind_eq_some_iff.mp hopen
  obtain ⟨socket, hget, -⟩ := Option.map_eq_some_iff.mp hr
  have hcurrent : s.current = some socket := by rw [current, hi]; exact hget
  have hannounced : socket.announced = some 0 := by
    rcases hsound.handshake.session socket hcurrent with ⟨-, hfalse, -⟩ | hzero
    · rw [hauth] at hfalse
      cases hfalse
    · exact hzero
  rw [wire, hcurrent] at hreplay
  rw [serverSet, hcurrent, Option.map_some, Option.getD_some, GatewaySocket.serverSet, hannounced]
  exact hreplay

/-- Two subscriptions, a drop, one of them given up meanwhile, and the automatic
reconnect with its resubscription. -/
def resubscribedRun : List Action :=
  [.call .connect, .socket 0 .open, .socket 0 (hello .live), .call (.subscribe ["COMI", "ETEL"]),
    .socket 0 (.close 1006 "" 0), .call (.unsubscribe ["ETEL"]), .advance 400, .timer .reconnect,
    .socket 1 .open, .continuation, .socket 1 (hello .live), .continuation]

def resubscribedSource : TckrGatewaySource := (gateway.run resubscribedRun).getD {}

/-- After the reconnect the server holds the one symbol still subscribed. -/
theorem resubscribedSource_agrees :
    resubscribedSource.subscribedSymbols.elems = ["COMI"] ∧
      resubscribedSource.serverSet = resubscribedSource.subscribedSymbols.elems.toFinset :=
  ⟨by decide +kernel, @subscription_agreement resubscribedRun _ (by decide +kernel)
    (by decide +kernel) (by decide +kernel) (by decide +kernel) (by decide +kernel)
    (by decide +kernel)⟩

/-- A subscription, then a disconnect and a fresh connect of the page. -/
def forgottenRun : List Action :=
  [.call .connect, .socket 0 .open, .socket 0 (hello .live), .call (.subscribe ["COMI"]),
    .call .disconnect, .socket 0 (.close 1000 "client disconnect" 0), .call .connect,
    .socket 1 .open, .socket 1 (hello .live)]

/-- `connect` announces nothing, so the new session knows of no subscription. -/
theorem connect_forgets_subscriptions :
    gateway.Guarded ServerPromise gateway.init forgottenRun ∧
      ∃ s, gateway.run forgottenRun = some s ∧ s.authenticated = true ∧
        s.socketState = some .opened ∧ s.pendingOutbound = [] ∧ s.continuations = [] ∧
        s.serverSet ≠ s.subscribedSymbols.elems.toFinset :=
  ⟨by decide +kernel, (gateway.run forgottenRun).getD {}, by decide +kernel, by decide +kernel,
    by decide +kernel, by decide +kernel, by decide +kernel, by decide +kernel⟩

/-- A subscription held back by the rate limit, given up once the limit has passed but
before the flush timer has fired. -/
def overtakenRun : List Action :=
  [.call .connect, .socket 0 .open, .socket 0 (hello .live),
    .socket 0 (.message (some (.error ⟨.rateLimited, "slow down", none⟩))),
    .call (.subscribe ["COMI"]), .advance 2000, .call (.unsubscribe ["COMI"]), .timer .throttle]

/-- The unsubscribe overtakes the queued subscribe, which then stands. -/
example :
    gateway.Guarded ServerPromise gateway.init overtakenRun ∧
      ∃ s, gateway.run overtakenRun = some s ∧ s.authenticated = true ∧
        s.socketState = some .opened ∧ s.pendingOutbound = [] ∧ s.continuations = [] ∧
        s.subscribedSymbols.elems = [] ∧ s.serverSet = {"COMI"} :=
  ⟨by decide +kernel, (gateway.run overtakenRun).getD {}, by decide +kernel, by decide +kernel,
    by decide +kernel, by decide +kernel, by decide +kernel, by decide +kernel, by decide +kernel⟩

end TckrGatewaySource

end Tckr.MarketWatch
