import Tckr.MarketWatch.Data.GatewaySteps

/-!
# One socket at a time

No handler of a socket asks whether its socket is still the current one, so the
source is sound only as long as a socket is replaced after its close event. In
such runs the live socket, if any, is the current one, and nothing else speaks.
-/

namespace Tckr.MarketWatch.TckrGatewaySource

/-- The socket is connecting or open. -/
def InUse (s : TckrGatewaySource) (i : Nat) : Prop :=
  s.readyState? i = some .connecting ∨ s.readyState? i = some .opened

/-- What belongs to the current session is the same in both states. -/
structure SameSession (s t : TckrGatewaySource) : Prop where
  socket : t.socket = s.socket
  authenticated : t.authenticated = s.authenticated
  connectResolvers : t.connectResolvers = s.connectResolvers
  throttleTimer : t.throttleTimer = s.throttleTimer
  heartbeatWatchdog : t.heartbeatWatchdog = s.heartbeatWatchdog
  pingTimer : t.pingTimer = s.pingTimer
  reconnectTimer : t.reconnectTimer = s.reconnectTimer

/-- At most one socket is in use, it is the current one, and the events of the
others change nothing that belongs to it. -/
structure SingleSocket (s : TckrGatewaySource) : Prop where
  single : ∀ i j, s.InUse i → s.InUse j → i = j
  current : ∀ i, s.InUse i → s.socket = some i
  superseded : ∀ i e t, s.socket ≠ some i → s.step (.socket i e) = some t → s.SameSession t

/-- `#openSocket` is entered only while there is no current socket. -/
def OpensFree (s : TckrGatewaySource) : Action → Prop
  | .call .connect => s.HasSocket ∨ s.socket = none
  | .call .reconnectSharedSource | .timer .reconnect => s.socket = none
  | _ => True

instance (s : TckrGatewaySource) (a : Action) : Decidable (s.OpensFree a) := by
  unfold OpensFree
  split
  · exact inferInstanceAs (Decidable (_ ∨ _))
  · exact inferInstanceAs (Decidable (_ = _))
  · exact inferInstanceAs (Decidable (_ = _))
  · exact inferInstanceAs (Decidable True)

/-- The current socket is the one whose close event is still to come. -/
def Tracked (s : TckrGatewaySource) : Prop := ∀ i, s.Live i ↔ s.socket = some i

variable {s t : TckrGatewaySource}

/-- Steps that neither open nor finish a socket keep track of it. -/
theorem Tracked.of_live (h : s.Tracked) (hsocket : t.socket = s.socket)
    (hlive : ∀ i, t.Live i ↔ s.Live i) : t.Tracked := by
  intro i
  rw [hlive i, hsocket]
  exact h i

theorem Tracked.of_sameSockets (h : s.Tracked) (hst : SameSockets s t) : t.Tracked :=
  h.of_live hst.socket hst.live

theorem readyState?_setReadyState (i j : Nat) (r : ReadyState) :
    (s.setReadyState i r).readyState? j =
      if i = j then (s.readyState? j).map fun _ => r else s.readyState? j := by
  rw [readyState?, setReadyState, List.getElem?_modify, Option.map_eq_map, Option.map_map]
  by_cases hij : i = j
  · simp only [hij, ite_true, readyState?, Option.map_map]
    rfl
  · simp only [hij, ite_false, readyState?]
    rfl

theorem socketState_setReadyState_current {i : Nat} (hcurrent : s.socket = some i)
    (r : ReadyState) :
    (s.setReadyState i r).socketState = s.socketState.map fun _ => r := by
  rw [socketState, show (s.setReadyState i r).socket = some i from hcurrent, Option.bind_some,
    readyState?_setReadyState, if_pos rfl, socketState, hcurrent, Option.bind_some]

theorem live_setReadyState {i : Nat} {r : ReadyState} (hi : s.Live i) (hr : r ≠ .closed) (j : Nat) :
    (s.setReadyState i r).Live j ↔ s.Live j := by
  unfold Live
  rw [readyState?_setReadyState]
  by_cases hij : i = j
  · subst hij
    obtain ⟨r', hr', hne⟩ := hi
    simp only [ite_true, hr', Option.map_some, Option.some.injEq]
    constructor
    · intro _
      exact ⟨r', rfl, hne⟩
    · intro _
      exact ⟨r, rfl, hr⟩
  · simp only [hij, ite_false]

/-- A socket that is closed is no longer alive; the others are as before. -/
theorem live_setReadyState_closed (i j : Nat) :
    (s.setReadyState i .closed).Live j ↔ i ≠ j ∧ s.Live j := by
  unfold Live
  rw [readyState?_setReadyState]
  by_cases hij : i = j
  · simp only [hij, ite_true, ne_eq, not_true_eq_false, false_and, iff_false]
    rintro ⟨r, hr, hne⟩
    rw [Option.map_eq_some_iff] at hr
    obtain ⟨_, -, rfl⟩ := hr
    exact hne rfl
  · simp only [hij, ite_false, ne_eq, not_false_eq_true, true_and]

theorem live_closeSocket (i j : Nat) : (s.closeSocket i).Live j ↔ s.Live j := by
  unfold closeSocket
  split
  · exact live_setReadyState ⟨_, ‹_›, by decide⟩ (by decide) j
  · exact live_setReadyState ⟨_, ‹_›, by decide⟩ (by decide) j
  · exact Iff.rfl

theorem closeSocket_socket (i : Nat) : (s.closeSocket i).socket = s.socket := by
  unfold closeSocket
  split
  · rfl
  · rfl
  · rfl

theorem live_openSocket (opener : Opener) (i : Nat) :
    (s.openSocket opener).Live i ↔ s.Live i ∨ i = s.sockets.length := by
  unfold Live readyState? openSocket
  dsimp only
  by_cases hi : i < s.sockets.length
  · rw [List.getElem?_append_left hi]
    exact (or_iff_left (Nat.ne_of_lt hi)).symm
  · rw [List.getElem?_append_right (Nat.le_of_not_lt hi), List.getElem?_singleton,
      List.getElem?_eq_none (Nat.le_of_not_lt hi)]
    by_cases heq : i = s.sockets.length
    · simp only [heq, Nat.sub_self, ite_true, Option.map_some, or_true, iff_true]
      exact ⟨.connecting, rfl, by decide⟩
    · have hne : i - s.sockets.length ≠ 0 := by omega
      simp only [heq, hne, ite_false, or_false]

/-- A socket opened while there is none is the one to keep track of. -/
theorem Tracked.openSocket (h : s.Tracked) (hfree : s.socket = none) (opener : Opener) :
    (s.openSocket opener).Tracked := by
  intro i
  have hi : ¬ s.Live i := by
    rw [h i, hfree]
    exact (Option.some_ne_none i).symm
  rw [live_openSocket]
  simp only [hi, false_or, TckrGatewaySource.openSocket, Option.some.injEq]
  exact eq_comm

theorem Tracked.closeSocket (h : s.Tracked) (i : Nat) : (s.closeSocket i).Tracked :=
  h.of_live (closeSocket_socket i) fun j => live_closeSocket i j

theorem Tracked.connect (h : s.Tracked) (hfree : s.HasSocket ∨ s.socket = none) :
    s.connect.Tracked := by
  unfold TckrGatewaySource.connect
  by_cases hsocket : s.HasSocket
  · simp only [hsocket, ite_true]
    exact h
  · simp only [hsocket, ite_false]
    apply Tracked.openSocket
    · exact h.of_sameSockets (.of_eq rfl rfl)
    · exact hfree.resolve_left hsocket

theorem Tracked.disconnect (h : s.Tracked) : s.disconnect.Tracked := by
  unfold TckrGatewaySource.disconnect
  dsimp only
  split
  · apply Tracked.closeSocket
    exact h.of_sameSockets (.of_eq rfl rfl)
  · exact h.of_sameSockets (.of_eq rfl rfl)

theorem disconnect_socket : s.disconnect.socket = s.socket := by
  unfold disconnect
  dsimp only
  split
  · exact closeSocket_socket _
  · rfl

/-- Closing leaves no current socket, whatever it decides about reconnecting. -/
theorem handleClose_socket (code : Nat) (reason : String) (rand : Rat) :
    (s.handleClose code reason rand).socket = none := by
  unfold handleClose
  dsimp only
  split
  · rfl
  · split
    · rfl
    · rfl

theorem handleClose_sockets (code : Nat) (reason : String) (rand : Rat) :
    (s.handleClose code reason rand).sockets = s.sockets := by
  unfold handleClose
  dsimp only
  split
  · rfl
  · split
    · rfl
    · rfl

theorem Tracked.handleClose (hlive : ∀ i, ¬ s.Live i) (code : Nat) (reason : String) (rand : Rat) :
    (s.handleClose code reason rand).Tracked := by
  intro i
  have hi : ¬ (s.handleClose code reason rand).Live i := by
    unfold Live readyState?
    rw [handleClose_sockets]
    exact hlive i
  rw [handleClose_socket]
  exact iff_of_false hi (Option.some_ne_none i).symm

theorem Tracked.forceLocalClose (h : s.Tracked) (rand : Rat) :
    (s.forceLocalClose rand).Tracked := by
  unfold TckrGatewaySource.forceLocalClose
  split
  · exact h.closeSocket _
  · rename_i hnone
    apply Tracked.handleClose
    intro i hi
    rw [h i, hnone] at hi
    cases hi

theorem Tracked.perform (h : s.Tracked) {c : Call} (hg : s.OpensFree (.call c)) :
    (s.perform c).Tracked := by
  cases c with
  | connect => exact h.connect hg
  | disconnect => exact h.disconnect
  | reconnectSharedSource => exact h.disconnect.connect (Or.inr (disconnect_socket.trans hg))
  | subscribe symbols => exact h.of_sameSockets (s.subscribe_sameSockets symbols)
  | unsubscribe symbols => exact h.of_sameSockets (s.unsubscribe_sameSockets symbols)
  | getSnapshot symbol => exact h.of_sameSockets (.of_eq rfl rfl)

theorem Tracked.step {a : Action} (h : s.Tracked) (hg : s.OpensFree a)
    (hstep : s.step a = some t) : t.Tracked := by
  cases step_cases hstep with
  | call c => exact h.perform hg
  | opened hidle hi =>
    refine Tracked.of_sameSockets ?_ (handleOpen_sameSockets _)
    exact h.of_live rfl fun j => live_setReadyState ⟨_, hi, by decide⟩ (by decide) j
  | message hidle hi =>
    exact h.of_sameSockets ((s.announce_sameSockets _ _).trans (handleMessage_sameSockets _ _))
  | closing hidle hi =>
    exact h.of_live rfl fun j => live_setReadyState ⟨_, hi, by decide⟩ (by decide) j
  | closed hidle hi =>
    apply Tracked.handleClose
    intro j hj
    rw [live_setReadyState_closed, h j] at hj
    rw [h _] at hi
    exact hj.1 (Option.some.inj (hi.symm.trans hj.2))
  | throttle => exact h.of_sameSockets s.throttleTimerFired_sameSockets
  | reconnect =>
    apply Tracked.openSocket
    · exact h.of_sameSockets (.of_eq rfl rfl)
    · exact hg
  | watchdog =>
    apply Tracked.forceLocalClose
    exact h.of_sameSockets (.of_eq rfl rfl)
  | ping => exact h.of_sameSockets s.ping_sameSockets
  | continuation => exact h.of_sameSockets ((resume_sameSockets _ _).of_edit rfl rfl)
  | frame | snapshotAnswered | snapshotArrived | snapshotFailed | universeArrived | advance =>
    exact h.of_sameSockets (.of_eq rfl rfl)

theorem tracked_init : gateway.init.Tracked := by
  intro i
  constructor
  · rintro ⟨r, hr, -⟩
    cases hr
  · intro hi
    cases hi

theorem InUse.live {i : Nat} (h : s.InUse i) : s.Live i := by
  rcases h with h | h
  · exact ⟨_, h, by decide⟩
  · exact ⟨_, h, by decide⟩

/-- Only live sockets have events. -/
theorem live_of_socketEvent {i : Nat} {e : SocketEvent} (h : s.step (.socket i e) = some t) :
    s.Live i := by
  cases step_cases h with
  | opened hidle hi | message hidle hi | closing hidle hi => exact ⟨_, hi, by decide⟩
  | closed hidle hi => exact hi

theorem Tracked.singleSocket (h : s.Tracked) : s.SingleSocket := by
  constructor
  · intro i j hi hj
    exact Option.some.inj (((h i).mp hi.live).symm.trans ((h j).mp hj.live))
  · intro i hi
    exact (h i).mp hi.live
  · intro i e t hi hstep
    exact absurd ((h i).mp (live_of_socketEvent hstep)) hi

/-- In every run that opens a socket only once the previous one's close event has
come, at most one socket is in use and no event of another changes its session. -/
theorem single_socket {as : List Action} {s : TckrGatewaySource}
    (hg : gateway.Guarded OpensFree gateway.init as) (h : gateway.run as = some s) :
    s.SingleSocket := by
  have htracked : s.Tracked := by
    apply Machine.run_invariant_of_guarded (m := gateway) (G := OpensFree) tracked_init _ hg h
    intro s a t hs ha ht
    exact hs.step ha ht
  exact htracked.singleSocket

/-- A session of the demo user on a stream. -/
def hello (stream : Stream) : SocketEvent :=
  .message (some (.connected ⟨"user-001", stream, "session-1", 5000, "2026-01-04T08:00:00Z"⟩))

/-- A drop and an automatic reconnect, then a close by the page and a fresh connect. -/
def orderlyRun : List Action :=
  [.call .connect, .socket 0 .open, .socket 0 (hello .live),
    .socket 0 (.close 1006 "" 0), .advance 400, .timer .reconnect, .socket 1 .open, .continuation,
    .socket 1 (hello .live), .continuation, .call .disconnect,
    .socket 1 (.close 1000 "client disconnect" 0), .call .connect]

def orderlySource : TckrGatewaySource := (gateway.run orderlyRun).getD {}

/-- Three sockets were created; the third is in use and current. -/
theorem orderlySource_single_socket :
    orderlySource.sockets.length = 3 ∧ orderlySource.InUse 2 ∧ orderlySource.SingleSocket :=
  ⟨by decide +kernel, Or.inl (by decide +kernel),
    @single_socket orderlyRun _ (by decide +kernel) (by decide +kernel)⟩

/-- The manual retry of an open connection, whose old socket reports its close late. -/
def lateCloseRun : List Action :=
  [.call .connect, .socket 0 .open, .socket 0 (hello .live), .call .reconnectSharedSource,
    .socket 0 (.close 1000 "client disconnect" 0)]

/-- The late close takes away the new socket, which stays alive and unowned. -/
theorem late_close_disowns_successor :
    ∃ s, gateway.run lateCloseRun = some s ∧ s.InUse 1 ∧ s.socket = none ∧ ¬ s.SingleSocket := by
  refine ⟨(gateway.run lateCloseRun).getD {}, by decide +kernel, Or.inl (by decide +kernel),
    by decide +kernel, fun h => ?_⟩
  have hcurrent := h.current 1 (Or.inl (by decide +kernel))
  have hnone : ((gateway.run lateCloseRun).getD {}).socket = none := by decide +kernel
  rw [hnone] at hcurrent
  cases hcurrent

end Tckr.MarketWatch.TckrGatewaySource
