import Mathlib.Tactic.Linarith
import Mathlib.Tactic.NormNum
import Mathlib.Tactic.Positivity
import Mathlib.Tactic.Ring
import Tckr.Core.Timers
import Tckr.MarketWatch.Data.Sockets

/-!
# The backoff over a run

The reconnect timers as the browser keeps them, set and cleared by their handles, and the
closes since the last `connected`. Where only sockets and timers drive the source, every
close that is worth a retry sets one timer, whose delay doubles with each close, and no
other close sets or leaves one.
-/

namespace Tckr.MarketWatch

/-- The reconnect timers, and what the retries depend on. -/
structure Reconnects where
  /-- `#reconnectTimer` -/
  handle : Option Nat := none
  timers : Timers Rat := {}
  /-- The closes since the last `connected`. -/
  closes : Nat := 0
  /-- `disconnect()` was called, and no `connect()` since. -/
  disconnected : Bool := false
  deriving DecidableEq

namespace Reconnects

def clearReconnectTimer (r : Reconnects) : Reconnects :=
  match r.handle with
  | some handle => { r with timers := r.timers.clearTimeout handle, handle := none }
  | none => r

/-- Any timer that is still armed makes way for the new one. -/
def setReconnectTimer (r : Reconnects) (due : Rat) : Reconnects :=
  let r := r.clearReconnectTimer
  { r with handle := some r.timers.nextHandle, timers := r.timers.setTimeout due }

/-- The callback forgets its own handle. -/
def fired (r : Reconnects) : Reconnects := r.clearReconnectTimer

end Reconnects

namespace TckrGatewaySource

/-- What `#handleClose` does to the timers. -/
def recordClose (s : TckrGatewaySource) (code : Nat) (rand : Rat) (r : Reconnects) : Reconnects :=
  let closed := { r with closes := r.closes + 1 }
  if s.intentionalClose then closed
  else if reconnectDecisionFor (toCloseCode code) then
    closed.setReconnectTimer (s.now + nextDelay (s.backoffAttempt + 1) defaultBackoffPolicy rand)
  else closed

/-- The timers after a step. -/
def recordReconnects (s : TckrGatewaySource) :
    Action → TckrGatewaySource → Reconnects → Reconnects
  | .call .connect, _, r => if s.HasSocket then r else { r with disconnected := false }
  | .call .disconnect, _, r => { r.clearReconnectTimer with disconnected := true }
  | .call .reconnectSharedSource, _, r => { r.clearReconnectTimer with disconnected := false }
  | .socket _ (.close code _ rand), _, r => s.recordClose code rand r
  | .socket _ (.message (some (.connected _))), _, r => { r with closes := 0 }
  | .timer .reconnect, _, r => r.fired
  | .timer (.watchdog rand), _, r => if s.socket = none then s.recordClose 4408 rand r else r
  | _, _, r => r

/-- Nothing but the first `connect()` opens a socket, apart from the timers. -/
def Driven (s : TckrGatewaySource) : Action → Prop
  | .call .connect => s.HasSocket ∨ s.sockets = []
  | .call .reconnectSharedSource => False
  | _ => True

instance (s : TckrGatewaySource) : (a : Action) → Decidable (s.Driven a)
  | .call .connect => inferInstanceAs (Decidable (_ ∨ _))
  | .call .reconnectSharedSource => inferInstanceAs (Decidable False)
  | .call .disconnect | .call (.subscribe _) | .call (.unsubscribe _) | .call (.getSnapshot _)
  | .socket _ _ | .timer _ | .continuation | .frame | .snapshotAnswered _ _ | .snapshotArrived _
  | .snapshotFailed _ | .universeArrived _ | .advance _ => inferInstanceAs (Decidable True)

end TckrGatewaySource

open TckrGatewaySource in
/-- The gateway source with its reconnect timers. -/
def reconnecting : Machine (TckrGatewaySource × Reconnects) Action :=
  gateway.withHistory {} recordReconnects

/-! ## The delay -/

/-- The middle of the delay before the retry after the `k`-th close. -/
def centre (k : Nat) : Rat := min (500 * 2 ^ (k - 1)) 30000

/-- A draw moves the delay by a fifth of the middle at most. -/
theorem nextDelay_mem {k : Nat} {rand : Rat} (hlower : 0 ≤ rand) (hupper : rand < 1) :
    4 / 5 * centre k ≤ nextDelay k defaultBackoffPolicy rand ∧
      nextDelay k defaultBackoffPolicy rand < 6 / 5 * centre k := by
  have hcentre : 0 < centre k := lt_min (by positivity) (by norm_num)
  have hdelay : nextDelay k defaultBackoffPolicy rand =
      4 / 5 * centre k + rand * (2 / 5 * centre k) := by
    simp only [nextDelay, defaultBackoffPolicy]
    rw [← centre]
    ring
  rw [hdelay]
  constructor
  · have hspan := mul_nonneg hlower (by positivity : (0 : Rat) ≤ 2 / 5 * centre k)
    linarith
  · have hspan := mul_lt_mul_of_pos_right hupper (by positivity : (0 : Rat) < 2 / 5 * centre k)
    linarith

/-- What is retried: every code but two. -/
theorem reconnectDecisionFor_toCloseCode (code : Nat) :
    reconnectDecisionFor (toCloseCode code) = true ↔ code ≠ 1000 ∧ code ≠ 4401 := by
  unfold toCloseCode
  split
  · simp [reconnectDecisionFor, shouldReconnect]
  · simp [reconnectDecisionFor, shouldReconnect]
  · simp [reconnectDecisionFor, shouldReconnect]
  · simp [reconnectDecisionFor, shouldReconnect]
  · simp [reconnectDecisionFor, shouldReconnect]
  · next hnormal hunauthenticated _ _ _ => exact iff_of_true rfl ⟨hnormal, hunauthenticated⟩

namespace TckrGatewaySource

/-! ## What leaves the retries alone -/

/-- What the retries depend on. -/
structure SameRetries (s t : TckrGatewaySource) : Prop where
  socket : t.socket = s.socket
  reconnectTimer : t.reconnectTimer = s.reconnectTimer
  backoffAttempt : t.backoffAttempt = s.backoffAttempt
  intentionalClose : t.intentionalClose = s.intentionalClose
  heartbeatWatchdog : t.heartbeatWatchdog.isSome = s.heartbeatWatchdog.isSome
  sockets : t.sockets.length = s.sockets.length

namespace SameRetries

variable {s t u : TckrGatewaySource}

theorem trans (h : SameRetries s t) (h' : SameRetries t u) : SameRetries s u where
  socket := h'.socket.trans h.socket
  reconnectTimer := h'.reconnectTimer.trans h.reconnectTimer
  backoffAttempt := h'.backoffAttempt.trans h.backoffAttempt
  intentionalClose := h'.intentionalClose.trans h.intentionalClose
  heartbeatWatchdog := h'.heartbeatWatchdog.trans h.heartbeatWatchdog
  sockets := h'.sockets.trans h.sockets

end SameRetries

section Frames

variable (s : TckrGatewaySource)

theorem transmit_sameRetries (msgs : List ClientMessage) : SameRetries s (s.transmit msgs) := by
  unfold transmit
  split
  · exact ⟨rfl, rfl, rfl, rfl, rfl, List.length_modify _ _ _⟩
  · exact ⟨rfl, rfl, rfl, rfl, rfl, rfl⟩

theorem setReadyState_sameRetries (i : Nat) (r : ReadyState) :
    SameRetries s (s.setReadyState i r) :=
  ⟨rfl, rfl, rfl, rfl, rfl, List.length_modify _ _ _⟩

theorem closeSocket_sameRetries (i : Nat) : SameRetries s (s.closeSocket i) := by
  unfold closeSocket
  split
  · exact s.setReadyState_sameRetries i .closing
  · exact s.setReadyState_sameRetries i .closing
  · exact ⟨rfl, rfl, rfl, rfl, rfl, rfl⟩

theorem announce_sameRetries (i : Nat) (m : Option ServerMessage) :
    SameRetries s (s.announce i m) := by
  unfold announce
  split
  · exact ⟨rfl, rfl, rfl, rfl, rfl, List.length_modify _ _ _⟩
  · exact ⟨rfl, rfl, rfl, rfl, rfl, rfl⟩

theorem sameRetries_unaffected : Unaffected SameRetries where
  trans := SameRetries.trans
  transmit := transmit_sameRetries
  queued _ _ _ := ⟨rfl, rfl, rfl, rfl, rfl, rfl⟩

theorem send_sameRetries (msg : ClientMessage) : SameRetries s (s.send msg) :=
  sameRetries_unaffected.send s msg

theorem flushOutbound_sameRetries : SameRetries s s.flushOutbound :=
  sameRetries_unaffected.flushOutbound s

theorem scheduleThrottleFlush_sameRetries : SameRetries s s.scheduleThrottleFlush :=
  sameRetries_unaffected.scheduleThrottleFlush s

theorem subscribe_sameRetries (symbols : List String) : SameRetries s (s.subscribe symbols) := by
  unfold subscribe
  split
  · exact ⟨rfl, rfl, rfl, rfl, rfl, rfl⟩
  · refine .trans ?_ (send_sameRetries _ _)
    exact ⟨rfl, rfl, rfl, rfl, rfl, rfl⟩

theorem unsubscribe_sameRetries (symbols : List String) :
    SameRetries s (s.unsubscribe symbols) := by
  unfold unsubscribe
  split
  · exact ⟨rfl, rfl, rfl, rfl, rfl, rfl⟩
  · refine .trans ?_ (send_sameRetries _ _)
    exact ⟨rfl, rfl, rfl, rfl, rfl, rfl⟩

theorem ping_sameRetries : SameRetries s s.ping := by
  refine .trans ?_ (send_sameRetries _ _)
  exact ⟨rfl, rfl, rfl, rfl, rfl, rfl⟩

theorem throttleTimerFired_sameRetries : SameRetries s s.throttleTimerFired :=
  sameRetries_unaffected.throttleTimerFired s

theorem handleOpen_sameRetries : SameRetries s s.handleOpen := by
  unfold handleOpen
  split
  · exact ⟨rfl, rfl, rfl, rfl, rfl, rfl⟩
  · exact ⟨rfl, rfl, rfl, rfl, rfl, rfl⟩

theorem resume_sameRetries (c : Continuation) : SameRetries s (s.resume c) := by
  cases c with
  | afterOpen =>
    unfold resume
    dsimp only
    split
    · exact ⟨rfl, rfl, rfl, rfl, rfl, rfl⟩
    · exact ⟨rfl, rfl, rfl, rfl, rfl, rfl⟩
  | afterAuthenticated =>
    unfold resume
    dsimp only
    rw [foldl_getSnapshot]
    exact (s.subscribe_sameRetries _).trans ⟨rfl, rfl, rfl, rfl, rfl, rfl⟩

theorem handleMessage_sameRetries {m : Option ServerMessage}
    (hm : ∀ connected, m ≠ some (.connected connected)) : SameRetries s (s.handleMessage m) := by
  unfold handleMessage
  split
  · next connected => exact absurd rfl (hm connected)
  · exact ⟨rfl, rfl, rfl, rfl, rfl, rfl⟩
  · exact ⟨rfl, rfl, rfl, rfl, rfl, rfl⟩
  · exact ⟨rfl, rfl, rfl, rfl, rfl, rfl⟩
  · exact ⟨rfl, rfl, rfl, rfl, rfl, rfl⟩
  · exact ⟨rfl, rfl, rfl, rfl, Option.isSome_map, rfl⟩
  · unfold handleError
    split
    · refine .trans ?_ (scheduleThrottleFlush_sameRetries _)
      exact ⟨rfl, rfl, rfl, rfl, rfl, rfl⟩
    · exact ⟨rfl, rfl, rfl, rfl, rfl, rfl⟩
  · unfold handleEntitlementChanged
    split
    · exact ⟨rfl, rfl, rfl, rfl, rfl, rfl⟩
    · exact ⟨rfl, rfl, rfl, rfl, rfl, rfl⟩
  · exact ⟨rfl, rfl, rfl, rfl, rfl, rfl⟩

end Frames

end TckrGatewaySource

/-! ## The timers mirror the field -/

namespace Reconnects

/-- The browser keeps the timer of the field, under its handle, and no other. -/
def Mirrors (r : Reconnects) (reconnectTimer : Option Rat) : Prop :=
  (reconnectTimer = none ∧ r.handle = none ∧ r.timers.armed = []) ∨
    ∃ handle due, reconnectTimer = some due ∧ r.handle = some handle ∧
      r.timers.armed = [(handle, due)]

variable {r : Reconnects} {reconnectTimer : Option Rat}

theorem Mirrors.clear (h : r.Mirrors reconnectTimer) : r.clearReconnectTimer.Mirrors none := by
  rw [clearReconnectTimer]
  obtain ⟨-, hhandle, harmed⟩ | ⟨handle, due, -, hhandle, harmed⟩ := h
  · rw [hhandle]
    exact Or.inl ⟨rfl, hhandle, harmed⟩
  · rw [hhandle]
    exact Or.inl ⟨rfl, rfl, Timers.clearTimeout_of_armed_eq harmed⟩

theorem Mirrors.armed_of_none (h : r.Mirrors none) : r.timers.armed = [] := by
  obtain ⟨-, -, harmed⟩ | ⟨handle, due, hsome, -, -⟩ := h
  · exact harmed
  · cases hsome

theorem Mirrors.set (h : r.Mirrors reconnectTimer) (due : Rat) :
    (r.setReconnectTimer due).Mirrors (some due) :=
  Or.inr ⟨_, due, rfl, rfl, Timers.setTimeout_of_armed_eq_nil h.clear.armed_of_none due⟩

theorem clearReconnectTimer_nextHandle :
    r.clearReconnectTimer.timers.nextHandle = r.timers.nextHandle := by
  rw [clearReconnectTimer]
  split
  · rfl
  · rfl

theorem Mirrors.length_le (h : r.Mirrors reconnectTimer) : r.timers.armed.length ≤ 1 := by
  obtain ⟨-, -, harmed⟩ | ⟨handle, due, -, -, harmed⟩ := h
  · rw [harmed]
    exact Nat.zero_le 1
  · rw [harmed]
    exact Nat.le_refl 1

end Reconnects

namespace TckrGatewaySource

/-- What holds between the source and its reconnect timers. -/
structure Paced (s : TckrGatewaySource) (r : Reconnects) : Prop where
  tracked : s.Tracked
  mirrors : r.Mirrors s.reconnectTimer
  /-- A timer is armed only after a socket has gone. -/
  between : s.reconnectTimer ≠ none → s.socket = none ∧ s.sockets.length ≠ 0
  watched : s.heartbeatWatchdog.isSome = true → s.socket ≠ none
  /-- As long as the run is not over every close was retried. -/
  counted : s.sockets.length = 0 ∨ s.socket ≠ none ∨ s.reconnectTimer ≠ none →
    s.backoffAttempt = r.closes
  intentional : s.intentionalClose = r.disconnected

variable {s t : TckrGatewaySource} {r : Reconnects}

theorem Paced.of_sameRetries (h : s.Paced r) (hst : SameRetries s t) (ht : t.Tracked) :
    t.Paced r where
  tracked := ht
  mirrors := by
    rw [hst.reconnectTimer]
    exact h.mirrors
  between := by
    rw [hst.reconnectTimer, hst.socket, hst.sockets]
    exact h.between
  watched := by
    rw [hst.heartbeatWatchdog, hst.socket]
    exact h.watched
  counted := by
    rw [hst.sockets, hst.socket, hst.reconnectTimer, hst.backoffAttempt]
    exact h.counted
  intentional := by
    rw [hst.intentionalClose]
    exact h.intentional

/-! ## A close -/

/-- The close is worth a retry. -/
def Retried (s : TckrGatewaySource) (code : Nat) : Prop :=
  s.intentionalClose = false ∧ code ≠ 1000 ∧ code ≠ 4401

/-- What a close does to the retries, where a timer is armed only if it is retried. -/
theorem handleClose_of_retried {code : Nat} (h : s.Retried code) (reason : String) (rand : Rat) :
    (s.handleClose code reason rand).reconnectTimer =
        some (s.now + nextDelay (s.backoffAttempt + 1) defaultBackoffPolicy rand) ∧
      (s.handleClose code reason rand).backoffAttempt = s.backoffAttempt + 1 ∧
      s.recordClose code rand r = ({ r with closes := r.closes + 1 }.setReconnectTimer
        (s.now + nextDelay (s.backoffAttempt + 1) defaultBackoffPolicy rand)) := by
  obtain ⟨hintentional, hcode⟩ := h
  have hdecision := (reconnectDecisionFor_toCloseCode code).mpr hcode
  simp [handleClose, recordClose, scheduleReconnect, hintentional, hdecision]

theorem handleClose_of_not_retried {code : Nat} (h : ¬s.Retried code) (reason : String)
    (rand : Rat) :
    (s.handleClose code reason rand).reconnectTimer = s.reconnectTimer ∧
      s.recordClose code rand r = { r with closes := r.closes + 1 } := by
  cases hintentional : s.intentionalClose with
  | true => simp [handleClose, recordClose, hintentional]
  | false =>
    have hdecision : reconnectDecisionFor (toCloseCode code) = false := by
      rw [Bool.eq_false_iff]
      exact fun hretried =>
        h ⟨hintentional, (reconnectDecisionFor_toCloseCode code).mp hretried⟩
    simp [handleClose, recordClose, hintentional, hdecision]

theorem handleClose_intentionalClose (code : Nat) (reason : String) (rand : Rat) :
    (s.handleClose code reason rand).intentionalClose = s.intentionalClose := by
  unfold handleClose
  dsimp only
  split
  · rfl
  · split
    · rfl
    · rfl

theorem handleClose_heartbeatWatchdog (code : Nat) (reason : String) (rand : Rat) :
    (s.handleClose code reason rand).heartbeatWatchdog = none := by
  unfold handleClose
  dsimp only
  split
  · rfl
  · split
    · rfl
    · rfl

theorem recordClose_disconnected (code : Nat) (rand : Rat) :
    (s.recordClose code rand r).disconnected = r.disconnected := by
  have hset (r : Reconnects) (due : Rat) :
      (r.setReconnectTimer due).disconnected = r.disconnected := by
    simp only [Reconnects.setReconnectTimer, Reconnects.clearReconnectTimer]
    split
    · rfl
    · rfl
  unfold recordClose
  dsimp only
  split
  · rfl
  · split
    · exact hset _ _
    · rfl

theorem recordClose_closes (code : Nat) (rand : Rat) :
    (s.recordClose code rand r).closes = r.closes + 1 := by
  have hset (r : Reconnects) (due : Rat) : (r.setReconnectTimer due).closes = r.closes := by
    simp only [Reconnects.setReconnectTimer, Reconnects.clearReconnectTimer]
    split
    · rfl
    · rfl
  unfold recordClose
  dsimp only
  split
  · rfl
  · split
    · exact hset _ _
    · rfl

/-- The socket that reports its close is the current one, and no timer is armed. -/
theorem Paced.at_close (h : s.Paced r) {i : Nat} (hlive : s.Live i) :
    s.reconnectTimer = none ∧ s.sockets.length ≠ 0 ∧ s.backoffAttempt = r.closes := by
  have hsocket : s.socket ≠ none := by
    rw [(h.tracked i).mp hlive]
    exact Option.some_ne_none i
  refine ⟨?_, ?_, h.counted (Or.inr (Or.inl hsocket))⟩
  · by_contra hsome
    exact hsocket (h.between hsome).1
  · intro hzero
    obtain ⟨state, hstate, -⟩ := hlive
    rw [readyState?, List.length_eq_zero_iff.mp hzero] at hstate
    cases hstate

/-- A close keeps the pace. -/
theorem Paced.closed (h : s.Paced r) {i : Nat} (hlive : s.Live i) (code : Nat) (reason : String)
    (rand : Rat)
    (htracked : ((s.setReadyState i .closed).handleClose code reason rand).Tracked) :
    ((s.setReadyState i .closed).handleClose code reason rand).Paced
      (s.recordClose code rand r) := by
  obtain ⟨htimer, hsockets, hcounted⟩ := h.at_close hlive
  have hsocket := (s.setReadyState i .closed).handleClose_socket code reason rand
  have hlength : ((s.setReadyState i .closed).handleClose code reason rand).sockets.length =
      s.sockets.length := by
    rw [handleClose_sockets]
    exact (s.setReadyState_sameRetries i .closed).sockets
  have hintentional : ((s.setReadyState i .closed).handleClose code reason rand).intentionalClose =
      (s.recordClose code rand r).disconnected := by
    rw [handleClose_intentionalClose, recordClose_disconnected, ← h.intentional]
    rfl
  have hwatchdog := (s.setReadyState i .closed).handleClose_heartbeatWatchdog code reason rand
  by_cases hretried : s.Retried code
  · obtain ⟨hset, hbackoff, hrecord⟩ :=
      handleClose_of_retried (s := s.setReadyState i .closed) (r := r) hretried reason rand
    have hrecord : s.recordClose code rand r = _ := hrecord
    refine ⟨htracked, ?_, ?_, ?_, ?_, hintentional⟩
    · rw [hset, hrecord]
      exact Reconnects.Mirrors.set (r := { r with closes := r.closes + 1 }) h.mirrors _
    · intro _
      exact ⟨hsocket, hlength ▸ hsockets⟩
    · rw [hwatchdog]
      exact fun hsome => Bool.noConfusion hsome
    · intro _
      rw [hbackoff, recordClose_closes]
      exact congrArg (· + 1) hcounted
  · obtain ⟨hkept, hrecord⟩ :=
      handleClose_of_not_retried (s := s.setReadyState i .closed) (r := r) hretried reason rand
    have hrecord : s.recordClose code rand r = _ := hrecord
    have hnone : ((s.setReadyState i .closed).handleClose code reason rand).reconnectTimer =
        none := hkept.trans htimer
    refine ⟨htracked, ?_, ?_, ?_, ?_, hintentional⟩
    · rw [hnone, hrecord]
      have hmirrors := h.mirrors
      rw [htimer] at hmirrors
      exact hmirrors
    · exact fun hsome => absurd hnone hsome
    · rw [hwatchdog]
      exact fun hsome => Bool.noConfusion hsome
    · rintro (hzero | hsome | hsome)
      · exact absurd (hlength ▸ hzero) hsockets
      · exact absurd hsocket hsome
      · exact absurd hnone hsome

/-! ## The other steps -/

/-- `connected` starts the count again. -/
theorem Paced.connected (h : s.Paced r) (hsocket : s.socket ≠ none) (m : Connected)
    (htracked : (s.handleConnected m).Tracked) :
    (s.handleConnected m).Paced { r with closes := 0 } := by
  have hstart : (s.handleConnected m).socket = s.socket ∧
      (s.handleConnected m).reconnectTimer = s.reconnectTimer ∧
      (s.handleConnected m).backoffAttempt = 0 ∧
      (s.handleConnected m).intentionalClose = s.intentionalClose ∧
      (s.handleConnected m).sockets.length = s.sockets.length := by
    have hflush := flushOutbound_sameRetries ({ s with
      identityValue := some ⟨m.userId, m.stream, m.sessionId⟩
      heartbeatIntervalMs := some m.heartbeatIntervalMs
      backoffAttempt := 0
      authenticated := true }.startHeartbeatMonitor.startPing.emitStatus (.connected s.now))
    exact ⟨hflush.socket, hflush.reconnectTimer, hflush.backoffAttempt, hflush.intentionalClose,
      hflush.sockets⟩
  obtain ⟨hsame, htimer, hbackoff, hintentional, hlength⟩ := hstart
  refine ⟨htracked, ?_, ?_, ?_, ?_, hintentional.trans h.intentional⟩
  · rw [htimer]
    exact h.mirrors
  · rw [htimer, hsame, hlength]
    exact h.between
  · intro _
    rw [hsame]
    exact hsocket
  · exact fun _ => hbackoff

/-- The first `connect()`. -/
theorem Paced.connect (h : s.Paced r) (hfirst : s.sockets = []) (hsocket : ¬s.HasSocket)
    (htracked : s.connect.Tracked) : s.connect.Paced { r with disconnected := false } := by
  have hconnect : s.connect = { s with
      intentionalClose := false
      connectAttempts := s.connectAttempts + 1
      lastStatus := .connecting (s.connectAttempts + 1) }.openSocket .connect := by
    rw [TckrGatewaySource.connect, if_neg hsocket]
  have hlength : s.sockets.length = 0 := List.length_eq_zero_iff.mpr hfirst
  have htimer : s.reconnectTimer = none := by
    by_contra hsome
    exact (h.between hsome).2 hlength
  rw [hconnect] at htracked ⊢
  refine ⟨htracked, h.mirrors, ?_, ?_, ?_, rfl⟩
  · exact fun hsome => absurd htimer hsome
  · exact fun _ => Option.some_ne_none _
  · exact fun _ => h.counted (Or.inl hlength)

/-- `disconnect()` disarms whatever is armed. -/
theorem Paced.disconnect (h : s.Paced r) (htracked : s.disconnect.Tracked) :
    s.disconnect.Paced { r.clearReconnectTimer with disconnected := true } := by
  have hcloses : r.clearReconnectTimer.closes = r.closes := by
    rw [Reconnects.clearReconnectTimer]
    split
    · rfl
    · rfl
  have hsame : SameRetries { s with
      intentionalClose := true
      reconnectTimer := none
      heartbeatWatchdog := none
      pingTimer := none
      throttleTimer := none } s.disconnect := by
    unfold TckrGatewaySource.disconnect
    dsimp only
    split
    · exact closeSocket_sameRetries _ _
    · exact ⟨rfl, rfl, rfl, rfl, rfl, rfl⟩
  refine ⟨htracked, ?_, ?_, ?_, ?_, hsame.intentionalClose⟩
  · rw [hsame.reconnectTimer]
    exact h.mirrors.clear
  · rw [hsame.reconnectTimer]
    exact fun hsome => absurd rfl hsome
  · rw [hsame.heartbeatWatchdog]
    exact fun hsome => Bool.noConfusion hsome
  · rw [hsame.sockets, hsame.socket, hsame.reconnectTimer, hsame.backoffAttempt]
    dsimp only
    rw [hcloses]
    rintro (hzero | hsome | hsome)
    · exact h.counted (Or.inl hzero)
    · exact h.counted (Or.inr (Or.inl hsome))
    · exact absurd rfl hsome

/-- The timer's own socket. -/
theorem Paced.reconnect (h : s.Paced r) {due : Rat} (htimer : s.reconnectTimer = some due)
    (htracked : ({ s with reconnectTimer := none }.openSocket .reconnectNow).Tracked) :
    ({ s with reconnectTimer := none }.openSocket .reconnectNow).Paced r.fired := by
  have hsame : r.fired.closes = r.closes ∧ r.fired.disconnected = r.disconnected := by
    rw [Reconnects.fired, Reconnects.clearReconnectTimer]
    split
    · exact ⟨rfl, rfl⟩
    · exact ⟨rfl, rfl⟩
  have hsome : s.reconnectTimer ≠ none := by
    rw [htimer]
    exact Option.some_ne_none due
  refine ⟨htracked, h.mirrors.clear, ?_, ?_, ?_, h.intentional.trans hsame.2.symm⟩
  · exact fun hne => absurd rfl hne
  · exact fun _ => Option.some_ne_none _
  · exact fun _ => (h.counted (Or.inr (Or.inr hsome))).trans hsame.1.symm

/-- A driven step opens a socket only where there is none. -/
theorem Paced.opensFree (h : s.Paced r) {a : Action} (hg : s.Driven a)
    (hstep : s.step a = some t) : s.OpensFree a := by
  cases step_cases hstep with
  | call c =>
    cases c with
    | connect =>
      obtain hsocket | hfirst := hg
      · exact Or.inl hsocket
      · refine Or.inr ?_
        by_contra hsome
        obtain ⟨i, hi⟩ := Option.ne_none_iff_exists'.mp hsome
        obtain ⟨state, hstate, -⟩ := (h.tracked i).mpr hi
        rw [readyState?, hfirst] at hstate
        cases hstate
    | reconnectSharedSource => exact hg.elim
    | disconnect | subscribe | unsubscribe | getSnapshot => exact trivial
  | reconnect hidle htimer =>
    have hsome : s.reconnectTimer ≠ none := by
      rw [htimer]
      exact Option.some_ne_none _
    exact (h.between hsome).1
  | opened | message | closing | closed | throttle | watchdog | ping | continuation | frame
  | snapshotAnswered | snapshotArrived | snapshotFailed | universeArrived | advance =>
    exact trivial

/-- Every driven step keeps the pace. -/
theorem Paced.step (h : s.Paced r) {a : Action} (hg : s.Driven a) (hstep : s.step a = some t) :
    t.Paced (s.recordReconnects a t r) := by
  have htracked := h.tracked.step (h.opensFree hg hstep) hstep
  cases step_cases hstep with
  | call c =>
    cases c with
    | connect =>
      by_cases hsocket : s.HasSocket
      · have hsame : s.connect = s := if_pos hsocket
        have hrecord : s.recordReconnects (.call .connect) (s.perform .connect) r = r :=
          if_pos hsocket
        rw [hrecord, perform, hsame]
        exact h
      · have hrecord : s.recordReconnects (.call .connect) (s.perform .connect) r =
            { r with disconnected := false } := if_neg hsocket
        rw [hrecord]
        exact h.connect (hg.resolve_left hsocket) hsocket htracked
    | disconnect => exact h.disconnect htracked
    | reconnectSharedSource => exact hg.elim
    | subscribe symbols => exact h.of_sameRetries (s.subscribe_sameRetries symbols) htracked
    | unsubscribe symbols => exact h.of_sameRetries (s.unsubscribe_sameRetries symbols) htracked
    | getSnapshot symbol => exact h.of_sameRetries ⟨rfl, rfl, rfl, rfl, rfl, rfl⟩ htracked
  | @opened i hidle hi =>
    exact h.of_sameRetries ((s.setReadyState_sameRetries i .opened).trans
      (handleOpen_sameRetries _)) htracked
  | @message i m hidle hi =>
    have hannounced : (s.announce i m).Paced r := h.of_sameRetries (s.announce_sameRetries i m)
      (h.tracked.of_sameSockets (s.announce_sameSockets i m))
    by_cases hm : ∃ connected, m = some (.connected connected)
    · obtain ⟨connected, rfl⟩ := hm
      have hlive : s.Live i := ⟨_, hi, by decide⟩
      have hsocket : (s.announce i (some (.connected connected))).socket ≠ none := by
        rw [(s.announce_sameRetries i _).socket, (h.tracked i).mp hlive]
        exact Option.some_ne_none i
      exact hannounced.connected hsocket connected htracked
    · have hother (connected : Connected) : m ≠ some (.connected connected) :=
        fun heq => hm ⟨connected, heq⟩
      have hrecord : s.recordReconnects (.socket i (.message m))
          ((s.announce i m).handleMessage m) r = r := by
        cases m with
        | none => rfl
        | some m =>
          cases m with
          | connected connected => exact absurd rfl (hother connected)
          | subscribed | unsubscribed | tick | snapshot | heartbeat | error
          | entitlementChanged => rfl
      rw [hrecord]
      exact hannounced.of_sameRetries (handleMessage_sameRetries _ hother) htracked
  | @closing i hidle hi =>
    exact h.of_sameRetries (s.setReadyState_sameRetries i .closing) htracked
  | @closed i code reason rand hidle hi => exact h.closed hi code reason rand htracked
  | throttle => exact h.of_sameRetries s.throttleTimerFired_sameRetries htracked
  | reconnect hidle htimer => exact h.reconnect htimer htracked
  | @watchdog w due rand hidle hwatch =>
    have hsocket : s.socket ≠ none := h.watched (by rw [hwatch]; rfl)
    have hrecord (t : TckrGatewaySource) :
        s.recordReconnects (.timer (.watchdog rand)) t r = r := if_neg hsocket
    have hfired : SameRetries s { s with heartbeatWatchdog := some w.fired } :=
      ⟨rfl, rfl, rfl, rfl, by rw [hwatch]; rfl, rfl⟩
    have hclosed : SameRetries { s with heartbeatWatchdog := some w.fired }
        (forceLocalClose { s with heartbeatWatchdog := some w.fired } rand) := by
      unfold forceLocalClose
      split
      · exact closeSocket_sameRetries _ _
      · next hnone => exact absurd hnone hsocket
    rw [hrecord]
    exact h.of_sameRetries (hfired.trans hclosed) htracked
  | ping => exact h.of_sameRetries s.ping_sameRetries htracked
  | @continuation c rest =>
    refine h.of_sameRetries (SameRetries.trans ?_ (resume_sameRetries _ c)) htracked
    exact ⟨rfl, rfl, rfl, rfl, rfl, rfl⟩
  | frame | snapshotAnswered | snapshotArrived | snapshotFailed | universeArrived | advance =>
    exact h.of_sameRetries ⟨rfl, rfl, rfl, rfl, rfl, rfl⟩ htracked

theorem paced_init : gateway.init.Paced {} where
  tracked := tracked_init
  mirrors := Or.inl ⟨rfl, rfl, rfl⟩
  between hsome := absurd rfl hsome
  watched hsome := Bool.noConfusion hsome
  counted _ := rfl
  intentional := rfl

theorem paced_of_run {as : List Action} {p : TckrGatewaySource × Reconnects}
    (hg : reconnecting.Guarded (fun p a => p.1.Driven a) reconnecting.init as)
    (h : reconnecting.run as = some p) : p.1.Paced p.2 := by
  apply Machine.run_invariant_of_guarded (m := reconnecting) (I := fun p => p.1.Paced p.2)
    (G := fun p a => p.1.Driven a) paced_init _ hg h
  intro p a q hp ha hq
  obtain ⟨hstep, hrecord⟩ := gateway.withHistory_step.mp hq
  rw [hrecord]
  exact hp.step ha hstep

/-- Two attempts that fail, and the loss of the second. -/
def failingRun : List Action :=
  [.call .connect, .socket 0 (.close 1006 "" 0), .advance 400, .timer .reconnect]

def failingSource : TckrGatewaySource × Reconnects :=
  (reconnecting.run failingRun).getD ({}, {})

end TckrGatewaySource

end Tckr.MarketWatch
