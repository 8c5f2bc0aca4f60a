import Tckr.MarketWatch.Data.Agreement

/-!
# The attempts to connect

A history of the gateway source: who opened the current socket, how many automatic
attempts have lost an open socket since the last `connected`, and what the
continuations released by a `connected` have issued. Sending and receiving leave the
attempts alone.
-/

namespace Tckr.MarketWatch

/-- What the continuations released by a `connected` have issued. -/
structure Recovery where
  /-- How many attempts had been lost when it arrived. -/
  lost : Nat
  /-- The frames, each with the symbols subscribed at the time. -/
  frames : List (ClientMessage × List String) := []
  /-- The symbols of the snapshot requests. -/
  snapshots : List String := []
  deriving DecidableEq

/-- One `subscribe` of all that is subscribed, and one snapshot request for each of it. -/
def Recovery.Once (R : Recovery) : Prop :=
  ∃ symbols id, R.frames = [(.subscribe symbols id, symbols)] ∧ symbols.Nodup ∧
    R.snapshots = symbols

/-- What is kept of the attempts to connect. -/
structure Attempts where
  /-- The latest socket was opened by an automatic attempt. -/
  automatic : Bool := false
  /-- The automatic attempts since the last `connected` whose socket was lost open. -/
  lost : Nat := 0
  /-- What the last `connected` that an automatic attempt reached has led to. -/
  recovery : Option Recovery := none
  deriving DecidableEq

namespace TckrGatewaySource

/-- The frames the current socket has carried. -/
def sent (s : TckrGatewaySource) : List ClientMessage := (s.current.map GatewaySocket.sent).getD []

/-- The frames a step has handed to the wire or to the queue. -/
def issuedFrames (s t : TckrGatewaySource) : List ClientMessage :=
  t.sent.drop s.sent.length ++ t.pendingOutbound.drop s.pendingOutbound.length

/-- The symbols a step has requested snapshots for. -/
def issuedSnapshots (s t : TckrGatewaySource) : List String :=
  (t.snapshotRequests.drop s.snapshotRequests.length).map SnapshotRequest.symbol

/-- Add what a continuation has issued. -/
def issue (s t : TckrGatewaySource) (R : Recovery) : Recovery :=
  { R with
    frames := R.frames ++ (issuedFrames s t).map (·, s.subscribedSymbols.elems)
    snapshots := R.snapshots ++ issuedSnapshots s t }

/-- The current socket was opened by an automatic attempt that waits for `connected`. -/
def Waits (s : TckrGatewaySource) (r : Attempts) : Prop :=
  r.automatic = true ∧ s.socket.isSome = true ∧ s.connectResolvers = none ∧
    s.authenticated = false

instance (s : TckrGatewaySource) (r : Attempts) : Decidable (s.Waits r) :=
  inferInstanceAs (Decidable (_ ∧ _ ∧ _ ∧ _))

/-- The attempts after a step. -/
def recordAttempts (s : TckrGatewaySource) : Action → TckrGatewaySource → Attempts → Attempts
  | .timer .reconnect, _, r => { r with automatic := true }
  | .call .connect, _, r => if s.HasSocket then r else { r with automatic := false }
  | .call .reconnectSharedSource, _, r => { r with automatic := false }
  | .socket _ (.close _ _ _), _, r => if s.Waits r then { r with lost := r.lost + 1 } else r
  | .socket _ (.message (some (.connected _))), _, r =>
      { r with
        lost := 0
        recovery :=
          if s.authenticated then r.recovery
          else if r.automatic then some { lost := r.lost } else none }
  | .continuation, t, r => { r with recovery := r.recovery.map (issue s t) }
  | _, _, r => r

/-- Sockets are opened by the automatic attempts, and by the page where neither a socket nor an
attempt is there; something is subscribed whenever a released continuation runs. -/
def Automatic (s : TckrGatewaySource) : Action → Prop
  | .call .connect => s.HasSocket ∨ s.socket = none ∧ s.reconnectTimer = none
  | .call .reconnectSharedSource => s.socket = none
  | .continuation =>
      s.continuations.head? = some .afterAuthenticated → s.subscribedSymbols.elems ≠ []
  | _ => True

instance (s : TckrGatewaySource) : (a : Action) → Decidable (s.Automatic a)
  | .call .connect => inferInstanceAs (Decidable (_ ∨ _))
  | .call .reconnectSharedSource => inferInstanceAs (Decidable (_ = _))
  | .continuation => inferInstanceAs (Decidable (_ → _))
  | .call .disconnect | .call (.subscribe _) | .call (.unsubscribe _) | .call (.getSnapshot _)
  | .socket _ _ | .timer _ | .frame | .snapshotAnswered _ _ | .snapshotArrived _
  | .snapshotFailed _ | .universeArrived _ | .advance _ => inferInstanceAs (Decidable True)

end TckrGatewaySource

open TckrGatewaySource in
/-- The gateway source with its attempts. -/
def attempting : Machine (TckrGatewaySource × Attempts) Action :=
  gateway.withHistory {} recordAttempts

namespace TckrGatewaySource

/-! ## What leaves the attempts alone -/

/-- The same attempts: nothing opened, closed, released or run. -/
structure SameAttempts (s t : TckrGatewaySource) : Prop extends SameSockets s t where
  authenticated : t.authenticated = s.authenticated
  authWaiters : t.authWaiters = s.authWaiters
  connectResolvers : t.connectResolvers = s.connectResolvers
  continuations : t.continuations = s.continuations
  reconnectTimer : t.reconnectTimer = s.reconnectTimer

namespace SameAttempts

variable {s t u : TckrGatewaySource}

theorem of_eq (hsocket : t.socket = s.socket) (hsockets : t.sockets = s.sockets)
    (hauth : t.authenticated = s.authenticated) (hwaiters : t.authWaiters = s.authWaiters)
    (hresolvers : t.connectResolvers = s.connectResolvers)
    (hcont : t.continuations = s.continuations)
    (htimer : t.reconnectTimer = s.reconnectTimer) : SameAttempts s t :=
  ⟨.of_eq hsocket hsockets, hauth, hwaiters, hresolvers, hcont, htimer⟩

theorem trans (h : SameAttempts s t) (h' : SameAttempts t u) : SameAttempts s u where
  toSameSockets := h.toSameSockets.trans h'.toSameSockets
  authenticated := h'.authenticated.trans h.authenticated
  authWaiters := h'.authWaiters.trans h.authWaiters
  connectResolvers := h'.connectResolvers.trans h.connectResolvers
  continuations := h'.continuations.trans h.continuations
  reconnectTimer := h'.reconnectTimer.trans h.reconnectTimer

theorem waits (h : SameAttempts s t) (r : Attempts) : t.Waits r ↔ s.Waits r := by
  rw [Waits, Waits, h.socket, h.connectResolvers, h.authenticated]

end SameAttempts

section Frames

variable (s : TckrGatewaySource)

theorem transmit_sameAttempts (msgs : List ClientMessage) : SameAttempts s (s.transmit msgs) := by
  have hrest := s.transmit_sockets_only msgs
  refine ⟨s.transmit_sameSockets msgs, ?_, ?_, ?_, ?_, ?_⟩
  · rw [hrest]
  · rw [hrest]
  · rw [hrest]
  · rw [hrest]
  · rw [hrest]

theorem sameAttempts_unaffected : Unaffected SameAttempts where
  trans := SameAttempts.trans
  transmit := transmit_sameAttempts
  queued _ _ _ := .of_eq rfl rfl rfl rfl rfl rfl rfl

theorem send_sameAttempts (msg : ClientMessage) : SameAttempts s (s.send msg) :=
  sameAttempts_unaffected.send s msg

theorem flushOutbound_sameAttempts : SameAttempts s s.flushOutbound :=
  sameAttempts_unaffected.flushOutbound s

theorem scheduleThrottleFlush_sameAttempts : SameAttempts s s.scheduleThrottleFlush :=
  sameAttempts_unaffected.scheduleThrottleFlush s

theorem subscribe_sameAttempts (symbols : List String) : SameAttempts s (s.subscribe symbols) := by
  unfold subscribe
  split
  · exact .of_eq rfl rfl rfl rfl rfl rfl rfl
  · refine .trans ?_ (send_sameAttempts _ _)
    exact .of_eq rfl rfl rfl rfl rfl rfl rfl

theorem unsubscribe_sameAttempts (symbols : List String) :
    SameAttempts s (s.unsubscribe symbols) := by
  unfold unsubscribe
  split
  · exact .of_eq rfl rfl rfl rfl rfl rfl rfl
  · refine .trans ?_ (send_sameAttempts _ _)
    exact .of_eq rfl rfl rfl rfl rfl rfl rfl

theorem ping_sameAttempts : SameAttempts s s.ping := by
  refine .trans ?_ (send_sameAttempts _ _)
  exact .of_eq rfl rfl rfl rfl rfl rfl rfl

theorem throttleTimerFired_sameAttempts : SameAttempts s s.throttleTimerFired :=
  sameAttempts_unaffected.throttleTimerFired s

theorem announce_sameAttempts (i : Nat) (m : Option ServerMessage) :
    SameAttempts s (s.announce i m) := by
  have hrest := s.announce_sockets_only i m
  refine ⟨s.announce_sameSockets i m, ?_, ?_, ?_, ?_, ?_⟩
  · rw [hrest]
  · rw [hrest]
  · rw [hrest]
  · rw [hrest]
  · rw [hrest]

end Frames

end TckrGatewaySource

end Tckr.MarketWatch
