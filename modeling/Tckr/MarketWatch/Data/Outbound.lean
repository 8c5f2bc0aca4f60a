import Tckr.MarketWatch.Data.Sockets

/-!
# The outbound queue

A frame that may not be sent is queued, and inside a throttle window a timer is
armed to send it. Closing clears the timer and not the window, and the handling of
`connected` flushes only outside the window, so a queue can be left on a healthy
connection with nothing armed. It is not as long as, whenever `connected` arrives
inside the window, a timer is armed or the resubscription that follows arms one.
-/

namespace Tckr.MarketWatch.TckrGatewaySource

/-- A queue on an authenticated open socket has a timer armed, or a resubscription to come. -/
structure Attended (s : TckrGatewaySource) : Prop where
  attended : s.authenticated = true → s.socketState = some .opened → s.pendingOutbound ≠ [] →
    s.throttleTimer.isSome = true ∨ .afterAuthenticated ∈ s.continuations
  settled : s.authenticated = true → s.socketState ≠ some .connecting

/-- What arrives and what resumes finds a queue that something will send. -/
def Attends (s : TckrGatewaySource) : Action → Prop
  | .socket _ (.message (some (.connected _))) =>
      s.socketState ≠ some .connecting ∧
        (s.socketState = some .opened → s.pendingOutbound ≠ [] → s.now < s.throttledUntil →
          s.throttleTimer.isSome = true ∨ 0 < s.authWaiters)
  | .continuation =>
      s.continuations.head? = some .afterAuthenticated → s.authenticated = true →
        s.socketState = some .opened → s.pendingOutbound ≠ [] → s.throttleTimer.isSome = false →
          .afterAuthenticated ∈ s.continuations.tail ∨
            wanted s.subscribedSymbols.elems ≠ [] ∧ s.now < s.throttledUntil
  | _ => True

instance (s : TckrGatewaySource) : (a : Action) → Decidable (s.Attends a)
  | .socket _ (.message (some (.connected _))) => inferInstanceAs (Decidable (_ ∧ _))
  | .continuation => inferInstanceAs (Decidable (_ → _))
  | .call _ | .socket _ .open | .socket _ (.message none)
  | .socket _ (.message (some (.subscribed _))) | .socket _ (.message (some (.unsubscribed _)))
  | .socket _ (.message (some (.tick _))) | .socket _ (.message (some (.snapshot _)))
  | .socket _ (.message (some (.heartbeat _))) | .socket _ (.message (some (.error _)))
  | .socket _ (.message (some (.entitlementChanged _))) | .socket _ .closing
  | .socket _ (.close _ _ _) | .timer _ | .frame | .snapshotAnswered _ _ | .snapshotArrived _
  | .snapshotFailed _ | .universeArrived _ | .advance _ => inferInstanceAs (Decidable True)

variable {s t : TckrGatewaySource}

namespace Attended

/-- A source that is not authenticated has nothing to attend to. -/
theorem of_unauthenticated (h : s.authenticated = false) : s.Attended :=
  ⟨fun ha => absurd (h.symm.trans ha) Bool.false_ne_true,
    fun ha => absurd (h.symm.trans ha) Bool.false_ne_true⟩

/-- Nor has one without a socket in use. -/
theorem of_not_hasSocket (h : ¬ s.HasSocket) : s.Attended :=
  ⟨fun _ hopen => absurd (.inl hopen) h, fun _ hconnecting => h (.inr hconnecting)⟩

/-- Steps that keep the session and the queue, and clear no timer, keep the queue attended. -/
theorem of_same (h : s.Attended) (hauth : t.authenticated = s.authenticated)
    (hstate : t.socketState = s.socketState) (hqueue : t.pendingOutbound = s.pendingOutbound)
    (htimer : s.throttleTimer.isSome = true → t.throttleTimer.isSome = true)
    (hresume : .afterAuthenticated ∈ s.continuations → .afterAuthenticated ∈ t.continuations) :
    t.Attended := by
  refine ⟨fun ha hopen hne => ?_, fun ha => ?_⟩
  · rw [hauth] at ha
    rw [hstate] at hopen
    rw [hqueue] at hne
    exact (h.attended ha hopen hne).imp htimer hresume
  · rw [hauth] at ha
    rw [hstate]
    exact h.settled ha

/-- Editing other fields makes no difference. -/
theorem of_edit (h : s.Attended) (hauth : t.authenticated = s.authenticated)
    (hsocket : t.socket = s.socket) (hsockets : t.sockets = s.sockets)
    (hqueue : t.pendingOutbound = s.pendingOutbound)
    (htimer : t.throttleTimer = s.throttleTimer)
    (hresume : t.continuations = s.continuations) : t.Attended :=
  h.of_same hauth (SameSockets.of_eq hsocket hsockets).socketState hqueue
    (fun hs => htimer ▸ hs) (fun hs => hresume ▸ hs)

end Attended

/-! ## Sending -/

@[simp] theorem scheduleThrottleFlush_isSome (s : TckrGatewaySource) :
    s.scheduleThrottleFlush.throttleTimer.isSome = true := by
  unfold scheduleThrottleFlush
  split
  · assumption
  · rfl

@[simp] theorem scheduleThrottleFlush_authenticated (s : TckrGatewaySource) :
    s.scheduleThrottleFlush.authenticated = s.authenticated := by
  unfold scheduleThrottleFlush
  split <;> rfl

theorem subscribe_authenticated (symbols : List String) :
    (s.subscribe symbols).authenticated = s.authenticated := by
  unfold subscribe
  split
  · rfl
  · unfold send
    split
    · rw [transmit_sockets_only]
    · dsimp only
      split
      · exact scheduleThrottleFlush_authenticated _
      · rfl

/-- Sending and flushing clear no timer, and queue inside the window only with one armed. -/
theorem Attended.send (h : s.Attended) (msg : ClientMessage) : (s.send msg).Attended := by
  unfold TckrGatewaySource.send
  by_cases hsend : s.CanSend
  · simp only [hsend, ite_true]
    have hsame := (s.transmit_sameSockets [msg]).socketState
    rw [s.transmit_sockets_only [msg]] at hsame ⊢
    exact h.of_same rfl hsame rfl id id
  · simp only [hsend, ite_false]
    by_cases hwindow : s.now < s.throttledUntil
    · simp only [hwindow, ite_true]
      refine ⟨fun _ _ _ => .inl (scheduleThrottleFlush_isSome _), fun ha => ?_⟩
      have hstate := (scheduleThrottleFlush_sameSockets
        { s with pendingOutbound := s.pendingOutbound ++ [msg] }).socketState
      rw [hstate]
      rw [scheduleThrottleFlush_authenticated] at ha
      exact h.settled ha
    · simp only [hwindow, ite_false]
      -- Outside the window a frame is held back by the session only, so there is none to attend.
      refine ⟨fun ha hopen _ => ?_, h.settled⟩
      exact absurd ⟨ha, not_lt.mp hwindow, hopen⟩ hsend

theorem Attended.subscribe (h : s.Attended) (symbols : List String) :
    (s.subscribe symbols).Attended := by
  unfold TckrGatewaySource.subscribe
  split
  · exact h
  · apply Attended.send
    exact h.of_edit rfl rfl rfl rfl rfl rfl

theorem Attended.unsubscribe (h : s.Attended) (symbols : List String) :
    (s.unsubscribe symbols).Attended := by
  unfold TckrGatewaySource.unsubscribe
  split
  · exact h
  · apply Attended.send
    exact h.of_edit rfl rfl rfl rfl rfl rfl

theorem Attended.ping (h : s.Attended) : s.ping.Attended := by
  apply Attended.send
  exact h.of_edit rfl rfl rfl rfl rfl rfl

/-- A frame queued inside the window has a timer armed. -/
theorem resubscribe_attended {symbols : List String}
    (hsettled : s.authenticated = true → s.socketState ≠ some .connecting)
    (hwanted : wanted symbols ≠ []) (hnow : s.now < s.throttledUntil) :
    (s.subscribe symbols).Attended := by
  have hstate := (s.subscribe_sameSockets symbols).socketState
  refine ⟨fun _ _ _ => .inl ?_, fun ha => ?_⟩
  · unfold TckrGatewaySource.subscribe TckrGatewaySource.send
    rw [if_neg hwanted, if_neg fun hsend => absurd hsend.2.1 (not_le.mpr hnow), if_pos hnow]
    exact scheduleThrottleFlush_isSome _
  · rw [hstate]
    refine hsettled (Eq.trans ?_ ha)
    exact (subscribe_authenticated symbols).symm

/-- A flush outside the window leaves no queue on an open authenticated socket. -/
theorem flushOutbound_attended
    (hsettled : s.authenticated = true → s.socketState ≠ some .connecting)
    (hwindow : s.now < s.throttledUntil → s.authenticated = true → s.socketState = some .opened →
      s.pendingOutbound ≠ [] →
      s.throttleTimer.isSome = true ∨ .afterAuthenticated ∈ s.continuations) :
    s.flushOutbound.Attended := by
  unfold TckrGatewaySource.flushOutbound
  by_cases hsend : s.CanSend
  · simp only [hsend, ite_true]
    have hsame :=
      (transmit_sameSockets { s with pendingOutbound := [] } s.pendingOutbound).socketState
    rw [transmit_sockets_only { s with pendingOutbound := [] } s.pendingOutbound] at hsame ⊢
    refine ⟨fun _ _ hne => absurd rfl hne, fun ha => ?_⟩
    rw [hsame]
    exact hsettled ha
  · simp only [hsend, ite_false]
    refine ⟨fun ha hopen hne => ?_, hsettled⟩
    exact hwindow (lt_of_not_ge fun hle => hsend ⟨ha, hle, hopen⟩) ha hopen hne

/-- The timer flushes, or is armed again for the renewed window. -/
theorem Attended.throttleTimerFired (h : s.Attended) : s.throttleTimerFired.Attended := by
  unfold TckrGatewaySource.throttleTimerFired
  dsimp only
  split
  · refine ⟨fun _ _ _ => .inl (scheduleThrottleFlush_isSome _), fun ha => ?_⟩
    rw [(scheduleThrottleFlush_sameSockets { s with throttleTimer := none }).socketState]
    exact h.settled ha
  · rename_i hwindow
    exact flushOutbound_attended h.settled fun hnow => absurd hnow hwindow

/-! ## Sockets -/

/-- The events of another socket do not change the current one's state. -/
theorem socketState_setReadyState_stale {i : Nat} (hcurrent : s.socket ≠ some i) (r : ReadyState) :
    (s.setReadyState i r).socketState = s.socketState := by
  unfold socketState
  cases hsocket : s.socket with
  | none =>
    rw [show (s.setReadyState i r).socket = none from hsocket]
    rfl
  | some j =>
    have hij : i ≠ j := fun heq => hcurrent (hsocket.trans (congrArg some heq.symm))
    rw [show (s.setReadyState i r).socket = some j from hsocket, Option.bind_some,
      Option.bind_some, readyState?_setReadyState, if_neg hij]

theorem setReadyState_not_hasSocket {i : Nat} (hcurrent : s.socket = some i) {r : ReadyState}
    (hopen : r ≠ .opened) (hconnecting : r ≠ .connecting) : ¬ (s.setReadyState i r).HasSocket := by
  unfold HasSocket
  rw [socketState_setReadyState_current hcurrent, Option.map_eq_some_iff, Option.map_eq_some_iff]
  rintro (⟨_, -, h⟩ | ⟨_, -, h⟩)
  · exact hopen h
  · exact hconnecting h

/-- `close()` leaves the current socket closing or closed. -/
theorem closeSocket_not_hasSocket {i : Nat} (hcurrent : s.socket = some i) :
    ¬ (s.closeSocket i).HasSocket := by
  unfold closeSocket
  split
  · exact setReadyState_not_hasSocket hcurrent (by decide) (by decide)
  · exact setReadyState_not_hasSocket hcurrent (by decide) (by decide)
  · rename_i hconnecting hopen
    have hstate : s.socketState = s.readyState? i := by rw [socketState, hcurrent, Option.bind_some]
    rintro (h | h)
    · exact hopen (hstate ▸ h)
    · exact hconnecting (hstate ▸ h)

/-- A closed or closing socket is not in use. -/
theorem disconnect_not_hasSocket : ¬ s.disconnect.HasSocket := by
  unfold disconnect
  dsimp only
  cases hsocket : s.socket with
  | none =>
    dsimp only
    rintro (h | h)
    · simp only [socketState, emitStatus, Option.bind_none, reduceCtorEq] at h
    · simp only [socketState, emitStatus, Option.bind_none, reduceCtorEq] at h
  | some i =>
    dsimp only
    exact closeSocket_not_hasSocket rfl

/-- Any step that ends the session leaves nothing to attend to. -/
theorem handleClose_authenticated (code : Nat) (reason : String) (rand : Rat) :
    (s.handleClose code reason rand).authenticated = false := by
  unfold handleClose
  dsimp only
  split
  · rfl
  · split <;> rfl

theorem Attended.connect (h : s.Attended) : s.connect.Attended := by
  unfold TckrGatewaySource.connect
  split
  · exact h
  · exact of_unauthenticated rfl

theorem Attended.forceLocalClose (rand : Rat) : (s.forceLocalClose rand).Attended := by
  unfold TckrGatewaySource.forceLocalClose
  split
  · rename_i hsocket
    exact of_not_hasSocket (closeSocket_not_hasSocket hsocket)
  · exact of_unauthenticated (handleClose_authenticated 4408 _ rand)

theorem Attended.perform (h : s.Attended) (c : Call) : (s.perform c).Attended := by
  cases c with
  | connect => exact h.connect
  | disconnect => exact of_not_hasSocket disconnect_not_hasSocket
  | reconnectSharedSource => exact (of_not_hasSocket disconnect_not_hasSocket).connect
  | subscribe symbols => exact h.subscribe symbols
  | unsubscribe symbols => exact h.unsubscribe symbols
  | getSnapshot symbol => exact h.of_edit rfl rfl rfl rfl rfl rfl

/-- A socket that has just opened is not authenticated yet. -/
theorem Attended.opened (h : s.Attended) {i : Nat} (hi : s.readyState? i = some .connecting) :
    (s.setReadyState i .opened).handleOpen.Attended := by
  have hopen : (s.setReadyState i .opened).handleOpen.authenticated = s.authenticated := by
    unfold handleOpen
    split <;> rfl
  by_cases hcurrent : s.socket = some i
  · have hstate : s.socketState = some .connecting := by
      rw [socketState, hcurrent]
      exact hi
    refine of_unauthenticated (hopen.trans ?_)
    cases ha : s.authenticated with
    | false => rfl
    | true => exact absurd hstate (h.settled ha)
  · have hstate := (handleOpen_sameSockets (s.setReadyState i .opened)).socketState.trans
      (socketState_setReadyState_stale hcurrent .opened)
    refine h.of_same hopen hstate ?_ ?_ ?_
    · unfold handleOpen
      split <;> rfl
    · unfold handleOpen
      split <;> exact id
    · unfold handleOpen
      split
      · exact fun hmem => List.mem_append_left _ hmem
      · exact id

/-- A closing socket is not open. -/
theorem Attended.closing (h : s.Attended) (i : Nat) : (s.setReadyState i .closing).Attended := by
  by_cases hcurrent : s.socket = some i
  · exact of_not_hasSocket (setReadyState_not_hasSocket hcurrent (by decide) (by decide))
  · exact h.of_same rfl (socketState_setReadyState_stale hcurrent .closing) rfl id id

/-! ## Messages and continuations -/

/-- A flush inside the window leaves a queue to the timer, or to the waiters it releases. -/
theorem flushOutbound_releaseWaiters (hsettled : s.socketState ≠ some .connecting)
    (hwindow : s.socketState = some .opened → s.pendingOutbound ≠ [] →
      s.now < s.throttledUntil → s.throttleTimer.isSome = true ∨ 0 < s.authWaiters) :
    s.flushOutbound.releaseWaiters.Attended := by
  have hsame := (flushOutbound_sameSockets s).trans (releaseWaiters_sameSockets s.flushOutbound)
  refine ⟨fun ha hopen hne => ?_, fun _ => hsame.socketState ▸ hsettled⟩
  by_cases hsend : s.CanSend
  · have hempty : s.flushOutbound.releaseWaiters.pendingOutbound = [] := by
      unfold flushOutbound
      rw [if_pos hsend, transmit_sockets_only]
      rfl
    exact absurd hempty hne
  · have hheld : s.flushOutbound = s := if_neg hsend
    rw [hheld] at ha hne ⊢
    rw [hsame.socketState] at hopen
    have hnow : s.now < s.throttledUntil := lt_of_not_ge fun hle => hsend ⟨ha, hle, hopen⟩
    refine (hwindow hopen hne hnow).imp id fun hwaiting => ?_
    exact List.mem_append_right _ (List.mem_replicate.mpr ⟨hwaiting.ne', rfl⟩)

theorem Attended.handleConnected {m : Connected} (hsettled : s.socketState ≠ some .connecting)
    (hwindow : s.socketState = some .opened → s.pendingOutbound ≠ [] →
      s.now < s.throttledUntil → s.throttleTimer.isSome = true ∨ 0 < s.authWaiters) :
    (s.handleConnected m).Attended := by
  obtain ⟨t, ht, hsockets, hqueue, hnow, huntil, htimer, hwaiters⟩ :
      ∃ t : TckrGatewaySource, s.handleConnected m = t.flushOutbound.releaseWaiters ∧
        SameSockets s t ∧ t.pendingOutbound = s.pendingOutbound ∧ t.now = s.now ∧
          t.throttledUntil = s.throttledUntil ∧ t.throttleTimer = s.throttleTimer ∧
          t.authWaiters = s.authWaiters :=
    ⟨_, rfl, .of_eq rfl rfl, rfl, rfl, rfl, rfl, rfl⟩
  rw [ht]
  apply flushOutbound_releaseWaiters
  · rw [hsockets.socketState]
    exact hsettled
  · rw [hsockets.socketState, hqueue, hnow, huntil, htimer, hwaiters]
    exact hwindow

/-- Every other message keeps the session, and clears neither the queue nor a timer. -/
theorem Attended.handleMessage (h : s.Attended) {i : Nat} {m : Option ServerMessage}
    (hg : s.Attends (.socket i (.message m))) : (s.handleMessage m).Attended := by
  cases m with
  | none => exact h
  | some m =>
    cases m with
    | connected m => exact .handleConnected hg.1 hg.2
    | error m =>
      unfold TckrGatewaySource.handleMessage handleError
      dsimp only
      split
      · refine ⟨fun _ _ _ => .inl (scheduleThrottleFlush_isSome _), fun ha => ?_⟩
        rw [(scheduleThrottleFlush_sameSockets _).socketState]
        rw [scheduleThrottleFlush_authenticated] at ha
        exact h.settled ha
      · exact h
    | entitlementChanged m =>
      unfold TckrGatewaySource.handleMessage handleEntitlementChanged
      dsimp only
      split
      · exact h
      · exact h.of_edit rfl rfl rfl rfl rfl rfl
    | unsubscribed m => exact h
    | subscribed m | tick m | snapshot m | heartbeat m =>
      exact h.of_edit rfl rfl rfl rfl rfl rfl

/-- Noting a `connected` on its socket changes nothing that sending looks at. -/
theorem Attended.announce (h : s.Attended) (i : Nat) (m : Option ServerMessage) :
    (s.announce i m).Attended := by
  have hstate := (s.announce_sameSockets i m).socketState
  rw [announce_sockets_only] at hstate ⊢
  exact h.of_same rfl hstate rfl id id

theorem attends_announce {i : Nat} {m : Option ServerMessage}
    (hg : s.Attends (.socket i (.message m))) :
    (s.announce i m).Attends (.socket i (.message m)) := by
  have hstate := (s.announce_sameSockets i m).socketState
  rw [announce_sockets_only] at hstate ⊢
  cases m with
  | none => trivial
  | some m =>
    cases m with
    | connected m =>
      refine ⟨?_, ?_⟩
      · rw [hstate]
        exact hg.1
      · rw [hstate]
        exact hg.2
    | subscribed | unsubscribed | tick | snapshot | heartbeat | error
    | entitlementChanged => trivial

/-- A resubscription that finds a queue with no timer arms one. -/
theorem Attended.resume (h : s.Attended) {c : Continuation} {rest : List Continuation}
    (hc : s.continuations = c :: rest) (hg : s.Attends .continuation) :
    ({ s with continuations := rest }.resume c).Attended := by
  cases c with
  | afterOpen =>
    have hrest : .afterAuthenticated ∈ s.continuations → .afterAuthenticated ∈ rest := by
      rw [hc]
      exact fun hmem => (List.mem_cons.mp hmem).resolve_left nofun
    unfold TckrGatewaySource.resume
    dsimp only
    split
    · exact h.of_same rfl (SameSockets.of_eq rfl rfl).socketState rfl id
        fun hmem => List.mem_append_left _ (hrest hmem)
    · exact h.of_same rfl (SameSockets.of_eq rfl rfl).socketState rfl id hrest
  | afterAuthenticated =>
    unfold TckrGatewaySource.resume
    dsimp only
    rw [foldl_getSnapshot]
    have hsubscribed : (({ s with continuations := rest } : TckrGatewaySource).subscribe
        s.subscribedSymbols.elems).Attended := by
      by_cases hleft : s.authenticated = true → s.socketState = some .opened →
          s.pendingOutbound ≠ [] →
            s.throttleTimer.isSome = true ∨ .afterAuthenticated ∈ rest
      · have hattended : ({ s with continuations := rest } : TckrGatewaySource).Attended :=
          ⟨hleft, h.settled⟩
        exact hattended.subscribe _
      · -- Only the resubscription is left to send the queue, and the guard says it will.
        push Not at hleft
        obtain ⟨ha, hopen, hne, htimer, hrest⟩ := hleft
        have hguard := hg (by rw [hc]; rfl) ha hopen hne (by simpa using htimer)
        rw [hc, List.tail_cons] at hguard
        obtain ⟨hwanted, hnow⟩ := hguard.resolve_left hrest
        exact resubscribe_attended h.settled hwanted hnow
    exact hsubscribed.of_edit rfl rfl rfl rfl rfl rfl

/-- What one step preserves. -/
theorem Attended.step {a : Action} (h : s.Attended) (hg : s.Attends a) (ht : s.step a = some t) :
    t.Attended := by
  cases step_cases ht with
  | call c => exact h.perform c
  | opened hidle hi => exact h.opened hi
  | message hidle hi => exact (h.announce _ _).handleMessage (attends_announce hg)
  | closing hidle hi => exact h.closing _
  | closed hidle hi => exact of_unauthenticated (handleClose_authenticated _ _ _)
  | throttle hidle htimer hdue => exact h.throttleTimerFired
  | reconnect hidle htimer hdue => exact of_unauthenticated rfl
  | watchdog hidle hwatch hhandle hdue => exact .forceLocalClose _
  | ping hidle htimer hdue => exact h.ping
  | continuation hc => exact h.resume hc hg
  | frame | snapshotAnswered | snapshotArrived | snapshotFailed | universeArrived | advance =>
    exact h.of_edit rfl rfl rfl rfl rfl rfl

/-- The throttle timer empties the queue of an authenticated open socket,
once the window is over. -/
theorem throttleTimerFired_pendingOutbound (ha : s.authenticated = true)
    (hopen : s.socketState = some .opened) (hnow : s.throttledUntil ≤ s.now) :
    s.throttleTimerFired.pendingOutbound = [] := by
  have hsend : ({ s with throttleTimer := none } : TckrGatewaySource).CanSend := ⟨ha, hnow, hopen⟩
  unfold throttleTimerFired
  dsimp only
  rw [if_neg (not_lt.mpr hnow), flushOutbound, if_pos hsend, transmit_sockets_only]

/-- In every run in which `connected` and the resubscription find a queue that something will
send, a queue on an authenticated open socket has a timer armed that empties it. -/
theorem queue_attended {as : List Action} {s : TckrGatewaySource}
    (hg : gateway.Guarded Attends gateway.init as) (h : gateway.run as = some s)
    (hidle : s.continuations = []) (ha : s.authenticated = true)
    (hopen : s.socketState = some .opened) (hne : s.pendingOutbound ≠ []) :
    s.throttleTimer.isSome = true ∧ ∀ ms, s.throttledUntil ≤ s.now + ms →
      ({ s with now := s.now + ms } : TckrGatewaySource).throttleTimerFired.pendingOutbound =
        [] := by
  have hinit : gateway.init.Attended := .of_unauthenticated rfl
  have hs : s.Attended := Machine.run_invariant_of_guarded (m := gateway) (G := Attends) hinit
    (fun _ _ _ hs hg ht => hs.step hg ht) hg h
  refine ⟨(hs.attended ha hopen hne).resolve_right fun hmem => ?_, fun ms hnow => ?_⟩
  · rw [hidle] at hmem
    exact absurd hmem List.not_mem_nil
  · exact throttleTimerFired_pendingOutbound ha hopen hnow

/-- A drop and an automatic reconnect inside the throttle window of a session
with a subscription. -/
def throttledDrop : List Action :=
  [.call .connect, .socket 0 .open, .socket 0 (hello .live), .call (.subscribe ["COMI"]),
    .socket 0 (.message (some (.error ⟨.rateLimited, "", none⟩))),
    .call (.unsubscribe ["COMI"]), .call (.subscribe ["HRHO"]), .socket 0 (.close 1006 "" 0),
    .advance 400, .timer .reconnect, .socket 1 .open, .continuation, .socket 1 (hello .live),
    .continuation]

/-- The resubscription arms the timer that empties the queue of three frames. -/
theorem queue_attended_throttledDrop : ∃ s, gateway.run throttledDrop = some s ∧
    s.pendingOutbound.length = 3 ∧ s.throttleTimer.isSome = true ∧
      ∀ ms, s.throttledUntil ≤ s.now + ms →
        ({ s with now := s.now + ms } : TckrGatewaySource).throttleTimerFired.pendingOutbound =
          [] :=
  ⟨(gateway.run throttledDrop).getD {}, by decide +kernel, by decide +kernel,
    @queue_attended throttledDrop _ (by decide +kernel) (by decide +kernel) (by decide +kernel)
      (by decide +kernel) (by decide +kernel) (by decide +kernel)⟩

/-- The same drop with the last symbol unsubscribed, so that nothing is resubscribed. -/
def emptiedDrop : List Action :=
  [.call .connect, .socket 0 .open, .socket 0 (hello .live), .call (.subscribe ["COMI"]),
    .socket 0 (.message (some (.error ⟨.rateLimited, "", none⟩))),
    .call (.unsubscribe ["COMI"]), .socket 0 (.close 1006 "" 0),
    .advance 400, .timer .reconnect, .socket 1 .open, .continuation, .socket 1 (hello .live),
    .continuation]

/-- The queued unsubscribe stays on the new connection with no timer armed. -/
theorem queue_stuck_after_reconnect : ∃ s, gateway.run emptiedDrop = some s ∧
    s.continuations = [] ∧ s.authenticated = true ∧ s.socketState = some .opened ∧
      s.pendingOutbound ≠ [] ∧ s.throttleTimer = none :=
  ⟨(gateway.run emptiedDrop).getD {}, by decide +kernel, by decide +kernel, by decide +kernel,
    by decide +kernel, by decide +kernel, by decide +kernel⟩

end Tckr.MarketWatch.TckrGatewaySource
