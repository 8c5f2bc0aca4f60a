import Tckr.MarketWatch.Data.Gateway

/-!
# What a step of the gateway source can do

The step function inverted, one case per branch, with what the branch saw. Sending
and receiving never change which sockets are alive: only opening, closing and the
sockets' own events do. Nor do they touch the market data: only what the server says,
a frame and an answered snapshot do.
-/

namespace Tckr.MarketWatch.TckrGatewaySource

/-- The socket has been created and its close event is still to come. -/
def Live (s : TckrGatewaySource) (i : Nat) : Prop :=
  ∃ r, s.readyState? i = some r ∧ r ≠ .closed

/-- What a step of the gateway source can do. -/
inductive Step (s : TckrGatewaySource) : Action → TckrGatewaySource → Prop
  | call (c : Call) : Step s (.call c) (s.perform c)
  | opened {i : Nat} (hidle : s.continuations = []) (hi : s.readyState? i = some .connecting) :
      Step s (.socket i .open) (s.setReadyState i .opened).handleOpen
  | message {i : Nat} {m} (hidle : s.continuations = []) (hi : s.readyState? i = some .opened) :
      Step s (.socket i (.message m)) ((s.announce i m).handleMessage m)
  | closing {i : Nat} (hidle : s.continuations = []) (hi : s.readyState? i = some .opened) :
      Step s (.socket i .closing) (s.setReadyState i .closing)
  | closed {i : Nat} {code reason rand} (hidle : s.continuations = []) (hi : s.Live i) :
      Step s (.socket i (.close code reason rand))
        ((s.setReadyState i .closed).handleClose code reason rand)
  | throttle {due} (hidle : s.continuations = []) (htimer : s.throttleTimer = some due)
      (hdue : due ≤ s.now) : Step s (.timer .throttle) s.throttleTimerFired
  | reconnect {due} (hidle : s.continuations = []) (htimer : s.reconnectTimer = some due)
      (hdue : due ≤ s.now) :
      Step s (.timer .reconnect) ({ s with reconnectTimer := none }.openSocket .reconnectNow)
  | watchdog {w due rand} (hidle : s.continuations = []) (hwatch : s.heartbeatWatchdog = some w)
      (hhandle : w.handle = some due) (hdue : due ≤ s.now) :
      Step s (.timer (.watchdog rand))
        ({ s with heartbeatWatchdog := some w.fired }.forceLocalClose rand)
  | ping {due} (hidle : s.continuations = []) (htimer : s.pingTimer = some due)
      (hdue : due ≤ s.now) : Step s (.timer .ping) s.ping
  | continuation {c rest} (hc : s.continuations = c :: rest) :
      Step s .continuation ({ s with continuations := rest }.resume c)
  | frame (hidle : s.continuations = []) (hframe : s.dispatcher.frameRequested = true) :
      Step s .frame { s with
        dispatcher := (s.dispatcher.flushNow s.store s.now).1
        store := (s.dispatcher.flushNow s.store s.now).2 }
  | snapshotAnswered {request body symbol}
    (hr : s.snapshotRequests[request]? = some ⟨symbol, none⟩) :
      Step s (.snapshotAnswered request body) { s with
        snapshotRequests := s.snapshotRequests.set request ⟨symbol, some body⟩ }
  | snapshotArrived {request body symbol} (hidle : s.continuations = [])
      (hr : s.snapshotRequests[request]? = some ⟨symbol, some body⟩) :
      Step s (.snapshotArrived request) ({ s with
        snapshotRequests := s.snapshotRequests.eraseIdx request }.ingestSnapshot body)
  | snapshotFailed {request} (hidle : s.continuations = []) :
      Step s (.snapshotFailed request) { s with
        snapshotRequests := s.snapshotRequests.eraseIdx request }
  | universeArrived {symbols} (hidle : s.continuations = []) :
      Step s (.universeArrived symbols) { s with store := s.store.primeUniverse symbols }
  | advance {ms} : Step s (.advance ms) { s with now := s.now + ms }

/-! ## What sending does -/

/-- What `#send` can do. -/
inductive SendEffect (s : TckrGatewaySource) (msg : ClientMessage) : TckrGatewaySource → Prop
  | direct (h : s.CanSend) : SendEffect s msg (s.transmit [msg])
  | queued (h : ¬ s.CanSend) (timer : Option Nat) : SendEffect s msg { s with
      pendingOutbound := s.pendingOutbound ++ [msg]
      throttleTimer := timer }

theorem send_effect (s : TckrGatewaySource) (msg : ClientMessage) :
    SendEffect s msg (s.send msg) := by
  unfold send
  by_cases h : s.CanSend
  · simp only [h, ite_true]
    exact .direct h
  · simp only [h, ite_false]
    unfold scheduleThrottleFlush
    split
    · split
      · exact .queued h s.throttleTimer
      · exact .queued h _
    · exact .queued h s.throttleTimer

theorem transmit_sockets_only (s : TckrGatewaySource) (msgs : List ClientMessage) :
    s.transmit msgs = { s with sockets := (s.transmit msgs).sockets } := by
  unfold transmit
  split
  · rfl
  · rfl

theorem announce_sockets_only (s : TckrGatewaySource) (i : Nat) (m : Option ServerMessage) :
    s.announce i m = { s with sockets := (s.announce i m).sockets } := by
  unfold announce
  split
  · rfl
  · rfl

/-- What `#flushOutbound` can do. -/
inductive FlushEffect (s : TckrGatewaySource) : TckrGatewaySource → Prop
  | flushed (h : s.CanSend) :
      FlushEffect s ({ s with pendingOutbound := [] }.transmit s.pendingOutbound)
  | held : FlushEffect s s

theorem flush_effect (s : TckrGatewaySource) : FlushEffect s s.flushOutbound := by
  unfold flushOutbound
  by_cases h : s.CanSend
  · simp only [h, ite_true]
    exact .flushed h
  · simp only [h, ite_false]
    exact .held

/-- A relation between states that composes, and that neither transmitting nor the queue and
its timer affect. -/
structure Unaffected (R : TckrGatewaySource → TckrGatewaySource → Prop) : Prop where
  trans : ∀ {s t u}, R s t → R t u → R s u
  transmit : ∀ s msgs, R s (transmit s msgs)
  queued : ∀ s msgs timer, R s { s with pendingOutbound := msgs, throttleTimer := timer }

namespace Unaffected

variable {R : TckrGatewaySource → TckrGatewaySource → Prop}

theorem send (h : Unaffected R) (s : TckrGatewaySource) (msg : ClientMessage) :
    R s (s.send msg) := by
  have heffect := s.send_effect msg
  generalize s.send msg = t at heffect ⊢
  cases heffect with
  | direct => exact h.transmit s [msg]
  | queued hcannot timer => exact h.queued s (s.pendingOutbound ++ [msg]) timer

theorem flushOutbound (h : Unaffected R) (s : TckrGatewaySource) : R s s.flushOutbound := by
  have heffect := s.flush_effect
  generalize s.flushOutbound = t at heffect ⊢
  cases heffect with
  | flushed => exact h.trans (h.queued s [] s.throttleTimer) (h.transmit _ s.pendingOutbound)
  | held => exact h.queued s s.pendingOutbound s.throttleTimer

theorem scheduleThrottleFlush (h : Unaffected R) (s : TckrGatewaySource) :
    R s s.scheduleThrottleFlush := by
  unfold TckrGatewaySource.scheduleThrottleFlush
  split
  · exact h.queued s s.pendingOutbound s.throttleTimer
  · exact h.queued s s.pendingOutbound _

theorem throttleTimerFired (h : Unaffected R) (s : TckrGatewaySource) :
    R s s.throttleTimerFired := by
  have hfired : R s { s with throttleTimer := none } := h.queued s s.pendingOutbound none
  unfold TckrGatewaySource.throttleTimerFired
  dsimp only
  split
  · exact h.trans hfired (h.scheduleThrottleFlush _)
  · exact h.trans hfired (h.flushOutbound _)

end Unaffected

theorem foldl_getSnapshot (s : TckrGatewaySource) (symbols : List String) :
    symbols.foldl getSnapshot s = { s with
      snapshotRequests :=
        s.snapshotRequests ++ symbols.map fun symbol => { symbol := symbol } } := by
  induction symbols generalizing s with
  | nil =>
    rw [List.foldl_nil, List.map_nil, List.append_nil]
  | cons symbol symbols ih =>
    rw [List.foldl_cons, ih, List.map_cons]
    simp only [getSnapshot, List.append_assoc, List.singleton_append]

/-! ## What leaves the sockets alone -/

/-- The same sockets in the same states, the same one of them current. -/
structure SameSockets (s t : TckrGatewaySource) : Prop where
  socket : t.socket = s.socket
  readyState : ∀ i, t.readyState? i = s.readyState? i

namespace SameSockets

variable {s t u : TckrGatewaySource}

theorem of_eq (hsocket : t.socket = s.socket) (hsockets : t.sockets = s.sockets) :
    SameSockets s t :=
  ⟨hsocket, fun i => by rw [readyState?, hsockets, readyState?]⟩

theorem trans (h : SameSockets s t) (h' : SameSockets t u) : SameSockets s u :=
  ⟨h'.socket.trans h.socket, fun i => (h'.readyState i).trans (h.readyState i)⟩

/-- Editing other fields first makes no difference. -/
theorem of_edit (h : SameSockets t u) (hsocket : t.socket = s.socket)
    (hsockets : t.sockets = s.sockets) : SameSockets s u := (of_eq hsocket hsockets).trans h

theorem socketState (h : SameSockets s t) : t.socketState = s.socketState := by
  rw [TckrGatewaySource.socketState, h.socket]
  exact congrArg s.socket.bind (funext h.readyState)

theorem live (h : SameSockets s t) (i : Nat) : t.Live i ↔ s.Live i := by
  rw [Live, Live, h.readyState i]

end SameSockets

/-- Updating a socket without touching its ready state shows in no ready state. -/
theorem readyState?_modify (s : TckrGatewaySource) {f : GatewaySocket → GatewaySocket}
    (hf : ∀ socket, (f socket).readyState = socket.readyState) (i j : Nat) :
    ((s.sockets.modify i f)[j]?.map GatewaySocket.readyState) = s.readyState? j := by
  rw [List.getElem?_modify, Option.map_eq_map, Option.map_map, readyState?]
  congr 1
  funext socket
  by_cases hij : i = j
  · simp only [Function.comp_apply, hij, ite_true, hf]
  · simp only [Function.comp_apply, hij, ite_false]

section Frames

variable (s : TckrGatewaySource)

theorem transmit_sameSockets (msgs : List ClientMessage) : SameSockets s (s.transmit msgs) := by
  unfold transmit
  split
  · refine ⟨rfl, fun j => ?_⟩
    apply s.readyState?_modify
    intro socket
    rfl
  · exact .of_eq rfl rfl

theorem announce_sameSockets (i : Nat) (m : Option ServerMessage) :
    SameSockets s (s.announce i m) := by
  unfold announce
  split
  · refine ⟨rfl, fun j => ?_⟩
    apply s.readyState?_modify
    intro socket
    rfl
  · exact .of_eq rfl rfl

theorem sameSockets_unaffected : Unaffected SameSockets where
  trans := SameSockets.trans
  transmit := transmit_sameSockets
  queued _ _ _ := .of_eq rfl rfl

theorem scheduleThrottleFlush_sameSockets : SameSockets s s.scheduleThrottleFlush :=
  sameSockets_unaffected.scheduleThrottleFlush s

theorem send_sameSockets (msg : ClientMessage) : SameSockets s (s.send msg) :=
  sameSockets_unaffected.send s msg

theorem flushOutbound_sameSockets : SameSockets s s.flushOutbound :=
  sameSockets_unaffected.flushOutbound s

theorem subscribe_sameSockets (symbols : List String) : SameSockets s (s.subscribe symbols) := by
  unfold subscribe
  split
  · exact .of_eq rfl rfl
  · exact (send_sameSockets _ _).of_edit rfl rfl

theorem unsubscribe_sameSockets (symbols : List String) :
    SameSockets s (s.unsubscribe symbols) := by
  unfold unsubscribe
  split
  · exact .of_eq rfl rfl
  · exact (send_sameSockets _ _).of_edit rfl rfl

theorem ping_sameSockets : SameSockets s s.ping :=
  (send_sameSockets _ _).of_edit rfl rfl

theorem throttleTimerFired_sameSockets : SameSockets s s.throttleTimerFired :=
  sameSockets_unaffected.throttleTimerFired s

theorem releaseWaiters_sameSockets : SameSockets s s.releaseWaiters := .of_eq rfl rfl

theorem handleConnected_sameSockets (m : Connected) : SameSockets s (s.handleConnected m) := by
  refine .trans ?_ (releaseWaiters_sameSockets _)
  exact (flushOutbound_sameSockets _).of_edit rfl rfl

theorem handleMessage_sameSockets (m : Option ServerMessage) :
    SameSockets s (s.handleMessage m) := by
  unfold handleMessage
  split
  · exact s.handleConnected_sameSockets _
  · exact .of_eq rfl rfl
  · exact .of_eq rfl rfl
  · exact .of_eq rfl rfl
  · exact .of_eq rfl rfl
  · exact .of_eq rfl rfl
  · unfold handleError
    split
    · exact (scheduleThrottleFlush_sameSockets _).of_edit rfl rfl
    · exact .of_eq rfl rfl
  · unfold handleEntitlementChanged
    split
    · exact .of_eq rfl rfl
    · exact .of_eq rfl rfl
  · exact .of_eq rfl rfl

theorem handleOpen_sameSockets : SameSockets s s.handleOpen := by
  unfold handleOpen
  split
  · exact .of_eq rfl rfl
  · exact .of_eq rfl rfl

theorem foldl_getSnapshot_sameSockets (symbols : List String) :
    SameSockets s (symbols.foldl getSnapshot s) := by
  induction symbols generalizing s with
  | nil => exact .of_eq rfl rfl
  | cons symbol symbols ih => exact (ih (s.getSnapshot symbol)).of_edit rfl rfl

theorem resume_sameSockets (c : Continuation) : SameSockets s (s.resume c) := by
  cases c with
  | afterOpen =>
    unfold resume
    dsimp only
    split
    · exact .of_eq rfl rfl
    · exact .of_eq rfl rfl
  | afterAuthenticated =>
    exact .trans (s.subscribe_sameSockets _) (foldl_getSnapshot_sameSockets _ _)

end Frames

/-! ## What leaves the market alone -/

/-- The same session data: the same identity, store, pending ticks and subscriptions. -/
structure SameMarket (s t : TckrGatewaySource) : Prop where
  identityValue : t.identityValue = s.identityValue
  store : t.store = s.store
  dispatcher : t.dispatcher = s.dispatcher
  subscribedSymbols : t.subscribedSymbols = s.subscribedSymbols

namespace SameMarket

variable {s t u : TckrGatewaySource}

theorem trans (h : SameMarket s t) (h' : SameMarket t u) : SameMarket s u where
  identityValue := h'.identityValue.trans h.identityValue
  store := h'.store.trans h.store
  dispatcher := h'.dispatcher.trans h.dispatcher
  subscribedSymbols := h'.subscribedSymbols.trans h.subscribedSymbols

end SameMarket

section Market

variable (s : TckrGatewaySource)

theorem transmit_sameMarket (msgs : List ClientMessage) : SameMarket s (s.transmit msgs) := by
  rw [s.transmit_sockets_only msgs]
  exact ⟨rfl, rfl, rfl, rfl⟩

theorem sameMarket_unaffected : Unaffected SameMarket where
  trans := SameMarket.trans
  transmit := transmit_sameMarket
  queued _ _ _ := ⟨rfl, rfl, rfl, rfl⟩

theorem send_sameMarket (msg : ClientMessage) : SameMarket s (s.send msg) :=
  sameMarket_unaffected.send s msg

theorem flushOutbound_sameMarket : SameMarket s s.flushOutbound :=
  sameMarket_unaffected.flushOutbound s

theorem scheduleThrottleFlush_sameMarket : SameMarket s s.scheduleThrottleFlush :=
  sameMarket_unaffected.scheduleThrottleFlush s

theorem throttleTimerFired_sameMarket : SameMarket s s.throttleTimerFired :=
  sameMarket_unaffected.throttleTimerFired s

theorem ping_sameMarket : SameMarket s s.ping := by
  have hping : SameMarket s { s with
      requestSeq := s.requestSeq + 1
      pingTimer := s.heartbeatIntervalMs.map (s.now + ·) } := ⟨rfl, rfl, rfl, rfl⟩
  exact hping.trans (send_sameMarket _ _)

theorem closeSocket_sameMarket (i : Nat) : SameMarket s (s.closeSocket i) := by
  unfold closeSocket
  split
  · exact ⟨rfl, rfl, rfl, rfl⟩
  · exact ⟨rfl, rfl, rfl, rfl⟩
  · exact ⟨rfl, rfl, rfl, rfl⟩

theorem handleClose_sameMarket (code : Nat) (reason : String) (rand : Rat) :
    SameMarket s (s.handleClose code reason rand) := by
  unfold handleClose
  dsimp only
  split
  · exact ⟨rfl, rfl, rfl, rfl⟩
  · split
    · exact ⟨rfl, rfl, rfl, rfl⟩
    · exact ⟨rfl, rfl, rfl, rfl⟩

theorem forceLocalClose_sameMarket (rand : Rat) : SameMarket s (s.forceLocalClose rand) := by
  unfold forceLocalClose
  split
  · exact s.closeSocket_sameMarket _
  · exact s.handleClose_sameMarket _ _ _

theorem connect_sameMarket : SameMarket s s.connect := by
  unfold connect
  split
  · exact ⟨rfl, rfl, rfl, rfl⟩
  · exact ⟨rfl, rfl, rfl, rfl⟩

theorem disconnect_sameMarket : SameMarket s s.disconnect := by
  unfold disconnect
  dsimp only
  split
  · refine .trans ?_ (closeSocket_sameMarket _ _)
    exact ⟨rfl, rfl, rfl, rfl⟩
  · exact ⟨rfl, rfl, rfl, rfl⟩

theorem handleOpen_sameMarket : SameMarket s s.handleOpen := by
  unfold handleOpen
  split
  · exact ⟨rfl, rfl, rfl, rfl⟩
  · exact ⟨rfl, rfl, rfl, rfl⟩

theorem announce_sameMarket (i : Nat) (m : Option ServerMessage) :
    SameMarket s (s.announce i m) := by
  unfold announce
  split
  · exact ⟨rfl, rfl, rfl, rfl⟩
  · exact ⟨rfl, rfl, rfl, rfl⟩

/-- Subscribing adds the named symbols, and nothing else. -/
theorem subscribe_sameMarket (symbols : List String) :
    SameMarket { s with subscribedSymbols := s.subscribedSymbols.addAll (wanted symbols) }
      (s.subscribe symbols) := by
  unfold subscribe
  by_cases h : wanted symbols = []
  · simp only [h, ite_true]
    exact ⟨rfl, rfl, rfl, rfl⟩
  · simp only [h, ite_false]
    refine .trans ?_ (send_sameMarket _ _)
    exact ⟨rfl, rfl, rfl, rfl⟩

theorem unsubscribe_sameMarket (symbols : List String) :
    SameMarket { s with subscribedSymbols := s.subscribedSymbols.deleteAll (wanted symbols) }
      (s.unsubscribe symbols) := by
  unfold unsubscribe
  by_cases h : wanted symbols = []
  · simp only [h, ite_true]
    exact ⟨rfl, rfl, rfl, rfl⟩
  · simp only [h, ite_false]
    refine .trans ?_ (send_sameMarket _ _)
    exact ⟨rfl, rfl, rfl, rfl⟩

/-- The handling of `connected` takes the identity, and nothing else of the market. -/
theorem handleConnected_sameMarket (m : Connected) :
    SameMarket { s with identityValue := some ⟨m.userId, m.stream, m.sessionId⟩ }
      (s.handleConnected m) := by
  obtain ⟨t, ht, hmarket⟩ : ∃ t : TckrGatewaySource,
      s.handleConnected m = t.flushOutbound.releaseWaiters ∧
        SameMarket { s with identityValue := some ⟨m.userId, m.stream, m.sessionId⟩ } t :=
    ⟨_, rfl, rfl, rfl, rfl, rfl⟩
  rw [ht]
  refine (hmarket.trans t.flushOutbound_sameMarket).trans ?_
  exact ⟨rfl, rfl, rfl, rfl⟩

theorem handleError_sameMarket (m : ErrorMsg) : SameMarket s (s.handleError m) := by
  unfold handleError
  split
  · refine .trans ?_ (scheduleThrottleFlush_sameMarket _)
    exact ⟨rfl, rfl, rfl, rfl⟩
  · exact ⟨rfl, rfl, rfl, rfl⟩

/-- Resubscribing adds what is subscribed already. -/
theorem resume_sameMarket (c : Continuation) :
    (s.resume c).identityValue = s.identityValue ∧ (s.resume c).store = s.store ∧
      (s.resume c).dispatcher = s.dispatcher ∧
      ∀ symbol ∈ s.subscribedSymbols, symbol ∈ (s.resume c).subscribedSymbols := by
  cases c with
  | afterOpen =>
    unfold resume
    dsimp only
    split
    · exact ⟨rfl, rfl, rfl, fun _ => id⟩
    · exact ⟨rfl, rfl, rfl, fun _ => id⟩
  | afterAuthenticated =>
    have hsame := s.subscribe_sameMarket s.subscribedSymbols.elems
    unfold resume
    rw [foldl_getSnapshot]
    refine ⟨hsame.identityValue, hsame.store, hsame.dispatcher, fun symbol h => ?_⟩
    rw [hsame.subscribedSymbols]
    exact OrderedSet.mem_addAll.mpr (Or.inl h)

end Market

variable {s t : TckrGatewaySource}

theorem socketEvent_cases {i : Nat} {e : SocketEvent} (hidle : s.continuations = [])
    (h : s.socketEvent i e = some t) : Step s (.socket i e) t := by
  cases e with
  | «open» =>
    dsimp only [socketEvent] at h
    split at h
    · rename_i hi
      cases h
      exact .opened hidle hi
    · cases h
  | message m =>
    dsimp only [socketEvent] at h
    split at h
    · rename_i hi
      cases h
      exact .message hidle hi
    · cases h
  | closing =>
    dsimp only [socketEvent] at h
    split at h
    · rename_i hi
      cases h
      exact .closing hidle hi
    · cases h
  | close code reason rand =>
    dsimp only [socketEvent] at h
    split at h
    · rename_i hi
      cases h
      exact .closed hidle ⟨_, hi, by decide⟩
    · rename_i hi
      cases h
      exact .closed hidle ⟨_, hi, by decide⟩
    · rename_i hi
      cases h
      exact .closed hidle ⟨_, hi, by decide⟩
    · cases h

theorem timerFired_cases {timer : Timer} (hidle : s.continuations = [])
    (h : s.timerFired timer = some t) : Step s (.timer timer) t := by
  cases timer with
  | throttle =>
    dsimp only [timerFired] at h
    split at h
    · split at h
      · cases h
        exact .throttle hidle ‹_› ‹_›
      · cases h
    · cases h
  | reconnect =>
    dsimp only [timerFired] at h
    split at h
    · split at h
      · cases h
        exact .reconnect hidle ‹_› ‹_›
      · cases h
    · cases h
  | watchdog rand =>
    dsimp only [timerFired] at h
    split at h
    · split at h
      · split at h
        · cases h
          exact .watchdog hidle ‹_› ‹_› ‹_›
        · cases h
      · cases h
    · cases h
  | ping =>
    dsimp only [timerFired] at h
    split at h
    · split at h
      · cases h
        exact .ping hidle ‹_› ‹_›
      · cases h
    · cases h

theorem step_cases {a : Action} (h : s.step a = some t) : Step s a t := by
  cases a with
  | call c =>
    cases h
    exact .call c
  | socket i e =>
    dsimp only [step] at h
    split at h
    · exact socketEvent_cases ‹_› h
    · cases h
  | timer timer =>
    dsimp only [step] at h
    split at h
    · exact timerFired_cases ‹_› h
    · cases h
  | continuation =>
    dsimp only [step] at h
    split at h
    · cases h
      exact .continuation ‹_›
    · cases h
  | frame =>
    dsimp only [step] at h
    split at h
    · rename_i hframe
      cases h
      exact .frame hframe.1 hframe.2
    · cases h
  | snapshotAnswered request body =>
    dsimp only [step] at h
    split at h
    · cases h
      exact .snapshotAnswered ‹_›
    · cases h
  | snapshotArrived request =>
    dsimp only [step] at h
    split at h
    · split at h
      · cases h
        exact .snapshotArrived ‹_› ‹_›
      · cases h
    · cases h
  | snapshotFailed request =>
    dsimp only [step] at h
    split at h
    · rename_i hr
      cases h
      exact .snapshotFailed hr.2
    · cases h
  | universeArrived symbols =>
    dsimp only [step] at h
    split at h
    · cases h
      exact .universeArrived ‹_›
    · cases h
  | advance ms =>
    cases h
    exact .advance

end Tckr.MarketWatch.TckrGatewaySource
