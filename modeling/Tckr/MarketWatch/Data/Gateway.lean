import Tckr.Core.Machine
import Tckr.MarketWatch.Data.MarketDataSource
import Tckr.MarketWatch.Data.Reconnect
import Tckr.MarketWatch.Data.TickDispatcher

/-!
# The gateway source

`TckrGatewaySource` with the browser around it: the sockets it has created, its
timers, the continuations its promises have queued, the clock, the store it writes
and the snapshot requests in flight. Socket events, timers and frames are tasks:
they run only once every queued continuation has. Calls of the pages may come at
any time.
-/

namespace Tckr.MarketWatch

inductive ReadyState
  | connecting
  | opened
  | closing
  | closed
  deriving DecidableEq, Repr

/-- A browser socket, with what has passed over it. -/
structure GatewaySocket where
  readyState : ReadyState := .connecting
  /-- The frames handed to `send`, in the order they reach the wire. -/
  sent : List ClientMessage := []
  /-- How many of them were sent when the server's last `connected` arrived. -/
  announced : Option Nat := none
  deriving DecidableEq

/-- What awaits the promise of `#openSocket`. -/
inductive Opener
  | connect
  | reconnectNow
  deriving DecidableEq, Repr

/-- A queued continuation of `#reconnectNow`. -/
inductive Continuation
  /-- Behind `await this.#openSocket()`. -/
  | afterOpen
  /-- Behind `await this.#waitForAuthenticated()`. -/
  | afterAuthenticated
  deriving DecidableEq, Repr

/-- A REST snapshot in flight, with the body once the server has answered. -/
structure SnapshotRequest where
  symbol : String
  body : Option Snapshot := none
  deriving DecidableEq

structure TckrGatewaySource where
  /-- The current socket, by its place among the created ones. -/
  socket : Option Nat := none
  identityValue : Option Identity := none
  lastStatus : ConnectionState := .closed .normal "not yet connected"
  subscribedSymbols : OrderedSet String := .empty
  pendingOutbound : List ClientMessage := []
  /-- How many `#reconnectNow` wait for authentication. -/
  authWaiters : Nat := 0
  authenticated : Bool := false
  throttledUntil : Nat := 0
  /-- When each armed timer is due. -/
  throttleTimer : Option Nat := none
  requestSeq : Nat := 0
  heartbeatIntervalMs : Option Nat := none
  heartbeatWatchdog : Option HeartbeatWatchdog := none
  pingTimer : Option Nat := none
  backoffAttempt : Nat := 0
  connectAttempts : Nat := 0
  intentionalClose : Bool := false
  reconnectTimer : Option Rat := none
  connectResolvers : Option Opener := none
  dispatcher : TickDispatcher := {}
  /-- Every socket created, oldest first. -/
  sockets : List GatewaySocket := []
  /-- Continuations queued and not yet run. -/
  continuations : List Continuation := []
  snapshotRequests : List SnapshotRequest := []
  store : Store := {}
  /-- The ticks handed to `on.tick`. -/
  observed : List Tick := []
  now : Nat := 0
  deriving DecidableEq

namespace TckrGatewaySource

/-- How long outbound frames are held after a `RATE_LIMITED` error. -/
def rateLimitBackoffMs : Nat := 2000

/-! ## Sockets -/

/-- The ready state of a socket, if it was ever created. -/
def readyState? (s : TckrGatewaySource) (i : Nat) : Option ReadyState :=
  s.sockets[i]?.map GatewaySocket.readyState

/-- The ready state of the current socket. -/
def socketState (s : TckrGatewaySource) : Option ReadyState := s.socket.bind s.readyState?

def setReadyState (s : TckrGatewaySource) (i : Nat) (r : ReadyState) : TckrGatewaySource :=
  { s with sockets := s.sockets.modify i fun socket => { socket with readyState := r } }

/-- `socket.close()`: the close event comes later. -/
def closeSocket (s : TckrGatewaySource) (i : Nat) : TckrGatewaySource :=
  match s.readyState? i with
  | some .connecting | some .opened => s.setReadyState i .closing
  | _ => s

/-- `this.#socket.send(...)` for each message. -/
def transmit (s : TckrGatewaySource) (msgs : List ClientMessage) : TckrGatewaySource :=
  match s.socket with
  | some i =>
      { s with sockets := s.sockets.modify i fun socket =>
          { socket with sent := socket.sent ++ msgs } }
  | none => s

def openSocket (s : TckrGatewaySource) (opener : Opener) : TckrGatewaySource :=
  { s with
    sockets := s.sockets ++ [{}]
    socket := some s.sockets.length
    authenticated := false
    connectResolvers := some opener }

/-! ## Outbound frames -/

def nextRequestId (s : TckrGatewaySource) : String := s!"gw-{s.requestSeq + 1}"

def scheduleThrottleFlush (s : TckrGatewaySource) : TckrGatewaySource :=
  if s.throttleTimer.isSome then s
  else { s with throttleTimer := some (s.now + (s.throttledUntil - s.now)) }

/-- The frame can go straight to the wire. -/
def CanSend (s : TckrGatewaySource) : Prop :=
  s.authenticated = true ∧ s.throttledUntil ≤ s.now ∧ s.socketState = some .opened

instance (s : TckrGatewaySource) : Decidable s.CanSend := inferInstanceAs (Decidable (_ ∧ _ ∧ _))

def send (s : TckrGatewaySource) (msg : ClientMessage) : TckrGatewaySource :=
  if s.CanSend then s.transmit [msg]
  else
    let queued := { s with pendingOutbound := s.pendingOutbound ++ [msg] }
    if s.now < s.throttledUntil then queued.scheduleThrottleFlush else queued

def flushOutbound (s : TckrGatewaySource) : TckrGatewaySource :=
  if s.CanSend then { s with pendingOutbound := [] }.transmit s.pendingOutbound else s

def wanted (symbols : List String) : List String := symbols.filter fun symbol => symbol ≠ ""

def subscribe (s : TckrGatewaySource) (symbols : List String) : TckrGatewaySource :=
  if wanted symbols = [] then s
  else
    { s with
      subscribedSymbols := s.subscribedSymbols.addAll (wanted symbols)
      requestSeq := s.requestSeq + 1 }.send (.subscribe (wanted symbols) s.nextRequestId)

def unsubscribe (s : TckrGatewaySource) (symbols : List String) : TckrGatewaySource :=
  if wanted symbols = [] then s
  else
    { s with
      subscribedSymbols := s.subscribedSymbols.deleteAll (wanted symbols)
      requestSeq := s.requestSeq + 1 }.send (.unsubscribe (wanted symbols) s.nextRequestId)

/-- The interval timer of `#startPing`. -/
def ping (s : TckrGatewaySource) : TckrGatewaySource :=
  { s with
    requestSeq := s.requestSeq + 1
    pingTimer := s.heartbeatIntervalMs.map (s.now + ·) }.send (.ping s.nextRequestId)

def throttleTimerFired (s : TckrGatewaySource) : TckrGatewaySource :=
  let s := { s with throttleTimer := none }
  if s.now < s.throttledUntil then s.scheduleThrottleFlush else s.flushOutbound

/-! ## Connecting and disconnecting -/

def emitStatus (s : TckrGatewaySource) (state : ConnectionState) : TckrGatewaySource :=
  { s with lastStatus := state }

/-- The current socket is open or about to be. -/
def HasSocket (s : TckrGatewaySource) : Prop :=
  s.socketState = some .opened ∨ s.socketState = some .connecting

instance (s : TckrGatewaySource) : Decidable s.HasSocket := inferInstanceAs (Decidable (_ ∨ _))

def connect (s : TckrGatewaySource) : TckrGatewaySource :=
  if s.HasSocket then s
  else
    { s with
      intentionalClose := false
      connectAttempts := s.connectAttempts + 1
      lastStatus := .connecting (s.connectAttempts + 1) }.openSocket .connect

def disconnect (s : TckrGatewaySource) : TckrGatewaySource :=
  let s := { s with
    intentionalClose := true
    reconnectTimer := none
    heartbeatWatchdog := none
    pingTimer := none
    throttleTimer := none }
  match s.socket with
  | some i => s.closeSocket i
  | none => s.emitStatus (.closed .normal "client disconnect")

/-- The sanctioned manual retry of `config.ts`. -/
def reconnectSharedSource (s : TckrGatewaySource) : TckrGatewaySource := s.disconnect.connect

def scheduleReconnect (s : TckrGatewaySource) (rand : Rat) : TckrGatewaySource :=
  let attempt := s.backoffAttempt + 1
  let delay := nextDelay attempt defaultBackoffPolicy rand
  { s with
    backoffAttempt := attempt
    lastStatus := .reconnecting attempt delay
    reconnectTimer := some (s.now + delay) }

def handleClose (s : TckrGatewaySource) (code : Nat) (reason : String) (rand : Rat) :
    TckrGatewaySource :=
  let closeCode := toCloseCode code
  let s := { s with
    heartbeatWatchdog := none
    pingTimer := none
    throttleTimer := none
    authenticated := false
    socket := none
    connectResolvers := none
    lastStatus := .closed closeCode reason }
  if s.intentionalClose then s
  else if reconnectDecisionFor closeCode then s.scheduleReconnect rand
  else s

/-- The watchdog's timeout: `#forceLocalClose`. -/
def forceLocalClose (s : TckrGatewaySource) (rand : Rat) : TckrGatewaySource :=
  match s.socket with
  | some i => s.closeSocket i
  | none => s.handleClose 4408 "two consecutive heartbeats missed" rand

/-! ## Messages -/

def startHeartbeatMonitor (s : TckrGatewaySource) : TckrGatewaySource :=
  { s with
    heartbeatWatchdog := s.heartbeatIntervalMs.map fun interval => .create interval s.now }

def startPing (s : TckrGatewaySource) : TckrGatewaySource :=
  { s with pingTimer := s.heartbeatIntervalMs.map (s.now + ·) }

/-- Resume every `#reconnectNow` that waited for authentication. -/
def releaseWaiters (s : TckrGatewaySource) : TckrGatewaySource :=
  { s with
    continuations := s.continuations ++ List.replicate s.authWaiters .afterAuthenticated
    authWaiters := 0 }

def handleConnected (s : TckrGatewaySource) (m : Connected) : TckrGatewaySource :=
  let s := { s with
    identityValue := some ⟨m.userId, m.stream, m.sessionId⟩
    heartbeatIntervalMs := some m.heartbeatIntervalMs
    backoffAttempt := 0
    authenticated := true }
  (s.startHeartbeatMonitor.startPing.emitStatus (.connected s.now)).flushOutbound.releaseWaiters

/-- A rejected symbol is not left among the subscribed ones. -/
def handleSubscribed (s : TckrGatewaySource) (m : Subscribed) : TckrGatewaySource :=
  { s with subscribedSymbols := s.subscribedSymbols.deleteAll m.rejected }

def handleTick (s : TckrGatewaySource) (tick : Tick) : TckrGatewaySource :=
  { s with
    observed := s.observed ++ [tick]
    dispatcher := s.dispatcher.push tick }

def handleError (s : TckrGatewaySource) (m : ErrorMsg) : TckrGatewaySource :=
  if m.code = .rateLimited then
    { s with throttledUntil := s.now + rateLimitBackoffMs }.scheduleThrottleFlush
  else s

/-- A switch to another stream clears the store; a restated stream does not. -/
def handleEntitlementChanged (s : TckrGatewaySource) (m : EntitlementChanged) :
    TckrGatewaySource :=
  match s.identityValue with
  | none => s
  | some identity =>
      { s with
        identityValue := some { identity with stream := m.stream }
        store := if identity.stream ≠ m.stream then s.store.resetStream else s.store }

def ingestSnapshot (s : TckrGatewaySource) (snapshot : Snapshot) : TckrGatewaySource :=
  { s with store := s.store.applySnapshot snapshot s.now }

/-- `none` is a frame that does not parse, which is dropped. -/
def handleMessage (s : TckrGatewaySource) : Option ServerMessage → TckrGatewaySource
  | some (.connected m) => s.handleConnected m
  | some (.subscribed m) => s.handleSubscribed m
  | some (.unsubscribed _) => s
  | some (.tick m) => s.handleTick m
  | some (.snapshot m) => s.ingestSnapshot m
  | some (.heartbeat _) => { s with heartbeatWatchdog := s.heartbeatWatchdog.map (·.pulse s.now) }
  | some (.error m) => s.handleError m
  | some (.entitlementChanged m) => s.handleEntitlementChanged m
  | none => s

/-- Note on the socket that the server has opened a session. -/
def announce (s : TckrGatewaySource) (i : Nat) : Option ServerMessage → TckrGatewaySource
  | some (.connected _) =>
      { s with sockets := s.sockets.modify i fun socket =>
          { socket with announced := some socket.sent.length } }
  | _ => s

/-- `socket.onopen`: settle the promise, which queues whoever awaits it. -/
def handleOpen (s : TckrGatewaySource) : TckrGatewaySource :=
  match s.connectResolvers with
  | some .reconnectNow =>
      { s with
        connectResolvers := none
        continuations := s.continuations ++ [.afterOpen] }
  | _ => { s with connectResolvers := none }

/-! ## Snapshots and continuations -/

def getSnapshot (s : TckrGatewaySource) (symbol : String) : TckrGatewaySource :=
  { s with snapshotRequests := s.snapshotRequests ++ [{ symbol := symbol }] }

/-- One continuation of `#reconnectNow`. -/
def resume (s : TckrGatewaySource) : Continuation → TckrGatewaySource
  | .afterOpen =>
      if s.authenticated then
        { s with continuations := s.continuations ++ [.afterAuthenticated] }
      else { s with authWaiters := s.authWaiters + 1 }
  | .afterAuthenticated =>
      s.subscribedSymbols.elems.foldl getSnapshot (s.subscribe s.subscribedSymbols.elems)

/-! ## The machine -/

/-- A call of a page, or of the shared source's owner. -/
inductive Call
  | connect
  | disconnect
  | reconnectSharedSource
  | subscribe (symbols : List String)
  | unsubscribe (symbols : List String)
  | getSnapshot (symbol : String)
  deriving DecidableEq

/-- An event of one socket. -/
inductive SocketEvent
  | open
  | message (m : Option ServerMessage)
  /-- The peer starts the closing handshake, which no handler sees. -/
  | closing
  | close (code : Nat) (reason : String) (rand : Rat)
  deriving DecidableEq

inductive Timer
  | throttle
  | reconnect
  | watchdog (rand : Rat)
  | ping
  deriving DecidableEq

inductive Action
  | call (c : Call)
  | socket (i : Nat) (e : SocketEvent)
  | timer (t : Timer)
  /-- The oldest queued continuation runs. -/
  | continuation
  /-- The requested animation frame. -/
  | frame
  /-- The server answers a snapshot request; the answer is on its way. -/
  | snapshotAnswered (request : Nat) (body : Snapshot)
  /-- An answer arrives. -/
  | snapshotArrived (request : Nat)
  | snapshotFailed (request : Nat)
  | universeArrived (symbols : List SymbolDefinition)
  | advance (ms : Nat)
  deriving DecidableEq

def perform (s : TckrGatewaySource) : Call → TckrGatewaySource
  | .connect => s.connect
  | .disconnect => s.disconnect
  | .reconnectSharedSource => s.reconnectSharedSource
  | .subscribe symbols => s.subscribe symbols
  | .unsubscribe symbols => s.unsubscribe symbols
  | .getSnapshot symbol => s.getSnapshot symbol

/-- Messages are delivered to an open socket only; the close event comes once. -/
def socketEvent (s : TckrGatewaySource) (i : Nat) : SocketEvent → Option TckrGatewaySource
  | .open =>
      if s.readyState? i = some .connecting then some (s.setReadyState i .opened).handleOpen
      else none
  | .message m =>
      if s.readyState? i = some .opened then some ((s.announce i m).handleMessage m) else none
  | .closing =>
      if s.readyState? i = some .opened then some (s.setReadyState i .closing) else none
  | .close code reason rand =>
      match s.readyState? i with
      | some .connecting | some .opened | some .closing =>
          some ((s.setReadyState i .closed).handleClose code reason rand)
      | _ => none

/-- A timer fires no sooner than it is due. -/
def timerFired (s : TckrGatewaySource) : Timer → Option TckrGatewaySource
  | .throttle => match s.throttleTimer with
      | some due => if due ≤ s.now then some s.throttleTimerFired else none
      | none => none
  | .reconnect => match s.reconnectTimer with
      | some due =>
          if due ≤ s.now then some ({ s with reconnectTimer := none }.openSocket .reconnectNow)
          else none
      | none => none
  | .watchdog rand => match s.heartbeatWatchdog with
      | some watchdog => match watchdog.handle with
          | some due =>
              if due ≤ s.now then
                some ({ s with heartbeatWatchdog := some watchdog.fired }.forceLocalClose rand)
              else none
          | none => none
      | none => none
  | .ping => match s.pingTimer with
      | some due => if due ≤ s.now then some s.ping else none
      | none => none

def step (s : TckrGatewaySource) : Action → Option TckrGatewaySource
  | .call c => some (s.perform c)
  | .socket i e => if s.continuations = [] then s.socketEvent i e else none
  | .timer t => if s.continuations = [] then s.timerFired t else none
  | .continuation => match s.continuations with
      | c :: rest => some ({ s with continuations := rest }.resume c)
      | [] => none
  | .frame =>
      if s.continuations = [] ∧ s.dispatcher.frameRequested = true then
        let flushed := s.dispatcher.flushNow s.store s.now
        some { s with dispatcher := flushed.1, store := flushed.2 }
      else none
  | .snapshotAnswered request body => match s.snapshotRequests[request]? with
      | some ⟨symbol, none⟩ =>
          some { s with
            snapshotRequests := s.snapshotRequests.set request ⟨symbol, some body⟩ }
      | _ => none
  | .snapshotArrived request => match s.snapshotRequests[request]? with
      | some ⟨_, some body⟩ =>
          if s.continuations = [] then
            some ({ s with
              snapshotRequests := s.snapshotRequests.eraseIdx request }.ingestSnapshot body)
          else none
      | _ => none
  | .snapshotFailed request =>
      if request < s.snapshotRequests.length ∧ s.continuations = [] then
        some { s with snapshotRequests := s.snapshotRequests.eraseIdx request }
      else none
  | .universeArrived symbols =>
      if s.continuations = [] then some { s with store := s.store.primeUniverse symbols }
      else none
  | .advance ms => some { s with now := s.now + ms }

end TckrGatewaySource

/-- The gateway source, from its construction on. -/
def gateway : Machine TckrGatewaySource TckrGatewaySource.Action where
  init := {}
  step := TckrGatewaySource.step

end Tckr.MarketWatch
