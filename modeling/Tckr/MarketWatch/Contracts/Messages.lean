import Tckr.MarketWatch.Contracts.Decimal

/-!
# The client contract's messages

What the gateway and the client say to each other, after parsing: the message
kinds with their fields, the REST bodies and the close codes.
-/

namespace Tckr.MarketWatch

/-- Which tape a session is entitled to. -/
inductive Stream
  | live
  | delayed
  deriving DecidableEq, Repr

inductive TickKind
  | trade
  | bid
  | ask
  deriving DecidableEq, Repr

/-- One tick of one symbol. -/
structure Tick where
  /-- Symbol. -/
  s : String
  /-- Price. -/
  p : DecimalString
  /-- Quantity. -/
  q : Int
  k : TickKind
  /-- Exchange timestamp. -/
  t : String
  /-- Event id. -/
  id : String
  /-- The stream it was cut from. -/
  st : Stream
  deriving DecidableEq

/-- A symbol's full state at one moment. -/
structure Snapshot where
  symbol : String
  stream : Stream
  price : DecimalString
  change : DecimalString
  changePercent : String
  /-- The session's opening price. -/
  openPrice : DecimalString
  previousClose : Option DecimalString
  high : DecimalString
  low : DecimalString
  volume : Int
  lastEventId : String
  exchangeTimestamp : String
  snapshotAge : Int
  simulated : Bool
  deriving DecidableEq

/-- The first message of a session. -/
structure Connected where
  userId : String
  stream : Stream
  sessionId : String
  heartbeatIntervalMs : Nat
  serverTime : String
  deriving DecidableEq

structure Subscribed where
  requestId : Option String
  stream : Stream
  accepted : List String
  rejected : List String
  deriving DecidableEq

structure Unsubscribed where
  requestId : Option String
  accepted : List String
  deriving DecidableEq

inductive ErrorCode
  | unknownSymbol
  | subscriptionLimit
  | notEntitled
  | rateLimited
  | internal
  deriving DecidableEq, Repr

structure ErrorMsg where
  code : ErrorCode
  message : String
  requestId : Option String
  deriving DecidableEq

/-- The session moves to another stream. -/
structure EntitlementChanged where
  stream : Stream
  resubscribeRequired : Bool
  effectiveFrom : String
  deriving DecidableEq

/-- Server to client. -/
inductive ServerMessage
  | connected (m : Connected)
  | subscribed (m : Subscribed)
  | unsubscribed (m : Unsubscribed)
  | tick (m : Tick)
  | snapshot (m : Snapshot)
  | heartbeat (serverTime : String)
  | error (m : ErrorMsg)
  | entitlementChanged (m : EntitlementChanged)
  deriving DecidableEq

/-- Client to server. -/
inductive ClientMessage
  | subscribe (symbols : List String) (requestId : String)
  | unsubscribe (symbols : List String) (requestId : String)
  | ping (requestId : String)
  deriving DecidableEq, Repr

/-- The static description of a tradeable symbol, as far as the store keeps it. -/
structure SymbolDefinition where
  symbol : String
  name : String
  referencePrice : DecimalString
  deriving DecidableEq

/-- WebSocket close codes: the contract's five, and whatever a network layer adds. -/
inductive CloseCode
  | normal
  | unauthenticated
  | tokenExpired
  | heartbeatTimeout
  | slowConsumer
  | other (raw : Nat)
  deriving DecidableEq, Repr

def toCloseCode : Nat → CloseCode
  | 1000 => .normal
  | 4401 => .unauthenticated
  | 4403 => .tokenExpired
  | 4408 => .heartbeatTimeout
  | 4429 => .slowConsumer
  | raw => .other raw

/-- Who the server says the client is. -/
structure Identity where
  userId : String
  stream : Stream
  sessionId : String
  deriving DecidableEq

end Tckr.MarketWatch
