import Tckr.MarketWatch.Contracts.Messages

/-!
# Parsing at the edge

What arrives is JSON, by the value it parses to. A parser reads the fields it knows by
their names, checks the type of each and fails at the first that does not fit. The socket's
messages and the snapshot of the REST endpoint are parsed by two modules, each with
validators of its own.
-/

namespace Tckr.MarketWatch

/-- A JSON value, with the members of an object as they were written. -/
inductive Json where
  | null
  | bool (value : Bool)
  | number (value : JsNumber)
  | string (value : String)
  | array (items : List Json)
  | object (members : List (String × Json))

namespace Json

/-- `record[key]`; `none` is `undefined`. Of members of one name the last one counts. -/
def field : Json → String → Option Json
  | .object members, key => members.reverse.lookup key
  | _, _ => none

def isRecord : Json → Bool
  | .array _ => true
  | .object _ => true
  | _ => false

/-- The text of a string. -/
def string? : Json → Option String
  | .string value => some value
  | _ => none

end Json

/-! ## What the wire says

A number of the wire is any number, and a timestamp is any text. -/

namespace Wire

structure Snapshot where
  v : Nat := 1
  symbol : String
  stream : Stream
  price : DecimalString
  change : DecimalString
  changePercent : String
  openPrice : DecimalString
  previousClose : Option DecimalString
  high : DecimalString
  low : DecimalString
  volume : JsNumber
  lastEventId : String
  exchangeTimestamp : String
  snapshotAge : JsNumber
  simulated : Bool

structure Connected where
  v : Nat := 1
  userId : String
  stream : Stream
  sessionId : String
  heartbeatIntervalMs : JsNumber
  serverTime : String

structure Subscribed where
  v : Nat := 1
  stream : Stream
  accepted : List String
  rejected : List String
  requestId : Option String

structure Unsubscribed where
  v : Nat := 1
  accepted : List String
  requestId : Option String

structure Tick where
  v : Nat := 1
  s : String
  p : DecimalString
  q : JsNumber
  k : TickKind
  t : String
  id : String
  st : Stream

structure ErrorMsg where
  v : Nat := 1
  code : ErrorCode
  message : String
  requestId : Option String

structure EntitlementChanged where
  v : Nat := 1
  stream : Stream
  resubscribeRequired : Bool
  effectiveFrom : String

inductive ServerMessage where
  | connected (m : Connected)
  | subscribed (m : Subscribed)
  | unsubscribed (m : Unsubscribed)
  | tick (m : Tick)
  | snapshot (m : Snapshot)
  | heartbeat (serverTime : String)
  | error (m : ErrorMsg)
  | entitlementChanged (m : EntitlementChanged)

end Wire

/-! ## Failures -/

/-- What is wrong, by the field that is named. -/
inductive ParseFailure
  | expectedObject
  /-- `expected an object for "snapshot"` -/
  | expectedSnapshot
  | expectedString (key : String)
  | expectedNumber (key : String)
  | expectedBoolean (key : String)
  | expectedStrings (key : String)
  | invalidStream (value : String)
  | invalidTickKind (value : String)
  | invalidErrorCode (value : String)
  | invalidPrice (key raw : String)
  | invalidHeartbeatInterval (value : JsNumber)
  | missingType
  | unknownType (type : String)

/-- A `TypeError`, with the message it is about. -/
structure ParseError where
  context : String
  failure : ParseFailure

/-- What a parser returns or throws. -/
abbrev Parsed (α : Type) := Except ParseError α

def fail {α : Type} (context : String) (failure : ParseFailure) : Parsed α :=
  .error ⟨context, failure⟩

/-! ## The validators of the socket's messages -/

def requireString (record : Json) (key context : String) : Parsed String :=
  match record.field key with
  | some (.string value) => .ok value
  | _ => fail context (.expectedString key)

/-- A field of another type is as good as none. -/
def optionalString (record : Json) (key : String) : Option String :=
  (record.field key).bind Json.string?

def requireNumber (record : Json) (key context : String) : Parsed JsNumber :=
  match record.field key with
  | some (.number value) => .ok value
  | _ => fail context (.expectedNumber key)

def requireBoolean (record : Json) (key context : String) : Parsed Bool :=
  match record.field key with
  | some (.bool value) => .ok value
  | _ => fail context (.expectedBoolean key)

def requireStringArray (record : Json) (key context : String) : Parsed (List String) :=
  match record.field key with
  | some (.array items) =>
    match items.mapM Json.string? with
    | some values => .ok values
    | none => fail context (.expectedStrings key)
  | _ => fail context (.expectedStrings key)

def requireStream (record : Json) (key context : String) : Parsed Stream := do
  let value ← requireString record key context
  if value = "LIVE" then .ok .live
  else if value = "DELAYED" then .ok .delayed
  else fail context (.invalidStream value)

def requireTickKind (record : Json) (key context : String) : Parsed TickKind := do
  let value ← requireString record key context
  if value = "TRADE" then .ok .trade
  else if value = "BID" then .ok .bid
  else if value = "ASK" then .ok .ask
  else fail context (.invalidTickKind value)

def requireErrorCode (record : Json) (key context : String) : Parsed ErrorCode := do
  let value ← requireString record key context
  if value = "UNKNOWN_SYMBOL" then .ok .unknownSymbol
  else if value = "SUBSCRIPTION_LIMIT" then .ok .subscriptionLimit
  else if value = "NOT_ENTITLED" then .ok .notEntitled
  else if value = "RATE_LIMITED" then .ok .rateLimited
  else if value = "INTERNAL" then .ok .internal
  else fail context (.invalidErrorCode value)

def requirePrice (record : Json) (key context : String) : Parsed DecimalString := do
  let raw ← requireString record key context
  match DecimalString.toDecimal raw.toList with
  | some price => .ok price
  | none => fail context (.invalidPrice key raw)

/-- Cast, not checked. -/
def requireIso (record : Json) (key context : String) : Parsed String :=
  requireString record key context

/-! ## The socket's messages -/

def parseSnapshot (value : Json) (context : String) : Parsed Wire.Snapshot :=
  if !value.isRecord then fail context .expectedSnapshot
  else do
    let symbol ← requireString value "symbol" context
    let stream ← requireStream value "stream" context
    let price ← requirePrice value "price" context
    let change ← requirePrice value "change" context
    let changePercent ← requireString value "changePercent" context
    let openPrice ← requirePrice value "open" context
    let previousClose ← match value.field "previousClose" with
      | none => .ok none
      | some _ => (requirePrice value "previousClose" context).map some
    let high ← requirePrice value "high" context
    let low ← requirePrice value "low" context
    let volume ← requireNumber value "volume" context
    let lastEventId ← requireString value "lastEventId" context
    let exchangeTimestamp ← requireIso value "exchangeTimestamp" context
    let snapshotAge ← requireNumber value "snapshotAge" context
    let simulated ← requireBoolean value "simulated" context
    .ok { symbol, stream, price, change, changePercent, openPrice, previousClose, high, low,
          volume, lastEventId, exchangeTimestamp, snapshotAge, simulated }

/-- The floor of the interval that drives the client's own timers. -/
def minHeartbeatIntervalMs : ℚ := 1000

/-- Finite, and not below the floor. -/
def isHeartbeatInterval : JsNumber → Bool
  | some interval => decide (minHeartbeatIntervalMs ≤ interval)
  | none => false

def parseConnected (record : Json) : Parsed Wire.ServerMessage := do
  let context := "connected"
  let heartbeatIntervalMs ← requireNumber record "heartbeatIntervalMs" context
  if !isHeartbeatInterval heartbeatIntervalMs then
    fail context (.invalidHeartbeatInterval heartbeatIntervalMs)
  else
    let userId ← requireString record "userId" context
    let stream ← requireStream record "stream" context
    let sessionId ← requireString record "sessionId" context
    let serverTime ← requireIso record "serverTime" context
    .ok (.connected { userId, stream, sessionId, heartbeatIntervalMs, serverTime })

def parseSubscribed (record : Json) : Parsed Wire.ServerMessage := do
  let context := "subscribed"
  let requestId := optionalString record "requestId"
  let stream ← requireStream record "stream" context
  let accepted ← requireStringArray record "accepted" context
  let rejected ← requireStringArray record "rejected" context
  .ok (.subscribed { stream, accepted, rejected, requestId })

def parseUnsubscribed (record : Json) : Parsed Wire.ServerMessage := do
  let context := "unsubscribed"
  let requestId := optionalString record "requestId"
  let accepted ← requireStringArray record "accepted" context
  .ok (.unsubscribed { accepted, requestId })

def parseTick (record : Json) : Parsed Wire.ServerMessage := do
  let context := "tick"
  let s ← requireString record "s" context
  let p ← requirePrice record "p" context
  let q ← requireNumber record "q" context
  let k ← requireTickKind record "k" context
  let t ← requireIso record "t" context
  let id ← requireString record "id" context
  let st ← requireStream record "st" context
  .ok (.tick { s, p, q, k, t, id, st })

/-- A missing snapshot is `undefined`, and no object. -/
def parseSnapshotMsg (record : Json) : Parsed Wire.ServerMessage := do
  let snapshot ← parseSnapshot ((record.field "snapshot").getD .null) "snapshot"
  .ok (.snapshot snapshot)

def parseHeartbeat (record : Json) : Parsed Wire.ServerMessage := do
  let serverTime ← requireIso record "serverTime" "heartbeat"
  .ok (.heartbeat serverTime)

def parseError (record : Json) : Parsed Wire.ServerMessage := do
  let context := "error"
  let requestId := optionalString record "requestId"
  let code ← requireErrorCode record "code" context
  let message ← requireString record "message" context
  .ok (.error { code, message, requestId })

def parseEntitlementChanged (record : Json) : Parsed Wire.ServerMessage := do
  let context := "entitlementChanged"
  let stream ← requireStream record "stream" context
  let resubscribeRequired ← requireBoolean record "resubscribeRequired" context
  let effectiveFrom ← requireIso record "effectiveFrom" context
  .ok (.entitlementChanged { stream, resubscribeRequired, effectiveFrom })

/-- The parser of a type of message. -/
def parserOf (type : String) : Option (Json → Parsed Wire.ServerMessage) :=
  if type = "connected" then some parseConnected
  else if type = "subscribed" then some parseSubscribed
  else if type = "unsubscribed" then some parseUnsubscribed
  else if type = "tick" then some parseTick
  else if type = "snapshot" then some parseSnapshotMsg
  else if type = "heartbeat" then some parseHeartbeat
  else if type = "error" then some parseError
  else if type = "entitlementChanged" then some parseEntitlementChanged
  else none

/-- `parseServerMessage` of a text that is JSON. -/
def parseServerMessage (parsed : Json) : Parsed Wire.ServerMessage :=
  if !parsed.isRecord then fail "Server message" .expectedObject
  else match (parsed.field "type").bind Json.string? with
    | some type => match parserOf type with
      | some parse => parse parsed
      | none => fail "Server message" (.unknownType type)
    | none => fail "Server message" .missingType

/-! ## The validators of the REST bodies -/

def reqString (record : Json) (key ctx : String) : Parsed String :=
  match record.field key with
  | some (.string value) => .ok value
  | _ => fail ctx (.expectedString key)

def reqNumber (record : Json) (key ctx : String) : Parsed JsNumber :=
  match record.field key with
  | some (.number value) => .ok value
  | _ => fail ctx (.expectedNumber key)

def reqBoolean (record : Json) (key ctx : String) : Parsed Bool :=
  match record.field key with
  | some (.bool value) => .ok value
  | _ => fail ctx (.expectedBoolean key)

def reqStream (record : Json) (key ctx : String) : Parsed Stream := do
  let value ← reqString record key ctx
  if value = "LIVE" then .ok .live
  else if value = "DELAYED" then .ok .delayed
  else fail ctx (.invalidStream value)

def reqPrice (record : Json) (key ctx : String) : Parsed DecimalString := do
  let raw ← reqString record key ctx
  match DecimalString.toDecimal raw.toList with
  | some price => .ok price
  | none => fail ctx (.invalidPrice key raw)

/-- Cast, not checked. -/
def reqIso (record : Json) (key ctx : String) : Parsed String := reqString record key ctx

def parseSnapshotBody (value : Json) : Parsed Wire.Snapshot :=
  if !value.isRecord then fail "snapshot" .expectedObject
  else do
    let context := "snapshot"
    let symbol ← reqString value "symbol" context
    let stream ← reqStream value "stream" context
    let price ← reqPrice value "price" context
    let change ← reqPrice value "change" context
    let changePercent ← reqString value "changePercent" context
    let openPrice ← reqPrice value "open" context
    let previousClose ← match value.field "previousClose" with
      | none => .ok none
      | some _ => (reqPrice value "previousClose" context).map some
    let high ← reqPrice value "high" context
    let low ← reqPrice value "low" context
    let volume ← reqNumber value "volume" context
    let lastEventId ← reqString value "lastEventId" context
    let exchangeTimestamp ← reqIso value "exchangeTimestamp" context
    let snapshotAge ← reqNumber value "snapshotAge" context
    let simulated ← reqBoolean value "simulated" context
    .ok { symbol, stream, price, change, changePercent, openPrice, previousClose, high, low,
          volume, lastEventId, exchangeTimestamp, snapshotAge, simulated }

end Tckr.MarketWatch
