import Tckr.MarketWatch.Contracts.SnapshotParsers

/-!
# The grammar of the socket's messages

A message is an object of a known type whose required fields are there, each with a value
of its type. The parser accepts exactly the messages of the types it checks, and what it
returns or throws depends on nothing but their fields. It checks the type of a number and of
a timestamp, not its range or its form, and it does not read the version.
-/

namespace Tckr.MarketWatch

/-! ## The grammar -/

/-- The contract's type of a field. -/
inductive FieldType
  | text
  | texts
  | flag
  | number
  /-- A quantity or a volume. -/
  | count
  | timestamp
  | price
  | stream
  | tickKind
  | errorCode
  /-- The heartbeat's interval. -/
  | interval

/-- A text of the form of a timestamp with milliseconds and the suffix. -/
def isTimestamp (text : List Char) : Bool :=
  let form := "0000-00-00T00:00:00.000Z".toList
  text.length == form.length &&
    (form.zip text).all fun (f, c) => if f = '0' then c.isDigit else c == f

namespace FieldType

/-- The values that the parser accepts for a field of the type. -/
def Checked : FieldType → Json → Prop
  | .text, value => ∃ text, value = .string text
  | .texts, value => ∃ texts : List String, value = .array (texts.map .string)
  | .flag, value => ∃ flag, value = .bool flag
  | .number, value => ∃ number, value = .number number
  | .count, value => ∃ number, value = .number number
  | .timestamp, value => ∃ text, value = .string text
  | .price, value => ∃ text : String, value = .string text ∧ isDecimal text.toList = true
  | .stream, value => ∃ text ∈ ["LIVE", "DELAYED"], value = .string text
  | .tickKind, value => ∃ text ∈ ["TRADE", "BID", "ASK"], value = .string text
  | .errorCode, value =>
      ∃ text ∈ ["UNKNOWN_SYMBOL", "SUBSCRIPTION_LIMIT", "NOT_ENTITLED", "RATE_LIMITED", "INTERNAL"],
        value = .string text
  | .interval, value => ∃ number : ℚ, value = .number (some number) ∧ 1000 ≤ number

/-- The values that the contract gives the type: a count is a natural number, and a timestamp has
the fixed form. -/
def Meant : FieldType → Json → Prop
  | .count, value => ∃ number : Nat, value = .number (some number)
  | .timestamp, value => ∃ text : String, value = .string text ∧ isTimestamp text.toList = true
  | type, value => type.Checked value

end FieldType

/-- The required fields of a snapshot. -/
def snapshotTypes : List (String × FieldType) :=
  [("symbol", .text), ("stream", .stream), ("price", .price), ("change", .price),
    ("changePercent", .text), ("open", .price), ("high", .price), ("low", .price),
    ("volume", .count), ("lastEventId", .text), ("exchangeTimestamp", .timestamp),
    ("snapshotAge", .number), ("simulated", .flag)]

def connectedTypes : List (String × FieldType) :=
  [("heartbeatIntervalMs", .interval), ("userId", .text), ("stream", .stream),
    ("sessionId", .text), ("serverTime", .timestamp)]

def subscribedTypes : List (String × FieldType) :=
  [("stream", .stream), ("accepted", .texts), ("rejected", .texts)]

def unsubscribedTypes : List (String × FieldType) := [("accepted", .texts)]

def tickTypes : List (String × FieldType) :=
  [("s", .text), ("p", .price), ("q", .count), ("k", .tickKind), ("t", .timestamp), ("id", .text),
    ("st", .stream)]

def heartbeatTypes : List (String × FieldType) := [("serverTime", .timestamp)]

def errorTypes : List (String × FieldType) := [("code", .errorCode), ("message", .text)]

def entitlementChangedTypes : List (String × FieldType) :=
  [("stream", .stream), ("resubscribeRequired", .flag), ("effectiveFrom", .timestamp)]

/-- The required fields of the messages, but for the one with a snapshot. -/
def messageTypes : List (String × List (String × FieldType)) :=
  [("connected", connectedTypes), ("subscribed", subscribedTypes),
    ("unsubscribed", unsubscribedTypes), ("tick", tickTypes), ("heartbeat", heartbeatTypes),
    ("error", errorTypes), ("entitlementChanged", entitlementChangedTypes)]

section Grammar

variable (types : FieldType → Json → Prop) (value : Json)

/-- The field is there, with a value of the type. -/
def HasField (key : String) (type : FieldType) : Prop :=
  ∃ fieldValue, value.field key = some fieldValue ∧ types type fieldValue

/-- The value has each of the fields. -/
def HasFields (fields : List (String × FieldType)) : Prop :=
  ∀ f ∈ fields, HasField types value f.1 f.2

/-- The previous close may be left out of a snapshot. -/
def IsSnapshot : Prop :=
  HasFields types value snapshotTypes ∧
    (value.field "previousClose" = none ∨ HasField types value "previousClose" .price)

/-- A message of the grammar. -/
def IsMessage : Prop :=
  (∃ m ∈ messageTypes, value.field "type" = some (.string m.1) ∧ HasFields types value m.2) ∨
    value.field "type" = some (.string "snapshot") ∧
      ∃ snapshot, value.field "snapshot" = some snapshot ∧ IsSnapshot types snapshot

end Grammar

/-! ## What a parser accepts -/

section Accepts

variable {ε α β : Type}

/-- The computation returns, and does not throw. -/
def Accepts (x : Except ε α) : Prop := ∃ a, x = .ok a

theorem accepts_iff (x : Except ε α) : (∃ a, x = .ok a) ↔ Accepts x := Iff.rfl

@[simp] theorem accepts_ok (a : α) : Accepts (.ok a : Except ε α) := ⟨a, rfl⟩

@[simp] theorem not_accepts_fail (context : String) (failure : ParseFailure) :
    ¬Accepts (fail context failure : Parsed α) := by
  simp [Accepts, fail]

@[simp] theorem accepts_bind (x : Except ε α) (f : α → Except ε β) :
    Accepts (x >>= f) ↔ ∃ a, x = .ok a ∧ Accepts (f a) := by
  cases x with
  | ok a => simp [Accepts, bind, Except.bind]
  | error e => simp [Accepts, bind, Except.bind]

@[simp] theorem accepts_map (f : α → β) (x : Except ε α) : Accepts (x.map f) ↔ Accepts x := by
  cases x <;> simp [Accepts, Except.map]

@[simp] theorem accepts_ite_ok (c : Prop) [Decidable c] (a : α) (x : Except ε α) :
    Accepts (if c then .ok a else x) ↔ c ∨ Accepts x := by
  by_cases hc : c <;> simp [hc]

@[simp] theorem accepts_ite_fail (c : Prop) [Decidable c] (context : String)
    (failure : ParseFailure) (x : Parsed α) :
    Accepts (if c then fail context failure else x) ↔ ¬c ∧ Accepts x := by
  by_cases hc : c <;> simp [hc]

end Accepts

section Validators

variable {record : Json} {key context : String}

theorem requireString_eq_ok {text : String} :
    requireString record key context = .ok text ↔ record.field key = some (.string text) := by
  unfold requireString
  split <;> simp_all [fail]

theorem requireNumber_eq_ok {number : JsNumber} :
    requireNumber record key context = .ok number ↔ record.field key = some (.number number) := by
  unfold requireNumber
  split <;> simp_all [fail]

theorem requireBoolean_eq_ok {flag : Bool} :
    requireBoolean record key context = .ok flag ↔ record.field key = some (.bool flag) := by
  unfold requireBoolean
  split
  · simp_all
  · rename_i hother
    simpa [fail] using hother flag

/-- The texts of an array are there when every item is one. -/
theorem mapM_string?_eq_some {items : List Json} {texts : List String} :
    items.mapM Json.string? = some texts ↔ items = texts.map .string := by
  induction items generalizing texts with
  | nil => cases texts <;> simp
  | cons item items ih =>
    cases texts with
    | nil => cases item <;> simp [Json.string?, Option.bind_eq_some_iff]
    | cons text texts =>
      cases item <;> simp [Json.string?, Option.bind_eq_some_iff, ih, and_comm]

theorem requireStringArray_eq_ok {texts : List String} :
    requireStringArray record key context = .ok texts ↔
      record.field key = some (.array (texts.map .string)) := by
  unfold requireStringArray
  split
  · rename_i items hitems
    rw [hitems, Option.some.injEq, Json.array.injEq, ← mapM_string?_eq_some]
    split
    · rename_i htexts
      rw [htexts, Except.ok.injEq, Option.some.injEq]
    · rename_i hnone
      simp [hnone, fail]
  · simp_all [fail]

/-- A field is there when its value is built from something of the type. -/
theorem hasField_iff {γ : Type} {type : FieldType} {P : γ → Prop} (build : γ → Json)
    (htype : ∀ value, type.Checked value ↔ ∃ a, P a ∧ value = build a) :
    HasField FieldType.Checked record key type ↔
      ∃ a, record.field key = some (build a) ∧ P a := by
  simp only [HasField, htype]
  constructor
  · rintro ⟨value, hvalue, a, ha, rfl⟩
    exact ⟨a, hvalue, ha⟩
  · rintro ⟨a, hvalue, ha⟩
    exact ⟨_, hvalue, a, ha, rfl⟩

theorem accepts_requireString :
    Accepts (requireString record key context) ↔ HasField FieldType.Checked record key .text := by
  rw [hasField_iff (P := fun _ => True) .string (by simp [FieldType.Checked])]
  simp [Accepts, requireString_eq_ok]

theorem accepts_requireIso :
    Accepts (requireIso record key context) ↔
      HasField FieldType.Checked record key .timestamp := accepts_requireString

theorem accepts_requireNumber :
    Accepts (requireNumber record key context) ↔
      HasField FieldType.Checked record key .number := by
  rw [hasField_iff (P := fun _ => True) .number (by simp [FieldType.Checked])]
  simp [Accepts, requireNumber_eq_ok]

theorem accepts_requireBoolean :
    Accepts (requireBoolean record key context) ↔
      HasField FieldType.Checked record key .flag := by
  rw [hasField_iff (P := fun _ => True) .bool (by simp [FieldType.Checked])]
  simp [Accepts, requireBoolean_eq_ok]

theorem accepts_requireStringArray :
    Accepts (requireStringArray record key context) ↔
      HasField FieldType.Checked record key .texts := by
  rw [hasField_iff (P := fun _ => True) (fun texts : List String => .array (texts.map .string))
    (by simp [FieldType.Checked])]
  simp [Accepts, requireStringArray_eq_ok]

theorem accepts_requireStream :
    Accepts (requireStream record key context) ↔
      HasField FieldType.Checked record key .stream := by
  rw [hasField_iff .string fun _ => Iff.rfl]
  simp [requireStream, requireString_eq_ok]

theorem accepts_requireTickKind :
    Accepts (requireTickKind record key context) ↔
      HasField FieldType.Checked record key .tickKind := by
  rw [hasField_iff .string fun _ => Iff.rfl]
  simp [requireTickKind, requireString_eq_ok]

theorem accepts_requireErrorCode :
    Accepts (requireErrorCode record key context) ↔
      HasField FieldType.Checked record key .errorCode := by
  rw [hasField_iff .string fun _ => Iff.rfl]
  simp [requireErrorCode, requireString_eq_ok]

theorem accepts_requirePrice :
    Accepts (requirePrice record key context) ↔
      HasField FieldType.Checked record key .price := by
  rw [hasField_iff (P := fun text => isDecimal text.toList = true) .string
    (by simp [FieldType.Checked, and_comm])]
  simp only [requirePrice, accepts_bind, requireString_eq_ok]
  refine exists_congr fun text => and_congr_right fun _ => ?_
  by_cases htext : isDecimal text.toList = true
  · simp [DecimalString.toDecimal, htext]
  · simp [DecimalString.toDecimal, htext]

theorem hasField_count :
    HasField FieldType.Checked record key .count ↔ HasField FieldType.Checked record key .number :=
  Iff.rfl

theorem hasField_interval (context : String) :
    HasField FieldType.Checked record key .interval ↔
      ∃ number, requireNumber record key context = .ok number ∧
        isHeartbeatInterval number = true := by
  simp only [requireNumber_eq_ok]
  rw [hasField_iff (P := fun number => isHeartbeatInterval number = true) .number]
  intro value
  constructor
  · rintro ⟨number, rfl, hfloor⟩
    exact ⟨some number, decide_eq_true hfloor, rfl⟩
  · rintro ⟨number, hfloor, rfl⟩
    cases number with
    | none => simp [isHeartbeatInterval] at hfloor
    | some number => exact ⟨number, rfl, of_decide_eq_true hfloor⟩

end Validators

/-! ## The messages -/

section Messages

variable {record : Json}

/-- Only a record has fields. -/
theorem isRecord_of_field {key : String} {value : Json} (h : record.field key = some value) :
    record.isRecord = true := by
  cases record with
  | object members => rfl
  | _ => simp [Json.field] at h

theorem accepts_parseConnected :
    Accepts (parseConnected record) ↔ HasFields FieldType.Checked record connectedTypes := by
  simp only [parseConnected, accepts_bind, accepts_ite_fail, ← and_assoc]
  simp [HasFields, connectedTypes, accepts_iff, hasField_interval "connected",
    accepts_requireString, accepts_requireStream, accepts_requireIso]

theorem accepts_parseSubscribed :
    Accepts (parseSubscribed record) ↔ HasFields FieldType.Checked record subscribedTypes := by
  simp [parseSubscribed, HasFields, subscribedTypes, accepts_iff, accepts_requireStream,
    accepts_requireStringArray]

theorem accepts_parseUnsubscribed :
    Accepts (parseUnsubscribed record) ↔ HasFields FieldType.Checked record unsubscribedTypes := by
  simp [parseUnsubscribed, HasFields, unsubscribedTypes, accepts_iff, accepts_requireStringArray]

theorem accepts_parseTick :
    Accepts (parseTick record) ↔ HasFields FieldType.Checked record tickTypes := by
  simp [parseTick, HasFields, tickTypes, accepts_iff, accepts_requireIso, accepts_requireString,
    accepts_requirePrice, accepts_requireNumber, accepts_requireTickKind, accepts_requireStream,
    hasField_count]

theorem accepts_parseHeartbeat :
    Accepts (parseHeartbeat record) ↔ HasFields FieldType.Checked record heartbeatTypes := by
  simp [parseHeartbeat, HasFields, heartbeatTypes, accepts_iff, accepts_requireIso]

theorem accepts_parseError :
    Accepts (parseError record) ↔ HasFields FieldType.Checked record errorTypes := by
  simp [parseError, HasFields, errorTypes, accepts_iff, accepts_requireErrorCode,
    accepts_requireString]

theorem accepts_parseEntitlementChanged :
    Accepts (parseEntitlementChanged record) ↔
      HasFields FieldType.Checked record entitlementChangedTypes := by
  simp [parseEntitlementChanged, HasFields, entitlementChangedTypes, accepts_iff,
    accepts_requireStream, accepts_requireBoolean, accepts_requireIso]

/-- A previous close that is there is a price. -/
theorem accepts_parseSnapshot (context : String) :
    Accepts (parseSnapshot record context) ↔ IsSnapshot FieldType.Checked record := by
  have hrecord : IsSnapshot FieldType.Checked record → record.isRecord = true := by
    rintro ⟨hfields, -⟩
    obtain ⟨value, hvalue, -⟩ := hfields ("symbol", .text) (by simp [snapshotTypes])
    exact isRecord_of_field hvalue
  rw [← and_iff_right_of_imp hrecord, parseSnapshot, accepts_ite_fail]
  refine and_congr (by simp) ?_
  cases hprevious : record.field "previousClose" with
  | none =>
    simp [HasFields, IsSnapshot, snapshotTypes, accepts_iff, accepts_requireIso, hprevious,
      accepts_requireString, accepts_requirePrice, accepts_requireNumber, accepts_requireBoolean,
      accepts_requireStream, hasField_count]
  | some previous =>
    simp [HasFields, IsSnapshot, snapshotTypes, accepts_iff, accepts_requireIso, hprevious,
      accepts_requireString, accepts_requirePrice, accepts_requireNumber, accepts_requireBoolean,
      accepts_requireStream, hasField_count, and_comm, and_left_comm]

/-- A field of JSON is no record where it is missing. -/
theorem accepts_parseSnapshotMsg :
    Accepts (parseSnapshotMsg record) ↔
      ∃ snapshot, record.field "snapshot" = some snapshot ∧
        IsSnapshot FieldType.Checked snapshot := by
  have hnull : ¬IsSnapshot FieldType.Checked .null := by
    rw [← accepts_parseSnapshot "snapshot", parseSnapshot, accepts_ite_fail]
    simp [Json.isRecord]
  simp only [parseSnapshotMsg, accepts_bind, accepts_ok, and_true, accepts_iff,
    accepts_parseSnapshot]
  cases record.field "snapshot" with
  | none => simp [hnull]
  | some snapshot => simp

theorem accepts_parseServerMessage :
    Accepts (parseServerMessage record) ↔ ∃ type parse,
      record.field "type" = some (.string type) ∧ parserOf type = some parse ∧
        Accepts (parse record) := by
  cases htype : record.field "type" with
  | none => simp [parseServerMessage, htype]
  | some value =>
    have hrecord := isRecord_of_field htype
    cases value with
    | string type =>
      cases hparse : parserOf type with
      | none => simp [parseServerMessage, htype, hrecord, Json.string?, hparse]
      | some parse => simp [parseServerMessage, htype, hrecord, Json.string?, hparse]
    | _ => simp [parseServerMessage, htype, Json.string?]

/-- The parser of a type accepts the records with its fields. -/
theorem exists_parserOf {m : String × List (String × FieldType)} (hm : m ∈ messageTypes) :
    ∃ parse, parserOf m.1 = some parse ∧
      ∀ record, Accepts (parse record) ↔ HasFields FieldType.Checked record m.2 := by
  simp only [messageTypes, List.mem_cons, List.not_mem_nil, or_false] at hm
  obtain rfl | rfl | rfl | rfl | rfl | rfl | rfl := hm
  · exact ⟨parseConnected, rfl, fun _ => accepts_parseConnected⟩
  · exact ⟨parseSubscribed, rfl, fun _ => accepts_parseSubscribed⟩
  · exact ⟨parseUnsubscribed, rfl, fun _ => accepts_parseUnsubscribed⟩
  · exact ⟨parseTick, rfl, fun _ => accepts_parseTick⟩
  · exact ⟨parseHeartbeat, rfl, fun _ => accepts_parseHeartbeat⟩
  · exact ⟨parseError, rfl, fun _ => accepts_parseError⟩
  · exact ⟨parseEntitlementChanged, rfl, fun _ => accepts_parseEntitlementChanged⟩

/-- A type with a parser is one of the grammar's. -/
theorem mem_messageTypes_of_parserOf {type : String} {parse : Json → Parsed Wire.ServerMessage}
    (h : parserOf type = some parse) :
    (∃ m ∈ messageTypes, m.1 = type) ∨ type = "snapshot" := by
  have hother : parserOf type ≠ none := by rw [h]; simp
  simp only [messageTypes, List.exists_mem_cons_iff, List.not_mem_nil, false_and, exists_false,
    or_false]
  by_contra hnone
  refine hother ?_
  simp only [not_or, eq_comm (b := type)] at hnone
  simp [parserOf, hnone]

/-- The parser accepts the messages of the types it checks. -/
theorem accepts_iff_isMessage :
    Accepts (parseServerMessage record) ↔ IsMessage FieldType.Checked record := by
  rw [accepts_parseServerMessage]
  constructor
  · rintro ⟨type, parse, htype, hparse, haccepts⟩
    obtain ⟨m, hm, rfl⟩ | rfl := mem_messageTypes_of_parserOf hparse
    · obtain ⟨parse', hparse', hfields⟩ := exists_parserOf hm
      obtain rfl := Option.some.inj (hparse.symm.trans hparse')
      exact .inl ⟨m, hm, htype, (hfields record).mp haccepts⟩
    · obtain rfl := Option.some.inj (hparse.symm.trans (rfl : _ = some parseSnapshotMsg))
      exact .inr ⟨htype, accepts_parseSnapshotMsg.mp haccepts⟩
  · rintro (⟨m, hm, htype, hfields⟩ | ⟨htype, hsnapshot⟩)
    · obtain ⟨parse, hparse, haccepts⟩ := exists_parserOf hm
      exact ⟨m.1, parse, htype, hparse, (haccepts record).mpr hfields⟩
    · exact ⟨"snapshot", parseSnapshotMsg, htype, rfl, accepts_parseSnapshotMsg.mpr hsnapshot⟩

end Messages

/-! ## What a parser depends on -/

section Dependence

variable {record record' : Json} {key context : String}

theorem requireStringArray_congr (h : record.field key = record'.field key) :
    requireStringArray record key context = requireStringArray record' key context := by
  rw [requireStringArray, requireStringArray, h]

theorem requireTickKind_congr (h : record.field key = record'.field key) :
    requireTickKind record key context = requireTickKind record' key context := by
  rw [requireTickKind, requireTickKind, requireString_congr h]

theorem requireErrorCode_congr (h : record.field key = record'.field key) :
    requireErrorCode record key context = requireErrorCode record' key context := by
  rw [requireErrorCode, requireErrorCode, requireString_congr h]

theorem optionalString_congr (h : record.field key = record'.field key) :
    optionalString record key = optionalString record' key := by
  rw [optionalString, optionalString, h]

theorem parseConnected_congr
    (h : ∀ f ∈ connectedTypes, record.field f.1 = record'.field f.1) :
    parseConnected record = parseConnected record' := by
  simp only [connectedTypes, List.forall_mem_cons] at h
  obtain ⟨heartbeatIntervalMs, userId, stream, sessionId, serverTime, -⟩ := h
  simp only [parseConnected, requireIso, requireNumber_congr heartbeatIntervalMs,
    requireString_congr userId, requireStream_congr stream, requireString_congr sessionId,
    requireString_congr serverTime]

theorem parseSubscribed_congr
    (h : ∀ f ∈ subscribedTypes, record.field f.1 = record'.field f.1)
    (hrequest : record.field "requestId" = record'.field "requestId") :
    parseSubscribed record = parseSubscribed record' := by
  simp only [subscribedTypes, List.forall_mem_cons] at h
  obtain ⟨stream, accepted, rejected, -⟩ := h
  simp only [parseSubscribed, requireStream_congr stream, requireStringArray_congr accepted,
    requireStringArray_congr rejected, optionalString_congr hrequest]

theorem parseUnsubscribed_congr
    (h : ∀ f ∈ unsubscribedTypes, record.field f.1 = record'.field f.1)
    (hrequest : record.field "requestId" = record'.field "requestId") :
    parseUnsubscribed record = parseUnsubscribed record' := by
  simp only [unsubscribedTypes, List.forall_mem_cons] at h
  simp only [parseUnsubscribed, requireStringArray_congr h.1, optionalString_congr hrequest]

theorem parseTick_congr (h : ∀ f ∈ tickTypes, record.field f.1 = record'.field f.1) :
    parseTick record = parseTick record' := by
  simp only [tickTypes, List.forall_mem_cons] at h
  obtain ⟨s, p, q, k, t, id, st, -⟩ := h
  simp only [parseTick, requireIso, requireString_congr s, requirePrice_congr p,
    requireNumber_congr q, requireTickKind_congr k, requireString_congr t, requireString_congr id,
    requireStream_congr st]

theorem parseHeartbeat_congr (h : ∀ f ∈ heartbeatTypes, record.field f.1 = record'.field f.1) :
    parseHeartbeat record = parseHeartbeat record' := by
  simp only [heartbeatTypes, List.forall_mem_cons] at h
  simp only [parseHeartbeat, requireIso, requireString_congr h.1]

theorem parseError_congr (h : ∀ f ∈ errorTypes, record.field f.1 = record'.field f.1)
    (hrequest : record.field "requestId" = record'.field "requestId") :
    parseError record = parseError record' := by
  simp only [errorTypes, List.forall_mem_cons] at h
  obtain ⟨code, message, -⟩ := h
  simp only [parseError, requireErrorCode_congr code, requireString_congr message,
    optionalString_congr hrequest]

theorem parseEntitlementChanged_congr
    (h : ∀ f ∈ entitlementChangedTypes, record.field f.1 = record'.field f.1) :
    parseEntitlementChanged record = parseEntitlementChanged record' := by
  simp only [entitlementChangedTypes, List.forall_mem_cons] at h
  obtain ⟨stream, resubscribeRequired, effectiveFrom, -⟩ := h
  simp only [parseEntitlementChanged, requireIso, requireStream_congr stream,
    requireBoolean_congr resubscribeRequired, requireString_congr effectiveFrom]

/-- The types whose messages may answer a request. -/
def requestTypes : List String := ["subscribed", "unsubscribed", "error"]

/-- Two values that are records or none, of one type, whose fields of that type are the same. -/
structure SameMessage (value value' : Json) : Prop where
  isRecord : value.isRecord = value'.isRecord
  type : value.field "type" = value'.field "type"
  fields : ∀ m ∈ messageTypes, value.field "type" = some (.string m.1) →
    ∀ f ∈ m.2, value.field f.1 = value'.field f.1
  requestId : ∀ type ∈ requestTypes, value.field "type" = some (.string type) →
    value.field "requestId" = value'.field "requestId"
  snapshot : value.field "type" = some (.string "snapshot") →
    SameSnapshot ((value.field "snapshot").getD .null) ((value'.field "snapshot").getD .null)

/-- The parser of a type reads no other field. -/
theorem SameMessage.parse_congr (h : SameMessage record record') {type : String}
    (htype : record.field "type" = some (.string type)) {parse : Json → Parsed Wire.ServerMessage}
    (hparse : parserOf type = some parse) : parse record = parse record' := by
  have hparser (known : Json → Parsed Wire.ServerMessage) (hknown : parserOf type = some known) :
      parse = known := Option.some.inj (hparse.symm.trans hknown)
  obtain ⟨m, hm, rfl⟩ | rfl := mem_messageTypes_of_parserOf hparse
  · have hfields := h.fields m hm htype
    have hrequest (hm : m.1 ∈ requestTypes) := h.requestId m.1 hm htype
    simp only [messageTypes, List.mem_cons, List.not_mem_nil, or_false] at hm
    obtain rfl | rfl | rfl | rfl | rfl | rfl | rfl := hm
    · rw [hparser parseConnected rfl]
      exact parseConnected_congr hfields
    · rw [hparser parseSubscribed rfl]
      exact parseSubscribed_congr hfields (hrequest (by simp [requestTypes]))
    · rw [hparser parseUnsubscribed rfl]
      exact parseUnsubscribed_congr hfields (hrequest (by simp [requestTypes]))
    · rw [hparser parseTick rfl]
      exact parseTick_congr hfields
    · rw [hparser parseHeartbeat rfl]
      exact parseHeartbeat_congr hfields
    · rw [hparser parseError rfl]
      exact parseError_congr hfields (hrequest (by simp [requestTypes]))
    · rw [hparser parseEntitlementChanged rfl]
      exact parseEntitlementChanged_congr hfields
  · rw [hparser parseSnapshotMsg rfl, parseSnapshotMsg, parseSnapshotMsg,
      parseSnapshot_congr (h.snapshot htype)]

/-- What the parser returns or throws depends on the fields of the message alone. -/
theorem SameMessage.parseServerMessage_congr (h : SameMessage record record') :
    parseServerMessage record = parseServerMessage record' := by
  simp only [parseServerMessage, ← h.isRecord, ← h.type]
  cases htype : record.field "type" with
  | none => rfl
  | some value =>
    cases value with
    | string type =>
      simp only [Option.bind_some, Json.string?]
      cases hparse : parserOf type with
      | none => rfl
      | some parse => simp only [h.parse_congr htype hparse]
    | _ => rfl

end Dependence

/-! ## The parser and the grammar -/

/-- The parser accepts exactly the messages of the types it checks, whose result depends on their
fields alone, and throws for every other value. -/
theorem parseServerMessage_grammar :
    (∀ value, (∃ m, parseServerMessage value = .ok m) ↔ IsMessage FieldType.Checked value) ∧
    (∀ value, (∃ e, parseServerMessage value = .error e) ↔ ¬IsMessage FieldType.Checked value) ∧
    ∀ value value', SameMessage value value' →
      parseServerMessage value = parseServerMessage value' := by
  refine ⟨fun value => accepts_iff_isMessage, fun value => ?_,
    fun value value' h => h.parseServerMessage_congr⟩
  rw [← accepts_iff_isMessage]
  cases hparse : parseServerMessage value with
  | ok m => simp
  | error e => simp [Accepts]

/-- A heartbeat with the version and the time it says. -/
def heartbeatOf (v : JsNumber) (serverTime : String) : Json :=
  .object [("v", .number v), ("type", .string "heartbeat"), ("serverTime", .string serverTime)]

theorem accepts_heartbeatOf (v : JsNumber) (serverTime : String) :
    ∃ m, parseServerMessage (heartbeatOf v serverTime) = .ok m := ⟨.heartbeat serverTime, rfl⟩

/-- A tick of the version, with the quantity it says. -/
def tickOf (q : JsNumber) : Json :=
  .object [("v", .number (some 1)), ("type", .string "tick"), ("s", .string "COMI"),
    ("p", .string "85.42"), ("q", .number q), ("k", .string "TRADE"),
    ("t", .string "2026-09-12T10:31:05.000Z"), ("id", .string "1"), ("st", .string "LIVE")]

/-- The fields of a message are those of its type. -/
theorem IsMessage.hasFields {types : FieldType → Json → Prop} {value : Json}
    (h : IsMessage types value) {m : String × List (String × FieldType)} (hm : m ∈ messageTypes)
    (htype : value.field "type" = some (.string m.1)) : HasFields types value m.2 := by
  have hunique : ∀ m' ∈ messageTypes, m'.1 = m.1 → m'.2 = m.2 := by
    simp only [messageTypes, List.mem_cons, List.not_mem_nil, or_false] at hm
    obtain rfl | rfl | rfl | rfl | rfl | rfl | rfl := hm <;> simp [messageTypes]
  have hsnapshot : m.1 ≠ "snapshot" := by
    simp only [messageTypes, List.mem_cons, List.not_mem_nil, or_false] at hm
    obtain rfl | rfl | rfl | rfl | rfl | rfl | rfl := hm <;> simp
  obtain ⟨m', hm', htype', hfields⟩ | ⟨htype', -⟩ := h
  · rw [htype, Option.some.injEq, Json.string.injEq] at htype'
    rwa [← hunique m' hm' htype'.symm]
  · rw [htype, Option.some.injEq, Json.string.injEq] at htype'
    exact absurd htype' hsnapshot

/-- The parser accepts a message of another version, one whose timestamp is no timestamp, and one
whose quantity is negative. -/
theorem not_contract_grammar :
    (¬∀ value, (∃ m, parseServerMessage value = .ok m) ↔
      value.field "v" = some (.number (some 1)) ∧ IsMessage FieldType.Meant value) ∧
    (∃ m, parseServerMessage (heartbeatOf (some 1) "now") = .ok m) ∧
    ¬IsMessage FieldType.Meant (heartbeatOf (some 1) "now") ∧
    (∃ m, parseServerMessage (tickOf (some (-1))) = .ok m) ∧
    ¬IsMessage FieldType.Meant (tickOf (some (-1))) := by
  refine ⟨fun h => ?_, accepts_heartbeatOf _ _, fun h => ?_, ⟨_, rfl⟩, fun h => ?_⟩
  · have hversion := ((h _).mp (accepts_heartbeatOf (some 2) "2026-09-12T10:31:05.000Z")).1
    rw [show (heartbeatOf (some 2) "2026-09-12T10:31:05.000Z").field "v" =
      some (.number (some 2)) from rfl] at hversion
    simp at hversion
  · obtain ⟨value, hvalue, text, rfl, htext⟩ := h.hasFields (m := ("heartbeat", heartbeatTypes))
      (by simp [messageTypes]) rfl ("serverTime", .timestamp) (by simp [heartbeatTypes])
    have hnow : some (.string "now") = some (Json.string text) := hvalue
    obtain rfl : "now" = text := by simpa using hnow
    exact absurd htext (by decide)
  · obtain ⟨value, hvalue, number, rfl⟩ := h.hasFields (m := ("tick", tickTypes))
      (by simp [messageTypes]) rfl ("q", .count) (by simp [tickTypes])
    have hquantity : some (Json.number (some (-1))) = some (.number (some number)) := hvalue
    have hnum : (-1 : ℚ).num = (number : ℚ).num := by
      simp only [Option.some.injEq, Json.number.injEq] at hquantity
      rw [hquantity]
    rw [Rat.num_natCast] at hnum
    exact absurd hnum (by simp)

end Tckr.MarketWatch
