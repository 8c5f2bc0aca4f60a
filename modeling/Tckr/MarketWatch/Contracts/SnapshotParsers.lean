import Tckr.MarketWatch.Contracts.Parsing

/-!
# Two parsers of one snapshot

A snapshot comes with a message of the socket or as the body of a REST response, and each
way has a parser of its own. They accept the same values with the same results, which
depend on the contract's fields alone.
-/

namespace Tckr.MarketWatch

/-- The fields of the contract's snapshot. -/
def snapshotFields : List String :=
  ["symbol", "stream", "price", "change", "changePercent", "open", "previousClose", "high", "low",
    "volume", "lastEventId", "exchangeTimestamp", "snapshotAge", "simulated"]

section Validators

theorem reqString_eq_requireString : reqString = requireString := rfl

theorem reqNumber_eq_requireNumber : reqNumber = requireNumber := rfl

theorem reqBoolean_eq_requireBoolean : reqBoolean = requireBoolean := rfl

theorem reqStream_eq_requireStream : reqStream = requireStream := rfl

theorem reqPrice_eq_requirePrice : reqPrice = requirePrice := rfl

theorem reqIso_eq_requireIso : reqIso = requireIso := rfl

variable {record record' : Json} {key context : String}

theorem requireString_congr (h : record.field key = record'.field key) :
    requireString record key context = requireString record' key context := by
  rw [requireString, requireString, h]

theorem requireNumber_congr (h : record.field key = record'.field key) :
    requireNumber record key context = requireNumber record' key context := by
  rw [requireNumber, requireNumber, h]

theorem requireBoolean_congr (h : record.field key = record'.field key) :
    requireBoolean record key context = requireBoolean record' key context := by
  rw [requireBoolean, requireBoolean, h]

theorem requireStream_congr (h : record.field key = record'.field key) :
    requireStream record key context = requireStream record' key context := by
  rw [requireStream, requireStream, requireString_congr h]

theorem requirePrice_congr (h : record.field key = record'.field key) :
    requirePrice record key context = requirePrice record' key context := by
  rw [requirePrice, requirePrice, requireString_congr h]

end Validators

/-- On a record the two parsers are one. -/
theorem parseSnapshotBody_eq_parseSnapshot {value : Json} (hrecord : value.isRecord = true) :
    parseSnapshotBody value = parseSnapshot value "snapshot" := by
  rw [parseSnapshotBody, parseSnapshot, hrecord, reqString_eq_requireString,
    reqNumber_eq_requireNumber, reqBoolean_eq_requireBoolean, reqStream_eq_requireStream,
    reqPrice_eq_requirePrice, reqIso_eq_requireIso]
  rfl

/-- Two values that are records or none, and whose fields of the contract are the same. -/
def SameSnapshot (value value' : Json) : Prop :=
  value.isRecord = value'.isRecord ∧ ∀ key ∈ snapshotFields, value.field key = value'.field key

theorem parseSnapshot_congr {value value' : Json} (h : SameSnapshot value value')
    (context : String) : parseSnapshot value context = parseSnapshot value' context := by
  obtain ⟨hrecord, hfields⟩ := h
  simp only [snapshotFields, List.forall_mem_cons] at hfields
  obtain ⟨symbol, stream, price, change, changePercent, openPrice, previousClose, high, low, volume,
    lastEventId, exchangeTimestamp, snapshotAge, simulated, -⟩ := hfields
  simp only [parseSnapshot, requireIso, hrecord, requireString_congr symbol,
    requireStream_congr stream, requirePrice_congr price, requirePrice_congr change,
    requireString_congr changePercent, requirePrice_congr openPrice, previousClose,
    requirePrice_congr previousClose, requirePrice_congr high, requirePrice_congr low,
    requireNumber_congr volume, requireString_congr lastEventId,
    requireString_congr exchangeTimestamp, requireNumber_congr snapshotAge,
    requireBoolean_congr simulated]

/-- Both parsers refuse a value, or both accept it with one result, and no field outside
the contract's snapshot counts for either. -/
theorem snapshot_parsers_agree :
    (∀ value : Json,
      (parseSnapshotBody value).toOption = (parseSnapshot value "snapshot").toOption) ∧
    ∀ value value' : Json, SameSnapshot value value' →
      parseSnapshotBody value = parseSnapshotBody value' ∧
        parseSnapshot value "snapshot" = parseSnapshot value' "snapshot" := by
  refine ⟨fun value => ?_, fun value value' h => ⟨?_, parseSnapshot_congr h "snapshot"⟩⟩
  · cases hrecord : value.isRecord with
    | true => rw [parseSnapshotBody_eq_parseSnapshot hrecord]
    | false =>
      rw [parseSnapshotBody, parseSnapshot, hrecord]
      rfl
  · cases hrecord : value.isRecord with
    | true =>
      rw [parseSnapshotBody_eq_parseSnapshot hrecord,
        parseSnapshotBody_eq_parseSnapshot (h.1 ▸ hrecord), parseSnapshot_congr h]
    | false =>
      rw [parseSnapshotBody, parseSnapshotBody, hrecord, ← h.1, hrecord]
      rfl

end Tckr.MarketWatch
