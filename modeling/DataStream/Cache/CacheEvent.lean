import DataStream.Event.Position
import DataStream.Foundations.Json.Prefix

/-!
# Cache events

`cache.CacheEvent`, the on-disk representation of a buffered change event, and its JSON form.

* `unmarshalCacheEvent_marshal`: a marshalled event is read back, with repaired strings;
* `unmarshalCacheEvent_take`: one that is cut short is not.
-/

namespace DataStream.Cache

open Json Event

/-- A buffered change event. -/
structure CacheEvent where
  sourceType : Int64
  /-- The JSON form of the event's position. -/
  position : Bytes
  txID : Bytes
  eventSeq : Int64
  isBegin : Bool
  isCommit : Bool
  /-- The JSON form of the change event. -/
  payload : Bytes
  timestampMs : Int64
  byteOffset : UInt64
  seqVal : Bytes
  deriving DecidableEq, Repr

namespace CacheEvent

def zero : CacheEvent where
  sourceType := 0
  position := []
  txID := []
  eventSeq := 0
  isBegin := false
  isCommit := false
  payload := []
  timestampMs := 0
  byteOffset := 0
  seqVal := []

variable (e : CacheEvent) (pos : Position)

def toJson : Json :=
  .obj (member "source_type" (jsonInt e.sourceType.toInt) ++
    (memberOmitEmpty "position" (e.position = []) (jsonBytes e.position) ++
    (memberOmitEmpty "tx_id" (e.txID = []) (jsonString e.txID) ++
    (member "event_seq" (jsonInt e.eventSeq.toInt) ++
    (memberOmitEmpty "is_begin" (!e.isBegin) (.bool e.isBegin) ++
    (memberOmitEmpty "is_commit" (!e.isCommit) (.bool e.isCommit) ++
    (memberOmitEmpty "payload" (e.payload = []) (jsonBytes e.payload) ++
    (member "timestamp_ms" (jsonInt e.timestampMs.toInt) ++
    (memberOmitEmpty "byte_offset" (e.byteOffset = 0) (jsonInt e.byteOffset.toNat) ++
    (memberOmitEmpty "seq_val" (e.seqVal = []) (jsonString e.seqVal) ++ []))))))))))

/-- How the members of the JSON form update an event. -/
def fields : List (Json.Field CacheEvent) :=
  [⟨lit "source_type", fun e j => (decodeInt64 e.sourceType j).map ({ e with sourceType := · })⟩,
    ⟨lit "position", fun e j => (decodeBytes e.position j).map ({ e with position := · })⟩,
    ⟨lit "tx_id", fun e j => (decodeString e.txID j).map ({ e with txID := · })⟩,
    ⟨lit "event_seq", fun e j => (decodeInt64 e.eventSeq j).map ({ e with eventSeq := · })⟩,
    ⟨lit "is_begin", fun e j => (decodeBool e.isBegin j).map ({ e with isBegin := · })⟩,
    ⟨lit "is_commit", fun e j => (decodeBool e.isCommit j).map ({ e with isCommit := · })⟩,
    ⟨lit "payload", fun e j => (decodeBytes e.payload j).map ({ e with payload := · })⟩,
    ⟨lit "timestamp_ms",
      fun e j => (decodeInt64 e.timestampMs j).map ({ e with timestampMs := · })⟩,
    ⟨lit "byte_offset", fun e j => (decodeUInt64 e.byteOffset j).map ({ e with byteOffset := · })⟩,
    ⟨lit "seq_val", fun e j => (decodeString e.seqVal j).map ({ e with seqVal := · })⟩]

/-- Decode an event. -/
def decode : Json.Decoder CacheEvent := decodeStruct fields

/-- `CacheEvent.Marshal`. No field of an event can fail to encode. -/
def marshal (e : CacheEvent) : Bytes := Json.marshal e.toJson

/-- `UnmarshalCacheEvent`; `none` is an error. -/
def unmarshalCacheEvent (data : Bytes) : Option CacheEvent := Json.unmarshal zero decode data

/-- `CacheEvent.SetPosition`: an encoding error leaves the event as it is. -/
def setPosition : CacheEvent :=
  match pos.marshal with
  | some data => { e with position := data }
  | none => e

variable (e : CacheEvent)

@[simp]
lemma payload_setPosition : (e.setPosition pos).payload = e.payload := by
  unfold setPosition
  split <;> rfl

/-- `CacheEvent.GetPosition`, with its error dropped: no position is stored, or it does not
decode. -/
def getPosition (e : CacheEvent) : Option Position :=
  if e.position = [] then none else Position.unmarshal e.position

/-- What an event is read back as: the invalid UTF-8 of its strings is repaired. -/
def repaired (e : CacheEvent) : CacheEvent :=
  { e with txID := Utf8.toValid e.txID, seqVal := Utf8.toValid e.seqVal }

/-! ## Reading back a marshalled event -/

private lemma ok_toJson : e.toJson.Ok := by
  simp (disch := first | decide | simp) only [toJson, Json.Ok, okMembers_append,
    okMembers_memberOmitEmpty, okMembers_member, OkMembers, and_self]

private lemma nesting_toJson : e.toJson.nesting ≤ 1 := by
  rw [toJson, nesting]
  simp [nestingMembers_append, nestingMembers_memberOmitEmpty]

private lemma decode_toJson : decode zero e.toJson = some e.repaired := by
  simp only [decode, decodeStruct, toJson]
  rw [decodeMembers_set (by decide) rfl fun y => decodeInt64_jsonInt y _,
    decodeMembers_setOmitEmpty (by decide) rfl fun y => decodeBytes_jsonBytes y _,
    decodeMembers_setOmitEmpty (by decide) rfl fun y => decodeString_jsonString y _,
    decodeMembers_set (by decide) rfl fun y => decodeInt64_jsonInt y _,
    decodeMembers_setOmitEmpty (by decide) rfl fun y => decodeBool_bool y _,
    decodeMembers_setOmitEmpty (by decide) rfl fun y => decodeBool_bool y _,
    decodeMembers_setOmitEmpty (by decide) rfl fun y => decodeBytes_jsonBytes y _,
    decodeMembers_set (by decide) rfl fun y => decodeInt64_jsonInt y _,
    decodeMembers_setOmitEmpty (by decide) rfl fun y => decodeUInt64_jsonInt y _,
    decodeMembers_setOmitEmpty (by decide) rfl fun y => decodeString_jsonString y _]
  · rfl
  -- A member is left out only when it holds what the zero event holds.
  all_goals
    intro h
    simp at h
    simp [zero, h]

/-- A marshalled event is read back, with the invalid UTF-8 of its strings repaired. -/
theorem unmarshalCacheEvent_marshal : unmarshalCacheEvent e.marshal = some e.repaired := by
  rw [unmarshalCacheEvent, marshal, unmarshal_marshal (ok_toJson e), decode_toJson]
  exact (nesting_toJson e).trans (by decide)

/-- A marshalled event that is cut short is not read back. -/
theorem unmarshalCacheEvent_take {e : CacheEvent} {n : ℕ} (h : n < e.marshal.length) :
    unmarshalCacheEvent (e.marshal.take n) = none := by
  have hsplit : e.toJson.print = e.marshal.take n ++ e.marshal.drop n :=
    (List.take_append_drop n e.marshal).symm
  have hdrop : e.marshal.drop n ≠ [] := by
    rw [Ne, List.drop_eq_nil_iff]
    omega
  have hdepth : e.toJson.nesting ≤ maxNestingDepth := (nesting_toJson e).trans (by decide)
  rw [unmarshalCacheEvent, Json.unmarshal,
    parse_eq_none_of_prefix (ok_toJson e) hdepth hsplit hdrop, Option.bind_none]

end CacheEvent

end DataStream.Cache
