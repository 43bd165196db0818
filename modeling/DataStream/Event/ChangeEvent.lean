import DataStream.Event.Position
import DataStream.Event.TableInfo
import DataStream.Foundations.Json.Any

/-!
# Change events

`event.ChangeEvent`, the unified event that sources emit and sinks consume, with its JSON form,
which is how the cache stores it.
-/

namespace DataStream.Event

open Json

/-- `EventType`; a string that is no known type is kept. -/
inductive EventType where
  | insert
  | update
  | delete
  | truncate
  | ddl
  | heartbeat
  | tombstone
  | other (name : Bytes)
  deriving DecidableEq, Repr

namespace EventType

/-- The string of a type. -/
def name : EventType → Bytes
  | .insert => lit "insert"
  | .update => lit "update"
  | .delete => lit "delete"
  | .truncate => lit "truncate"
  | .ddl => lit "ddl"
  | .heartbeat => lit "heartbeat"
  | .tombstone => lit "tombstone"
  | .other name => name

/-- The type of a string. -/
def ofName (s : Bytes) : EventType :=
  let known : List EventType := [.insert, .update, .delete, .truncate, .ddl, .heartbeat, .tombstone]
  (known.find? fun t => t.name = s).getD (.other s)

end EventType

/-- Where an event comes from. -/
structure SourceInfo where
  /-- The kind of the source. -/
  connector : Bytes
  host : Bytes
  port : Int64
  database : Bytes
  clusterName : Bytes
  serverName : Bytes
  /-- Whether the event is from a snapshot. -/
  snapshot : Bool

/-- One column of a row. -/
structure RowField where
  name : Bytes
  value : GoValue
  /-- The type of the column, as text. -/
  type : Bytes
  /-- Whether the value is null. -/
  null : Bool

/-- A row: its fields by column name; `none` is the nil map. -/
structure RowData where
  fields : Option (GoMap RowField)

/-- The transaction of an event. -/
structure TransactionInfo where
  id : Bytes
  totalEvents : Int64
  /-- The place of the event in it. -/
  eventIndex : Int64
  beginTime : Time
  commitTime : Time

/-- A column in `SchemaInfo`. -/
structure ColumnSchema where
  name : Bytes
  type : Bytes
  optional : Bool
  /-- The default value. -/
  default : GoValue

/-- The schema of a table as an event carries it. -/
structure SchemaInfo where
  version : Int64
  /-- The columns; `none` is the nil slice. -/
  columns : Option (List ColumnSchema)
  primaryKey : List Bytes

/-- A single data change. -/
structure ChangeEvent where
  /-- Made by `generateEventID`. -/
  id : Bytes
  source : SourceInfo
  type : EventType
  /-- The place in the log of the source. -/
  position : Position
  table : TableInfo
  /-- The row before the change. -/
  before : RowData
  /-- The row after the change. -/
  after : RowData
  /-- When the change was made. -/
  timestamp : Time
  transaction : Option TransactionInfo
  schema : Option SchemaInfo
  /-- More about the event, such as its statement. -/
  metadata : GoMap Bytes

/-- `GenerateEventID`. -/
def generateEventID (connector database : Bytes) (timestamp : Time) (seqNo : ℤ) : Bytes :=
  connector ++ lit ":" ++ database ++ lit ":" ++ timestamp.formatCompact ++ lit ":" ++
    Bytes.formatInt seqNo

namespace SourceInfo

/-- The zero value. -/
def zero : SourceInfo where
  connector := []
  host := []
  port := 0
  database := []
  clusterName := []
  serverName := []
  snapshot := false

/-- The JSON form of a source. -/
def toJson (s : SourceInfo) : Json :=
  .obj (member "connector" (jsonString s.connector) ++ member "host" (jsonString s.host) ++
    member "port" (jsonInt s.port.toInt) ++ member "database" (jsonString s.database) ++
    memberOmitEmpty "clusterName" (s.clusterName = []) (jsonString s.clusterName) ++
    memberOmitEmpty "serverName" (s.serverName = []) (jsonString s.serverName) ++
    member "snapshot" (.bool s.snapshot))

/-- Decode a source. -/
def decode : Decoder SourceInfo :=
  decodeStruct
    [⟨lit "connector", fun s j => (decodeString s.connector j).map ({ s with connector := · })⟩,
      ⟨lit "host", fun s j => (decodeString s.host j).map ({ s with host := · })⟩,
      ⟨lit "port", fun s j => (decodeInt64 s.port j).map ({ s with port := · })⟩,
      ⟨lit "database", fun s j => (decodeString s.database j).map ({ s with database := · })⟩,
      ⟨lit "clusterName",
        fun s j => (decodeString s.clusterName j).map ({ s with clusterName := · })⟩,
      ⟨lit "serverName", fun s j => (decodeString s.serverName j).map ({ s with serverName := · })⟩,
      ⟨lit "snapshot", fun s j => (decodeBool s.snapshot j).map ({ s with snapshot := · })⟩]

end SourceInfo

namespace RowField

/-- The zero value. -/
def zero : RowField := { name := [], value := .nil, type := [], null := false }

/-- The JSON form of a field. -/
def toJson (f : RowField) : Option Json :=
  f.value.toJson.map fun value =>
    .obj (member "name" (jsonString f.name) ++ member "value" value ++
      member "type" (jsonString f.type) ++ memberOmitEmpty "null" (!f.null) (.bool f.null))

/-- Decode a field. -/
def decode : Decoder RowField :=
  decodeStruct
    [⟨lit "name", fun f j => (decodeString f.name j).map ({ f with name := · })⟩,
      ⟨lit "value", fun f j => (GoValue.decode f.value j).map ({ f with value := · })⟩,
      ⟨lit "type", fun f j => (decodeString f.type j).map ({ f with type := · })⟩,
      ⟨lit "null", fun f j => (decodeBool f.null j).map ({ f with null := · })⟩]

end RowField

namespace RowData

/-- The zero value. -/
def zero : RowData := { fields := none }

/-- `RowData.MarshalJSON`. -/
def toJson (r : RowData) : Option Json :=
  (match r.fields with
    | none => some null
    | some fields => fields.toJson RowField.toJson).map fun fields => .obj (member "fields" fields)

/-- Decode a row. -/
def decode : Decoder RowData :=
  decodeStruct
    [⟨lit "fields", fun r j =>
      (GoMap.decode .zero RowField.decode r.fields j).map fun fields => { r with fields }⟩]

end RowData

namespace TransactionInfo

/-- The zero value. -/
def zero : TransactionInfo where
  id := []
  totalEvents := 0
  eventIndex := 0
  beginTime := .zero
  commitTime := .zero

/-- The JSON form of a transaction. -/
def toJson (t : TransactionInfo) : Option Json := do
  let beginTime ← t.beginTime.toJson
  let commitTime ← t.commitTime.toJson
  return .obj (member "id" (jsonString t.id) ++
    member "totalEvents" (jsonInt t.totalEvents.toInt) ++
    member "eventIndex" (jsonInt t.eventIndex.toInt) ++ member "beginTime" beginTime ++
    member "commitTime" commitTime)

/-- Decode a transaction. -/
def decode : Decoder TransactionInfo :=
  decodeStruct
    [⟨lit "id", fun t j => (decodeString t.id j).map ({ t with id := · })⟩,
      ⟨lit "totalEvents",
        fun t j => (decodeInt64 t.totalEvents j).map ({ t with totalEvents := · })⟩,
      ⟨lit "eventIndex", fun t j => (decodeInt64 t.eventIndex j).map ({ t with eventIndex := · })⟩,
      ⟨lit "beginTime", fun t j => (Time.decode t.beginTime j).map ({ t with beginTime := · })⟩,
      ⟨lit "commitTime", fun t j => (Time.decode t.commitTime j).map ({ t with commitTime := · })⟩]

end TransactionInfo

namespace ColumnSchema

/-- The zero value. -/
def zero : ColumnSchema := { name := [], type := [], optional := false, default := .nil }

/-- The JSON form of a schema column; the default is left out when it is nil. -/
def toJson (c : ColumnSchema) : Option Json :=
  let columns := member "name" (jsonString c.name) ++ member "type" (jsonString c.type) ++
    member "optional" (.bool c.optional)
  match c.default with
  | .nil => some (.obj columns)
  | value => value.toJson.map fun value => .obj (columns ++ member "default" value)

/-- Decode a schema column. -/
def decode : Decoder ColumnSchema :=
  decodeStruct
    [⟨lit "name", fun c j => (decodeString c.name j).map ({ c with name := · })⟩,
      ⟨lit "type", fun c j => (decodeString c.type j).map ({ c with type := · })⟩,
      ⟨lit "optional", fun c j => (decodeBool c.optional j).map ({ c with optional := · })⟩,
      ⟨lit "default", fun c j => (GoValue.decode c.default j).map ({ c with default := · })⟩]

end ColumnSchema

namespace SchemaInfo

/-- The zero value. -/
def zero : SchemaInfo := { version := 0, columns := none, primaryKey := [] }

/-- The JSON form of a schema. -/
def toJson (s : SchemaInfo) : Option Json :=
  (match s.columns with
    | none => some null
    | some columns => (columns.mapM ColumnSchema.toJson).map arr).map fun columns =>
      .obj (member "version" (jsonInt s.version.toInt) ++ member "columns" columns ++
        memberOmitEmpty "primaryKey" (s.primaryKey = []) (TableInfo.jsonStrings s.primaryKey))

/-- Decode a schema. -/
def decode : Decoder SchemaInfo :=
  decodeStruct
    [⟨lit "version", fun s j => (decodeInt64 s.version j).map ({ s with version := · })⟩,
      ⟨lit "columns", fun s j =>
        match j with
        | .null => some { s with columns := none }
        | j => (decodeList .zero ColumnSchema.decode [] j).map fun columns =>
          { s with columns := some columns }⟩,
      ⟨lit "primaryKey", fun s j =>
        (decodeList [] decodeString s.primaryKey j).map ({ s with primaryKey := · })⟩]

end SchemaInfo

namespace ChangeEvent

/-- The zero value. -/
def zero : ChangeEvent where
  id := []
  source := .zero
  type := .other []
  position := .zero
  table := .zero
  before := .zero
  after := .zero
  timestamp := .zero
  transaction := none
  schema := none
  metadata := []

/-- `IsDDL`. -/
def isDDL (e : ChangeEvent) : Bool := e.type = .ddl

/-- A pointer field tagged `omitempty`. -/
def memberPointer {α : Type} (name : String) (encode : α → Option Json) :
    Option α → Option (List (Bytes × Json))
  | none => some []
  | some x => (encode x).map (member name)

/-- The JSON form of an event; `none` is an encoding error. -/
def toJson (e : ChangeEvent) : Option Json := do
  let position ← e.position.toJson
  let before ← e.before.toJson
  let after ← e.after.toJson
  let timestamp ← e.timestamp.toJson
  let transaction ← memberPointer "transaction" TransactionInfo.toJson e.transaction
  let schema ← memberPointer "schema" SchemaInfo.toJson e.schema
  let metadata ← e.metadata.toJson fun value => some (jsonString value)
  return .obj (member "id" (jsonString e.id) ++ member "source" e.source.toJson ++
    member "type" (jsonString e.type.name) ++ member "position" position ++
    member "table" e.table.toJson ++ member "before" before ++ member "after" after ++
    member "timestamp" timestamp ++ transaction ++ schema ++
    memberOmitEmpty "metadata" (e.metadata = []) metadata)

/-- Decode a pointer field: `null` clears it, an object is decoded into what it points to. -/
def decodePointer {α : Type} (zero : α) (decode : Decoder α) : Decoder (Option α)
  | _, .null => some none
  | prev, j => (decode (prev.getD zero) j).map some

/-- How the members of the JSON form update an event. -/
def fields : List (Json.Field ChangeEvent) :=
  [⟨lit "id", fun e j => (decodeString e.id j).map ({ e with id := · })⟩,
    ⟨lit "source", fun e j => (SourceInfo.decode e.source j).map ({ e with source := · })⟩,
    ⟨lit "type", fun e j => (decodeString e.type.name j).map fun s => { e with type := .ofName s }⟩,
    ⟨lit "position", fun e j => (Position.decode e.position j).map ({ e with position := · })⟩,
    ⟨lit "table", fun e j => (TableInfo.decode e.table j).map ({ e with table := · })⟩,
    ⟨lit "before", fun e j => (RowData.decode e.before j).map ({ e with before := · })⟩,
    ⟨lit "after", fun e j => (RowData.decode e.after j).map ({ e with after := · })⟩,
    ⟨lit "timestamp", fun e j => (Time.decode e.timestamp j).map ({ e with timestamp := · })⟩,
    ⟨lit "transaction", fun e j =>
      (decodePointer .zero TransactionInfo.decode e.transaction j).map
        ({ e with transaction := · })⟩,
    ⟨lit "schema", fun e j =>
      (decodePointer .zero SchemaInfo.decode e.schema j).map ({ e with schema := · })⟩,
    ⟨lit "metadata", fun e j =>
      (GoMap.decode [] decodeString (some e.metadata) j).map fun m =>
        { e with metadata := m.getD [] }⟩]

/-- `json.Marshal` of an event; `none` is an encoding error. -/
def marshal (e : ChangeEvent) : Option Bytes := e.toJson.map Json.marshal

def unmarshal (data : Bytes) : Option ChangeEvent := Json.unmarshal zero (decodeStruct fields) data

end ChangeEvent

end DataStream.Event
