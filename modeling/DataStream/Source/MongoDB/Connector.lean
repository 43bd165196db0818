import DataStream.Event.ChangeEvent
import DataStream.Foundations.Delivery

/-!
# The MongoDB connector

The loop of `internal/source/mongodb/connector.go`: a document of the change stream is decoded and
converted, the connector's position becomes the document's, the position is saved in the store, and
then the event is sent. A document that cannot be decoded is reported and left out; a send that
takes five seconds is given up, and the loop goes on.

`GetPosition` and the saves of `Stop` expose the connector's position at any time.
-/

namespace DataStream.Source.MongoDB

open Event

/-- The Go type that a BSON value is decoded to, as `getFieldType` tells them apart. -/
inductive BsonKind where
  | null
  | string
  | int
  | double
  | bool
  | binary
  | objectID
  | date
  | object
  deriving DecidableEq, Repr

def getFieldType : BsonKind → Bytes
  | .null => lit "null"
  | .string => lit "string"
  | .int => lit "int"
  | .double => lit "double"
  | .bool => lit "bool"
  | .binary => lit "binary"
  | .objectID => lit "objectId"
  | .date => lit "date"
  | .object => lit "object"

structure BsonField where
  name : Bytes
  value : GoValue
  kind : BsonKind

/-- What `bson.Unmarshal` makes of an embedded document. -/
inductive Embedded (α : Type) where
  | absent
  | undecodable
  | decoded (content : α)

/-- The parts of a `ChangeEventDocument` that the conversion reads. -/
structure ChangeEventDocument where
  operationType : Bytes
  database : Bytes
  collection : Bytes
  fullDocument : Embedded (List BsonField)
  fullDocumentBefore : Embedded (List BsonField)
  /-- The document key, decoded to the text of its `_id`. -/
  documentKey : Embedded Bytes
  /-- The seconds and the ordinal of the cluster time. -/
  clusterTime : UInt32 × UInt32

/-- An element of the change stream, with its resume token. -/
structure Element where
  resumeToken : Bytes
  /-- What `Decode` gives; `none` is an error. -/
  document : Option ChangeEventDocument

/-- `convertBSONToFields`, for a document that is present; a document that cannot be decoded has no
fields. -/
def convertBSONToFields : Embedded (List BsonField) → Option (GoMap RowField)
  | .absent | .undecodable => none
  | .decoded fields => some <| fields.foldl (fun m f =>
    m.insert f.name
      { name := f.name
        value := f.value
        type := getFieldType f.kind
        null := f.kind = .null }) []

/-- The event type of an operation; one that is not known counts as an insert. -/
def eventType (operationType : Bytes) : EventType :=
  if operationType = lit "insert" then .insert
  else if operationType = lit "update" ∨ operationType = lit "replace" then .update
  else if operationType = lit "delete" then .delete
  else if operationType = lit "drop" ∨ operationType = lit "dropDatabase" ∨
      operationType = lit "create" ∨ operationType = lit "createIndexes" then .ddl
  else .insert

/-- `convertChangeEvent`; `zone` is the offset of the local time zone at an instant. -/
def convertChangeEvent (zone : ℤ → ℤ) (doc : ChangeEventDocument) : ChangeEvent :=
  let seconds := doc.clusterTime.1.toNat
  let ordinal := doc.clusterTime.2.toNat
  let time : Time := { unixSec := seconds, nsec := 0, offset := zone seconds }
  { ChangeEvent.zero with
    id := lit "mongodb:" ++ doc.database ++ lit ":" ++ Bytes.formatInt seconds ++ lit ":" ++
      Bytes.formatInt ordinal
    source := { SourceInfo.zero with connector := lit "mongodb", database := doc.database }
    type := eventType doc.operationType
    position := { Position.zero with
      timestamp := UInt64.ofNat seconds, order := Int64.ofNat ordinal, commitTime := time }
    table := { TableInfo.zero with
      database := doc.database
      table := doc.collection
      columns := [{ ColumnInfo.zero with name := lit "_id", type := lit "ObjectId" }]
      primaryKeyColumns := [lit "_id"] }
    before := { fields := convertBSONToFields doc.fullDocumentBefore }
    after := { fields := convertBSONToFields doc.fullDocument }
    timestamp := time
    metadata :=
      match doc.documentKey with
      | .decoded id => GoMap.insert [] (lit "_id") id
      | .absent | .undecodable => [] }

structure Config where
  hasStore : Bool
  /-- The offset of the local time zone at an instant. -/
  zone : ℤ → ℤ

namespace Config

variable (cfg : Config)

/-- The event of a document, with the resume token in its position. -/
def streamEvent (token : Bytes) (doc : ChangeEventDocument) : ChangeEvent :=
  let ev := convertChangeEvent cfg.zone doc
  { ev with position := { ev.position with resumeToken := token } }

/-- One iteration of `run` on an element of the stream, which is itself the change. -/
def handleElement (_ : Unit) (e : Element) :
    Unit × List (Delivery.Action Position Bytes ChangeEvent) :=
  match e.document with
  | none => ((), [.skip e.resumeToken])
  | some doc =>
    let ev := cfg.streamEvent e.resumeToken doc
    -- The position is exposed before the event is sent.
    ((), [.setMark fun _ => ev.position] ++ (if cfg.hasStore then [.save ev.position] else []) ++
      [.send e.resumeToken ev])

end Config

/-- The change of an element, by its resume token. -/
def changes (e : Element) : List Bytes := [e.resumeToken]

end DataStream.Source.MongoDB
