import DataStream.Foundations.Bson
import DataStream.Foundations.Hex
import DataStream.Foundations.Lockstep
import DataStream.Source.MongoDB.Connector

/-!
# Changes of a MongoDB collection

The MongoDB source turns the documents of a change stream into events. Here the fields of an event
carry the BSON values that the driver has decoded; the id of the changed document goes into the
metadata as the text that `fmt` prints for it.

A change stream tells about a collection: inserts and replacements carry the document, updates carry
it if they are configured to, deletes carry the id.

* `convertChangeEvent_decoded`: the events of the connector are these, with dynamic values;
* `documentFields_eq`: the fields of an event are those of the document.
-/

namespace DataStream.Source.MongoDB

open Bytes Bson Event List Option

/-! ## Events with BSON values -/

/-- `ChangeEventDocument` with the documents that the conversion decodes. -/
structure StreamDocument where
  operationType : Bytes
  database : Bytes
  collection : Bytes
  fullDocument : Option Document
  fullDocumentBefore : Option Document
  documentKey : Option Document

/-- `event.Field` with a value that the driver has decoded. -/
structure Field where
  name : Bytes
  value : Bson
  type : Bytes
  null : Bool

/-- `event.ChangeEvent` of the MongoDB source, as far as the sink reads it: its type, its table, its
images (`none` is a nil map) and its metadata. -/
structure StreamEvent where
  type : EventType
  table : Bytes
  primaryKeyColumns : List Bytes
  before : Option (GoMap Field)
  after : Option (GoMap Field)
  metadata : GoMap Bytes

/-- What `fmt` prints for the values other than strings, object ids and null. Nothing is assumed
about it. -/
abbrev Printer := Bson → Bytes

/-- `fmt.Sprintf("%v", id)` for a decoded id; `none` is a missing one. -/
def printID (printer : Printer) : Option Bson → Bytes
  | some (.scalar (.string s)) => s
  | some (.scalar (.objectID id)) => lit "ObjectID(\"" ++ Hex.encodeToString id.bytes ++ lit "\")"
  | none | some (.scalar .null) => lit "<nil>"
  | some v => printer v

/-- The Go type that a value is decoded to. -/
def kindOf : Bson → BsonKind
  | .scalar .null => .null
  | .scalar (.string _) => .string
  | .scalar (.int32 _) | .scalar (.int64 _) => .int
  | .scalar (.double _) => .double
  | .scalar (.bool _) => .bool
  | .scalar (.binary _ _) => .binary
  | .scalar (.objectID _) => .objectID
  | .scalar (.dateTime _) => .date
  | _ => .object

def fieldOf (name : Bytes) (v : Bson) : Field where
  name := name
  value := v
  type := getFieldType (kindOf v)
  null := kindOf v = .null

/-- `convertBSONToFields` of a document. -/
def documentFields (doc : Document) : GoMap Field :=
  GoMap.insertAll [] (doc.map fun entry => (entry.1, fieldOf entry.1 entry.2))

/-- `convertChangeEvent`. -/
def convertDocument (printer : Printer) (doc : StreamDocument) : StreamEvent where
  type := eventType doc.operationType
  table := doc.collection
  primaryKeyColumns := [lit "_id"]
  before := doc.fullDocumentBefore.map documentFields
  after := doc.fullDocument.map documentFields
  metadata :=
    match doc.documentKey with
    | some key => GoMap.insert [] (lit "_id") (printID printer (key.get? idField))
    | none => []

theorem documentFields_eq {doc : Document} (h : doc.Ordered) :
    documentFields doc = doc.map fun entry => (entry.1, fieldOf entry.1 entry.2) := by
  have hmap := GoMap.insertAll_map fieldOf [] doc
  rw [h.insertAll_nil] at hmap
  exact hmap

/-! ## The events of the connector -/

section Decoded

variable (dynamic : Bson → GoValue)

/-- A field with the dynamic value that stands for its BSON value. -/
def Field.row (field : Field) : RowField where
  name := field.name
  value := dynamic field.value
  type := field.type
  null := field.null

/-- An embedded document that was decoded. -/
def embedded : Option Document → Embedded (List BsonField)
  | none => .absent
  | some doc => .decoded (doc.map fun entry => ⟨entry.1, dynamic entry.2, kindOf entry.2⟩)

variable (zone : ℤ → ℤ) (printer : Printer) (clusterTime : UInt32 × UInt32) (doc : StreamDocument)

/-- A change document as the connector gets it. -/
def StreamDocument.decoded : ChangeEventDocument where
  operationType := doc.operationType
  database := doc.database
  collection := doc.collection
  fullDocument := embedded dynamic doc.fullDocument
  fullDocumentBefore := embedded dynamic doc.fullDocumentBefore
  documentKey :=
    match doc.documentKey with
    | some key => .decoded (printID printer (key.get? idField))
    | none => .absent
  clusterTime := clusterTime

lemma convertBSONToFields_embedded (doc : Option Document) :
    convertBSONToFields (embedded dynamic doc) =
      (doc.map documentFields).map fun m => m.map fun entry => (entry.1, entry.2.row dynamic) := by
  rcases doc with _ | doc
  · rfl
  · simp only [embedded, convertBSONToFields, map_some, some.injEq]
    rw [documentFields, foldl_map]
    have hmap := GoMap.insertAll_map (fun _ field => Field.row dynamic field) []
      (doc.map fun entry => (entry.1, fieldOf entry.1 entry.2))
    rw [← hmap, GoMap.insertAll, List.map_map, foldl_map]
    rfl

/-- The events of the connector are those with BSON values, with dynamic values for them. -/
theorem convertChangeEvent_decoded :
    let e := convertChangeEvent zone (doc.decoded dynamic printer clusterTime)
    let e' := convertDocument printer doc
    e.type = e'.type ∧ e.table.table = e'.table ∧
      e.table.primaryKeyColumns = e'.primaryKeyColumns ∧ e.metadata = e'.metadata ∧
      e.before.fields = e'.before.map (fun m => m.map fun entry => (entry.1, entry.2.row dynamic)) ∧
      e.after.fields = e'.after.map fun m => m.map fun entry => (entry.1, entry.2.row dynamic) := by
  refine ⟨rfl, rfl, rfl, ?_, convertBSONToFields_embedded dynamic _,
    convertBSONToFields_embedded dynamic _⟩
  simp only [convertChangeEvent, convertDocument, StreamDocument.decoded]
  rcases doc.documentKey with _ | key <;> rfl

end Decoded

/-! ## Histories of a collection -/

/-- A change of one document of a collection. -/
inductive CollectionChange where
  | insert (id : Bson) (doc : Document)
  /-- An update that leaves the document `doc`; `carried` says whether the change tells it. -/
  | update (id : Bson) (doc : Document) (carried : Bool)
  | replace (id : Bson) (doc : Document)
  | delete (id : Bson)

namespace CollectionChange

def apply (c : Collection) : CollectionChange → Collection
  | .insert id doc | .update id doc _ | .replace id doc => Function.update c id (some doc)
  | .delete id => Function.update c id none

def IsDocument (id : Bson) (doc : Document) : Prop := doc.Ordered ∧ doc.get? idField = some id

/-- A change that a collection can make. An update or replacement that changes nothing is no
change. -/
def Valid (c : Collection) : CollectionChange → Prop
  | .insert id doc => c id = none ∧ IsDocument id doc
  | .update id doc _ | .replace id doc => IsDocument id doc ∧ ∃ old, c id = some old ∧ old ≠ doc
  | .delete id => c id ≠ none

/-- The change document that tells about a change, with the document before it if that is
configured. -/
def document (database collection : Bytes) (before : Option Document) :
    CollectionChange → StreamDocument
  | .insert id doc => ⟨lit "insert", database, collection, some doc, before, some [(idField, id)]⟩
  | .update id doc carried =>
    ⟨lit "update", database, collection, if carried then some doc else none, before,
      some [(idField, id)]⟩
  | .replace id doc => ⟨lit "replace", database, collection, some doc, before, some [(idField, id)]⟩
  | .delete id => ⟨lit "delete", database, collection, none, before, some [(idField, id)]⟩

end CollectionChange

/-- The documents of a collection are kept under their ids. -/
def WellFormed (c : Collection) : Prop :=
  ∀ id doc, c id = some doc → CollectionChange.IsDocument id doc

lemma WellFormed.apply {c : Collection} (h : WellFormed c) {change : CollectionChange}
    (hvalid : change.Valid c) : WellFormed (change.apply c) := by
  -- Every change sets the entry of one id, to a document of that id or to nothing.
  have hput : ∀ id (d : Option Document), (∀ doc ∈ d, CollectionChange.IsDocument id doc) →
      WellFormed (Function.update c id d) := by
    intro id d hd id' doc hdoc
    by_cases hid : id' = id
    · subst hid
      rw [Function.update_self] at hdoc
      exact hd doc hdoc
    · rw [Function.update_of_ne hid] at hdoc
      exact h id' doc hdoc
  rcases change with ⟨id, doc⟩ | ⟨id, doc, carried⟩ | ⟨id, doc⟩ | id
  · exact hput id _ fun d hd => mem_some.mp hd ▸ hvalid.2
  · exact hput id _ fun d hd => mem_some.mp hd ▸ hvalid.1
  · exact hput id _ fun d hd => mem_some.mp hd ▸ hvalid.1
  · exact hput id none fun d hd => absurd hd (not_mem_none d)

end DataStream.Source.MongoDB
