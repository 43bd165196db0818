import DataStream.Foundations.Json.Codec

/-!
# Table definitions

`event.TableInfo` and `event.ColumnInfo` with their JSON form, in which schema histories are
stored.

* `TableInfo.unmarshal_marshal`: a stored definition is read back, with repaired names.
-/

namespace DataStream.Event

open Json

structure ColumnInfo where
  name : Bytes
  /-- The native type of the database. -/
  type : Bytes
  nullable : Bool
  length : Int64
  scale : Int64
  deriving DecidableEq, Repr

namespace ColumnInfo

def zero : ColumnInfo := { name := [], type := [], nullable := false, length := 0, scale := 0 }

def toJson (c : ColumnInfo) : Json :=
  .obj (member "name" (jsonString c.name) ++
    (member "type" (jsonString c.type) ++
    (member "nullable" (.bool c.nullable) ++
    (memberOmitEmpty "length" (c.length = 0) (jsonInt c.length.toInt) ++
    (memberOmitEmpty "scale" (c.scale = 0) (jsonInt c.scale.toInt) ++ [])))))

/-- How the members of the JSON form update a column. -/
def fields : List (Json.Field ColumnInfo) :=
  [⟨lit "name", fun c j => (decodeString c.name j).map ({ c with name := · })⟩,
    ⟨lit "type", fun c j => (decodeString c.type j).map ({ c with type := · })⟩,
    ⟨lit "nullable", fun c j => (decodeBool c.nullable j).map ({ c with nullable := · })⟩,
    ⟨lit "length", fun c j => (decodeInt64 c.length j).map ({ c with length := · })⟩,
    ⟨lit "scale", fun c j => (decodeInt64 c.scale j).map ({ c with scale := · })⟩]

/-- Decode a column. -/
def decode : Json.Decoder ColumnInfo := decodeStruct fields

/-- What a column is read back as. -/
def repaired (c : ColumnInfo) : ColumnInfo :=
  { c with name := Utf8.toValid c.name, type := Utf8.toValid c.type }

variable (c : ColumnInfo)

lemma ok_toJson : c.toJson.Ok := by
  simp (disch := first | decide | simp) only [toJson, Json.Ok, okMembers_append,
    okMembers_memberOmitEmpty, okMembers_member, OkMembers, and_self]

lemma nesting_toJson : c.toJson.nesting = 1 := by
  rw [toJson, nesting]
  simp [nestingMembers_append, nestingMembers_memberOmitEmpty]

lemma decode_toJson : decode zero c.toJson = some c.repaired := by
  simp only [decode, decodeStruct, toJson]
  rw [decodeMembers_set (by decide) rfl fun y => decodeString_jsonString y _,
    decodeMembers_set (by decide) rfl fun y => decodeString_jsonString y _,
    decodeMembers_set (by decide) rfl fun y => decodeBool_bool y _,
    decodeMembers_setOmitEmpty (by decide) rfl fun y => decodeInt64_jsonInt y _,
    decodeMembers_setOmitEmpty (by decide) rfl fun y => decodeInt64_jsonInt y _]
  · rfl
  all_goals
    intro h
    simp at h
    simp [zero, h]

end ColumnInfo

/-- A table definition. -/
structure TableInfo where
  database : Bytes
  /-- The schema of a PostgreSQL or Oracle table. -/
  schema : Bytes
  table : Bytes
  primaryKeyColumns : List Bytes
  uniqueKeyColumns : List Bytes
  columns : List ColumnInfo
  deriving DecidableEq, Repr

namespace TableInfo

def zero : TableInfo where
  database := []
  schema := []
  table := []
  primaryKeyColumns := []
  uniqueKeyColumns := []
  columns := []

/-- A slice of strings. -/
def jsonStrings (names : List Bytes) : Json := .arr (names.map jsonString)

def toJson (t : TableInfo) : Json :=
  .obj (member "database" (jsonString t.database) ++
    (memberOmitEmpty "schema" (t.schema = []) (jsonString t.schema) ++
    (member "table" (jsonString t.table) ++
    (memberOmitEmpty "primaryKeyColumns" (t.primaryKeyColumns = [])
      (jsonStrings t.primaryKeyColumns) ++
    (memberOmitEmpty "uniqueKeyColumns" (t.uniqueKeyColumns = [])
      (jsonStrings t.uniqueKeyColumns) ++
    (memberOmitEmpty "columns" (t.columns = []) (.arr (t.columns.map ColumnInfo.toJson)) ++ []))))))

/-- How the members of the JSON form update a table definition. -/
def fields : List (Json.Field TableInfo) :=
  [⟨lit "database", fun t j => (decodeString t.database j).map ({ t with database := · })⟩,
    ⟨lit "schema", fun t j => (decodeString t.schema j).map ({ t with schema := · })⟩,
    ⟨lit "table", fun t j => (decodeString t.table j).map ({ t with table := · })⟩,
    ⟨lit "primaryKeyColumns", fun t j =>
      (decodeList [] decodeString t.primaryKeyColumns j).map ({ t with primaryKeyColumns := · })⟩,
    ⟨lit "uniqueKeyColumns", fun t j =>
      (decodeList [] decodeString t.uniqueKeyColumns j).map ({ t with uniqueKeyColumns := · })⟩,
    ⟨lit "columns", fun t j =>
      (decodeList .zero ColumnInfo.decode t.columns j).map ({ t with columns := · })⟩]

def decode : Json.Decoder TableInfo := decodeStruct fields

/-- `json.Marshal` of a table definition, which cannot fail. -/
def marshal (t : TableInfo) : Bytes := Json.marshal t.toJson

/-- `json.Unmarshal` into a fresh table definition. -/
def unmarshal (data : Bytes) : Option TableInfo := Json.unmarshal zero decode data

/-- What a table definition is read back as. -/
def repaired (t : TableInfo) : TableInfo where
  database := Utf8.toValid t.database
  schema := Utf8.toValid t.schema
  table := Utf8.toValid t.table
  primaryKeyColumns := t.primaryKeyColumns.map Utf8.toValid
  uniqueKeyColumns := t.uniqueKeyColumns.map Utf8.toValid
  columns := t.columns.map ColumnInfo.repaired

/-! ## Reading back a stored definition -/

variable (t : TableInfo)

lemma ok_toJson : t.toJson.Ok := by
  have hstrings : ∀ names : List Bytes, (jsonStrings names).Ok := fun names =>
    okItems_map fun name _ => ok_jsonString name
  have hcolumns : (Json.arr (t.columns.map ColumnInfo.toJson)).Ok :=
    okItems_map fun c _ => c.ok_toJson
  simp (disch := first | decide | simp [hstrings, hcolumns]) only [toJson, Json.Ok,
    okMembers_append, okMembers_memberOmitEmpty, okMembers_member, OkMembers, and_self]

lemma nesting_toJson_le : t.toJson.nesting ≤ 3 := by
  have hstrings : ∀ names : List Bytes, (jsonStrings names).nesting ≤ 2 := fun names =>
    Nat.succ_le_succ (nestingItems_map_le fun name _ => Nat.zero_le 1)
  have hcolumns : (Json.arr (t.columns.map ColumnInfo.toJson)).nesting ≤ 2 :=
    Nat.succ_le_succ (nestingItems_map_le fun c _ => le_of_eq c.nesting_toJson)
  rw [toJson, nesting]
  simp only [nestingMembers_append, nestingMembers_member, nesting_jsonString, nestingMembers]
  refine Nat.succ_le_succ ?_
  simp only [max_le_iff]
  exact ⟨Nat.zero_le _, (nestingMembers_memberOmitEmpty_le _ _ _).trans (Nat.zero_le _),
    Nat.zero_le _, (nestingMembers_memberOmitEmpty_le _ _ _).trans (hstrings _),
    (nestingMembers_memberOmitEmpty_le _ _ _).trans (hstrings _),
    (nestingMembers_memberOmitEmpty_le _ _ _).trans hcolumns, Nat.zero_le _⟩

lemma decode_toJson : decode zero t.toJson = some t.repaired := by
  have hstrings : ∀ (names prev : List Bytes), decodeList [] decodeString prev
      (jsonStrings names) = some (names.map Utf8.toValid) := fun names prev =>
    decodeList_map prev names fun name => decodeString_jsonString [] name
  have hcolumns : ∀ prev : List ColumnInfo, decodeList .zero ColumnInfo.decode prev
      (.arr (t.columns.map ColumnInfo.toJson)) = some (t.columns.map ColumnInfo.repaired) :=
    fun prev => decodeList_map prev t.columns ColumnInfo.decode_toJson
  simp only [decode, decodeStruct, toJson]
  rw [decodeMembers_set (by decide) rfl fun y => decodeString_jsonString y _,
    decodeMembers_setOmitEmpty (by decide) rfl fun y => decodeString_jsonString y _,
    decodeMembers_set (by decide) rfl fun y => decodeString_jsonString y _,
    decodeMembers_setOmitEmpty (by decide) rfl fun y => hstrings _ y,
    decodeMembers_setOmitEmpty (by decide) rfl fun y => hstrings _ y,
    decodeMembers_setOmitEmpty (by decide) rfl fun y => hcolumns y]
  · rfl
  all_goals
    intro h
    simp at h
    simp [zero, h]

/-- A stored definition is read back, with the invalid UTF-8 of its names repaired. -/
theorem unmarshal_marshal : unmarshal t.marshal = some t.repaired := by
  rw [unmarshal, marshal, Json.unmarshal_marshal (ok_toJson t), decode_toJson]
  exact (nesting_toJson_le t).trans (by decide)

end TableInfo

end DataStream.Event
