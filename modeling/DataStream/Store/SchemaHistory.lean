import DataStream.Event.Position
import DataStream.Schema.Tables

/-!
# The schema history of the target store

`SaveSchemaHistory`, `LoadSchemaHistory` and the two replays of the history into table definitions.
A row keeps the table definition as JSON text; a missing definition is stored as `null`, and
`unmarshalTableInfo` reads `null` as the zero definition.

* `recoverFromStore_saveSchemaHistory`: a stored row replays as storing its definition, or the zero
  definition.
-/

namespace DataStream.Store

open Event Schema List Option

structure SchemaHistoryRow where
  position : Position
  dbName : Bytes
  tableName : Bytes
  ddl : Bytes
  tableInfo : Option TableInfo
  changeType : Bytes
  deriving DecidableEq

/-- A row of the `schema_history` table, in the order of its identifiers. -/
structure StoredRow where
  position : Bytes
  dbName : Bytes
  tableName : Bytes
  ddl : Bytes
  tableInfo : Bytes
  changeType : Bytes
  deriving DecidableEq

def marshalTableInfo : Option TableInfo → Bytes
  | none => lit "null"
  | some t => t.marshal

/-- `unmarshalTableInfo`, with its error dropped as `LoadSchemaHistory` does. -/
def unmarshalTableInfo (data : Bytes) : Option TableInfo :=
  if data = [] then none else TableInfo.unmarshal data

/-- `unmarshalPosition`, with its error dropped as `LoadSchemaHistory` does. -/
def unmarshalPosition (data : Bytes) : Option Position :=
  if data = [] then none else Position.unmarshal data

variable (rows : List StoredRow) (tables : Tables)

variable (rec : SchemaHistoryRow)

/-- `SaveSchemaHistory` on a database that accepts the row. A position that JSON cannot express is
an error. -/
def saveSchemaHistory : List StoredRow :=
  rec.position.marshal.elim rows fun position => rows ++
    [{ position := position
       dbName := rec.dbName
       tableName := rec.tableName
       ddl := rec.ddl
       tableInfo := marshalTableInfo rec.tableInfo
       changeType := rec.changeType }]

def loadSchemaHistory : List SchemaHistoryRow :=
  rows.map fun r =>
    { position := (unmarshalPosition r.position).getD .zero
      dbName := r.dbName
      tableName := r.tableName
      ddl := r.ddl
      tableInfo := unmarshalTableInfo r.tableInfo
      changeType := r.changeType }

/-- What one row of the history does to the table definitions. -/
def replayRow : Tables :=
  match rec.tableInfo with
  | some info => tables.put info
  -- The consumer and the MariaDB syncer write `DROP`, the MySQL syncer writes `drop_table`.
  | none => if rec.changeType = lit "DROP" then tables.remove rec.dbName rec.tableName else tables

lemma replayRow_of_tableInfo_eq_some {rec : SchemaHistoryRow} {info : TableInfo}
    (h : rec.tableInfo = some info) (tables : Tables) : replayRow tables rec = tables.put info := by
  rw [replayRow, h]

/-- The replay in `recoverFromStore`. -/
def recoverFromStore : Tables := (loadSchemaHistory rows).foldl replayRow tables

/-- The loop of `Recover`: it ends at the first row whose commit time is after that of a non-zero
offset. -/
def recoverRows (offset : Option Position) (tables : Tables) : List SchemaHistoryRow → Tables
  | [] => tables
  | row :: rows =>
    if offset.any fun o => !o.isZero && o.commitTime.before row.position.commitTime then tables
    else recoverRows offset (replayRow tables row) rows

def recover (offset : Option Position) : Tables :=
  recoverRows offset tables (loadSchemaHistory rows)

lemma recover_none : recover rows tables none = recoverFromStore rows tables := by
  rw [recover, recoverFromStore]
  induction loadSchemaHistory rows generalizing tables with
  | nil => rfl
  | cons row rows ih => exact ih (replayRow tables row)

/-! ## A definition stored and loaded -/

/-- What a definition is loaded as: a missing one as the zero definition. -/
def loadedTableInfo (info : Option TableInfo) : TableInfo := info.elim .zero TableInfo.repaired

lemma unmarshalTableInfo_marshalTableInfo (info : Option TableInfo) :
    unmarshalTableInfo (marshalTableInfo info) = some (loadedTableInfo info) := by
  cases info with
  | none => decide
  | some t =>
    have hnil : TableInfo.unmarshal [] = none := by decide
    have hmarshal : t.marshal ≠ [] := by
      intro h
      have hread := t.unmarshal_marshal
      rw [h, hnil] at hread
      cases hread
    rw [marshalTableInfo, unmarshalTableInfo, if_neg hmarshal, t.unmarshal_marshal]
    rfl

/-- A stored row replays as storing its definition; the change type is never looked at. -/
theorem recoverFromStore_saveSchemaHistory (hposition : rec.position.marshal.isSome)
    (rows : List StoredRow) (tables : Tables) :
    recoverFromStore (saveSchemaHistory rows rec) tables =
      (recoverFromStore rows tables).put (loadedTableInfo rec.tableInfo) := by
  obtain ⟨data, hdata⟩ := isSome_iff_exists.mp hposition
  simp only [saveSchemaHistory, hdata, elim_some, recoverFromStore, loadSchemaHistory,
    map_append, map_singleton, foldl_append, foldl_cons, foldl_nil]
  apply replayRow_of_tableInfo_eq_some
  exact unmarshalTableInfo_marshalTableInfo rec.tableInfo

end DataStream.Store
