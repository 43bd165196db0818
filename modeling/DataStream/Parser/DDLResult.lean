import DataStream.Event.TableInfo

/-!
# Results of parsing DDL

The types of `pkg/parser` that the syncers and the MySQL parser share: the kind of a statement, what
it changes, and the two operations of a parser.
-/

namespace DataStream.DDL

open Event

inductive DDLType where
  | createDatabase
  | dropDatabase
  | alterDatabase
  | createTable
  | dropTable
  | alterTable
  | renameTable
  | truncate
  | createIndex
  | dropIndex
  | createView
  | dropView
  | unknown
  deriving DecidableEq, Repr

def DDLType.name : DDLType → Bytes
  | .createDatabase => lit "create_database"
  | .dropDatabase => lit "drop_database"
  | .alterDatabase => lit "alter_database"
  | .createTable => lit "create_table"
  | .dropTable => lit "drop_table"
  | .alterTable => lit "alter_table"
  | .renameTable => lit "rename_table"
  | .truncate => lit "truncate_table"
  | .createIndex => lit "create_index"
  | .dropIndex => lit "drop_index"
  | .createView => lit "create_view"
  | .dropView => lit "drop_view"
  | .unknown => lit "unknown"

/-- `parser.ColumnInfo`, with the type as it is written. -/
structure Column where
  name : Bytes
  type : Bytes
  nullable : Bool
  /-- The text of the default, `none` if there is none. -/
  defaultValue : Option Bytes
  autoIncrement : Bool
  deriving DecidableEq

/-- A column of a name, before its definition is read. -/
def Column.named (name : Bytes) (nullable : Bool) : Column where
  name := name
  type := []
  nullable := nullable
  defaultValue := none
  autoIncrement := false

/-- `parser.TableInfo`. -/
structure Table where
  database : Bytes
  name : Bytes
  columns : List Column
  primaryKey : List Bytes
  deriving DecidableEq

/-- What a statement does to the table as a whole. -/
inductive TableOperation where
  | create
  | alter
  deriving DecidableEq, Repr

structure TableChanges where
  operation : TableOperation
  table : Option Table
  addedColumns : List Column
  droppedColumns : List Bytes
  /-- The old name of a column and its new definition. -/
  modifiedColumns : List (Bytes × Column)
  /-- The new key columns, if the key changes. -/
  primaryKeyChange : Option (List Bytes)
  deriving DecidableEq

inductive IndexOperation where
  | create
  | drop
  deriving DecidableEq, Repr

structure IndexChanges where
  indexName : Bytes
  tableName : Bytes
  databaseName : Bytes
  operation : IndexOperation
  deriving DecidableEq

structure DDLResult where
  type : DDLType
  database : Bytes
  table : Bytes
  statement : Bytes
  tableChanges : Option TableChanges
  indexChanges : Option IndexChanges
  /-- The definition of the table after the statement, set by `ApplyDDL`. -/
  newTableInfo : Option TableInfo
  deriving DecidableEq

/-- A result of a type that names nothing yet. -/
def DDLResult.ofType (type : DDLType) (statement : Bytes) : DDLResult where
  type := type
  database := []
  table := []
  statement := statement
  tableChanges := none
  indexChanges := none
  newTableInfo := none

/-- `parser.DDLParser`; an error is `none`. -/
structure DDLParser where
  parse : Bytes → Option (List DDLResult)
  applyDDL : Option TableInfo → Bytes → Option DDLResult

end DataStream.DDL
