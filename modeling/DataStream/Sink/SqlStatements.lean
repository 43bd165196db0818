import DataStream.Event.Row
import DataStream.Foundations.Text

/-!
# The statements of the SQL sinks

The connectors of `sink/mysql`, `sink/postgres`, `sink/oracle` and `sink/sqlserver` turn a change
event into the text of one statement and the arguments of its placeholders. They differ in how a
name is quoted, in how a placeholder is written and in what an insert does with a row whose key
exists; `executeUpdate` and `executeDelete` are the same but for names and placeholders.

The columns of a statement are listed in the iteration order of a Go map, which is a parameter.

## Main definitions

* `Mysql`, `Postgres`, `Oracle`, `Sqlserver`: the statement builders of each connector;
* `SqlSink.writeDataEvent` and `SqlSink.handleDDL`: what a sink does with an event.
-/

namespace DataStream.Sink

open Event Bytes Text

/-- A statement that is handed to `ExecContext`. -/
structure Query where
  text : Bytes
  args : List GoValue
  /-- What the connector puts before the error when the statement fails. -/
  failure : Bytes
  deriving DecidableEq

/-- What a connector does with an event before it talks to the database. -/
inductive Request where
  | nothing
  | reject (err : Bytes)
  | exec (query : Query)
  /-- Call itself until the stack overflows, which ends the process. -/
  | overflow
  deriving DecidableEq

/-- The values of columns of a row; a column that the row does not have has the value nil. -/
def columnValues (row : RowData) (columns : List Bytes) : List GoValue :=
  columns.map fun col => (row.get col).getD .nil

/-- The values of the key columns in the before image, or the error for the first one missing. -/
def keyValues (before : RowData) : List Bytes → Except Bytes (List GoValue)
  | [] => .ok []
  | keyCol :: rest =>
    match before.getField keyCol with
    | none => .error (lit "primary key column " ++ keyCol ++ lit " not found in before image")
    | some field => (keyValues before rest).map (field.value :: ·)

/-! ## What the connectors share -/

/-- How a connector writes names and placeholders. -/
structure SqlStyle where
  quote : Bytes → Bytes
  /-- The placeholder of the `n`th argument, counted from one. -/
  placeholder : ℕ → Bytes

namespace SqlStyle

variable (s : SqlStyle)

/-- `col = placeholder` for each column, with the placeholders counted from `first`. -/
def equations (first : ℕ) (columns : List Bytes) : List Bytes :=
  columns.mapIdx fun i col => s.quote col ++ lit " = " ++ s.placeholder (first + i)

variable (table : Bytes) (columns : List Bytes)

def columnList : Bytes := joined ", " (columns.map s.quote)

def placeholders : Bytes := joined ", " (columns.mapIdx fun i _ => s.placeholder (i + 1))

variable (build : List Bytes → Bytes) (order : List Bytes → List Bytes) (e : ChangeEvent)

/-- The shared body of the `executeUpdate` methods, for a quoted table name. -/
def executeUpdate : Request :=
  let columns := e.after.columnNames order
  let keyColumns := e.table.getKeyColumns
  -- An update without columns is not an error.
  if columns.isEmpty then .nothing
  else if keyColumns.isEmpty then .reject (lit "no primary key columns for update")
  else
    match keyValues e.before keyColumns with
    | .error err => .reject err
    | .ok keys => .exec
        { text := lit "UPDATE " ++ table ++ lit " SET " ++ joined ", " (s.equations 1 columns) ++
            lit " WHERE " ++ joined " AND " (s.equations (columns.length + 1) keyColumns)
          args := columnValues e.after columns ++ keys
          failure := lit "failed to execute update: " }

/-- The shared body of the `executeDelete` methods, for a quoted table name. -/
def executeDelete : Request :=
  let keyColumns := e.table.getKeyColumns
  if keyColumns.isEmpty then .reject (lit "no primary key columns for delete")
  else
    match keyValues e.before keyColumns with
    | .error err => .reject err
    | .ok keys => .exec
        { text := lit "DELETE FROM " ++ table ++ lit " WHERE " ++
            joined " AND " (s.equations 1 keyColumns)
          args := keys
          failure := lit "failed to execute delete: " }

/-- The shared frame of the `executeInsert` methods: `build` gives the text for the columns. -/
def executeInsert : Request :=
  let columns := e.after.columnNames order
  if columns.isEmpty then .reject (lit "no columns to insert")
  else .exec
    { text := build columns
      args := columnValues e.after columns
      failure := lit "failed to execute insert: " }

/-- `INSERT INTO table (columns) VALUES (placeholders)`. -/
def insertText : Bytes :=
  lit "INSERT INTO " ++ table ++ lit " (" ++ s.columnList columns ++ lit ") VALUES (" ++
    s.placeholders columns ++ lit ")"

end SqlStyle

def quoted (before after : String) (name : Bytes) : Bytes := lit before ++ name ++ lit after

/-! ## MySQL -/

namespace Mysql

/-- `mysql.Config`, as far as `Write` reads it. -/
structure Config where
  insertStrategy : Bytes
  useTransaction : Bool
  ddlPolicy : Bytes

/-- Names in backticks; placeholders are not numbered. -/
def style : SqlStyle where
  quote := quoted "`" "`"
  placeholder _ := lit "?"

variable (cfg : Config) (order : List Bytes → List Bytes) (e : ChangeEvent)

def table : Bytes := lit "`" ++ e.table.database ++ lit "`.`" ++ e.table.table ++ lit "`"

/-- The columns of an insert: joined by the closing quote, a comma and the opening quote. -/
def columnList (columns : List Bytes) : Bytes := lit "(`" ++ joined "`, `" columns ++ lit "`)"

def insertText (columns : List Bytes) : Bytes :=
  let into := table e ++ lit " " ++ columnList columns ++ lit " VALUES (" ++
    style.placeholders columns ++ lit ")"
  if cfg.insertStrategy = lit "replace" then lit "REPLACE INTO " ++ into
  else if cfg.insertStrategy = lit "upsert" then
    lit "INSERT INTO " ++ into ++ lit " ON DUPLICATE KEY UPDATE " ++
      joined ", " (columns.map fun col => lit "`" ++ col ++ lit "` = VALUES(`" ++ col ++ lit "`)")
  else lit "INSERT INTO " ++ into

def executeInsert : Request := SqlStyle.executeInsert (insertText cfg e) order e

def executeUpdate : Request := style.executeUpdate (table e) order e

def executeDelete : Request := style.executeDelete (table e) e

end Mysql

/-! ## PostgreSQL -/

namespace Postgres

/-- `postgres.Config`, as far as `Write` reads it. -/
structure Config where
  insertStrategy : Bytes
  useTransaction : Bool
  useCopy : Bool
  ddlPolicy : Bytes
  defaultSchema : Bytes

/-- Names in double quotes and placeholders `$1`, `$2`, …. -/
def style : SqlStyle where
  quote := quoted "\"" "\""
  placeholder n := lit "$" ++ formatNat n

variable (cfg : Config) (e : ChangeEvent) (columns : List Bytes)

/-- The schema of the table of an event. -/
def schema : Bytes := if e.table.schema ≠ [] then e.table.schema else cfg.defaultSchema

def getSchemaTable : Bytes := lit "\"" ++ schema cfg e ++ lit "\".\"" ++ e.table.table ++ lit "\""

/-- The columns that an upsert assigns: all but those of the primary key. -/
def updateColumns : List Bytes := columns.filter fun col => !e.table.primaryKeyColumns.contains col

def insertText : Bytes :=
  let insert := style.insertText (getSchemaTable cfg e) columns
  let conflictCols := e.table.primaryKeyColumns
  if cfg.insertStrategy = lit "upsert" then
    if conflictCols.isEmpty then insert
    else
      let target := insert ++ lit " ON CONFLICT (" ++ style.columnList conflictCols ++ lit ")"
      if (updateColumns e columns).isEmpty then target ++ lit " DO NOTHING"
      else target ++ lit " DO UPDATE SET " ++
        joined ", " ((updateColumns e columns).map fun col =>
          lit "\"" ++ col ++ lit "\" = EXCLUDED.\"" ++ col ++ lit "\"")
  else insert

/-- `Connector.executeInsert` of PostgreSQL. With `UseCopy` and more than ten columns it calls
`executeCopyInsert`, which calls it again with the same event. -/
def executeInsert (order : List Bytes → List Bytes) (e : ChangeEvent) : Request :=
  if cfg.useCopy ∧ 10 < (e.after.columnNames order).length then .overflow
  else SqlStyle.executeInsert (insertText cfg e) order e

section Calls

variable (cfg : Config) (orders : ℕ → { order // IsOrder order }) (e : ChangeEvent)

mutual

/-- `executeInsert` with a bound on the calls that are open at a time and an iteration order for
each of them; `none` says that the bound is not enough. -/
def executeInsertCalls : ℕ → Option Request
  | 0 => none
  | calls + 1 =>
    if cfg.useCopy ∧ 10 < (e.after.columnNames (orders calls)).length then
      executeCopyInsertCalls calls
    else some (SqlStyle.executeInsert (insertText cfg e) (orders calls) e)

/-- `executeCopyInsert`, with the same bound. -/
def executeCopyInsertCalls : ℕ → Option Request
  | 0 => none
  | calls + 1 => executeInsertCalls calls

end

lemma length_columnNames (row : RowData) (order : { order // IsOrder order }) :
    (row.columnNames order).length = row.entries.length := by
  rw [RowData.columnNames, (order.2 _).length_eq, List.length_map]

lemma executeInsertCalls_of_copy (h : cfg.useCopy = true ∧ 10 < e.after.entries.length) :
    ∀ calls, executeInsertCalls cfg orders e calls = none
  | 0 => rfl
  | 1 => by rw [executeInsertCalls, length_columnNames, if_pos h, executeCopyInsertCalls]
  | calls + 2 => by
    rw [executeInsertCalls, length_columnNames, if_pos h, executeCopyInsertCalls]
    exact executeInsertCalls_of_copy h calls

/-- An insert returns after finitely many calls exactly if `UseCopy` is off or the row has at most
ten columns. -/
theorem executeInsertCalls_returns_iff :
    (∃ calls, (∃ query, executeInsertCalls cfg orders e calls = some (.exec query)) ∨
      ∃ err, executeInsertCalls cfg orders e calls = some (.reject err)) ↔
      cfg.useCopy = false ∨ e.after.entries.length ≤ 10 := by
  by_cases h : cfg.useCopy = true ∧ 10 < e.after.entries.length
  · refine iff_of_false ?_ (by simpa using h)
    simp [executeInsertCalls_of_copy cfg orders e h]
  · refine iff_of_true ⟨1, ?_⟩ (by simpa [imp_iff_not_or] using h)
    rw [executeInsertCalls, length_columnNames, if_neg h, SqlStyle.executeInsert]
    split_ifs
    · exact .inr ⟨_, rfl⟩
    · exact .inl ⟨_, rfl⟩

end Calls

def wideInsert : ChangeEvent :=
  { ChangeEvent.zero with
    type := .insert
    after.fields := some ((List.range 11).map fun i => (formatNat i, .zero)) }

def defaultConfig : Config where
  insertStrategy := lit "upsert"
  useTransaction := true
  useCopy := true
  ddlPolicy := lit "apply"
  defaultSchema := lit "public"

/-- By default, the insert of a row with eleven columns never returns. -/
theorem wideInsert_not_returns :
    ¬∃ calls, (executeInsertCalls defaultConfig (fun _ => ⟨id, fun _ => .refl _⟩) wideInsert
      calls).isSome := by
  simp [executeInsertCalls_of_copy defaultConfig _ wideInsert ⟨rfl, by decide⟩]

def executeUpdate (cfg : Config) (order : List Bytes → List Bytes) (e : ChangeEvent) : Request :=
  style.executeUpdate (getSchemaTable cfg e) order e

def executeDelete (cfg : Config) (e : ChangeEvent) : Request :=
  style.executeDelete (getSchemaTable cfg e) e

end Postgres

/-! ## Oracle and SQL Server -/

/-- The shared body of the `getSchemaTable` methods: the table name, with the schema of the event or
else the configured one before it, if there is any. -/
def schemaTable (quote : Bytes → Bytes) (configured schema table : Bytes) : Bytes :=
  let schema := if schema = [] then configured else schema
  if schema ≠ [] then quote schema ++ lit "." ++ quote table else quote table

namespace Oracle

/-- `oracle.Config`, as far as `Write` reads it. -/
structure Config where
  useTransaction : Bool
  ddlPolicy : Bytes
  defaultSchema : Bytes

/-- Names in double quotes and placeholders `:1`, `:2`, …. -/
def style : SqlStyle where
  quote := quoted "\"" "\""
  placeholder n := lit ":" ++ formatNat n

variable (cfg : Config) (order : List Bytes → List Bytes) (e : ChangeEvent)

/-- `Connector.getSchemaTableFromEvent` of Oracle. -/
def getSchemaTableFromEvent : Bytes :=
  schemaTable style.quote cfg.defaultSchema e.table.schema e.table.table

def executeInsert : Request :=
  SqlStyle.executeInsert (style.insertText (getSchemaTableFromEvent cfg e)) order e

def executeUpdate : Request := style.executeUpdate (getSchemaTableFromEvent cfg e) order e

def executeDelete : Request := style.executeDelete (getSchemaTableFromEvent cfg e) e

end Oracle

namespace Sqlserver

/-- `sqlserver.Config`, as far as `Write` reads it. -/
structure Config where
  useTransaction : Bool
  ddlPolicy : Bytes
  schema : Bytes

/-- Names in square brackets and placeholders `@p1`, `@p2`, …. -/
def style : SqlStyle where
  quote := quoted "[" "]"
  placeholder n := lit "@p" ++ formatNat n

variable (cfg : Config) (order : List Bytes → List Bytes) (e : ChangeEvent)

/-- `Connector.getSchemaTableFromEvent` of SQL Server. -/
def getSchemaTableFromEvent : Bytes :=
  schemaTable style.quote cfg.schema e.table.schema e.table.table

def executeInsert : Request :=
  SqlStyle.executeInsert (style.insertText (getSchemaTableFromEvent cfg e)) order e

def executeUpdate : Request := style.executeUpdate (getSchemaTableFromEvent cfg e) order e

def executeDelete : Request := style.executeDelete (getSchemaTableFromEvent cfg e) e

end Sqlserver

/-! ## The four sinks -/

inductive SqlSink where
  | mysql (cfg : Mysql.Config)
  | postgres (cfg : Postgres.Config)
  | oracle (cfg : Oracle.Config)
  | sqlserver (cfg : Sqlserver.Config)

def errDDLNotSupported : Bytes := lit "[DS:Sink:DDLNotSupported]DDL not supported"

namespace SqlSink

def useTransaction : SqlSink → Bool
  | mysql cfg => cfg.useTransaction
  | postgres cfg => cfg.useTransaction
  | oracle cfg => cfg.useTransaction
  | sqlserver cfg => cfg.useTransaction

def ddlPolicy : SqlSink → Bytes
  | mysql cfg => cfg.ddlPolicy
  | postgres cfg => cfg.ddlPolicy
  | oracle cfg => cfg.ddlPolicy
  | sqlserver cfg => cfg.ddlPolicy

/-- Whether `Write` rolls the transaction back before it forgets it. MySQL and PostgreSQL only
forget it. -/
def rollsBack : SqlSink → Bool
  | mysql _ | postgres _ => false
  | oracle _ | sqlserver _ => true

def executeInsert : SqlSink → (List Bytes → List Bytes) → ChangeEvent → Request
  | mysql cfg => Mysql.executeInsert cfg
  | postgres cfg => Postgres.executeInsert cfg
  | oracle cfg => Oracle.executeInsert cfg
  | sqlserver cfg => Sqlserver.executeInsert cfg

def executeUpdate : SqlSink → (List Bytes → List Bytes) → ChangeEvent → Request
  | mysql _ => Mysql.executeUpdate
  | postgres cfg => Postgres.executeUpdate cfg
  | oracle cfg => Oracle.executeUpdate cfg
  | sqlserver cfg => Sqlserver.executeUpdate cfg

def executeDelete : SqlSink → ChangeEvent → Request
  | mysql _ => Mysql.executeDelete
  | postgres cfg => Postgres.executeDelete cfg
  | oracle cfg => Oracle.executeDelete cfg
  | sqlserver cfg => Sqlserver.executeDelete cfg

variable (sink : SqlSink) (order : List Bytes → List Bytes) (e : ChangeEvent)

def writeDataEvent : Request :=
  match e.type with
  | .insert => sink.executeInsert order e
  | .update => sink.executeUpdate order e
  | .delete => sink.executeDelete e
  | _ => .nothing

def handleDDL : Request :=
  if sink.ddlPolicy = lit "ignore" then .nothing
  else if sink.ddlPolicy = lit "error" then .reject errDDLNotSupported
  else
    let ddlStatement := (e.metadata.get? (lit "ddl")).getD []
    if ddlStatement = [] then .nothing
    else .exec { text := ddlStatement, args := [], failure := lit "failed to execute DDL: " }

/-- `Connector.ApplyDDL`, the same for all sinks. It does not look at the policy. -/
def applyDDL (_ : SqlSink) (e : ChangeEvent) : Request :=
  let sql := (e.metadata.get? (lit "sql")).getD []
  if sql = [] then .nothing else .exec { text := sql, args := [], failure := [] }

/-- What the loop of `Write` does with an event; other kinds of events are passed over. -/
def request : Request :=
  if e.isDDL then sink.handleDDL e
  else if e.isDataEvent then sink.writeDataEvent order e
  else .nothing

end SqlSink

end DataStream.Sink
