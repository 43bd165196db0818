import DataStream.Foundations.Text
import DataStream.Parser.DDLResult

/-!
# The visitor of the MySQL parse tree

`pkg/parser/mysql/visitor.go` walks the tree that the generated ANTLR parser builds and extracts
what the statements change. The tree is given: each node has what the visitor reads of it, mostly
the text of its tokens, which ANTLR joins without the blanks between them.

`VisitCreateDefinition` is not reached: every definition of the grammar has a label, and the
generated `Accept` goes to the method of the label. Constraints and indexes have no method of their
own and yield nothing.
-/

namespace DataStream.DDL.MySQL

/-! ## The parse tree -/

/-- A column constraint. -/
inductive ColumnConstraint where
  /-- `NULL` or `NOT NULL`; whether `NOT` is there, if the node is complete. -/
  | nullNotnull (isNot : Option Bool)
  | primaryKey
  | autoIncrement
  /-- The text of the whole constraint, and whether it has the keyword. -/
  | default (hasKeyword : Bool) (text : Bytes)
  | other

/-- A column definition. -/
structure ColumnDefinition where
  text : Bytes
  dataType : Option Bytes
  constraints : List ColumnConstraint

/-- An entry in the parentheses of `CREATE TABLE`. -/
inductive CreateDefinition where
  | column (fullColumnName : Option Bytes) (definition : Option ColumnDefinition)
  /-- A constraint or an index. -/
  | other

/-- A part of `ALTER TABLE`, by the names in it and the column definitions. -/
inductive AlterSpecification where
  | addColumn (uids : List Bytes) (definition : Option ColumnDefinition)
  | addColumns (uids : List Bytes) (definitions : List ColumnDefinition)
  | changeColumn (uids : List Bytes) (definition : Option ColumnDefinition)
  | modifyColumn (uids : List Bytes) (definition : Option ColumnDefinition)
  | dropColumn (uid : Option Bytes)
  | other

/-- A DDL statement; missing nodes, which a text with errors can have, are `none`. -/
inductive DdlStatement where
  | createDatabase (uid : Option Bytes)
  | dropDatabase (uid : Option Bytes)
  | alterDatabase (text : Bytes)
  | columnCreateTable (tableName : Option Bytes) (definitions : Option (List CreateDefinition))
  /-- `CREATE TABLE ... LIKE`. -/
  | copyCreateTable (tableNames : List Bytes)
  /-- `CREATE TABLE ... AS SELECT`. -/
  | queryCreateTable (tableName : Option Bytes)
  /-- A `CREATE TABLE` that matches no alternative. -/
  | brokenCreateTable
  /-- The first table name, if there is one. -/
  | dropTable (tableName : Option Bytes)
  | alterTable (tableName : Option Bytes) (specifications : List AlterSpecification)
  | createIndex (uid tableName : Option Bytes)
  | dropIndex (uid tableName : Option Bytes)
  | createView (fullId : Option Bytes)
  | dropView (fullId : Option Bytes)
  | truncateTable (tableName : Option Bytes)
  | other

/-- The root of the tree: its text and its statements; `none` is a statement that is not DDL. -/
structure Root where
  text : Bytes
  statements : List (Option DdlStatement)

/-! ## The visitor -/

/-- `extractUidText`: a name without its quotes. -/
def extractUidText (text : Bytes) : Bytes := Text.trim 0x60 text

/-- `extractTableName`: the database, if there is one, and the table. -/
def extractTableName (text : Bytes) : Bytes × Bytes :=
  let text := Text.remove 0x60 text
  (Text.cut 0x2E text).getD ([], text)

variable (type : DDLType) (ddl : Bytes) (text : Option Bytes)

/-- The names of an optional node. -/
def tableNames : Bytes × Bytes := (text.map extractTableName).getD ([], [])

def aboutTable : DDLResult :=
  { DDLResult.ofType type ddl with
    database := (tableNames text).1
    table := (tableNames text).2 }

def aboutDatabase (uid : Option Bytes) : DDLResult :=
  { DDLResult.ofType type ddl with database := (uid.map extractUidText).getD [] }

def processColumnConstraint (col : Column) : ColumnConstraint → Column
  | .nullNotnull (some isNot) => { col with nullable := !isNot }
  | .nullNotnull none => col
  | .primaryKey => { col with nullable := false }
  | .autoIncrement => { col with autoIncrement := true }
  | .default hasKeyword text =>
    -- The keyword has seven bytes.
    if hasKeyword && 7 < text.length then { col with defaultValue := some (text.drop 7) } else col
  | .other => col

def extractColumnInfo (col : Column) (definition : ColumnDefinition) : Column :=
  let col := { col with type := definition.dataType.getD col.type }
  definition.constraints.foldl processColumnConstraint col

def columnOf (name : Bytes) (definition : Option ColumnDefinition) : Column :=
  definition.elim (.named name true) (extractColumnInfo (.named name true))

/-- `VisitColumnDeclaration`, and what the other labels give. -/
def visitCreateDefinition : CreateDefinition → Option Column
  | .column fullColumnName definition =>
    some (columnOf ((fullColumnName.map (Text.trim 0x60)).getD []) definition)
  | .other => none

/-- `extractColumns`: the columns that have a name. -/
def extractColumns (definitions : List CreateDefinition) : List Column :=
  (definitions.filterMap visitCreateDefinition).filter fun col => col.name ≠ []

def visitColumnCreateTable (tableName : Option Bytes) (definitions : Option (List CreateDefinition))
    : DDLResult :=
  let result := aboutTable .createTable ddl tableName
  { result with
    tableChanges := some
      { operation := .create
        table := some
          { database := result.database
            name := result.table
            columns := (definitions.map extractColumns).getD []
            primaryKey := [] }
        addedColumns := []
        droppedColumns := []
        modifiedColumns := []
        primaryKeyChange := none } }

/-- The effect of one `ALTER` specification on the collected changes. -/
def visitAlterSpecification (changes : TableChanges) : AlterSpecification → TableChanges
  | .addColumn (uid :: _) definition =>
    { changes with
      addedColumns := changes.addedColumns ++ [columnOf (extractUidText uid) definition] }
  | .addColumns (uid :: _) definitions =>
    -- Of several added columns only the first is kept, with its whole definition as type.
    let col := Column.named (extractUidText uid) true
    let col := { col with type := (definitions.head?.map ColumnDefinition.text).getD col.type }
    { changes with addedColumns := changes.addedColumns ++ [col] }
  -- `CHANGE` may rename: the column is looked up by the old name.
  | .changeColumn (old :: new :: _) definition =>
    let col := columnOf (extractUidText new) definition
    { changes with
      modifiedColumns := changes.modifiedColumns ++ [(extractUidText old, col)] }
  | .modifyColumn (uid :: _) definition =>
    let col := columnOf (extractUidText uid) definition
    { changes with modifiedColumns := changes.modifiedColumns ++ [(extractUidText uid, col)] }
  | .dropColumn (some uid) =>
    let name := extractUidText uid
    -- An empty name is left out here, but not when a column is added or modified.
    if name = [] then changes
    else { changes with droppedColumns := changes.droppedColumns ++ [name] }
  | _ => changes

def visitAlterTable (tableName : Option Bytes) (specifications : List AlterSpecification) :
    DDLResult :=
  let result := aboutTable .alterTable ddl tableName
  let named : TableChanges :=
    { operation := .alter
      table := tableName.map fun _ =>
        { database := result.database, name := result.table, columns := [], primaryKey := [] }
      addedColumns := []
      droppedColumns := []
      modifiedColumns := []
      primaryKeyChange := none }
  { result with tableChanges := some (specifications.foldl visitAlterSpecification named) }

/-- `VisitCreateIndex` and `VisitDropIndex`. -/
def visitIndex (operation : IndexOperation) (ddl : Bytes) (uid tableName : Option Bytes) :
    DDLResult :=
  let result := aboutTable type ddl tableName
  { result with
    indexChanges := uid.map fun uid =>
      { indexName := extractUidText uid
        tableName := result.table
        databaseName := result.database
        operation := operation } }

section

-- `strings.ToUpper`
variable (toUpper : Bytes → Bytes)

/-- `VisitAlterDatabase`: the word after `DATABASE`, or else after `SCHEMA`. -/
def visitAlterDatabase (ddl text : Bytes) : DDLResult :=
  let after := fun word : Bytes =>
    (Text.index word (toUpper text)).map fun i =>
      Text.trim 0x60 (Text.firstField (text.drop (i + word.length)))
  { DDLResult.ofType .alterDatabase ddl with
    database := ((after (lit "DATABASE")).or (after (lit "SCHEMA"))).getD [] }

def visitDdlStatement (ddl : Bytes) : DdlStatement → Option DDLResult
  | .createDatabase uid => some (aboutDatabase .createDatabase ddl uid)
  | .dropDatabase uid => some (aboutDatabase .dropDatabase ddl uid)
  | .alterDatabase text => some (visitAlterDatabase toUpper ddl text)
  | .columnCreateTable tableName definitions =>
    some (visitColumnCreateTable ddl tableName definitions)
  | .copyCreateTable tableNames => some (aboutTable .createTable ddl tableNames.head?)
  | .queryCreateTable tableName => some (aboutTable .createTable ddl tableName)
  | .brokenCreateTable => none
  | .dropTable tableName => some (aboutTable .dropTable ddl tableName)
  | .alterTable tableName specifications => some (visitAlterTable ddl tableName specifications)
  | .createIndex uid tableName => some (visitIndex .createIndex .create ddl uid tableName)
  | .dropIndex uid tableName => some (visitIndex .dropIndex .drop ddl uid tableName)
  | .createView fullId => some (aboutTable .createView ddl fullId)
  | .dropView fullId => some (aboutTable .dropView ddl fullId)
  | .truncateTable tableName => some (aboutTable .truncate ddl tableName)
  | .other => some (.ofType .unknown ddl)

/-- `VisitRoot`. The text of the whole tree is the statement of every result. -/
def visitRoot (root : Root) : List DDLResult :=
  root.statements.filterMap fun s => s.bind (visitDdlStatement toUpper root.text)

end

end DataStream.DDL.MySQL
