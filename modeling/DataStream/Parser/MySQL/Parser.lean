import DataStream.Parser.MySQL.Visitor

/-!
# The MySQL DDL parser

`Parse` and `ApplyDDL` of `pkg/parser/mysql/mysql_parser.go`, over a given ANTLR parser and a given
`strings.ToUpper`.
-/

namespace DataStream.DDL.MySQL

open Event

/-- What the parser rests on. -/
structure Runtime where
  /-- The tree that the generated parser builds for a text. -/
  tree : Bytes → Root
  /-- `strings.ToUpper`. -/
  toUpper : Bytes → Bytes

namespace Runtime

variable (rt : Runtime)

variable (oldTable : Option TableInfo) (ddl : Bytes)

/-- `Parse`, which never fails; a text without DDL gives one unknown result. -/
def parse : List DDLResult :=
  match visitRoot rt.toUpper (rt.tree ddl) with
  | [] => [.ofType .unknown ddl]
  | results => results

/-- `parseTypeString`: the type in capitals, and the two numbers in its parentheses. -/
def parseTypeString (type : Bytes) : Bytes × Int64 × Int64 :=
  if type = [] then ([], 0, 0) else
  match Text.cut 0x28 type with
  | none => (rt.toUpper type, 0, 0)
  | some (base, params) =>
    -- `strings.TrimSuffix`
    let params := if params.getLast? = some 0x29 then params.dropLast else params
    match Text.cut 0x2C params with
    | none => (rt.toUpper base, Text.atoi (Text.trimSpace params), 0)
    | some (length, scale) =>
      (rt.toUpper base, Text.atoi (Text.trimSpace length), Text.atoi (Text.trimSpace scale))

def convertToEventColumn (col : Column) : ColumnInfo :=
  let parsed := rt.parseTypeString col.type
  { name := col.name
    type := parsed.1
    nullable := col.nullable
    length := parsed.2.1
    scale := parsed.2.2 }

def buildEventTableInfo (ti : Table) : TableInfo :=
  { TableInfo.zero with
    database := ti.database
    table := ti.name
    columns := ti.columns.map rt.convertToEventColumn
    primaryKeyColumns := ti.primaryKey }

def replaceColumn (columns : List ColumnInfo) (name : Bytes) (col : ColumnInfo) : List ColumnInfo :=
  match columns with
  | [] => []
  | c :: rest => if c.name = name then col :: rest else c :: replaceColumn rest name col

/-- `applyAlterChanges`: first the added, then the dropped, then the modified columns. -/
def applyAlterChanges (table : TableInfo) (changes : TableChanges) : TableInfo :=
  let columns := table.columns ++ changes.addedColumns.map rt.convertToEventColumn
  let columns := changes.droppedColumns.foldl
    (fun columns name => columns.eraseP fun c => c.name = name) columns
  let columns := changes.modifiedColumns.foldl
    (fun columns (name, col) => replaceColumn columns name (rt.convertToEventColumn col)) columns
  { table with
    columns := columns
    primaryKeyColumns := changes.primaryKeyChange.getD table.primaryKeyColumns }

/-- What `ApplyDDL` sets as the new definition, `none` if it returns an error. -/
def newTableInfo (r : DDLResult) : Option (Option TableInfo) :=
  match r.type with
  | .createTable => some ((r.tableChanges.bind TableChanges.table).map rt.buildEventTableInfo)
  -- Without the old definition an `ALTER` is an error.
  | .alterTable => oldTable.map fun t => some (r.tableChanges.elim t (rt.applyAlterChanges t))
  | .dropTable => some none
  -- Any other statement passes the old definition on, if there is one.
  | _ => some oldTable

/-- `ApplyDDL`, on the first result of `Parse`. -/
def applyDDL : Option DDLResult :=
  (rt.parse ddl).head?.bind fun r =>
    (rt.newTableInfo oldTable r).map fun info => { r with newTableInfo := info }

/-- The parser as the syncers use it. -/
def parser : DDLParser where
  parse ddl := some (rt.parse ddl)
  applyDDL := rt.applyDDL

end Runtime

end DataStream.DDL.MySQL
