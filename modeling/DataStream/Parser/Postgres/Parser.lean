import DataStream.Parser.MySQL.Parser

/-!
# The PostgreSQL DDL parser

`Parse` and `ApplyDDL` of `pkg/parser/postgres/postgres_parser.go`, over given results of the
visitor and a given `strings.ToUpper`. The type strings are read by the same code as in the MySQL
parser.

* `applyDDL_of_unknown`: a statement that is not understood passes the old definition on.
-/

namespace DataStream.DDL.Postgres

open Event

/-- What the parser rests on. -/
structure Runtime where
  /-- The results that the visitor collects from the tree of a text. -/
  visit : Bytes → List DDLResult
  /-- `strings.ToUpper`. -/
  toUpper : Bytes → Bytes

namespace Runtime

variable (rt : Runtime)

variable (oldTable : Option TableInfo) (ddl : Bytes)

/-- `Parse`, which never fails; a text without DDL gives one unknown result. -/
def parse : List DDLResult :=
  match rt.visit ddl with
  | [] => [.ofType .unknown ddl]
  | results => results

def parseTypeString (type : Bytes) : Bytes × Int64 × Int64 :=
  MySQL.Runtime.parseTypeString { tree := fun text => ⟨text, []⟩, toUpper := rt.toUpper } type

def convertToEventColumn (col : Column) : ColumnInfo :=
  let parsed := rt.parseTypeString col.type
  { name := col.name
    type := parsed.1
    nullable := col.nullable
    length := parsed.2.1
    scale := parsed.2.2 }

def buildEventTableInfo (ti : Table) : TableInfo :=
  { TableInfo.zero with
    database := ti.database
    table := ti.name
    columns := ti.columns.map rt.convertToEventColumn
    primaryKeyColumns := ti.primaryKey }

/-- `mergeEventColumn`: only what the change says replaces the column; the nullability always
does. -/
def mergeEventColumn (existing : ColumnInfo) (change : Column) : ColumnInfo :=
  let named := if change.name = [] then existing else { existing with name := change.name }
  let typed :=
    if change.type = [] then named
    else
      let parsed := rt.parseTypeString change.type
      { named with type := parsed.1, length := parsed.2.1, scale := parsed.2.2 }
  { typed with nullable := change.nullable }

def mergeColumn (columns : List ColumnInfo) (name : Bytes) (change : Column) : List ColumnInfo :=
  match columns with
  | [] => []
  | c :: rest =>
    if c.name = name then rt.mergeEventColumn c change :: rest
    else c :: mergeColumn rest name change

/-- `applyAlterChanges`: first the added, then the dropped, then the modified columns. -/
def applyAlterChanges (table : TableInfo) (changes : TableChanges) : TableInfo :=
  let columns := table.columns ++ changes.addedColumns.map rt.convertToEventColumn
  let columns := changes.droppedColumns.foldl
    (fun columns name => columns.eraseP fun c => c.name = name) columns
  let columns := changes.modifiedColumns.foldl
    (fun columns (name, col) => rt.mergeColumn columns name col) columns
  { table with
    columns := columns
    primaryKeyColumns := changes.primaryKeyChange.getD table.primaryKeyColumns }

/-- What `ApplyDDL` sets as the new definition, `none` if it returns an error. -/
def newTableInfo (r : DDLResult) : Option (Option TableInfo) :=
  match r.type with
  | .createTable => some ((r.tableChanges.bind TableChanges.table).map rt.buildEventTableInfo)
  -- Without the old definition an `ALTER` is an error.
  | .alterTable => oldTable.map fun t => some (r.tableChanges.elim t (rt.applyAlterChanges t))
  | .dropTable => some none
  -- Any other statement passes the old definition on, if there is one.
  | _ => some oldTable

/-- `ApplyDDL`, on the first result of `Parse`. -/
def applyDDL : Option DDLResult :=
  (rt.parse ddl).head?.bind fun r =>
    (rt.newTableInfo oldTable r).map fun info => { r with newTableInfo := info }

/-- The first result of a text is of the unknown type. -/
def Unknown : Prop := ∃ r, (rt.parse ddl).head? = some r ∧ r.type = .unknown

variable {rt} in
/-- A statement that is not understood passes the old definition on. -/
theorem applyDDL_of_unknown {ddl : Bytes} (h : rt.Unknown ddl) (oldTable : Option TableInfo) :
    (rt.applyDDL oldTable ddl).bind DDLResult.newTableInfo = oldTable := by
  obtain ⟨r, hhead, htype⟩ := h
  rw [applyDDL, hhead, Option.bind_some, newTableInfo, htype]
  rfl

end Runtime

/-! ## Comments -/

/-- A text that is one line comment and nothing else. -/
def LineComment (text : Bytes) : Prop := lit "--" <+: text ∧ 0x0A ∉ text ∧ 0x0D ∉ text

/-- A text that is only a comment is classified as an unknown statement. -/
def Runtime.CommentsUnknown (rt : Runtime) : Prop := ∀ text, LineComment text → rt.Unknown text

/-- A parser whose visitor finds no statement in a text takes it as unknown. -/
lemma Runtime.unknown_of_visit_eq_nil {rt : Runtime} {ddl : Bytes} (h : rt.visit ddl = []) :
    rt.Unknown ddl := by
  refine ⟨.ofType .unknown ddl, ?_, rfl⟩
  rw [parse, h]
  rfl

end DataStream.DDL.Postgres
