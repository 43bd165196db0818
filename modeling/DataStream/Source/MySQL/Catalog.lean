import DataStream.Parser.MySQL.Visitor

/-!
# The catalog of a MySQL server

What the table statements of MySQL do to the tables of the server: which tables there are, and their
columns in order. This is the server's side, as its manual describes it; the connector is not
involved.

Names of databases and tables are compared byte by byte. Names of columns are compared under a
folding of their letters, which is a parameter. A statement that fails has no effect, and is not in
the binlog. Temporary tables are left out: they are not in the catalog.

## Main definitions

* `Statement`: the statements, with their names as they are written;
* `Statement.tree`: the parse tree of a statement, by the grammar;
* `exec`: what a statement does to the catalog.
-/

namespace DataStream.Source.MySQL

open DDL.MySQL (ColumnDefinition CreateDefinition AlterSpecification DdlStatement)

/-! ## Names -/

/-- How an identifier is written; double quotes are for the mode `ANSI_QUOTES`. -/
inductive Quoting where
  | bare
  | backtick
  | double
  deriving DecidableEq

/-- The bytes of an identifier without quotes: letters, digits, `$`, `_`, and everything that is not
ASCII. -/
def isIdentByte (b : UInt8) : Bool :=
  let n := b.toNat
  (48 ≤ n && n ≤ 57) || (65 ≤ n && n ≤ 90) || (97 ≤ n && n ≤ 122) || n = 36 || n = 95 || 128 ≤ n

/-- An identifier, with how it is written. -/
structure Ident where
  value : Bytes
  quoting : Quoting
  nonempty : value ≠ []
  bare : quoting = .bare → ∀ b ∈ value, isIdentByte b = true

/-- A text in quotes; a quote in the text is doubled. -/
def quoted (quote : UInt8) (text : Bytes) : Bytes :=
  [quote] ++ text.flatMap (fun b => if b = quote then [b, b] else [b]) ++ [quote]

def Ident.text (i : Ident) : Bytes :=
  match i.quoting with
  | .bare => i.value
  | .backtick => quoted 0x60 i.value
  | .double => quoted 0x22 i.value

/-- A table as a statement names it, with or without its database. -/
structure TableRef where
  database : Option Ident
  table : Ident

def TableRef.text (t : TableRef) : Bytes :=
  (t.database.elim [] fun d => d.text ++ lit ".") ++ t.table.text

structure TableName where
  database : Bytes
  table : Bytes
  database_ne : database ≠ []
  deriving DecidableEq

/-- The table that is meant, given the default database; it can be that none is selected. -/
def TableRef.resolve (current : Bytes) (t : TableRef) : Option TableName :=
  match t.database with
  | some d => some ⟨d.value, t.table.value, d.nonempty⟩
  | none => if h : current ≠ [] then some ⟨current, t.table.value, h⟩ else none

/-! ## Statements -/

/-- Where an added or a changed column goes. -/
inductive Place where
  /-- Nothing is said: an added column goes to the end, a changed one stays. -/
  | unsaid
  | first
  | after (column : Ident)

/-- A part of `ALTER TABLE`. -/
inductive AlterSpec where
  | addColumn (column : Ident) (definition : ColumnDefinition) (place : Place)
  | addColumns (columns : List (Ident × ColumnDefinition))
  | changeColumn (old new : Ident) (definition : ColumnDefinition) (place : Place)
  | modifyColumn (column : Ident) (definition : ColumnDefinition) (place : Place)
  | renameColumn (old new : Ident)
  | dropColumn (column : Ident)
  | renameTo (table : TableRef)
  /-- Indexes, constraints, options: neither columns nor the name. -/
  | other

open AlterSpec

/-- An entry in the parentheses of `CREATE TABLE`. -/
inductive CreateEntry where
  | column (name : Ident) (definition : ColumnDefinition)
  /-- A constraint or an index. -/
  | other

/-- The statements that change which tables there are, or their columns. -/
inductive Statement where
  | createTable (ifNotExists : Bool) (table : TableRef) (entries : List CreateEntry)
  | createTableLike (ifNotExists : Bool) (table template : TableRef)
  /-- `CREATE TABLE ... AS SELECT`, with the columns that come out. -/
  | createTableSelect (ifNotExists : Bool) (table : TableRef) (columns : List Bytes)
  | alterTable (table : TableRef) (specs : List AlterSpec)
  | renameTable (renames : List (TableRef × TableRef))
  | dropTable (ifExists : Bool) (tables : List TableRef)

def CreateEntry.columnName : CreateEntry → Option Bytes
  | .column name _ => some name.value
  | .other => none

/-! ## Parse trees -/

/-- The names in a place. -/
def Place.texts : Place → List Bytes
  | .after column => [column.text]
  | .unsaid | .first => []

def CreateEntry.tree : CreateEntry → CreateDefinition
  | .column name definition => .column (some name.text) (some definition)
  | .other => .other

/-- The node of a part of `ALTER TABLE`. The names in the place follow the names of the columns. -/
@[simp]
def AlterSpec.tree : AlterSpec → AlterSpecification
  | .addColumn column definition place => .addColumn (column.text :: place.texts) (some definition)
  | .addColumns columns => .addColumns (columns.map fun c => c.1.text) (columns.map Prod.snd)
  | .changeColumn old new definition place =>
    .changeColumn (old.text :: new.text :: place.texts) (some definition)
  | .modifyColumn column definition place =>
    .modifyColumn (column.text :: place.texts) (some definition)
  | .dropColumn column => .dropColumn (some column.text)
  | .renameColumn _ _ | .renameTo _ | .other => .other

def Statement.tree : Statement → DdlStatement
  | .createTable _ table entries =>
    .columnCreateTable (some table.text) (some (entries.map CreateEntry.tree))
  | .createTableLike _ table template => .copyCreateTable [table.text, template.text]
  | .createTableSelect _ table _ => .queryCreateTable (some table.text)
  | .alterTable table specs => .alterTable (some table.text) (specs.map AlterSpec.tree)
  -- The grammar has a node for `RENAME TABLE`, which the visitor does not look for.
  | .renameTable _ => .other
  | .dropTable _ tables => .dropTable (tables.head?.map TableRef.text)

/-! ## The server -/

section

-- How names of columns are compared
variable (fold : Bytes → Bytes)

/-- The columns of a table: at least one, and no two of the same name. -/
structure Columns where
  names : List Bytes
  names_ne : names ≠ []
  nodup : (names.map fold).Nodup

abbrev Catalog := TableName → Option (Columns fold)

variable {fold}

/-- A table with these columns, if there can be one. -/
def Columns.ofNames (names : List Bytes) : Option (Columns fold) :=
  if h : names ≠ [] ∧ (names.map fold).Nodup then some ⟨names, h.1, h.2⟩ else none

variable (c : Catalog fold) (current : Bytes) (n : TableName) (specs : List AlterSpec)

/-- Create a table. -/
def Catalog.create (ifNotExists : Bool) (n : TableName) (names : List Bytes) :
    Option (Catalog fold) :=
  match c n with
  | some _ => if ifNotExists then some c else none
  | none => (Columns.ofNames names).map fun columns => Function.update c n (some columns)

/-- Give a table a name that is not in use. -/
def Catalog.rename (old new : TableName) : Option (Catalog fold) :=
  match c old, c new with
  | some columns, none => some (Function.update (Function.update c old none) new (some columns))
  | _, _ => none

@[simp]
def AlterSpec.dropped : AlterSpec → Option Bytes
  | .dropColumn column => some column.value
  | _ => none

/-- The column that is changed: its old name, its new name, and its place. -/
@[simp]
def AlterSpec.changed : AlterSpec → Option (Bytes × Bytes × Place)
  | .changeColumn old new _ place => some (old.value, new.value, place)
  | .modifyColumn column _ place => some (column.value, column.value, place)
  | .renameColumn old new => some (old.value, new.value, .unsaid)
  | _ => none

/-- The columns that are put into a place: the added ones, and those that are moved. -/
@[simp]
def AlterSpec.placed : AlterSpec → List (Bytes × Place)
  | .addColumn column _ place => [(column.value, place)]
  | .addColumns columns => columns.map fun c => (c.1.value, .unsaid)
  | .changeColumn _ _ _ .unsaid | .modifyColumn _ _ .unsaid => []
  | .changeColumn _ new _ place => [(new.value, place)]
  | .modifyColumn column _ place => [(column.value, place)]
  | _ => []

/-- The new name of the table. -/
def AlterSpec.renamedTo : AlterSpec → Option TableRef
  | .renameTo table => some table
  | _ => none

variable (fold) in
/-- What becomes of a column where it is. -/
def keptColumn (column : Bytes) : Option Bytes :=
  if (specs.filterMap dropped).any fun name => fold name = fold column then none
  else
    match (specs.filterMap changed).find? fun change => fold change.1 = fold column with
    | none => some column
    | some (_, new, .unsaid) => some new
    -- The column is moved.
    | some _ => none

variable (fold) in
def insertColumn (columns : List Bytes) : Bytes × Place → Option (List Bytes)
  | (name, .unsaid) => some (columns ++ [name])
  | (name, .first) => some (name :: columns)
  | (name, .after column) =>
    (columns.findIdx? fun c => fold c = fold column.value).map fun i =>
      columns.insertIdx (i + 1) name

/-- The columns that the parts of an `ALTER TABLE` drop or change. -/
def namedColumns : List Bytes := specs.filterMap dropped ++ (specs.filterMap changed).map Prod.fst

variable (fold) in
/-- The columns after an `ALTER TABLE`. All parts name the columns as they were before; then the new
and the moved columns are put into their places, one after the other. -/
def alterColumns (columns : List Bytes) (specs : List AlterSpec) : Option (List Bytes) :=
  let named := (namedColumns specs).map fold
  -- No column can be missing, or be dropped or changed twice.
  if named ⊆ columns.map fold ∧ named.Nodup then
    (specs.flatMap placed).foldlM (insertColumn fold) (columns.filterMap (keptColumn fold specs))
  else none

/-- `ALTER TABLE`. -/
def Catalog.alter : Option (Catalog fold) := do
  let columns ← c n
  let names ← alterColumns fold columns.names specs
  let columns ← Columns.ofNames names
  let altered : Catalog fold := Function.update c n (some columns)
  match (specs.filterMap renamedTo).getLast? with
  | none => some altered
  | some table =>
    let new ← table.resolve current
    if new = n then some altered else altered.rename n new

/-- What a statement does, `none` if it fails. -/
def exec (c : Catalog fold) : Statement → Option (Catalog fold)
  | .createTable ifNotExists table entries => do
      c.create ifNotExists (← table.resolve current) (entries.filterMap CreateEntry.columnName)
  | .createTableLike ifNotExists table template => do
      let columns ← c (← template.resolve current)
      c.create ifNotExists (← table.resolve current) columns.names
  | .createTableSelect ifNotExists table columns => do
      c.create ifNotExists (← table.resolve current) columns
  | .alterTable table specs => do
      c.alter current (← table.resolve current) specs
  -- The renamings are done from left to right.
  | .renameTable renames =>
    renames.foldlM (fun c (old, new) => do
      c.rename (← old.resolve current) (← new.resolve current)) c
  | .dropTable ifExists tables => do
      let names ← tables.mapM (TableRef.resolve current)
      if ifExists ∨ ∀ n ∈ names, (c n).isSome then
        some (names.foldl (fun c n => Function.update c n none) c)
      else none

end

end DataStream.Source.MySQL
