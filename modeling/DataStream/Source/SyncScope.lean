import DataStream.Foundations.Bytes

/-!
# The sync scope of a connector

`source.SyncScope`: which databases or tables a connector is to synchronise, and the two calls that
edit it. `AddTables` and `RemoveTables` are the same in every connector, except that the MySQL and
MariaDB connectors then hand the scope on to their syncer.

Regular expressions are a parameter, given by what they compile to.
-/

namespace DataStream.Source

inductive SyncLevel where
  | database
  | table
  | other
  deriving DecidableEq, Repr

structure DatabaseScope where
  names : List Bytes
  tableFilter : List Bytes
  ignoreTables : List Bytes
  deriving DecidableEq, Repr

structure TableScope where
  /-- The tables, as `database.table`. -/
  names : List Bytes
  deriving DecidableEq, Repr

structure SyncScope where
  level : SyncLevel
  databases : DatabaseScope
  tables : TableScope
  deriving DecidableEq, Repr

open SyncScope

/-- `regexp.Compile` and `MatchString`; `none` is a pattern that does not compile. -/
abbrev Regexp := Bytes → Option (Bytes → Bool)

variable (compile : Regexp) (legacy : Bytes → Bytes → Bool) (scope : Option SyncScope)
  (database table : Bytes)

def fullName : Bytes := database ++ lit "." ++ table

namespace DatabaseScope

variable (d : DatabaseScope)

def isWildcardDatabase : Bool := d.names = [lit "*"]

def shouldSyncDatabase (database : Bytes) : Bool :=
  d.isWildcardDatabase || d.names.any fun name => name = database

/-- `ShouldSyncTable`. If a pattern does not compile, no table is included. -/
def shouldSyncTable (compile : Regexp) (database table : Bytes) : Bool :=
  d.shouldSyncDatabase database &&
    match d.tableFilter.mapM compile, d.ignoreTables.mapM compile with
    | some filters, some ignored =>
      !(ignored.any fun re => re (fullName database table)) &&
        (filters.isEmpty || filters.any fun re => re (fullName database table))
    | _, _ => false

end DatabaseScope

def TableScope.shouldSyncTable (t : TableScope) (database table : Bytes) : Bool :=
  t.names.any fun name => name = fullName database table

/-- What a scope says about a table; `none` if there is no scope or its level is neither database
nor table. -/
def SyncScope.covers? : Option Bool :=
  scope.bind fun s =>
    match s.level with
    | .database => some (s.databases.shouldSyncTable compile database table)
    | .table => some (s.tables.shouldSyncTable database table)
    | .other => none

/-- `shouldCapture` of the MySQL connector and of its syncer: the scope if it says something, else
`legacy`, the filter by the databases and tables of the configuration. -/
def SyncScope.shouldCapture : Bool :=
  (covers? compile scope database table).getD (legacy database table)

/-- A scope includes a table; without a scope nothing is excluded. -/
def SyncScope.includes : Bool := (covers? compile scope database table).getD true

lemma SyncScope.includes_of_shouldCapture {compile : Regexp} {legacy : Bytes → Bytes → Bool}
    {scope : Option SyncScope} {database table : Bytes}
    (h : shouldCapture compile legacy scope database table = true) :
    includes compile scope database table = true := by
  rw [shouldCapture] at h
  rw [includes]
  rcases hcovers : covers? compile scope database table with _ | covered
  · rfl
  · rwa [hcovers] at h

/-- The edits of the table list, which need a scope of tables; `false` is `ErrInvalidSyncScope`. -/
def SyncScope.edit (f : List Bytes → List Bytes) : Option SyncScope → Option SyncScope × Bool
  | none => (none, false)
  | some s =>
    if s.level = .table then (some { s with tables := { names := f s.tables.names } }, true)
    else (some s, false)

def SyncScope.addTables (tables : List Bytes) : Option SyncScope → Option SyncScope × Bool :=
  edit fun names => names ++ tables

def SyncScope.removeTables (tables : List Bytes) : Option SyncScope → Option SyncScope × Bool :=
  edit fun names => names.filter fun name => !(tables.any fun t => t = name)

end DataStream.Source
