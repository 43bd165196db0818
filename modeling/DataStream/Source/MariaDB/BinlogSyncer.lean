import DataStream.Source.Binlog.Syncer

/-!
# The MariaDB binlog syncer

What is particular to the `BinlogSyncer` of `internal/source/mariadb/connector.go`: the commit time
comes from the clock, fields keep the type of their column, MariaDB GTID events name the
transaction, and the handlers do not save the position.
-/

namespace DataStream.Source.MariaDB

open Event Schema DDL Store Binlog

/-- The text that `handleMariaDBGTIDEvent` makes of a GTID. -/
def gtidText (domainID serverID : UInt32) (sequenceNumber : UInt64) : Bytes :=
  Bytes.formatInt domainID.toNat ++ lit ":" ++ Bytes.formatInt serverID.toNat ++ lit ":" ++
    Bytes.formatInt sequenceNumber.toNat

/-- The change type of a history row, from the definitions before and after the statement. -/
def changeType (oldTable tableInfo : Option TableInfo) : Bytes :=
  if tableInfo.isNone then lit "DROP" else if oldTable.isNone then lit "CREATE" else lit "ALTER"

/-- What `handleQueryEvent` does to the table definitions and the history, where the statement
names a table. The history row is made from the definitions after the statement. -/
def applyQuery (parser : DDLParser) (hasStore : Bool) (query : Bytes) (r : DDLResult)
    (position : Position) (s : SchemaState) : SchemaState :=
  let oldTable := s.tables.bind fun t => t.get r.database r.table
  let tables' := s.tables.map fun tables =>
    match parser.applyDDL oldTable query with
    | none => tables
    | some applied =>
      match applied.newTableInfo with
      | some info => tables.put info
      | none => if r.type = .dropTable then tables.remove r.database r.table else tables
  let tableInfo := tables'.bind fun t => t.get r.database r.table
  let history' :=
    if hasStore then
      saveSchemaHistory s.history
        { position := position
          dbName := r.database
          tableName := r.table
          ddl := query
          tableInfo := tableInfo
          changeType := changeType oldTable tableInfo }
    else s.history
  { tables := tables', history := history' }

/-- The MariaDB syncer among the binlog syncers. -/
def flavor : Flavor where
  connector := lit "mariadb"
  commitTime _ now := now
  fieldType type := type
  savesPosition := false
  transaction
    | .mariadbGTID domainID serverID sequenceNumber =>
      some (gtidText domainID serverID sequenceNumber)
    | _ => none
  applyQuery := applyQuery

def newBinlogSyncer (shouldCapture : Bytes → Bytes → Bool) (parser : Option DDLParser)
    (hasStore : Bool) (zone : ℤ → ℤ) : Binlog.Config where
  flavor := flavor
  shouldCapture := shouldCapture
  parser := parser
  hasStore := hasStore
  zone := zone

end DataStream.Source.MariaDB
