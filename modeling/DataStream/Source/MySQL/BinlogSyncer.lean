import DataStream.Source.Binlog.Syncer

/-!
# The MySQL binlog syncer

What is particular to `internal/source/mysql/binlog_syncer.go`: the commit time comes from the
header, column types are mapped to a few field types, GTID events name the transaction, and the
position is saved in the store once the events of a handler are sent.
-/

namespace DataStream.Source.MySQL

open Event Schema DDL Store Binlog

def contains (s word : Bytes) : Bool := s.tails.any fun t => word.isPrefixOf t

/-- The words that decide a field type, in the order in which they are looked for. -/
def columnTypes : List (Bytes × List Bytes) :=
  [(lit "number", [lit "int", lit "float", lit "double", lit "decimal", lit "numeric"]),
    (lit "datetime", [lit "date", lit "time", lit "timestamp", lit "year"]),
    (lit "string", [lit "char", lit "varchar", lit "text", lit "blob", lit "binary", lit "enum",
      lit "set", lit "json"]),
    (lit "bit", [lit "bit"]),
    (lit "geometry", [lit "geometry", lit "point", lit "linestring", lit "polygon"])]

def mapColumnType (rawType : Bytes) : Bytes :=
  let rawType := Text.toLower rawType
  ((columnTypes.find? fun (_, words) => words.any (contains rawType)).map Prod.fst).getD
    (lit "unknown")

/-- The text that `handleGTIDEvent` makes of a server identifier and a transaction number. -/
def gtidText (sid : Bytes) (gno : Int64) : Bytes :=
  let part := fun lower upper => Hex.encodeToString ((sid.take upper).drop lower)
  part 0 4 ++ lit "-" ++ part 4 6 ++ lit "-" ++ part 6 8 ++ lit "-" ++ part 8 10 ++ lit "-" ++
    part 10 16 ++ lit ":" ++ Bytes.formatInt gno.toInt

/-- What `handleQueryEvent` does to the definitions and the history, where there are definitions and
the statement names a table. -/
def applyQuery (parser : DDLParser) (hasStore : Bool) (query : Bytes) (r : DDLResult)
    (position : Position) (s : SchemaState) : SchemaState :=
  match s.tables with
  | none => s
  | some tables =>
    match parser.applyDDL (tables.get r.database r.table) query with
    | none => s
    | some applied =>
      let tables' :=
        match applied.newTableInfo with
        | some info => tables.put info
        | none => if r.type = .dropTable then tables.remove r.database r.table else tables
      let history' :=
        if hasStore then
          saveSchemaHistory s.history
            { position := position
              dbName := r.database
              tableName := r.table
              ddl := query
              tableInfo := applied.newTableInfo
              changeType := r.type.name }
        else s.history
      { tables := some tables', history := history' }

/-- The MySQL syncer among the binlog syncers. -/
def flavor : Flavor where
  connector := lit "mysql"
  commitTime header _ := header
  fieldType type := if type = [] then lit "unknown" else mapColumnType type
  savesPosition := true
  transaction
    | .gtid sid gno => some (gtidText sid gno)
    | _ => none
  applyQuery := applyQuery

def newBinlogSyncer (shouldCapture : Bytes → Bytes → Bool) (parser : Option DDLParser)
    (hasStore : Bool) (zone : ℤ → ℤ) : Binlog.Config where
  flavor := flavor
  shouldCapture := shouldCapture
  parser := parser
  hasStore := hasStore
  zone := zone

end DataStream.Source.MySQL
