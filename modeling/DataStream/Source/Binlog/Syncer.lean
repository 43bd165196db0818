import DataStream.Event.ChangeEvent
import DataStream.Foundations.Delivery
import DataStream.Foundations.Hex
import DataStream.Foundations.Text
import DataStream.Parser.DDLResult
import DataStream.Store.SchemaHistory

/-!
# The binlog syncers

The MySQL and the MariaDB connector each have a `BinlogSyncer`, with the same handlers: a binlog
event is turned into change events, and for each of them the syncer sets its position and then
sends. What differs between the two is collected in `Flavor`.

A handler is modelled by the program it runs (`Delivery.Action`): positions set, events sent,
positions saved. A failed send returns from the handler, and the error is only reported, so the
loop goes on with the next binlog event. The position saver of the connector exposes the syncer's
position once a second, at any time in between.

The syncer's position shares memory with the event it comes from; a GTID event that writes its
transaction into the position is modelled as setting a changed copy.
-/

namespace DataStream.Source.Binlog

open Event Schema DDL Store Delivery

/-! ## Binlog events -/

/-- The type in the header of a rows event. -/
inductive RowsKind where
  | writeRowsV1
  | writeRowsV2
  | updateRowsV1
  | updateRowsV2
  | deleteRowsV1
  | deleteRowsV2
  /-- Any other type, such as version 0, partial updates and compressed rows. -/
  | other
  deriving DecidableEq, Repr

structure Header where
  eventType : RowsKind
  /-- The position at which the event ends in its file. -/
  logPos : UInt32
  timestamp : UInt32
  deriving DecidableEq

/-- The values of a row. -/
abbrev Row := List GoValue

inductive Body where
  | rotate (nextLogName : Bytes)
  | query (schema query : Bytes)
  | rows (schema table : Bytes) (rows : List Row)
  | xid
  /-- The server identifier has 16 bytes. -/
  | gtid (sid : Bytes) (gno : Int64)
  | mariadbGTID (domainID serverID : UInt32) (sequenceNumber : UInt64)
  /-- Table maps, whose column types nothing reads, and all other events. -/
  | other

/-- A binlog event as the syncer handles it, with the answers it gets meanwhile. -/
structure Arrival where
  header : Header
  body : Body
  file : Bytes
  startPos : ℕ
  /-- The readings of the clock, in order. -/
  now : ℕ → Time
  /-- The answer of the schema cache; `none` is an error. -/
  cached : Option TableInfo

/-- A change in the binlog: the how manieth change of the event that starts at a position. -/
structure Change where
  file : Bytes
  startPos : ℕ
  index : ℕ
  deriving DecidableEq, Repr

/-- A change of a binlog event. -/
def Arrival.change (a : Arrival) (index : ℕ) : Change := ⟨a.file, a.startPos, index⟩

/-! ## The syncer -/

/-- What a syncer knows and has stored about table definitions. -/
structure SchemaState where
  /-- The table definitions, if they are configured. -/
  tables : Option Tables
  /-- The schema history in the target store. -/
  history : List StoredRow

/-- The state of a syncer, apart from its position. -/
structure Syncer where
  currentFile : Bytes
  schema : SchemaState

/-- In what the MySQL and the MariaDB syncer differ. -/
structure Flavor where
  connector : Bytes
  /-- The commit time of a position, from the time in the header and the clock. -/
  commitTime : Time → Time → Time
  fieldType : Bytes → Bytes
  /-- The handlers save the position once all events are sent. -/
  savesPosition : Bool
  /-- The transaction that a body writes into the position. -/
  transaction : Body → Option Bytes
  /-- The part of `handleQueryEvent` that updates the table definitions and the history: with the
  parser, whether there is a store, the query, what was parsed, and the position. -/
  applyQuery : DDLParser → Bool → Bytes → DDLResult → Position → SchemaState → SchemaState

/-- What a syncer is started with. -/
structure Config where
  flavor : Flavor
  shouldCapture : Bytes → Bytes → Bool
  parser : Option DDLParser
  hasStore : Bool
  /-- The offset of the local time zone at an instant. -/
  zone : ℤ → ℤ

def isDDL (query : Bytes) : Bool :=
  [lit "CREATE ", lit "ALTER ", lit "DROP ", lit "TRUNCATE ", lit "RENAME "].any fun word =>
    Text.hasPrefixFold (Text.trimSpace query) word

namespace Config

variable (cfg : Config)

/-- `time.Unix(sec, 0)`. -/
def unixTime (sec : UInt32) : Time :=
  { unixSec := sec.toNat, nsec := 0, offset := cfg.zone sec.toNat }

variable (s : Syncer) (a : Arrival) (database table : Bytes)

/-- The position at the end of an event; `reading` is the clock's. -/
def positionAfter (header : Header) (reading : Time) : Position :=
  { Position.zero with
    binlogFile := s.currentFile
    binlogPos := header.logPos
    commitTime := cfg.flavor.commitTime (cfg.unixTime header.timestamp) reading }

/-- `buildRowData`: the columns by position, as far as there are values. -/
def buildRowData (columns : List ColumnInfo) (values : Row) : RowData :=
  { fields := some <| (columns.zip values).foldl (fun fields (col, value) =>
      fields.insert col.name
        { name := col.name
          value := value
          type := cfg.flavor.fieldType col.type
          null := false }) [] }

/-- The rows of an update, in pairs; a last row without a partner is dropped. -/
def pairs : List Row → List (Row × Row)
  | before :: after :: rest => (before, after) :: pairs rest
  -- The loop of the source steps by two and stops when the second row would be missing.
  | _ => []

/-- The row before and the row after each change of a rows event. -/
def splitRows : EventType → List Row → List (Option Row × Option Row)
  | .insert, rows => rows.map fun r => (none, some r)
  | .update, rows => (pairs rows).map fun (b, a) => (some b, some a)
  | .delete, rows => rows.map fun r => (some r, none)
  | _, _ => []

/-- `buildChangeEvents`. The clock is read twice for each event. -/
def buildChangeEvents (eventType : EventType) (tableInfo : TableInfo) (rows : List Row) :
    List ChangeEvent :=
  -- A missing side of a change stays the zero row, with a nil map.
  let rowData := fun row : Option Row => (row.map (cfg.buildRowData tableInfo.columns)).getD .zero
  (splitRows eventType rows).zipIdx.map fun ((before, after), i) =>
    { ChangeEvent.zero with
      id := generateEventID cfg.flavor.connector [] (a.now (2 * i)) a.header.logPos.toNat
      type := eventType
      source := { SourceInfo.zero with
        connector := cfg.flavor.connector, database := tableInfo.database }
      table := tableInfo
      timestamp := cfg.unixTime a.header.timestamp
      before := rowData before
      after := rowData after
      position := cfg.positionAfter s a.header (a.now (2 * i + 1)) }

/-- The event type of a rows event, `none` for the types that are not handled. -/
def rowsEventType : RowsKind → Option EventType
  | .writeRowsV1 | .writeRowsV2 => some .insert
  | .updateRowsV1 | .updateRowsV2 => some .update
  | .deleteRowsV1 | .deleteRowsV2 => some .delete
  | .other => none

/-- The definition of a table: from the table definitions, else from the schema cache, else only
its name. -/
def tableSchema : TableInfo :=
  ((s.schema.tables.bind fun t => t.get database table).or a.cached).getD
    { TableInfo.zero with database := database, table := table }

/-- Set the position to one of an event, and send the event. -/
def deliver (ev : ChangeEvent) (index : ℕ) : List (Action Position Change ChangeEvent) :=
  [.setMark fun _ => ev.position, .send (a.change index) ev]

/-- Save a position in the store, where the flavor does that. -/
def saveCurrentPosition (p : Position) : List (Action Position Change ChangeEvent) :=
  if cfg.flavor.savesPosition && cfg.hasStore then [.save p] else []

/-- `handleRowsEvent`. The rows of an event of a type that is not handled are left out. -/
def handleRowsEvent (rows : List Row) : List (Action Position Change ChangeEvent) :=
  if !cfg.shouldCapture database table then []
  else
    match rowsEventType a.header.eventType with
    -- The default case returns before any position is set.
    | none => (List.range rows.length).map fun i => .skip (a.change i)
    | some eventType =>
      let events := cfg.buildChangeEvents s a eventType (tableSchema s a database table) rows
      -- A failed send drops what is left of the program, so the save is not reached then.
      events.zipIdx.flatMap (fun (ev, i) => deliver a ev i) ++
        (events.getLast?.elim [] fun last => cfg.saveCurrentPosition last.position)

/-- What `Parse` gives for a query: the first result. -/
def parseQuery (query : Bytes) : Option DDLResult :=
  cfg.parser.bind fun p => (p.parse query).bind List.head?

/-- The event that `handleQueryEvent` builds. -/
def ddlEvent (database query : Bytes) : ChangeEvent :=
  let parsed := cfg.parseQuery query
  { ChangeEvent.zero with
    id := generateEventID cfg.flavor.connector [] (a.now 0) a.header.logPos.toNat
    type := .ddl
    source := { SourceInfo.zero with connector := cfg.flavor.connector, database := database }
    timestamp := cfg.unixTime a.header.timestamp
    position := cfg.positionAfter s a.header (a.now 1)
    table := parsed.elim .zero fun r =>
      { TableInfo.zero with database := r.database, table := r.table }
    metadata :=
      match parsed with
      | none => GoMap.insert [] (lit "ddl") query
      | some r =>
        [(lit "ddl", query), (lit "ddlType", r.type.name), (lit "ddlDatabase", r.database),
          (lit "ddlTable", r.table), (lit "ddlStatement", r.statement)].foldl
            (fun m (k, v) => GoMap.insert m k v) [] }

def handleQueryEvent (database query : Bytes) :
    Syncer × List (Action Position Change ChangeEvent) :=
  if !isDDL query then (s, [])
  else
    let ev := cfg.ddlEvent s a database query
    -- The definitions change before the event is sent, and whether or not the send succeeds.
    let schema :=
      match cfg.parser, cfg.parseQuery query with
      | some parser, some r =>
        -- Statements about databases have no table name.
        if r.table = [] then s.schema
        else cfg.flavor.applyQuery parser cfg.hasStore query r ev.position s.schema
      | _, _ => s.schema
    ({ s with schema := schema }, deliver a ev 0 ++ cfg.saveCurrentPosition ev.position)

/-- `handleGTIDEvent` and `handleMariaDBGTIDEvent`: the transaction is written into the position, if
missing into an empty one. -/
def handleGTIDEvent (body : Body) : List (Action Position Change ChangeEvent) :=
  match cfg.flavor.transaction body with
  | none => []
  | some txID => [.setMark fun p => { p.getD .zero with txID := txID }]

def handleXIDEvent : List (Action Position Change ChangeEvent) :=
  let p := cfg.positionAfter s a.header (a.now 0)
  [.setMark fun _ => p]

def processEvent : Syncer × List (Action Position Change ChangeEvent) :=
  match a.body with
  -- A rotation changes the file for the positions to come, not the position that is set.
  | .rotate nextLogName => ({ s with currentFile := nextLogName }, [])
  | .query schema query => cfg.handleQueryEvent s a schema query
  | .rows schema table rows => (s, cfg.handleRowsEvent s a schema table rows)
  | .xid => (s, cfg.handleXIDEvent s a)
  | .gtid sid gno => (s, cfg.handleGTIDEvent (.gtid sid gno))
  | .mariadbGTID domainID serverID sequenceNumber =>
    (s, cfg.handleGTIDEvent (.mariadbGTID domainID serverID sequenceNumber))
  | .other => (s, [])

/-- The changes of an event that the syncer is to capture. -/
def changes : List Change :=
  match a.body with
  | .query _ query => if isDDL query then [a.change 0] else []
  | .rows schema table rows =>
    if cfg.shouldCapture schema table then
      -- The pairs of an update are one change each.
      let count := (rowsEventType a.header.eventType).elim rows.length
        fun eventType => (splitRows eventType rows).length
      (List.range count).map a.change
    else []
  | _ => []

end Config

end DataStream.Source.Binlog
