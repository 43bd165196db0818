import DataStream.Foundations.GoMap
import DataStream.Source.MariaDB.BinlogSyncer
import DataStream.Source.MySQL.BinlogSyncer
import DataStream.Source.SyncScope

/-!
# Discovery of new tables

`source.DatabaseDiscovery`: DDL events of a connector are passed to `OnDDLEvent`, which keeps track
of the databases and tables and adds a new table to the connector.

The type of a statement is read from the metadata under `ddl_type`. The binlog syncers write it
under `ddlType`, so nothing comes of their events. Besides, a connector adds tables only to a scope
of tables, and the discovery of tables is for scopes of databases.

* `not_picksUp`: no new table is picked up.
-/

namespace DataStream.Source

open Event DDL List Binlog

/-! ## The program -/

inductive DiscoveryType where
  | databaseCreated
  | databaseDropped
  | tableCreated
  | tableDropped
  | tableAltered
  deriving DecidableEq, Repr

/-- `DatabaseDiscovery`, with the scope of its connector. -/
structure DatabaseDiscovery where
  scope : SyncScope
  /-- The scope that the connector holds, if there is a connector. -/
  connector : Option (Option SyncScope)
  knownDBs : List Bytes
  knownTables : List Bytes
  /-- The number of events in the channel. -/
  queued : ℕ
  eventChClosed : Bool
  running : Bool
  deriving DecidableEq, Repr

/-- What `OnDDLEvent` does that can be seen from outside. -/
inductive DiscoveryEffect where
  /-- A `DiscoveryEvent` is put into the channel. -/
  | notify (type : DiscoveryType) (database table : Bytes)
  /-- `AddTables` is called for a table; `ok` says whether it returned nil. -/
  | addTables (table : Bytes) (ok : Bool)
  deriving DecidableEq, Repr

namespace DatabaseDiscovery

variable (d : DatabaseDiscovery)

def eventChCapacity : ℕ := 64

variable (type : DiscoveryType)

/-- `emit`: an event is dropped if the channel is closed or full. -/
def emit (database table : Bytes) : DatabaseDiscovery × List DiscoveryEffect :=
  if d.eventChClosed || eventChCapacity ≤ d.queued then (d, [])
  else ({ d with queued := d.queued + 1 }, [.notify type database table])

variable (compile : Regexp) (cfg : Config) (s : Syncer) (a : Arrival) (database query : Bytes)

/-- The call of `AddTables` for a new table. -/
def addToConnector (database table : Bytes) : DatabaseDiscovery × List DiscoveryEffect :=
  if d.scope.databases.isWildcardDatabase &&
      d.scope.databases.shouldSyncTable compile database table && d.running then
    match d.connector with
    | none => (d, [])
    | some scope =>
      let added := SyncScope.addTables [fullName database table] scope
      ({ d with connector := some added.1 }, [.addTables (fullName database table) added.2])
  else (d, [])

variable (e : ChangeEvent)

/-- `resolveDDLType`; `none` is an error. -/
def resolveDDLType : Option Bytes := e.metadata.get? (lit "ddl_type")

def onCreateTable (database table : Bytes) : DatabaseDiscovery × List DiscoveryEffect :=
  if !d.scope.databases.shouldSyncDatabase database then (d, [])
  else if d.knownTables.any fun key => key = fullName database table then (d, [])
  else
    let d := { d with knownTables := fullName database table :: d.knownTables }
    let (d, notified) := d.emit .tableCreated database table
    let (d, added) := d.addToConnector compile database table
    (d, notified ++ added)

def onDDLEvent : DatabaseDiscovery × List DiscoveryEffect :=
  if e.type ≠ .ddl then (d, [])
  else
    let database := e.table.database
    let table := e.table.table
    match resolveDDLType e with
    | none => (d, [])
    | some ddlType =>
      if ddlType = DDLType.createDatabase.name then
        if d.scope.databases.isWildcardDatabase && !(d.knownDBs.any fun db => db = database) then
          { d with knownDBs := database :: d.knownDBs }.emit .databaseCreated database []
        else (d, [])
      else if ddlType = DDLType.dropDatabase.name then
        if d.knownDBs.any fun db => db = database then
          { d with
            knownDBs := d.knownDBs.filter fun db => db ≠ database
            -- The tables of the database go with it.
            knownTables := d.knownTables.filter fun key =>
              !(database ++ lit ".").isPrefixOf key }.emit .databaseDropped database []
        else (d, [])
      else if ddlType = DDLType.createTable.name then d.onCreateTable compile database table
      else if ddlType = DDLType.dropTable.name then
        if d.scope.databases.shouldSyncDatabase database &&
            d.knownTables.any fun key => key = fullName database table then
          { d with
            knownTables := d.knownTables.filter fun key => key ≠ fullName database table }.emit
              .tableDropped database table
        else (d, [])
      else if ddlType = DDLType.alterTable.name then
        if d.scope.databases.shouldSyncDatabase database then d.emit .tableAltered database table
        else (d, [])
      else (d, [])

/-! ## What is picked up -/

/-- The event makes the table known, and `AddTables` is called for it and returns nil. -/
def PicksUp : Prop :=
  fullName e.table.database e.table.table ∈ (d.onDDLEvent compile e).1.knownTables ∧
    .addTables (fullName e.table.database e.table.table) true ∈ (d.onDDLEvent compile e).2

lemma resolveDDLType_ddlEvent : resolveDDLType (cfg.ddlEvent s a database query) = none := by
  rw [resolveDDLType, Config.ddlEvent]
  rcases cfg.parseQuery query with _ | r
  · exact GoMap.get?_insert_of_ne _ (by decide) _
  · -- None of the five keys is the one that is looked for.
    simp only [foldl_cons, foldl_nil]
    rfl

/-- An event of a binlog syncer is passed over. -/
theorem onDDLEvent_ddlEvent : d.onDDLEvent compile (cfg.ddlEvent s a database query) = (d, []) := by
  rw [onDDLEvent, resolveDDLType_ddlEvent]
  split_ifs <;> rfl

/-- **No new table is picked up.** Whatever the statement and the state of the discovery, an event
of the MySQL or the MariaDB source leads to no successful call of `AddTables`. -/
theorem not_picksUp (compile : Regexp) (cfg : Config) (s : Syncer)
    (a : Arrival) (database query : Bytes) :
    ¬d.PicksUp compile (cfg.ddlEvent s a database query) := by
  rintro ⟨-, hcalled⟩
  rw [onDDLEvent_ddlEvent] at hcalled
  exact not_mem_nil hcalled

/-- A discovery of all databases for a connector with the same scope. -/
def ofAll : DatabaseDiscovery where
  scope := { level := .database, databases := ⟨[lit "*"], [], []⟩, tables := ⟨[]⟩ }
  connector := some (some { level := .database, databases := ⟨[lit "*"], [], []⟩, tables := ⟨[]⟩ })
  knownDBs := []
  knownTables := []
  queued := 0
  eventChClosed := false
  running := true

/-- A parser that reads every statement as the creation of `shop.orders`. -/
def ordersParser : DDLParser where
  parse statement := some
    [{ DDLResult.ofType .createTable statement with database := lit "shop", table := lit "orders" }]
  applyDDL _ _ := none

/-- The creation of a table that the scope of all databases includes. -/
theorem not_forall_picksUp :
    ¬∀ (d : DatabaseDiscovery) (compile : Regexp) (cfg : Config) (s : Syncer)
      (a : Arrival) (database query : Bytes) (r : DDLResult),
      d.scope.level = .database → isDDL query = true → cfg.parseQuery query = some r →
      r.type = .createTable → d.scope.databases.shouldSyncTable compile r.database r.table = true →
        d.PicksUp compile (cfg.ddlEvent s a database query) := by
  intro hall
  obtain ⟨-, hcalled⟩ := hall ofAll (fun _ => none)
    (MySQL.newBinlogSyncer (fun _ _ => true) (some ordersParser) false fun _ => 0)
    { currentFile := [], schema := { tables := none, history := [] } }
    { header := { eventType := .other, logPos := 0, timestamp := 0 }, body := .other, file := [],
      startPos := 0, now := fun _ => { unixSec := 0, nsec := 0, offset := 0 }, cached := none }
    (lit "shop") (lit "CREATE TABLE orders (id INT)") _ rfl (by decide) rfl rfl (by decide)
  exact not_mem_nil hcalled

end DatabaseDiscovery

end DataStream.Source
