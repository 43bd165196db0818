import DataStream.Source.MongoDB.Connector
import DataStream.Source.MySQL.BinlogSyncer
import DataStream.Source.Oracle.LogMiner
import DataStream.Source.Postgres.Relations
import DataStream.Source.SyncScope

/-!
# Events outside the sync scope

A connector handles the messages of its source while `AddTables` and `RemoveTables` edit its sync
scope. Each event that it emits should concern a table that the scope includes at that moment.

The MySQL syncer checks rows against a copy of the scope, which is replaced only after the scope has
changed; statements it does not check at all. The other three connectors keep the scope and never
look at it.

* `inScope_run`: when the events of a run stay in the scope.
-/

namespace DataStream.Source.ScopeLeaks

open Event DDL List Option SyncScope Binlog

/-! ## Connectors with a scope -/

/-- An event with the table that it concerns. -/
structure Emission where
  database : Bytes
  table : Bytes
  event : ChangeEvent

/-- How a connector handles a message of its source. -/
structure Connector where
  /-- What the connector keeps. -/
  State : Type
  /-- What it gets from its source. -/
  Message : Type
  /-- The handling of a message, given the copy of the scope that the connector looks at. -/
  handle : Option SyncScope → State → Message → State × List Emission

/-- A connector that runs, with its scope and the copy of the scope. -/
structure Running (c : Connector) where
  scope : Option SyncScope
  copy : Option SyncScope
  state : c.State

/-- A step. The edits are cut where they release the lock, before the copy is replaced. -/
inductive Move (c : Connector) where
  | addTables (tables : List Bytes)
  | removeTables (tables : List Bytes)
  | updateSyncScope
  | handle (message : c.Message)

def machine (c : Connector) : Machine (Running c) (Move c) Emission where
  step r
    | .addTables tables => ({ r with scope := (addTables tables r.scope).1 }, [])
    | .removeTables tables => ({ r with scope := (removeTables tables r.scope).1 }, [])
    | .updateSyncScope => ({ r with copy := r.scope }, [])
    | .handle message =>
      ({ r with state := (c.handle r.copy r.state message).1 }, (c.handle r.copy r.state message).2)

/-! ## The four connectors -/

def sends {P X V : Type} (program : List (Delivery.Action P X V)) : List V :=
  program.filterMap fun
    | .send _ v => some v
    | _ => none

/-- What the MySQL connector is configured with. -/
structure MySQLConfig where
  /-- The filter by the databases and tables of the configuration. -/
  legacy : Bytes → Bytes → Bool
  parser : Option DDLParser
  hasStore : Bool
  /-- The offset of the local time zone at an instant. -/
  zone : ℤ → ℤ

namespace MySQLConfig

variable (cfg : MySQLConfig) (compile : Regexp)

def syncer (copy : Option SyncScope) : Config :=
  MySQL.newBinlogSyncer (shouldCapture compile cfg.legacy copy) cfg.parser cfg.hasStore cfg.zone

/-- What `Parse` gives for a statement: the first result. -/
def parseQuery (query : Bytes) : Option DDLResult :=
  cfg.parser.bind fun p => (p.parse query).bind List.head?

/-- The table that a binlog event concerns. A statement without a database is about the current
one. -/
def concerned : Body → Bytes × Bytes
  | .rows schema table _ => (schema, table)
  | .query schema query =>
    match cfg.parseQuery query with
    | none => (schema, [])
    | some r => (if r.database = [] then schema else r.database, r.table)
  | _ => ([], [])

/-- The MySQL connector. -/
def connector : Connector where
  State := Syncer
  Message := Arrival
  handle copy s a :=
    let handled := (cfg.syncer compile copy).processEvent s a
    (handled.1, (sends handled.2).map fun ev =>
      { database := (cfg.concerned a.body).1, table := (cfg.concerned a.body).2, event := ev })

end MySQLConfig

/-- A message of the PostgreSQL connector, with what its handler reads meanwhile. -/
structure PostgresMessage where
  env : Postgres.Env
  currentLSN : UInt64
  message : Postgres.Message

/-- The table that an event of a message concerns: that of the relation. -/
def concernedRelation (cfg : Postgres.Config) (h : Postgres.Handler) (ev : ChangeEvent) :
    Postgres.Message → Bytes × Bytes
  | .insert id _ | .update id _ _ | .delete id _ =>
    (cfg.database, ((h.relations id).map Postgres.RelationMessage.relationName).getD [])
  | _ => (ev.table.database, ev.table.table)

def postgres (cfg : Postgres.Config) : Connector where
  State := Postgres.Handler
  Message := PostgresMessage
  handle _ h msg :=
    let handled := h.handleMessage cfg msg.env msg.currentLSN msg.message
    (handled.state, handled.sent.map fun ev =>
      { database := (concernedRelation cfg h ev msg.message).1
        table := (concernedRelation cfg h ev msg.message).2
        event := ev })

/-- A step of `pollChanges`. -/
inductive OracleMessage where
  | read (poll : Oracle.Poll)
  /-- The next change is handled and sent. -/
  | next

/-- The Oracle connector, with the changes that were read and are still to be sent. -/
def oracle (cfg : Oracle.Config) : Connector where
  State := Oracle.Poller × List (Oracle.RedoRow × ChangeEvent)
  Message := OracleMessage
  handle _ s
    | .read poll =>
      match s.2 with
      | [] => ((Oracle.poller cfg).step s.1 poll, [])
      -- The next poll is made once all changes are sent.
      | _ :: _ => (s, [])
    | .next =>
      match s.2 with
      | [] => (s, [])
      | (row, ev) :: rest =>
        ((s.1, rest), [{ database := row.segOwner, table := row.tableName, event := ev }])

def mongodb (cfg : MongoDB.Config) : Connector where
  State := Unit
  Message := MongoDB.Element
  handle _ s e :=
    let handled := cfg.handleElement s e
    (handled.1, (sends handled.2).map fun ev =>
      { database := ev.table.database, table := ev.table.table, event := ev })

inductive Kind where
  | mysql (cfg : MySQLConfig)
  | postgres (cfg : Postgres.Config)
  | oracle (cfg : Oracle.Config)
  | mongodb (cfg : MongoDB.Config)

def Kind.connector (compile : Regexp) : Kind → Connector
  | .mysql cfg => cfg.connector compile
  | .postgres cfg => ScopeLeaks.postgres cfg
  | .oracle cfg => ScopeLeaks.oracle cfg
  | .mongodb cfg => ScopeLeaks.mongodb cfg

/-! ## What stays in the scope -/

/-- Every event of the step concerns a table that the scope includes when it is handled. -/
def InScope {c : Connector} (compile : Regexp) (r : Running c) (move : Move c) : Prop :=
  ∀ e ∈ ((machine c).step r move).2, includes compile r.scope e.database e.table = true

section Within

variable (compile : Regexp) (scope : Option SyncScope)

/-- A binlog event: a statement concerns an included table, and the rows of a table that the copy of
the scope captures are those of an included one. -/
def WithinMySQL (cfg : MySQLConfig) (copy : Option SyncScope) (a : Arrival) : Prop :=
  match a.body with
  | .query _ query =>
    isDDL query = true →
      includes compile scope (cfg.concerned a.body).1 (cfg.concerned a.body).2 = true
  | .rows schema table _ =>
    shouldCapture compile cfg.legacy copy schema table = true →
      includes compile scope schema table = true
  | _ => True

/-- A relation that the configuration captures is in the scope. -/
def RelationWithin (cfg : Postgres.Config) (h : Postgres.Handler) (id : UInt32) : Prop :=
  ∀ relation, h.relations id = some relation →
    cfg.shouldCapture relation.namespaceName relation.relationName = true →
      includes compile scope cfg.database relation.relationName = true

/-- A replication message is about relations in the scope. A handler without a context sends
nothing. -/
def WithinPostgres (cfg : Postgres.Config) (h : Postgres.Handler) (msg : Postgres.Message) : Prop :=
  h.ctx = true →
    match msg with
    | .insert id _ | .update id _ _ | .delete id _ => RelationWithin compile scope cfg h id
    | .truncate ids => ∀ id ∈ ids, RelationWithin compile scope cfg h id
    | .relation relation => includes compile scope cfg.database relation.relationName = true
    | _ => True

/-- The next change is of a table in the scope. -/
def WithinOracle (changes : List (Oracle.RedoRow × ChangeEvent)) : OracleMessage → Prop
  | .next => ∀ change ∈ changes.head?,
      includes compile scope change.1.segOwner change.1.tableName = true
  | .read _ => True

/-- The change is of a collection in the scope. -/
def WithinMongoDB (e : MongoDB.Element) : Prop :=
  ∀ doc ∈ e.document, includes compile scope doc.database doc.collection = true

end Within

/-- What a source hands to the connector is about tables in the scope. -/
def Kind.Within (compile : Regexp) :
    (k : Kind) → Running (k.connector compile) → Move (k.connector compile) → Prop
  | .mysql cfg, r, .handle a => WithinMySQL compile r.scope cfg r.copy a
  | .postgres cfg, r, .handle msg =>
    WithinPostgres compile r.scope cfg (show Postgres.Handler from r.state)
      (show PostgresMessage from msg).message
  | .oracle _, r, .handle msg =>
    WithinOracle compile r.scope
      (show Oracle.Poller × List (Oracle.RedoRow × ChangeEvent) from r.state).2 msg
  | .mongodb _, r, .handle e => WithinMongoDB compile r.scope e
  | _, _, _ => True

/-! ## The events of a message -/

section Handle

variable {compile : Regexp} {scope : Option SyncScope} {s : Syncer} {a : Arrival}

lemma shouldCapture_of_mem_sends {cfg : Config} {database table : Bytes}
    {rows : List Row} {ev : ChangeEvent}
    (hev : ev ∈ sends (cfg.handleRowsEvent s a database table rows)) :
    cfg.shouldCapture database table = true := by
  by_contra hcapture
  rw [Bool.not_eq_true] at hcapture
  rw [Config.handleRowsEvent, hcapture] at hev
  exact nomatch hev

lemma isDDL_of_mem_sends {cfg : Config} {database query : Bytes} {ev : ChangeEvent}
    (hev : ev ∈ sends (cfg.handleQueryEvent s a database query).2) : isDDL query = true := by
  by_contra hddl
  rw [Bool.not_eq_true] at hddl
  rw [Config.handleQueryEvent, hddl] at hev
  exact nomatch hev

lemma WithinMySQL.includes {cfg : MySQLConfig} {copy : Option SyncScope}
    (h : WithinMySQL compile scope cfg copy a) :
    ∀ e ∈ ((cfg.connector compile).handle copy s a).2,
      includes compile scope e.database e.table = true := by
  intro e he
  obtain ⟨ev, hev, rfl⟩ := List.mem_map.mp he
  rw [Config.processEvent] at hev
  rw [WithinMySQL] at h
  rcases hbody : a.body with _ | ⟨schema, query⟩ | ⟨schema, table, rows⟩ | _ | _ | _ | _ <;>
    simp only [hbody] at hev h
  case query => exact h (isDDL_of_mem_sends hev)
  case rows => exact h (shouldCapture_of_mem_sends hev)
  -- The other events set the position at most.
  all_goals exact nomatch hev

lemma WithinPostgres.includes {cfg : Postgres.Config} {h : Postgres.Handler}
    {msg : PostgresMessage} (hwithin : WithinPostgres compile scope cfg h msg.message) :
    ∀ e ∈ ((postgres cfg).handle none h msg).2,
      includes compile scope e.database e.table = true := by
  intro e he
  obtain ⟨ev, hev, rfl⟩ := List.mem_map.mp he
  have hctx : h.ctx = true := by
    by_contra hctx
    rw [Bool.not_eq_true] at hctx
    rw [(Postgres.Handler.handleMessage_of_ctx_eq_false _ _ _ hctx _).1] at hev
    exact nomatch hev
  replace hwithin := hwithin hctx
  replace hev := Postgres.Handler.sent_subset_made _ hev
  obtain ⟨env, currentLSN, message⟩ := msg
  rcases message with _ | _ | relation | _ | _ | _ | ids | _
  case insert | update | delete =>
    -- A row event takes its table from the relation of its identifier.
    obtain ⟨relation, -, hrelation, hcapture, -⟩ := Postgres.Handler.mem_handleRow_made_iff.mp hev
    simpa only [concernedRelation, hrelation, map_some, getD_some] using
      hwithin relation hrelation hcapture
  case relation =>
    obtain ⟨-, hdatabase, htable, -⟩ := Postgres.Handler.eq_of_mem_handleRelation hev
    simpa only [concernedRelation, hdatabase, htable] using hwithin
  case truncate =>
    obtain ⟨id, hid, relation, hrelation, hcapture, rfl⟩ :=
      Postgres.Handler.exists_of_mem_handleTruncate hev
    exact hwithin id hid relation hrelation hcapture
  all_goals exact nomatch hev

lemma WithinOracle.includes {cfg : Oracle.Config}
    {s : Oracle.Poller × List (Oracle.RedoRow × ChangeEvent)} {msg : OracleMessage}
    (h : WithinOracle compile scope s.2 msg) :
    ∀ e ∈ ((oracle cfg).handle none s msg).2, includes compile scope e.database e.table = true := by
  obtain ⟨poller, changes⟩ := s
  rcases msg with poll | _ <;> rcases changes with _ | ⟨change, rest⟩
  · exact forall_mem_nil _
  · exact forall_mem_nil _
  · exact forall_mem_nil _
  · exact forall_mem_singleton.mpr (h change rfl)

lemma WithinMongoDB.includes {cfg : MongoDB.Config} {e : MongoDB.Element}
    (h : WithinMongoDB compile scope e) :
    ∀ e' ∈ ((mongodb cfg).handle none () e).2,
      includes compile scope e'.database e'.table = true := by
  intro e' he'
  obtain ⟨ev, hev, rfl⟩ := List.mem_map.mp he'
  rw [MongoDB.Config.handleElement] at hev
  rcases hdoc : e.document with _ | doc
  · rw [hdoc] at hev
    exact nomatch hev
  · have hevent : ev = cfg.streamEvent e.resumeToken doc := by
      rw [hdoc] at hev
      rcases hstore : cfg.hasStore with _ | _ <;> simpa [sends, hstore] using hev
    rw [hevent]
    exact h doc hdoc

end Handle

/-- A step whose message is about tables in the scope emits events of such tables only. -/
theorem emits_of_within {compile : Regexp} {k : Kind} {r : Running (k.connector compile)}
    {move : Move (k.connector compile)} (h : k.Within compile r move) : InScope compile r move := by
  rcases move with _ | _ | _ | message
  · exact forall_mem_nil _
  · exact forall_mem_nil _
  · exact forall_mem_nil _
  · rcases k with cfg | cfg | cfg | cfg
    · exact WithinMySQL.includes h
    · exact WithinPostgres.includes h
    · exact WithinOracle.includes h
    · exact WithinMongoDB.includes h

/-- **No source leaks tables outside its scope** in a run in which what it hands to the connector is
about tables in the scope. -/
theorem inScope_run {compile : Regexp} {k : Kind} {r : Running (k.connector compile)}
    {moves : List (Move (k.connector compile))}
    (h : (machine (k.connector compile)).Meets (k.Within compile) r moves) :
    (machine (k.connector compile)).Meets (InScope compile) r moves :=
  (machine (k.connector compile)).meets_imp (fun _ _ hmove => emits_of_within hmove) h

def ordersScope : SyncScope where
  level := .table
  databases := ⟨[], [], []⟩
  tables := ⟨[lit "shop.orders"]⟩

/-- No patterns compile; a scope of tables has none. -/
def noRegexp : Regexp := fun _ => none

/-- A MySQL connector without a parser and a store. -/
def plainMySQL : MySQLConfig where
  legacy _ _ := true
  parser := none
  hasStore := false
  zone _ := 0

/-- The connector with the scope and an up-to-date copy. -/
def ordersConnector : Running ((Kind.mysql plainMySQL).connector noRegexp) where
  scope := some ordersScope
  copy := some ordersScope
  state := { currentFile := lit "binlog.000001", schema := { tables := none, history := [] } }

/-- A binlog event. -/
def arrival (body : Body) : Arrival where
  header := { eventType := .writeRowsV2, logPos := 100, timestamp := 0 }
  body := body
  file := lit "binlog.000001"
  startPos := 4
  now _ := { unixSec := 0, nsec := 0, offset := 0 }
  cached := none

/-- A row of `shop.orders` is inserted, the table is removed from the scope, and another row is
inserted. -/
theorem inScope_removeOrders :
    (machine ((Kind.mysql plainMySQL).connector noRegexp)).Meets (InScope noRegexp) ordersConnector
      [.handle (arrival (.rows (lit "shop") (lit "orders") [[]])),
        .removeTables [lit "shop.orders"], .updateSyncScope,
        .handle (arrival (.rows (lit "shop") (lit "orders") [[]]))] := by
  refine inScope_run ⟨fun _ => ?_, trivial, trivial, fun hcaptured => ?_, trivial⟩
  · change includes noRegexp (some ordersScope) (lit "shop") (lit "orders") = true
    decide
  · exact includes_of_shouldCapture hcaptured

def leadsRow : Oracle.RedoRow := { Oracle.ordersRow 11 5 (lit "DROP TABLE LEADS") with
  tableName := lit "LEADS", segOwner := lit "CRM" }

/-- A created collection outside the scope. -/
def leadsElement : MongoDB.Element where
  resumeToken := lit "t"
  document := some
    { operationType := lit "create", database := lit "crm", collection := lit "leads",
      fullDocument := .absent, fullDocumentBefore := .absent, documentKey := .absent,
      clusterTime := (0, 0) }

/-- A statement about another database, a row that is handled between the removal of its table and
the update of the copy, and a redo row and a change of a collection outside the scope. -/
theorem not_forall_inScope :
    (¬∀ moves, (machine ((Kind.mysql plainMySQL).connector noRegexp)).Meets (InScope noRegexp)
      ordersConnector moves) ∧
    (∃ schema table rows, ¬(machine ((Kind.mysql plainMySQL).connector noRegexp)).Meets
      (InScope noRegexp) ordersConnector
      [.removeTables [lit "shop.orders"], .handle (arrival (.rows schema table rows))]) ∧
    (¬∀ moves, (machine ((Kind.oracle ⟨[], 10⟩).connector noRegexp)).Meets (InScope noRegexp)
      { scope := some ordersScope, copy := none, state := (⟨10, false⟩, []) } moves) ∧
    ¬∀ moves, (machine ((Kind.mongodb ⟨false, fun _ => 0⟩).connector noRegexp)).Meets
      (InScope noRegexp) { scope := some ordersScope, copy := none, state := () } moves := by
  refine ⟨fun h => ?_, ⟨lit "shop", lit "orders", [[]], fun h => ?_⟩, fun h => ?_, fun h => ?_⟩
  · have hleak := (h [.handle (arrival (.query (lit "crm") (lit "DROP TABLE leads")))]).1 _
      mem_cons_self
    exact absurd hleak (by decide)
  · have hleak := h.2.1 _ mem_cons_self
    exact absurd hleak (by decide)
  · have hleak := (h [.handle (.read ⟨20, [leadsRow]⟩), .handle .next]).2.1 _ mem_cons_self
    exact absurd hleak (by decide)
  · have hleak := (h [.handle leadsElement]).1 _ mem_cons_self
    exact absurd hleak (by decide)

end DataStream.Source.ScopeLeaks
