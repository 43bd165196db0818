import DataStream.Event.ChangeEvent
import DataStream.Foundations.Hex
import DataStream.Foundations.Machine
import DataStream.Schema.Tables

/-!
# The pgoutput handler

`postgres.PGOutputHandler` turns logical replication messages into change events: it remembers the
relation messages, follows the table definitions, and puts one event on the connector's channel
for every captured row change.

`NewPGOutputHandler` does not store the context it is given. The select statements that send an
event evaluate `h.ctx.Done()` before anything else, and on the nil context this panics.

* `neverPanics_iff`: the messages that a new handler returns from.
-/

namespace DataStream.Source.Postgres

open Event Schema Function

/-! ## Messages -/

structure RelationColumn where
  flags : UInt8
  name : Bytes
  /-- The object identifier of the type. -/
  dataType : UInt32
  deriving DecidableEq

/-- A relation message: the definition of a table, under an identifier. -/
structure RelationMessage where
  relationID : UInt32
  /-- The schema of the table. -/
  namespaceName : Bytes
  relationName : Bytes
  columns : List RelationColumn
  deriving DecidableEq

/-- How a column of a tuple is sent. -/
inductive TupleDataType where
  | null
  | unchanged
  | text
  | binary
  deriving DecidableEq

/-- A column of a tuple. -/
structure TupleColumn where
  dataType : TupleDataType
  data : Bytes
  deriving DecidableEq

/-- A row, as the columns that are sent of it. -/
abbrev TupleData := List TupleColumn

/-- A decoded logical replication message; `none` is a nil tuple. -/
inductive Message where
  | begin (finalLSN : UInt64) (xid : UInt32)
  | commit (commitLSN : UInt64) (commitTime : Time)
  | relation (msg : RelationMessage)
  | insert (relationID : UInt32) (tuple : Option TupleData)
  | update (relationID : UInt32) (oldTuple newTuple : Option TupleData)
  | delete (relationID : UInt32) (oldTuple : Option TupleData)
  | truncate (relationIDs : List UInt32)
  /-- Type, origin, logical decoding and unknown messages. -/
  | ignored
  deriving DecidableEq

/-! ## Values -/

/-- `mapPostgresType`: the name of a type by its object identifier. -/
def mapPostgresType (oid : UInt32) : Bytes :=
  match oid.toNat with
  | 16 => lit "bool"
  | 17 => lit "bytea"
  | 18 => lit "char"
  | 19 => lit "name"
  | 20 => lit "int8"
  | 21 => lit "int2"
  | 22 => lit "int2vector"
  | 23 => lit "int4"
  | 24 => lit "regproc"
  | 25 => lit "text"
  | 26 => lit "oid"
  | 700 => lit "float4"
  | 701 => lit "float8"
  | 702 => lit "abstime"
  | 703 => lit "reltime"
  | 704 => lit "tinterval"
  | 790 => lit "money"
  | 1042 => lit "bpchar"
  | 1043 => lit "varchar"
  | 1082 => lit "date"
  | 1083 => lit "time"
  | 1114 => lit "timestamp"
  | 1184 => lit "timestamptz"
  | 1186 => lit "interval"
  | 1700 => lit "numeric"
  | 2950 => lit "uuid"
  | 3802 => lit "jsonb"
  | 114 => lit "json"
  | 142 => lit "xml"
  | _ => lit "unknown"

/-- The signed reading of a number of some bits. -/
def signed (bits n : ℕ) : Int64 :=
  Int64.ofInt (if n < 2 ^ (bits - 1) then (n : ℤ) else (n : ℤ) - 2 ^ bits)

/-- A number rounded to a precision, ties to even, as the conversion to a float does. -/
def roundToPrecision (precision n : ℕ) : ℕ :=
  let shift := n.log2 + 1 - precision
  let quotient := n / 2 ^ shift
  let remainder := n % 2 ^ shift
  -- Above the middle, or at the middle with an odd quotient.
  let up := 2 ^ shift < 2 * remainder ∨ (2 ^ shift = 2 * remainder ∧ quotient % 2 = 1)
  (if up then quotient + 1 else quotient) * 2 ^ shift

/-- `decodeBinaryValue`. A value that is too short, or of another type, stays as bytes. The float
types are not decoded: their bits are converted as an integer. -/
def decodeBinaryValue (data : Bytes) (dataType : UInt32) : GoValue :=
  match dataType.toNat with
  | 16 => match data with
    | b :: _ => .bool (b ≠ 0)
    | [] => .bytes data
  | 21 => if 2 ≤ data.length then .int (signed 16 (Bytes.bigEndian (data.take 2))) else .bytes data
  | 23 => if 4 ≤ data.length then .int (signed 32 (Bytes.bigEndian (data.take 4))) else .bytes data
  | 20 => if 8 ≤ data.length then .int (signed 64 (Bytes.bigEndian (data.take 8))) else .bytes data
  | 700 =>
    if 4 ≤ data.length then
      .float (Bytes.formatNat (roundToPrecision 24 (Bytes.bigEndian (data.take 4))))
    else .bytes data
  | 701 =>
    if 8 ≤ data.length then
      .float (Bytes.formatNat (roundToPrecision 53 (Bytes.bigEndian (data.take 8))))
    else .bytes data
  | _ => .bytes data

def tupleValue (col : RelationColumn) (tupleCol : TupleColumn) : GoValue :=
  match tupleCol.dataType with
  | .null => .nil
  | .text => .string tupleCol.data
  | .binary => decodeBinaryValue tupleCol.data col.dataType
  -- An unchanged column has no case of its own.
  | .unchanged => .nil

/-- `buildRowData`: the fields of the columns that the tuple has; `none` is the panic on a nil
tuple. -/
def buildRowData (relation : RelationMessage) (tuple : Option TupleData) : Option RowData :=
  match tuple, relation.columns with
  -- The tuple is read inside the loop over the columns, so without columns nothing goes wrong.
  | none, _ :: _ => none
  | none, [] => some { fields := some [] }
  | some columns, _ =>
    let fields : GoMap RowField := (relation.columns.zip columns).foldl
      (fun fields (col, tupleCol) => GoMap.insert fields col.name
        { name := col.name
          value := tupleValue col tupleCol
          type := mapPostgresType col.dataType
          null := false }) []
    some { fields := some fields }

/-! ## Table definitions -/

def buildTableInfo (database : Bytes) (relation : RelationMessage) : TableInfo :=
  { TableInfo.zero with
    database
    schema := relation.namespaceName
    table := relation.relationName
    columns := relation.columns.map fun col =>
      { ColumnInfo.zero with
        name := col.name
        type := mapPostgresType col.dataType
        -- The lowest flag is read as "not null", the second one as "part of the primary key".
        nullable := (col.flags &&& (1 : UInt8)) == 0 }
    primaryKeyColumns := (relation.columns.filter fun col => (col.flags &&& (2 : UInt8)) != 0).map
      RelationColumn.name }

/-- `tableSchemasEqual` on tables that exist. -/
def tableSchemasEqual (a b : TableInfo) : Bool :=
  a.columns.length = b.columns.length && a.primaryKeyColumns.length = b.primaryKeyColumns.length &&
    (a.columns.zip b.columns).all (fun (x, y) =>
      x.name = y.name && x.type = y.type && x.nullable = y.nullable) &&
    (a.primaryKeyColumns.zip b.primaryKeyColumns).all fun (x, y) => x = y

/-! ## The handler -/

/-- The configuration that the handler and the connector read. -/
structure Config where
  database : Bytes
  schemas : List Bytes
  /-- Table patterns by schema. -/
  tables : List (Bytes × Bytes)

variable (cfg : Config)

def Config.shouldCapture (schema table : Bytes) : Bool :=
  -- Without a list of schemas everything is captured; the tables are looked at only otherwise.
  cfg.schemas = [] || cfg.schemas.any (fun s => s = schema || s = lit "*") ||
    cfg.tables.any fun (s, pattern) =>
      (s = schema || s = lit "*") && (pattern = lit "*" || pattern = [] || pattern = table)

/-- The state of the handler and the parts of the connector that it writes. -/
structure Handler where
  /-- A context is stored in the handler. -/
  ctx : Bool
  relations : UInt32 → Option RelationMessage
  /-- The transaction in progress: its final position and its identifier. -/
  txInProgress : Option (UInt64 × UInt32)
  /-- The connector's table definitions; `none` if it has none. -/
  tables : Option Tables
  schemaCache : Bytes → Option TableInfo
  position : Option Position

/-- `NewPGOutputHandler`, with the connector's definitions and position. The context argument is
not stored. -/
def newPGOutputHandler (tables : Option Tables) (schemaCache : Bytes → Option TableInfo)
    (position : Option Position) : Handler :=
  { ctx := false, relations := fun _ => none, txInProgress := none, tables, schemaCache, position }

/-- Which case of a sending select statement fires. -/
inductive SelectCase where
  | sent
  | ctxDone (err : Bytes)
  | stopped

/-- What the handler reads from its environment during one message. -/
structure Env where
  now : Time
  /-- The select case for each event the message makes, in order. -/
  select : ℕ → SelectCase
  /-- `ApplyDDL` of the PostgreSQL parser; `none` if it gives no new definition. -/
  applyDDL : Option TableInfo → Bytes → Option TableInfo

/-- The result of handling a message. -/
structure HandlerResult where
  /-- The handler after the message. -/
  state : Handler
  /-- The events given to a sending select, whatever becomes of them. -/
  made : List ChangeEvent
  /-- The events put on the channel. -/
  sent : List ChangeEvent
  /-- What `HandleMessage` returns. -/
  outcome : Outcome

/-- `sendEvent`, the sending select. -/
def Handler.sendEvent (h : Handler) (choice : SelectCase) (ev : ChangeEvent) : HandlerResult :=
  -- The select evaluates `h.ctx.Done()` first, whichever case would fire.
  if !h.ctx then ⟨h, [ev], [], .panic⟩
  else
    match choice with
    | .sent => ⟨h, [ev], [ev], .ok⟩
    | .ctxDone err => ⟨h, [ev], [], .error err⟩
    | .stopped => ⟨h, [ev], [], .error (lit "connector stopped")⟩

variable (env : Env) (currentLSN : UInt64)

def eventPosition : Position :=
  { Position.zero with lsn := currentLSN, commitTime := env.now }

/-- The parts that every event of the handler has. -/
def baseEvent (relationID : UInt32) (type : EventType) (table : TableInfo) : ChangeEvent :=
  { ChangeEvent.zero with
    id := generateEventID (lit "postgres") [] env.now relationID.toNat
    type
    source := { SourceInfo.zero with connector := lit "postgres", database := cfg.database }
    table
    timestamp := env.now
    position := eventPosition env currentLSN }

namespace Handler

variable (cfg : Config) (env : Env) (currentLSN : UInt64) (h : Handler)

def getTableInfo (relation : RelationMessage) : TableInfo :=
  ((h.tables.bind fun tables => tables.get cfg.database relation.relationName)).getD
    (buildTableInfo cfg.database relation)

def handleCommit (commitLSN : UInt64) (commitTime : Time) : Handler :=
  { h with
    position := some { Position.zero with lsn := commitLSN, commitTime }
    txInProgress := none }

/-- `applySchemaChange`, for a connector with table definitions. -/
def applySchemaChange (tables : Tables) (oldTable : Option TableInfo) (newTable : TableInfo)
    (msg : RelationMessage) : HandlerResult :=
  let changeType := if oldTable.isNone then lit "CREATE" else lit "ALTER"
  let ddlText := lit "-- " ++ changeType ++ lit " TABLE detected via relation message: " ++
    msg.namespaceName ++ lit "." ++ msg.relationName
  let result := (env.applyDDL oldTable ddlText).getD newTable
  let ev :=
    { baseEvent cfg env currentLSN msg.relationID .ddl
        { TableInfo.zero with
          database := cfg.database, schema := msg.namespaceName, table := msg.relationName } with
      metadata := [(lit "ddl", ddlText), (lit "ddlDatabase", cfg.database),
        (lit "ddlStatement", ddlText), (lit "ddlTable", msg.relationName),
        (lit "ddlType", changeType)] }
  let send := h.sendEvent (env.select 0) ev
  -- The select of this function has no error to return.
  { send with
    state := { h with tables := some (tables.put result) }
    outcome := if send.outcome = .panic then .panic else .ok }

def handleRelation (msg : RelationMessage) : HandlerResult :=
  let tableInfo := buildTableInfo cfg.database msg
  let key := msg.namespaceName ++ lit "." ++ msg.relationName
  let h := { h with
    relations := update h.relations msg.relationID (some msg)
    schemaCache := update h.schemaCache key (some tableInfo) }
  match h.tables with
  | none => ⟨h, [], [], .ok⟩
  | some tables =>
    -- The definitions have no schema in their key.
    match tables.get cfg.database msg.relationName with
    | none => applySchemaChange cfg env currentLSN h tables none tableInfo msg
    | some oldTable =>
      if tableSchemasEqual oldTable tableInfo then ⟨h, [], [], .ok⟩
      else applySchemaChange cfg env currentLSN h tables (some oldTable) tableInfo msg

variable (relationID : UInt32)

/-- The common part of `handleInsert`, `handleUpdate` and `handleDelete`: find the relation, check
whether it is captured, build the rows and send the event. A `none` row is a panic. -/
def handleRow (type : EventType) (rows : RelationMessage → Option (RowData × RowData)) :
    HandlerResult :=
  match h.relations relationID with
  | none => ⟨h, [], [], .error (lit "unknown relation ID: " ++ Bytes.formatNat relationID.toNat)⟩
  | some relation =>
    if !cfg.shouldCapture relation.namespaceName relation.relationName then ⟨h, [], [], .ok⟩
    else
      match rows relation with
      | none => ⟨h, [], [], .panic⟩
      | some (before, after) =>
        let ev :=
          { baseEvent cfg env currentLSN relationID type (h.getTableInfo cfg relation) with
            before, after }
        h.sendEvent (env.select 0) ev

def noRow : RowData := { fields := none }

/-- The row of a tuple that may be absent. -/
def optionalRow (relation : RelationMessage) : Option TupleData → Option RowData
  | none => some noRow
  | some tuple => buildRowData relation (some tuple)

def handleInsert (tuple : Option TupleData) : HandlerResult :=
  handleRow cfg env currentLSN h relationID .insert fun relation =>
    (buildRowData relation tuple).map fun after => (noRow, after)

def handleUpdate (oldTuple newTuple : Option TupleData) : HandlerResult :=
  handleRow cfg env currentLSN h relationID .update fun relation =>
    (optionalRow relation oldTuple).bind fun before =>
      (optionalRow relation newTuple).map fun after => (before, after)

def handleDelete (oldTuple : Option TupleData) : HandlerResult :=
  handleRow cfg env currentLSN h relationID .delete fun relation =>
    (optionalRow relation oldTuple).map fun before => (before, noRow)

/-- `handleTruncate`: one event for each known captured relation, up to the first failing send. -/
def handleTruncate (n : ℕ) : List UInt32 → HandlerResult
  | [] => ⟨h, [], [], .ok⟩
  | relationID :: relationIDs =>
    match h.relations relationID with
    | none => handleTruncate n relationIDs
    | some relation =>
      if !cfg.shouldCapture relation.namespaceName relation.relationName then
        handleTruncate n relationIDs
      else
        let ev := baseEvent cfg env currentLSN relationID .truncate
          (buildTableInfo cfg.database relation)
        let send := h.sendEvent (env.select n) ev
        if send.outcome = .ok then
          let rest := handleTruncate (n + 1) relationIDs
          { rest with made := ev :: rest.made, sent := send.sent ++ rest.sent }
        else send

def handleMessage : Message → HandlerResult
  | .begin finalLSN xid => ⟨{ h with txInProgress := some (finalLSN, xid) }, [], [], .ok⟩
  | .commit commitLSN commitTime => ⟨h.handleCommit commitLSN commitTime, [], [], .ok⟩
  | .relation msg => handleRelation cfg env currentLSN h msg
  | .insert relationID tuple => handleInsert cfg env currentLSN h relationID tuple
  | .update relationID oldTuple newTuple =>
    handleUpdate cfg env currentLSN h relationID oldTuple newTuple
  | .delete relationID oldTuple => handleDelete cfg env currentLSN h relationID oldTuple
  | .truncate relationIDs => handleTruncate cfg env currentLSN h 0 relationIDs
  | .ignored => ⟨h, [], [], .ok⟩

/-! ## A handler without a context -/

def Captures (known : Option RelationMessage) : Prop :=
  ∃ relation ∈ known, cfg.shouldCapture relation.namespaceName relation.relationName = true

variable (relations : UInt32 → Option RelationMessage)

/-- A message makes no event, with the relations by identifier and the connector's definitions: it
is about no known and captured relation, and the table of a relation message is defined alike. -/
def MakesNoEvent (tables : Option Tables) : Message → Prop
  | .relation msg => ∀ known ∈ tables, ∃ old ∈ known.get cfg.database msg.relationName,
    tableSchemasEqual old (buildTableInfo cfg.database msg) = true
  | .insert relationID _ | .update relationID _ _ | .delete relationID _ =>
    ¬ Captures cfg (relations relationID)
  | .truncate relationIDs => ∀ relationID ∈ relationIDs, ¬ Captures cfg (relations relationID)
  | .begin _ _ | .commit _ _ | .ignored => True

/-- The relations by identifier, after a message. -/
def announce : Message → UInt32 → Option RelationMessage
  | .relation msg => update relations msg.relationID (some msg)
  | _ => relations

variable {h} in
lemma sendEvent_of_ctx_eq_false (hctx : h.ctx = false) (choice : SelectCase) (ev : ChangeEvent) :
    h.sendEvent choice ev = ⟨h, [ev], [], .panic⟩ := by
  simp [sendEvent, hctx]

section NoContext

variable {h} (hctx : h.ctx = false)
include hctx

lemma handleRelation_of_ctx_eq_false (msg : RelationMessage) :
    let result := handleRelation cfg env currentLSN h msg
    result.sent = [] ∧ result.state.ctx = false ∧
      (result.outcome = .panic ↔ ¬ MakesNoEvent cfg h.relations h.tables (.relation msg)) ∧
      (MakesNoEvent cfg h.relations h.tables (.relation msg) →
        result.state.relations = announce h.relations (.relation msg) ∧
          result.state.tables = h.tables) := by
  have happly : ∀ {h' : Handler} {tables old new}, h'.ctx = false →
      let result := applySchemaChange cfg env currentLSN h' tables old new msg
      result.sent = [] ∧ result.state.ctx = false ∧ result.outcome = .panic := by
    intro h' tables old new hctx'
    simp [applySchemaChange, sendEvent_of_ctx_eq_false hctx', hctx']
  unfold handleRelation MakesNoEvent announce
  dsimp only
  -- Whether the table is new or changed only decides which event would be sent.
  repeat' split
  all_goals simp_all

lemma handleRow_of_ctx_eq_false (relationID : UInt32) (type : EventType)
    (rows : RelationMessage → Option (RowData × RowData)) :
    let result := handleRow cfg env currentLSN h relationID type rows
    result.sent = [] ∧ result.state = h ∧
      (result.outcome = .panic ↔ Captures cfg (h.relations relationID)) := by
  unfold handleRow Captures
  simp only [sendEvent_of_ctx_eq_false hctx]
  repeat' split
  all_goals simp_all

lemma handleTruncate_of_ctx_eq_false (n : ℕ) (relationIDs : List UInt32) :
    let result := handleTruncate cfg env currentLSN h n relationIDs
    result.sent = [] ∧ result.state = h ∧
      (result.outcome = .panic ↔
        ∃ relationID ∈ relationIDs, Captures cfg (h.relations relationID)) := by
  induction relationIDs with
  | nil => simp [handleTruncate]
  | cons relationID relationIDs ih =>
    rw [handleTruncate, List.exists_mem_cons_iff, Captures]
    simp only [sendEvent_of_ctx_eq_false hctx]
    -- The first known and captured relation ends the loop.
    split
    · simp_all
    · split <;> simp_all

/-- A handler without a context puts no event on the channel, gets no context by handling a message,
and panics exactly if the message makes an event. -/
theorem handleMessage_of_ctx_eq_false (msg : Message) :
    let result := handleMessage cfg env currentLSN h msg
    result.sent = [] ∧ result.state.ctx = false ∧
      (result.outcome = .panic ↔ ¬ MakesNoEvent cfg h.relations h.tables msg) ∧
      (MakesNoEvent cfg h.relations h.tables msg →
        result.state.relations = announce h.relations msg ∧ result.state.tables = h.tables) := by
  have hrow := handleRow_of_ctx_eq_false cfg env currentLSN hctx
  cases msg with
  | relation msg => exact handleRelation_of_ctx_eq_false _ _ _ hctx msg
  | insert | update | delete =>
    obtain ⟨hsent, hstate, houtcome⟩ := hrow ..
    exact ⟨hsent, (congrArg ctx hstate).trans hctx, houtcome.trans not_not.symm,
      fun _ => ⟨congrArg relations hstate, congrArg Handler.tables hstate⟩⟩
  | truncate relationIDs =>
    obtain ⟨hsent, hstate, houtcome⟩ :=
      handleTruncate_of_ctx_eq_false cfg env currentLSN hctx 0 relationIDs
    refine ⟨hsent, (congrArg ctx hstate).trans hctx, houtcome.trans ?_,
      fun _ => ⟨congrArg relations hstate, congrArg Handler.tables hstate⟩⟩
    simp [MakesNoEvent]
  | begin | commit | ignored => simp [handleMessage, MakesNoEvent, handleCommit, announce, hctx]

end NoContext

/-- `HandleMessage` returns from every message of a sequence; each comes with what it reads. -/
def NeverPanics (cfg : Config) : Handler → List (Env × UInt64 × Message) → Prop
  | _, [] => True
  | h, (env, currentLSN, msg) :: rest =>
    let result := h.handleMessage cfg env currentLSN msg
    result.outcome ≠ .panic ∧ NeverPanics cfg result.state rest

/-- No message of a sequence makes an event, with the relations of the messages before it. -/
def Silent (cfg : Config) (tables : Option Tables) :
    (UInt32 → Option RelationMessage) → List (Env × UInt64 × Message) → Prop
  | _, [] => True
  | relations, (_, _, msg) :: rest =>
    MakesNoEvent cfg relations tables msg ∧ Silent cfg tables (announce relations msg) rest

variable (tables : Option Tables) (schemaCache : Bytes → Option TableInfo)
  (position : Option Position) (messages : List (Env × UInt64 × Message))

/-- A new handler returns from every message exactly if none of them makes an event. -/
theorem neverPanics_iff :
    (newPGOutputHandler tables schemaCache position).NeverPanics cfg messages ↔
      Silent cfg tables (fun _ => none) messages := by
  -- The definitions stay the given ones as long as nothing is sent.
  have hrun : ∀ h : Handler, h.ctx = false →
      (h.NeverPanics cfg messages ↔ Silent cfg h.tables h.relations messages) := by
    induction messages with
    | nil => exact fun _ _ => Iff.rfl
    | cons message rest ih =>
      obtain ⟨env, currentLSN, msg⟩ := message
      intro h hctx
      obtain ⟨-, hctx', houtcome, hstate⟩ :=
        handleMessage_of_ctx_eq_false cfg env currentLSN hctx msg
      rw [NeverPanics, Silent, Ne, houtcome, not_not]
      refine and_congr_right fun hsilent => ?_
      rw [ih _ hctx', (hstate hsilent).1, (hstate hsilent).2]
  exact hrun _ rfl

/-- An insert into a captured table makes a new handler panic. -/
theorem not_neverPanics :
    ¬ ∀ (cfg : Config) (tables : Option Tables) (schemaCache : Bytes → Option TableInfo)
      (position : Option Position) (messages : List (Env × UInt64 × Message)),
      (newPGOutputHandler tables schemaCache position).NeverPanics cfg messages := by
  intro hall
  let env : Env := ⟨Time.zero, fun _ => .sent, fun _ _ => none⟩
  -- The relation of a table without columns, and an empty tuple.
  refine (hall ⟨[], [], []⟩ none (fun _ => none) none
    [(env, 0, .relation ⟨1, lit "public", lit "orders", []⟩), (env, 0, .insert 1 (some []))]).2.1 ?_
  rfl

end Handler

end DataStream.Source.Postgres
