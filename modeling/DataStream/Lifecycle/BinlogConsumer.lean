import DataStream.Cache.CacheEvent
import DataStream.Event.ChangeEvent
import DataStream.Foundations.Machine
import DataStream.Schema.Tables
import DataStream.Source.TableLifecycle

/-!
# The binlog consumer

`lifecycle.BinlogConsumer` routes change events by the lifecycle state of their table and handles
DDL events in place: it records the statement as `applying`, applies it with the parser, executes
it on the sink, and on failure records it as `failed` and pauses the table. A DML event of a table
with a recorded statement is discarded, and may trigger a retry of a failed one.

The model is a machine. Its state holds what the consumer shares with the rest of the process: the
lifecycle store, the table definitions, and the rows of the target store. Every answer of a
service to one `Route` call is in the `Env` of that call. In-flight writes do not occur between
`Route` calls made one after another, so `flushPending` does nothing here.

* `handled_handleDDL`: what `handleDDL` does when the target store answers every call;
* `routed_route`: what a `Route` call can do.
-/

namespace DataStream.Lifecycle

open Event Source Cache Schema TableLifecycle

inductive DDLStatus where
  | applying
  | failed
  deriving DecidableEq, Repr

structure DDLStateRow where
  ddl : Bytes
  lastSuccessInfo : Option TableInfo
  status : DDLStatus
  errorMsg : Bytes
  retryCount : ℤ
  deriving DecidableEq

/-- The kind of a schema change, as `inferChangeType` names it. -/
inductive ChangeType where
  | create
  | alter
  | drop
  deriving DecidableEq, Repr

structure SchemaHistoryRow where
  position : Position
  dbName : Bytes
  tableName : Bytes
  ddl : Bytes
  tableInfo : Option TableInfo
  changeType : ChangeType
  deriving DecidableEq

/-- The state that the consumer works on. -/
structure Consumer where
  lifecycle : LifecycleStore
  tables : Tables
  /-- The rows of `ddl_state`, by database and table name. -/
  ddlStates : Bytes → Bytes → Option DDLStateRow
  /-- The rows of `schema_history`, in insertion order. -/
  history : List SchemaHistoryRow
  crashed : Bool

/-- What the parser answers to `ApplyDDL`. -/
inductive ParserAnswer where
  | error (msg : Bytes)
  /-- A nil result without an error, as the no-op parser gives. -/
  | nilResult
  /-- The definition of the table after the statement; `none` if it is dropped. -/
  | result (newTableInfo : Option TableInfo)

structure Config where
  sourceType : Int64
  /-- The parser, the tables and the record manager are configured. -/
  hasDDLHandling : Bool
  hasDDLStore : Bool

/-- The answers of the services to one `Route` call; `some` is the text of an error. -/
structure Env where
  applyDDL : Option TableInfo → Bytes → ParserAnswer
  sinkWrite : Option Bytes
  cacheWrite : Option Bytes
  /-- `LoadDDLState` before a DML event is routed. -/
  loadDDLState : Option Bytes
  saveApplying : Option Bytes
  /-- `LoadDDLState` after a failed attempt. -/
  loadAfterFailure : Option Bytes
  saveFailed : Option Bytes
  saveSchemaHistory : Option Bytes
  deleteDDLState : Option Bytes

/-- What a `Route` call does that can be seen from outside. -/
inductive Effect where
  /-- The parser is asked to apply a statement. -/
  | attempt (db tbl ddl : Bytes)
  | sinkWrite (ev : ChangeEvent)
  /-- The cache event made from an event is written to the cache file of a table. -/
  | cacheWrite (tableID : Bytes) (ev : ChangeEvent) (ce : CacheEvent)
  /-- A statement failed in the parser or in the sink. -/
  | ddlFailed (db tbl : Bytes)
  | ddlCompleted (db tbl : Bytes)

/-- The result of a call: state, effects and how it returned. -/
structure Result where
  state : Consumer
  effects : List Effect
  outcome : Outcome

namespace Consumer

variable (s : Consumer) (db tbl : Bytes)

def setDDLRow (row : Option DDLStateRow) : Consumer :=
  { s with ddlStates := fun db' tbl' =>
      if db' = db ∧ tbl' = tbl then row else s.ddlStates db' tbl' }

/-- `SaveDDLState`: insert or overwrite the row of a table. -/
def saveDDLState (row : DDLStateRow) : Consumer := s.setDDLRow db tbl (some row)

def deleteDDLState : Consumer := s.setDDLRow db tbl none

/-- Apply a lifecycle operation to the record of a table, whose error is ignored. -/
def updateLifecycle (id : TableID) (f : TableLifecycle → Except TransitionError TableLifecycle) :
    Consumer :=
  match s.lifecycle id with
  | none => s
  | some lc =>
    match f lc with
    | .ok lc => { s with lifecycle := Function.update s.lifecycle id (some lc) }
    | .error _ => s

end Consumer

open Consumer

def maxDDLRetries : ℤ := 3

/-- The table identity without a schema that DDL handling uses. -/
def ddlTableID (db tbl : Bytes) : TableID := { database := db, schema := [], table := tbl }

def inferChangeType (newTableInfo oldTable : Option TableInfo) : ChangeType :=
  if newTableInfo = none then .drop else if oldTable ≠ none then .alter else .create

variable (cfg : Config) (env : Env) (s : Consumer) (ev : ChangeEvent)

/-- `eventToCacheEvent`. A failed encoding leaves the payload or the position empty. -/
def eventToCacheEvent (sourceType : Int64) : CacheEvent :=
  { (CacheEvent.setPosition
      { CacheEvent.zero with
        sourceType
        eventSeq := ev.position.seqNo
        timestampMs := Int64.ofInt ev.timestamp.unixMilli
        payload := ev.marshal.getD [] } ev.position) with
    txID := ev.position.txID }

/-- `handleDDLFailure`: record the statement as failed and pause the table. -/
def handleDDLFailure (db tbl ddl : Bytes) (lastSuccessInfo : Option TableInfo) (applyErr : Bytes) :
    Consumer × Outcome :=
  -- The row was saved as `applying` just before, so the count it holds is that row's.
  let existing := if env.loadAfterFailure.isSome then none else s.ddlStates db tbl
  let retryCount := (existing.map DDLStateRow.retryCount).getD 0 + 1
  match env.saveFailed with
  | some err => (s, .error (lit "save ddl state (failed): " ++ err))
  | none =>
    let s := s.saveDDLState db tbl
      { ddl, lastSuccessInfo, status := .failed, errorMsg := applyErr, retryCount }
    (s.updateLifecycle (ddlTableID db tbl) pause,
      .error (lit "DDL failed for " ++ db ++ lit "." ++ tbl ++ lit ": " ++ applyErr))

/-- The statement of a DDL event; empty if the event has none. -/
def ddlText : Bytes := (ev.metadata.get? (lit "ddl")).getD []

variable (ddl : Bytes) (oldTable : Option TableInfo)

/-- The end of a successful attempt: the definitions, the history and the recorded row. -/
def finishDDL (oldTable newTableInfo : Option TableInfo) : Result :=
  let db := ev.table.database
  let tbl := ev.table.table
  let s := { s with tables := match newTableInfo with
    | some info => s.tables.put info
    | none => s.tables.remove db tbl }
  -- The definitions stay changed when one of the two calls to the store fails.
  match env.saveSchemaHistory with
  | some err => ⟨s, [], .error (lit "save schema history: " ++ err)⟩
  | none =>
    let s := { s with history := s.history ++
      [{ position := ev.position, dbName := db, tableName := tbl, ddl, tableInfo := newTableInfo
         changeType := inferChangeType newTableInfo oldTable }] }
    match env.deleteDDLState with
    | some err => ⟨s, [], .error (lit "delete ddl state: " ++ err)⟩
    | none => ⟨s.deleteDDLState db tbl, [.ddlCompleted db tbl], .ok⟩

/-- The end of a failed attempt, after the given writes to the sink. -/
def failDDL (writes : List Effect) (err : Bytes) : Result :=
  let db := ev.table.database
  let tbl := ev.table.table
  let r := handleDDLFailure env s db tbl ddl oldTable err
  ⟨r.1, .attempt db tbl ddl :: (writes ++ [.ddlFailed db tbl]), r.2⟩

/-- An attempt at a statement whose row is recorded as `applying`. -/
def attemptDDL : Result :=
  let db := ev.table.database
  let tbl := ev.table.table
  match env.applyDDL oldTable ddl with
  | .error err => failDDL env s ev ddl oldTable [] err
  | .nilResult =>
    match env.sinkWrite with
    | some err => failDDL env s ev ddl oldTable [.sinkWrite ev] err
    -- The nil result is dereferenced after the sink has accepted the event.
    | none => ⟨{ s with crashed := true }, [.attempt db tbl ddl, .sinkWrite ev], .panic⟩
  | .result newTableInfo =>
    match env.sinkWrite with
    | some err => failDDL env s ev ddl oldTable [.sinkWrite ev] err
    | none =>
      let r := finishDDL env s ev ddl oldTable newTableInfo
      ⟨r.state, .attempt db tbl ddl :: .sinkWrite ev :: r.effects, r.outcome⟩

def handleDDL : Result :=
  if !cfg.hasDDLHandling || !cfg.hasDDLStore then ⟨s, [], .ok⟩
  else
    let db := ev.table.database
    let tbl := ev.table.table
    let ddl := ddlText ev
    if ddl = [] then ⟨s, [], .error (lit "DDL event missing 'ddl' metadata")⟩
    else
      let lastSuccessInfo := s.tables.get db tbl
      match env.saveApplying with
      | some err => ⟨s, [], .error (lit "save ddl state (applying): " ++ err)⟩
      | none =>
        -- The row is overwritten, and with it the retry count of an earlier failure.
        let s := s.saveDDLState db tbl
          { ddl, lastSuccessInfo, status := .applying, errorMsg := [], retryCount := 0 }
        attemptDDL env s ev ddl lastSuccessInfo

/-- The synthetic event that retries a failed statement. -/
def retryEvent (db tbl ddl : Bytes) : ChangeEvent :=
  { ChangeEvent.zero with
    type := .ddl
    table := { TableInfo.zero with database := db, table := tbl }
    metadata := [(lit "ddl", ddl)] }

/-- `checkDDLState`: whether the table is blocked, with the state and effects of a retry. -/
def checkDDLState (db tbl : Bytes) : Bool × Result :=
  -- A store that cannot be read does not block.
  if !cfg.hasDDLStore || env.loadDDLState.isSome then (false, ⟨s, [], .ok⟩)
  else
    match s.ddlStates db tbl with
    | none => (false, ⟨s, [], .ok⟩)
    | some row =>
      if row.status ≠ .failed ∨ maxDDLRetries ≤ row.retryCount then (true, ⟨s, [], .ok⟩)
      else
        match s.lifecycle (ddlTableID db tbl) with
        | none => (true, ⟨s, [], .ok⟩)
        | some _ =>
          -- The table is resumed for the retry; the event that triggered it is discarded.
          let s := s.updateLifecycle (ddlTableID db tbl) resume
          (true, handleDDL cfg env s (retryEvent db tbl row.ddl))

/-- The routing of a DML event of a table that no recorded statement blocks. -/
def routeDML : Result :=
  let tableID : TableID :=
    { database := ev.table.database, schema := ev.table.schema, table := ev.table.table }
  match s.lifecycle tableID with
  -- A table without a record, or in one of the other states, loses its events silently.
  | none => ⟨s, [], .ok⟩
  | some lc =>
    match lc.state with
    | .snapshotting =>
      ⟨s, [.cacheWrite tableID.toBytes ev (eventToCacheEvent ev cfg.sourceType)],
        (env.cacheWrite.map .error).getD .ok⟩
    | .catchingUp | .streaming => ⟨s, [.sinkWrite ev], (env.sinkWrite.map .error).getD .ok⟩
    | _ => ⟨s, [], .ok⟩

def route : Result :=
  if ev.isDDL then handleDDL cfg env s ev
  else
    let check := checkDDLState cfg env s ev.table.database ev.table.table
    if check.1 then
      -- A panic inside the retry is not caught.
      ⟨check.2.state, check.2.effects, if check.2.outcome = .panic then .panic else .ok⟩
    else routeDML cfg env s ev

/-! ## What one call does -/

/-- The target store answers every call of one `Route` without error. -/
@[mk_iff]
structure StoreSucceeds (env : Env) : Prop where
  loadDDLState : env.loadDDLState = none
  saveApplying : env.saveApplying = none
  loadAfterFailure : env.loadAfterFailure = none
  saveFailed : env.saveFailed = none
  saveSchemaHistory : env.saveSchemaHistory = none
  deleteDDLState : env.deleteDDLState = none

namespace Consumer

variable (s : Consumer)

@[simp]
lemma setDDLRow_self (db tbl : Bytes) (row : Option DDLStateRow) :
    (s.setDDLRow db tbl row).ddlStates db tbl = row := by
  simp [setDDLRow]

lemma setDDLRow_of_ne {db tbl db' tbl' : Bytes} (row : Option DDLStateRow)
    (h : ¬(db' = db ∧ tbl' = tbl)) :
    (s.setDDLRow db tbl row).ddlStates db' tbl' = s.ddlStates db' tbl' := by
  exact if_neg h

variable (id : TableID)

section

variable (f : TableLifecycle → Except TransitionError TableLifecycle)
include f

@[simp]
lemma updateLifecycle_ddlStates : (s.updateLifecycle id f).ddlStates = s.ddlStates := by
  rw [updateLifecycle]
  repeat' split
  all_goals rfl

@[simp]
lemma updateLifecycle_tables : (s.updateLifecycle id f).tables = s.tables := by
  rw [updateLifecycle]
  repeat' split
  all_goals rfl

@[simp]
lemma updateLifecycle_history : (s.updateLifecycle id f).history = s.history := by
  rw [updateLifecycle]
  repeat' split
  all_goals rfl

@[simp]
lemma updateLifecycle_crashed : (s.updateLifecycle id f).crashed = s.crashed := by
  rw [updateLifecycle]
  repeat' split
  all_goals rfl

end

@[simp]
lemma updateLifecycle_isSome (id id' : TableID)
    (f : TableLifecycle → Except TransitionError TableLifecycle) :
    ((s.updateLifecycle id f).lifecycle id').isSome = (s.lifecycle id').isSome := by
  rw [updateLifecycle]
  split
  · rfl
  · rename_i lc hlc
    split
    · by_cases hid : id' = id
      · subst hid
        simp [hlc]
      · simp [hid]
    · rfl

end Consumer

section Finish

variable {env : Env} {s : Consumer} {ev : ChangeEvent} {ddl : Bytes}
  {oldTable newTableInfo : Option TableInfo}

lemma lifecycle_finishDDL :
    (finishDDL env s ev ddl oldTable newTableInfo).state.lifecycle = s.lifecycle := by
  unfold finishDDL
  cases env.saveSchemaHistory <;> cases env.deleteDDLState <;> rfl

lemma effects_finishDDL : (finishDDL env s ev ddl oldTable newTableInfo).effects =
    if env.saveSchemaHistory = none ∧ env.deleteDDLState = none then
      [.ddlCompleted ev.table.database ev.table.table] else [] := by
  unfold finishDDL
  cases env.saveSchemaHistory <;> cases env.deleteDDLState <;> simp

end Finish

/-- A `handleDDL` call that failed in the parser or in the sink. The retry count of the row it
leaves is one: the row was overwritten before the attempt. -/
structure FailedAttempt (cfg : Config) (s : Consumer) (ev : ChangeEvent) (r : Result) : Prop where
  configured : cfg.hasDDLStore = true
  statement : ddlText ev ≠ []
  effects : ∃ writes, (writes = [] ∨ writes = [.sinkWrite ev]) ∧
    r.effects = .attempt ev.table.database ev.table.table (ddlText ev) ::
      (writes ++ [.ddlFailed ev.table.database ev.table.table])
  rows : ∃ row : DDLStateRow, row.ddl = ddlText ev ∧ row.status = .failed ∧ row.retryCount = 1 ∧
    r.state.ddlStates = (s.setDDLRow ev.table.database ev.table.table (some row)).ddlStates
  crashed : r.state.crashed = s.crashed
  lifecycle : ∀ id, (r.state.lifecycle id).isSome = (s.lifecycle id).isSome

/-- What a `handleDDL` call for an event can do when the store answers every call. -/
inductive Handled (cfg : Config) (s : Consumer) (ev : ChangeEvent) : Result → Prop
  /-- Nothing: handling is not configured or the event has no statement. -/
  | skipped (outcome : Outcome)
      (h : cfg.hasDDLHandling = false ∨ cfg.hasDDLStore = false ∨ ddlText ev = []) :
      Handled cfg s ev ⟨s, [], outcome⟩
  | failed (r : Result) (h : FailedAttempt cfg s ev r) : Handled cfg s ev r
  /-- The result of the parser was nil. -/
  | panicked (s' : Consumer) (row : DDLStateRow) (hstatement : ddlText ev ≠ [])
      (hddl : row.ddl = ddlText ev)
      (hrows : s'.ddlStates = (s.setDDLRow ev.table.database ev.table.table (some row)).ddlStates)
      (hcrashed : s'.crashed = true) :
      Handled cfg s ev ⟨s', [.attempt ev.table.database ev.table.table (ddlText ev), .sinkWrite ev],
        .panic⟩
  /-- The statement was applied and recorded. -/
  | completed (s' : Consumer) (hstatement : ddlText ev ≠ [])
      (hrows : s'.ddlStates = (s.setDDLRow ev.table.database ev.table.table none).ddlStates)
      (hcrashed : s'.crashed = s.crashed)
      (hlifecycle : ∀ id, (s'.lifecycle id).isSome = (s.lifecycle id).isSome) :
      Handled cfg s ev ⟨s', [.attempt ev.table.database ev.table.table (ddlText ev), .sinkWrite ev,
        .ddlCompleted ev.table.database ev.table.table], .ok⟩

lemma Consumer.setDDLRow_setDDLRow (s : Consumer) (db tbl : Bytes)
    (row row' : Option DDLStateRow) :
    (s.setDDLRow db tbl row).setDDLRow db tbl row' = s.setDDLRow db tbl row' := by
  simp only [setDDLRow, Consumer.mk.injEq, true_and, and_true]
  funext db' tbl'
  split <;> rfl

variable {env : Env} {ev : ChangeEvent}

/-- The row that is saved before an attempt. -/
def applyingRow (ddl : Bytes) (info : Option TableInfo) : DDLStateRow :=
  { ddl, lastSuccessInfo := info, status := .applying, errorMsg := [], retryCount := 0 }

/-- The state in which a statement is tried. -/
def tried (s : Consumer) (ev : ChangeEvent) : Consumer :=
  s.saveDDLState ev.table.database ev.table.table
    (applyingRow (ddlText ev) (s.tables.get ev.table.database ev.table.table))

/-- The row that records a failed attempt. -/
def failedRow (s : Consumer) (ev : ChangeEvent) (err : Bytes) : DDLStateRow where
  ddl := ddlText ev
  lastSuccessInfo := s.tables.get ev.table.database ev.table.table
  status := .failed
  errorMsg := err
  retryCount := 1

/-- A failure is recorded, and pauses the table. -/
lemma state_failDDL_tried (hsave : env.saveFailed = none) (s : Consumer) (ev : ChangeEvent)
    (writes : List Effect) (err : Bytes) :
    (failDDL env (tried s ev) ev (ddlText ev) (s.tables.get ev.table.database ev.table.table)
      writes err).state =
      (s.setDDLRow ev.table.database ev.table.table (some (failedRow s ev err))).updateLifecycle
        (ddlTableID ev.table.database ev.table.table) pause := by
  -- The count starts from zero, whether the row can be loaded or not.
  cases hload : env.loadAfterFailure <;>
    simp [failDDL, handleDDLFailure, hsave, hload, tried, saveDDLState,
      setDDLRow_setDDLRow, applyingRow, failedRow]

/-- The call gets as far as an attempt. -/
structure Starts (cfg : Config) (env : Env) (ev : ChangeEvent) : Prop where
  handling : cfg.hasDDLHandling = true
  store : cfg.hasDDLStore = true
  statement : ddlText ev ≠ []
  saveApplying : env.saveApplying = none

section Starts

variable {cfg : Config} (s : Consumer)

lemma Starts.handleDDL_eq (h : Starts cfg env ev) :
    handleDDL cfg env s ev = attemptDDL env (tried s ev) ev (ddlText ev)
      (s.tables.get ev.table.database ev.table.table) := by
  simp [handleDDL, h.handling, h.store, h.statement, h.saveApplying, tried, applyingRow]

/-- Whichever condition fails, the call returns before it has stored anything. -/
lemma handleDDL_of_not_starts (h : ¬Starts cfg env ev) :
    ∃ outcome, handleDDL cfg env s ev = ⟨s, [], outcome⟩ := by
  unfold handleDDL
  split_ifs with hcfg
  · exact ⟨_, rfl⟩
  · dsimp only
    split_ifs with hddl
    · exact ⟨_, rfl⟩
    · cases hsave : env.saveApplying with
      | some err => exact ⟨_, rfl⟩
      | none =>
        simp only [Bool.or_eq_true, Bool.not_eq_true', not_or, Bool.not_eq_false] at hcfg
        exact absurd ⟨hcfg.1, hcfg.2, hddl, hsave⟩ h

end Starts

/-- The parser or the sink rejects a statement. -/
def AttemptFails (env : Env) (oldTable : Option TableInfo) (ddl : Bytes) : Prop :=
  (∃ err, env.applyDDL oldTable ddl = .error err) ∨ env.sinkWrite ≠ none

/-- What an attempt comes to: a failure in the parser or the sink, a panic over a nil result, or an
applied statement. -/
@[elab_as_elim]
lemma attemptDDL_cases {s : Consumer} {ddl : Bytes} {oldTable : Option TableInfo}
    {motive : Result → Prop}
    (failed : ∀ writes err, AttemptFails env oldTable ddl →
      (writes = [] ∨ writes = [.sinkWrite ev]) → motive (failDDL env s ev ddl oldTable writes err))
    (panicked : ¬AttemptFails env oldTable ddl → env.applyDDL oldTable ddl = .nilResult →
      motive ⟨{ s with crashed := true },
        [.attempt ev.table.database ev.table.table ddl, .sinkWrite ev], .panic⟩)
    (applied : ∀ newTableInfo, ¬AttemptFails env oldTable ddl →
      env.applyDDL oldTable ddl = .result newTableInfo →
      motive ⟨(finishDDL env s ev ddl oldTable newTableInfo).state,
        .attempt ev.table.database ev.table.table ddl :: .sinkWrite ev ::
          (finishDDL env s ev ddl oldTable newTableInfo).effects,
        (finishDDL env s ev ddl oldTable newTableInfo).outcome⟩) :
    motive (attemptDDL env s ev ddl oldTable) := by
  unfold attemptDDL
  cases hparser : env.applyDDL oldTable ddl with
  | error err => exact failed [] err (.inl ⟨err, hparser⟩) (.inl rfl)
  | nilResult =>
    cases hsink : env.sinkWrite with
    | some err => exact failed _ err (.inr (by simp [hsink])) (.inr rfl)
    | none => exact panicked (by simp [AttemptFails, hparser, hsink]) hparser
  | result newTableInfo =>
    cases hsink : env.sinkWrite with
    | some err => exact failed _ err (.inr (by simp [hsink])) (.inr rfl)
    | none => exact applied newTableInfo (by simp [AttemptFails, hparser, hsink]) hparser

lemma failedAttempt_failDDL (h : StoreSucceeds env) {cfg : Config} (hcfg : cfg.hasDDLStore = true)
    (s : Consumer) (hstatement : ddlText ev ≠ []) {writes : List Effect}
    (hwrites : writes = [] ∨ writes = [.sinkWrite ev]) (err : Bytes) :
    FailedAttempt cfg s ev (failDDL env (tried s ev) ev (ddlText ev)
      (s.tables.get ev.table.database ev.table.table) writes err) := by
  refine ⟨hcfg, hstatement, ⟨writes, hwrites, rfl⟩, ⟨failedRow s ev err, rfl, rfl, rfl, ?_⟩, ?_,
    ?_⟩ <;> rw [state_failDDL_tried h.saveFailed]
  · exact updateLifecycle_ddlStates ..
  · exact updateLifecycle_crashed ..
  · exact fun id => updateLifecycle_isSome ..

lemma handled_finishDDL (h : StoreSucceeds env) (cfg : Config) (s : Consumer)
    (hstatement : ddlText ev ≠ []) (row : DDLStateRow) (info newTableInfo : Option TableInfo) :
    let r := finishDDL env (s.saveDDLState ev.table.database ev.table.table row) ev (ddlText ev)
      info newTableInfo
    Handled cfg s ev ⟨r.state, .attempt ev.table.database ev.table.table (ddlText ev) ::
      .sinkWrite ev :: r.effects, r.outcome⟩ := by
  simp only [finishDDL, h.saveSchemaHistory, h.deleteDDLState]
  refine .completed _ hstatement ?_ rfl fun _ => rfl
  have hrows := congrArg ddlStates
    (s.setDDLRow_setDDLRow ev.table.database ev.table.table (some row) none)
  exact hrows

/-- With a store that answers, `handleDDL` does one of four things. -/
theorem handled_handleDDL (h : StoreSucceeds env) (cfg : Config) (s : Consumer) (ev : ChangeEvent) :
    Handled cfg s ev (handleDDL cfg env s ev) := by
  by_cases hstarts : Starts cfg env ev
  swap
  · obtain ⟨outcome, heq⟩ := handleDDL_of_not_starts s hstarts
    rw [heq]
    refine .skipped outcome ?_
    by_contra hnone
    push Not at hnone
    exact hstarts ⟨by simpa using hnone.1, by simpa using hnone.2.1, hnone.2.2, h.saveApplying⟩
  obtain ⟨-, hcfg, hstatement, -⟩ := id hstarts
  rw [hstarts.handleDDL_eq]
  refine attemptDDL_cases ?_ ?_ ?_
  · intro writes err _ hwrites
    exact .failed _ (failedAttempt_failDDL h hcfg s hstatement hwrites err)
  · exact fun _ _ => .panicked _ _ hstatement rfl rfl rfl
  · exact fun newTableInfo _ _ => handled_finishDDL h cfg s hstatement _ _ newTableInfo

variable (cfg : Config)

lemma handleDDL_of_ddlText_eq_nil (env : Env) (s : Consumer) (h : ddlText ev = []) :
    ∃ outcome, handleDDL cfg env s ev = ⟨s, [], outcome⟩ :=
  handleDDL_of_not_starts s fun hstarts => hstarts.statement h

lemma failedAttempt_handleDDL (h : StoreSucceeds env) {cfg : Config}
    (hcfg : cfg.hasDDLStore = true) (hhandling : cfg.hasDDLHandling = true) (s : Consumer)
    (hstatement : ddlText ev ≠ [])
    (hfails : AttemptFails env (s.tables.get ev.table.database ev.table.table) (ddlText ev)) :
    FailedAttempt cfg s ev (handleDDL cfg env s ev) := by
  rw [Starts.handleDDL_eq s ⟨hhandling, hcfg, hstatement, h.saveApplying⟩]
  refine attemptDDL_cases ?_ ?_ ?_
  · exact fun writes err _ hwrites => failedAttempt_failDDL h hcfg s hstatement hwrites err
  · exact fun happlied _ => absurd hfails happlied
  · exact fun _ happlied _ => absurd hfails happlied

/-- The row that blocks a table; a target store that cannot be read does not block. -/
def blockingRow (cfg : Config) (env : Env) (s : Consumer) (db tbl : Bytes) : Option DDLStateRow :=
  if !cfg.hasDDLStore || env.loadDDLState.isSome then none else s.ddlStates db tbl

/-- The statement of a row is retried: it has failed, not too often, and the table has a record. -/
def retries (s : Consumer) (db tbl : Bytes) (row : DDLStateRow) : Bool :=
  row.status = .failed ∧ row.retryCount < maxDDLRetries ∧ (s.lifecycle (ddlTableID db tbl)).isSome

section Check

variable {cfg : Config} {s : Consumer} {db tbl : Bytes} {row : DDLStateRow}

lemma blockingRow_eq_some_iff : blockingRow cfg env s db tbl = some row ↔
    cfg.hasDDLStore = true ∧ env.loadDDLState = none ∧ s.ddlStates db tbl = some row := by
  simp [blockingRow, and_assoc]

lemma checkDDLState_of_unblocked (h : blockingRow cfg env s db tbl = none) :
    checkDDLState cfg env s db tbl = (false, ⟨s, [], .ok⟩) := by
  unfold blockingRow at h
  unfold checkDDLState
  split_ifs at h ⊢
  · rfl
  · rw [h]

/-- A row blocks its table, with or without a retry. -/
lemma checkDDLState_of_blockingRow (h : blockingRow cfg env s db tbl = some row) :
    checkDDLState cfg env s db tbl = (true, if retries s db tbl row then
      handleDDL cfg env (s.updateLifecycle (ddlTableID db tbl) resume) (retryEvent db tbl row.ddl)
    else ⟨s, [], .ok⟩) := by
  unfold blockingRow at h
  split_ifs at h with hstore
  rw [checkDDLState, if_neg hstore, h]
  by_cases hblocked : row.status ≠ .failed ∨ maxDDLRetries ≤ row.retryCount
  · have hretries : retries s db tbl row = false := by
      simp only [retries, decide_eq_false_iff_not]
      rintro ⟨hfailed, hcount, -⟩
      exact hblocked.elim (fun h => h hfailed) (not_le.mpr hcount)
    simp [hblocked, hretries]
  · rw [not_or, not_not, not_le] at hblocked
    cases hlc : s.lifecycle (ddlTableID db tbl) <;> simp [retries, hblocked, hlc]

end Check

/-- What a `Route` call can do when the store answers every call. -/
inductive Routed (cfg : Config) (env : Env) (s : Consumer) (ev : ChangeEvent) : Result → Prop
  | ddl (hddl : ev.isDDL = true) : Routed cfg env s ev (handleDDL cfg env s ev)
  /-- A DML event of a table whose recorded statement is not retried. -/
  | blocked (row : DDLStateRow) (hdml : ev.isDDL = false)
      (hrow : s.ddlStates ev.table.database ev.table.table = some row)
      (hstays : row.status ≠ .failed ∨ maxDDLRetries ≤ row.retryCount ∨
        (s.lifecycle (ddlTableID ev.table.database ev.table.table)).isSome = false) :
      Routed cfg env s ev ⟨s, [], .ok⟩
  /-- A DML event of a table whose recorded statement is retried. -/
  | retried (row : DDLStateRow) (s' : Consumer) (r : Result) (outcome : Outcome)
      (hdml : ev.isDDL = false)
      (hrow : s.ddlStates ev.table.database ev.table.table = some row)
      (hstatus : row.status = .failed) (hcount : row.retryCount < maxDDLRetries)
      (hpresent : (s.lifecycle (ddlTableID ev.table.database ev.table.table)).isSome = true)
      (hrows : s'.ddlStates = s.ddlStates) (htables : s'.tables = s.tables)
      (hcrashed : s'.crashed = s.crashed)
      (hlifecycle : ∀ id, (s'.lifecycle id).isSome = (s.lifecycle id).isSome)
      (hr : r = handleDDL cfg env s' (retryEvent ev.table.database ev.table.table row.ddl)) :
      Routed cfg env s ev ⟨r.state, r.effects, outcome⟩
  /-- A DML event that no recorded statement blocks. -/
  | passed (effects : List Effect) (outcome : Outcome) (hdml : ev.isDDL = false)
      (hrow : cfg.hasDDLStore = false ∨ s.ddlStates ev.table.database ev.table.table = none)
      (heffects : effects = [] ∨ effects = [.sinkWrite ev] ∨
        ∃ key, effects = [.cacheWrite key ev (eventToCacheEvent ev cfg.sourceType)]) :
      Routed cfg env s ev ⟨s, effects, outcome⟩

/-- A DML event that is not blocked is written at most once, and changes nothing else. -/
lemma routed_routeDML (env : Env) (s : Consumer) (hdml : ev.isDDL = false)
    (hrow : cfg.hasDDLStore = false ∨ s.ddlStates ev.table.database ev.table.table = none) :
    Routed cfg env s ev (routeDML cfg env s ev) := by
  rw [routeDML]
  split
  · exact .passed [] _ hdml hrow (.inl rfl)
  · split
    · exact .passed _ _ hdml hrow (.inr (.inr ⟨_, rfl⟩))
    · exact .passed _ _ hdml hrow (.inr (.inl rfl))
    · exact .passed _ _ hdml hrow (.inr (.inl rfl))
    · exact .passed [] _ hdml hrow (.inl rfl)

/-- With a store that answers, `Route` does one of the four things. -/
theorem routed_route (h : StoreSucceeds env) (cfg : Config) (s : Consumer) (ev : ChangeEvent) :
    Routed cfg env s ev (route cfg env s ev) := by
  rw [route]
  cases hddl : ev.isDDL with
  | true => exact .ddl hddl
  | false =>
    cases hrow : blockingRow cfg env s ev.table.database ev.table.table with
    | none =>
      rw [checkDDLState_of_unblocked hrow]
      refine routed_routeDML cfg env s hddl (or_iff_not_imp_left.mpr fun hstore => ?_)
      simpa [blockingRow, hstore, h.loadDDLState] using hrow
    | some row =>
      obtain ⟨-, -, hrecorded⟩ := blockingRow_eq_some_iff.mp hrow
      rw [checkDDLState_of_blockingRow hrow]
      by_cases hretries : retries s ev.table.database ev.table.table row = true
      · obtain ⟨hstatus, hcount, hpresent⟩ := of_decide_eq_true hretries
        rw [if_pos hretries]
        exact .retried row _ _ _ hddl hrecorded hstatus hcount hpresent
          (s.updateLifecycle_ddlStates _ _) (s.updateLifecycle_tables _ _)
          (s.updateLifecycle_crashed _ _) (fun id => s.updateLifecycle_isSome _ id _) rfl
      · have hstays := of_decide_eq_false (Bool.eq_false_of_not_eq_true hretries)
        rw [if_neg hretries]
        refine .blocked row hddl hrecorded ?_
        by_contra hnone
        push Not at hnone
        exact hstays ⟨hnone.1, hnone.2.1, Bool.eq_true_of_not_eq_false hnone.2.2⟩

inductive Input where
  /-- A `Route` call with the answers of the services. -/
  | route (env : Env) (ev : ChangeEvent)
  /-- Other parts of the process change the lifecycle store or the table definitions. -/
  | external (lifecycle : LifecycleStore) (tables : Tables)

/-- The consumer as a machine; nothing happens after a panic. -/
def consumer (cfg : Config) : Machine Consumer Input Effect where
  step s
    | .route env ev =>
      if s.crashed then (s, [])
      else
        let r := route cfg env s ev
        (r.state, r.effects)
    | .external lifecycle tables => ({ s with lifecycle, tables }, [])

lemma consumer_step_crashed {s : Consumer} (h : s.crashed = true) (env : Env) (ev : ChangeEvent) :
    (consumer cfg).step s (.route env ev) = (s, []) :=
  if_pos h

lemma consumer_step_route {s : Consumer} (h : s.crashed = false) (env : Env) (ev : ChangeEvent) :
    (consumer cfg).step s (.route env ev) =
      ((route cfg env s ev).state, (route cfg env s ev).effects) :=
  if_neg (by simp [h])

lemma consumer_step_external (s : Consumer) (lifecycle : LifecycleStore) (tables : Tables) :
    (consumer cfg).step s (.external lifecycle tables) = ({ s with lifecycle, tables }, []) := rfl

end DataStream.Lifecycle
