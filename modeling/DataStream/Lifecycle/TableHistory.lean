import DataStream.Api.Lifecycle
import DataStream.Lifecycle.BinlogConsumer

/-!
# What happens to a table over time

The lifecycle record of a table is changed from three sides: by the calls of the scheduler, by the
requests of the API and by the consumer, which pauses a table after a failed DDL statement and
resumes it for a retry. Each of them comes down to a few calls on the record of one table. This file
models a task as a machine whose steps are these operations, one at a time, and which emits every
call on a record with the states before and after it.

* `lifecycle_run`: every operation changes the records by the calls that it makes.
-/

namespace DataStream.Lifecycle

open Event Source Option Function SnapshotScheduler TableLifecycle

/-! ## Calls on a record -/

/-- A call on the lifecycle record of a table. -/
inductive RecordCall where
  /-- A new record in the place of the old one. -/
  | register (snapshotPos : Option Position)
  | transitionTo (target : TableState) (pos : Option Position)
  | setError (msg : Bytes)
  | resetToPending (newSnapshotPos : Option Position)
  | pause
  | resume
  | skip
  deriving DecidableEq

namespace RecordCall

/-- The record after a change that can be refused. -/
def accepted (lc : TableLifecycle) : Except TransitionError TableLifecycle → TableLifecycle
  | .ok lc' => lc'
  | .error _ => lc

def apply (lc : TableLifecycle) : RecordCall → TableLifecycle
  | .register snapshotPos => { new with snapshotPosition := snapshotPos }
  | .transitionTo target pos => accepted lc (lc.transitionTo target pos)
  | .setError msg => lc.setError msg
  | .resetToPending newSnapshotPos => accepted lc (lc.resetToPending newSnapshotPos)
  | .pause => accepted lc lc.pause
  | .resume => accepted lc lc.resume
  | .skip => if lc.state = .error then Api.skip lc else lc

/-- The record of a table after a call. Only a registration makes one. -/
def applyTo (record : Option TableLifecycle) (call : RecordCall) : Option TableLifecycle :=
  match call with
  | .register snapshotPos => some { new with snapshotPosition := snapshotPos }
  | call => record.map fun lc => call.apply lc

end RecordCall

open RecordCall

/-- A call on the record of a table, with the states of the table before and after it. -/
structure Change where
  id : TableID
  call : RecordCall
  before : Option TableState
  after : Option TableState
  deriving DecidableEq

def records : Machine LifecycleStore (TableID × RecordCall) Change where
  step store call :=
    let record := applyTo (store call.1) call.2
    (update store call.1 record,
      [{ id := call.1
         call := call.2
         before := (store call.1).map state
         after := record.map state }])

/-! ## Operations -/

inductive Operation where
  | addTable (id : TableID) (snapshotPos : Option Position)
  | transitionTo (id : TableID) (target : TableState) (pos : Option Position)
  | onSnapshotComplete (id : TableID)
  | onSnapshotError (id : TableID) (errMsg : Bytes)
  | onCaughtUp (id : TableID)
  | restartTable (id : TableID) (newPos : Option Position) (force : Bool)
  /-- `RestartSchema`, with the tables in the order in which the store lists them. -/
  | restartSchema (schema : Bytes) (newPos : Option Position) (force : Bool) (order : List TableID)
  | pauseTable (id : TableID)
  | resumeTable (id : TableID)
  | retryTableLifecycle (db table : Bytes)
  | skipTableError (db table : Bytes)
  /-- `Route`, with the answers of the services to it. -/
  | route (env : Env) (ev : ChangeEvent)

/-- The store after an operation that can be refused. -/
def saved (store : LifecycleStore) : Except Bytes LifecycleStore → LifecycleStore
  | .ok store' => store'
  | .error _ => store

variable (cfg : Config) (task : TaskEntry) (s : Consumer)

variable (newPos : Option Position) (force : Bool)

/-- The store after the tables of a list are restarted, as `RestartSchema` does. -/
def restartAll (store : LifecycleStore) (ids : List TableID) : LifecycleStore :=
  ids.foldl (fun store id => saved store (restartTable task store id newPos force)) store

def Operation.run : Operation → Consumer
  | .addTable id snapshotPos =>
    { s with lifecycle := SnapshotScheduler.addTable s.lifecycle id snapshotPos }
  | .transitionTo id target pos => s.updateLifecycle id fun lc => lc.transitionTo target pos
  | .onSnapshotComplete id =>
    { s with lifecycle :=
        saved s.lifecycle (SnapshotScheduler.onSnapshotComplete task s.lifecycle id) }
  | .onSnapshotError id errMsg =>
    { s with lifecycle :=
        saved s.lifecycle (SnapshotScheduler.onSnapshotError task s.lifecycle id errMsg) }
  | .onCaughtUp id =>
    { s with lifecycle := saved s.lifecycle (SnapshotScheduler.onCaughtUp task s.lifecycle id) }
  | .restartTable id newPos force =>
    { s with lifecycle :=
        saved s.lifecycle (SnapshotScheduler.restartTable task s.lifecycle id newPos force) }
  | .restartSchema schema newPos force order =>
    let ids := order.filter fun id => id.database = schema
    { s with lifecycle := restartAll task newPos force s.lifecycle ids }
  | .pauseTable id =>
    { s with lifecycle := saved s.lifecycle (SnapshotScheduler.pauseTable task s.lifecycle id) }
  | .resumeTable id =>
    { s with lifecycle := saved s.lifecycle (SnapshotScheduler.resumeTable task s.lifecycle id) }
  | .retryTableLifecycle db table =>
    { s with lifecycle := (Api.retryTableLifecycle task s.lifecycle db table).1 }
  | .skipTableError db table =>
    { s with lifecycle := (Api.skipTableError task s.lifecycle db table).1 }
  | .route env ev => (Lifecycle.route cfg env s ev).state

/-! ## The calls that an operation makes -/

def restartCalls (store : LifecycleStore) (id : TableID) : List (TableID × RecordCall) :=
  match store id with
  | none => []
  | some lc =>
    if !force && lc.state = .streaming then []
    else if lc.state ≠ .error then
      [(id, .setError (lit "restart requested")), (id, .resetToPending newPos)]
    else [(id, .resetToPending newPos)]

def restartAllCalls (newPos : Option Position) (force : Bool) :
    LifecycleStore → List TableID → List (TableID × RecordCall)
  | _, [] => []
  | store, id :: ids =>
    restartCalls newPos force store id ++
      restartAllCalls newPos force (records.run store (restartCalls newPos force store id)).1 ids

/-- Whether an effect is a failure of a statement. -/
def Effect.failsDDL : Effect → Bool
  | .ddlFailed _ _ => true
  | _ => false

/-- The calls of `handleDDL`: a failure that could be recorded pauses the table. -/
def handleDDLCalls (env : Env) (s : Consumer) (ev : ChangeEvent) : List (TableID × RecordCall) :=
  if (handleDDL cfg env s ev).effects.any Effect.failsDDL && env.saveFailed.isNone then
    [(ddlTableID ev.table.database ev.table.table, .pause)]
  else []

/-- The calls of `checkDDLState`: a retry resumes the table first. -/
def checkDDLStateCalls (env : Env) (s : Consumer) (db tbl : Bytes) : List (TableID × RecordCall) :=
  if !cfg.hasDDLStore || env.loadDDLState.isSome then []
  else
    match s.ddlStates db tbl with
    | none => []
    | some row =>
      if row.status ≠ .failed ∨ maxDDLRetries ≤ row.retryCount then []
      else
        match s.lifecycle (ddlTableID db tbl) with
        | none => []
        | some _ =>
          (ddlTableID db tbl, .resume) ::
            handleDDLCalls cfg env
              (s.updateLifecycle (ddlTableID db tbl) resume)
              (retryEvent db tbl row.ddl)

def Operation.calls : Operation → List (TableID × RecordCall)
  | .addTable id snapshotPos => [(id, .register snapshotPos)]
  | .transitionTo id target pos => [(id, .transitionTo target pos)]
  | .onSnapshotComplete id => [(id, .transitionTo .catchingUp none)]
  | .onSnapshotError id errMsg => [(id, .setError errMsg)]
  | .onCaughtUp id => [(id, .transitionTo .streaming none)]
  | .restartTable id newPos force => restartCalls newPos force s.lifecycle id
  | .restartSchema schema newPos force order =>
    restartAllCalls newPos force s.lifecycle (order.filter fun id => id.database = schema)
  | .pauseTable id => [(id, .pause)]
  | .resumeTable id => [(id, .resume)]
  | .retryTableLifecycle db table =>
    match s.lifecycle (Api.requestTable db table) with
    | none => []
    | some lc =>
      if lc.state ≠ .error then []
      else [(Api.requestTable db table, .resetToPending lc.snapshotPosition)]
  | .skipTableError db table => [(Api.requestTable db table, .skip)]
  | .route env ev =>
    if ev.isDDL then handleDDLCalls cfg env s ev
    else checkDDLStateCalls cfg env s ev.table.database ev.table.table

/-- A task as a machine. It emits the calls on records, and does nothing after a panic. -/
def tableSystem : Machine Consumer Operation Change where
  step s op :=
    if s.crashed then (s, [])
    else (op.run cfg task s, (records.run s.lifecycle (op.calls cfg s)).2)

/-- A task without tables, with whatever is in the target store. -/
def Consumer.start (tables : Schema.Tables) (ddlStates : Bytes → Bytes → Option DDLStateRow)
    (history : List SchemaHistoryRow) : Consumer where
  lifecycle := fun _ => none
  tables := tables
  ddlStates := ddlStates
  history := history
  crashed := false

/-! ## Operations and their calls -/

section Calls

variable {store : LifecycleStore} {id : TableID} {call : RecordCall}
  {f : TableLifecycle → Except TransitionError TableLifecycle}

/-- The store after a checked change of a record. -/
def changeRecord (store : LifecycleStore) (id : TableID)
    (f : TableLifecycle → Except TransitionError TableLifecycle) : LifecycleStore :=
  match store id with
  | none => store
  | some lc => update store id (some (accepted lc (f lc)))

lemma records_run_eq_changed (hcall : ∀ pos, call ≠ .register pos)
    (happly : ∀ lc, call.apply lc = accepted lc (f lc)) :
    (records.run store [(id, call)]).1 = changeRecord store id f := by
  change update store id (applyTo (store id) call) = _
  have hmap : applyTo (store id) call = (store id).map fun lc => call.apply lc := by
    cases call with
    | register pos => exact absurd rfl (hcall pos)
    | _ => rfl
  rw [hmap, changeRecord]
  rcases hid : store id with _ | lc
  · rw [map_none, update_eq_self_iff]
    exact hid.symm
  · rw [map_some, happly]

lemma lifecycle_updateLifecycle (s : Consumer) (id : TableID)
    (f : TableLifecycle → Except TransitionError TableLifecycle) :
    (s.updateLifecycle id f).lifecycle = changeRecord s.lifecycle id f := by
  rw [Consumer.updateLifecycle, changeRecord]
  rcases hid : s.lifecycle id with _ | lc
  · rfl
  · dsimp only
    rcases hf : f lc with err | lc'
    · rw [accepted, ← hid, update_eq_self]
    · rfl

lemma saved_change (task : TaskEntry) (doing : Bytes) :
    saved store (change task store id doing f) = changeRecord store id f := by
  rw [change, changeRecord]
  rcases hid : store id with _ | lc
  · rfl
  · dsimp only
    rcases hf : f lc with err | lc'
    · rw [saved, accepted, ← hid, update_eq_self]
    · rfl

variable (task : TaskEntry) (cfg : Config) (env : Env)

/-- A transition of the scheduler is such a change. -/
lemma saved_transition (target : TableState) (name : Bytes) :
    saved store (transition task store id target name) =
      changeRecord store id fun lc => lc.transitionTo target none := by
  rw [transition, changeRecord]
  rcases hid : store id with _ | lc
  · rfl
  · dsimp only
    rcases hf : lc.transitionTo target none with err | lc'
    · rw [saved, accepted, ← hid, update_eq_self]
    · rfl

lemma records_run_first (store : LifecycleStore) (calls : List (TableID × RecordCall))
    (next : TableID × RecordCall) :
    (records.run store (next :: calls)).1 = (records.run (records.run store [next]).1 calls).1 := by
  rw [Machine.run_cons, Machine.run_singleton]

variable (newPos : Option Position) (force : Bool)

lemma saved_restartTable (store : LifecycleStore) (id : TableID) :
    saved store (restartTable task store id newPos force) =
      (records.run store (restartCalls newPos force store id)).1 := by
  rw [restartTable, restartCalls]
  rcases hid : store id with _ | lc
  · rfl
  dsimp only
  split
  · rfl
  by_cases hstate : lc.state = .error
  · rw [if_neg (not_not.mpr hstate), if_neg (not_not.mpr hstate),
      records_run_eq_changed (f := fun lc => lc.resetToPending newPos) (by simp) fun _ => rfl]
    simp [changeRecord, hid, hstate, TableLifecycle.resetToPending, saved, accepted]
  · -- The record goes through the error state.
    rw [if_pos hstate, if_pos hstate, records_run_first,
      records_run_eq_changed (f := fun lc => lc.resetToPending newPos) (by simp) fun _ => rfl,
      records_run_eq_changed (f := fun lc => .ok (lc.setError _)) (by simp) fun _ => rfl]
    simp [changeRecord, hid, TableLifecycle.resetToPending, TableLifecycle.setError, saved,
      accepted]

lemma restartAll_eq (store : LifecycleStore) (ids : List TableID) :
    restartAll task newPos force store ids =
      (records.run store (restartAllCalls newPos force store ids)).1 := by
  induction ids generalizing store with
  | nil => rfl
  | cons id ids ih =>
    rw [restartAllCalls, Machine.run_append, restartAll, List.foldl_cons, saved_restartTable]
    exact ih _

lemma skipTableError_eq (store : LifecycleStore) (db table : Bytes) :
    (Api.skipTableError task store db table).1 =
      (records.run store [(Api.requestTable db table, .skip)]).1 := by
  rw [records_run_eq_changed
    (f := fun lc => .ok (if lc.state = .error then Api.skip lc else lc)) (by simp) fun _ => rfl,
    Api.skipTableError, changeRecord]
  rcases hid : store (Api.requestTable db table) with _ | lc
  · rfl
  · by_cases hstate : lc.state = .error
    · simp [hstate, accepted]
    · simp [hstate, accepted, ← hid]

lemma retryTableLifecycle_eq (task : TaskEntry) (s : Consumer) (db table : Bytes) :
    (Api.retryTableLifecycle task s.lifecycle db table).1 =
      (records.run s.lifecycle ((Operation.retryTableLifecycle db table).calls cfg s)).1 := by
  rw [Api.retryTableLifecycle, Operation.calls]
  rcases hid : s.lifecycle (Api.requestTable db table) with _ | lc
  · rfl
  · by_cases hstate : lc.state = .error
    · have hrestart := saved_restartTable task lc.snapshotPosition true s.lifecycle
        (Api.requestTable db table)
      rw [restartCalls, hid] at hrestart
      simp only [hstate, ne_eq, not_true_eq_false, if_false, Bool.not_true, Bool.false_and,
        Bool.false_eq_true] at hrestart ⊢
      rw [← hrestart]
      rcases restartTable task s.lifecycle (Api.requestTable db table)
        lc.snapshotPosition true with err | store <;> rfl
    · simp [hstate]

lemma lifecycle_handleDDL (env : Env) (s : Consumer) (ev : ChangeEvent) :
    (handleDDL cfg env s ev).state.lifecycle =
      (records.run s.lifecycle (handleDDLCalls cfg env s ev)).1 := by
  rw [handleDDLCalls]
  by_cases hstarts : Starts cfg env ev
  swap
  · obtain ⟨outcome, hskip⟩ := handleDDL_of_not_starts s hstarts
    rw [hskip]
    rfl
  rw [hstarts.handleDDL_eq]
  refine attemptDDL_cases ?_ ?_ ?_
  · -- The table is paused, if the failure could be recorded.
    intro writes err _ _
    rcases hsave : env.saveFailed with _ | msg
    · simp only [failDDL, handleDDLFailure, hsave, lifecycle_updateLifecycle]
      refine Eq.trans ?_ (congrArg (fun calls => (records.run _ calls).1) (if_pos ?_).symm)
      · exact (records_run_eq_changed (by simp) fun _ => rfl).symm
      · simp [Effect.failsDDL]
    · simp only [failDDL, handleDDLFailure, hsave, isNone_some, Bool.and_false]
      rfl
  · exact fun _ _ => rfl
  · intro newTableInfo _ _
    rw [lifecycle_finishDDL, effects_finishDDL]
    split <;> rfl

lemma lifecycle_checkDDLState (env : Env) (s : Consumer) (db tbl : Bytes) :
    (checkDDLState cfg env s db tbl).2.state.lifecycle =
      (records.run s.lifecycle (checkDDLStateCalls cfg env s db tbl)).1 := by
  rw [checkDDLState, checkDDLStateCalls]
  split
  · rfl
  rcases s.ddlStates db tbl with _ | row
  · rfl
  dsimp only
  split
  · rfl
  rcases s.lifecycle (ddlTableID db tbl) with _ | lc
  · rfl
  · dsimp only
    rw [lifecycle_handleDDL, records_run_first, lifecycle_updateLifecycle,
      records_run_eq_changed (f := resume) (by simp) fun _ => rfl]

/-- A table that is not blocked is left alone by the check. -/
lemma state_checkDDLState_of_false {cfg : Config} {env : Env} {s : Consumer} {db tbl : Bytes}
    (h : ¬(checkDDLState cfg env s db tbl).1 = true) :
    (checkDDLState cfg env s db tbl).2.state = s := by
  cases hrow : blockingRow cfg env s db tbl with
  | none => rw [checkDDLState_of_unblocked hrow]
  | some row => exact absurd (by rw [checkDDLState_of_blockingRow hrow]) h

lemma state_routeDML (env : Env) (s : Consumer) (ev : ChangeEvent) :
    (routeDML cfg env s ev).state = s := by
  unfold routeDML
  dsimp only
  repeat' split
  all_goals rfl

lemma lifecycle_route (env : Env) (s : Consumer) (ev : ChangeEvent) :
    (route cfg env s ev).state.lifecycle =
      (records.run s.lifecycle ((Operation.route env ev).calls cfg s)).1 := by
  rw [route, Operation.calls]
  split
  · exact lifecycle_handleDDL cfg env s ev
  · dsimp only
    rw [← lifecycle_checkDDLState]
    split
    · rfl
    · next hfree => rw [state_routeDML, state_checkDDLState_of_false hfree]

/-- Every operation changes the records by the calls that it makes. -/
theorem lifecycle_run (task : TaskEntry) (s : Consumer) (op : Operation) :
    (op.run cfg task s).lifecycle = (records.run s.lifecycle (op.calls cfg s)).1 := by
  rcases op with ⟨id, pos⟩ | ⟨id, target, pos⟩ | id | ⟨id, msg⟩ | id | ⟨id, newPos, force⟩ |
    ⟨schema, newPos, force, order⟩ | id | id | ⟨db, table⟩ | ⟨db, table⟩ | ⟨env, ev⟩
  case addTable => rfl
  case transitionTo =>
    exact (lifecycle_updateLifecycle s id _).trans
      (records_run_eq_changed (by simp) fun _ => rfl).symm
  case onSnapshotComplete =>
    exact (saved_transition task _ _).trans (records_run_eq_changed (by simp) fun _ => rfl).symm
  case onSnapshotError =>
    exact (saved_change task _).trans (records_run_eq_changed (by simp) fun _ => rfl).symm
  case onCaughtUp =>
    exact (saved_transition task _ _).trans (records_run_eq_changed (by simp) fun _ => rfl).symm
  case restartTable => exact saved_restartTable task newPos force s.lifecycle id
  case restartSchema => exact restartAll_eq task newPos force s.lifecycle _
  case pauseTable =>
    exact (saved_change task _).trans (records_run_eq_changed (by simp) fun _ => rfl).symm
  case resumeTable =>
    exact (saved_change task _).trans (records_run_eq_changed (by simp) fun _ => rfl).symm
  case retryTableLifecycle => exact retryTableLifecycle_eq cfg task s db table
  case skipTableError => exact skipTableError_eq task s.lifecycle db table
  case route => exact lifecycle_route cfg env s ev

end Calls

end DataStream.Lifecycle
