import DataStream.Event.Position

/-!
# The lifecycle of a table

`source.TableLifecycle`, the state machine of one table in the pipeline, and the in-memory
lifecycle store of one task. The time of the last change and the catching-up progress are left
out: no transition reads them.

* `transitionTo_eq_ok_iff`: what a transition requires and does.
-/

namespace DataStream.Source

open Event

/-- The state of a table in the pipeline. -/
inductive TableState where
  | pending
  | snapshotting
  | catchingUp
  | streaming
  | error
  | paused
  /-- The empty string, the previous state of a table that has not changed state. -/
  | unset
  deriving DecidableEq, Repr

def TableState.quoted (s : TableState) : Bytes :=
  lit "\"" ++ (match s with
    | .pending => lit "pending"
    | .snapshotting => lit "snapshotting"
    | .catchingUp => lit "catching_up"
    | .streaming => lit "streaming"
    | .error => lit "error"
    | .paused => lit "paused"
    | .unset => []) ++ lit "\""

/-- The states that `TransitionTo` may enter from a state; `none` if no transition is defined from
it. -/
def validTransitions : TableState → Option (List TableState)
  | .pending => some [.snapshotting]
  | .snapshotting => some [.catchingUp, .error]
  | .catchingUp => some [.streaming, .catchingUp, .error, .paused]
  | .streaming => some [.error, .paused]
  | .error | .paused | .unset => none

/-- The identity of a table; `schema` is empty for sources without schemas. -/
structure TableID where
  database : Bytes
  schema : Bytes
  table : Bytes
  deriving DecidableEq, Repr

/-- `TableID.String`. -/
def TableID.toBytes (t : TableID) : Bytes :=
  if t.schema ≠ [] then t.database ++ lit "." ++ t.schema ++ lit "." ++ t.table
  else t.database ++ lit "." ++ t.table

structure TableLifecycle where
  state : TableState
  previousState : TableState
  snapshotPosition : Option Position
  streamPosition : Option Position
  retryCount : Int64
  maxRetries : Int64
  lastError : Bytes
  deriving DecidableEq, Repr

/-- Why a lifecycle operation was refused. -/
inductive TransitionError where
  | noTransitions (current : TableState)
  | invalid (current target : TableState)
  | notPausable (current : TableState)
  | notPaused (current : TableState)
  | notInError (current : TableState)
  deriving DecidableEq, Repr

def TransitionError.message : TransitionError → Bytes
  | .noTransitions s => lit "no transitions defined from state " ++ s.quoted
  | .invalid s t => lit "invalid transition from " ++ s.quoted ++ lit " to " ++ t.quoted
  | .notPausable s =>
    lit "Pause only allowed from catching_up or streaming, current state: " ++ s.quoted
  | .notPaused s => lit "Resume only allowed from paused state, current state: " ++ s.quoted
  | .notInError s => lit "ResetToPending only allowed from error state, current state: " ++ s.quoted

namespace TableLifecycle

/-- `NewTableLifecycle`. -/
def new : TableLifecycle where
  state := .pending
  previousState := .unset
  snapshotPosition := none
  streamPosition := none
  retryCount := 0
  maxRetries := 3
  lastError := []

variable (tl : TableLifecycle)

def transitionTo (newState : TableState) (pos : Option Position) :
    Except TransitionError TableLifecycle :=
  match validTransitions tl.state with
  | none => .error (.noTransitions tl.state)
  | some allowed =>
    if newState ∈ allowed then
      .ok { tl with
        previousState := tl.state
        state := newState
        snapshotPosition :=
          if newState = .snapshotting ∧ pos.isSome then pos else tl.snapshotPosition
        streamPosition := if pos.isSome then pos else tl.streamPosition }
    else .error (.invalid tl.state newState)

/-- `SetError`: enter the error state from any state. -/
def setError (msg : Bytes) : TableLifecycle :=
  { tl with previousState := tl.state, state := .error, lastError := msg }

def resetToPending (newSnapshotPos : Option Position) : Except TransitionError TableLifecycle :=
  if tl.state ≠ .error then .error (.notInError tl.state)
  else
    .ok { tl with
      snapshotPosition := newSnapshotPos
      previousState := tl.state
      state := .pending
      lastError := []
      retryCount := tl.retryCount + 1 }

def pause : Except TransitionError TableLifecycle :=
  if tl.state ≠ .catchingUp ∧ tl.state ≠ .streaming then .error (.notPausable tl.state)
  else .ok { tl with previousState := tl.state, state := .paused }

/-- `Resume`: return to the previous state. -/
def resume : Except TransitionError TableLifecycle :=
  if tl.state ≠ .paused then .error (.notPaused tl.state)
  else .ok { tl with state := tl.previousState, previousState := .paused }

theorem transitionTo_eq_ok_iff (tl tl' : TableLifecycle) (newState : TableState)
    (pos : Option Position) :
    tl.transitionTo newState pos = .ok tl' ↔
      (∃ allowed, validTransitions tl.state = some allowed ∧ newState ∈ allowed) ∧
        tl' = { tl with
          previousState := tl.state
          state := newState
          snapshotPosition :=
            if newState = .snapshotting ∧ pos.isSome then pos else tl.snapshotPosition
          streamPosition := if pos.isSome then pos else tl.streamPosition } := by
  unfold transitionTo
  cases validTransitions tl.state with
  | none => simp
  | some allowed =>
    by_cases hmem : newState ∈ allowed
    · simp only [hmem, if_true, Except.ok.injEq]
      exact ⟨fun h => ⟨⟨allowed, rfl, hmem⟩, h.symm⟩, fun h => h.2.symm⟩
    · simp [hmem]

end TableLifecycle

/-- The lifecycle store of one task: the record of each registered table. The store hands out
pointers, so a change made through a record is a change of the store. -/
abbrev LifecycleStore := TableID → Option TableLifecycle

/-- The task that a lifecycle store is asked about. -/
structure TaskEntry where
  /-- The identifier of the task, in quotes. -/
  taskID : Bytes
  /-- A table of the task has been saved. -/
  known : Bool

/-- The error of `Get` for a table that is not in the store. -/
def TaskEntry.notFound (task : TaskEntry) (id : TableID) : Bytes :=
  if task.known then lit "table " ++ id.toBytes ++ lit " not found in task " ++ task.taskID
  else lit "task " ++ task.taskID ++ lit " not found"

end DataStream.Source
