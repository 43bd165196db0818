import DataStream.Lifecycle.SnapshotScheduler

/-!
# The lifecycle requests of the API

The handlers of `internal/api/lifecycle.go` that change the state of a table by themselves. A
request names the table by database and table name. `retryTableLifecycle` restarts a table in error
from its snapshot position, through the scheduler. `skipTableError` changes the record directly: it
clears the error and assigns the state after the one in which the error occurred, without a check of
the transition.

The other handlers read, or pass the request on to the scheduler: pausing and resuming a table, and
restarting the tables and databases of a list one after the other.
-/

namespace DataStream.Api

open Source Lifecycle

/-- The answer to a request: the HTTP status and the text of an error, or the state that an error
was skipped to. -/
inductive Response where
  | error (status : ℕ) (msg : Bytes)
  | retrying
  | skipped (newState : TableState)
  deriving DecidableEq, Repr

variable (task : TaskEntry) (store : LifecycleStore) (db table : Bytes)

def requestTable : TableID := { database := db, schema := [], table }

/-- The name of a table in the text of an error. -/
private def tableName : Bytes := lit "table " ++ db ++ lit "." ++ table

/-- The answer when a table is not in the store. -/
def notFound (task : TaskEntry) (db table : Bytes) : Response :=
  .error 404 (tableName db table ++ lit " not found: " ++ task.notFound (requestTable db table))

/-- The answer when a table is in another state than error. -/
def notInError : Response := .error 400 (tableName db table ++ lit " is not in error state")

/-- `retryTableLifecycle`, up to the removal of the cache file. -/
def retryTableLifecycle : LifecycleStore × Response :=
  match store (requestTable db table) with
  | none => (store, notFound task db table)
  | some lc =>
    if lc.state ≠ .error then (store, notInError db table)
    else
      match SnapshotScheduler.restartTable task store (requestTable db table)
          lc.snapshotPosition true with
      | .error err => (store, .error 500 (lit "failed to retry table: " ++ err))
      | .ok store => (store, .retrying)

/-- The state that an error is skipped to, by the state in which it occurred. -/
def skipTarget (prevState : TableState) : TableState :=
  match prevState with
  | .pending | .snapshotting => .catchingUp
  | .catchingUp => .streaming
  | _ => .streaming

/-- The record after its error is skipped. -/
def skip (lc : TableLifecycle) : TableLifecycle :=
  { lc with
    lastError := []
    previousState := lc.state
    state := skipTarget lc.previousState }

def skipTableError : LifecycleStore × Response :=
  match store (requestTable db table) with
  | none => (store, notFound task db table)
  | some lc =>
    if lc.state ≠ .error then (store, notInError db table)
    else
      (Function.update store (requestTable db table) (some (skip lc)),
        .skipped (skipTarget lc.previousState))

end DataStream.Api
