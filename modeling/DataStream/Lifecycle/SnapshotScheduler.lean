import DataStream.Source.TableLifecycle

/-!
# The snapshot scheduler

The calls of `lifecycle.SnapshotScheduler` that register a table, restart it, pause and resume it,
and move it from its snapshot to streaming or to the error state. Those that change the state of a
table look it up, change the record and save it; the in-memory store does not fail to save. The
removal of the cache file in `OnCaughtUp` and in the restarts is a step of its own, after the state
has changed.
-/

namespace DataStream.Lifecycle.SnapshotScheduler

open Event Source Function TableLifecycle

variable (task : TaskEntry) (store : LifecycleStore) (id : TableID)

/-- Look a table up, make a transition and save; `name` is the name of the new state. -/
def transition (target : TableState) (name : Bytes) : Except Bytes LifecycleStore :=
  match store id with
  | none => .error (lit "get table " ++ id.toBytes ++ lit ": " ++ task.notFound id)
  | some lc =>
    -- The position argument is nil, so the stored positions stay.
    match lc.transitionTo target none with
    | .error err =>
      .error (lit "transition " ++ id.toBytes ++ lit " to " ++ name ++ lit ": " ++ err.message)
    | .ok lc => .ok (update store id (some lc))

def onSnapshotComplete : Except Bytes LifecycleStore :=
  transition task store id .catchingUp (lit "catching_up")

/-- `OnCaughtUp`, up to the removal of the cache file. -/
def onCaughtUp : Except Bytes LifecycleStore :=
  transition task store id .streaming (lit "streaming")

/-- `AddTable`. The cache of the table is left as it is. -/
def addTable (snapshotPos : Option Position) : LifecycleStore :=
  update store id (some { new with snapshotPosition := snapshotPos })

/-- `RestartTable`, up to the removal of the cache file. -/
def restartTable (newPos : Option Position) (force : Bool) : Except Bytes LifecycleStore :=
  match store id with
  | none => .error (lit "get table " ++ id.toBytes ++ lit ": " ++ task.notFound id)
  | some lc =>
    if !force && lc.state = .streaming then
      .error (lit "table " ++ id.toBytes ++ lit " is streaming, use force=true to restart")
    else
      -- `ResetToPending` requires the error state.
      let lc := if lc.state ≠ .error then lc.setError (lit "restart requested") else lc
      match lc.resetToPending newPos with
      | .error err =>
        .error (lit "reset table " ++ id.toBytes ++ lit " to pending: " ++ err.message)
      | .ok lc => .ok (update store id (some lc))

/-- Look a table up, change its record and save; `doing` names the change in an error. -/
def change (doing : Bytes) (f : TableLifecycle → Except TransitionError TableLifecycle) :
    Except Bytes LifecycleStore :=
  match store id with
  | none => .error (lit "get table " ++ id.toBytes ++ lit ": " ++ task.notFound id)
  | some lc =>
    match f lc with
    | .error err => .error (doing ++ id.toBytes ++ lit ": " ++ err.message)
    | .ok lc => .ok (update store id (some lc))

def onSnapshotError (errMsg : Bytes) : Except Bytes LifecycleStore :=
  -- `SetError` is allowed in every state.
  change task store id [] fun lc => .ok (lc.setError errMsg)

def pauseTable : Except Bytes LifecycleStore := change task store id (lit "pause table ") pause

def resumeTable : Except Bytes LifecycleStore := change task store id (lit "resume table ") resume

/-- A restart can reset a table in every state. -/
lemma exists_resetToPending (lc : TableLifecycle) (msg : Bytes) (newPos : Option Position) :
    ∃ lc', (if lc.state ≠ .error then lc.setError msg else lc).resetToPending newPos = .ok lc' ∧
      lc'.state = .pending := by
  by_cases h : lc.state = .error
  · simp [h, resetToPending]
  · simp [h, resetToPending, setError]

/-- A restart that succeeds leaves the table pending, and the others as they were. -/
lemma exists_of_restartTable_eq_ok {task : TaskEntry} {store store' : LifecycleStore} {id : TableID}
    {newPos : Option Position} {force : Bool}
    (h : restartTable task store id newPos force = .ok store') :
    ∃ lc, lc.state = .pending ∧ store' = update store id (some lc) := by
  unfold restartTable at h
  cases hid : store id with
  | none =>
    rw [hid] at h
    exact nomatch h
  | some lc =>
    obtain ⟨lc', hreset, hpending⟩ := exists_resetToPending lc (lit "restart requested") newPos
    simp only [hid, hreset] at h
    split_ifs at h
    exact ⟨lc', hpending, (Except.ok.inj h).symm⟩

end DataStream.Lifecycle.SnapshotScheduler
