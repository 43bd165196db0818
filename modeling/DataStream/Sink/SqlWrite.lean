import DataStream.Foundations.Lockstep
import DataStream.Foundations.Machine
import DataStream.Sink.HashDispatcher
import DataStream.Sink.SqlStatements

/-!
# Transactions of the SQL sinks

`Write` of a SQL sink puts the statements of a batch into one transaction when `UseTransaction` is
set. `GetPosition` is documented as the last committed position, but the loop moves the position
and the counter `EventsWritten` after each event, before the transaction is committed, and nothing
moves them back. When an event fails, the connectors of Oracle and SQL Server roll the transaction
back; those of MySQL and PostgreSQL forget it and leave it open.

The answers of the database to `BeginTx`, to each statement and to `Commit` are part of a call. A
transaction whose `Commit` fails is over, without having been committed.

* `reports_committed_iff`: the sink reports committed progress exactly if every call is clean.
-/

namespace DataStream.Sink

open Event List

/-! ## Calls and their effect -/

/-- How far a transaction has come. -/
inductive TxStatus where
  | active
  | committed
  | rolledBack
  deriving DecidableEq

/-- A connector, with what its calls have done to the database. -/
structure SinkState where
  /-- The field `position`; `none` is nil. -/
  position : Option Position
  eventsWritten : ℕ
  eventsFailed : ℕ
  /-- The transactions begun so far, the latest first. -/
  txs : List TxStatus
  /-- The events of the committed batches, in the order of their commits. -/
  durable : List ChangeEvent
  crashed : Bool

namespace SinkState

/-- A connector that `Initialize` has just set up. -/
def start : SinkState where
  position := none
  eventsWritten := 0
  eventsFailed := 0
  txs := []
  durable := []
  crashed := false

variable (s : SinkState)

def getPosition : Option Position := s.position

def beginTx : SinkState := { s with txs := .active :: s.txs }

/-- The latest transaction is committed with the events of a batch. -/
def commit (events : List ChangeEvent) : SinkState :=
  { s with txs := .committed :: s.txs.tail, durable := s.durable ++ events }

/-- The latest transaction ends without a commit. -/
def abort : SinkState := { s with txs := .rolledBack :: s.txs.tail }

/-- `Tx.Rollback`, which has no effect on a transaction that is over. -/
def rollback : SinkState := if s.txs.head? = some .active then s.abort else s

end SinkState

open SinkState

/-- A call of `Write`: its batch, and how the runtime and the database answer it. -/
structure WriteCall where
  events : List ChangeEvent
  /-- The order in which the columns of the `i`th event are visited. -/
  order : ℕ → List Bytes → List Bytes
  beginErr : Option Bytes
  /-- The error of `ExecContext` for the `i`th event, if a statement is executed for it. -/
  execErr : ℕ → Option Bytes
  commitErr : Option Bytes

/-- How the attempt at an event ends, given the error of its statement. -/
def Request.outcome : Request → Option Bytes → Outcome
  | .nothing, _ => .ok
  | .reject err, _ => .error err
  | .exec _, none => .ok
  | .exec query, some err => .error (query.failure ++ err)
  | .overflow, _ => .panic

namespace SqlSink

variable (sink : SqlSink)

variable (s : SinkState) (call : WriteCall)

/-- How the attempt at the `i`th event of a call ends. -/
def outcomeAt (i : ℕ) (e : ChangeEvent) : Outcome :=
  (sink.request (call.order i) e).outcome (call.execErr i)

def writeLoop (call : WriteCall) : ℕ → SinkState → List ChangeEvent → SinkState × Outcome
  | _, s, [] => (s, .ok)
  | i, s, e :: rest =>
    match sink.outcomeAt call i e with
    | .ok => writeLoop call (i + 1)
        { s with
          eventsWritten := s.eventsWritten + 1
          position := some e.position
          -- Without a transaction each statement is committed on its own.
          durable := if sink.useTransaction then s.durable else s.durable ++ [e] } rest
    | .error err => ({ s with eventsFailed := s.eventsFailed + 1 }, .error err)
    | .panic => ({ s with crashed := true }, .panic)

/-- The deferred function of `Write`. -/
def deferred : SinkState := if sink.rollsBack then s.rollback else s

def write : SinkState × Outcome :=
  if s.crashed then (s, .panic)
  else if sink.useTransaction then
    match call.beginErr with
    | some err => (s, .error (lit "failed to begin transaction: " ++ err))
    | none =>
      let done := sink.writeLoop call 0 s.beginTx call.events
      match done.2 with
      | .ok =>
        match call.commitErr with
        | none => (sink.deferred (done.1.commit call.events), .ok)
        | some err =>
          (sink.deferred done.1.abort, .error (lit "failed to commit transaction: " ++ err))
      | .error err => (sink.deferred done.1, .error err)
      | .panic => done
  else sink.writeLoop call 0 s call.events

/-- A connector whose `Write` is called again and again. -/
def writes : Machine SinkState WriteCall Outcome where
  step s call := ((sink.write s call).1, [(sink.write s call).2])

/-! ## Clean calls -/

/-- How the attempts at the events end, from the `i`th on. -/
def outcomes (call : WriteCall) : ℕ → List ChangeEvent → List Outcome
  | _, [] => []
  | i, e :: rest => sink.outcomeAt call i e :: outcomes call (i + 1) rest

/-- How the first attempt that does not succeed ends, if there is one. -/
def firstFailure : Option Outcome := (sink.outcomes call 0 call.events).find? (· ≠ .ok)

/-- The number of events before the first one that does not succeed. -/
def succeeding (i : ℕ) (events : List ChangeEvent) : ℕ :=
  ((sink.outcomes call i events).takeWhile (· = .ok)).length

/-- The call never returns: it comes to an event on which the stack overflows. -/
def Overflows : Prop := call.beginErr = none ∧ sink.firstFailure call = some .panic

/-- The transaction is not begun; or every event succeeds, and so does the commit unless the batch
is empty; or the first event of the batch fails, in a connector that rolls back. -/
def Clean : Prop :=
  call.beginErr ≠ none ∨
    (sink.firstFailure call = none ∧ (call.commitErr = none ∨ call.events = [])) ∨
    (sink.rollsBack = true ∧ ∃ err, (sink.outcomes call 0 call.events).head? = some (.error err))

/-- Every call is clean, up to the one that ends the process, if there is one. -/
def AllClean : List WriteCall → Prop
  | [] => True
  | call :: rest => sink.Overflows call ∨ (sink.Clean call ∧ AllClean rest)

end SqlSink

/-- A connector reports only committed progress: its position is that of the last committed event,
it counts the committed events, and no transaction is left open. -/
structure SinkState.Committed (s : SinkState) : Prop where
  position : s.getPosition = s.durable.getLast?.map ChangeEvent.position
  written : s.eventsWritten = s.durable.length
  settled : TxStatus.active ∉ s.txs

/-- What is to hold after a call, if the call returns at all. -/
def SinkState.Reports (s : SinkState) : Prop := s.crashed = true ∨ s.Committed

/-! ## The loop -/

namespace SqlSink

variable {sink : SqlSink} {call : WriteCall}

/-- The loop within a transaction: it counts the events before the first failure, its position is
that of the last of them, and it ends as the first failure does. -/
theorem writeLoop_eq (htx : sink.useTransaction = true) (i : ℕ) (s : SinkState)
    (events : List ChangeEvent) :
    sink.writeLoop call i s events =
      let n := sink.succeeding call i events
      let failure := ((sink.outcomes call i events).find? (· ≠ .ok)).getD .ok
      ({ s with
          eventsWritten := s.eventsWritten + n
          position := ((events.take n).getLast?.map ChangeEvent.position).or s.position
          eventsFailed := s.eventsFailed + if failure = .ok ∨ failure = .panic then 0 else 1
          crashed := s.crashed || failure = .panic }, failure) := by
  induction events generalizing i s with
  | nil => simp [writeLoop, succeeding, outcomes]
  | cons e rest ih =>
    cases houtcome : sink.outcomeAt call i e with
    | ok =>
      -- The rest of the loop starts from the position of this event.
      have hlast : ∀ n, ((e :: rest.take n).getLast?.map ChangeEvent.position) =
          ((rest.take n).getLast?.map ChangeEvent.position).or (some e.position) := by
        intro n
        cases hrest : rest.take n with
        | nil => rfl
        | cons e' rest' => simp [getLast?_cons]
      simp only [writeLoop, houtcome, htx, if_true, ih]
      simp [succeeding, outcomes, houtcome, hlast, Nat.add_assoc, Nat.add_comm 1]
    | error _ | panic => simp [writeLoop, houtcome, succeeding, outcomes]

lemma succeeding_eq_length (h : sink.firstFailure call = none) :
    sink.succeeding call 0 call.events = call.events.length := by
  have hlength : ∀ (events : List ChangeEvent) (i : ℕ),
      (sink.outcomes call i events).length = events.length := by
    intro events
    induction events with
    | nil => exact fun _ => rfl
    | cons e rest ih => exact fun i => congrArg (· + 1) (ih (i + 1))
  rw [firstFailure, find?_eq_none] at h
  have hall : (sink.outcomes call 0 call.events).takeWhile (· = .ok) =
      sink.outcomes call 0 call.events :=
    takeWhile_eq_self_iff.mpr fun o ho => by simpa using h o ho
  rw [succeeding, hall, hlength]

lemma succeeding_eq_zero_iff {err : Bytes} (h : sink.firstFailure call = some (.error err)) :
    sink.succeeding call 0 call.events = 0 ↔
      ∃ err, (sink.outcomes call 0 call.events).head? = some (.error err) := by
  unfold firstFailure at h
  rw [succeeding]
  cases houtcomes : sink.outcomes call 0 call.events with
  | nil => simp [houtcomes] at h
  | cons o rest =>
    rw [houtcomes] at h
    cases o with
    | ok => simp
    | error err => simp
    | panic => simp at h

/-! ## One call -/

variable {s : SinkState}

@[simp]
lemma deferred_commit (events : List ChangeEvent) :
    sink.deferred (s.commit events) = s.commit events := by
  simp [deferred, rollback, commit]

@[simp]
lemma deferred_abort : sink.deferred s.abort = s.abort := by
  simp [deferred, rollback, abort]

lemma deferred_of_active {txs : List TxStatus} (h : s.txs = .active :: txs) :
    sink.deferred s = if sink.rollsBack then s.abort else s := by
  simp [deferred, rollback, h]

/-- What the loop leaves: the open transaction, nothing committed, and position and counter moved
over the events that succeeded. -/
structure Leaves (sink : SqlSink) (call : WriteCall) (s done : SinkState) : Prop where
  txs : done.txs = .active :: s.txs
  durable : done.durable = s.durable
  written : done.eventsWritten = s.eventsWritten + sink.succeeding call 0 call.events
  position : done.getPosition =
    ((call.events.take (sink.succeeding call 0 call.events)).getLast?.map
      ChangeEvent.position).or s.getPosition

lemma leaves_writeLoop (htx : sink.useTransaction = true) :
    Leaves sink call s (sink.writeLoop call 0 s.beginTx call.events).1 := by
  rw [writeLoop_eq htx]
  exact ⟨rfl, rfl, rfl, rfl⟩

lemma crashed_writeLoop (htx : sink.useTransaction = true) (hs : s.crashed = false) :
    (sink.writeLoop call 0 s.beginTx call.events).1.crashed = true ↔
      sink.firstFailure call = some .panic := by
  rw [writeLoop_eq htx, firstFailure]
  cases (sink.outcomes call 0 call.events).find? (· ≠ .ok) <;> simp [beginTx, hs]

namespace Leaves

variable {done : SinkState}

lemma not_committed (hleaves : Leaves sink call s done) : ¬ done.Committed := by
  intro hdone
  apply hdone.settled
  rw [hleaves.txs]
  exact mem_cons_self

lemma committed_abort_iff (hleaves : Leaves sink call s done) (h : s.Committed) :
    done.abort.Committed ↔ sink.succeeding call 0 call.events = 0 := by
  constructor
  · intro hdone
    have hcount : done.eventsWritten = done.durable.length := hdone.written
    rw [hleaves.written, hleaves.durable, h.written] at hcount
    omega
  · intro hn
    refine ⟨?_, ?_, ?_⟩
    · change done.getPosition = done.durable.getLast?.map ChangeEvent.position
      rw [hleaves.position, hleaves.durable, hn, ← h.position]
      rfl
    · change done.eventsWritten = done.durable.length
      rw [hleaves.written, hleaves.durable, hn, h.written, Nat.add_zero]
    · change TxStatus.active ∉ TxStatus.rolledBack :: done.txs.tail
      simp [hleaves.txs, h.settled]

lemma committed_commit (hleaves : Leaves sink call s done) (h : s.Committed)
    (hall : sink.succeeding call 0 call.events = call.events.length) :
    (done.commit call.events).Committed := by
  refine ⟨?_, ?_, ?_⟩
  · change done.getPosition = (done.durable ++ call.events).getLast?.map ChangeEvent.position
    rw [hleaves.position, hleaves.durable, hall, take_length, h.position, getLast?_append]
    cases call.events.getLast? <;> rfl
  · change done.eventsWritten = (done.durable ++ call.events).length
    rw [hleaves.written, hleaves.durable, hall, h.written, length_append]
  · change TxStatus.active ∉ TxStatus.committed :: done.txs.tail
    simp [hleaves.txs, h.settled]

end Leaves

lemma firstFailure_ne_ok : sink.firstFailure call ≠ some .ok := by
  intro hfailure
  simpa using find?_some hfailure

lemma firstFailure_of_head {err : Bytes}
    (h : (sink.outcomes call 0 call.events).head? = some (.error err)) :
    sink.firstFailure call = some (.error err) := by
  obtain ⟨rest, hrest⟩ := head?_eq_some_iff.mp h
  simp [firstFailure, hrest]

/-- The five ways in which a call within a transaction ends, with the state it leaves. -/
inductive Ends (sink : SqlSink) (s : SinkState) (call : WriteCall) : SinkState → Prop where
  | notBegun (err : Bytes) (hbegin : call.beginErr = some err) : Ends sink s call s
  | committed (hbegin : call.beginErr = none) (hfailure : sink.firstFailure call = none)
      (hcommit : call.commitErr = none) :
      Ends sink s call ((sink.writeLoop call 0 s.beginTx call.events).1.commit call.events)
  | aborted (err : Bytes) (hbegin : call.beginErr = none)
      (hfailure : sink.firstFailure call = none) (hcommit : call.commitErr = some err) :
      Ends sink s call (sink.writeLoop call 0 s.beginTx call.events).1.abort
  | failed (err : Bytes) (hbegin : call.beginErr = none)
      (hfailure : sink.firstFailure call = some (.error err)) :
      Ends sink s call (sink.deferred (sink.writeLoop call 0 s.beginTx call.events).1)
  | overflowed (hbegin : call.beginErr = none)
      (hfailure : sink.firstFailure call = some .panic) :
      Ends sink s call (sink.writeLoop call 0 s.beginTx call.events).1

section Step

variable (htx : sink.useTransaction = true) (hs : s.crashed = false)

include htx hs

lemma ends_write : Ends sink s call (sink.write s call).1 := by
  have hend : (sink.writeLoop call 0 s.beginTx call.events).2 =
      (sink.firstFailure call).getD .ok := by
    rw [writeLoop_eq htx, firstFailure]
  cases hbegin : call.beginErr with
  | some err =>
    simp only [write, hs, htx, hbegin]
    exact .notBegun err hbegin
  | none =>
    -- The loop ends as the first failure does; without one the commit decides.
    simp only [write, hs, htx, hbegin, hend]
    cases hfailure : sink.firstFailure call with
    | none =>
      cases hcommit : call.commitErr with
      | none => simpa using Ends.committed hbegin hfailure hcommit
      | some err => simpa using Ends.aborted err hbegin hfailure hcommit
    | some o =>
      cases o with
      | ok => exact absurd hfailure firstFailure_ne_ok
      | error err => exact .failed err hbegin hfailure
      | panic => exact .overflowed hbegin hfailure

lemma crashed_write_iff : (sink.write s call).1.crashed = true ↔ sink.Overflows call := by
  have hloop : _ ↔ sink.firstFailure call = some .panic := crashed_writeLoop htx hs
  have hdeferred : ∀ done : SinkState, (sink.deferred done).crashed = done.crashed := by
    intro done
    unfold deferred rollback
    split_ifs <;> rfl
  unfold Overflows
  -- Only the loop can end the process; what comes after it does not touch the flag.
  generalize hwrite : (sink.write s call).1 = s'
  have hends : Ends sink s call s' := hwrite ▸ ends_write htx hs
  cases hends with
  | notBegun err hbegin => simp [hs, hbegin]
  | failed err hbegin hfailure => rw [hdeferred, hloop]; simp [hbegin]
  | committed hbegin | aborted _ hbegin | overflowed hbegin => exact hloop.trans (by simp [hbegin])

/-- What one call of `Write` preserves: the report is right after a call that returns exactly if
the call is clean. -/
theorem committed_write_iff (h : s.Committed) (hreturns : ¬ sink.Overflows call) :
    (sink.write s call).1.Committed ↔ sink.Clean call := by
  have hleaves : Leaves sink call s _ := leaves_writeLoop htx
  -- Without a failure the first event has not failed either.
  have hhead : sink.firstFailure call = none →
      ¬ ∃ err, (sink.outcomes call 0 call.events).head? = some (.error err) := by
    rintro hfailure ⟨err, herr⟩
    rw [firstFailure_of_head herr] at hfailure
    cases hfailure
  unfold Clean
  generalize hwrite : (sink.write s call).1 = s'
  have hends : Ends sink s call s' := hwrite ▸ ends_write htx hs
  cases hends with
  | notBegun err hbegin => exact iff_of_true h (Or.inl (by simp [hbegin]))
  | committed hbegin hfailure hcommit =>
    have hall := succeeding_eq_length hfailure
    exact iff_of_true (hleaves.committed_commit h hall) (by simp [hfailure, hcommit])
  | aborted err hbegin hfailure hcommit =>
    rw [hleaves.committed_abort_iff h, succeeding_eq_length hfailure, length_eq_zero_iff]
    simp [hbegin, hfailure, hcommit, hhead hfailure]
  | overflowed hbegin hfailure => exact absurd ⟨hbegin, hfailure⟩ hreturns
  | failed err hbegin hfailure =>
    rw [deferred_of_active hleaves.txs]
    -- Only a connector that rolls back leaves no open transaction behind.
    cases hrolls : sink.rollsBack with
    | false => simpa [hbegin, hfailure] using hleaves.not_committed
    | true =>
      rw [if_pos rfl, hleaves.committed_abort_iff h, succeeding_eq_zero_iff hfailure]
      simp [hbegin, hfailure]

end Step

/-! ## Runs -/

lemma crashed_run_of_crashed (h : s.crashed = true) (calls : List WriteCall) :
    (sink.writes.run s calls).1.crashed = true := by
  refine sink.writes.run_induction (motive := fun s _ => s.crashed = true) calls h ?_
  intro s _ call hs
  simp [writes, write, hs]

lemma reports_run_iff (htx : sink.useTransaction = true) (calls : List WriteCall)
    (hs : s.crashed = false) (h : s.Committed) :
    (∀ past, past <+: calls → (sink.writes.run s past).1.Reports) ↔ sink.AllClean calls := by
  induction calls generalizing s with
  | nil =>
    refine iff_of_true ?_ trivial
    intro past hpast
    rw [prefix_nil.mp hpast]
    exact Or.inr h
  | cons call rest ih =>
    have hcrashed : _ ↔ sink.Overflows call := crashed_write_iff htx hs
    have hnow : (sink.writes.run s []).1.Reports := Or.inr h
    rw [forall_past_cons, and_iff_right hnow, AllClean]
    change (∀ past, past <+: rest → (sink.writes.run (sink.write s call).1 past).1.Reports) ↔ _
    by_cases hoverflow : sink.Overflows call
    · -- The process is gone, and nothing is asked of the calls after it.
      refine iff_of_true ?_ (Or.inl hoverflow)
      intro past _
      exact Or.inl (crashed_run_of_crashed (hcrashed.mpr hoverflow) past)
    · have halive : (sink.write s call).1.crashed = false := by
        rw [← Bool.not_eq_true, hcrashed]
        exact hoverflow
      have hclean := committed_write_iff htx hs h hoverflow
      simp only [hoverflow, false_or]
      constructor
      · intro hall
        have hfirst : (sink.write s call).1.Reports := hall [] nil_prefix
        have hcommitted : (sink.write s call).1.Committed := by
          simpa [Reports, halive] using hfirst
        exact ⟨hclean.mp hcommitted, (ih halive hcommitted).mp hall⟩
      · rintro ⟨hcall, hrest⟩
        exact (ih halive (hclean.mpr hcall)).mpr hrest

/-- A connector reports only committed progress after every call of `Write` exactly if every call
is clean. -/
theorem reports_committed_iff (sink : SqlSink) (htx : sink.useTransaction = true)
    (calls : List WriteCall) :
    (∀ past, past <+: calls → (sink.writes.run .start past).1.Reports) ↔ sink.AllClean calls := by
  apply reports_run_iff htx calls rfl
  exact ⟨rfl, rfl, by simp [start]⟩

def mysqlSink : SqlSink :=
  .mysql { insertStrategy := lit "insert", useTransaction := true, ddlPolicy := lit "apply" }

def oracleSink : SqlSink :=
  .oracle { useTransaction := true, ddlPolicy := lit "apply", defaultSchema := [] }

/-- A call that writes two users, with the answers of the database. -/
def twoUsers (execErr : ℕ → Option Bytes) (commitErr : Option Bytes) : WriteCall where
  events := [userInsert 1 (lit "ann"), userInsert 2 (lit "eve")]
  order _ names := names
  beginErr := none
  execErr := execErr
  commitErr := commitErr

/-- A batch that is committed and then one that is rolled back because of its first event: what the
connector reports is right after the first call and after both. -/
theorem reports_committed_twoCalls :
    (oracleSink.writes.run .start [twoUsers (fun _ => none) none]).1.Reports ∧
      (oracleSink.writes.run .start
        [twoUsers (fun _ => none) none, twoUsers (fun _ => some []) none]).1.Reports := by
  have hclean : oracleSink.AllClean
      [twoUsers (fun _ => none) none, twoUsers (fun _ => some []) none] := by
    refine Or.inr ⟨Or.inr (Or.inl ⟨?_, Or.inl rfl⟩),
      Or.inr ⟨Or.inr (Or.inr ⟨rfl, lit "failed to execute insert: ", ?_⟩), trivial⟩⟩
    · decide
    · decide
  have hreports := (reports_committed_iff oracleSink rfl _).mpr hclean
  exact ⟨hreports _ (prefix_append _ [_]), hreports _ prefix_rfl⟩

/-- The second of two inserts fails: position and counter stand at the first, and the transaction is
open. -/
theorem not_forall_reports_committed :
    ¬ ∀ sink : SqlSink, sink.useTransaction = true → ∀ calls : List WriteCall,
      ∀ past, past <+: calls → (sink.writes.run .start past).1.Reports := by
  intro h
  let call := twoUsers (fun i => if i = 1 then some (lit "Deadlock found") else none) none
  rcases h mysqlSink rfl [call] [call] prefix_rfl with hcrashed | hcommitted
  · exact absurd hcrashed (by decide)
  · exact absurd hcommitted.written (by decide)

end SqlSink

end DataStream.Sink
