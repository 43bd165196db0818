import DataStream.Foundations.WaitGroup
import DataStream.Lifecycle.BinlogConsumer
import DataStream.Lifecycle.CaughtUp

/-!
# Route calls and replays at the same time

`Route` may be called by several goroutines, and the replays of tables that catch up write to the
same sink. Here a `Route` call is a program of several steps. Between two steps of one call, other
calls and replays can make theirs. A write to the sink takes time: it is in progress from the step
that begins it to the step that ends it.

A step may make several calls to the stores. What happens between them is covered by the input
`update`, with which the rest of the process changes the stores in any way at any time.

* `run_alone`: a call that nothing interrupts does what `route` says;
* `Replaying.run_replaying`: a replay whose writes take time reaches no new state.
-/

namespace DataStream.Lifecycle

open Event Source Cache CaughtUp List Option

/-- An event that goes to `handleDDL`. -/
abbrev DDLEvent := { ev : ChangeEvent // ev.isDDL = true }

/-- An event that is routed by the state of its table. -/
abbrev DataEvent := { ev : ChangeEvent // ev.isDDL = false }

/-- Where a call of `handleDDL` is. -/
inductive DDLPhase where
  /-- Before the look at the wait group. -/
  | flushing
  | blocked
  /-- Released by the last `Done`, and not yet awake. -/
  | released
  /-- `Wait` has returned, and the row is not yet recorded. -/
  | saving
  /-- The row is recorded, and the parser is not yet asked. -/
  | parsing (lastSuccessInfo : Option TableInfo)
  /-- The parser has answered, with `none` for a nil result, and the event is not yet written. -/
  | executing (lastSuccessInfo oldTable : Option TableInfo) (result : Option (Option TableInfo))
  /-- The write of the event to the sink is in progress. -/
  | writing (lastSuccessInfo oldTable : Option TableInfo) (result : Option (Option TableInfo))

/-- Where a call of `Route` is. -/
inductive CallPhase where
  | entered (ev : ChangeEvent)
  /-- In `handleDDL`, called for the event itself or to retry a failed statement. -/
  | ddl (ev : DDLEvent) (retry : Bool) (phase : DDLPhase)
  /-- No recorded statement blocks the table, and its state is not yet read. -/
  | unblocked (ev : DataEvent)
  /-- The table takes events, and the write is not yet counted. -/
  | accepted (ev : DataEvent)
  /-- The write is counted and has not begun. -/
  | counted (ev : DataEvent)
  | writing (ev : DataEvent)
  /-- The write has ended and is still counted. -/
  | written (ev : DataEvent) (err : Option Bytes)
  | returned (outcome : Outcome)

structure CallStep where
  shared : Consumer
  pendingWg : WaitGroup
  phase : CallPhase
  effects : List Effect

/-! ## One step of a call -/

namespace CallPhase

/-- The return from `handleDDL`: the error of a retry is ignored, a panic is not caught. -/
def leaveDDL (retry : Bool) (outcome : Outcome) : CallPhase :=
  .returned (if retry ∧ outcome ≠ .panic then .ok else outcome)

/-- The beginning of `handleDDL`, up to the flush. -/
def enterDDL (cfg : Config) (retry : Bool) (ev : DDLEvent) : CallPhase :=
  if !cfg.hasDDLHandling || !cfg.hasDDLStore then leaveDDL retry .ok
  else if ddlText ev = [] then leaveDDL retry (.error (lit "DDL event missing 'ddl' metadata"))
  else .ddl ev retry .flushing

end CallPhase

variable (cfg : Config) (env : Env) (s : Consumer) (wg : WaitGroup)

/-- A panic ends the process. -/
def panicStep : CallStep := ⟨{ s with crashed := true }, wg, .returned .panic, []⟩

/-- A failed attempt, after the given effects. -/
def failStep (ev : DDLEvent) (retry : Bool) (lastSuccessInfo : Option TableInfo)
    (effects : List Effect) (err : Bytes) : CallStep :=
  let db := ev.1.table.database
  let tbl := ev.1.table.table
  let r := handleDDLFailure env s db tbl (ddlText ev) lastSuccessInfo err
  ⟨r.1, wg, .leaveDDL retry r.2, effects ++ [.ddlFailed db tbl]⟩

def DDLPhase.next (ev : DDLEvent) (retry : Bool) : DDLPhase → CallStep
  | .flushing =>
    if wg.counter = 0 then ⟨s, wg, .ddl ev retry .saving, []⟩
    else ⟨s, wg.block, .ddl ev retry .blocked, []⟩
  | .blocked => ⟨s, wg, .ddl ev retry .blocked, []⟩
  | .released =>
    -- A group that is in use again by now makes `Wait` panic.
    if wg = .zero then ⟨s, wg, .ddl ev retry .saving, []⟩ else panicStep s wg
  | .saving =>
    let db := ev.1.table.database
    let tbl := ev.1.table.table
    let lastSuccessInfo := s.tables.get db tbl
    match env.saveApplying with
    | some err => ⟨s, wg, .leaveDDL retry (.error (lit "save ddl state (applying): " ++ err)), []⟩
    | none =>
      let row : DDLStateRow :=
        { ddl := ddlText ev, lastSuccessInfo, status := .applying, errorMsg := []
          retryCount := 0 }
      ⟨s.saveDDLState db tbl row, wg, .ddl ev retry (.parsing lastSuccessInfo), []⟩
  | .parsing lastSuccessInfo =>
    let db := ev.1.table.database
    let tbl := ev.1.table.table
    -- The definition is read again: another statement may have changed it since the row was saved.
    let oldTable := s.tables.get db tbl
    let attempt : Effect := .attempt db tbl (ddlText ev)
    match env.applyDDL oldTable (ddlText ev) with
    | .error err => failStep env s wg ev retry lastSuccessInfo [attempt] err
    | .nilResult => ⟨s, wg, .ddl ev retry (.executing lastSuccessInfo oldTable none), [attempt]⟩
    | .result newTableInfo =>
      ⟨s, wg, .ddl ev retry (.executing lastSuccessInfo oldTable (some newTableInfo)), [attempt]⟩
  | .executing lastSuccessInfo oldTable result =>
    ⟨s, wg, .ddl ev retry (.writing lastSuccessInfo oldTable result), [.sinkWrite ev]⟩
  | .writing lastSuccessInfo oldTable result =>
    match env.sinkWrite, result with
    | some err, _ => failStep env s wg ev retry lastSuccessInfo [] err
    -- The nil result is dereferenced after the sink has accepted the event.
    | none, none => panicStep s wg
    | none, some newTableInfo =>
      let r := finishDDL env s ev (ddlText ev) oldTable newTableInfo
      ⟨r.state, wg, .leaveDDL retry r.outcome, r.effects⟩

/-- One step of `Route`. -/
def CallPhase.next : CallPhase → CallStep
  | .entered ev =>
    if h : ev.isDDL = true then ⟨s, wg, .enterDDL cfg false ⟨ev, h⟩, []⟩
    else
      let db := ev.table.database
      let tbl := ev.table.table
      match blockingRow cfg env s db tbl with
      | none => ⟨s, wg, .unblocked ⟨ev, Bool.eq_false_iff.mpr h⟩, []⟩
      | some row =>
        -- The event that finds a recorded statement is discarded, also when it triggers a retry.
        if retries s db tbl row then
          ⟨s.updateLifecycle (ddlTableID db tbl) TableLifecycle.resume, wg,
            .enterDDL cfg true ⟨retryEvent db tbl row.ddl, rfl⟩, []⟩
        else ⟨s, wg, .returned .ok, []⟩
  | .ddl ev retry phase => phase.next env s wg ev retry
  | .unblocked ev =>
    let tableID : TableID :=
      { database := ev.1.table.database, schema := ev.1.table.schema, table := ev.1.table.table }
    match (s.lifecycle tableID).map TableLifecycle.state with
    | some .snapshotting =>
      ⟨s, wg, .returned ((env.cacheWrite.map .error).getD .ok),
        [.cacheWrite tableID.toBytes ev (eventToCacheEvent ev cfg.sourceType)]⟩
    -- From here on nothing looks at the state of the table or at recorded statements again.
    | some .catchingUp | some .streaming => ⟨s, wg, .accepted ev, []⟩
    | _ => ⟨s, wg, .returned .ok, []⟩
  | .accepted ev => ⟨s, wg.add, .counted ev, []⟩
  | .counted ev => ⟨s, wg, .writing ev, [.sinkWrite ev]⟩
  | .writing ev => ⟨s, wg, .written ev env.sinkWrite, []⟩
  | .written _ err => ⟨s, wg.done, .returned ((err.map .error).getD .ok), []⟩
  | .returned outcome => ⟨s, wg, .returned outcome, []⟩

/-! ## A call that nothing interrupts -/

/-- The steps of one call, without any other call. -/
def alone : Machine (Consumer × WaitGroup × CallPhase) Env Effect where
  step s env :=
    let next := s.2.2.next cfg env s.1 s.2.1
    ((next.shared, next.pendingWg, next.phase), next.effects)

section Alone

variable {cfg : Config} {env : Env} {s : Consumer} {wg : WaitGroup}

/-- A call has returned within a number of steps, in which the services give the same answers. -/
def Returns (cfg : Config) (env : Env) (n : ℕ) (s : Consumer) (phase : CallPhase) (r : Result) :
    Prop :=
  (alone cfg).run (s, .zero, phase) (List.replicate n env) =
    ((r.state, .zero, .returned r.outcome), r.effects)

lemma returns_returned (n : ℕ) (outcome : Outcome) :
    Returns cfg env n s (.returned outcome) ⟨s, [], outcome⟩ :=
  (alone cfg).run_eq_self fun i hi => by
    rw [eq_of_mem_replicate hi]
    rfl

variable {n : ℕ} {phase : CallPhase} {r : Result} {retry : Bool}

lemma returns_succ {next : CallStep} (hnext : phase.next cfg env s .zero = next)
    (hwg : next.pendingWg = .zero) (h : Returns cfg env n next.shared next.phase r) :
    Returns cfg env (n + 1) s phase ⟨r.state, next.effects ++ r.effects, r.outcome⟩ := by
  have hstep : (alone cfg).step (s, .zero, phase) env =
      ((next.shared, .zero, next.phase), next.effects) := by
    simp only [alone, hnext, hwg]
  rw [Returns] at h ⊢
  rw [replicate_succ, Machine.run_cons, hstep, h]

/-- What `Route` does with the outcome of `handleDDL`. -/
def passOn (retry : Bool) (r : Result) : Result :=
  { r with outcome := if retry ∧ r.outcome ≠ .panic then .ok else r.outcome }

/-- Of a retry, only a panic is passed on. -/
lemma passOn_true (r : Result) :
    passOn true r = ⟨r.state, r.effects, if r.outcome = .panic then .panic else .ok⟩ := by
  by_cases h : r.outcome = .panic <;> simp [passOn, h]

lemma returns_leaveDDL (n : ℕ) (retry : Bool) (outcome : Outcome) :
    Returns cfg env n s (.leaveDDL retry outcome) (passOn retry ⟨s, [], outcome⟩) :=
  returns_returned n _

/-- An attempt does what `attemptDDL` says, in three steps: the parser, and the two ends of the
write. -/
lemma returns_parsing (ev : DDLEvent) (retry : Bool) {info : Option TableInfo}
    (hinfo : s.tables.get ev.1.table.database ev.1.table.table = info) :
    Returns cfg env 3 s (.ddl ev retry (.parsing info))
      (passOn retry (attemptDDL env s ev (ddlText ev) info)) := by
  rw [attemptDDL, Returns]
  rcases hparser : env.applyDDL info (ddlText ev) with err | _ | newTableInfo <;>
    rcases hsink : env.sinkWrite with _ | err
  all_goals simp [List.replicate, Machine.run_cons, alone, CallPhase.next, DDLPhase.next, failStep,
    panicStep, CallPhase.leaveDDL, passOn, failDDL, hinfo, hparser, hsink]
  all_goals rfl

/-- A call of `handleDDL` that nothing interrupts does what `handleDDL` says. -/
lemma returns_enterDDL (ev : DDLEvent) (retry : Bool) :
    Returns cfg env 5 s (.enterDDL cfg retry ev) (passOn retry (handleDDL cfg env s ev)) := by
  rw [CallPhase.enterDDL, handleDDL]
  by_cases hconfig : (!cfg.hasDDLHandling || !cfg.hasDDLStore) = true
  · rw [if_pos hconfig, if_pos hconfig]
    exact returns_leaveDDL 5 retry .ok
  rw [if_neg hconfig, if_neg hconfig]
  by_cases hddl : ddlText ev = []
  · simp only [if_pos hddl]
    exact returns_leaveDDL 5 retry _
  simp only [if_neg hddl]
  -- Nobody is writing, so the flush is passed at once.
  have hflush : (CallPhase.ddl ev retry .flushing).next cfg env s .zero =
      ⟨s, .zero, .ddl ev retry .saving, []⟩ := rfl
  cases hsave : env.saveApplying with
  | some err =>
    have hnext : (CallPhase.ddl ev retry .saving).next cfg env s .zero = ⟨s, .zero, .leaveDDL retry
        (.error (lit "save ddl state (applying): " ++ err)), []⟩ := by
      simp only [CallPhase.next, DDLPhase.next, hsave]
    exact returns_succ hflush rfl (returns_succ hnext rfl (returns_leaveDDL 3 retry _))
  | none =>
    let row : DDLStateRow :=
      { ddl := ddlText ev
        lastSuccessInfo := s.tables.get ev.1.table.database ev.1.table.table
        status := .applying, errorMsg := [], retryCount := 0 }
    have hnext : (CallPhase.ddl ev retry .saving).next cfg env s .zero =
        ⟨s.saveDDLState ev.1.table.database ev.1.table.table row, .zero,
          .ddl ev retry (.parsing (s.tables.get ev.1.table.database ev.1.table.table)), []⟩ := by
      simp only [CallPhase.next, DDLPhase.next, hsave]
      rfl
    exact returns_succ hflush rfl (returns_succ hnext rfl (returns_parsing ev retry rfl))

/-- A data event of a table that is not blocked. Its write is counted from its begin to its end. -/
lemma returns_unblocked (ev : DataEvent) :
    Returns cfg env 5 s (.unblocked ev) (routeDML cfg env s ev) := by
  rw [routeDML, Returns]
  cases hlc : s.lifecycle
      ⟨ev.1.table.database, ev.1.table.schema, ev.1.table.table⟩ with
  | none => simp [List.replicate, Machine.run_cons, alone, CallPhase.next, hlc]
  | some lc =>
    cases hstate : lc.state <;>
      simp [List.replicate, Machine.run_cons, alone, CallPhase.next, hlc, hstate]

/-- **A call that nothing interrupts does what `route` says.** It returns within six steps, and the
wait group is left as it was found. -/
theorem run_alone (cfg : Config) (env : Env) (s : Consumer) (ev : ChangeEvent) :
    (alone cfg).run (s, .zero, .entered ev) (List.replicate 6 env) =
      (((route cfg env s ev).state, .zero, .returned (route cfg env s ev).outcome),
        (route cfg env s ev).effects) := by
  suffices Returns cfg env 6 s (.entered ev) (route cfg env s ev) from this
  rw [route]
  by_cases hddl : ev.isDDL = true
  · have hnext : (CallPhase.entered ev).next cfg env s .zero =
        ⟨s, .zero, .enterDDL cfg false ⟨ev, hddl⟩, []⟩ := by
      simp only [CallPhase.next, dif_pos hddl]
    rw [if_pos hddl]
    exact returns_succ hnext rfl (returns_enterDDL ⟨ev, hddl⟩ false)
  rw [if_neg hddl]
  cases hrow : blockingRow cfg env s ev.table.database ev.table.table with
  | none =>
    rw [checkDDLState_of_unblocked hrow]
    have hnext : (CallPhase.entered ev).next cfg env s .zero =
        ⟨s, .zero, .unblocked ⟨ev, Bool.eq_false_iff.mpr hddl⟩, []⟩ := by
      simp only [CallPhase.next, dif_neg hddl, hrow]
    exact returns_succ hnext rfl (returns_unblocked _)
  | some row =>
    rw [checkDDLState_of_blockingRow hrow]
    by_cases hretries : retries s ev.table.database ev.table.table row = true
    · have hnext : (CallPhase.entered ev).next cfg env s .zero =
          ⟨s.updateLifecycle (ddlTableID ev.table.database ev.table.table) TableLifecycle.resume,
            .zero, .enterDDL cfg true ⟨retryEvent ev.table.database ev.table.table row.ddl, rfl⟩,
            []⟩ := by
        simp only [CallPhase.next, dif_neg hddl, hrow, if_pos hretries]
      have h := returns_succ hnext rfl (returns_enterDDL _ true)
      simpa [passOn_true, hretries] using h
    · have hnext : (CallPhase.entered ev).next cfg env s .zero = ⟨s, .zero, .returned .ok, []⟩ := by
        simp only [CallPhase.next, dif_neg hddl, hrow, if_neg hretries]
      have h := returns_succ hnext rfl (returns_returned 5 .ok)
      simpa [hretries] using h

end Alone

/-! ## A replay whose writes take time -/

/-- A call of `Replay` and the write to the sink that it has in progress. -/
structure Replaying where
  /-- What `Replay` was called for. -/
  req : Request
  /-- The call and its reader, without the event that is being written. -/
  session : Session
  /-- The event that is being written. -/
  writing : Option ChangeEvent

namespace Replaying

/-- A call of `Replay` begins. -/
def start (req : Request) : Replaying := ⟨req, .start, none⟩

/-- The event that `Replay` writes when it takes from the event channel now. -/
def nextWrite (s : Session) (upsert : Bool) : Option ChangeEvent :=
  if s.status = .running then
    (s.events.head?.bind fun ce => deserializePayload ce.payload).map fun ev =>
      if upsert then markUpsert ev else ev
  else none

/-- The sink accepts an event, or rejects it and `Replay` returns. -/
def finish (s : Session) (ev : ChangeEvent) (accepted : Bool) : Session :=
  if accepted then { s with written := s.written ++ [ev] } else { s with status := .returned false }

/-- One step of a replay. The step that takes an event begins its write, and another one ends it;
`Replay` takes nothing else in between, while the reader goes on. -/
def step (r : Replaying) (move : Move) : Replaying :=
  match r.writing, move with
  | none, .takeEvent upsert accepted =>
    match nextWrite r.session upsert with
    | some ev =>
      { r with session := { r.session with events := r.session.events.tail }, writing := some ev }
    | none =>
      { r with
        session := ((CaughtUp.session r.req).step r.session (.takeEvent upsert accepted)).1 }
  | some ev, .takeEvent _ accepted =>
    { r with session := finish r.session ev accepted, writing := none }
  | some _, .takeCancelled | some _, .takeError => r
  | _, _ => { r with session := ((CaughtUp.session r.req).step r.session move).1 }

/-- The state in which the sink has answered to the write in progress. -/
def settled (r : Replaying) (accepted : Bool) : Session :=
  match r.writing with
  | none => r.session
  | some ev => finish r.session ev accepted

lemma req_step (r : Replaying) (move : Move) : (r.step move).req = r.req := by
  unfold step
  repeat' split
  all_goals rfl

/-- To take an event and to end its write at once is one step of a replay. -/
lemma finish_tail {s : Session} {upsert : Bool} {ev : ChangeEvent}
    (h : nextWrite s upsert = some ev) (req : Request) (accepted : Bool) :
    finish { s with events := s.events.tail } ev accepted =
      ((CaughtUp.session req).step s (.takeEvent upsert accepted)).1 := by
  obtain ⟨hrunning, hdecoded⟩ := ite_none_right_eq_some.mp h
  cases hevents : s.events with
  | nil => simp [hevents] at hdecoded
  | cons ce events =>
    simp only [hevents, head?_cons, bind_some, map_eq_some_iff] at hdecoded
    obtain ⟨decoded, hpayload, rfl⟩ := hdecoded
    simp [CaughtUp.session, hrunning, Session.takeEvent, hevents, hpayload, finish]

/-- The move is one of the reader or of the outside. -/
def IsReaders : Move → Prop
  | .takeCancelled | .takeError | .takeEvent _ _ => False
  | _ => True

/-- The reader and the end of a write do not depend on each other. -/
lemma finish_step {move : Move} (h : IsReaders move) (req : Request) (s : Session)
    (ev : ChangeEvent) (accepted : Bool) :
    finish ((CaughtUp.session req).step s move).1 ev accepted =
      ((CaughtUp.session req).step (finish s ev accepted) move).1 := by
  rcases s with ⟨phase, events, reported, cancelledAt, status, written⟩
  cases move with
  | takeCancelled | takeError | takeEvent => exact h.elim
  | cancel => cases accepted <;> rfl
  | openFile ok =>
    rcases req with ⟨_ | file, fromTxID, fromEventSeq⟩ <;>
      cases accepted <;> cases phase <;> cases ok <;> rfl
  | checkContext | stopSending | close =>
    cases accepted <;> cases phase <;> cases cancelledAt <;> rfl
  | send =>
    cases accepted <;> cases phase <;> try rfl
    all_goals
      simp only [finish, CaughtUp.session, Session.send, Bool.false_eq_true, if_true, if_false]
      split <;> rfl
  | readRecord ok =>
    cases accepted <;> cases phase <;> cases ok <;> try rfl
    all_goals
      simp only [finish, CaughtUp.session, Session.readRecord, Bool.false_eq_true, if_true,
        if_false]
      split <;> try rfl
      split <;> rfl

/-- A step of a replay is one with single-step writes, in which the sink answers when the event is
taken, or none. -/
lemma settled_step (r : Replaying) (move : Move) (accepted : Bool) :
    ∃ before, (r.step move).settled accepted = r.settled before ∨
      ∃ move', (r.step move).settled accepted =
        ((CaughtUp.session r.req).step (r.settled before) move').1 := by
  rcases r with ⟨req, s, _ | ev⟩
  · -- No write is in progress, so the state is the session.
    refine ⟨accepted, .inr ?_⟩
    cases hmove : move with
    | takeEvent upsert answer =>
      simp only [step]
      split
      · next ev hnext => exact ⟨.takeEvent upsert accepted, finish_tail hnext req accepted⟩
      · exact ⟨.takeEvent upsert answer, rfl⟩
    | cancel | openFile | checkContext | readRecord | send | stopSending | close | takeCancelled
    | takeError => exact ⟨move, by rw [hmove]; rfl⟩
  · cases hmove : move with
    | takeEvent _ answer => exact ⟨answer, .inl rfl⟩
    | takeCancelled | takeError => exact ⟨accepted, .inl rfl⟩
    | cancel | openFile | checkContext | readRecord | send | stopSending | close =>
      have hreaders : IsReaders move := by rw [hmove]; trivial
      have hfinish := finish_step hreaders req s ev accepted
      exact ⟨accepted, .inr ⟨move, by rw [hmove] at hfinish ⊢; exact hfinish⟩⟩

/-- **Writes that take time reach no new state.** Whatever a replay has done, and whatever its
reader has done during its writes, a replay whose writes are single steps could have come to its
state, with either answer of the sink to the write in progress. -/
theorem run_replaying (req : Request) (moves : List Move) (accepted : Bool) :
    ∃ moves', ((CaughtUp.session req).run .start moves').1 =
      (moves.foldl step (start req)).settled accepted := by
  have hgeneral : ∀ r : Replaying, ∃ before moves',
      ((CaughtUp.session r.req).run (r.settled before) moves').1 =
        (moves.foldl step r).settled accepted := by
    induction moves with
    | nil => exact fun r => ⟨accepted, [], rfl⟩
    | cons move moves ih =>
      intro r
      obtain ⟨between, moves', h⟩ := ih (r.step move)
      rw [req_step] at h
      obtain ⟨before, hsame | ⟨move', hmove⟩⟩ := settled_step r move between
      · exact ⟨before, moves', by rw [← hsame, h, foldl_cons]⟩
      · exact ⟨before, move' :: moves', by rw [Machine.run_cons, ← hmove, h, foldl_cons]⟩
  obtain ⟨before, moves', h⟩ := hgeneral (start req)
  exact ⟨moves', h⟩

end Replaying

end DataStream.Lifecycle
