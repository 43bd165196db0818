import DataStream.Lifecycle.FailedDDL

/-!
# The event that triggers a retry

A DML event of a table with a failed statement makes `checkDDLState` retry the statement. The check
then reports the table as blocked whatever became of the retry, and `Route` discards the event.

* `meets_keepsTrigger_iff`: runs in which no event is lost to a successful retry.
-/

namespace DataStream.Lifecycle

open Event Source Cache Schema List

variable {cfg : Config} {env : Env} {s : Consumer} {ev : ChangeEvent}

/-- The services accept a statement and record it. -/
structure Accepts (env : Env) (oldTable : Option TableInfo) (ddl : Bytes) : Prop where
  statement : ddl ≠ []
  saveApplying : env.saveApplying = none
  parser : ∃ newTableInfo, env.applyDDL oldTable ddl = .result newTableInfo
  sinkWrite : env.sinkWrite = none
  saveSchemaHistory : env.saveSchemaHistory = none
  deleteDDLState : env.deleteDDLState = none

section Handling

variable {ddl : Bytes} {oldTable : Option TableInfo}

/-- An attempt completes its statement exactly when the services accept it. -/
lemma ddlCompleted_mem_attemptDDL_iff {db tbl : Bytes} :
    .ddlCompleted db tbl ∈ (attemptDDL env s ev ddl oldTable).effects ↔
      ((∃ newTableInfo, env.applyDDL oldTable ddl = .result newTableInfo) ∧
        env.sinkWrite = none ∧ env.saveSchemaHistory = none ∧ env.deleteDDLState = none) ∧
        db = ev.table.database ∧ tbl = ev.table.table := by
  unfold attemptDDL
  cases hparser : env.applyDDL oldTable ddl with
  | error err => simp [failDDL]
  | nilResult =>
    cases hsink : env.sinkWrite with
    | some err => simp [failDDL]
    | none => simp
  | result newTableInfo =>
    cases hsink : env.sinkWrite with
    | some err => simp [failDDL]
    | none => simp [effects_finishDDL]

/-- A statement is completed exactly when it is handled and the services accept it. -/
lemma ddlCompleted_mem_handleDDL_iff {db tbl : Bytes} :
    .ddlCompleted db tbl ∈ (handleDDL cfg env s ev).effects ↔
      (cfg.hasDDLHandling = true ∧ cfg.hasDDLStore = true) ∧
        Accepts env (s.tables.get ev.table.database ev.table.table) (ddlText ev) ∧
        db = ev.table.database ∧ tbl = ev.table.table := by
  by_cases h : Starts cfg env ev
  · rw [h.handleDDL_eq, ddlCompleted_mem_attemptDDL_iff]
    obtain ⟨hhandling, hstore, hddl, hsave⟩ := h
    constructor
    · rintro ⟨⟨hparser, hsink, hhistory, hdelete⟩, htable⟩
      exact ⟨⟨hhandling, hstore⟩, ⟨hddl, hsave, hparser, hsink, hhistory, hdelete⟩, htable⟩
    · rintro ⟨-, haccepts, htable⟩
      exact ⟨⟨haccepts.parser, haccepts.sinkWrite, haccepts.saveSchemaHistory,
        haccepts.deleteDDLState⟩, htable⟩
  · obtain ⟨outcome, hskip⟩ := handleDDL_of_not_starts s h
    rw [hskip]
    refine iff_of_false not_mem_nil ?_
    rintro ⟨⟨hhandling, hstore⟩, haccepts, -⟩
    exact h ⟨hhandling, hstore, haccepts.statement, haccepts.saveApplying⟩

lemma eq_of_sinkWrite_mem_handleDDL {ev' : ChangeEvent}
    (h : .sinkWrite ev' ∈ (handleDDL cfg env s ev).effects) : ev' = ev := by
  by_cases hstarts : Starts cfg env ev
  · rw [hstarts.handleDDL_eq] at h
    revert h
    refine attemptDDL_cases ?_ ?_ ?_
    · rintro writes err - (rfl | rfl) h
      · simp [failDDL] at h
      · simpa [failDDL] using h
    · exact fun _ _ h => by simpa using h
    · exact fun _ _ _ h => by simpa [effects_finishDDL] using h
  · obtain ⟨outcome, hskip⟩ := handleDDL_of_not_starts s hstarts
    rw [hskip] at h
    exact absurd h not_mem_nil

end Handling

/-! ## The check before a DML event -/

/-- The event meets the row of a failed statement that may be retried. -/
structure Retries (cfg : Config) (env : Env) (s : Consumer) (ev : ChangeEvent)
    (row : DDLStateRow) : Prop where
  store : cfg.hasDDLStore = true
  load : env.loadDDLState = none
  recorded : s.ddlStates ev.table.database ev.table.table = some row
  status : row.status = .failed
  count : row.retryCount < maxDDLRetries
  tracked : (s.lifecycle (ddlTableID ev.table.database ev.table.table)).isSome

/-- The event meets such a row, and the services accept the retry. -/
def RetrySucceeds (cfg : Config) (env : Env) (s : Consumer) (ev : ChangeEvent) : Prop :=
  cfg.hasDDLHandling = true ∧ ∃ row, Retries cfg env s ev row ∧
    Accepts env (s.tables.get ev.table.database ev.table.table) row.ddl

/-- The effects of an event that triggers a retry are those of the retry. -/
private lemma effects_route_of_retries (hdml : ev.isDDL = false) {row : DDLStateRow}
    (h : Retries cfg env s ev row) : (route cfg env s ev).effects =
      (handleDDL cfg env
        (s.updateLifecycle (ddlTableID ev.table.database ev.table.table) TableLifecycle.resume)
        (retryEvent ev.table.database ev.table.table row.ddl)).effects := by
  have hrow := blockingRow_eq_some_iff.mpr ⟨h.store, h.load, h.recorded⟩
  simp [route, hdml, checkDDLState_of_blockingRow hrow, retries, h.status, h.count, h.tracked]

private lemma not_ddlCompleted_mem_route (hdml : ev.isDDL = false)
    (h : ∀ row, ¬Retries cfg env s ev row) {db tbl : Bytes} :
    .ddlCompleted db tbl ∉ (route cfg env s ev).effects := by
  have hpassed : .ddlCompleted db tbl ∉ (routeDML cfg env s ev).effects := by
    unfold routeDML
    dsimp only
    repeat' split
    all_goals simp
  cases hrow : blockingRow cfg env s ev.table.database ev.table.table with
  | none => simpa [route, hdml, checkDDLState_of_unblocked hrow] using hpassed
  | some row =>
    have hretries : retries s ev.table.database ev.table.table row = false := by
      by_contra hretries
      obtain ⟨hstatus, hcount, hpresent⟩ :=
        of_decide_eq_true (Bool.eq_true_of_not_eq_false hretries)
      obtain ⟨hstore, hload, hrecorded⟩ := blockingRow_eq_some_iff.mp hrow
      exact h row ⟨hstore, hload, hrecorded, hstatus, hcount, hpresent⟩
    simp [route, hdml, checkDDLState_of_blockingRow hrow, hretries]

/-- When the retry that a DML event triggers succeeds. -/
theorem ddlCompleted_mem_route_iff (hdml : ev.isDDL = false) :
    .ddlCompleted ev.table.database ev.table.table ∈ (route cfg env s ev).effects ↔
      RetrySucceeds cfg env s ev := by
  constructor
  · intro h
    by_contra hfails
    refine not_ddlCompleted_mem_route hdml (fun row hretries => hfails ?_) h
    rw [effects_route_of_retries hdml hretries, ddlCompleted_mem_handleDDL_iff,
      ddlText_retryEvent, s.updateLifecycle_tables] at h
    exact ⟨h.1.1, row, hretries, h.2.1⟩
  · rintro ⟨hhandling, row, hretries, haccepts⟩
    rw [effects_route_of_retries hdml hretries, ddlCompleted_mem_handleDDL_iff,
      ddlText_retryEvent, s.updateLifecycle_tables]
    exact ⟨⟨hhandling, hretries.store⟩, haccepts, rfl, rfl⟩

lemma not_sinkWrite_mem_route (hdml : ev.isDDL = false) (h : RetrySucceeds cfg env s ev) :
    .sinkWrite ev ∉ (route cfg env s ev).effects := by
  obtain ⟨-, row, hretries, -⟩ := h
  rw [effects_route_of_retries hdml hretries]
  intro hwrite
  -- The retry writes its own event, which is a DDL event.
  have hev := eq_of_sinkWrite_mem_handleDDL hwrite
  rw [hev] at hdml
  cases hdml

/-! ## Runs -/

/-- The table of an event is catching up or streaming, when the event arrives or once it is resumed
for the retry. -/
def Receives (s : Consumer) (ev : ChangeEvent) : Prop :=
  ∃ lc, (lc ∈ s.lifecycle ⟨ev.table.database, ev.table.schema, ev.table.table⟩ ∨
      lc ∈ (s.updateLifecycle (ddlTableID ev.table.database ev.table.table)
        TableLifecycle.resume).lifecycle ⟨ev.table.database, ev.table.schema, ev.table.table⟩) ∧
    (lc.state = .catchingUp ∨ lc.state = .streaming)

/-- A DML event whose retry succeeds is written to the sink. -/
def KeepsTrigger (cfg : Config) (s : Consumer) : Input → Prop
  | .route env ev => ev.isDDL = false → Receives s ev →
    .ddlCompleted ev.table.database ev.table.table ∈ ((consumer cfg).step s (.route env ev)).2 →
    .sinkWrite ev ∈ ((consumer cfg).step s (.route env ev)).2
  | .external _ _ => True

/-- No DML event meets a failed statement whose retry the services accept. -/
def NoRetrySucceeds (cfg : Config) (s : Consumer) : Input → Prop
  | .route env ev => s.crashed = false → ev.isDDL = false → Receives s ev →
    ¬RetrySucceeds cfg env s ev
  | .external _ _ => True

lemma keepsTrigger_iff (cfg : Config) (s : Consumer) (i : Input) :
    KeepsTrigger cfg s i ↔ NoRetrySucceeds cfg s i := by
  cases i with
  | external lifecycle tables => exact Iff.rfl
  | route env ev =>
    simp only [KeepsTrigger, NoRetrySucceeds]
    cases hcrashed : s.crashed with
    | true =>
      rw [consumer_step_crashed cfg hcrashed]
      exact iff_of_true (fun _ _ h => absurd h not_mem_nil) fun h => by cases h
    | false =>
      rw [consumer_step_route cfg hcrashed]
      constructor
      · intro h _ hdml hreceives hretry
        have hcompleted := (ddlCompleted_mem_route_iff hdml).mpr hretry
        exact not_sinkWrite_mem_route hdml hretry (h hdml hreceives hcompleted)
      · intro h hdml hreceives hcompleted
        exact absurd ((ddlCompleted_mem_route_iff hdml).mp hcompleted) (h rfl hdml hreceives)

/-- Along a run, every event whose retry succeeds is written to the sink, if and only if no retry
succeeds. -/
theorem meets_keepsTrigger_iff (cfg : Config) (s : Consumer) (is : List Input) :
    (consumer cfg).Meets (KeepsTrigger cfg) s is ↔
      (consumer cfg).Meets (NoRetrySucceeds cfg) s is :=
  (consumer cfg).meets_congr (keepsTrigger_iff cfg)

/-- The insert that triggers the accepted retry of `recovery` is lost. -/
theorem not_forall_keepsTrigger :
    ¬∀ is, (consumer fullConfig).Meets (KeepsTrigger fullConfig) ordersStreaming is := by
  intro hall
  obtain ⟨-, hinsert, -⟩ := hall recovery
  have hreceives : Receives
      ((consumer fullConfig).step ordersStreaming (.route rejecting ordersDDL)).1 ordersInsert :=
    ⟨_, .inr rfl, .inr rfl⟩
  have hcompleted : .ddlCompleted (lit "shop") (lit "orders") ∈ acceptedRetry := by
    simp [acceptedRetry]
  have hwritten : .sinkWrite ordersInsert ∈ acceptedRetry := hinsert rfl hreceives hcompleted
  simp only [acceptedRetry, mem_cons, reduceCtorEq, Effect.sinkWrite.injEq, not_mem_nil,
    or_false, false_or] at hwritten
  cases congrArg ChangeEvent.type hwritten

end DataStream.Lifecycle
