import DataStream.Lifecycle.FailedDDL
import DataStream.Store.SchemaHistory

/-!
# Table definitions in memory and in the store

A `handleDDL` call that succeeds changes the definitions in memory, then stores a row of the schema
history, then removes the row that records the statement as being applied. None of these is undone
when a later one fails. So a failure of the store leaves the definitions ahead of the history, and
it leaves the recorded row as it is; as long as that says `applying`, `checkDDLState` discards every
event of the table and never tries the statement again.

A statement that leaves no definition is stored as `null` and replayed as the zero definition, so
removing a table is not replayed as such.

* `staysInStep_iff`: memory and store stay in step exactly if every call settles.
-/

namespace DataStream.Lifecycle

open Event Source Schema Option Function Tables Consumer

/-! ## In step -/

def ChangeType.text : ChangeType → Bytes
  | .create => lit "CREATE"
  | .alter => lit "ALTER"
  | .drop => lit "DROP"

def SchemaHistoryRow.toStore (rec : SchemaHistoryRow) : Store.SchemaHistoryRow where
  position := rec.position
  dbName := rec.dbName
  tableName := rec.tableName
  ddl := rec.ddl
  tableInfo := rec.tableInfo
  changeType := rec.changeType.text

def storedRows (history : List SchemaHistoryRow) : List Store.StoredRow :=
  history.foldl (fun rows rec => Store.saveSchemaHistory rows rec.toStore) []

variable (cfg : Config) (s : Consumer) (db tbl : Bytes)

def replayed : Tables := Store.recoverFromStore (storedRows s.history) empty

/-- The recorded row makes every event of a table be discarded without another attempt, as long as
the store can be read. -/
def Stuck : Prop :=
  ∀ env : Env, env.loadDDLState = none →
    (checkDDLState cfg env s db tbl).1 = true ∧ (checkDDLState cfg env s db tbl).2.effects = []

/-- The definitions in memory are those in the store, and no table is stuck. -/
structure InStep (cfg : Config) (s : Consumer) : Prop where
  tables : s.tables = replayed s
  attempted : ∀ db tbl, ¬ Stuck cfg s db tbl

/-- A `handleDDL` call and the answers of the services. A position that JSON cannot express is an
error. -/
structure DDLCall where
  env : Env
  ev : ChangeEvent
  encodable : env.saveSchemaHistory = none → ev.position.marshal.isSome = true

/-- A sequence of calls; nothing happens after a panic. -/
def handling : Machine Consumer DDLCall Effect where
  step s call :=
    if s.crashed then (s, [])
    else
      let r := handleDDL cfg call.env s call.ev
      (r.state, r.effects)

/-- A consumer that has handled nothing, with any lifecycle records. -/
def untouched (lifecycle : LifecycleStore) : Consumer where
  lifecycle := lifecycle
  tables := empty
  ddlStates := fun _ _ => none
  history := []
  crashed := false

/-- After each call of a run memory and store are in step. -/
def StaysInStep (calls : List DDLCall) : Prop :=
  (handling cfg).Meets (fun s call => InStep cfg ((handling cfg).step s call).1) s calls

/-! ## Calls that settle -/

/-- The definition that a statement leaves is the one that its row is replayed as. A missing one is
replayed as the zero definition, which makes no difference only if that is there already and the
table is not. -/
def Replays (t : Tables) (db tbl : Bytes) : Option TableInfo → Prop
  | some info => info.repaired = info
  | none => t.get db tbl = none ∧ t.get [] [] = some .zero ∧ tableKey db tbl ≠ tableKey [] []

/-- A call that gets as far as an attempt settles if a failed attempt is recorded, for a table with
a lifecycle record; and if after a successful one the history is stored, the recorded row removed
and the definition replayed as it is. -/
def Settles (call : DDLCall) : Prop :=
  let db := call.ev.table.database
  let tbl := call.ev.table.table
  let old := s.tables.get db tbl
  let ddl := ddlText call.ev
  s.crashed = false → cfg.hasDDLHandling = true → cfg.hasDDLStore = true → ddl ≠ [] →
    call.env.saveApplying = none →
      (AttemptFails call.env old ddl →
        call.env.saveFailed = none ∧ (s.lifecycle (ddlTableID db tbl)).isSome = true) ∧
      (¬ AttemptFails call.env old ddl →
        call.env.saveSchemaHistory = none ∧ call.env.deleteDDLState = none ∧
          ∃ newTableInfo, call.env.applyDDL old ddl = .result newTableInfo ∧
            Replays s.tables db tbl newTableInfo)

/-! ## Stuck tables -/

/-- Without handling or without a statement, `handleDDL` does nothing. -/
lemma effects_handleDDL_eq_nil {cfg : Config} {ev : ChangeEvent}
    (h : cfg.hasDDLHandling = false ∨ ddlText ev = []) (env : Env) (s : Consumer) :
    (handleDDL cfg env s ev).effects = [] := by
  have hnot : ¬Starts cfg env ev := fun hstarts =>
    h.elim (by simp [hstarts.handling]) hstarts.statement
  obtain ⟨outcome, hskip⟩ := handleDDL_of_not_starts s hnot
  rw [hskip]

/-- A recorded row with which a table is not retried: it does not say that the statement failed, or
the retries are used up, or they are not possible. -/
def Unretried (row : DDLStateRow) : Prop :=
  row.status ≠ .failed ∨ maxDDLRetries ≤ row.retryCount ∨
    s.lifecycle (ddlTableID db tbl) = none ∨ cfg.hasDDLHandling = false ∨ row.ddl = []

section Stuck

variable {cfg : Config} {s : Consumer} {db tbl : Bytes} {row : DDLStateRow}

/-- Otherwise the statement is tried again. -/
lemma effects_checkDDLState_ne_nil {env : Env} (hsucceeds : StoreSucceeds env)
    (hload : env.loadDDLState = none) (hrejects : ∀ info ddl, env.applyDDL info ddl = .error [])
    (hstore : cfg.hasDDLStore = true) (hrow : s.ddlStates db tbl = some row)
    (hretried : ¬ Unretried cfg s db tbl row) :
    (checkDDLState cfg env s db tbl).2.effects ≠ [] := by
  unfold Unretried at hretried
  push Not at hretried
  obtain ⟨hstatus, hcount, hlifecycle, hhandling, hddl⟩ := hretried
  obtain ⟨lc, hlc⟩ := ne_none_iff_exists'.mp hlifecycle
  have hstatement : ddlText (retryEvent db tbl row.ddl) ≠ [] := by rwa [ddlText_retryEvent]
  have hfailed := failedAttempt_handleDDL hsucceeds hstore
    (Bool.eq_true_of_not_eq_false hhandling)
    (s.updateLifecycle (ddlTableID db tbl) TableLifecycle.resume) hstatement
    (.inl ⟨[], hrejects _ _⟩)
  obtain ⟨writes, -, heffects⟩ := hfailed.effects
  rw [checkDDLState_of_blockingRow (blockingRow_eq_some_iff.mpr ⟨hstore, hload, hrow⟩)]
  simp [retries, hstatus, hcount, hlc, heffects]

lemma stuck_of_unretried (hstore : cfg.hasDDLStore = true) (hrow : s.ddlStates db tbl = some row)
    (hunretried : Unretried cfg s db tbl row) : Stuck cfg s db tbl := by
  intro env hload
  rw [checkDDLState_of_blockingRow (blockingRow_eq_some_iff.mpr ⟨hstore, hload, hrow⟩)]
  refine ⟨rfl, ?_⟩
  split_ifs with hretries
  · -- The retry is called and returns at once.
    obtain ⟨hstatus, hcount, hpresent⟩ := of_decide_eq_true hretries
    refine effects_handleDDL_eq_nil ?_ env _
    rcases hunretried with hother | hused | hlifecycle | hskip
    · exact absurd hstatus hother
    · exact absurd hused hcount.not_ge
    · simp [hlifecycle] at hpresent
    · exact hskip
  · rfl

/-- A table is stuck exactly if the row recorded for it is one with which it is not retried. -/
theorem stuck_iff : Stuck cfg s db tbl ↔
    cfg.hasDDLStore = true ∧ ∃ row, s.ddlStates db tbl = some row ∧ Unretried cfg s db tbl row := by
  constructor
  · intro h
    -- A parser that rejects everything shows whether there is an attempt.
    obtain ⟨hblocked, hnone⟩ := h (answering (.error [])) rfl
    have hload : (answering (.error [])).loadDDLState = none := rfl
    cases hstore : cfg.hasDDLStore with
    | false =>
      rw [checkDDLState_of_unblocked (by simp [blockingRow, hstore])] at hblocked
      cases hblocked
    | true =>
      cases hrow : s.ddlStates db tbl with
      | none =>
        rw [checkDDLState_of_unblocked (by simp [blockingRow, hrow])] at hblocked
        cases hblocked
      | some row =>
        refine ⟨rfl, row, rfl, ?_⟩
        by_contra hretried
        exact effects_checkDDLState_ne_nil (storeSucceeds_answering _) hload (fun _ _ => rfl)
          hstore hrow hretried hnone
  · rintro ⟨hstore, row, hrow, hunretried⟩
    exact stuck_of_unretried hstore hrow hunretried

end Stuck

/-! ## How a call ends -/

/-- The definitions after a statement was applied. -/
def changed (t : Tables) (db tbl : Bytes) : Option TableInfo → Tables
  | some info => t.put info
  | none => t.remove db tbl

/-- How a `handleDDL` call ends, whatever the services answer. -/
inductive Ended (cfg : Config) (env : Env) (s : Consumer) (ev : ChangeEvent) : Consumer → Prop
  /-- There is no attempt, and nothing changes. -/
  | skipped (h : ¬ Starts cfg env ev) : Ended cfg env s ev s
  | recorded (s' : Consumer) (row : DDLStateRow) (hstarts : Starts cfg env ev)
      (hfails : AttemptFails env (s.tables.get ev.table.database ev.table.table) (ddlText ev))
      (hsave : env.saveFailed = none)
      (hrow : row.ddl = ddlText ev ∧ row.status = .failed ∧ row.retryCount = 1)
      (hrows : s'.ddlStates = (s.setDDLRow ev.table.database ev.table.table (some row)).ddlStates)
      (htables : s'.tables = s.tables) (hhistory : s'.history = s.history)
      (hlifecycle : ∀ id, (s'.lifecycle id).isSome = (s.lifecycle id).isSome)
      (hcrashed : s'.crashed = s.crashed) : Ended cfg env s ev s'
  /-- The row stays as it was before the attempt: the failure or the history could not be stored, or
  the row not removed, or the result of the parser was nil. -/
  | applying (s' : Consumer) (row : DDLStateRow) (hstarts : Starts cfg env ev)
      (hcause : AttemptFails env (s.tables.get ev.table.database ev.table.table) (ddlText ev) ∧
          env.saveFailed ≠ none ∨
        ¬ AttemptFails env (s.tables.get ev.table.database ev.table.table) (ddlText ev) ∧
          (env.applyDDL (s.tables.get ev.table.database ev.table.table) (ddlText ev) = .nilResult ∨
            env.saveSchemaHistory ≠ none ∨ env.deleteDDLState ≠ none))
      (hstatus : row.status = .applying)
      (hrow : s'.ddlStates ev.table.database ev.table.table = some row) : Ended cfg env s ev s'
  | completed (s' : Consumer) (newTableInfo : Option TableInfo) (hstarts : Starts cfg env ev)
      (happlied : ¬ AttemptFails env (s.tables.get ev.table.database ev.table.table) (ddlText ev))
      (hresult : env.applyDDL (s.tables.get ev.table.database ev.table.table) (ddlText ev) =
        .result newTableInfo)
      (hsave : env.saveSchemaHistory = none) (hdelete : env.deleteDDLState = none)
      (hrows : s'.ddlStates = (s.setDDLRow ev.table.database ev.table.table none).ddlStates)
      (htables : s'.tables = changed s.tables ev.table.database ev.table.table newTableInfo)
      (hhistory : s'.history = s.history ++
        [{ position := ev.position, dbName := ev.table.database, tableName := ev.table.table
           ddl := ddlText ev, tableInfo := newTableInfo
           changeType := inferChangeType newTableInfo
            (s.tables.get ev.table.database ev.table.table) }])
      (hlifecycle : ∀ id, (s'.lifecycle id).isSome = (s.lifecycle id).isSome)
      (hcrashed : s'.crashed = s.crashed) : Ended cfg env s ev s'

section Ended

variable {cfg : Config} {env : Env} {s : Consumer} {ev : ChangeEvent}

lemma tried_ddlStates : (tried s ev).ddlStates ev.table.database ev.table.table =
    some (applyingRow (ddlText ev) (s.tables.get ev.table.database ev.table.table)) := by
  simp [tried, saveDDLState]

lemma ended_failDDL (hstarts : Starts cfg env ev)
    (hfails : AttemptFails env (s.tables.get ev.table.database ev.table.table) (ddlText ev))
    (writes : List Effect) (err : Bytes) :
    Ended cfg env s ev (failDDL env (tried s ev) ev (ddlText ev)
      (s.tables.get ev.table.database ev.table.table) writes err).state := by
  cases hsave : env.saveFailed with
  | some msg =>
    have hstate : (failDDL env (tried s ev) ev (ddlText ev)
        (s.tables.get ev.table.database ev.table.table) writes err).state = tried s ev := by
      simp [failDDL, handleDDLFailure, hsave]
    rw [hstate]
    exact .applying _ _ hstarts (.inl ⟨hfails, by simp [hsave]⟩) rfl tried_ddlStates
  | none =>
    rw [state_failDDL_tried hsave]
    exact .recorded _ (failedRow s ev err) hstarts hfails hsave ⟨rfl, rfl, rfl⟩
      (updateLifecycle_ddlStates ..) (updateLifecycle_tables ..)
      (updateLifecycle_history ..) (fun id => updateLifecycle_isSome ..)
      (updateLifecycle_crashed ..)

lemma ended_finishDDL (hstarts : Starts cfg env ev)
    (happlied : ¬ AttemptFails env (s.tables.get ev.table.database ev.table.table) (ddlText ev))
    {newTableInfo : Option TableInfo}
    (hresult : env.applyDDL (s.tables.get ev.table.database ev.table.table) (ddlText ev) =
      .result newTableInfo) :
    Ended cfg env s ev (finishDDL env (tried s ev) ev (ddlText ev)
      (s.tables.get ev.table.database ev.table.table) newTableInfo).state := by
  unfold finishDDL
  cases hsave : env.saveSchemaHistory with
  | some msg =>
    exact .applying _ _ hstarts (.inr ⟨happlied, .inr (.inl (by simp [hsave]))⟩) rfl tried_ddlStates
  | none =>
    cases hdelete : env.deleteDDLState with
    | some msg =>
      exact .applying _ _ hstarts (.inr ⟨happlied, .inr (.inr (by simp [hdelete]))⟩) rfl
        tried_ddlStates
    | none =>
      have hrows := congrArg ddlStates
        (s.setDDLRow_setDDLRow ev.table.database ev.table.table
          (some (applyingRow (ddlText ev) (s.tables.get ev.table.database ev.table.table))) none)
      refine .completed _ newTableInfo hstarts happlied hresult hsave hdelete hrows ?_ rfl
        (fun _ => rfl) rfl
      cases newTableInfo <;> rfl

theorem ended_handleDDL (cfg : Config) (env : Env) (s : Consumer) (ev : ChangeEvent) :
    Ended cfg env s ev (handleDDL cfg env s ev).state := by
  by_cases hstarts : Starts cfg env ev
  · rw [hstarts.handleDDL_eq]
    refine attemptDDL_cases ?_ ?_ ?_
    · exact fun writes err hfails _ => ended_failDDL hstarts hfails writes err
    · -- The nil result is read, and the panic leaves the state as it is.
      intro happlied hanswer
      exact .applying _ _ hstarts (.inr ⟨happlied, .inl hanswer⟩) rfl tried_ddlStates
    · exact fun newTableInfo happlied hanswer => ended_finishDDL hstarts happlied hanswer
  · obtain ⟨outcome, heq⟩ := handleDDL_of_not_starts s hstarts
    rw [heq]
    exact .skipped hstarts

end Ended

/-! ## Replaying the history -/

/-- A further row is replayed as storing its definition. -/
lemma replayed_of_history {s s' : Consumer} {rec : SchemaHistoryRow}
    (h : s'.history = s.history ++ [rec]) (hposition : rec.position.marshal.isSome = true) :
    replayed s' = (replayed s).put (Store.loadedTableInfo rec.tableInfo) := by
  rw [replayed, h, storedRows, List.foldl_append]
  exact Store.recoverFromStore_saveSchemaHistory rec.toStore hposition _ _

/-- Every definition survives the store. -/
def Storable (t : Tables) : Prop := ∀ key info, t key = some info → info.repaired = info

variable {t : Tables}

lemma Storable.changed (h : Storable t) {db tbl : Bytes} {newTableInfo : Option TableInfo}
    (hreplays : Replays t db tbl newTableInfo) : Storable (changed t db tbl newTableInfo) := by
  intro key info hkey
  cases newTableInfo with
  | none =>
    by_cases heq : key = tableKey db tbl
    · subst heq
      exact nomatch hkey.symm.trans (get_remove_self t db tbl)
    · rw [Lifecycle.changed, remove, update_of_ne heq] at hkey
      exact h key info hkey
  | some newInfo =>
    by_cases heq : key = tableKey newInfo.database newInfo.table
    · subst heq
      obtain rfl := some.inj ((get_put_self t newInfo).symm.trans hkey)
      exact hreplays
    · rw [Lifecycle.changed, put, update_of_ne heq] at hkey
      exact h key info hkey

/-- Removing a table and storing the zero definition are the same only if neither changes
anything. -/
lemma remove_eq_put_zero_iff (t : Tables) (db tbl : Bytes) :
    t.remove db tbl = t.put .zero ↔
      t.get db tbl = none ∧ t.get [] [] = some .zero ∧ tableKey db tbl ≠ tableKey [] [] := by
  constructor
  · intro heq
    have hput : (t.remove db tbl).get [] [] = some .zero := by
      rw [heq]
      exact Tables.get_put_self t .zero
    have hremoved : (t.put .zero).get db tbl = none := by
      rw [← heq]
      exact Tables.get_remove_self t db tbl
    have hne : tableKey db tbl ≠ tableKey [] [] := fun hkey => by
      rw [Tables.get, ← hkey] at hput
      exact some_ne_none _ (hput.symm.trans (Tables.get_remove_self t db tbl))
    refine ⟨(update_of_ne hne _ _).symm.trans hremoved, ?_, hne⟩
    exact (update_of_ne hne.symm _ _).symm.trans hput
  · rintro ⟨hnone, hzero, -⟩
    have hremove : t.remove db tbl = t := by
      rw [Tables.remove, ← show t (tableKey db tbl) = none from hnone]
      exact update_eq_self _ _
    have hput : t.put .zero = t := by
      rw [Tables.put, ← show t (tableKey [] []) = some .zero from hzero]
      exact update_eq_self _ _
    exact hremove.trans hput.symm

/-- Among definitions that survive the store, another one is stored as it is only if it survives
too. -/
lemma Storable.put_eq_put_repaired_iff (h : Storable t) (info : TableInfo) :
    t.put info = t.put info.repaired ↔ info.repaired = info := by
  refine ⟨fun heq => ?_, fun heq => congrArg t.put heq.symm⟩
  have hget : (t.put info.repaired).get info.database info.table = some info := by
    rw [← heq]
    exact get_put_self t info
  by_cases hkey : tableKey info.database info.table =
      tableKey info.repaired.database info.repaired.table
  · rw [Tables.get, hkey] at hget
    exact some.inj ((get_put_self t info.repaired).symm.trans hget)
  · -- Stored under another name, the definition was there before.
    rw [Tables.get, Tables.put, update_of_ne hkey] at hget
    exact h _ _ hget

/-- What a statement makes of the definitions and what its row is replayed as. -/
lemma Storable.changed_eq_put_iff (h : Storable t) (db tbl : Bytes) :
    ∀ newTableInfo : Option TableInfo,
      Lifecycle.changed t db tbl newTableInfo = t.put (Store.loadedTableInfo newTableInfo) ↔
        Replays t db tbl newTableInfo
  | none => remove_eq_put_zero_iff t db tbl
  | some info => h.put_eq_put_repaired_iff info

/-! ## One call -/

section Step

variable {cfg : Config} {s s' : Consumer} {call : DDLCall}

variable {db tbl : Bytes}

/-- After a recorded failure only the lifecycle record decides whether the table is stuck. -/
lemma stuck_of_failed {row : DDLStateRow} (hstore : cfg.hasDDLStore = true)
    (hhandling : cfg.hasDDLHandling = true) (hrow : s.ddlStates db tbl = some row)
    (hstatus : row.status = .failed) (hcount : row.retryCount = 1) (hddl : row.ddl ≠ []) :
    Stuck cfg s db tbl ↔ s.lifecycle (ddlTableID db tbl) = none := by
  rw [stuck_iff]
  constructor
  · rintro ⟨-, row', hrow', hstuck⟩
    obtain rfl := some.inj (hrow.symm.trans hrow')
    rcases hstuck with hother | hmany | hlifecycle | hoff | hempty
    · exact absurd hstatus hother
    · rw [hcount] at hmany
      exact absurd hmany (by decide)
    · exact hlifecycle
    · exact nomatch hhandling.symm.trans hoff
    · exact absurd hempty hddl
  · exact fun hlifecycle => ⟨hstore, row, hrow, .inr (.inr (.inl hlifecycle))⟩

/-- What carries over from call to call. -/
structure Agreed (cfg : Config) (s : Consumer) : Prop where
  inStep : InStep cfg s
  storable : Storable s.tables

section

variable (hlifecycle : ∀ id, (s'.lifecycle id).isSome = (s.lifecycle id).isSome)
include hlifecycle

variable {row : Option DDLStateRow}

lemma stuck_congr {db' tbl' : Bytes} (hrows : s'.ddlStates = (s.setDDLRow db tbl row).ddlStates)
    (hne : ¬ (db' = db ∧ tbl' = tbl)) : Stuck cfg s' db' tbl' ↔ Stuck cfg s db' tbl' := by
  have hnone : s'.lifecycle (ddlTableID db' tbl') = none ↔
      s.lifecycle (ddlTableID db' tbl') = none := by
    rw [← isSome_eq_false_iff.trans isNone_iff_eq_none, hlifecycle,
      isSome_eq_false_iff.trans isNone_iff_eq_none]
  simp only [stuck_iff, Unretried, hrows, s.setDDLRow_of_ne row hne, hnone]

variable (h : Agreed cfg s)
include h

/-- No table is stuck after a call if the one that it is about is not. -/
lemma Agreed.attempted_iff (hrows : s'.ddlStates = (s.setDDLRow db tbl row).ddlStates) :
    (∀ db' tbl', ¬ Stuck cfg s' db' tbl') ↔ ¬ Stuck cfg s' db tbl := by
  refine ⟨fun hall => hall db tbl, fun hthis db' tbl' => ?_⟩
  by_cases heq : db' = db ∧ tbl' = tbl
  · rwa [heq.1, heq.2]
  · rw [stuck_congr hlifecycle hrows heq]
    exact h.inStep.attempted db' tbl'

/-- After a recorded failure all depends on the lifecycle record of the table. -/
lemma Agreed.inStep_iff_of_recorded {row : DDLStateRow} (hstore : cfg.hasDDLStore = true)
    (hhandling : cfg.hasDDLHandling = true)
    (hstatus : row.status = .failed) (hcount : row.retryCount = 1) (hddl : row.ddl ≠ [])
    (hrows : s'.ddlStates = (s.setDDLRow db tbl (some row)).ddlStates)
    (htables : s'.tables = s.tables) (hhistory : s'.history = s.history) :
    InStep cfg s' ↔ (s.lifecycle (ddlTableID db tbl)).isSome = true := by
  have hsame : s'.tables = replayed s' := by
    rw [htables, h.inStep.tables, replayed, replayed, hhistory]
  have hrow : s'.ddlStates db tbl = some row := hrows ▸ s.setDDLRow_self ..
  have hthere : ¬ Stuck cfg s' db tbl ↔ (s.lifecycle (ddlTableID db tbl)).isSome = true := by
    rw [stuck_of_failed hstore hhandling hrow hstatus hcount hddl, ← hlifecycle, isSome_iff_ne_none]
  exact ⟨fun hin => hthere.mp (hin.attempted db tbl),
    fun hsome => ⟨hsame, (h.attempted_iff hlifecycle hrows).mpr (hthere.mpr hsome)⟩⟩

/-- After a completed statement all depends on what its row is replayed as. -/
lemma Agreed.inStep_iff_of_completed {rec : SchemaHistoryRow}
    (hhistory : s'.history = s.history ++ [rec])
    (hrows : s'.ddlStates = (s.setDDLRow db tbl none).ddlStates)
    (htables : s'.tables = changed s.tables db tbl rec.tableInfo)
    (hposition : rec.position.marshal.isSome = true) :
    InStep cfg s' ↔ Replays s.tables db tbl rec.tableInfo := by
  have htablesIff : s'.tables = replayed s' ↔ Replays s.tables db tbl rec.tableInfo := by
    rw [htables, replayed_of_history hhistory hposition, ← h.inStep.tables]
    exact h.storable.changed_eq_put_iff _ _ _
  have hfree : ¬ Stuck cfg s' db tbl := by
    rw [stuck_iff, hrows, s.setDDLRow_self]
    rintro ⟨-, row, hrow, -⟩
    exact nomatch hrow
  exact ⟨fun hin => htablesIff.mp hin.tables,
    fun hreplays => ⟨htablesIff.mpr hreplays, (h.attempted_iff hlifecycle hrows).mpr hfree⟩⟩

end

/-- A call leaves memory and store in step exactly if it settles, and what it leaves then carries
over. -/
theorem Agreed.handleDDL (h : Agreed cfg s) (hrunning : s.crashed = false) (call : DDLCall)
    (hended : Ended cfg call.env s call.ev s') :
    (InStep cfg s' ↔ Settles cfg s call) ∧ (Settles cfg s call → Storable s'.tables) := by
  rcases hended with hnot | ⟨_, row, hstarts, hfails, hsave, hrow, hrows, htables, hhistory,
    hlifecycle, -⟩ | ⟨_, row, hstarts, hcause, hstatus, hrow⟩ | ⟨_, newTableInfo, hstarts,
    happlied, hresult, hsave, hdelete, hrows, htables, hhistory, hlifecycle, -⟩
  · -- Nothing happens, and nothing is asked of a call without an attempt.
    have hsettles : Settles cfg s call := fun _ hhandling hstore hstatement happlying =>
      absurd ⟨hhandling, hstore, hstatement, happlying⟩ hnot
    exact ⟨iff_of_true h.inStep hsettles, fun _ => h.storable⟩
  · refine ⟨?_, fun _ => htables ▸ h.storable⟩
    rw [h.inStep_iff_of_recorded hlifecycle hstarts.store hstarts.handling hrow.2.1 hrow.2.2
      (hrow.1 ▸ hstarts.statement) hrows htables hhistory]
    refine ⟨fun hsome _ _ _ _ _ => ⟨fun _ => ⟨hsave, hsome⟩, fun hok => absurd hfails hok⟩, ?_⟩
    intro hsettles
    obtain ⟨hfailed, -⟩ := hsettles hrunning hstarts.handling hstarts.store hstarts.statement
      hstarts.saveApplying
    exact (hfailed hfails).2
  · -- The row says that the statement is being applied, and so it is never tried again.
    have hstuck : Stuck cfg s' call.ev.table.database call.ev.table.table :=
      stuck_iff.mpr ⟨hstarts.store, row, hrow, .inl (by rw [hstatus]; decide)⟩
    have hnot : ¬ Settles cfg s call := by
      intro hsettles
      obtain ⟨hfailed, happlied⟩ := hsettles hrunning hstarts.handling hstarts.store
        hstarts.statement hstarts.saveApplying
      rcases hcause with ⟨hfails, hsave⟩ | ⟨hok, hcause⟩
      · exact hsave (hfailed hfails).1
      · obtain ⟨hsave, hdelete, newTableInfo, hresult, -⟩ := happlied hok
        rcases hcause with hnil | hsave' | hdelete'
        · exact nomatch hnil.symm.trans hresult
        · exact hsave' hsave
        · exact hdelete' hdelete
    exact ⟨iff_of_false (fun hin => hin.attempted _ _ hstuck) hnot, fun hs => absurd hs hnot⟩
  · -- Of what a successful attempt needs only the replay is still open.
    have hsettles : Settles cfg s call ↔
        Replays s.tables call.ev.table.database call.ev.table.table newTableInfo := by
      constructor
      · intro hsettles
        obtain ⟨-, hok⟩ := hsettles hrunning hstarts.handling hstarts.store hstarts.statement
          hstarts.saveApplying
        obtain ⟨-, -, info, hinfo, hreplays⟩ := hok happlied
        obtain rfl := ParserAnswer.result.inj (hresult.symm.trans hinfo)
        exact hreplays
      · intro hreplays _ _ _ _ _
        exact ⟨fun hfails => absurd hfails happlied,
          fun _ => ⟨hsave, hdelete, newTableInfo, hresult, hreplays⟩⟩
    rw [hsettles]
    refine ⟨?_, fun hreplays => htables ▸ h.storable.changed hreplays⟩
    exact h.inStep_iff_of_completed hlifecycle hhistory hrows htables (call.encodable hsave)

end Step

/-! ## Whole runs -/

lemma agreed_untouched (cfg : Config) (lifecycle : LifecycleStore) :
    Agreed cfg (untouched lifecycle) where
  inStep := {
    tables := rfl
    attempted := fun db tbl hstuck => by
      obtain ⟨-, row, hrow, -⟩ := stuck_iff.mp hstuck
      exact nomatch hrow }
  storable := fun _ _ h => nomatch h

lemma inStep_step_iff {cfg : Config} {s : Consumer} (h : Agreed cfg s) (call : DDLCall) :
    (InStep cfg ((handling cfg).step s call).1 ↔ Settles cfg s call) ∧
      (Settles cfg s call → Storable ((handling cfg).step s call).1.tables) := by
  cases hrunning : s.crashed with
  | true =>
    have hstep : (handling cfg).step s call = (s, []) := by simp [handling, hrunning]
    rw [hstep]
    have hsettles : Settles cfg s call := fun hnot => nomatch hrunning.symm.trans hnot
    exact ⟨iff_of_true h.inStep hsettles, fun _ => h.storable⟩
  | false =>
    have hstep : ((handling cfg).step s call).1 =
        (Lifecycle.handleDDL cfg call.env s call.ev).state := by
      simp [handling, hrunning]
    rw [hstep]
    exact h.handleDDL hrunning call (ended_handleDDL cfg call.env s call.ev)

/-- After every call of a run the definitions in memory are those that a replay of the stored
history gives and no table is stuck, exactly if every call settles. -/
theorem staysInStep_iff (cfg : Config) (lifecycle : LifecycleStore) (calls : List DDLCall) :
    StaysInStep cfg (untouched lifecycle) calls ↔
      (handling cfg).Meets (Settles cfg) (untouched lifecycle) calls := by
  have hagree : ∀ s call, Agreed cfg s →
      (InStep cfg ((handling cfg).step s call).1 ↔ Settles cfg s call) :=
    fun s call h => (inStep_step_iff h call).1
  have hkeeps : ∀ s call, Agreed cfg s → Settles cfg s call →
      Agreed cfg ((handling cfg).step s call).1 :=
    fun s call h hsettles => ⟨(hagree s call h).mpr hsettles, (inStep_step_iff h call).2 hsettles⟩
  exact Machine.meets_iff_of_invariant (handling cfg) hagree hkeeps (agreed_untouched cfg lifecycle)

/-- A statement is applied and written, but its row of the history is not stored. -/
def unstoredCall : DDLCall where
  env := { answering (.result (some ordersTable)) with
    saveSchemaHistory := some (lit "connection refused") }
  ev := ordersDDL
  encodable := nofun

/-- The definition is then in memory only, and the statement is recorded as being applied. -/
theorem not_forall_staysInStep : ¬ ∀ (cfg : Config) (lifecycle : LifecycleStore)
    (calls : List DDLCall), StaysInStep cfg (untouched lifecycle) calls := by
  intro h
  obtain ⟨hin, -⟩ := h fullConfig ordersStreaming.lifecycle [unstoredCall]
  have hgot := congrFun hin.tables (tableKey (lit "shop") (lit "orders"))
  exact absurd hgot (by decide)

end DataStream.Lifecycle
