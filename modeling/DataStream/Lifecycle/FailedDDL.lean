import DataStream.Foundations.Trace
import DataStream.Lifecycle.BinlogConsumer

/-!
# Failed DDL statements

What the recorded row of a failed DDL statement guarantees over a whole run of the consumer.

* `ddlCompleted_mem_between`: after a failure, DML is written only once a statement has completed;
* `attempts_le_maxDDLRetries_iff`: when `maxDDLRetries` is a bound.
-/

namespace DataStream.Lifecycle

open Event Source Schema List Option Effect Consumer

/-! ## A failed statement blocks the data of its table -/

variable (cfg : Config) (db tbl : Bytes) (isBlocked : Bool) (s : Consumer)

/-- An effect writes a DML event of a table to the sink or to the cache. -/
def Effect.isDMLWrite : Effect → Bool
  | .sinkWrite ev | .cacheWrite _ ev _ =>
    !ev.isDDL && ev.table.database == db && ev.table.table == tbl
  | _ => false

/-- An effect reports the failure of a statement of a table. -/
def Effect.isDDLFailed : Effect → Bool
  | .ddlFailed db' tbl' => db' == db && tbl' == tbl
  | _ => false

/-- An effect reports the completion of a statement of a table. -/
def Effect.isDDLCompleted : Effect → Bool
  | .ddlCompleted db' tbl' => db' == db && tbl' == tbl
  | _ => false

/-- Between a failure and a completion no DML event of the table may be written. -/
def ddlMonitor : Monitor Effect where
  opening := isDDLFailed db tbl
  closing := isDDLCompleted db tbl
  forbidden := isDMLWrite db tbl

/-- While the table is blocked its row is in the configured store. -/
def RowWhile : Prop :=
  isBlocked = true → cfg.hasDDLStore = true ∧ (s.ddlStates db tbl).isSome = true

/-- A trace keeps the monitor of a table, and leaves the row stored if the table is blocked at its
end. -/
def KeepsBlock (es : List Effect) : Prop :=
  (ddlMonitor db tbl).Respects isBlocked es ∧
    RowWhile cfg db tbl ((ddlMonitor db tbl).openAfter isBlocked es) s

section Block

variable {cfg : Config} {db tbl : Bytes} {isBlocked : Bool} {s : Consumer}

/-- An attempt writes only the DDL event itself, and ends the block of its table or leaves a row. -/
lemma keepsBlock_of_attempt {ev : ChangeEvent} {s' : Consumer} {row : Option DDLStateRow}
    {writes ends : List Effect} (hddl : ev.isDDL = true) (h : RowWhile cfg db tbl isBlocked s)
    (hrows : s'.ddlStates = (s.setDDLRow ev.table.database ev.table.table row).ddlStates)
    (hwrites : writes = [] ∨ writes = [.sinkWrite ev])
    (hends : ends = [.ddlCompleted ev.table.database ev.table.table] ∨ row.isSome = true ∧
      (ends = [] ∨ ends = [.ddlFailed ev.table.database ev.table.table] ∧ cfg.hasDDLStore = true)) :
    KeepsBlock cfg db tbl isBlocked s'
      (.attempt ev.table.database ev.table.table (ddlText ev) :: (writes ++ ends)) := by
  rw [KeepsBlock, RowWhile, hrows]
  constructor
  · rcases hwrites with rfl | rfl <;> rcases hends with rfl | ⟨-, rfl | ⟨rfl, -⟩⟩ <;>
      simp [ddlMonitor, isDMLWrite, hddl]
  by_cases hkey : db = ev.table.database ∧ tbl = ev.table.table
  · obtain ⟨rfl, rfl⟩ := hkey
    have hconfigured : isBlocked = true → cfg.hasDDLStore = true := fun hblocked => (h hblocked).1
    rcases hwrites with rfl | rfl <;> rcases hends with rfl | ⟨hrow, rfl | ⟨rfl, hcfg⟩⟩ <;>
      simp_all [ddlMonitor, Monitor.next, isDDLFailed, isDDLCompleted]
  · have hopen : (ddlMonitor db tbl).openAfter isBlocked (.attempt ev.table.database
        ev.table.table (ddlText ev) :: (writes ++ ends)) = isBlocked := by
      rw [eq_comm, @eq_comm _ tbl] at hkey
      rcases hwrites with rfl | rfl <;> rcases hends with rfl | ⟨-, rfl | ⟨rfl, -⟩⟩ <;>
        simp [ddlMonitor, Monitor.next, isDDLFailed, isDDLCompleted, hkey]
    rw [hopen, setDDLRow_of_ne s _ hkey]
    exact h

lemma keepsBlock_of_handled {ev : ChangeEvent} {r : Result} (hr : Handled cfg s ev r)
    (hddl : ev.isDDL = true) (h : RowWhile cfg db tbl isBlocked s) :
    KeepsBlock cfg db tbl isBlocked r.state r.effects := by
  cases hr with
  | skipped outcome _ => exact ⟨trivial, h⟩
  | failed _ hfailed =>
    obtain ⟨writes, hwrites, heffects⟩ := hfailed.effects
    obtain ⟨row, -, -, -, hrows⟩ := hfailed.rows
    rw [heffects]
    exact keepsBlock_of_attempt hddl h hrows hwrites (.inr ⟨rfl, .inr ⟨rfl, hfailed.configured⟩⟩)
  | panicked s' row _ _ hrows =>
    exact keepsBlock_of_attempt hddl h hrows (.inr rfl) (.inr ⟨rfl, .inl rfl⟩)
  | completed s' _ hrows => exact keepsBlock_of_attempt hddl h hrows (.inr rfl) (.inl rfl)

lemma keepsBlock_route {env : Env} (hstore : StoreSucceeds env) (ev : ChangeEvent)
    (h : RowWhile cfg db tbl isBlocked s) :
    KeepsBlock cfg db tbl isBlocked (route cfg env s ev).state (route cfg env s ev).effects := by
  have hrouted := routed_route hstore cfg s ev
  generalize route cfg env s ev = r at hrouted ⊢
  cases hrouted with
  | ddl hddl => exact keepsBlock_of_handled (handled_handleDDL hstore cfg s ev) hddl h
  | blocked row hdml hrow hstays => exact ⟨trivial, h⟩
  | retried row s' r outcome hdml hrow _ _ _ hrows _ _ _ hr =>
    have h' : RowWhile cfg db tbl isBlocked s' := by
      rw [RowWhile, hrows]
      exact h
    have hddl : (retryEvent ev.table.database ev.table.table row.ddl).isDDL = true := rfl
    subst hr
    have hkeeps := keepsBlock_of_handled (handled_handleDDL hstore cfg s' _) hddl h'
    exact hkeeps
  | passed effects outcome hdml hrow heffects =>
    -- The event was not blocked, so it is one of another table or nothing is open.
    have hallowed : isBlocked = true → ¬(ev.table.database = db ∧ ev.table.table = tbl) := by
      rintro hblocked ⟨rfl, rfl⟩
      obtain ⟨hcfg, hsome⟩ := h hblocked
      rcases hrow with hnone | hnone
      · rw [hcfg] at hnone
        exact Bool.noConfusion hnone
      · rw [hnone] at hsome
        exact Bool.noConfusion hsome
    rcases heffects with rfl | rfl | ⟨key, rfl⟩
    · exact ⟨trivial, h⟩
    all_goals
      refine ⟨⟨fun hblocked => ?_, trivial⟩, h⟩
      simpa [ddlMonitor, isDMLWrite, hdml] using hallowed hblocked

end Block

/-- Every `Route` call of a run finds a store that answers. -/
def StoreAlwaysSucceeds (is : List Input) : Prop := ∀ env ev, .route env ev ∈ is → StoreSucceeds env

lemma respects_run (cfg : Config) (db tbl : Bytes) (s : Consumer) {is : List Input}
    (hstore : StoreAlwaysSucceeds is) :
    (ddlMonitor db tbl).Respects false ((consumer cfg).run s is).2 := by
  have hmeets : (consumer cfg).Meets (fun _ i => i ∈ is) s is :=
    (consumer cfg).meets_imp_of_mem (fun i hi _ _ => hi) ((consumer cfg).meets_true s is)
  -- The invariant of the run: the trace so far keeps the block of the table.
  have hkeeps := (consumer cfg).run_induction_of_meets
    (motive := fun s es => KeepsBlock cfg db tbl false s es) hmeets
    ⟨trivial, fun h => Bool.noConfusion h⟩ ?step
  · exact hkeeps.1
  case step =>
    rintro s es (⟨env, ev⟩ | ⟨lifecycle, tables⟩) hmem ⟨hrespects, hrow⟩
    · cases hcrashed : s.crashed with
      | true =>
        rw [consumer_step_crashed cfg hcrashed, append_nil]
        exact ⟨hrespects, hrow⟩
      | false =>
        rw [consumer_step_route cfg hcrashed]
        obtain ⟨hrespects', hrow'⟩ := keepsBlock_route (hstore env ev hmem) ev hrow
        refine ⟨(Monitor.respects_append ..).mpr ⟨hrespects, hrespects'⟩, ?_⟩
        rw [Monitor.openAfter_append]
        exact hrow'
    · rw [consumer_step_external, append_nil]
      exact ⟨hrespects, hrow⟩

/-- Once a statement of a table has failed, no DML event of the table is written to the sink or to
the cache until a statement of the table completes. -/
theorem ddlCompleted_mem_between (cfg : Config) (db tbl : Bytes) (s : Consumer) {is : List Input}
    (hstore : StoreAlwaysSucceeds is) {before between after : List Effect} {write : Effect}
    (htrace : ((consumer cfg).run s is).2 =
      before ++ .ddlFailed db tbl :: (between ++ write :: after))
    (hwrite : write.isDMLWrite db tbl = true) :
    .ddlCompleted db tbl ∈ between := by
  have hrespects := respects_run cfg db tbl s hstore
  rw [htrace] at hrespects
  obtain ⟨c, hmem, hclosing⟩ := (ddlMonitor db tbl).exists_closing hrespects
    (by simp [ddlMonitor, isDDLFailed]) hwrite
  cases c <;> simp [ddlMonitor, isDDLCompleted] at hclosing
  obtain ⟨rfl, rfl⟩ := hclosing
  exact hmem

/-! ## A failing statement is retried without bound -/

/-- An effect is an attempt at a statement of a table. -/
def Effect.isAttempt (db tbl ddl : Bytes) : Effect → Bool
  | .attempt db' tbl' ddl' => db' == db && tbl' == tbl && ddl' == ddl
  | _ => false

/-- How often a statement of a table is attempted in a trace. -/
def attempts (db tbl ddl : Bytes) (es : List Effect) : ℕ := es.countP (isAttempt db tbl ddl)

@[simp]
lemma attempts_append (db tbl ddl : Bytes) (es es' : List Effect) :
    attempts db tbl ddl (es ++ es') = attempts db tbl ddl es + attempts db tbl ddl es' :=
  countP_append

/-- An event is one of a table. -/
def IsOf (db tbl : Bytes) (ev : ChangeEvent) : Prop := ev.table.database = db ∧ ev.table.table = tbl
  deriving Decidable

/-- How many inputs make the consumer retry the recorded statement of a table: the DML events of
the table that arrive while it has a lifecycle record, up to the next DDL event of the table. -/
def triggers (db tbl : Bytes) : Bool → List Input → ℕ
  | _, [] => 0
  | _, .external lifecycle _ :: is => triggers db tbl (lifecycle (ddlTableID db tbl)).isSome is
  | present, .route _ ev :: is =>
    if IsOf db tbl ev then
      if ev.isDDL then
        -- A later statement of the table replaces the recorded one.
        if ddlText ev = [] then triggers db tbl present is else 0
      else present.toNat + triggers db tbl present is
    else triggers db tbl present is

/-- An event that does not replace the recorded statement triggers a retry if it is DML of the
table. -/
lemma triggers_route_of_keeps {db tbl : Bytes} {ev : ChangeEvent} (present : Bool) (env : Env)
    (is : List Input) (hkeeps : IsOf db tbl ev → ev.isDDL = true → ddlText ev = []) :
    triggers db tbl present (.route env ev :: is) =
      (if IsOf db tbl ev ∧ ev.isDDL = false then present.toNat else 0) +
        triggers db tbl present is := by
  rw [triggers]
  by_cases hof : IsOf db tbl ev
  · cases hisDDL : ev.isDDL with
    | true => simp [hof, hkeeps hof hisDDL]
    | false => simp [hof]
  · simp [hof]

/-- Every attempt at a statement of a table fails, with a store that answers, and later statements
are other ones. -/
def FailsEachTime (db tbl ddl : Bytes) (s : Consumer) : Input → Prop
  | .route env ev =>
    StoreSucceeds env ∧ AttemptFails env (s.tables.get db tbl) ddl ∧
      (IsOf db tbl ev → ev.isDDL = true → ddlText ev ≠ ddl)
  | .external _ _ => True

/-- The recorded row of a table is the first failure of a statement. -/
def PendingRetry (db tbl ddl : Bytes) (s : Consumer) : Prop :=
  ∃ row, s.ddlStates db tbl = some row ∧ row.ddl = ddl ∧ row.status = .failed ∧ row.retryCount = 1

/-- The recorded row of a table, if there is one, is of another statement. -/
def Superseded (db tbl ddl : Bytes) (s : Consumer) : Prop :=
  ∀ row, s.ddlStates db tbl = some row → row.ddl ≠ ddl

@[simp]
lemma ddlText_retryEvent (db tbl ddl : Bytes) : ddlText (retryEvent db tbl ddl) = ddl := by
  simp [ddlText, retryEvent, GoMap.get?]

section Attempts

variable {cfg : Config} {db tbl ddl : Bytes} {s : Consumer} {ev : ChangeEvent} {r : Result}

/-- A `handleDDL` call attempts only the statement of its event, for the table of its event. -/
lemma attempts_of_handled (hr : Handled cfg s ev r) (h : IsOf db tbl ev → ddlText ev ≠ ddl) :
    attempts db tbl ddl r.effects = 0 := by
  have hother : ev.table.database = db → ev.table.table = tbl → ¬ddlText ev = ddl :=
    fun hdb htbl => h ⟨hdb, htbl⟩
  cases hr with
  | skipped outcome _ => rfl
  | failed _ hfailed =>
    obtain ⟨writes, hwrites, heffects⟩ := hfailed.effects
    rw [heffects]
    rcases hwrites with rfl | rfl <;> simpa [attempts, countP_cons, isAttempt] using hother
  | panicked | completed => simpa [attempts, countP_cons, isAttempt] using hother

lemma ddlStates_of_handled (hr : Handled cfg s ev r) (h : ¬IsOf db tbl ev) :
    r.state.ddlStates db tbl = s.ddlStates db tbl := by
  have hkey : ¬(db = ev.table.database ∧ tbl = ev.table.table) := by
    rintro ⟨rfl, rfl⟩
    exact h ⟨rfl, rfl⟩
  cases hr with
  | skipped outcome _ => rfl
  | failed _ hfailed =>
    obtain ⟨row, -, -, -, hrows⟩ := hfailed.rows
    rw [hrows, setDDLRow_of_ne s _ hkey]
  | panicked _ _ _ _ hrows | completed _ _ hrows => rw [hrows, setDDLRow_of_ne s _ hkey]

lemma isSome_of_handled (hr : Handled cfg s ev r) (hup : r.state.crashed = false) (id : TableID) :
    (r.state.lifecycle id).isSome = (s.lifecycle id).isSome := by
  cases hr with
  | skipped outcome _ => rfl
  | failed _ hfailed => exact hfailed.lifecycle id
  | panicked s' row _ _ hrows hcrashed => exact absurd hup (by simp [hcrashed])
  | completed s' _ hrows hcrashed hlifecycle => exact hlifecycle id

/-- A `handleDDL` call for another statement leaves no row of this statement behind. -/
lemma superseded_of_handled (hr : Handled cfg s ev r) (hof : IsOf db tbl ev)
    (hother : ddlText ev ≠ ddl) (hstatement : ddlText ev ≠ [])
    (hhandling : cfg.hasDDLHandling = true) (hcfg : cfg.hasDDLStore = true) :
    Superseded db tbl ddl r.state := by
  obtain ⟨rfl, rfl⟩ := hof
  intro row hrow
  cases hr with
  | skipped outcome hskipped => simp [hhandling, hcfg, hstatement] at hskipped
  | failed _ hfailed =>
    obtain ⟨row', hddl, -, -, hrows⟩ := hfailed.rows
    rw [hrows, setDDLRow_self] at hrow
    obtain rfl := some.inj hrow
    rwa [hddl]
  | panicked s' row' _ hddl hrows hcrashed =>
    rw [hrows, setDDLRow_self] at hrow
    obtain rfl := some.inj hrow
    rwa [hddl]
  | completed s' _ hrows hcrashed hlifecycle =>
    rw [hrows, setDDLRow_self] at hrow
    cases hrow

/-- A failing `handleDDL` call attempts its statement once and leaves it to be retried. -/
lemma pendingRetry_of_failedAttempt (h : FailedAttempt cfg s ev r) (hof : IsOf db tbl ev)
    (hddl : ddlText ev = ddl) :
    attempts db tbl ddl r.effects = 1 ∧ PendingRetry db tbl ddl r.state := by
  obtain ⟨rfl, rfl⟩ := hof
  subst hddl
  obtain ⟨writes, hwrites, heffects⟩ := h.effects
  obtain ⟨row, hrow, hstatus, hcount, hrows⟩ := h.rows
  refine ⟨?_, row, ?_, hrow, hstatus, hcount⟩
  · rw [heffects]
    rcases hwrites with rfl | rfl <;> simp [attempts, isAttempt]
  · rw [hrows, setDDLRow_self]

variable {env : Env}

/-- While a statement is superseded, a `handleDDL` call for another statement keeps it so. -/
lemma superseded_handleDDL (hstore : StoreSucceeds env) (hhandling : cfg.hasDDLHandling = true)
    (hcfg : cfg.hasDDLStore = true) (h : Superseded db tbl ddl s)
    (hother : IsOf db tbl ev → ddlText ev ≠ ddl) :
    attempts db tbl ddl (handleDDL cfg env s ev).effects = 0 ∧
      Superseded db tbl ddl (handleDDL cfg env s ev).state := by
  have hr := handled_handleDDL hstore cfg s ev
  refine ⟨attempts_of_handled hr hother, ?_⟩
  by_cases hof : IsOf db tbl ev
  · by_cases hstatement : ddlText ev = []
    · obtain ⟨outcome, hskipped⟩ := handleDDL_of_ddlText_eq_nil cfg env s hstatement
      rw [hskipped]
      exact h
    · exact superseded_of_handled hr hof (hother hof) hstatement hhandling hcfg
  · intro row hrow
    rw [ddlStates_of_handled hr hof] at hrow
    exact h row hrow

/-- While a statement is superseded, no `Route` call attempts it, and it stays superseded. -/
lemma superseded_route (hstore : StoreSucceeds env) (hhandling : cfg.hasDDLHandling = true)
    (hcfg : cfg.hasDDLStore = true) (h : Superseded db tbl ddl s)
    (hother : IsOf db tbl ev → ev.isDDL = true → ddlText ev ≠ ddl) :
    attempts db tbl ddl (route cfg env s ev).effects = 0 ∧
      Superseded db tbl ddl (route cfg env s ev).state := by
  have hrouted := routed_route hstore cfg s ev
  generalize route cfg env s ev = r at hrouted ⊢
  -- An attempt is made by the event itself or by a retry; neither is at this statement.
  cases hrouted with
  | ddl hddl => exact superseded_handleDDL hstore hhandling hcfg h fun hof => hother hof hddl
  | blocked row hdml hrow hstays => exact ⟨rfl, h⟩
  | retried row s' r outcome hdml hrow _ _ _ hrows _ _ _ hr =>
    subst hr
    have hs' : Superseded db tbl ddl s' := fun row' hrow' => h row' (hrows ▸ hrow')
    refine superseded_handleDDL hstore hhandling hcfg hs' fun hof => ?_
    obtain ⟨rfl, rfl⟩ := hof
    exact h row hrow
  | passed effects outcome hdml hrow heffects =>
    refine ⟨?_, h⟩
    rcases heffects with rfl | rfl | ⟨_, rfl⟩ <;> rfl

/-- A `handleDDL` call for another table or without a statement leaves a pending retry alone. -/
lemma pendingRetry_handleDDL (hstore : StoreSucceeds env) (hddl : ddl ≠ [])
    (h : PendingRetry db tbl ddl s) (hkeeps : IsOf db tbl ev → ddlText ev = []) :
    attempts db tbl ddl (handleDDL cfg env s ev).effects = 0 ∧
      PendingRetry db tbl ddl (handleDDL cfg env s ev).state ∧
      ((handleDDL cfg env s ev).state.crashed = false →
        ((handleDDL cfg env s ev).state.lifecycle (ddlTableID db tbl)).isSome =
          (s.lifecycle (ddlTableID db tbl)).isSome) := by
  have hr := handled_handleDDL hstore cfg s ev
  refine ⟨attempts_of_handled hr fun hof => hkeeps hof ▸ hddl.symm, ?_,
    fun hup => isSome_of_handled hr hup _⟩
  by_cases hof : IsOf db tbl ev
  · obtain ⟨outcome, hskipped⟩ := handleDDL_of_ddlText_eq_nil cfg env s (hkeeps hof)
    rw [hskipped]
    exact h
  · rw [PendingRetry, ddlStates_of_handled hr hof]
    exact h

/-- A pending retry that does not take place finds no lifecycle record of the table. -/
lemma isSome_eq_false_of_stays {row : DDLStateRow} {present : Bool} (hstatus : row.status = .failed)
    (hcount : row.retryCount = 1)
    (hstays : row.status ≠ .failed ∨ maxDDLRetries ≤ row.retryCount ∨ present = false) :
    present = false := by
  rcases hstays with hstays | hstays | hstays
  · exact absurd hstatus hstays
  · rw [hcount] at hstays
    exact absurd hstays (by decide)
  · exact hstays

/-- What a `Route` call does with a statement to be retried: one attempt for a DML event of a table
with a record, else none. -/
lemma pendingRetry_route (hstore : StoreSucceeds env) (hhandling : cfg.hasDDLHandling = true)
    (hcfg : cfg.hasDDLStore = true) (hddl : ddl ≠ []) (h : PendingRetry db tbl ddl s)
    (hfails : AttemptFails env (s.tables.get db tbl) ddl)
    (hkeeps : IsOf db tbl ev → ev.isDDL = true → ddlText ev = []) :
    attempts db tbl ddl (route cfg env s ev).effects =
        (if IsOf db tbl ev ∧ ev.isDDL = false then
          (s.lifecycle (ddlTableID db tbl)).isSome.toNat else 0) ∧
      PendingRetry db tbl ddl (route cfg env s ev).state ∧
      ((route cfg env s ev).state.crashed = false →
        ((route cfg env s ev).state.lifecycle (ddlTableID db tbl)).isSome =
          (s.lifecycle (ddlTableID db tbl)).isSome) := by
  have ⟨row, hrow, hrowddl, hstatus, hcount⟩ := h
  have hrouted := routed_route hstore cfg s ev
  generalize route cfg env s ev = r at hrouted ⊢
  cases hrouted with
  | ddl hisDDL =>
    -- A DDL event of another table, or one without a statement.
    rw [if_neg (by simp [hisDDL])]
    exact pendingRetry_handleDDL hstore hddl h fun hof => hkeeps hof hisDDL
  | blocked row' hdml hrow' hstays =>
    refine ⟨?_, h, fun _ => rfl⟩
    -- An event that is held back without an attempt belongs to a table without a record.
    by_cases hof : IsOf db tbl ev
    · obtain ⟨rfl, rfl⟩ := hof
      obtain rfl := some.inj (hrow.symm.trans hrow')
      have habsent := isSome_eq_false_of_stays hstatus hcount hstays
      simp [attempts, habsent]
    · rw [if_neg fun h => hof h.1]
      rfl
  | retried row' s' r outcome hdml hrow' _ _ hpresent hrows htables hcrashed hlifecycle hr =>
    by_cases hof : IsOf db tbl ev
    · obtain ⟨rfl, rfl⟩ := hof
      obtain rfl := some.inj (hrow.symm.trans hrow')
      -- The retry is an attempt at the recorded statement, and it fails once more.
      have htext : ddlText (retryEvent ev.table.database ev.table.table row.ddl) = ddl := by
        rw [ddlText_retryEvent, hrowddl]
      have hfailed := failedAttempt_handleDDL hstore hcfg hhandling s'
        (htext.symm ▸ hddl) (htext.symm ▸ htables.symm ▸ hfails)
      rw [← hr] at hfailed
      obtain ⟨hattempts, hpending⟩ := pendingRetry_of_failedAttempt hfailed ⟨rfl, rfl⟩ htext
      rw [if_pos ⟨⟨rfl, rfl⟩, hdml⟩, hpresent]
      exact ⟨hattempts, hpending, fun _ => by rw [hfailed.lifecycle, hlifecycle, hpresent]⟩
    · rw [if_neg fun h => hof h.1, ← hlifecycle]
      subst hr
      have hs' : PendingRetry db tbl ddl s' := by rwa [PendingRetry, hrows]
      exact pendingRetry_handleDDL hstore hddl hs' fun hof' => absurd hof' hof
  | passed effects outcome hdml hrow' heffects =>
    -- No event of the table passes while a statement is recorded.
    have hof : ¬IsOf db tbl ev := by
      rintro ⟨rfl, rfl⟩
      simp [hcfg, hrow] at hrow'
    rw [if_neg fun h => hof h.1]
    refine ⟨?_, h, fun _ => rfl⟩
    rcases heffects with rfl | rfl | ⟨_, rfl⟩ <;> rfl

end Attempts

/-! ### Whole runs -/

lemma crashed_run (cfg : Config) {s : Consumer} (h : s.crashed = true) (is : List Input) :
    ((consumer cfg).run s is).1.crashed = true ∧ ((consumer cfg).run s is).2 = [] := by
  refine (consumer cfg).run_induction (motive := fun s es => s.crashed = true ∧ es = []) is
    ⟨h, rfl⟩ ?_
  rintro s es (⟨env, ev⟩ | ⟨lifecycle, tables⟩) ⟨hcrashed, rfl⟩
  · rw [consumer_step_crashed cfg hcrashed]
    exact ⟨hcrashed, rfl⟩
  · exact ⟨hcrashed, rfl⟩

section Runs

variable {cfg : Config} {db tbl ddl : Bytes} (hhandling : cfg.hasDDLHandling = true)
  (hcfg : cfg.hasDDLStore = true)
include hhandling hcfg

lemma attempts_eq_zero_of_superseded {s : Consumer} {is : List Input}
    (hmeets : (consumer cfg).Meets (FailsEachTime db tbl ddl) s is)
    (h : Superseded db tbl ddl s) : attempts db tbl ddl ((consumer cfg).run s is).2 = 0 := by
  refine ((consumer cfg).run_induction_of_meets (motive := fun s es =>
    attempts db tbl ddl es = 0 ∧ Superseded db tbl ddl s) hmeets ⟨rfl, h⟩ ?_).1
  rintro s es (⟨env, ev⟩ | ⟨lifecycle, tables⟩) hok ⟨hzero, hsuperseded⟩
  · obtain ⟨hstore, -, hother⟩ := hok
    cases hcrashed : s.crashed with
    | true =>
      rw [consumer_step_crashed cfg hcrashed, append_nil]
      exact ⟨hzero, hsuperseded⟩
    | false =>
      obtain ⟨hnone, hstays⟩ := superseded_route hstore hhandling hcfg hsuperseded hother
      rw [consumer_step_route cfg hcrashed, attempts_append, hzero, hnone]
      exact ⟨rfl, hstays⟩
  · rw [consumer_step_external, append_nil]
    exact ⟨hzero, hsuperseded⟩

/-- A statement that fails each time is attempted at most as often as it is triggered, and exactly
so unless a panic ends the run. -/
theorem attempts_eq_triggers (hddl : ddl ≠ []) {s : Consumer} {is : List Input}
    (hmeets : (consumer cfg).Meets (FailsEachTime db tbl ddl) s is)
    (h : PendingRetry db tbl ddl s) :
    attempts db tbl ddl ((consumer cfg).run s is).2 ≤
        triggers db tbl (s.lifecycle (ddlTableID db tbl)).isSome is ∧
      (((consumer cfg).run s is).1.crashed = false →
        attempts db tbl ddl ((consumer cfg).run s is).2 =
          triggers db tbl (s.lifecycle (ddlTableID db tbl)).isSome is) := by
  induction is generalizing s with
  | nil => exact ⟨le_rfl, fun _ => rfl⟩
  | cons i is ih =>
    -- After a panic there are no more attempts.
    cases hcrashed : s.crashed with
    | true =>
      obtain ⟨hstays, hnothing⟩ := crashed_run cfg hcrashed (i :: is)
      rw [hnothing, hstays]
      exact ⟨Nat.zero_le _, fun hup => Bool.noConfusion hup⟩
    | false =>
    obtain ⟨hok, hmeets⟩ := hmeets
    cases i with
    | external lifecycle tables => exact ih hmeets h
    | route env ev =>
      obtain ⟨hstore, hfails, hother⟩ := hok
      rw [Machine.run_cons, attempts_append]
      rw [consumer_step_route cfg hcrashed] at hmeets ⊢
      by_cases hkeeps : IsOf db tbl ev → ev.isDDL = true → ddlText ev = []
      · -- The recorded statement stays, with one attempt for each trigger.
        obtain ⟨hattempts, hpending, hpresent⟩ :=
          pendingRetry_route hstore hhandling hcfg hddl h hfails hkeeps
        have htriggers : triggers db tbl (s.lifecycle (ddlTableID db tbl)).isSome
            (.route env ev :: is) = attempts db tbl ddl (route cfg env s ev).effects +
              triggers db tbl (s.lifecycle (ddlTableID db tbl)).isSome is := by
          rw [hattempts, triggers_route_of_keeps _ env is hkeeps]
        rw [htriggers]
        cases hup : (route cfg env s ev).state.crashed with
        | true =>
          obtain ⟨hstays, hnothing⟩ := crashed_run cfg hup is
          rw [hnothing, hstays]
          exact ⟨Nat.add_le_add_left (Nat.zero_le _) _, fun hup => Bool.noConfusion hup⟩
        | false =>
          obtain ⟨hle, heq⟩ := ih hmeets hpending
          rw [hpresent hup] at hle heq
          exact ⟨Nat.add_le_add_left hle _, fun hup => by rw [heq hup]⟩
      · -- A later statement of the table replaces the recorded one.
        push Not at hkeeps
        obtain ⟨hof, hisDDL, hstatement⟩ := hkeeps
        have hroute : route cfg env s ev = handleDDL cfg env s ev := if_pos hisDDL
        have hr := handled_handleDDL hstore cfg s ev
        rw [hroute] at hmeets ⊢
        rw [attempts_of_handled hr fun hof => hother hof hisDDL,
          attempts_eq_zero_of_superseded hhandling hcfg hmeets
            (superseded_of_handled hr hof (hother hof hisDDL) hstatement hhandling hcfg)]
        simp [triggers, hof, hisDDL, hstatement]

end Runs

/-- A DDL event of a table fails at its first attempt. -/
structure FirstFails (cfg : Config) (s : Consumer) (env : Env) (ev : ChangeEvent) : Prop where
  handling : cfg.hasDDLHandling = true
  configured : cfg.hasDDLStore = true
  running : s.crashed = false
  isDDL : ev.isDDL = true
  statement : ddlText ev ≠ []
  store : StoreSucceeds env
  fails : AttemptFails env (s.tables.get ev.table.database ev.table.table) (ddlText ev)

/-- The first attempt leaves the statement to be retried and the lifecycle records in place. -/
lemma FirstFails.step {cfg : Config} {s : Consumer} {env : Env} {ev : ChangeEvent}
    (h : FirstFails cfg s env ev) :
    PendingRetry ev.table.database ev.table.table (ddlText ev)
        ((consumer cfg).step s (.route env ev)).1 ∧
      ∀ id, (((consumer cfg).step s (.route env ev)).1.lifecycle id).isSome =
        (s.lifecycle id).isSome := by
  have hfailed := failedAttempt_handleDDL h.store h.configured h.handling s h.statement h.fails
  have hroute : route cfg env s ev = handleDDL cfg env s ev := if_pos h.isDDL
  rw [consumer_step_route cfg h.running, hroute]
  exact ⟨(pendingRetry_of_failedAttempt hfailed ⟨rfl, rfl⟩ rfl).2, hfailed.lifecycle⟩

/-- After its first attempt, a statement that fails each time is attempted at most `maxDDLRetries`
times if at most that many DML events of its table arrive, up to its next statement, while it has a
lifecycle record; in a run without a panic only then. -/
theorem attempts_le_maxDDLRetries_iff {cfg : Config} {s : Consumer} {env : Env} {ev : ChangeEvent}
    (hfirst : FirstFails cfg s env ev) {is : List Input}
    (hmeets : (consumer cfg).Meets
      (FailsEachTime ev.table.database ev.table.table (ddlText ev))
      ((consumer cfg).step s (.route env ev)).1 is) :
    let later := (consumer cfg).run ((consumer cfg).step s (.route env ev)).1 is
    let retries : ℤ := attempts ev.table.database ev.table.table (ddlText ev) later.2
    let arrivals : ℤ := triggers ev.table.database ev.table.table
      (s.lifecycle (ddlTableID ev.table.database ev.table.table)).isSome is
    (arrivals ≤ maxDDLRetries → retries ≤ maxDDLRetries) ∧
      (later.1.crashed = false → (retries ≤ maxDDLRetries ↔ arrivals ≤ maxDDLRetries)) := by
  obtain ⟨hpending, hpresent⟩ := hfirst.step
  obtain ⟨hle, heq⟩ := attempts_eq_triggers hfirst.handling hfirst.configured hfirst.statement
    hmeets hpending
  rw [hpresent] at hle heq
  refine ⟨fun harrivals => ?_, fun hup => ?_⟩
  · exact le_trans (Int.ofNat_le.mpr hle) harrivals
  · rw [heq hup]

/-! ### A run beyond the bound -/

section Sample

def ordersTable : TableInfo := { TableInfo.zero with database := lit "shop", table := lit "orders" }

def ordersDDL : ChangeEvent :=
  { ChangeEvent.zero with
    type := .ddl
    table := ordersTable
    metadata := [(lit "ddl", lit "ALTER TABLE orders ADD COLUMN note TEXT")] }

def ordersInsert : ChangeEvent := { ChangeEvent.zero with type := .insert, table := ordersTable }

def fullConfig : Config := { sourceType := 0, hasDDLHandling := true, hasDDLStore := true }

def ordersStreaming : Consumer where
  lifecycle id := if id = ddlTableID (lit "shop") (lit "orders") then
    some { TableLifecycle.new with state := .streaming } else none
  tables := Tables.empty
  ddlStates _ _ := none
  history := []
  crashed := false

/-- Services that all answer; the parser gives the same answer to every statement. -/
def answering (parser : ParserAnswer) : Env where
  applyDDL _ _ := parser
  sinkWrite := none
  cacheWrite := none
  loadDDLState := none
  saveApplying := none
  loadAfterFailure := none
  saveFailed := none
  saveSchemaHistory := none
  deleteDDLState := none

lemma storeSucceeds_answering (parser : ParserAnswer) : StoreSucceeds (answering parser) :=
  ⟨rfl, rfl, rfl, rfl, rfl, rfl⟩

def rejecting : Env := answering (.error (lit "syntax error"))

lemma firstFails_ordersDDL : FirstFails fullConfig ordersStreaming rejecting ordersDDL where
  handling := rfl
  configured := rfl
  running := rfl
  isDDL := rfl
  statement := by decide
  store := storeSucceeds_answering _
  fails := .inl ⟨_, rfl⟩

/-- Inserts into the table, with the parser still rejecting. -/
def inserts (n : ℕ) : List Input := List.replicate n (.route rejecting ordersInsert)

lemma meets_inserts (s : Consumer) (n : ℕ) :
    (consumer fullConfig).Meets
      (FailsEachTime ordersDDL.table.database ordersDDL.table.table (ddlText ordersDDL))
      s (inserts n) := by
  induction n generalizing s with
  | zero => trivial
  | succ n ih =>
    refine ⟨⟨storeSucceeds_answering _, .inl ⟨_, rfl⟩, fun _ hddl => ?_⟩, ih _⟩
    cases hddl

/-- Two inserts after a failing statement stay within the bound. -/
theorem attempts_le_maxDDLRetries_orders :
    (attempts (lit "shop") (lit "orders") (ddlText ordersDDL)
      ((consumer fullConfig).run
        ((consumer fullConfig).step ordersStreaming (.route rejecting ordersDDL)).1
        (inserts 2)).2 : ℤ) ≤ maxDDLRetries :=
  (attempts_le_maxDDLRetries_iff firstFails_ordersDDL (meets_inserts _ 2)).1 (by decide)

/-- Four inserts after a failing statement make four retries. -/
theorem not_forall_attempts_le_maxDDLRetries :
    ¬∀ (cfg : Config) (s : Consumer) (env : Env) (ev : ChangeEvent) (is : List Input),
      FirstFails cfg s env ev →
      (consumer cfg).Meets (FailsEachTime ev.table.database ev.table.table (ddlText ev))
        ((consumer cfg).step s (.route env ev)).1 is →
      (attempts ev.table.database ev.table.table (ddlText ev)
        ((consumer cfg).run ((consumer cfg).step s (.route env ev)).1 is).2 : ℤ) ≤
        maxDDLRetries := by
  intro h
  have hbound := h fullConfig ordersStreaming rejecting ordersDDL (inserts 4) firstFails_ordersDDL
    (meets_inserts _ 4)
  have hfour : attempts ordersDDL.table.database ordersDDL.table.table (ddlText ordersDDL)
      ((consumer fullConfig).run ((consumer fullConfig).step ordersStreaming
        (.route rejecting ordersDDL)).1 (inserts 4)).2 = 4 := by
    decide
  exact absurd hbound (by decide)

/-- A rejected statement, an insert at which the retry is accepted, and another insert. -/
def recovery : List Input :=
  [.route rejecting ordersDDL, .route (answering (.result (some ordersTable))) ordersInsert,
    .route rejecting ordersInsert]

lemma storeAlwaysSucceeds_recovery : StoreAlwaysSucceeds recovery := by
  intro env ev hmem
  simp only [recovery, mem_cons, Input.route.injEq, not_mem_nil, or_false] at hmem
  rcases hmem with ⟨rfl, rfl⟩ | ⟨rfl, rfl⟩ | ⟨rfl, rfl⟩
  all_goals exact storeSucceeds_answering _

def acceptedRetry : List Effect :=
  [.attempt (lit "shop") (lit "orders") (ddlText ordersDDL),
    .sinkWrite (retryEvent (lit "shop") (lit "orders") (ddlText ordersDDL)),
    .ddlCompleted (lit "shop") (lit "orders")]

/-- The accepted retry stands between the failure and the write of the second insert. -/
lemma run_recovery : ((consumer fullConfig).run ordersStreaming recovery).2 =
    [.attempt (lit "shop") (lit "orders") (ddlText ordersDDL)] ++
      .ddlFailed (lit "shop") (lit "orders") :: (acceptedRetry ++ .sinkWrite ordersInsert :: []) :=
  rfl

theorem ddlCompleted_mem_acceptedRetry :
    .ddlCompleted (lit "shop") (lit "orders") ∈ acceptedRetry :=
  ddlCompleted_mem_between fullConfig (lit "shop") (lit "orders") ordersStreaming
    storeAlwaysSucceeds_recovery run_recovery (by decide)

end Sample

end DataStream.Lifecycle
