import DataStream.Lifecycle.FailedDDL

/-!
# The order of DDL statements

DDL statements of a table depend on each other, so a statement should be sent to the sink only
when all earlier statements of its table have been applied. `Route` checks the recorded row of a
table before it writes a DML event. It does not check it before it handles a DDL event: the row of
a statement that failed is overwritten by the next statement of the table, which is sent to the
sink although the first one was never applied, and the first one is not retried any more.

* `ddl_inOrder`: when the statements of every table take effect in order with none skipped.
-/

namespace DataStream.Lifecycle

open Event Source Schema List Option

abbrev Step := Input × List Effect

/-- The statement that a step offers for a table; empty if the DDL event has none. -/
def offered (db tbl : Bytes) (step : Step) : Option Bytes :=
  match step.1 with
  | .route _ ev => if ev.isDDL = true ∧ IsOf db tbl ev then some (ddlText ev) else none
  | .external _ _ => none

variable {db tbl : Bytes} {steps : List Step} {s : Consumer} {cfg : Config}

lemma offered_route_eq_some_iff {a : Bytes} {env : Env} {ev : ChangeEvent} {es : List Effect} :
    offered db tbl (.route env ev, es) = some a ↔
      ev.isDDL = true ∧ IsOf db tbl ev ∧ ddlText ev = a := by
  rw [offered, ite_none_right_eq_some, some.injEq, and_assoc]

/-- A statement of a table is sent to the sink, by its own event or by a retry. -/
def Sends (db tbl ddl : Bytes) (es : List Effect) : Prop :=
  ∃ ev, .sinkWrite ev ∈ es ∧ ev.isDDL = true ∧ IsOf db tbl ev ∧ ddlText ev = ddl

/-- A statement of a table is applied successfully. -/
def Applies (db tbl ddl : Bytes) (es : List Effect) : Prop :=
  .attempt db tbl ddl ∈ es ∧ .ddlCompleted db tbl ∈ es

/-- Statements of a table take effect in order with none skipped: if one is offered before another
one, the second is sent to the sink only in steps before which the first has been applied. -/
def InOrder (db tbl : Bytes) (steps : List Step) : Prop :=
  ∀ (before between after : List Step) (first last : Step),
    steps = before ++ first :: (between ++ last :: after) →
    ∀ a b, offered db tbl first = some a → (∃ st ∈ between ++ [last], offered db tbl st = some b) →
      Sends db tbl b last.2 → ∃ st ∈ first :: between, Applies db tbl a st.2

/-- A DDL event is offered only with a statement, and while no row is recorded for its table. -/
def Unhindered (s : Consumer) : Input → Prop
  | .route _ ev => ev.isDDL = true →
      ddlText ev ≠ [] ∧ s.ddlStates ev.table.database ev.table.table = none
  | .external _ _ => True

instance (s : Consumer) (i : Input) : Decidable (Unhindered s i) := by
  unfold Unhindered
  split <;> infer_instance

/-! ## One call -/

section Call

variable {cfg : Config} {db tbl : Bytes} {s : Consumer} {ev : ChangeEvent}

/-- The recorded row of a table is of a statement. -/
def Recorded (db tbl ddl : Bytes) (s : Consumer) : Prop :=
  ∃ row, s.ddlStates db tbl = some row ∧ row.ddl = ddl

/-- A statement is applied, or its row is recorded, or the process is gone. -/
def Settled (db tbl ddl : Bytes) (s : Consumer) (es : List Effect) : Prop :=
  Applies db tbl ddl es ∨ Recorded db tbl ddl s ∨ s.crashed = true

/-- A `handleDDL` call settles the statement of its event, unless it is skipped. -/
lemma settled_of_handled {r : Result} (hr : Handled cfg s ev r) (hof : IsOf db tbl ev)
    (hskipped : cfg.hasDDLHandling = false ∨ cfg.hasDDLStore = false ∨ ddlText ev = [] →
      Recorded db tbl (ddlText ev) s) : Settled db tbl (ddlText ev) r.state r.effects := by
  obtain ⟨rfl, rfl⟩ := hof
  cases hr with
  | skipped outcome h => exact .inr (.inl (hskipped h))
  | failed _ hfailed =>
    obtain ⟨row, hddl, -, -, hrows⟩ := hfailed.rows
    exact .inr (.inl ⟨row, by rw [hrows, Consumer.setDDLRow_self], hddl⟩)
  | panicked s' row _ _ _ hcrashed => exact .inr (.inr hcrashed)
  | completed s' _ _ _ _ => exact .inl ⟨by simp, by simp⟩

lemma handleDDL_of_unconfigured (hcfg : cfg.hasDDLHandling = false ∨ cfg.hasDDLStore = false)
    (env : Env) (s : Consumer) (ev : ChangeEvent) : handleDDL cfg env s ev = ⟨s, [], .ok⟩ := by
  rw [handleDDL, if_pos]
  rcases hcfg with h | h <;> simp [h]

lemma not_sends_of_unconfigured (hcfg : cfg.hasDDLHandling = false ∨ cfg.hasDDLStore = false)
    {env : Env} (hstore : StoreSucceeds env) (ddl : Bytes) :
    ¬ Sends db tbl ddl (route cfg env s ev).effects := by
  rintro ⟨written, hmem, hddl, -, -⟩
  have hrouted := routed_route hstore cfg s ev
  generalize route cfg env s ev = r at hrouted hmem
  cases hrouted with
  | ddl _ =>
    rw [handleDDL_of_unconfigured hcfg] at hmem
    exact not_mem_nil hmem
  | blocked _ _ _ _ => exact not_mem_nil hmem
  | retried row s' r outcome _ _ _ _ _ _ _ _ _ hr =>
    rw [hr, handleDDL_of_unconfigured hcfg] at hmem
    exact not_mem_nil hmem
  | passed effects _ hdml _ heffects =>
    -- What is written is the DML event itself.
    rcases heffects with rfl | rfl | ⟨key, rfl⟩
    · exact not_mem_nil hmem
    · obtain rfl : written = ev := by simpa using hmem
      rw [hddl] at hdml
      cases hdml
    · simp at hmem

/-- A recorded statement of a table is still recorded, applied or gone with the process after a call
that meets the condition. -/
lemma settled_route_of_recorded {env : Env} (hstore : StoreSucceeds env) {ddl : Bytes}
    (hrecorded : Recorded db tbl ddl s) (hunhindered : Unhindered s (.route env ev)) :
    Settled db tbl ddl (route cfg env s ev).state (route cfg env s ev).effects := by
  have hrouted := routed_route hstore cfg s ev
  generalize route cfg env s ev = r at hrouted ⊢
  obtain ⟨row, hrow, rfl⟩ := hrecorded
  cases hrouted with
  | ddl hddl =>
    -- The event is one of another table, for this one has a row.
    have hother : ¬ IsOf db tbl ev := by
      rintro ⟨rfl, rfl⟩
      rw [(hunhindered hddl).2] at hrow
      cases hrow
    refine .inr (.inl ⟨row, ?_, rfl⟩)
    rw [ddlStates_of_handled (handled_handleDDL hstore cfg s ev) hother, hrow]
  | blocked | passed => exact .inr (.inl ⟨row, hrow, rfl⟩)
  | retried row' s' r outcome _ hrow' _ _ _ hrows _ _ _ hr =>
    subst hr
    have hhandled := handled_handleDDL hstore cfg s'
      (retryEvent ev.table.database ev.table.table row'.ddl)
    have hrow_s' : s'.ddlStates db tbl = some row := by rw [hrows, hrow]
    by_cases hof : IsOf db tbl ev
    · -- The retry is one of the recorded statement.
      obtain ⟨rfl, rfl⟩ := hof
      obtain rfl : row' = row := some.inj (hrow'.symm.trans hrow)
      have hof : IsOf ev.table.database ev.table.table
          (retryEvent ev.table.database ev.table.table row'.ddl) := ⟨rfl, rfl⟩
      have hsettled := settled_of_handled hhandled hof fun _ =>
        ⟨row', hrow_s', (ddlText_retryEvent _ _ _).symm⟩
      rwa [ddlText_retryEvent] at hsettled
    · refine .inr (.inl ⟨row, ?_, rfl⟩)
      exact (ddlStates_of_handled hhandled hof).trans hrow_s'

end Call

/-! ## Runs -/

/-- Of the statements offered so far for a table each has been applied since, or is the last one and
recorded. -/
def Waits (db tbl : Bytes) (s : Consumer) (steps : List Step) : Prop :=
  s.crashed = true ∨
    ∀ (before between : List Step) (first : Step), steps = before ++ first :: between →
      ∀ a, offered db tbl first = some a →
        (∃ st ∈ first :: between, Applies db tbl a st.2) ∨
          (Recorded db tbl a s ∧ ∀ st ∈ between, offered db tbl st = none)

lemma eq_append_cons_concat {α : Type} {xs before between : List α} {x first : α}
    (h : xs ++ [x] = before ++ first :: between) :
    (before = xs ∧ first = x ∧ between = []) ∨
      ∃ between', between = between' ++ [x] ∧ xs = before ++ first :: between' := by
  rcases eq_nil_or_concat between with rfl | ⟨between', last, rfl⟩
  · obtain ⟨hxs, hlast⟩ := append_inj' h rfl
    exact .inl ⟨hxs.symm, (List.cons.inj hlast).1.symm, rfl⟩
  · rw [concat_eq_append, ← cons_append, ← append_assoc] at h
    obtain ⟨hxs, hlast⟩ := append_inj' h rfl
    obtain rfl := (List.cons.inj hlast).1
    exact .inr ⟨between', concat_eq_append, hxs⟩

/-- A new step keeps the order if nothing that was offered before still waits when it sends. -/
lemma InOrder.concat {step : Step} (h : InOrder db tbl steps)
    (hstep : ∀ before between first, steps = before ++ first :: between →
      ∀ a b, offered db tbl first = some a →
        (∃ st ∈ between ++ [step], offered db tbl st = some b) → Sends db tbl b step.2 →
        ∃ st ∈ first :: between, Applies db tbl a st.2) :
    InOrder db tbl (steps ++ [step]) := by
  intro before between after first last hsplit a b ha hb hsends
  have hsplit' : steps ++ [step] = (before ++ first :: between) ++ last :: after := by
    rw [hsplit, append_assoc, cons_append]
  rcases eq_append_cons_concat hsplit' with ⟨hsteps, rfl, rfl⟩ | ⟨after', rfl, hsteps⟩
  · exact hstep before between first hsteps.symm a b ha hb hsends
  · rw [append_assoc, cons_append] at hsteps
    exact h before between after' first last hsteps a b ha hb hsends

/-- While a statement of a table is recorded, the condition lets no statement be offered for it. -/
lemma offered_eq_none_of_recorded {ddl : Bytes} {i : Input} (hrecorded : Recorded db tbl ddl s)
    (hunhindered : Unhindered s i) (es : List Effect) : offered db tbl (i, es) = none := by
  obtain ⟨row, hrow, -⟩ := hrecorded
  rcases i with ⟨env, ev⟩ | ⟨lifecycle, tables⟩
  · refine if_neg ?_
    rintro ⟨hddl, rfl, rfl⟩
    rw [(hunhindered hddl).2] at hrow
    cases hrow
  · rfl

/-- Nothing that waits is overtaken by a step that meets the condition. -/
lemma Waits.inOrder {i : Input} {es : List Effect} (hwaits : Waits db tbl s steps)
    (hup : s.crashed = false) (hunhindered : Unhindered s i) (h : InOrder db tbl steps) :
    InOrder db tbl (steps ++ [(i, es)]) := by
  refine h.concat fun before between first hsplit a b ha hb _ => ?_
  rcases hwaits with hcrashed | hwaits
  · rw [hup] at hcrashed
    cases hcrashed
  · refine (hwaits before between first hsplit a ha).resolve_right ?_
    rintro ⟨hrecorded, hnone⟩
    -- A later statement was offered, but neither before this step nor by it.
    obtain ⟨st, hmem, hst⟩ := hb
    rcases mem_append.mp hmem with hbetween | hlast
    · rw [hnone st hbetween] at hst
      cases hst
    · rw [mem_singleton.mp hlast, offered_eq_none_of_recorded hrecorded hunhindered] at hst
      cases hst

/-- A call that meets the condition leaves every offered statement applied, or recorded as the last
one. -/
theorem Waits.route {env : Env} {ev : ChangeEvent}
    (hcfg : cfg.hasDDLHandling = true ∧ cfg.hasDDLStore = true) (hstore : StoreSucceeds env)
    (hwaits : Waits db tbl s steps) (hup : s.crashed = false)
    (hunhindered : Unhindered s (.route env ev)) :
    Waits db tbl (route cfg env s ev).state
      (steps ++ [(.route env ev, (route cfg env s ev).effects)]) := by
  rcases hwaits with hcrashed | hwaits
  · rw [hup] at hcrashed
    cases hcrashed
  -- A panic in this call ends the run, and then nothing is asked.
  by_cases hgone : (Lifecycle.route cfg env s ev).state.crashed = true
  · exact .inl hgone
  refine .inr fun before between first hsplit a ha => ?_
  rcases eq_append_cons_concat hsplit with ⟨-, rfl, rfl⟩ | ⟨between', rfl, hsteps⟩
  · -- The statement is the one that this call offers.
    obtain ⟨hddl, hof, rfl⟩ := offered_route_eq_some_iff.mp ha
    have hroute : Lifecycle.route cfg env s ev = handleDDL cfg env s ev := by
      rw [Lifecycle.route, if_pos hddl]
    have hsettled := settled_of_handled (handled_handleDDL hstore cfg s ev) hof fun h => by
      rw [hcfg.1, hcfg.2] at h
      simp [(hunhindered hddl).1] at h
    rw [hroute] at hgone ⊢
    rcases hsettled with happlied | hrecorded | hcrashed
    · exact .inl ⟨_, mem_singleton_self _, happlied⟩
    · exact .inr ⟨hrecorded, fun st hst => absurd hst not_mem_nil⟩
    · exact absurd hcrashed hgone
  · rcases hwaits before between' first hsteps a ha with ⟨st, hst, happlied⟩ | ⟨hrecorded, hnone⟩
    · refine .inl ⟨st, ?_, happlied⟩
      exact mem_append_left _ hst
    · have hsettled : Settled db tbl a (Lifecycle.route cfg env s ev).state _ :=
        settled_route_of_recorded hstore hrecorded hunhindered
      rcases hsettled with happlied | hstill | hcrashed
      · exact .inl ⟨_, mem_cons_of_mem _ (mem_append_right _ (mem_singleton_self _)), happlied⟩
      · refine .inr ⟨hstill, fun st hst => ?_⟩
        rcases mem_append.mp hst with hbetween | hlast
        · exact hnone st hbetween
        · rw [mem_singleton.mp hlast]
          exact offered_eq_none_of_recorded hrecorded hunhindered _
      · exact absurd hcrashed hgone

/-- A step that does nothing for a table, and leaves its row alone, keeps what waits. -/
lemma Waits.idle {s' : Consumer} {step : Step} (hwaits : Waits db tbl s steps)
    (hoffered : offered db tbl step = none) (hrows : s'.ddlStates = s.ddlStates)
    (hcrashed : s'.crashed = s.crashed) : Waits db tbl s' (steps ++ [step]) := by
  rcases hwaits with hgone | hwaits
  · exact .inl (hcrashed.trans hgone)
  refine .inr fun before between first hsplit a ha => ?_
  rcases eq_append_cons_concat hsplit with ⟨-, rfl, rfl⟩ | ⟨between', rfl, hsteps⟩
  · rw [hoffered] at ha
    cases ha
  · rcases hwaits before between' first hsteps a ha with ⟨st, hst, happlied⟩ | ⟨hrecorded, hnone⟩
    · refine .inl ⟨st, ?_, happlied⟩
      exact mem_append_left _ hst
    · refine .inr ⟨?_, fun st hst => ?_⟩
      · rw [Recorded, hrows]
        exact hrecorded
      · rcases mem_append.mp hst with hbetween | hlast
        · exact hnone st hbetween
        · rw [mem_singleton.mp hlast, hoffered]

lemma InOrder.concat_nil (h : InOrder db tbl steps) (i : Input) :
    InOrder db tbl (steps ++ [(i, [])]) := by
  refine h.concat fun _ _ _ _ _ _ _ _ hsends => ?_
  obtain ⟨ev, hmem, -⟩ := hsends
  exact absurd hmem not_mem_nil

/-- **DDL statements in order.** In every run of `Route` calls with a reliable store in which a DDL
event is offered only with a statement and while no row is recorded for its table, the statements
of every table take effect in order with none skipped. -/
theorem ddl_inOrder (cfg : Config) (s : Consumer) (is : List Input)
    (hstore : StoreAlwaysSucceeds is) (hunhindered : (consumer cfg).Meets Unhindered s is)
    (db tbl : Bytes) : InOrder db tbl ((consumer cfg).recorded.run s is).2 := by
  have hmeets : (consumer cfg).recorded.Meets (fun s i => Unhindered s i ∧ i ∈ is) s is :=
    (consumer cfg).recorded.meets_imp_of_mem (fun i hi s hok => ⟨hok, hi⟩)
      ((consumer cfg).meets_recorded.mpr hunhindered)
  -- The invariant of the run: the order is kept, and with DDL handling what is not applied waits.
  have hinv := (consumer cfg).recorded.run_induction_of_meets
    (motive := fun s steps => InOrder db tbl steps ∧
      (cfg.hasDDLHandling = true ∧ cfg.hasDDLStore = true → Waits db tbl s steps)) hmeets
    ⟨fun before between after first last hsplit => by simp at hsplit,
      fun _ => .inr fun before between first hsplit => by simp at hsplit⟩ ?step
  · exact hinv.1
  case step =>
    rintro s steps (⟨env, ev⟩ | ⟨lifecycle, tables⟩) ⟨hunhindered, hmem⟩ ⟨horder, hwaits⟩
    · rw [Machine.recorded_step]
      cases hcrashed : s.crashed with
      | true =>
        rw [consumer_step_crashed cfg hcrashed]
        exact ⟨horder.concat_nil _, fun _ => .inl hcrashed⟩
      | false =>
        rw [consumer_step_route cfg hcrashed]
        by_cases hcfg : cfg.hasDDLHandling = true ∧ cfg.hasDDLStore = true
        · exact ⟨(hwaits hcfg).inOrder hcrashed hunhindered horder,
            fun _ => (hwaits hcfg).route hcfg (hstore env ev hmem) hcrashed hunhindered⟩
        · -- Without DDL handling nothing is sent.
          refine ⟨horder.concat fun _ _ _ _ _ b _ _ hsends => ?_, fun h => absurd h hcfg⟩
          rw [not_and_or, Bool.not_eq_true, Bool.not_eq_true] at hcfg
          exact absurd hsends (not_sends_of_unconfigured hcfg (hstore env ev hmem) b)
    · rw [Machine.recorded_step, consumer_step_external]
      exact ⟨horder.concat_nil _, fun hcfg => (hwaits hcfg).idle rfl rfl rfl⟩

/-- A second statement for the table, which needs the column that the first one adds. -/
def ordersIndexDDL : ChangeEvent :=
  { ChangeEvent.zero with
    type := .ddl
    table := ordersTable
    metadata := [(lit "ddl", lit "CREATE INDEX by_note ON orders (note)")] }

def acceptingParser : Env := answering (.result (some ordersTable))

/-- The first statement is rejected, a retry is accepted, and then the second one is offered. -/
theorem ddl_inOrder_recovery :
    InOrder (lit "shop") (lit "orders") ((consumer fullConfig).recorded.run ordersStreaming
      (recovery ++ [.route acceptingParser ordersIndexDDL])).2 := by
  refine ddl_inOrder fullConfig ordersStreaming _ ?_ (by decide) (lit "shop") (lit "orders")
  intro env ev hmem
  rcases mem_append.mp hmem with hmem | hmem
  · exact storeAlwaysSucceeds_recovery env ev hmem
  · obtain ⟨rfl, rfl⟩ : env = acceptingParser ∧ ev = ordersIndexDDL := by simpa using hmem
    exact storeSucceeds_answering _

/-- The first statement is rejected and the second one offered at once: it is sent all the same. -/
theorem not_forall_ddl_inOrder :
    ¬ ∀ (cfg : Config) (s : Consumer) (is : List Input), StoreAlwaysSucceeds is →
      ∀ db tbl, InOrder db tbl ((consumer cfg).recorded.run s is).2 := by
  intro h
  have horder := h fullConfig ordersStreaming
    [.route rejecting ordersDDL, .route acceptingParser ordersIndexDDL] (by
      intro env ev hmem
      simp only [mem_cons, Input.route.injEq, not_mem_nil, or_false] at hmem
      rcases hmem with ⟨rfl, rfl⟩ | ⟨rfl, rfl⟩
      all_goals exact storeSucceeds_answering _) (lit "shop") (lit "orders")
  -- The two steps of the run; the first one applies nothing.
  have happlied := horder [] [] []
    (.route rejecting ordersDDL, [.attempt (lit "shop") (lit "orders") (ddlText ordersDDL),
      .ddlFailed (lit "shop") (lit "orders")])
    (.route acceptingParser ordersIndexDDL,
      [.attempt (lit "shop") (lit "orders") (ddlText ordersIndexDDL), .sinkWrite ordersIndexDDL,
        .ddlCompleted (lit "shop") (lit "orders")]) rfl (ddlText ordersDDL)
    (ddlText ordersIndexDDL) rfl ⟨_, mem_singleton_self _, rfl⟩
    ⟨ordersIndexDDL, by simp, rfl, ⟨rfl, rfl⟩, rfl⟩
  obtain ⟨st, hmem, -, hcompleted⟩ := happlied
  rw [mem_singleton.mp hmem] at hcompleted
  simp at hcompleted

end DataStream.Lifecycle
