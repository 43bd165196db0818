import DataStream.Foundations.Machine
import DataStream.Schema.LocalHistory

/-!
# The DDL record manager

`internal/schema/ddl_record.go`: records of DDL statements by identifier, whose completion changes
the table definitions and appends an entry to the schema history. No call looks at the status that
a record has.

* `lifeCycle_of_respects`: the life cycle of records along a run that respects it;
* `recoverable_iff`: when the local history rebuilds the definitions after every call.
-/

namespace DataStream.Schema

open Event Store List Option Function SchemaHistoryRecord

inductive DDLStatus where
  | pending
  | applying
  | completed
  | failed
  | skipped
  deriving DecidableEq

/-- `event.DDLRecord`, with the fields that the manager reads or writes. -/
structure DDLRecord where
  id : Bytes
  position : Option Position
  database : Bytes
  table : Bytes
  ddl : Bytes
  newTableInfo : Option TableInfo
  status : DDLStatus
  appliedAt : Option Time
  completedAt : Option Time
  error : Bytes
  createdAt : Time

/-- The records and the definitions of a `DDLRecordManager`. -/
structure Manager where
  records : Bytes → Option DDLRecord
  tables : Tables

/-- A call, with the time at which it runs; `written` says whether the history takes the entry. -/
inductive Call where
  | create (record : DDLRecord) (now : Time)
  | markApplying (id : Bytes) (now : Time)
  | markCompleted (id : Bytes) (now : Time) (written : Bool)
  | markFailed (id : Bytes) (errStr : Bytes)
  | markSkipped (id : Bytes)

/-- How a call returns. -/
inductive Answer where
  | ok
  | notFound (id : Bytes)
  | historyError
  | panic

namespace DDLRecord

variable (r : DDLRecord)

/-- The key under which a completion changes the definitions. -/
def key : Bytes :=
  r.newTableInfo.elim (tableKey r.database r.table) fun info => tableKey info.database info.table

variable (tables : Tables) (now : Time)

/-- What a completion makes of the definitions. -/
def applyTo : Tables :=
  match r.newTableInfo with
  | some info => tables.put info
  | none => tables.remove r.database r.table

/-- The record as a completion leaves it. -/
def complete : DDLRecord := { r with status := .completed, completedAt := some now }

def changeTypeFromDDL : Bytes :=
  if r.newTableInfo = none then lit "DROP"
  else if (tables.get r.database r.table).isSome then lit "ALTER" else lit "CREATE"

/-- The history entry of a completion; without a position there is none. -/
def entry : Option SchemaHistoryRecord :=
  r.position.map fun position =>
    { position := position
      dbName := r.database
      tableName := r.table
      ddl := r.ddl
      tableInfo := r.newTableInfo
      changeType := r.changeTypeFromDDL tables
      schema := r.newTableInfo.elim [] TableInfo.schema
      ddlStatus := lit "completed"
      timestamp := now }

lemma applyTo_eq : r.applyTo tables = Function.update tables r.key r.newTableInfo := by
  unfold applyTo key
  cases r.newTableInfo with
  | some info => rfl
  | none => rfl

lemma applyTo_eq_self_iff : r.applyTo tables = tables ↔ tables r.key = r.newTableInfo := by
  rw [applyTo_eq, update_eq_self_iff]
  exact eq_comm

end DDLRecord

namespace Manager

/-- `NewDDLRecordManager` on empty definitions. -/
def new : Manager where
  records _ := none
  tables := .empty

variable (m : Manager) (id : Bytes) (now : Time)

/-- A change of the record with an identifier, if there is one. -/
def update (f : DDLRecord → DDLRecord) : Manager × Answer :=
  match m.records id with
  | none => (m, .notFound id)
  | some r => ({ m with records := Function.update m.records id (some (f r)) }, .ok)

def create (record : DDLRecord) (now : Time) : Manager × Answer :=
  ({ m with
      records := Function.update m.records record.id
        (some { record with status := .pending, createdAt := now }) }, .ok)

def markApplying : Manager × Answer :=
  m.update id fun r => { r with status := .applying, appliedAt := some now }

def markFailed (id errStr : Bytes) : Manager × Answer :=
  m.update id fun r => { r with status := .failed, error := errStr }

def markSkipped : Manager × Answer := m.update id fun r => { r with status := .skipped }

/-- `MarkCompleted`: the definitions change before the position is read and the entry written. -/
def markCompleted (written : Bool) : Manager × List SchemaHistoryRecord × Answer :=
  match m.records id with
  | none => (m, [], .notFound id)
  | some r =>
    let m' : Manager :=
      { records := Function.update m.records id (some (r.complete now))
        tables := r.applyTo m.tables }
    match r.entry m.tables now with
    | none => (m', [], .panic)
    | some entry =>
      if entry.marshal.isSome && written then (m', [entry], .ok) else (m', [], .historyError)

end Manager

/-- The manager as a machine that emits the entries which the history takes. -/
def manager : Machine Manager Call SchemaHistoryRecord where
  step m
    | .create record now => ((m.create record now).1, [])
    | .markApplying id now => ((m.markApplying id now).1, [])
    | .markCompleted id now written =>
      ((m.markCompleted id now written).1, (m.markCompleted id now written).2.1)
    | .markFailed id errStr => ((m.markFailed id errStr).1, [])
    | .markSkipped id => ((m.markSkipped id).1, [])

section Steps

variable {m : Manager} {id : Bytes} {now : Time} {written : Bool} {r : DDLRecord}

lemma step_markCompleted_of_eq_none (hr : m.records id = none) :
    manager.step m (.markCompleted id now written) = (m, []) := by
  simp only [manager, Manager.markCompleted, hr]

lemma step_markCompleted_of_eq_some (hr : m.records id = some r) :
    manager.step m (.markCompleted id now written) =
      ({ records := Function.update m.records id (some (r.complete now))
         tables := r.applyTo m.tables },
        ((r.entry m.tables now).filter fun e => e.marshal.isSome && written).toList) := by
  simp only [manager, Manager.markCompleted, hr]
  cases r.entry m.tables now with
  | none => rfl
  | some e =>
    dsimp only [Option.filter]
    split_ifs
    · rfl
    · rfl

lemma Manager.update_tables (f : DDLRecord → DDLRecord) : (m.update id f).1.tables = m.tables := by
  unfold Manager.update
  split
  · rfl
  · rfl

end Steps

variable {m : Manager} {call : Call} {es : List SchemaHistoryRecord}

/-! ## The life cycle -/

/-- The moves of a record's status. -/
inductive Moves : DDLStatus → DDLStatus → Prop
  | apply : Moves .pending .applying
  | skip : Moves .pending .skipped
  | complete : Moves .applying .completed
  | fail : Moves .applying .failed

/-- A call completes a record that was being applied, with exactly one history entry, which is the
record's. -/
def Completes (m : Manager) (call : Call) : Prop :=
  ∃ id r r' now e, m.records id = some r ∧ r.status = .applying ∧
    (manager.step m call).1.records id = some r' ∧ r'.status = .completed ∧
    (manager.step m call).1.tables = r.applyTo m.tables ∧
    r.entry m.tables now = some e ∧ (manager.step m call).2 = [e]

/-- A call keeps the life cycle of the records, and changes the definitions only when it completes
one of them. -/
structure LifeCycle (m : Manager) (call : Call) : Prop where
  records : ∀ id r, m.records id = some r → ∃ r', (manager.step m call).1.records id = some r' ∧
    (r' = r ∨ r.status ≠ .completed ∧ (r'.status = r.status ∨ Moves r.status r'.status))
  tables : ((manager.step m call).1.tables = m.tables ∧ (manager.step m call).2 = []) ∨
    Completes m call

/-- A call that the life cycle allows, and whose history entry, if any, is written. -/
def Respects (m : Manager) : Call → Prop
  | .create record _ => m.records record.id = none
  | .markApplying id _ => ∀ r ∈ m.records id, r.status = .pending
  | .markSkipped id => ∀ r ∈ m.records id, r.status = .pending
  | .markFailed id _ => ∀ r ∈ m.records id, r.status = .applying
  | .markCompleted id now written => ∀ r ∈ m.records id, r.status = .applying ∧
    (∃ e ∈ r.entry m.tables now, e.marshal.isSome) ∧ written = true

variable {id : Bytes} {tables : Tables}

private lemma kept_update {records : Bytes → Option DDLRecord} {new : DDLRecord}
    (h : ∀ r ∈ records id, Moves r.status new.status) (id' : Bytes) (r : DDLRecord)
    (hr : records id' = some r) :
    ∃ r', Function.update records id (some new) id' = some r' ∧
      (r' = r ∨ r.status ≠ .completed ∧ (r'.status = r.status ∨ Moves r.status r'.status)) := by
  by_cases hid : id' = id
  · subst hid
    refine ⟨new, update_self .., .inr ⟨fun hcompleted => ?_, .inr (h r hr)⟩⟩
    -- No move starts from a completed record.
    have hmoves := h r hr
    rw [hcompleted] at hmoves
    cases hmoves
  · exact ⟨r, by rw [update_of_ne hid, hr], .inl rfl⟩

private lemma lifeCycle_of_unchanged (h : manager.step m call = (m, [])) : LifeCycle m call where
  records id r hr := ⟨r, by rw [h]; exact hr, .inl rfl⟩
  tables := .inl (by rw [h]; exact ⟨rfl, rfl⟩)

private lemma lifeCycle_update {f : DDLRecord → DDLRecord}
    (hcall : manager.step m call = ((m.update id f).1, []))
    (h : ∀ r ∈ m.records id, Moves r.status (f r).status) : LifeCycle m call := by
  cases hr : m.records id with
  | none => exact lifeCycle_of_unchanged (by rw [hcall, Manager.update, hr])
  | some r =>
    have hstep : manager.step m call =
        ({ m with records := Function.update m.records id (some (f r)) }, []) := by
      rw [hcall, Manager.update, hr]
    refine ⟨?_, .inl ?_⟩
    · rw [hstep]
      refine kept_update fun r' hr' => ?_
      obtain rfl : r = r' := some.inj (hr.symm.trans hr')
      exact h r hr
    · rw [hstep]
      exact ⟨rfl, rfl⟩

lemma lifeCycle_step (h : Respects m call) : LifeCycle m call := by
  cases call with
  | create record now =>
    refine ⟨kept_update fun r hr => ?_, .inl ⟨rfl, rfl⟩⟩
    exact absurd (h.symm.trans hr) (some_ne_none r).symm
  | markApplying id now =>
    refine lifeCycle_update rfl fun r hr => ?_
    rw [h r hr]
    exact .apply
  | markSkipped id =>
    refine lifeCycle_update rfl fun r hr => ?_
    rw [h r hr]
    exact .skip
  | markFailed id errStr =>
    refine lifeCycle_update rfl fun r hr => ?_
    rw [h r hr]
    exact .fail
  | markCompleted id now written =>
    cases hr : m.records id with
    | none => exact lifeCycle_of_unchanged (step_markCompleted_of_eq_none hr)
    | some r =>
      obtain ⟨happlying, ⟨e, he, hmarshal⟩, rfl⟩ := h r hr
      have hstep : manager.step m (.markCompleted id now true) =
          ({ records := Function.update m.records id (some (r.complete now))
             tables := r.applyTo m.tables }, [e]) := by
        simp [step_markCompleted_of_eq_some hr, mem_def.mp he, Option.filter, hmarshal]
      refine ⟨?_, .inr ⟨id, r, r.complete now, now, e, hr, happlying, ?_, rfl, ?_, he, ?_⟩⟩
      · rw [hstep]
        refine kept_update fun r' hr' => ?_
        obtain rfl : r = r' := some.inj (hr.symm.trans hr')
        rw [happlying]
        exact .complete
      · rw [hstep]
        exact update_self ..
      · rw [hstep]
      · rw [hstep]

lemma completed_run {calls : List Call} (h : manager.Meets LifeCycle m calls) {r : DDLRecord}
    (hr : m.records id = some r) (hstatus : r.status = .completed) :
    (manager.run m calls).1.records id = some r := by
  induction calls generalizing m with
  | nil => exact hr
  | cons call calls ih =>
    obtain ⟨r', hr', rfl | ⟨hne, -⟩⟩ := h.1.records id r hr
    · exact ih h.2 hr'
    · exact absurd hstatus hne

/-- Along every run whose calls all respect the life cycle, every call keeps it, and a record that
is completed at some point is the same at the end. -/
theorem lifeCycle_of_respects {calls : List Call}
    (h : manager.Meets Respects m calls) :
    manager.Meets LifeCycle m calls ∧
      ∀ before after, calls = before ++ after →
        ∀ id r, (manager.run m before).1.records id = some r → r.status = .completed →
          (manager.run m calls).1.records id = some r := by
  have hlife : manager.Meets LifeCycle m calls :=
    manager.meets_imp (fun _ _ hrespects => lifeCycle_step hrespects) h
  refine ⟨hlife, ?_⟩
  rintro before after rfl id r hr hstatus
  rw [manager.run_append]
  exact completed_run ((manager.meets_append).mp hlife).2 hr hstatus

/-- A record of `DROP TABLE shop.orders`, as `Create` gets it. -/
def dropOrders : DDLRecord where
  id := lit "r1"
  position := some { Position.zero with lsn := 7 }
  database := lit "shop"
  table := lit "orders"
  ddl := lit "DROP TABLE orders"
  newTableInfo := none
  status := .pending
  appliedAt := none
  completedAt := none
  error := []
  createdAt := .zero

set_option maxRecDepth 100000 in
private lemma exists_entry : ∃ e data, dropOrders.entry .empty .zero = some e ∧
    e.marshal = some data ∧ Fits data := by
  obtain ⟨data, hdata, hfit⟩ := exists_fits
    (by decide : (((dropOrders.entry .empty .zero).bind marshal).any
      fun data => data.length < 1000) = true)
  obtain ⟨e, he, hdata⟩ := bind_eq_some_iff.mp hdata
  exact ⟨e, data, he, hdata, hfit⟩

/-- The record is created, applied and completed. -/
theorem lifeCycle_of_respects_dropOrders :
    manager.Meets LifeCycle .new [.create dropOrders .zero, .markApplying dropOrders.id .zero,
      .markCompleted dropOrders.id .zero true] := by
  have hrespects : manager.Meets Respects .new [.create dropOrders .zero,
      .markApplying dropOrders.id .zero, .markCompleted dropOrders.id .zero true] := by
    refine ⟨rfl, ?_, ?_, trivial⟩
    · rintro r ⟨⟩
      rfl
    · rintro r ⟨⟩
      obtain ⟨e, data, he, hdata, -⟩ := exists_entry
      exact ⟨rfl, ⟨e, he, by rw [hdata]; rfl⟩, rfl⟩
  exact (lifeCycle_of_respects hrespects).1

/-- A record that was never applied can fail. -/
theorem not_forall_lifeCycle : ¬∀ calls, manager.Meets LifeCycle .new calls := by
  intro hall
  obtain ⟨-, hfail, -⟩ :=
    hall [.create dropOrders .zero, .markFailed dropOrders.id (lit "connection refused")]
  obtain ⟨r', hr', hkept⟩ := hfail.records dropOrders.id dropOrders rfl
  obtain rfl := some.inj hr'
  rcases hkept with heq | ⟨-, hstatus | hmoves⟩
  · cases congrArg DDLRecord.status heq
  · cases hstatus
  · cases hmoves

/-! ## Recovery from the local history -/

/-- `Recover` without an offset, from a file with these entries into empty definitions. -/
def Recoverable (es : List SchemaHistoryRecord) (tables : Tables) : Prop :=
  ∃ file, es.foldlM record [] = some file ∧ recover file .empty none = (tables, true)

/-- The entries can be encoded. -/
def Encodable (es : List SchemaHistoryRecord) : Prop := ∀ e ∈ es, e.marshal.isSome

lemma exists_written (h : Encodable es) : ∃ bytes, written es = some bytes := by
  induction es with
  | nil => exact ⟨[], rfl⟩
  | cons e es ih =>
    obtain ⟨he, hes⟩ := forall_mem_cons.mp h
    obtain ⟨data, hdata⟩ := isSome_iff_exists.mp he
    obtain ⟨bytes, hbytes⟩ := ih hes
    exact ⟨frame data ++ bytes, by rw [written, hdata, bind_some, hbytes, map_some]⟩

lemma recoverable_iff_replay (h : Encodable es)
    (tables : Tables) : Recoverable es tables ↔ AllFit es ∧ replay .empty es = tables := by
  obtain ⟨bytes, hbytes⟩ := exists_written h
  have hfile : es.foldlM record [] = some bytes := by
    rw [foldlM_record, hbytes, map_some, nil_append]
  have hrecover : Recoverable es tables ↔ recover bytes .empty none = (tables, true) := by
    simp only [Recoverable, hfile, some.injEq, exists_eq_left']
  rw [hrecover]
  by_cases hfit : AllFit es
  · have hall := (recoversAll_iff_allFit hbytes).mpr hfit .empty
    rw [hall, Prod.mk.injEq, and_iff_left rfl, and_iff_right hfit]
  · have herror := recover_of_not_allFit hbytes hfit [] .empty
    rw [append_nil] at herror
    refine iff_of_false (fun heq => ?_) fun hand => hfit hand.1
    rw [heq] at herror
    cases herror

/-- A completion is recorded as it changes the definitions: where the entry cannot be written it
changes nothing, and else the text fits and a drop names the same table after the repair of
invalid UTF-8. -/
def Recorded (m : Manager) : Call → Prop
  | .markCompleted id now _ => ∀ r ∈ m.records id,
    match (r.entry m.tables now).bind marshal with
    | none => m.tables r.key = r.newTableInfo
    | some data => Fits data ∧ (r.newTableInfo = none →
      m.tables.remove (Utf8.toValid r.database) (Utf8.toValid r.table) =
        m.tables.remove r.database r.table)
  | _ => True

/-- The definitions of all records survive encoding and decoding. -/
def Manager.Faithful (m : Manager) : Prop :=
  ∀ id, ∀ r ∈ m.records id, ∀ info ∈ r.newTableInfo, info.repaired = info

variable {e : SchemaHistoryRecord}

lemma replay_entry {r : DDLRecord} {now : Time} {data : Bytes} (he : r.entry tables now = some e)
    (hdata : e.marshal = some data) (hinfo : ∀ info ∈ r.newTableInfo, info.repaired = info) :
    replay tables [e] = r.newTableInfo.elim
      (tables.remove (Utf8.toValid r.database) (Utf8.toValid r.table)) tables.put := by
  obtain ⟨position, timestamp, hread⟩ := exists_unmarshal_marshal hdata
  obtain ⟨p, -, rfl⟩ := map_eq_some_iff.mp he
  rw [replay_cons hdata hread, replay_nil]
  cases hnew : r.newTableInfo with
  | some info =>
    refine replayRow_of_tableInfo_eq_some ?_ tables
    simp only [repaired, map_some, hinfo info hnew]
  | none =>
    have hdrop : Utf8.toValid (lit "DROP") = lit "DROP" := by decide
    simp only [replayRow, repaired, hnew, map_none,
      DDLRecord.changeTypeFromDDL, if_true, hdrop, elim_none]

private lemma recoverable_applyTo_iff (hes : Encodable es) (h : Recoverable es tables)
    (r : DDLRecord) : Recoverable es (r.applyTo tables) ↔ tables r.key = r.newTableInfo := by
  obtain ⟨hfit, hreplay⟩ := (recoverable_iff_replay hes tables).mp h
  rw [recoverable_iff_replay hes, and_iff_right hfit, hreplay, ← r.applyTo_eq_self_iff]
  exact eq_comm

private lemma recoverable_append_iff {tables' : Tables} (hes : Encodable es)
    (h : Recoverable es tables) {data : Bytes} (hdata : e.marshal = some data) :
    Recoverable (es ++ [e]) tables' ↔ Fits data ∧ replay tables [e] = tables' := by
  obtain ⟨hfit, hreplay⟩ := (recoverable_iff_replay hes tables).mp h
  have hone : AllFit [e] ↔ Fits data := by
    simp [AllFit, hdata]
  have hencodable : Encodable (es ++ [e]) :=
    forall_mem_append.mpr ⟨hes, forall_mem_singleton.mpr (by rw [hdata]; rfl)⟩
  rw [recoverable_iff_replay hencodable, allFit_append, and_iff_right hfit, hone, replay_append,
    hreplay]

/-- The history writes of a call succeed. -/
def Call.Writes : Call → Prop
  | .markCompleted _ _ written => written = true
  | _ => True

lemma recoverable_step_iff (hes : Encodable es)
    (h : Recoverable es m.tables) (hm : m.Faithful) (hcall : call.Writes) :
    Recoverable (es ++ (manager.step m call).2) (manager.step m call).1.tables ↔
      Recorded m call := by
  have hsame : ∀ {call : Call}, (manager.step m call).2 = [] →
      (manager.step m call).1.tables = m.tables →
      Recoverable (es ++ (manager.step m call).2) (manager.step m call).1.tables := by
    intro call hentries htables
    rwa [hentries, htables, append_nil]
  cases call with
  | create record now => exact iff_of_true (hsame rfl rfl) trivial
  | markApplying | markFailed | markSkipped =>
    exact iff_of_true (hsame rfl (m.update_tables _)) trivial
  | markCompleted id now written =>
    obtain rfl : written = true := hcall
    cases hr : m.records id with
    | none =>
      refine iff_of_true (hsame ?_ ?_) fun r hr' => ?_
      iterate 2 rw [step_markCompleted_of_eq_none hr]
      exact absurd (hr.symm.trans hr') (some_ne_none r).symm
    | some r =>
      simp only [Recorded, hr, mem_some_iff, forall_eq', step_markCompleted_of_eq_some hr]
      cases he : r.entry m.tables now with
      | none => simpa using recoverable_applyTo_iff hes h r
      | some e =>
        cases hdata : e.marshal with
        | none => simpa [hdata, Option.filter] using recoverable_applyTo_iff hes h r
        | some data =>
          simp only [Option.filter, isSome_some, Bool.and_self, if_true, bind_some,
            hdata, toList_some]
          rw [recoverable_append_iff hes h hdata, replay_entry he hdata (hm id r hr)]
          refine and_congr_right fun _ => ?_
          unfold DDLRecord.applyTo
          cases hnew : r.newTableInfo with
          | some info => simp
          | none => simp

lemma encodable_step (m : Manager) (call : Call) : Encodable (manager.step m call).2 := by
  cases call with
  | markCompleted id now written =>
    cases hr : m.records id with
    | none =>
      rw [step_markCompleted_of_eq_none hr]
      exact forall_mem_nil _
    | some r =>
      rw [step_markCompleted_of_eq_some hr]
      intro e he
      have hwritten := (filter_eq_some_iff.mp (mem_toList.mp he)).2
      exact (Bool.and_eq_true_iff.mp hwritten).1
  | _ => exact forall_mem_nil _

lemma encodable_run (m : Manager) (calls : List Call) : Encodable (manager.run m calls).2 :=
  manager.run_induction (motive := fun _ es => Encodable es) calls (forall_mem_nil _)
    fun m _ call hes => forall_mem_append.mpr ⟨hes, encodable_step m call⟩

/-- The definition that a call brings in survives encoding and decoding. -/
def Call.Faithful : Call → Prop
  | .create record _ => ∀ info ∈ record.newTableInfo, info.repaired = info
  | _ => True

private lemma faithful_update (h : m.Faithful) (id : Bytes) (new : DDLRecord)
    (hnew : ∀ info ∈ new.newTableInfo, info.repaired = info) :
    Manager.Faithful { records := Function.update m.records id (some new), tables } := by
  intro id' r hr
  by_cases hid : id' = id
  · subst hid
    have hself : Function.update m.records id' (some new) id' = some new := update_self ..
    obtain rfl : new = r := some.inj (hself.symm.trans hr)
    exact hnew
  · exact h id' r ((update_of_ne hid _ _).symm.trans hr)

lemma faithful_step (h : m.Faithful) (hcall : call.Faithful) :
    (manager.step m call).1.Faithful := by
  have hupdate : ∀ id (f : DDLRecord → DDLRecord), (∀ r, (f r).newTableInfo = r.newTableInfo) →
      (m.update id f).1.Faithful := by
    intro id f hf
    unfold Manager.update
    split
    · exact h
    · next r hr => exact faithful_update h id (f r) (by rw [hf]; exact h id r hr)
  cases call with
  | create record now =>
    exact faithful_update h record.id { record with status := .pending, createdAt := now } hcall
  | markApplying | markFailed | markSkipped => exact hupdate _ _ fun _ => rfl
  | markCompleted id now written =>
    cases hr : m.records id with
    | none => rwa [step_markCompleted_of_eq_none hr]
    | some r =>
      rw [step_markCompleted_of_eq_some hr]
      exact faithful_update h id (r.complete now) (h id r hr)

lemma faithful_run {calls : List Call} (h : ∀ call ∈ calls, call.Faithful)
    (hm : m.Faithful) : (manager.run m calls).1.Faithful := by
  induction calls generalizing m with
  | nil => exact hm
  | cons call calls ih =>
    obtain ⟨hcall, hcalls⟩ := forall_mem_cons.mp h
    exact ih hcalls (faithful_step hm hcall)

/-- The local history rebuilds the definitions after every call of a sequence whose history writes
succeed, if and only if every completion is recorded as it changes the definitions. -/
theorem recoverable_iff (calls : List Call) (hwrites : ∀ call ∈ calls, call.Writes)
    (hfaithful : ∀ call ∈ calls, call.Faithful) :
    (∀ before, before <+: calls →
      Recoverable (manager.run .new before).2 (manager.run .new before).1.tables) ↔
      manager.Meets Recorded .new calls := by
  induction calls using List.reverseRecOn with
  | nil =>
    refine iff_of_true (fun before hbefore => ?_) trivial
    rw [prefix_nil.mp hbefore]
    exact ⟨[], rfl, recover_nil _ _⟩
  | append_singleton calls call ih =>
    obtain ⟨hwrites, hwrite⟩ := forall_mem_append.mp hwrites
    obtain ⟨hfaithful, -⟩ := forall_mem_append.mp hfaithful
    have hm : (manager.run .new calls).1.Faithful :=
      faithful_run hfaithful fun id r hr => absurd hr (some_ne_none r).symm
    simp only [prefix_concat_iff, or_imp, forall_and, forall_eq, manager.meets_append,
      ← ih hwrites hfaithful]
    rw [and_comm]
    refine and_congr_right fun hbefore => ?_
    rw [manager.run_concat, recoverable_step_iff (encodable_run _ _)
      (hbefore calls prefix_rfl) hm (forall_mem_singleton.mp hwrite)]
    exact (and_iff_left trivial).symm

/-- A record of `CREATE TABLE shop.orders`. -/
def createOrders : DDLRecord :=
  { dropOrders with
    ddl := lit "CREATE TABLE orders (id INT)"
    newTableInfo := some
      { TableInfo.zero with
        database := lit "shop"
        table := lit "orders"
        columns := [{ ColumnInfo.zero with name := lit "id", type := lit "int" }] } }

/-- The table is created, and the completion is recorded. -/
def createCalls : List Call :=
  [.create createOrders .zero, .markCompleted createOrders.id .zero true]

set_option maxRecDepth 100000 in
/-- The definition of the created table is recovered. -/
theorem recoverable_iff_createOrders :
    ((manager.run .new createCalls).1.tables.get (lit "shop") (lit "orders")).isSome = true ∧
      Recoverable (manager.run .new createCalls).2 (manager.run .new createCalls).1.tables := by
  refine ⟨rfl, (recoverable_iff createCalls (by simp [createCalls, Call.Writes]) ?_).mpr
    ⟨trivial, ?_, trivial⟩ _ prefix_rfl⟩
  · simp [createCalls, Call.Faithful, createOrders]
    decide
  · rintro r ⟨⟩
    obtain ⟨data, hdata, hfit⟩ := exists_fits
      (by decide : (((createOrders.entry .empty .zero).bind marshal).any
        fun data => data.length < 1000) = true)
    split
    · next hnone => cases hdata.symm.trans hnone
    · next data' hdata' =>
      obtain rfl := some.inj (hdata.symm.trans hdata')
      exact ⟨hfit, fun hdrop => absurd hdrop (some_ne_none _)⟩

/-- A completion without a position changes the definitions and leaves no entry. -/
theorem not_forall_recoverable :
    ¬∀ calls : List Call, (∀ call ∈ calls, call.Writes) → (∀ call ∈ calls, call.Faithful) →
      Recoverable (manager.run .new calls).2 (manager.run .new calls).1.tables := by
  intro hall
  obtain ⟨file, hfile, hrecover⟩ := hall
    [.create { createOrders with position := none } .zero,
      .markCompleted createOrders.id .zero true]
    (by simp [Call.Writes]) (by simp [Call.Faithful, createOrders]; decide)
  -- Nothing was written, so nothing is recovered.
  obtain rfl : [] = file := some.inj hfile
  rw [recover_nil] at hrecover
  have hkey := congrFun (congrArg Prod.fst hrecover) (tableKey (lit "shop") (lit "orders"))
  cases hkey

end DataStream.Schema
