import DataStream.Lifecycle.BinlogConsumer
import DataStream.Sink.SqlReplica
import DataStream.Source.MariaDB.BinlogSyncer
import DataStream.Source.MySQL.BinlogSyncer
import DataStream.Source.Oracle.LogMiner
import DataStream.Source.Postgres.Relations
import DataStream.Source.SqlServer.DetectDDL

/-!
# The statement of a DDL event

A DDL event carries its statement in an untyped map. `Write` of the SQL sinks and the binlog
consumer look for the key `ddl`, `ApplyDDL` for the key `sql`. The Oracle source writes only `sql`,
the other sources write only `ddl`, and of these PostgreSQL and SQL Server write a comment, because
they do not know the statement.

* `not_reaches`: no event of the five sources is executed by all consumers.
-/

namespace DataStream.EndToEnd

open Event Sink List Option Source.Binlog Source.SqlServer

/-! ## Producers -/

/-- The sources that emit DDL events. -/
inductive DDLSource where
  | mysql
  | mariadb
  | postgres
  | oracle
  | sqlserver
  deriving DecidableEq

/-- A source emits a DDL event for a statement that was issued on it. -/
inductive EmitsDDL : DDLSource → Bytes → ChangeEvent → Prop where
  | mysql {shouldCapture parser hasStore zone s a database query change ev}
      (hsend : .send change ev ∈ ((Source.MySQL.newBinlogSyncer shouldCapture parser hasStore
        zone).handleQueryEvent s a database query).2) : EmitsDDL .mysql query ev
  | mariadb {shouldCapture parser hasStore zone s a database query change ev}
      (hsend : .send change ev ∈ ((Source.MariaDB.newBinlogSyncer shouldCapture parser hasStore
        zone).handleQueryEvent s a database query).2) : EmitsDDL .mariadb query ev
  /-- The statement behind a relation message can be any. -/
  | postgres {cfg env currentLSN h msg ev} (statement : Bytes)
      (hev : ev ∈ (Source.Postgres.Handler.handleRelation cfg env currentLSN h msg).made) :
      EmitsDDL .postgres statement ev
  | oracle {serviceName seqNo row ev} (hcode : row.opCode = 5)
      (hev : Source.Oracle.rowOutcome serviceName seqNo row = .event ev) :
      EmitsDDL .oracle (row.sqlRedo.getD []) ev
  /-- The statement behind a modification date can be any. -/
  | sqlserver {database env d ev} (statement : Bytes)
      (hev : ev ∈ (detectDDLChanges database env d).2) :
      EmitsDDL .sqlserver statement ev

/-- The keys that an event has for its statement. -/
structure Carried (ev : ChangeEvent) (ddl sql : Option Bytes) : Prop where
  type_eq : ev.type = .ddl
  ddl_eq : ev.metadata.get? (lit "ddl") = ddl
  sql_eq : ev.metadata.get? (lit "sql") = sql

lemma metadata_ddlEvent (cfg : Config) (s : Syncer)
    (a : Arrival) (database query : Bytes) :
    (cfg.ddlEvent s a database query).metadata.get? (lit "ddl") = some query ∧
      (cfg.ddlEvent s a database query).metadata.get? (lit "sql") = none := by
  have hother : ∀ (m : GoMap Bytes) (key other : Bytes) (v : Bytes), other ≠ key →
      (m.insert key v).get? other = m.get? other :=
    fun m _ _ v hne => m.get?_insert_of_ne hne v
  rcases hparsed : cfg.parseQuery query with _ | r
  · simp only [Config.ddlEvent, hparsed]
    refine ⟨GoMap.get?_insert_self _ _ _, ?_⟩
    rfl
  · simp only [Config.ddlEvent, hparsed, List.foldl]
    -- The keys are set one after the other, all of them different.
    constructor
    · rw [hother _ _ _ _ (by decide), hother _ _ _ _ (by decide),
        hother _ _ _ _ (by decide), hother _ _ _ _ (by decide)]
      exact GoMap.get?_insert_self _ _ _
    · rw [hother _ _ _ _ (by decide), hother _ _ _ _ (by decide),
        hother _ _ _ _ (by decide), hother _ _ _ _ (by decide),
        hother _ _ _ _ (by decide)]
      rfl

variable {ev : ChangeEvent}

lemma carried_binlog {cfg : Config} {s : Syncer}
    {a : Arrival} {database query : Bytes} {change : Source.Binlog.Change}
    (hsend : .send change ev ∈ (cfg.handleQueryEvent s a database query).2) :
    isDDL query = true ∧ Carried ev (some query) none := by
  rw [Config.handleQueryEvent] at hsend
  split_ifs at hsend with hddl
  · exact absurd hsend not_mem_nil
  · have hev : ev = cfg.ddlEvent s a database query := by
      rcases mem_append.mp hsend with hmem | hmem
      · simp [Config.deliver] at hmem
        exact hmem.2
      · simp [Config.saveCurrentPosition] at hmem
    rw [hev]
    exact ⟨by simpa using hddl, rfl, (metadata_ddlEvent cfg s a database query).1,
      (metadata_ddlEvent cfg s a database query).2⟩

lemma carried_postgres {cfg : Source.Postgres.Config} {env : Source.Postgres.Env}
    {currentLSN : UInt64} {h : Source.Postgres.Handler} {msg : Source.Postgres.RelationMessage}
    (hev : ev ∈ (h.handleRelation cfg env currentLSN msg).made) :
    ∃ old, Carried ev (some (Source.Postgres.changeText old msg)) none := by
  obtain ⟨htype, -, -, old, hmetadata⟩ := Source.Postgres.Handler.eq_of_mem_handleRelation hev
  refine ⟨old, htype, ?_, ?_⟩
  · rw [hmetadata]
    rfl
  · rw [hmetadata]
    rfl

lemma carried_oracle {serviceName : Bytes} {seqNo : ℕ} {row : Source.Oracle.RedoRow}
    (hcode : row.opCode = 5)
    (hev : Source.Oracle.rowOutcome serviceName seqNo row = .event ev) :
    Carried ev none (some (row.sqlRedo.getD [])) := by
  rw [Source.Oracle.rowOutcome] at hev
  simp only [hcode] at hev
  cases hev
  exact ⟨rfl, rfl, rfl⟩

lemma carried_sqlserver {database : Bytes} {env : DetectEnv}
    {d : DDLDetector}
    (hev : ev ∈ (detectDDLChanges database env d).2) :
    ∃ object, Carried ev (some (lit "-- " ++ captureInstance object ++
      lit " detected via sys.objects")) none := by
  obtain ⟨htype, object, hmetadata⟩ := metadata_of_mem_detectDDLChanges hev
  refine ⟨object, htype, ?_, ?_⟩
  · rw [hmetadata]
    rfl
  · rw [hmetadata]
    rfl

/-! ## Consumers -/

def Executes (request : Request) (statement : Bytes) : Prop :=
  ∃ failure, request = .exec { text := statement, args := [], failure }

def AppliesDDL (sink : SqlSink) : Prop :=
  sink.ddlPolicy ≠ lit "ignore" ∧ sink.ddlPolicy ≠ lit "error"

lemma executes_ite_iff (key : Option Bytes) (failure statement : Bytes) :
    Executes (if key.getD [] = [] then .nothing
      else .exec { text := key.getD [], args := [], failure }) statement ↔
      key = some statement ∧ statement ≠ [] := by
  rcases key with _ | text
  · simp [Executes]
  · rw [getD_some, some.injEq]
    split_ifs with htext
    · refine iff_of_false (fun ⟨_, heq⟩ => nomatch heq) ?_
      rintro ⟨rfl, hne⟩
      exact hne htext
    · constructor
      · rintro ⟨failure', heq⟩
        cases heq
        exact ⟨rfl, htext⟩
      · rintro ⟨rfl, -⟩
        exact ⟨failure, rfl⟩

lemma error_ne {start rest : Bytes}
    (h : 5 ≤ start.length ∧ start.take 5 ≠ (lit "DDL event missing 'ddl' metadata").take 5) :
    Outcome.error (start ++ rest) ≠ .error (lit "DDL event missing 'ddl' metadata") := by
  intro heq
  obtain ⟨hlength, hne⟩ := h
  have htake := congrArg (List.take 5) (Outcome.error.inj heq)
  rw [take_append_of_le_length hlength] at htake
  exact hne htake

lemma attemptDDL_outcome_ne (env : Lifecycle.Env) (s : Lifecycle.Consumer) (ev : ChangeEvent)
    (ddl : Bytes) (oldTable : Option TableInfo) :
    (Lifecycle.attemptDDL env s ev ddl oldTable).outcome ≠
      .error (lit "DDL event missing 'ddl' metadata") := by
  refine Lifecycle.attemptDDL_cases ?_ ?_ ?_
  · intro writes err _ _
    rw [Lifecycle.failDDL, Lifecycle.handleDDLFailure]
    split
    · exact error_ne (by decide)
    · simp only [append_assoc]
      exact error_ne (by decide)
  · simp
  · intro newTableInfo _ _
    unfold Lifecycle.finishDDL
    dsimp only
    split
    · exact error_ne (by decide)
    · split
      · exact error_ne (by decide)
      · simp

namespace Carried

variable {ev : ChangeEvent} {ddl sql : Option Bytes} (h : Carried ev ddl sql)

include h

theorem executes_request_iff {sink : SqlSink} (hpolicy : AppliesDDL sink)
    (order : List Bytes → List Bytes) (statement : Bytes) :
    Executes (sink.request order ev) statement ↔ ddl = some statement ∧ statement ≠ [] := by
  have hisDDL : ev.isDDL = true := by simp [ChangeEvent.isDDL, h.type_eq]
  rw [SqlSink.request, if_pos hisDDL, SqlSink.handleDDL, if_neg hpolicy.1, if_neg hpolicy.2,
    h.ddl_eq]
  exact executes_ite_iff ddl _ statement

theorem executes_applyDDL_iff (sink : SqlSink) (statement : Bytes) :
    Executes (sink.applyDDL ev) statement ↔ sql = some statement ∧ statement ≠ [] := by
  rw [SqlSink.applyDDL, h.sql_eq]
  exact executes_ite_iff sql _ statement

/-- The binlog consumer, where it handles DDL, rejects an event without a text under `ddl`. -/
theorem rejected_iff (cfg : Lifecycle.Config) (env : Lifecycle.Env) (s : Lifecycle.Consumer) :
    (Lifecycle.handleDDL cfg env s ev).outcome = .error (lit "DDL event missing 'ddl' metadata") ↔
      (cfg.hasDDLHandling = true ∧ cfg.hasDDLStore = true) ∧ ddl.getD [] = [] := by
  have htext : Lifecycle.ddlText ev = ddl.getD [] := by rw [Lifecycle.ddlText, h.ddl_eq]
  rw [Lifecycle.handleDDL]
  simp only [htext]
  split_ifs with hoff hempty
  · refine iff_of_false (by simp) ?_
    rintro ⟨⟨hhandling, hstore⟩, -⟩
    simp [hhandling, hstore] at hoff
  · refine iff_of_true rfl ⟨?_, hempty⟩
    simpa using hoff
  · refine iff_of_false ?_ fun hand => hempty hand.2
    split
    · exact error_ne (by decide)
    · exact attemptDDL_outcome_ne _ _ _ _ _

end Carried

/-! ## Agreement -/

/-- The binlog consumer does not reject an event for lack of a statement. -/
def NotRejected (ev : ChangeEvent) : Prop :=
  ∀ (cfg : Lifecycle.Config) (env : Lifecycle.Env) (s : Lifecycle.Consumer),
    (Lifecycle.handleDDL cfg env s ev).outcome ≠ .error (lit "DDL event missing 'ddl' metadata")

/-- A DDL event reaches the sinks: `Write` and `ApplyDDL` execute the statement, and the binlog
consumer does not reject the event. -/
structure Reaches (sink : SqlSink) (statement : Bytes) (ev : ChangeEvent) : Prop where
  write : ∀ order, Executes (sink.request order ev) statement
  apply : Executes (sink.applyDDL ev) statement
  consumer : NotRejected ev

lemma carried_of_emitsDDL {source : DDLSource} {statement : Bytes}
    (h : EmitsDDL source statement ev) :
    match source with
    | .mysql | .mariadb => statement ≠ [] ∧ Carried ev (some statement) none
    | .postgres | .sqlserver => ∃ text, lit "-- " <+: text ∧ Carried ev (some text) none
    | .oracle => Carried ev none (some statement) := by
  have hddl : ∀ {query}, isDDL query = true → query ≠ [] := by
    rintro query hquery rfl
    revert hquery
    decide
  rcases h with hsend | hsend | ⟨_, hev⟩ | ⟨hcode, hev⟩ | ⟨_, hev⟩
  iterate 2
    obtain ⟨hquery, hcarried⟩ := carried_binlog hsend
    exact ⟨hddl hquery, hcarried⟩
  · obtain ⟨old, hcarried⟩ := carried_postgres hev
    refine ⟨_, ?_, hcarried⟩
    exact prefix_append _ _
  · exact carried_oracle hcode hev
  · obtain ⟨object, hcarried⟩ := carried_sqlserver hev
    refine ⟨_, ?_, hcarried⟩
    exact prefix_append _ _

/-- No DDL event of the five sources reaches a sink on all ways. `Write` executes the statement for
MySQL and MariaDB and a comment for PostgreSQL and SQL Server; for these four `ApplyDDL` executes
nothing, and the consumer does not reject the event. For Oracle it is the other way round. -/
theorem not_reaches (sink : SqlSink) (hpolicy : AppliesDDL sink) (source : DDLSource)
    (statement : Bytes) (ev : ChangeEvent) (h : EmitsDDL source statement ev) :
    ¬ Reaches sink statement ev ∧
    match source with
    | .mysql | .mariadb => (∀ order, Executes (sink.request order ev) statement) ∧
        (∀ text, ¬ Executes (sink.applyDDL ev) text) ∧ NotRejected ev
    | .postgres | .sqlserver =>
      (∃ text, lit "-- " <+: text ∧ ∀ order, Executes (sink.request order ev) text) ∧
      (∀ text, ¬ Executes (sink.applyDDL ev) text) ∧ NotRejected ev
    | .oracle => (∀ order text, ¬ Executes (sink.request order ev) text) ∧
        (statement ≠ [] → Executes (sink.applyDDL ev) statement) ∧
        ∀ (cfg : Lifecycle.Config) (env : Lifecycle.Env) (s : Lifecycle.Consumer),
          cfg.hasDDLHandling = true → cfg.hasDDLStore = true →
          (Lifecycle.handleDDL cfg env s ev).outcome =
            .error (lit "DDL event missing 'ddl' metadata") := by
  have hcarried := carried_of_emitsDDL h
  -- Without the key `sql` nothing is applied, without `ddl` nothing is written.
  have happly : ∀ {ddl}, Carried ev ddl none → ∀ text, ¬ Executes (sink.applyDDL ev) text := by
    intro ddl hcarried text hexec
    exact nomatch ((hcarried.executes_applyDDL_iff sink text).mp hexec).1
  have hwrite : ∀ {sql}, Carried ev none sql →
      ∀ order text, ¬ Executes (sink.request order ev) text := by
    intro sql hcarried order text hexec
    exact nomatch ((hcarried.executes_request_iff hpolicy order text).mp hexec).1
  have haccepts : ∀ {text sql}, text ≠ [] → Carried ev (some text) sql → NotRejected ev := by
    intro text sql hne hcarried cfg env s heq
    exact hne ((hcarried.rejected_iff cfg env s).mp heq).2
  cases source
  case mysql | mariadb =>
    obtain ⟨hne, hcarried⟩ := hcarried
    exact ⟨fun hreaches => happly hcarried statement hreaches.apply,
      fun order => (hcarried.executes_request_iff hpolicy order statement).mpr ⟨rfl, hne⟩,
      happly hcarried, haccepts hne hcarried⟩
  case postgres | sqlserver =>
    obtain ⟨text, hstart, hcarried⟩ := hcarried
    have hne : text ≠ [] := by
      rintro rfl
      exact absurd (prefix_nil.mp hstart) (by decide)
    exact ⟨fun hreaches => happly hcarried statement hreaches.apply, ⟨text, hstart, fun order =>
      (hcarried.executes_request_iff hpolicy order text).mpr ⟨rfl, hne⟩⟩, happly hcarried,
      haccepts hne hcarried⟩
  case oracle =>
    exact ⟨fun hreaches => hwrite hcarried id statement (hreaches.write id), hwrite hcarried,
      fun hne => (hcarried.executes_applyDDL_iff sink statement).mpr ⟨rfl, hne⟩,
      fun cfg env s hcfg hstore => (hcarried.rejected_iff cfg env s).mpr ⟨⟨hcfg, hstore⟩, rfl⟩⟩

def alterOrders : Source.Oracle.RedoRow :=
  Source.Oracle.ordersRow 12 5 (lit "ALTER TABLE ORDERS ADD NOTE VARCHAR2(10)")

lemma emitsDDL_alterOrders
    (hev : Source.Oracle.rowOutcome (lit "ORCL") 1 alterOrders = .event ev) :
    EmitsDDL .oracle (lit "ALTER TABLE ORDERS ADD NOTE VARCHAR2(10)") ev :=
  EmitsDDL.oracle (show alterOrders.opCode = 5 from rfl) hev

/-- `ApplyDDL` executes the statement of Oracle, but the event does not reach the sink. -/
theorem not_reaches_alterOrders :
    ∃ ev, Source.Oracle.rowOutcome (lit "ORCL") 1 alterOrders = .event ev ∧
      ¬ Reaches SqlSink.upsertSink (lit "ALTER TABLE ORDERS ADD NOTE VARCHAR2(10)") ev ∧
      Executes (SqlSink.upsertSink.applyDDL ev)
        (lit "ALTER TABLE ORDERS ADD NOTE VARCHAR2(10)") := by
  refine ⟨_, rfl, ?_⟩
  obtain ⟨hnot, -, happly, -⟩ := not_reaches SqlSink.upsertSink
    ⟨by decide, by decide⟩ .oracle _ _ (emitsDDL_alterOrders rfl)
  exact ⟨hnot, happly (by decide)⟩

/-- `Write` of a sink executes nothing for an `ALTER TABLE` of Oracle. -/
theorem not_forall_reaches :
    ¬∀ (sink : SqlSink), AppliesDDL sink → ∀ (source : DDLSource) (statement : Bytes)
      (ev : ChangeEvent), EmitsDDL source statement ev → Reaches sink statement ev := by
  intro hall
  have hpolicy : AppliesDDL SqlSink.upsertSink := ⟨by decide, by decide⟩
  have hevent : ∃ ev, Source.Oracle.rowOutcome (lit "ORCL") 1 alterOrders = .event ev := ⟨_, rfl⟩
  obtain ⟨ev, hev⟩ := hevent
  have hreaches := hall SqlSink.upsertSink hpolicy .oracle _ ev (emitsDDL_alterOrders hev)
  have hwrite := ((carried_oracle rfl hev).executes_request_iff hpolicy id _).mp (hreaches.write id)
  exact nomatch hwrite.1

end DataStream.EndToEnd
