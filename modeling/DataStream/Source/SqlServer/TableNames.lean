import DataStream.Source.SqlServer.DetectDDL
import DataStream.Source.SqlServer.Polling

/-!
# The table names in SQL Server events

The events of a captured table get their table from three places: `parseRows` takes the name of the
capture instance for that of the table, `enrichDMLTableInfo` looks for a definition under this name,
and `detectDDLChanges` reads the definition of the table anew. The schema cache, which both use,
asks for the database in place of the schema and leaves the schema of its definitions empty.

* `namedBy_iff`: when the events of a captured table name the table and its schema.
-/

namespace DataStream.Source.SqlServer

open Event Schema List Option

/-- A row of `cdc.change_tables`. -/
structure CapturedTable where
  captureInstance : Bytes
  sourceSchema : Bytes
  sourceName : Bytes
  schema_ne : sourceSchema ≠ []

/-- An event carries the schema and the name of a table. -/
def CapturedTable.NamedBy (src : CapturedTable) (ev : ChangeEvent) : Prop :=
  ev.table.schema = src.sourceSchema ∧ ev.table.table = src.sourceName

def CapturedTable.modified (src : CapturedTable) (modifyDate : Time) : ModifiedObject :=
  { schemaName := src.sourceSchema, tableName := src.sourceName, modifyDate }

/-- The columns and key columns of tables, by schema and name; `none` if there are none, or if a
query fails. -/
abbrev Columns := Bytes → Bytes → Option (List ColumnInfo × List Bytes)

/-- `querySchema`. Also what the cache holds was made here, under the same names. -/
def querySchema (columns : Columns) (schema table : Bytes) : Option TableInfo :=
  (columns schema table).map fun (columns, primaryKeyColumns) =>
    { TableInfo.zero with database := schema, table, columns, primaryKeyColumns }

section Names

variable (database : Bytes) (columns : Columns) (tables : Option Tables) (src : CapturedTable)

/-- The definition that `enrichDMLTableInfo` finds for the events of a capture instance. -/
def definition : Option TableInfo :=
  (tables.bind fun t => t.get database src.captureInstance).or
    (querySchema columns database src.captureInstance)

/-- The events of the rows of a capture instance, as `pollAll` sends them. -/
def dmlEvents (now : Time) (rows : List CDCRow) : List ChangeEvent :=
  (parseRows database src.captureInstance now Pairing.none rows).map
    (enrichDMLTableInfo (definition database columns tables src))

/-- The events of the turn of `detectDDLChanges` for the table. -/
def ddlEvents (env : DetectEnv) (n : ℕ) (modifyDate : Time) : List ChangeEvent :=
  (detectRows database { env with freshInfo := querySchema columns database } n tables
    [some (src.modified modifyDate)]).2.1

end Names

variable {database : Bytes} {columns : Columns} {tables : Option Tables} {src : CapturedTable}

lemma schema_of_querySchema {schema table : Bytes} {info : TableInfo}
    (h : querySchema columns schema table = some info) : info.schema = [] := by
  obtain ⟨_, -, rfl⟩ := map_eq_some_iff.mp h
  rfl

lemma schema_of_mem_parseRows {captureInstance : Bytes} {now : Time} {pairing : Pairing}
    {rows : List CDCRow} {ev : ChangeEvent}
    (hmem : ev ∈ parseRows database captureInstance now pairing rows) :
    ev.table.schema = [] ∧ ∃ row ∈ rows, row.IsChange := by
  induction rows generalizing pairing with
  | nil => cases hmem
  | cons row rows ih =>
    rcases mem_append.mp hmem with hmem | hmem
    · have hev := mem_toList.mp hmem
      rw [parseRow] at hev
      split_ifs at hev <;>
      · rw [← some.inj hev]
        exact ⟨rfl, row, mem_cons_self, by simp [CDCRow.IsChange, *]⟩
    · obtain ⟨hschema, row', hrow', hchange⟩ := ih hmem
      exact ⟨hschema, row', mem_cons_of_mem _ hrow', hchange⟩

/-- The definition of the table itself is stored under the name of its capture instance. -/
def StoredUnderInstance (database : Bytes) (tables : Option Tables) (src : CapturedTable) : Prop :=
  ∃ t info, tables = some t ∧ t.get database src.captureInstance = some info ∧
    info.schema = src.sourceSchema ∧ info.table = src.sourceName

lemma namedBy_enrich_iff {ev : ChangeEvent} (hschema : ev.table.schema = []) :
    src.NamedBy (enrichDMLTableInfo (definition database columns tables src) ev) ↔
      StoredUnderInstance database tables src := by
  cases hget : tables.bind fun t => t.get database src.captureInstance with
  | some info =>
    obtain ⟨t, rfl, hinfo⟩ := bind_eq_some_iff.mp hget
    rw [definition, hget, some_or]
    refine ⟨fun h => ⟨t, info, rfl, hinfo, h⟩, ?_⟩
    rintro ⟨t', info', ht, hinfo', h⟩
    obtain rfl := some.inj ht
    obtain rfl := some.inj (hinfo.symm.trans hinfo')
    exact h
  | none =>
    rw [definition, hget, none_or]
    refine iff_of_false (fun h => src.schema_ne ?_) ?_
    · rw [← h.1]
      cases hquery : querySchema columns database src.captureInstance with
      | none => exact hschema
      | some info => exact schema_of_querySchema hquery
    · rintro ⟨t, info, rfl, hinfo, -⟩
      exact some_ne_none info (hinfo.symm.trans hget)

lemma dmlEvents_namedBy_iff {now : Time} {rows : List CDCRow} :
    (∀ ev ∈ dmlEvents database columns tables src now rows, src.NamedBy ev) ↔
      (∀ row ∈ rows, ¬row.IsChange) ∨ StoredUnderInstance database tables src := by
  rw [dmlEvents, List.forall_mem_map]
  constructor
  · intro h
    refine or_iff_not_imp_left.mpr fun hrows => ?_
    push Not at hrows
    obtain ⟨row, hrow, hchange⟩ := hrows
    obtain ⟨ev, hev, -⟩ := exists_mem_parseRows database src.captureInstance now .none hrow hchange
    exact (namedBy_enrich_iff (schema_of_mem_parseRows hev).1).mp (h ev hev)
  · intro h ev hev
    obtain ⟨hschema, row, hrow, hchange⟩ := schema_of_mem_parseRows hev
    exact (namedBy_enrich_iff hschema).mpr (h.resolve_left fun hnone => hnone row hrow hchange)

lemma ddlEvents_namedBy_iff {env : DetectEnv} {n : ℕ} {modifyDate : Time} :
    (∀ ev ∈ ddlEvents database columns tables src env n modifyDate, src.NamedBy ev) ↔
      env.cdcReaders (captureInstance (src.modified modifyDate)) = none ∨
        columns database src.sourceName = none ∨ env.sends n = false := by
  have hfresh : querySchema columns database (src.modified modifyDate).tableName = none ↔
      columns database src.sourceName = none := map_eq_none_iff
  rw [ddlEvents, detectRows, ← hfresh]
  cases env.cdcReaders (captureInstance (src.modified modifyDate)) with
  | none => simp [detectRows]
  | some readerPosition =>
    cases hquery : querySchema columns database (src.modified modifyDate).tableName with
    | none => simp [detectRows, hquery]
    | some info =>
      cases env.sends n with
      | false => simp [hquery]
      | true =>
        have hschema := schema_of_querySchema hquery
        simp [detectRows, hquery, detectedDDLEvent, CapturedTable.NamedBy, hschema,
          src.schema_ne.symm]

/-- The events of a captured table name the table and its schema exactly if no DDL event is sent
for it, and either no row event, or its definition is stored under the name of the capture
instance. -/
theorem namedBy_iff (database : Bytes) (columns : Columns) (tables : Option Tables)
    (src : CapturedTable) (now modifyDate : Time) (rows : List CDCRow) (env : DetectEnv) (n : ℕ) :
    (∀ ev ∈ dmlEvents database columns tables src now rows ++
        ddlEvents database columns tables src env n modifyDate, src.NamedBy ev) ↔
      ((∀ row ∈ rows, ¬row.IsChange) ∨ StoredUnderInstance database tables src) ∧
        (env.cdcReaders (captureInstance (src.modified modifyDate)) = none ∨
          columns database src.sourceName = none ∨ env.sends n = false) := by
  rw [forall_mem_append, dmlEvents_namedBy_iff, ddlEvents_namedBy_iff]

/-- The table `dbo.orders` with the capture instance that it gets by default. -/
def sampleTable : CapturedTable where
  captureInstance := lit "dbo_orders"
  sourceSchema := lit "dbo"
  sourceName := lit "orders"
  schema_ne := by decide

/-- The event of an insert into `dbo.orders` has no schema and the table `dbo_orders`. -/
theorem not_namedBy_sample :
    ¬∀ ev ∈ dmlEvents (lit "shop") (fun _ _ => none) none sampleTable Time.zero
        [Connector.sampleInsert 1], sampleTable.NamedBy ev := by
  intro h
  have hschema := (h _ mem_cons_self).1
  exact absurd hschema (by decide)

end DataStream.Source.SqlServer
