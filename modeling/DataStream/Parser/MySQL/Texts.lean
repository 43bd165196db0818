import DataStream.Parser.MySQL.Parser

/-!
# The texts in parsed definitions

ANTLR reads a statement as a list of runes, so the text of every node is valid UTF-8, whatever the
bytes of the statement were. The visitor only cuts such texts at ASCII characters, so every name and
type that reaches a table definition is valid UTF-8 too. JSON keeps such definitions as they are.

* `Runtime.wellFormed_parse`: what `Parse` yields has valid texts;
* `Runtime.valid_newTableInfo`: `ApplyDDL` makes valid definitions from valid ones.
-/

namespace DataStream

open List Option

/-- The names and types of a column definition are valid UTF-8. -/
structure Event.ColumnInfo.Valid (c : ColumnInfo) : Prop where
  name : Utf8.Valid c.name
  type : Utf8.Valid c.type

/-- The names and types of a table definition are valid UTF-8. -/
structure Event.TableInfo.Valid (t : TableInfo) : Prop where
  database : Utf8.Valid t.database
  schema : Utf8.Valid t.schema
  table : Utf8.Valid t.table
  primaryKeyColumns : ∀ name ∈ t.primaryKeyColumns, Utf8.Valid name
  uniqueKeyColumns : ∀ name ∈ t.uniqueKeyColumns, Utf8.Valid name
  columns : ∀ c ∈ t.columns, c.Valid

lemma Event.ColumnInfo.repaired_eq_self {c : ColumnInfo} (h : c.Valid) : c.repaired = c := by
  rw [ColumnInfo.repaired, Utf8.toValid_eq_self h.name, Utf8.toValid_eq_self h.type]

/-- A valid definition is stored and read back unchanged. -/
lemma Event.TableInfo.repaired_eq_self {t : TableInfo} (h : t.Valid) : t.repaired = t := by
  have hnames : ∀ names : List Bytes, (∀ name ∈ names, Utf8.Valid name) →
      names.map Utf8.toValid = names := by
    intro names hvalid
    conv_rhs => rw [← List.map_id names]
    exact map_congr_left fun name hname => Utf8.toValid_eq_self (hvalid name hname)
  have hcolumns : t.columns.map ColumnInfo.repaired = t.columns := by
    conv_rhs => rw [← List.map_id t.columns]
    exact map_congr_left fun c hc => ColumnInfo.repaired_eq_self (h.columns c hc)
  rw [repaired, hnames _ h.primaryKeyColumns, hnames _ h.uniqueKeyColumns, hcolumns,
    Utf8.toValid_eq_self h.database, Utf8.toValid_eq_self h.schema, Utf8.toValid_eq_self h.table]

namespace DDL

open Event

/-- The name and the type of a column are valid UTF-8. -/
structure Column.Valid (c : Column) : Prop where
  name : Utf8.Valid c.name
  type : Utf8.Valid c.type

/-- What definitions are made from: valid texts, and a created table under the names of the
result. -/
structure DDLResult.WellFormed (r : DDLResult) : Prop where
  created : r.type = .createTable → ∀ t ∈ r.tableChanges.bind TableChanges.table,
    t.database = r.database ∧ t.name = r.table ∧ t.primaryKey = [] ∧
      Utf8.Valid t.database ∧ Utf8.Valid t.name ∧ ∀ c ∈ t.columns, c.Valid
  added : ∀ changes ∈ r.tableChanges, ∀ c ∈ changes.addedColumns, c.Valid
  modified : ∀ changes ∈ r.tableChanges, ∀ m ∈ changes.modifiedColumns, m.2.Valid
  primaryKey : ∀ changes ∈ r.tableChanges, changes.primaryKeyChange = none

namespace MySQL

/-! ## The parse tree -/

structure ColumnDefinition.Valid (d : ColumnDefinition) : Prop where
  text : Utf8.Valid d.text
  dataType : ∀ text ∈ d.dataType, Utf8.Valid text

/-- The texts of an entry of `CREATE TABLE` are valid. -/
def CreateDefinition.Valid : CreateDefinition → Prop
  | .column fullColumnName definition =>
    (∀ text ∈ fullColumnName, Utf8.Valid text) ∧ ∀ d ∈ definition, d.Valid
  | .other => True

/-- The texts of a part of `ALTER TABLE` are valid. -/
def AlterSpecification.Valid : AlterSpecification → Prop
  | .addColumn uids definition | .changeColumn uids definition | .modifyColumn uids definition =>
    (∀ uid ∈ uids, Utf8.Valid uid) ∧ ∀ d ∈ definition, d.Valid
  | .addColumns uids definitions => (∀ uid ∈ uids, Utf8.Valid uid) ∧ ∀ d ∈ definitions, d.Valid
  | .dropColumn _ | .other => True

def DdlStatement.Valid : DdlStatement → Prop
  | .createDatabase uid | .dropDatabase uid => ∀ text ∈ uid, Utf8.Valid text
  | .columnCreateTable tableName definitions =>
    (∀ text ∈ tableName, Utf8.Valid text) ∧ ∀ ds ∈ definitions, ∀ d ∈ ds, d.Valid
  | .copyCreateTable tableNames => ∀ text ∈ tableNames, Utf8.Valid text
  | .alterTable tableName specifications =>
    (∀ text ∈ tableName, Utf8.Valid text) ∧ ∀ s ∈ specifications, s.Valid
  | .queryCreateTable name | .dropTable name | .createIndex _ name | .dropIndex _ name
  | .createView name | .dropView name | .truncateTable name => ∀ text ∈ name, Utf8.Valid text
  | .alterDatabase _ | .brokenCreateTable | .other => True

/-- The texts of a runtime are valid UTF-8: ANTLR joins runes, and capitals of valid texts are
valid. -/
structure Runtime.Valid (rt : Runtime) : Prop where
  tree : ∀ ddl, ∀ s ∈ (rt.tree ddl).statements, ∀ d ∈ s, d.Valid
  toUpper : ∀ s, Utf8.Valid s → Utf8.Valid (rt.toUpper s)

/-! ## The visitor -/

lemma valid_extractUidText {text : Bytes} (h : Utf8.Valid text) :
    Utf8.Valid (extractUidText text) :=
  Text.valid_trim (by decide) h

lemma valid_tableNames {text : Option Bytes} (h : ∀ t ∈ text, Utf8.Valid t) :
    Utf8.Valid (tableNames text).1 ∧ Utf8.Valid (tableNames text).2 := by
  cases text with
  | none => exact ⟨Utf8.valid_nil, Utf8.valid_nil⟩
  | some text =>
    have hname : Utf8.Valid (Text.remove 0x60 text) := Text.valid_remove (by decide) (h text rfl)
    simp only [tableNames, map_some, getD_some, extractTableName]
    cases hcut : Text.cut 0x2E (Text.remove 0x60 text) with
    | none => exact ⟨Utf8.valid_nil, hname⟩
    | some parts => exact Text.valid_cut (by decide) hcut hname

/-- Constraints change neither the name nor the type of a column. -/
lemma foldl_processColumnConstraint (constraints : List ColumnConstraint) (col : Column) :
    (constraints.foldl processColumnConstraint col).name = col.name ∧
      (constraints.foldl processColumnConstraint col).type = col.type := by
  induction constraints generalizing col with
  | nil => exact ⟨rfl, rfl⟩
  | cons c constraints ih =>
    have hstep : (processColumnConstraint col c).name = col.name ∧
        (processColumnConstraint col c).type = col.type := by
      unfold processColumnConstraint
      split <;> try exact ⟨rfl, rfl⟩
      split <;> exact ⟨rfl, rfl⟩
    exact ⟨(ih _).1.trans hstep.1, (ih _).2.trans hstep.2⟩

lemma valid_columnOf {name : Bytes} {definition : Option ColumnDefinition}
    (hname : Utf8.Valid name) (hdefinition : ∀ d ∈ definition, d.Valid) :
    (columnOf name definition).Valid := by
  cases definition with
  | none => exact ⟨hname, Utf8.valid_nil⟩
  | some d =>
    have hfold := foldl_processColumnConstraint d.constraints
      { Column.named name true with type := d.dataType.getD [] }
    refine ⟨hfold.1 ▸ hname, ?_⟩
    have htype : Utf8.Valid (d.dataType.getD []) := by
      cases hd : d.dataType with
      | none => exact Utf8.valid_nil
      | some text => exact (hdefinition d rfl).dataType text hd
    exact hfold.2 ▸ htype

lemma valid_extractColumns {definitions : List CreateDefinition}
    (h : ∀ d ∈ definitions, d.Valid) : ∀ c ∈ extractColumns definitions, c.Valid := by
  intro c hc
  obtain ⟨d, hd, hvisit⟩ := mem_filterMap.mp (mem_of_mem_filter hc)
  cases d with
  | column fullColumnName definition =>
    obtain rfl := some.inj hvisit
    refine valid_columnOf ?_ (h _ hd).2
    cases hname : fullColumnName with
    | none => exact Utf8.valid_nil
    | some text => exact Text.valid_trim (by decide) ((h _ hd).1 text hname)
  | other => cases hvisit

lemma wellFormed_of_tableChanges_eq_none {r : DDLResult} (h : r.tableChanges = none) :
    r.WellFormed := by
  constructor <;> simp [h]

lemma wellFormed_visitColumnCreateTable (ddl : Bytes) {tableName : Option Bytes}
    {definitions : Option (List CreateDefinition)} (hname : ∀ t ∈ tableName, Utf8.Valid t)
    (hdefinitions : ∀ ds ∈ definitions, ∀ d ∈ ds, d.Valid) :
    (visitColumnCreateTable ddl tableName definitions).WellFormed := by
  have hnames := valid_tableNames hname
  constructor <;> simp only [visitColumnCreateTable, mem_def, some.injEq]
  · rintro - t ⟨⟩
    refine ⟨rfl, rfl, rfl, hnames.1, hnames.2, ?_⟩
    cases definitions with
    | none => simp
    | some ds => exact valid_extractColumns (hdefinitions ds rfl)
  all_goals
    rintro changes rfl
    simp

/-- The changes that an `ALTER TABLE` collects have valid columns and leave the key alone. -/
structure Collected (changes : TableChanges) : Prop where
  added : ∀ c ∈ changes.addedColumns, c.Valid
  modified : ∀ m ∈ changes.modifiedColumns, m.2.Valid
  primaryKey : changes.primaryKeyChange = none

variable {changes : TableChanges}

lemma collected_add (h : Collected changes) {col : Column} (hcol : col.Valid) :
    Collected { changes with addedColumns := changes.addedColumns ++ [col] } := by
  refine ⟨?_, h.modified, h.primaryKey⟩
  intro c hc
  rcases mem_append.mp hc with hc | hc
  · exact h.added c hc
  · exact mem_singleton.mp hc ▸ hcol

lemma collected_modify (h : Collected changes) {col : Column} (hcol : col.Valid) (name : Bytes) :
    Collected { changes with modifiedColumns := changes.modifiedColumns ++ [(name, col)] } := by
  refine ⟨h.added, ?_, h.primaryKey⟩
  intro m hm
  rcases mem_append.mp hm with hm | hm
  · exact h.modified m hm
  · exact mem_singleton.mp hm ▸ hcol

lemma collected_visitAlterSpecification (h : Collected changes) {spec : AlterSpecification}
    (hspec : spec.Valid) : Collected (visitAlterSpecification changes spec) := by
  unfold visitAlterSpecification
  split
  · exact collected_add h (valid_columnOf (valid_extractUidText (hspec.1 _ mem_cons_self)) hspec.2)
  · rename_i uid uids definitions
    refine collected_add h ⟨valid_extractUidText (hspec.1 _ mem_cons_self), ?_⟩
    cases definitions with
    | nil => exact Utf8.valid_nil
    | cons d ds => exact (hspec.2 d mem_cons_self).text
  · refine collected_modify h (valid_columnOf (valid_extractUidText (hspec.1 _ ?_)) hspec.2) _
    simp
  · exact collected_modify h (valid_columnOf (valid_extractUidText (hspec.1 _ mem_cons_self))
      hspec.2) _
  · dsimp only
    split
    · exact h
    · exact ⟨h.added, h.modified, h.primaryKey⟩
  · exact h

lemma wellFormed_visitAlterTable (ddl : Bytes) (tableName : Option Bytes)
    {specifications : List AlterSpecification} (h : ∀ s ∈ specifications, s.Valid) :
    (visitAlterTable ddl tableName specifications).WellFormed := by
  have hfold : ∀ changes, Collected changes →
      Collected (specifications.foldl visitAlterSpecification changes) := by
    induction specifications with
    | nil => exact fun _ hchanges => hchanges
    | cons s specifications ih =>
      intro changes hchanges
      exact ih (fun s' hs' => h s' (mem_cons_of_mem _ hs')) _
        (collected_visitAlterSpecification hchanges (h s mem_cons_self))
  have hcollected : ∀ changes ∈ (visitAlterTable ddl tableName specifications).tableChanges,
      Collected changes := by
    rintro changes ⟨⟩
    exact hfold _ ⟨by simp, by simp, rfl⟩
  exact
    { created := by rintro ⟨⟩
      added := fun changes hchanges => (hcollected changes hchanges).added
      modified := fun changes hchanges => (hcollected changes hchanges).modified
      primaryKey := fun changes hchanges => (hcollected changes hchanges).primaryKey }

lemma wellFormed_visitDdlStatement (toUpper : Bytes → Bytes) (ddl : Bytes) {s : DdlStatement}
    (hs : s.Valid) : ∀ r ∈ visitDdlStatement toUpper ddl s, r.WellFormed := by
  intro r hr
  cases s with
  | columnCreateTable tableName definitions =>
    obtain rfl := some.inj hr
    exact wellFormed_visitColumnCreateTable ddl hs.1 hs.2
  | alterTable tableName specifications =>
    obtain rfl := some.inj hr
    exact wellFormed_visitAlterTable ddl tableName hs.2
  | brokenCreateTable => cases hr
  | createDatabase | dropDatabase | alterDatabase | copyCreateTable | queryCreateTable | dropTable
  | createIndex | dropIndex | createView | dropView | truncateTable | other =>
    obtain rfl := some.inj hr
    exact wellFormed_of_tableChanges_eq_none rfl

namespace Runtime

variable {rt : Runtime}

/-- What `Parse` yields is well formed. -/
theorem wellFormed_parse (hrt : rt.Valid) (ddl : Bytes) : ∀ r ∈ rt.parse ddl, r.WellFormed := by
  intro r hr
  rw [parse] at hr
  split at hr
  · obtain rfl := mem_singleton.mp hr
    exact wellFormed_of_tableChanges_eq_none rfl
  · obtain ⟨s, hs, hvisit⟩ := mem_filterMap.mp hr
    obtain ⟨d, hd, hvisit⟩ := bind_eq_some_iff.mp hvisit
    exact wellFormed_visitDdlStatement rt.toUpper _ (hrt.tree ddl s hs d hd) r hvisit

/-! ## `ApplyDDL` -/

lemma valid_convertToEventColumn (hrt : rt.Valid) {col : Column} (h : col.Valid) :
    (rt.convertToEventColumn col).Valid := by
  refine ⟨h.name, ?_⟩
  simp only [convertToEventColumn, parseTypeString]
  split
  · exact Utf8.valid_nil
  cases hcut : Text.cut 0x28 col.type with
  | none => exact hrt.toUpper _ h.type
  | some parts =>
    have hbase := (Text.valid_cut (by decide) hcut h.type).1
    dsimp only
    split <;> exact hrt.toUpper _ hbase

variable {columns : List ColumnInfo}

lemma mem_replaceColumn {name : Bytes} {col c : ColumnInfo}
    (h : c ∈ replaceColumn columns name col) : c ∈ columns ∨ c = col := by
  induction columns with
  | nil => exact .inl h
  | cons d columns ih =>
    rw [replaceColumn] at h
    split at h
    · rcases mem_cons.mp h with rfl | h
      · exact .inr rfl
      · exact .inl (mem_cons_of_mem _ h)
    · rcases mem_cons.mp h with rfl | h
      · exact .inl mem_cons_self
      · exact (ih h).imp_left (mem_cons_of_mem _)

lemma mem_dropColumns {names : List Bytes} {c : ColumnInfo}
    (h : c ∈ names.foldl (fun columns name => columns.eraseP fun c => c.name = name) columns) :
    c ∈ columns := by
  induction names generalizing columns with
  | nil => exact h
  | cons name names ih => exact mem_of_mem_eraseP (ih h)

lemma valid_modifyColumns (hrt : rt.Valid) {mods : List (Bytes × Column)}
    (hmods : ∀ m ∈ mods, m.2.Valid) (h : ∀ c ∈ columns, c.Valid) :
    ∀ c ∈ mods.foldl (fun columns m =>
      replaceColumn columns m.1 (rt.convertToEventColumn m.2)) columns, c.Valid := by
  induction mods generalizing columns with
  | nil => exact h
  | cons m mods ih =>
    refine ih (fun m' hm' => hmods m' (mem_cons_of_mem _ hm')) fun c hc => ?_
    rcases mem_replaceColumn hc with hc | rfl
    · exact h c hc
    · exact valid_convertToEventColumn hrt (hmods m mem_cons_self)

lemma valid_applyAlterChanges (hrt : rt.Valid) {t : TableInfo} (ht : t.Valid)
    (hchanges : Collected changes) : (rt.applyAlterChanges t changes).Valid := by
  -- Adding, dropping and modifying columns are done one after the other; each keeps all valid.
  have hadd : ∀ c ∈ t.columns ++ changes.addedColumns.map rt.convertToEventColumn, c.Valid := by
    intro c hc
    rcases mem_append.mp hc with hc | hc
    · exact ht.columns c hc
    · obtain ⟨col, hcol, rfl⟩ := List.mem_map.mp hc
      exact valid_convertToEventColumn hrt (hchanges.added col hcol)
  refine ⟨ht.database, ht.schema, ht.table, ?_, ht.uniqueKeyColumns, ?_⟩
  · simpa [applyAlterChanges, hchanges.primaryKey] using ht.primaryKeyColumns
  · apply valid_modifyColumns hrt hchanges.modified
    intro c hc
    exact hadd c (mem_dropColumns hc)

/-- A definition that `ApplyDDL` makes is valid if the old one was. It has the names of the old
definition, or those of the statement that creates it. -/
theorem valid_newTableInfo (hrt : rt.Valid) {old : Option TableInfo} (hold : ∀ t ∈ old, t.Valid)
    {r : DDLResult} (hr : r.WellFormed) {info : TableInfo}
    (h : rt.newTableInfo old r = some (some info)) :
    info.Valid ∧ ((∃ t ∈ old, info.database = t.database ∧ info.table = t.table) ∨
      (info.database = r.database ∧ info.table = r.table)) := by
  unfold newTableInfo at h
  split at h
  · rename_i htype
    obtain ⟨t, ht, rfl⟩ := map_eq_some_iff.mp (some.inj h)
    obtain ⟨hdatabase, hname, hkey, hvdatabase, hvname, hcolumns⟩ := hr.created htype t ht
    refine ⟨⟨hvdatabase, Utf8.valid_nil, hvname, ?_, by simp [buildEventTableInfo, TableInfo.zero],
      ?_⟩, .inr ⟨hdatabase, hname⟩⟩
    · simp [buildEventTableInfo, hkey]
    · intro c hc
      obtain ⟨col, hcol, rfl⟩ := List.mem_map.mp hc
      exact valid_convertToEventColumn hrt (hcolumns col hcol)
  · obtain ⟨t, rfl, hinfo⟩ := map_eq_some_iff.mp h
    have ht := hold t rfl
    cases hchanges : r.tableChanges with
    | none =>
      rw [hchanges] at hinfo
      obtain rfl := some.inj hinfo
      exact ⟨ht, .inl ⟨_, rfl, rfl, rfl⟩⟩
    | some changes =>
      rw [hchanges] at hinfo
      obtain rfl := some.inj hinfo
      have hcollected : Collected changes :=
        ⟨hr.added changes hchanges, hr.modified changes hchanges, hr.primaryKey changes hchanges⟩
      exact ⟨valid_applyAlterChanges hrt ht hcollected, .inl ⟨t, rfl, rfl, rfl⟩⟩
  · cases h
  · obtain rfl := some.inj h
    exact ⟨hold info rfl, .inl ⟨info, rfl, rfl, rfl⟩⟩

end Runtime

end MySQL

end DDL

end DataStream
