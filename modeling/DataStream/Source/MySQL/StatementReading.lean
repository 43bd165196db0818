import DataStream.Foundations.ListEdits
import DataStream.Parser.MySQL.Texts
import DataStream.Source.MySQL.Catalog

/-!
# What the visitor reads of a statement

Names that are written plainly are read as they are, but a table without its database is read with
an empty one. The parts of an `ALTER TABLE` are read into lists of added, dropped and modified
columns, without the places, and `ApplyDDL` goes through these lists one after the other. For the
parts that it can follow this gives the columns that the server has.

* `extractTableName_text`: which table is read;
* `map_name_extractColumns`: the columns of `CREATE TABLE`;
* `map_name_visitAlterTable`: the columns after an `ALTER TABLE` that can be followed.
-/

namespace DataStream.Source.MySQL

open Event DDL DDL.MySQL List AlterSpec ColumnInfo Text ListEdits

/-! ## Names -/

/-- An identifier whose text has no quotes but backticks around it. -/
def Ident.Plain (i : Ident) : Prop := i.quoting ≠ .double ∧ 0x60 ∉ i.value
  deriving Decidable

/-- A table name that is read as it is: no quotes in its parts, and no dots. -/
structure TableRef.Plain (t : TableRef) : Prop where
  database : ∀ d ∈ t.database, d.Plain ∧ 0x2E ∉ d.value
  table : t.table.Plain ∧ 0x2E ∉ t.table.value

variable {i : Ident} {spec : AlterSpec}

lemma Ident.text_of_plain (h : i.Plain) :
    i.text = i.value ∨ i.text = [0x60] ++ i.value ++ [0x60] := by
  obtain ⟨value, quoting, nonempty, bare⟩ := i
  obtain ⟨hquoting, hvalue⟩ := h
  rcases quoting with _ | _ | _
  · exact .inl rfl
  · right
    have hid : value.flatMap (fun b => if b = 0x60 then [b, b] else [b]) = value := by
      have hsame : ∀ b ∈ value, (if b = 0x60 then [b, b] else [b]) = [b] :=
        fun b hb => if_neg fun (heq : b = 0x60) => hvalue (heq ▸ hb)
      rw [flatMap_congr hsame, flatMap_singleton']
    exact congrArg (fun text => [0x60] ++ text ++ [0x60]) hid
  · exact absurd rfl hquoting

lemma Ident.remove_text (h : i.Plain) : remove 0x60 i.text = i.value := by
  have hvalue := remove_eq_self h.2
  rcases i.text_of_plain h with htext | htext
  · rw [htext, hvalue]
  · rw [htext, remove, filter_append, filter_append]
    change [] ++ remove 0x60 i.value ++ [] = i.value
    rw [hvalue, nil_append, append_nil]

lemma extractUidText_text (h : i.Plain) : extractUidText i.text = i.value := by
  rw [extractUidText]
  rcases i.text_of_plain h with htext | htext
  · rw [htext, trim_eq_self h.2]
  · rw [htext, trim_enclosed h.2]

/-- A plain name is read as it is; a missing database is read as the empty one. -/
theorem extractTableName_text {t : TableRef} (h : t.Plain) :
    extractTableName t.text = (t.database.elim [] Ident.value, t.table.value) := by
  obtain ⟨database, table⟩ := t
  obtain ⟨hdatabase, htable, hdot⟩ := h
  rcases database with _ | d
  · have hremove : remove 0x60 (TableRef.text ⟨none, table⟩) = table.value :=
      table.remove_text htable
    rw [extractTableName, hremove]
    simp [cut, hdot]
  · obtain ⟨hd, hddot⟩ := hdatabase d rfl
    have hremove : remove 0x60 (TableRef.text ⟨some d, table⟩) =
        d.value ++ 0x2E :: table.value := by
      rw [TableRef.text, remove, filter_append]
      change remove 0x60 (d.text ++ lit ".") ++ remove 0x60 table.text = _
      rw [table.remove_text htable, remove, filter_append]
      change remove 0x60 d.text ++ [0x2E] ++ table.value = _
      rw [d.remove_text hd, append_assoc, singleton_append]
    rw [extractTableName, hremove]
    simp [cut_append hddot]

/-! ## Columns -/

lemma name_columnOf (name : Bytes) (definition : Option ColumnDefinition) :
    (columnOf name definition).name = name := by
  rcases definition with _ | d
  · rfl
  · exact (foldl_processColumnConstraint d.constraints _).1

def CreateEntry.Plain : CreateEntry → Prop
  | .column name _ => name.Plain
  | .other => True

/-- The columns of `CREATE TABLE` are read in order. -/
theorem map_name_extractColumns {entries : List CreateEntry} (h : ∀ e ∈ entries, e.Plain) :
    (extractColumns (entries.map CreateEntry.tree)).map Column.name =
      entries.filterMap CreateEntry.columnName := by
  induction entries with
  | nil => rfl
  | cons e entries ih =>
    obtain ⟨he, hrest⟩ := forall_mem_cons.mp h
    rcases e with ⟨name, definition⟩ | _
    · -- The name is what is trimmed of its text, and not empty.
      have hname : (columnOf (trim 0x60 name.text) (some definition)).name = name.value := by
        rw [name_columnOf]
        exact extractUidText_text he
      have hcons : extractColumns ((CreateEntry.column name definition :: entries).map
          CreateEntry.tree) = columnOf (trim 0x60 name.text) (some definition) ::
            extractColumns (entries.map CreateEntry.tree) := by
        refine filter_cons_of_pos ?_
        simpa [hname] using name.nonempty
      rw [hcons, map_cons, hname, ih hrest]
      rfl
    · exact ih hrest

/-! ## Parts of `ALTER TABLE` -/

/-- A part of `ALTER TABLE` that can be followed: at most one column is added, nothing is moved, and
neither a column is renamed without a definition nor the table. -/
def AlterSpec.Followed : AlterSpec → Prop
  | .addColumn column _ .unsaid => column.Plain
  | .addColumns [(column, _)] => column.Plain
  | .changeColumn old new _ .unsaid => old.Plain ∧ new.Plain
  | .modifyColumn column _ .unsaid => column.Plain
  | .dropColumn column => column.Plain
  | .other => True
  | _ => False

/-- Old and new names of the changed columns. -/
def changedNames (specs : List AlterSpec) : List (Bytes × Bytes) :=
  (specs.filterMap changed).map fun change => (change.1, change.2.1)

def addedNames (specs : List AlterSpec) : List Bytes := (specs.flatMap placed).map Prod.fst

variable (rt : Runtime) (t : TableInfo) (changes : TableChanges)

/-- The names in collected changes: added, dropped, and modified columns. -/
def collectedNames : List Bytes × List Bytes × List (Bytes × Bytes) :=
  (changes.addedColumns.map Column.name, changes.droppedColumns,
    changes.modifiedColumns.map fun change => (change.1, change.2.name))

lemma collectedNames_visitAlterSpecification (h : spec.Followed) :
    collectedNames (visitAlterSpecification changes spec.tree) =
      ((collectedNames changes).1 ++ addedNames [spec],
        (collectedNames changes).2.1 ++ [spec].filterMap dropped,
        (collectedNames changes).2.2 ++ changedNames [spec]) := by
  unfold Followed at h
  split at h
  case h_1 column definition =>
    simp [collectedNames, visitAlterSpecification, addedNames, changedNames, name_columnOf,
      extractUidText_text h]
  case h_2 column definition =>
    simp [collectedNames, visitAlterSpecification, addedNames, changedNames, Column.named,
      extractUidText_text h]
  case h_3 old new definition =>
    simp [collectedNames, visitAlterSpecification, addedNames, changedNames, name_columnOf,
      extractUidText_text h.1, extractUidText_text h.2]
  case h_4 column definition =>
    simp [collectedNames, visitAlterSpecification, addedNames, changedNames, name_columnOf,
      extractUidText_text h]
  case h_5 column =>
    -- Names are not empty, so the visitor keeps the name.
    simp [collectedNames, visitAlterSpecification, addedNames, changedNames,
      extractUidText_text h, column.nonempty]
  case h_6 => simp [collectedNames, visitAlterSpecification, addedNames, changedNames]
  case h_7 => exact absurd h id

variable (mods : List (Bytes × Column)) (columns : List ColumnInfo)

lemma collectedNames_foldl {specs : List AlterSpec} (h : ∀ spec ∈ specs, spec.Followed) :
    collectedNames ((specs.map tree).foldl visitAlterSpecification changes) =
      ((collectedNames changes).1 ++ addedNames specs,
        (collectedNames changes).2.1 ++ specs.filterMap dropped,
        (collectedNames changes).2.2 ++ changedNames specs) := by
  induction specs generalizing changes with
  | nil => simp [addedNames, changedNames]
  | cons spec specs ih =>
    obtain ⟨hspec, hrest⟩ := forall_mem_cons.mp h
    have hcons : ∀ f : AlterSpec → Option Bytes,
        (spec :: specs).filterMap f = [spec].filterMap f ++ specs.filterMap f :=
      fun f => filterMap_append (l := [spec])
    rw [map_cons, foldl_cons, ih _ hrest,
      collectedNames_visitAlterSpecification changes hspec, hcons]
    simp [addedNames, changedNames, ← map_append, ← filterMap_append]

/-! ## Altered columns -/

lemma map_name_eraseP (name : Bytes) :
    (columns.eraseP fun c => c.name = name).map ColumnInfo.name =
      (columns.map ColumnInfo.name).erase name := by
  have hname : (fun c : ColumnInfo => decide (c.name = name)) = (· == name) ∘ ColumnInfo.name := by
    ext c
    rw [Function.comp_apply, Bool.eq_iff_iff, decide_eq_true_iff, beq_iff_eq]
  rw [erase_eq_eraseP', eraseP_map, hname]

lemma map_name_replaceColumn (name : Bytes) (col : ColumnInfo) :
    (Runtime.replaceColumn columns name col).map ColumnInfo.name =
      (columns.map ColumnInfo.name).replace name col.name := by
  induction columns with
  | nil => rfl
  | cons c columns ih =>
    rw [Runtime.replaceColumn, map_cons, replace_cons]
    by_cases heq : c.name = name
    · simp [heq]
    · have hbeq : (name == c.name) = false := beq_false_of_ne (Ne.symm heq)
      simp [heq, hbeq, ih]

lemma map_name_foldl_eraseP (names : List Bytes) (columns : List ColumnInfo) :
    (names.foldl (fun columns name => columns.eraseP fun c => c.name = name) columns).map
      ColumnInfo.name = names.foldl List.erase (columns.map ColumnInfo.name) :=
  (foldl_hom _ fun columns name => (map_name_eraseP columns name).symm).symm

lemma map_name_foldl_replaceColumn :
    (mods.foldl (fun columns (name, col) =>
        Runtime.replaceColumn columns name (rt.convertToEventColumn col)) columns).map
          ColumnInfo.name =
      mods.foldl (fun names change => names.replace change.1 change.2.name)
        (columns.map ColumnInfo.name) :=
  (foldl_hom _ fun columns change =>
    (map_name_replaceColumn columns change.1 (rt.convertToEventColumn change.2)).symm).symm

lemma map_name_applyAlterChanges :
    (rt.applyAlterChanges t changes).columns.map name =
      (collectedNames changes).2.2.foldl (fun names change => names.replace change.1 change.2)
        ((collectedNames changes).2.1.foldl List.erase
          (t.columns.map name ++ (collectedNames changes).1)) := by
  have hadded : (t.columns ++ changes.addedColumns.map rt.convertToEventColumn).map
      name = t.columns.map name ++ (collectedNames changes).1 := by
    rw [map_append, List.map_map]
    rfl
  rw [Runtime.applyAlterChanges, map_name_foldl_replaceColumn, map_name_foldl_eraseP, hadded,
    collectedNames, foldl_map]

/-- An `ALTER TABLE` that can be followed on a table: each part can, the columns are spelled as in
the table, and none gets the name of a column that is changed later. -/
structure AlterFollowed (columns : List Bytes) (specs : List AlterSpec) : Prop where
  each : ∀ spec ∈ specs, spec.Followed
  spelled : ∀ name ∈ namedColumns specs, name ∈ columns
  later : (changedNames specs).Pairwise fun change later => change.2 ≠ later.1

lemma AlterSpec.Followed.placed (h : spec.Followed) {name : Bytes} {place : Place}
    (hplaced : (name, place) ∈ spec.placed) : place = .unsaid := by
  unfold Followed at h
  split at h <;> simp_all

lemma AlterSpec.Followed.changed (h : spec.Followed) {old new : Bytes} {place : Place}
    (hchanged : spec.changed = some (old, new, place)) : place = .unsaid := by
  unfold Followed at h
  split at h <;> simp_all

lemma foldlM_insertColumn (fold : Bytes → Bytes) {placed : List (Bytes × Place)}
    (h : ∀ p ∈ placed, p.2 = .unsaid) (columns : List Bytes) :
    placed.foldlM (insertColumn fold) columns = some (columns ++ placed.map Prod.fst) := by
  induction placed generalizing columns with
  | nil => simp
  | cons p placed ih =>
    obtain ⟨hp, hrest⟩ := forall_mem_cons.mp h
    obtain ⟨name, place⟩ := p
    obtain rfl : place = .unsaid := hp
    change placed.foldlM (insertColumn fold) (columns ++ [name]) = _
    rw [ih hrest, map_cons, append_assoc, singleton_append]

namespace AlterFollowed

variable {fold : Bytes → Bytes} {columns : List Bytes} {specs : List AlterSpec}
  (h : AlterFollowed columns specs) (hnodup : (columns.map fold).Nodup)
include h hnodup

/-- What becomes of a column: with exact spelling the folding makes no difference. -/
lemma keptColumn_eq {column : Bytes} (hcolumn : column ∈ columns) :
    keptColumn fold specs column =
      if column ∈ specs.filterMap dropped then none
      else some (renamed (changedNames specs) column) := by
  have hsame : ∀ name ∈ namedColumns specs, fold name = fold column ↔ name = column :=
    fun name hname => ⟨inj_on_of_nodup_map hnodup (h.spelled name hname) hcolumn, congrArg fold⟩
  have hdropped : ((specs.filterMap dropped).any fun name => fold name = fold column) =
      true ↔ column ∈ specs.filterMap dropped := by
    rw [List.any_eq_true]
    constructor
    · rintro ⟨name, hname, heq⟩
      rw [decide_eq_true_iff, hsame name (mem_append_left _ hname)] at heq
      exact heq ▸ hname
    · exact fun hmem => ⟨column, hmem, decide_eq_true rfl⟩
  have hfind :
      (specs.filterMap changed).find? (fun change => fold change.1 = fold column) =
        (specs.filterMap changed).find? (fun change => change.1 = column) := by
    rw [← head?_filter, ← head?_filter]
    refine congrArg List.head? (filter_congr fun change hchange => decide_eq_decide.mpr ?_)
    exact hsame _ (mem_append_right _ (List.mem_map_of_mem hchange))
  rw [keptColumn]
  split_ifs with hany hmem hmem
  · rfl
  · exact absurd (hdropped.mp hany) hmem
  · exact absurd (hdropped.mpr hmem) hany
  · rw [hfind, renamed, changedNames, find?_map, Function.comp_def]
    rcases hchange : (specs.filterMap changed).find? fun change => change.1 = column with
      _ | ⟨old, new, place⟩
    · simp [hchange]
    · obtain ⟨spec, hspec, hchanged⟩ := mem_filterMap.mp (mem_of_find?_eq_some hchange)
      obtain rfl := (h.each spec hspec).changed hchanged
      simp [hchange]

variable {names : List Bytes} (hexec : alterColumns fold columns specs = some names)
include hexec

lemma alterColumns_eq :
    (namedColumns specs).Nodup ∧
      names = (columns.filter fun c => c ∉ specs.filterMap dropped).map
        (renamed (changedNames specs)) ++ addedNames specs := by
  rw [alterColumns] at hexec
  split_ifs at hexec with hnamed
  refine ⟨hnamed.2.of_map, ?_⟩
  have hplaced : ∀ p ∈ specs.flatMap placed, p.2 = .unsaid := by
    intro p hp
    obtain ⟨spec, hspec, hmem⟩ := mem_flatMap.mp hp
    exact (h.each spec hspec).placed hmem
  have hkept : columns.filterMap (keptColumn fold specs) =
      (columns.filter fun c => c ∉ specs.filterMap dropped).map (renamed (changedNames specs)) := by
    rw [filterMap_congr fun c hc => h.keptColumn_eq hnodup hc, ← filterMap_eq_map, filterMap_filter]
    refine filterMap_congr fun c _ => ?_
    by_cases hmem : c ∈ specs.filterMap dropped
    · simp [hmem]
    · simp [hmem]
  rw [foldlM_insertColumn fold hplaced, hkept] at hexec
  exact (Option.some.inj hexec).symm

/-- `ApplyDDL` gives the table the columns that the server has. -/
theorem map_name_visitAlterTable (rt : Runtime) {t : TableInfo}
    (ht : t.columns.map name = columns) {changes : TableChanges}
    (hchanges : collectedNames changes = ([], [], [])) :
    (rt.applyAlterChanges t ((specs.map tree).foldl visitAlterSpecification
      changes)).columns.map name = names := by
  obtain ⟨hnamed, rfl⟩ := h.alterColumns_eq hnodup hexec
  obtain ⟨hdropped, hchanged, hdisjoint⟩ := nodup_append.mp hnamed
  have hcolumns : columns.Nodup := hnodup.of_map
  rw [map_name_applyAlterChanges, collectedNames_foldl changes h.each, hchanges, ht]
  rw [nil_append, nil_append, nil_append, foldl_erase_append _ hcolumns hdropped
      fun name hname => h.spelled name (mem_append_left _ hname)]
  -- The columns that are changed are not dropped.
  refine foldl_replace_append _ (hcolumns.filter _) ?_ ?_ h.later
  · rwa [changedNames, List.map_map]
  · intro change hchange
    have hold : change.1 ∈ (specs.filterMap changed).map Prod.fst := by
      obtain ⟨triple, htriple, rfl⟩ := List.mem_map.mp hchange
      exact List.mem_map_of_mem htriple
    refine mem_filter.mpr ⟨h.spelled _ (mem_append_right _ hold), decide_eq_true ?_⟩
    exact fun hmem => hdisjoint _ hmem _ hold rfl

end AlterFollowed

end DataStream.Source.MySQL
