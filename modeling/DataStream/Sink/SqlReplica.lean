import DataStream.Sink.HashDispatcher
import DataStream.Sink.SourceTable
import DataStream.Sink.SqlText

/-!
# A SQL sink reproduces the source table

The changes of a table with a primary key are written to a table that starts with the same rows.
Every change carries full row images. The statements are executed by the meaning of SQL on keyed
tables, from the texts and the arguments that the connectors build, for any iteration order of the
Go maps.

* `replicates`: after every valid history the target has the rows of the source.
-/

namespace DataStream.Sink

open Event Sql List Option Function ChangeEvent Statement

/-! ## The target -/

namespace SqlSink

variable (sink : SqlSink)

/-- Write an event to a database; `none` is an error. -/
def deliverEvent (db : Database GoValue) (order : List Bytes → List Bytes) (e : ChangeEvent) :
    Option (Database GoValue) :=
  match sink.request order e with
  | .nothing => some db
  | .exec query => db.exec sink.dialect .nil query.text query.args
  | .reject _ | .overflow => none

/-- Write events, each with the iteration order of its maps. -/
def deliver (db : Database GoValue) (events : List ((List Bytes → List Bytes) × ChangeEvent)) :
    Option (Database GoValue) :=
  events.foldlM (fun db p => sink.deliverEvent db p.1 p.2) db

end SqlSink

/-! ## Images -/

section Images

variable {src : SourceTable} {r : RowData}

lemma SourceTable.unquoted_key (src : SourceTable) {d : Dialect}
    (hcolumns : Unquoted d src.columns) : Unquoted d src.key :=
  fun col hcol => hcolumns col (src.key_subset hcol)

variable {keyColumns : List Bytes}

lemma keyValues_of_isSome (h : ∀ col ∈ keyColumns, (r.getField col).isSome) :
    keyValues r keyColumns = .ok (keyOf keyColumns (rowOf r)) := by
  induction keyColumns with
  | nil => rfl
  | cons col keyColumns ih =>
    obtain ⟨hcol, hrest⟩ := forall_mem_cons.mp h
    obtain ⟨field, hfield⟩ := isSome_iff_exists.mp hcol
    have hvalue : rowOf r col = field.value := by
      rw [rowOf, RowData.get, hfield]
      rfl
    simp only [keyValues, hfield, ih hrest, keyOf, map_cons, hvalue]
    rfl

lemma keyValues_of_missing {col : Bytes} (hmem : col ∈ keyColumns) (hcol : r.getField col = none) :
    ∃ err, keyValues r keyColumns = .error err := by
  induction keyColumns with
  | nil => exact absurd hmem not_mem_nil
  | cons keyCol keyColumns ih =>
    rw [keyValues]
    rcases hfield : r.getField keyCol with _ | field
    · exact ⟨_, rfl⟩
    · -- The first column is there, so the missing one comes later.
      have hne : col ≠ keyCol := by
        rintro rfl
        rw [hcol] at hfield
        cases hfield
      obtain ⟨err, herr⟩ := ih ((mem_cons.mp hmem).resolve_left hne)
      exact ⟨err, by rw [herr]; rfl⟩

namespace SourceTable.FullImage

variable (h : src.FullImage r)

include h

lemma unquoted_columnNames {order : List Bytes → List Bytes} (horder : IsOrder order)
    {d : Dialect} (hcolumns : Unquoted d src.columns) : Unquoted d (r.columnNames order) :=
  fun col hcol => hcolumns col ((h.columnNames_perm horder).subset hcol)

lemma keyValues_eq {keyColumns : List Bytes} (hkey : keyColumns ⊆ src.columns) :
    keyValues r keyColumns = .ok (keyOf keyColumns (rowOf r)) := by
  refine keyValues_of_isSome fun col hcol => ?_
  obtain ⟨field, hfield, -⟩ := h.getField_eq (hkey hcol)
  rw [hfield]
  rfl

end SourceTable.FullImage

end Images

/-! ## One change -/

namespace SqlSink

variable {sink : SqlSink} {e : ChangeEvent} {columns : List Bytes} {t : Table GoValue}
  {db : Database GoValue} {order : List Bytes → List Bytes}

lemma selfSets_ne_nil (h : columns ≠ []) : selfSets columns ≠ [] := by
  simpa [selfSets] using h

@[simp]
lemma map_fst_selfSets (columns : List Bytes) : (selfSets columns).map Prod.fst = columns := by
  simp [selfSets, comp_def]

lemma onConflict_wf (hne : columns ≠ []) : (sink.onConflict e columns).WF := by
  cases sink with
  | mysql cfg =>
    simp only [onConflict, Mysql.onConflict]
    split_ifs
    · exact ⟨by simp, selfSets_ne_nil hne⟩
    · trivial
  | postgres cfg =>
    simp only [onConflict, Postgres.onConflict]
    split_ifs with _ hkey hcolumns
    · trivial
    · exact List.isEmpty_iff.not.mp hkey
    · refine ⟨?_, selfSets_ne_nil (List.isEmpty_iff.not.mp hcolumns)⟩
      intro hsome
      exact hkey (List.isEmpty_iff.mpr (some.inj hsome))
    · trivial
  | oracle cfg => trivial
  | sqlserver cfg => trivial

lemma suits_onConflict (hkey : t.key = e.table.primaryKeyColumns) (hfits : t.Fits columns) :
    t.Suits sink.replaces (sink.onConflict e columns) := by
  have hisKey : t.IsKey e.table.primaryKeyColumns := by
    rw [← hkey]
    exact ⟨List.Subset.refl _, List.Subset.refl _⟩
  cases sink with
  | mysql cfg =>
    simp only [onConflict, Mysql.onConflict, replaces]
    split_ifs with hupsert
    · have hreplace : lit "upsert" ≠ lit "replace" := by decide
      refine ⟨?_, by simp, ?_⟩
      · simpa [hupsert] using hreplace
      · rw [map_fst_selfSets]
        exact hfits
    · trivial
  | postgres cfg =>
    simp only [onConflict, Postgres.onConflict]
    split_ifs with _ _ _
    · trivial
    · exact ⟨rfl, hisKey⟩
    · refine ⟨rfl, by simpa using hisKey, ?_⟩
      -- The assigned columns are some of those of the insert.
      rw [map_fst_selfSets]
      exact ⟨hfits.1.filter _, fun c hc => hfits.2 c (mem_of_mem_filter hc)⟩
    · trivial
  | oracle cfg => trivial
  | sqlserver cfg => trivial

/-- The sink executes one statement for an event, with as many arguments as placeholders. The table
of a name becomes what the statement makes of it; `none` is an error. -/
def Runs (sink : SqlSink) (db : Database GoValue) (order : List Bytes → List Bytes)
    (e : ChangeEvent) (target : List Bytes) (result : Option (Table GoValue)) : Prop :=
  ∃ query, sink.request order e = .exec query ∧
    (∃ ps, placeholders sink.dialect query.text = some ps ∧ ps.length = query.args.length) ∧
    db.exec sink.dialect .nil query.text query.args = result.map fun t => update db target (some t)

lemma runs_of_statement {query : Query} {st : Statement}
    (hrequest : sink.request order e = .exec query) (hwf : st.WF)
    (hlex : lex sink.dialect query.text = some st.tokens) (horder : InOrder 0 st.params)
    (hlength : st.params.length = query.args.length) (htable : db st.table = some t) :
    sink.Runs db order e st.table (t.exec .nil query.args st) :=
  ⟨query, hrequest, ⟨st.params, (parse_of_lex hwf hlex).2, hlength⟩,
    Database.exec_of_lex hwf hlex horder hlength htable⟩

lemma Runs.deliverEvent_eq {target : List Bytes} {result : Option (Table GoValue)}
    (h : sink.Runs db order e target result) :
    sink.deliverEvent db order e = result.map fun t => update db target (some t) := by
  obtain ⟨query, hrequest, -, hexec⟩ := h
  rw [deliverEvent, hrequest]
  exact hexec

lemma getKeyColumns_eq {src : SourceTable} (h : e.table = src.info) :
    e.table.getKeyColumns = src.key := by
  have hkey : src.info.hasPrimaryKey = true := by
    simpa [TableInfo.hasPrimaryKey] using src.key_ne_nil
  rw [h, TableInfo.getKeyColumns, if_pos hkey]

section Requests

variable {order : List Bytes → List Bytes}

lemma request_insert (h : e.type = .insert) :
    sink.request order e = sink.executeInsert order e := by
  simp [request, isDDL, isDataEvent, writeDataEvent, h]

lemma request_update (h : e.type = .update) :
    sink.request order e = sink.style.executeUpdate (sink.tableText e) order e := by
  rw [← executeUpdate_eq]
  simp [request, isDDL, isDataEvent, writeDataEvent, h]

lemma request_delete (h : e.type = .delete) :
    sink.request order e = sink.style.executeDelete (sink.tableText e) e := by
  rw [← executeDelete_eq]
  simp [request, isDDL, isDataEvent, writeDataEvent, h]

end Requests

lemma runs_updateStatement {keyColumns : List Bytes}
    (htarget : Unquoted sink.dialect (sink.target e.table))
    (hdb : db (sink.target e.table) = some t) (htype : e.type = .update)
    (hkey : e.table.getKeyColumns = keyColumns) (hne : keyColumns ≠ [])
    (hkeyNames : Unquoted sink.dialect keyColumns)
    (hkeys : keyValues e.before keyColumns = .ok (keyOf keyColumns (rowOf e.before)))
    (hcolumns : e.after.columnNames order ≠ [])
    (hnames : Unquoted sink.dialect (e.after.columnNames order)) :
    sink.Runs db order e (sink.target e.table) (t.exec .nil
      ((e.after.columnNames order).map (rowOf e.after) ++ keyOf keyColumns (rowOf e.before))
      (.update (sink.target e.table)
        (numberedEquations sink.dialect 1 (e.after.columnNames order))
        (numberedEquations sink.dialect ((e.after.columnNames order).length + 1) keyColumns))) := by
  have hlex := sink.style_in.lex_updateText (sink.lex_tableText htarget) hnames hkeyNames
    (e.after.columnNames order).length
  have hrequest : sink.request order e = _ :=
    (request_update htype).trans (SqlStyle.executeUpdate_eq hkey hne hkeys hcolumns)
  refine runs_of_statement hrequest ?_ hlex ?_ ?_ hdb
  · refine ⟨target_ne_nil _ _, ?_, ?_⟩
    · exact ne_nil_of_length_pos (by simpa using length_pos_iff.mpr hcolumns)
    · exact ne_nil_of_length_pos (by simpa using length_pos_iff.mpr hne)
  · -- The placeholders of the condition go on counting after those of the assignments.
    rw [params, inOrder_append, length_map, length_numberedEquations, Nat.zero_add]
    exact ⟨inOrder_numberedEquations _ 0 _, inOrder_numberedEquations _ _ _⟩
  · simp [params, columnValues, keyOf]

section Step

variable {src : SourceTable} {rows : List (Row GoValue)} {db : Database GoValue}
  {order : List Bytes → List Bytes}
  (htarget : Unquoted sink.dialect (sink.target src.info))
  (hcolumns : Unquoted sink.dialect src.columns)
  (hdb : db (sink.target src.info) = some (src.table rows)) (htable : e.table = src.info)

include htarget hcolumns hdb htable

lemma runs_insert (horder : IsOrder order) (hcopy : sink.TakesInsert src.columns.length)
    (htype : e.type = .insert) (hfull : src.FullImage e.after) :
    sink.Runs db order e (sink.target src.info) ((src.table rows).insertRow .nil sink.replaces
      (sink.onConflict e (e.after.columnNames order)) (rowOf e.after)) := by
  have hne := hfull.columnNames_ne_nil horder
  have hkey : e.table.primaryKeyColumns = src.key := by rw [htable]
  -- The text stands for an insert whose values are those of the image, in the same order.
  have hlex := lex_insertText hne (hfull.unquoted_columnNames horder hcolumns)
    (hkey ▸ src.unquoted_key hcolumns) (htable ▸ htarget)
  rw [htable] at hlex
  rw [← (hfull.columnNames_perm horder).length_eq] at hcopy
  rw [← Table.exec_insert_eq (sink.target src.info) (hfull.fits_columnNames horder rows)
    (numbers sink.dialect (e.after.columnNames order))
    fun _ hx => hfull.rowOf_eq_nil fun hmem => hx (hfull.mem_columnNames horder hmem)]
  apply runs_of_statement ((request_insert htype).trans (executeInsert_eq hcopy hne)) _ hlex _ _ hdb
  · exact ⟨target_ne_nil _ _, hne, by simpa [numbers] using hne, onConflict_wf hne⟩
  · rw [params, numbers_eq]
    exact inOrder_numberedEquations _ 0 _
  · simp [params, numbers, columnValues]

lemma runs_update (hrows : src.Holds rows) (horder : IsOrder order) (htype : e.type = .update)
    (hbefore : src.FullImage e.before) (hafter : src.FullImage e.after) :
    sink.Runs db order e (sink.target src.info) ((src.table rows).withRows .nil
      (replaceKey src.key (keyOf src.key (rowOf e.before)) (rowOf e.after) rows)) := by
  have hsets := map_fst_numberedEquations sink.dialect 1 (e.after.columnNames order)
  have hfits : (src.table rows).Fits
      ((numberedEquations sink.dialect 1 (e.after.columnNames order)).map Prod.fst) := by
    rw [hsets]
    exact hafter.fits_columnNames horder rows
  -- Outside of the columns of the table, old and new rows are null.
  have hother : ∀ r ∈ rows, ∀ x,
      x ∉ (numberedEquations sink.dialect 1 (e.after.columnNames order)).map Prod.fst →
      r x = rowOf e.after x := by
    intro r hr x hx
    rw [hsets] at hx
    have hx' : x ∉ src.columns := fun hmem => hx (hafter.mem_columnNames horder hmem)
    rw [hrows.columns r hr x hx', hafter.rowOf_eq_nil hx']
  have hexec := Table.exec_update_eq (t := src.table rows) (sink.target src.info) hrows.valid
    (map_fst_numberedEquations sink.dialect ((e.after.columnNames order).length + 1) src.key)
    src.key_subset hfits (rowOf e.before) hother
  rw [hsets] at hexec
  have hruns := runs_updateStatement (htable ▸ htarget) (htable ▸ hdb) htype
    (getKeyColumns_eq htable) src.key_ne_nil (src.unquoted_key hcolumns)
    (hbefore.keyValues_eq src.key_subset) (hafter.columnNames_ne_nil horder)
    (hafter.unquoted_columnNames horder hcolumns)
  rw [htable] at hruns
  exact Eq.mp (congrArg _ hexec) hruns

lemma runs_delete (hrows : src.Holds rows) (htype : e.type = .delete)
    (hbefore : src.FullImage e.before) :
    sink.Runs db order e (sink.target src.info)
      (some (src.table (removeKey src.key (keyOf src.key (rowOf e.before)) rows))) := by
  have hlex := sink.style_in.lex_deleteText (sink.lex_tableText (htable ▸ htarget))
    (src.unquoted_key hcolumns)
  rw [htable] at hlex
  have hrequest : sink.request order e = _ := (request_delete htype).trans
    (SqlStyle.executeDelete_eq (getKeyColumns_eq htable) src.key_ne_nil
      (hbefore.keyValues_eq src.key_subset))
  have hexec := Table.exec_delete (sink.target src.info) hrows.valid
    (map_fst_numberedEquations sink.dialect 1 src.key) src.key_subset (rowOf e.before)
  refine Eq.mp (congrArg _ hexec) (runs_of_statement hrequest ?_ hlex ?_ ?_ hdb)
  · refine ⟨target_ne_nil _ _, ?_⟩
    exact ne_nil_of_length_pos (by simpa using length_pos_iff.mpr src.key_ne_nil)
  · exact inOrder_numberedEquations _ 0 _
  · simp [params, keyOf]

/-- One valid change has the same effect on the target as on the source. -/
theorem runs_change (hrows : src.Holds rows) (horder : IsOrder order)
    (hcopy : e.type = .insert → sink.TakesInsert src.columns.length)
    (hvalid : src.ValidChange rows e) :
    sink.Runs db order e (sink.target src.info) (some (src.table (src.change rows e))) := by
  -- The three kinds of changes; a valid change is of one of them.
  have hchange := hvalid.2
  unfold SourceTable.change
  cases htype : e.type with
  | insert =>
    rw [htype] at hchange
    obtain ⟨hfull, hnull, hnew⟩ := hchange
    have hkey : e.table.primaryKeyColumns = src.key := by rw [htable]
    have hsuits : (src.table rows).Suits sink.replaces
        (sink.onConflict e (e.after.columnNames order)) :=
      suits_onConflict hkey.symm (hfull.fits_columnNames horder rows)
    have hruns := runs_insert htarget hcolumns hdb htable horder (hcopy htype) htype hfull
    rwa [Table.insertRow_of_new hrows.valid hsuits hnull hnew] at hruns
  | update =>
    rw [htype] at hchange
    obtain ⟨hbefore, hafter, hmem, hnull, hnew⟩ := hchange
    have hruns := runs_update htarget hcolumns hdb htable hrows horder htype hbefore hafter
    have hwith : (src.table rows).withRows .nil
        (replaceKey src.key (keyOf src.key (rowOf e.before)) (rowOf e.after) rows) =
        some (src.table (replaceKey src.key (keyOf src.key (rowOf e.before)) (rowOf e.after)
          rows)) :=
      Table.withRows_of_valid (hrows.valid.replace hnull hnew)
    rwa [hwith] at hruns
  | delete =>
    rw [htype] at hchange
    obtain ⟨hbefore, hmem⟩ := hchange
    exact runs_delete htarget hcolumns hdb htable hrows htype hbefore
  | _ =>
    rw [htype] at hchange
    exact hchange.elim

end Step

end SqlSink

/-! ## Histories -/

namespace SqlSink

/-- A valid history, one change at a time: the target has the rows of the source before and after
each. -/
lemma deliver_history {sink : SqlSink} {src : SourceTable}
    (htarget : Unquoted sink.dialect (sink.target src.info))
    (hcolumns : Unquoted sink.dialect src.columns)
    {history : List ((List Bytes → List Bytes) × ChangeEvent)}
    (hcopy : ∀ p ∈ history, p.2.type = .insert → sink.TakesInsert src.columns.length)
    (horders : ∀ p ∈ history, IsOrder p.1) {rows : List (Row GoValue)} (hrows : src.Holds rows)
    (hvalid : src.ValidHistory rows (history.map Prod.snd)) {db : Database GoValue}
    (hdb : db (sink.target src.info) = some (src.table rows)) :
    (∀ p ∈ history, ∀ query, sink.request p.1 p.2 = .exec query →
      ∃ ps, placeholders sink.dialect query.text = some ps ∧ ps.length = query.args.length) ∧
    ∃ db', sink.deliver db history = some db' ∧
      db' (sink.target src.info) = some (src.table (src.changes rows (history.map Prod.snd))) := by
  induction history generalizing rows db with
  | nil => exact ⟨by simp, db, rfl, hdb⟩
  | cons p history ih =>
    obtain ⟨hchange, hrest⟩ := hvalid
    obtain ⟨query, hrequest, hcount, hexec⟩ := runs_change htarget hcolumns hdb hchange.1 hrows
      (horders p mem_cons_self) (hcopy p mem_cons_self) hchange
    obtain ⟨hcounts, db', hdeliver, hdb'⟩ := ih
      (fun p' hp' => hcopy p' (mem_cons_of_mem _ hp'))
      (fun p' hp' => horders p' (mem_cons_of_mem _ hp')) (hrows.change hchange) hrest
      (update_self _ _ _)
    refine ⟨?_, db', ?_, hdb'⟩
    · -- Every statement is that of the first event or of a later one.
      intro p' hp' query' hquery'
      rcases mem_cons.mp hp' with rfl | hp'
      · rw [hrequest] at hquery'
        cases hquery'
        exact hcount
      · exact hcounts p' hp' query' hquery'
    · rw [deliver, foldlM_cons, deliverEvent, hrequest]
      simp only [hexec]
      exact hdeliver

/-- After every valid history, from a target with the rows of the source, every statement had as
many arguments as placeholders, and the target has the rows of the source. -/
theorem replicates (sink : SqlSink) (hcopy : sink.CopyOff) (src : SourceTable)
    (htarget : Unquoted sink.dialect (sink.target src.info))
    (hcolumns : Unquoted sink.dialect src.columns)
    (history : List ((List Bytes → List Bytes) × ChangeEvent))
    (horders : ∀ p ∈ history, IsOrder p.1) (rows : List (Row GoValue)) (hrows : src.Holds rows)
    (hvalid : src.ValidHistory rows (history.map Prod.snd)) (db : Database GoValue)
    (hdb : db (sink.target src.info) = some (src.table rows)) :
    (∀ p ∈ history, ∀ query, sink.request p.1 p.2 = .exec query →
      ∃ ps, placeholders sink.dialect query.text = some ps ∧ ps.length = query.args.length) ∧
    ∃ db', sink.deliver db history = some db' ∧
      db' (sink.target src.info) = some (src.table (src.changes rows (history.map Prod.snd))) :=
  deliver_history htarget hcolumns (fun _ _ _ => hcopy.takesInsert _) horders hrows hvalid hdb

/-- The table `users` with the columns `id` and `name`. -/
def usersSource : SourceTable where
  info := usersTable
  columns := [lit "id", lit "name"]
  columns_nodup := by decide
  key_ne_nil := by decide
  key_subset := by decide

/-- A PostgreSQL sink that writes inserts as upserts. -/
def upsertSink : SqlSink := .postgres
  { insertStrategy := lit "upsert"
    useTransaction := true
    useCopy := false
    ddlPolicy := lit "apply"
    defaultSchema := lit "public" }

/-- An insert of a user, and an update that changes the key. -/
def usersHistory : List ((List Bytes → List Bytes) × ChangeEvent) :=
  [(id, userInsert 1 (lit "ann")), (List.reverse, userUpdate 1 (lit "ann") 2 (lit "eve"))]

/-- An insert of a user, and an update that changes the name. -/
def renameHistory : List ((List Bytes → List Bytes) × ChangeEvent) :=
  [(id, userInsert 1 (lit "ann")), (List.reverse, userUpdate 1 (lit "ann") 1 (lit "eve"))]

lemma isOrder_of_mem_pair {e e' : ChangeEvent} :
    ∀ p ∈ [((id : List Bytes → List Bytes), e), (List.reverse, e')], IsOrder p.1 := by
  intro p hp
  rcases mem_pair.mp hp with rfl | rfl
  · exact fun names => List.Perm.refl names
  · exact fun names => reverse_perm names

lemma usersHistory_valid : usersSource.ValidHistory [] (usersHistory.map Prod.snd) := by
  refine ⟨⟨rfl, List.Perm.refl _, by decide, by simp [SourceTable.KeyIsNew]⟩,
    ⟨rfl, List.Perm.refl _, List.Perm.refl _, mem_singleton.mpr rfl, by decide, Or.inr ?_⟩, trivial⟩
  intro row hrow
  rw [mem_singleton.mp hrow]
  decide

lemma renameHistory_valid : usersSource.ValidHistory [] (renameHistory.map Prod.snd) :=
  ⟨⟨rfl, List.Perm.refl _, by decide, by simp [SourceTable.KeyIsNew]⟩,
    ⟨rfl, List.Perm.refl _, List.Perm.refl _, mem_singleton.mpr rfl, by decide,
      Or.inl (by decide)⟩, trivial⟩

/-- The upserts of a user and of a change of key, into an empty table. -/
theorem replicates_usersHistory :
    ∃ db', upsertSink.deliver (fun _ => some (usersSource.table [])) usersHistory = some db' ∧
      db' [lit "public", lit "users"] = some (usersSource.table
        (usersSource.changes [] (usersHistory.map Prod.snd))) := by
  have hcolumns : Unquoted upsertSink.dialect usersSource.columns := by decide
  have htarget : Unquoted upsertSink.dialect (upsertSink.target usersSource.info) := by
    decide
  exact (replicates upsertSink rfl usersSource htarget hcolumns usersHistory isOrder_of_mem_pair []
    usersSource.holds_nil usersHistory_valid _ rfl).2

end SqlSink

end DataStream.Sink
