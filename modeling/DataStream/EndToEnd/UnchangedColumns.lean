import DataStream.Sink.SqlReplica
import DataStream.Source.Postgres.Images

/-!
# Unchanged columns on the way to a SQL sink

PostgreSQL does not send a large value that an update leaves alone; the tuple marks the column as
unchanged. The row image has such a column with a nil value, and the sink assigns every column of
the image, so the statement sets it to null.

* `leavesUnchanged_iff`: when the unchanged columns keep their values.
-/

namespace DataStream.EndToEnd

open Event Sql Sink Source.Postgres List Option Function GoMap SqlSink Handler

/-! ## The rows that an update writes -/

/-- A row has the values of some entries in the columns of a key, none of them null. -/
def Addressed (key : List Bytes) (old : List (Bytes × GoValue)) (r : Row GoValue) : Prop :=
  ∀ col ∈ key, get? old col = some (r col) ∧ r col ≠ .nil
  deriving Decidable

/-- A row with the values of some entries. -/
def overlay (new : List (Bytes × GoValue)) (r : Row GoValue) : Row GoValue :=
  fun col => (get? new col).getD (r col)

/-- Rows with the values of new entries in those that old entries address. -/
def overwrite (key : List Bytes) (old new : List (Bytes × GoValue)) (rows : List (Row GoValue)) :
    List (Row GoValue) :=
  rows.map fun r => if Addressed key old r then overlay new r else r

/-- A table takes the statement that assigns new entries to the rows with a key. -/
structure Takes (t : Table GoValue) (key : List Bytes) (old new : List (Bytes × GoValue)) :
    Prop where
  columns : ∀ col ∈ new.map Prod.fst, col ∈ t.columns
  key_ne_nil : key ≠ []
  key_mem : ∀ col ∈ key, col ∈ t.columns ∧ (get? old col).isSome
  /-- The statement leaves no two rows with one primary key, and none with a null in it. -/
  valid : Table.Valid .nil { t with rows := overwrite key old new t.rows }

/-- Two tables agree in some columns, row by row. -/
def AgreeIn (columns : List Bytes) (t t' : Table GoValue) : Prop :=
  List.Forall₂ (fun r r' => ∀ col ∈ columns, r' col = r col) t.rows t'.rows

section Statement

variable {sink : SqlSink} {e : ChangeEvent} {order : List Bytes → List Bytes}
  {db : Database GoValue} {t : Table GoValue} {old new : List (Bytes × GoValue)}

/-- The images of an event have given entries. -/
structure Images (e : ChangeEvent) (old new : List (Bytes × GoValue)) : Prop where
  before : ∀ col, e.before.get col = get? old col
  after : ∀ col, e.after.get col = get? new col
  columns : (e.after.entries.map Prod.fst).Perm (new.map Prod.fst)
  nodup : (new.map Prod.fst).Nodup

lemma map_assign_eq (himages : Images e old new) (horder : IsOrder order) {key : List Bytes}
    (hkey : ∀ col ∈ key, (get? old col).isSome) (rows : List (Row GoValue)) :
    (rows.map fun r =>
      if Table.selects .nil key (keyOf key (rowOf e.before)) r then
        assign (e.after.columnNames order) ((e.after.columnNames order).map (rowOf e.after)) r
      else r) = overwrite key old new rows := by
  refine map_congr_left fun r _ => if_congr ?_ ?_ rfl
  · -- The condition compares with the old values, which are all there.
    rw [selects_keyOf, keyOf_eq_iff, Addressed]
    simp only [keyOf, List.mem_map, not_exists, not_and]
    rw [← forall₂_and]
    refine forall₂_congr fun col hcol => ?_
    obtain ⟨v, hv⟩ := isSome_iff_exists.mp (hkey col hcol)
    have hrow : rowOf e.before col = v := by rw [rowOf, himages.before, hv, getD_some]
    rw [hrow, hv, some.injEq]
    constructor
    · rintro ⟨rfl, hne⟩
      exact ⟨rfl, hne⟩
    · rintro ⟨rfl, hne⟩
      exact ⟨rfl, hne⟩
  · ext col
    have hmem : col ∈ e.after.columnNames order ↔ col ∈ new.map Prod.fst :=
      ((horder _).trans himages.columns).mem_iff
    rw [assign_map, overlay]
    split_ifs with hcol
    · obtain ⟨v, hv⟩ := ne_none_iff_exists'.mp (get?_eq_none_iff.not_left.mpr (hmem.mp hcol))
      rw [rowOf, himages.after, hv]
      rfl
    · rw [get?_eq_none_iff.mpr (hmem.not.mp hcol)]
      rfl

lemma deliverEvent_update_nil (himages : Images e old []) (horder : IsOrder order)
    (htype : e.type = .update) : sink.deliverEvent db order e = some db := by
  have hcolumns : e.after.columnNames order = [] := ((horder _).trans himages.columns).eq_nil
  have hrequest : sink.request order e = .nothing := by
    rw [request_update htype, SqlStyle.executeUpdate]
    simp only [if_pos (List.isEmpty_iff.mpr hcolumns)]
  rw [deliverEvent, hrequest]

lemma takes_iff (himages : Images e old new) {columns key : List Bytes}
    (hperm : columns.Perm (new.map Prod.fst)) (hkey : key ≠ [])
    (hall : ∀ col ∈ key, (get? old col).isSome) :
    Takes t key old new ↔ (t.Fits columns ∧ ∀ col ∈ key, col ∈ t.columns) ∧
      Table.Valid .nil { t with rows := overwrite key old new t.rows } := by
  constructor
  · intro h
    refine ⟨⟨⟨hperm.nodup_iff.mpr himages.nodup, ?_⟩, ?_⟩, h.valid⟩
    · exact fun col hcol => h.columns col (hperm.subset hcol)
    · exact fun col hcol => (h.key_mem col hcol).1
  · rintro ⟨⟨⟨-, hfits⟩, hkeys⟩, hvalid⟩
    exact ⟨fun col hcol => hfits col (hperm.symm.subset hcol), hkey,
      fun col hcol => ⟨hkeys col hcol, hall col hcol⟩, hvalid⟩

/-- What the statement of an update does: nothing without new columns, an error if the target does
not take it, and otherwise the addressed rows are overwritten. -/
theorem deliverEvent_update (himages : Images e old new) (horder : IsOrder order)
    (htype : e.type = .update) (hdb : db (sink.target e.table) = some t)
    (htarget : Unquoted sink.dialect (sink.target e.table))
    (hkeyNames : Unquoted sink.dialect e.table.getKeyColumns)
    (hnames : Unquoted sink.dialect (new.map Prod.fst)) (hnew : new ≠ []) (db' : Database GoValue) :
    sink.deliverEvent db order e = some db' ↔ Takes t e.table.getKeyColumns old new ∧
      db' = update db (sink.target e.table)
        (some { t with rows := overwrite e.table.getKeyColumns old new t.rows }) := by
  have hperm : (e.after.columnNames order).Perm (new.map Prod.fst) :=
    (horder _).trans himages.columns
  have hcolumns : e.after.columnNames order ≠ [] := by
    intro hnil
    rw [hnil] at hperm
    exact hnew (map_eq_nil_iff.mp hperm.nil_eq.symm)
  have hfield : ∀ col, (e.before.getField col).isSome = (get? old col).isSome := by
    intro col
    rw [← himages.before col, RowData.get, isSome_map]
  -- The sink rejects an event without key columns, and one without the old value of such a column.
  have hreject : ∀ {err}, sink.request order e = .reject err →
      sink.deliverEvent db order e ≠ some db' := by
    intro err hrequest
    simp [deliverEvent, hrequest]
  have hbody : sink.request order e = sink.style.executeUpdate (sink.tableText e) order e :=
    request_update htype
  rw [SqlStyle.executeUpdate] at hbody
  simp only [if_neg (List.isEmpty_iff.not.mpr hcolumns)] at hbody
  by_cases hkey : e.table.getKeyColumns = []
  · rw [if_pos (List.isEmpty_iff.mpr hkey)] at hbody
    exact iff_of_false (hreject hbody) fun h => h.1.key_ne_nil hkey
  rw [if_neg (List.isEmpty_iff.not.mpr hkey)] at hbody
  by_cases hall : ∀ col ∈ e.table.getKeyColumns, (get? old col).isSome
  · have hruns := runs_updateStatement htarget hdb htype rfl hkey hkeyNames
      (keyValues_of_isSome fun col hcol => (hfield col).trans (hall col hcol)) hcolumns
      fun col hcol => hnames col (hperm.subset hcol)
    rw [hruns.deliverEvent_eq, map_eq_some_iff]
    have hlength : ((e.after.columnNames order).map (rowOf e.after)).length =
        (numberedEquations sink.dialect 1 (e.after.columnNames order)).length := by
      rw [length_map, length_numberedEquations]
    rw [Table.exec, map_fst_numberedEquations, map_fst_numberedEquations, take_left' hlength,
      drop_left' hlength, map_assign_eq himages horder hall, Table.withRows]
    rw [takes_iff himages hperm hkey hall]
    split_ifs with hfits hvalid
    · rw [and_iff_right ⟨hfits, hvalid⟩]
      simp [eq_comm]
    · simp [hvalid]
    · simp [hfits]
  · push Not at hall
    obtain ⟨col, hcol, hnone⟩ := hall
    have hmissing : e.before.getField col = none := by
      rw [← not_isSome_iff_eq_none, hfield col]
      exact hnone
    obtain ⟨err, herr⟩ := keyValues_of_missing hcol hmissing
    rw [herr] at hbody
    exact iff_of_false (hreject hbody) fun h => hnone (h.1.key_mem col hcol).2

end Statement

/-! ## Update messages -/

/-- A SQL sink that writes an event leaves some columns of the target alone, in every row. -/
def LeavesColumns (sink : SqlSink) (db : Database GoValue) (order : List Bytes → List Bytes)
    (e : ChangeEvent) (columns : List Bytes) : Prop :=
  ∀ t db', db (sink.target e.table) = some t → sink.deliverEvent db order e = some db' →
    ∃ t', db' (sink.target e.table) = some t' ∧ AgreeIn columns t t'

lemma images_of_mem_made {cfg : Config} {env : Env} {currentLSN : UInt64}
    {h : Handler} {relationID : UInt32} {oldTuple newTuple : Option TupleData}
    {relation : RelationMessage} (hrelation : h.relations relationID = some relation)
    (hnames : relation.columnNames.Nodup) {ev : ChangeEvent}
    (hev : ev ∈ (h.handleMessage cfg env currentLSN (.update relationID oldTuple newTuple)).made) :
    ev.type = .update ∧ ev.table = h.getTableInfo cfg relation ∧
      Images ev (tupleEntries relation oldTuple) (tupleEntries relation newTuple) := by
  obtain ⟨relation', images, hrelation', -, himages, rfl⟩ := mem_handleRow_made_iff.mp hev
  obtain rfl := some.inj (hrelation.symm.trans hrelation')
  obtain ⟨before, hbefore, hmap⟩ := bind_eq_some_iff.mp himages
  obtain ⟨after, hafter, rfl⟩ := map_eq_some_iff.mp hmap
  exact ⟨rfl, rfl, get_optionalRow hnames hbefore, get_optionalRow hnames hafter,
    map_fst_entries_perm hnames hafter, nodup_tupleEntries hnames newTuple⟩

/-- Overwriting rows leaves unchanged columns alone exactly if they are null there. -/
lemma agreeIn_overwrite_iff {key columns : List Bytes} {old new : List (Bytes × GoValue)}
    (hnull : ∀ col ∈ columns, get? new col = some .nil) (t : Table GoValue) :
    AgreeIn columns t { t with rows := overwrite key old new t.rows } ↔
      ∀ r ∈ t.rows, Addressed key old r → ∀ col ∈ columns, r col = .nil := by
  rw [AgreeIn, overwrite, forall₂_map_right_iff, forall₂_same]
  refine forall₂_congr fun r _ => ?_
  split_ifs with haddressed
  · rw [imp_iff_right haddressed]
    refine forall₂_congr fun col hcol => ?_
    rw [overlay, hnull col hcol, getD_some, eq_comm]
  · exact iff_of_true (fun _ _ => rfl) fun h => absurd h haddressed

/-- The columns marked as unchanged keep their values in the target exactly if they are null in
every row that the update addresses, or the target does not take the statement. -/
theorem leavesUnchanged_iff (sink : SqlSink) (order : List Bytes → List Bytes)
    (horder : IsOrder order) (cfg : Config) (env : Env) (currentLSN : UInt64)
    (h : Handler) (relationID : UInt32) (oldTuple newTuple : Option TupleData)
    (relation : RelationMessage) (hrelation : h.relations relationID = some relation)
    (hnames : relation.columnNames.Nodup) (ev : ChangeEvent)
    (hev : ev ∈ (h.handleMessage cfg env currentLSN (.update relationID oldTuple newTuple)).made)
    (db : Database GoValue) (t : Table GoValue)
    (hdb : db (sink.target (h.getTableInfo cfg relation)) = some t)
    (htarget : Unquoted sink.dialect (sink.target (h.getTableInfo cfg relation)))
    (hkeyNames : Unquoted sink.dialect (h.getTableInfo cfg relation).getKeyColumns)
    (hquotes : Unquoted sink.dialect relation.columnNames) :
    LeavesColumns sink db order ev (unchangedColumns relation newTuple) ↔
      (Takes t (h.getTableInfo cfg relation).getKeyColumns (tupleEntries relation oldTuple)
          (tupleEntries relation newTuple) →
        ∀ r ∈ t.rows,
          Addressed (h.getTableInfo cfg relation).getKeyColumns (tupleEntries relation oldTuple) r →
          ∀ col ∈ unchangedColumns relation newTuple, r col = .nil) := by
  obtain ⟨htype, htable, himages⟩ := images_of_mem_made hrelation hnames hev
  rw [← htable] at hdb htarget hkeyNames ⊢
  by_cases hnew : tupleEntries relation newTuple = []
  · rw [hnew] at himages
    refine iff_of_true (fun t₀ db' ht₀ hdb' => ?_) fun _ _ _ _ col hcol => ?_
    · rw [deliverEvent_update_nil himages horder htype] at hdb'
      rw [← some.inj hdb']
      exact ⟨t₀, ht₀, forall₂_same.mpr fun _ _ _ _ => rfl⟩
    · -- No column of an empty tuple is marked.
      have hmem := mem_tupleEntries_of_unchanged hcol
      rw [hnew] at hmem
      exact absurd hmem not_mem_nil
  · have hdeliver := deliverEvent_update himages horder htype hdb htarget hkeyNames
      (fun col hcol => hquotes col ((map_fst_tupleEntries relation newTuple).subset hcol)) hnew
    rw [← agreeIn_overwrite_iff (fun col hcol => get?_of_unchanged hnames hcol) t]
    constructor
    · intro hleaves htakes
      obtain ⟨t', ht', hagree⟩ := hleaves t _ hdb ((hdeliver _).mpr ⟨htakes, rfl⟩)
      rw [update_self] at ht'
      rwa [← some.inj ht'] at hagree
    · intro hagree t₀ db' ht₀ hdb'
      obtain rfl := some.inj (hdb.symm.trans ht₀)
      obtain ⟨htakes, rfl⟩ := (hdeliver db').mp hdb'
      exact ⟨_, update_self _ _ _, hagree htakes⟩

/-- A table `public.posts` with the key `id` and a large column `body`. -/
def postsRelation : RelationMessage where
  relationID := 7
  namespaceName := lit "public"
  relationName := lit "posts"
  columns := [{ flags := 2, name := lit "id", dataType := 25 }, textColumn "body",
    textColumn "title"]

def postsHandler : Handler :=
  (newPGOutputHandler none (fun _ => none) none).after captureAll none
    [.sending (.relation postsRelation)]

variable (body : TupleColumn)

/-- The old row, with full replica identity. -/
def oldPost : Option TupleData :=
  some [{ dataType := .text, data := lit "1" }, body, { dataType := .text, data := lit "a" }]

/-- The new row: the title changes, the body is not sent. -/
def newPost : Option TupleData :=
  some [{ dataType := .text, data := lit "1" }, { dataType := .unchanged, data := [] },
    { dataType := .text, data := lit "b" }]

def postsEvent : ChangeEvent :=
  { baseEvent captureAll ((Turn.sending .ignored).env none) 0 7 .update
      (postsHandler.getTableInfo captureAll postsRelation) with
    before := ((optionalRow postsRelation (oldPost body)).getD noRow)
    after := ((optionalRow postsRelation newPost).getD noRow) }

lemma postsEvent_mem_made :
    postsEvent body ∈ (postsHandler.handleMessage captureAll ((Turn.sending .ignored).env none) 0
      (.update 7 (oldPost body) newPost)).made :=
  mem_handleRow_made_iff.mpr ⟨postsRelation, _, rfl, rfl, rfl, rfl⟩

/-- The target table with one row. -/
def postsTable (body : GoValue) : Table GoValue where
  columns := [lit "id", lit "body", lit "title"]
  key := [lit "id"]
  rows := [fun col =>
    if col = lit "id" then .string (lit "1") else if col = lit "title" then .string (lit "a")
    else if col = lit "body" then body else .nil]

theorem leavesUnchanged_nullBody :
    LeavesColumns upsertSink (fun _ => some (postsTable .nil)) id
      (postsEvent { dataType := .null, data := [] }) (unchangedColumns postsRelation newPost) := by
  refine (leavesUnchanged_iff upsertSink id (fun names => List.Perm.refl names) captureAll
    ((Turn.sending .ignored).env none) 0 postsHandler 7 _ newPost postsRelation rfl
    (by decide) _ (postsEvent_mem_made _) _ (postsTable .nil) rfl (by decide)
    (by decide) (by decide)).mpr ?_
  intro _ r hr _ col hcol
  have hbody : col = lit "body" := mem_singleton.mp hcol
  rw [mem_singleton.mp hr, hbody]
  rfl

/-- A body that is not null is lost when the title is changed. -/
theorem not_forall_leavesUnchanged :
    ¬∀ (sink : SqlSink) (order : List Bytes → List Bytes), IsOrder order →
      ∀ (cfg : Config) (env : Env) (currentLSN : UInt64) (h : Handler)
        (relationID : UInt32) (oldTuple newTuple : Option TupleData) (relation : RelationMessage),
      h.relations relationID = some relation → relation.columnNames.Nodup → ∀ ev : ChangeEvent,
      ev ∈ (h.handleMessage cfg env currentLSN (.update relationID oldTuple newTuple)).made →
      ∀ (db : Database GoValue) (t : Table GoValue),
      db (sink.target (h.getTableInfo cfg relation)) = some t →
      LeavesColumns sink db order ev (unchangedColumns relation newTuple) := by
  intro hall
  have hnames : postsRelation.columnNames.Nodup := by decide
  let body : TupleColumn := { dataType := .text, data := lit "text" }
  let t := postsTable (.string (lit "text"))
  have hleaves := hall upsertSink id (fun names => List.Perm.refl names) captureAll
    ((Turn.sending .ignored).env none) 0 postsHandler 7 (oldPost body) newPost postsRelation rfl
    hnames _ (postsEvent_mem_made body) (fun _ => some t) t rfl
  obtain ⟨htype, htable, himages⟩ := images_of_mem_made rfl hnames (postsEvent_mem_made body)
  have htakes : Takes t (postsEvent body).table.getKeyColumns (tupleEntries postsRelation
      (oldPost body)) (tupleEntries postsRelation newPost) :=
    ⟨by decide, by decide, by decide, by decide⟩
  obtain ⟨t', ht', hagree⟩ := hleaves t _ rfl
    ((deliverEvent_update himages (fun names => List.Perm.refl names) htype rfl (by decide)
      (by decide) (by decide) (by decide) _).mpr ⟨htakes, rfl⟩)
  rw [← some.inj ht', agreeIn_overwrite_iff
    (fun col hcol => get?_of_unchanged hnames hcol) t] at hagree
  have hnull := hagree _ (mem_singleton.mpr rfl) (by decide) (lit "body") (mem_singleton.mpr rfl)
  revert hnull
  decide

end DataStream.EndToEnd
