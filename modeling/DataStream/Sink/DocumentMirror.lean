import DataStream.Foundations.Mirror
import DataStream.Sink.DocumentSinks
import DataStream.Sink.SqlReplica

/-!
# Whether document and key stores mirror a table

The changes of a table with a primary key are mapped to actions on an empty store. The store
mirrors the table if it has exactly one entry for each row, under the id of the row and with its
values. The sinks write an update under the key of the `After` image and never look at the `Before`
image, so an update that changes the key leaves the entry of the old key behind; the SQL sinks find
the row by the key of the `Before` image.

* `mirrors_iff`: the stores mirror the table exactly if every change meets `Keeps`.
-/

namespace DataStream.Sink

open Bytes Event Sql Text List Option Function SqlSink GoMap

/-! ## Changes of a set of rows -/

namespace SourceTable

variable (src : SourceTable)

/-- An event as a change of a set of rows. -/
def changeOf (e : ChangeEvent) : Change (Row GoValue) :=
  match e.type with
  | .insert => .insert (rowOf e.after)
  | .update => .update (rowOf e.before) (rowOf e.after)
  | _ => .delete (rowOf e.before)

variable {src} {rows : List (Row GoValue)} {e : ChangeEvent}

lemma ValidChange.valid_changeOf (hrows : src.Holds rows) (hvalid : src.ValidChange rows e) :
    (changeOf e).Valid {r | r ∈ rows} := by
  have hchange := hvalid.2
  rcases htype : e.type <;> simp only [htype] at hchange <;> simp only [changeOf, htype]
  · exact fun hmem => hchange.2.2 _ hmem rfl
  · obtain ⟨-, -, hmem, -, hkey⟩ := hchange
    refine ⟨hmem, ?_⟩
    by_cases hafter : rowOf e.after ∈ rows
    · -- The new row is there already only if it is the old one.
      have hsame := hkey.resolve_right fun hnew => hnew _ hafter rfl
      exact .inl (hrows.valid.eq_of_keyOf_eq hafter hmem hsame)
    · exact .inr hafter
  · exact hchange.2

lemma ValidChange.setOf_change (hrows : src.Holds rows) (hvalid : src.ValidChange rows e) :
    {r | r ∈ src.change rows e} = (changeOf e).apply {r | r ∈ rows} := by
  have hchange := hvalid.2
  rcases htype : e.type <;> simp only [htype] at hchange <;>
    simp only [changeOf, SourceTable.change, htype] <;> ext r
  · simp [Change.apply, or_comm]
  · obtain ⟨-, -, hmem, -, -⟩ := hchange
    -- The only row with the key of the old image is the old row.
    have hkey : ∀ r' ∈ rows,
        keyOf src.key r' = keyOf src.key (rowOf e.before) ↔ r' = rowOf e.before :=
      fun r' hr' => ⟨hrows.valid.eq_of_keyOf_eq hr' hmem, fun heq => heq ▸ rfl⟩
    constructor
    · intro hr
      obtain ⟨r', hr', rfl⟩ := List.mem_map.mp hr
      split_ifs with hselected
      · exact Set.mem_insert _ _
      · exact Set.mem_insert_of_mem _ ⟨hr', fun heq => hselected ((hkey r' hr').mpr heq)⟩
    · rintro (rfl | ⟨hr, hne⟩)
      · exact List.mem_map.mpr ⟨rowOf e.before, hmem, if_pos rfl⟩
      · exact List.mem_map.mpr ⟨r, hr, if_neg fun heq => hne ((hkey r hr).mp heq)⟩
  · have hkey : r ∈ rows →
        (keyOf src.key r ≠ keyOf src.key (rowOf e.before) ↔ r ≠ rowOf e.before) :=
      fun hr => not_congr ⟨hrows.valid.eq_of_keyOf_eq hr hchange.2, fun heq => heq ▸ rfl⟩
    simp only [removeKey, Set.mem_ofPred_eq, mem_filter, decide_eq_true_eq, Change.apply,
      Set.mem_sdiff, Set.mem_singleton_iff]
    exact and_congr_right hkey

end SourceTable

open SourceTable

/-! ## Histories on a layout -/

namespace SourceTable.ValidHistory

variable {src : SourceTable} {rows : List (Row GoValue)} {history : List ChangeEvent}

lemma allValid (hrows : src.Holds rows) (hvalid : src.ValidHistory rows history) :
    Along Change.apply Change.Valid {r | r ∈ rows} (history.map changeOf) ∧
      {r | r ∈ src.changes rows history} =
        (history.map changeOf).foldl Change.apply {r | r ∈ rows} := by
  induction history generalizing rows with
  | nil => exact ⟨trivial, rfl⟩
  | cons e history ih =>
    obtain ⟨hrest, hset⟩ := ih (hrows.change hvalid.1) hvalid.2
    rw [hvalid.1.setOf_change hrows] at hrest hset
    exact ⟨⟨hvalid.1.valid_changeOf hrows, hrest⟩, hset⟩

end SourceTable.ValidHistory

section Layouts

variable {K D : Type} [DecidableEq K] {src : SourceTable} {L : Layout (Row GoValue) K D}
  {step : (K → Option D) → ChangeEvent → K → Option D}
  {P : List (Row GoValue) → ChangeEvent → Prop}
  {store : K → Option D} {rows : List (Row GoValue)} {history : List ChangeEvent}
  (hstep : ∀ store rows e, src.ValidChange rows e → step store e = L.write store (changeOf e))
  (hfaithful : ∀ rows e, src.ValidChange rows e →
    (L.Faithful {r | r ∈ rows} (changeOf e) ↔ P rows e))

include hstep in
lemma foldl_step_eq (hvalid : src.ValidHistory rows history) :
    history.foldl step store = (history.map changeOf).foldl L.write store := by
  induction history generalizing store rows with
  | nil => rfl
  | cons e history ih =>
    rw [map_cons, foldl_cons, foldl_cons, hstep _ _ _ hvalid.1]
    exact ih hvalid.2

include hfaithful in
omit [DecidableEq K] in
lemma allFaithful_iff (hrows : src.Holds rows) (hvalid : src.ValidHistory rows history) :
    Along Change.apply L.Faithful {r | r ∈ rows} (history.map changeOf) ↔
      Along src.change P rows history := by
  induction history generalizing rows with
  | nil => exact Iff.rfl
  | cons e history ih =>
    refine and_congr (hfaithful rows e hvalid.1) ?_
    rw [← hvalid.1.setOf_change hrows]
    exact ih (hrows.change hvalid.1) hvalid.2

include hstep hfaithful in
/-- A store whose steps are the writes of a layout mirrors the table after every event exactly if
every event meets what makes its change faithful. -/
lemma forall_past_mirrors_iff (hrows : src.Holds rows) (hstore : L.Mirrors store {r | r ∈ rows})
    (hvalid : src.ValidHistory rows history) :
    (∀ past, past <+: history →
      L.Mirrors (past.foldl step store) {r | r ∈ src.changes rows past}) ↔
      Along src.change P rows history := by
  rw [← allFaithful_iff hfaithful hrows hvalid,
    ← Layout.forall_mirrors_iff hstore (hvalid.allValid hrows).1]
  -- The parts of the mapped history are those of the history, mapped.
  constructor
  · intro hall changes hchanges
    obtain ⟨past, hpast, rfl⟩ := prefix_map_iff.mp hchanges
    have hvalid' := hvalid.of_past hpast
    rw [← foldl_step_eq hstep hvalid', ← (hvalid'.allValid hrows).2]
    exact hall past hpast
  · intro hall past hpast
    have hvalid' := hvalid.of_past hpast
    rw [foldl_step_eq hstep hvalid', (hvalid'.allValid hrows).2]
    exact hall _ (hpast.map _)

end Layouts

/-! ## Rows as documents -/

/-- The texts of the key values of a row, joined by an underscore. -/
def keyText (f : Formatter) (key : List Bytes) (row : Row GoValue) : Bytes :=
  (lit "_").intercalate (key.map fun col => f.value (row col))

/-- The values of a row by the names of the columns. -/
def documentOf (columns : List Bytes) (row : Row GoValue) : GoMap GoValue :=
  insertAll [] (columns.map fun col => (col, row col))

variable (events : List ChangeEvent) (row : Row GoValue)

section Documents

variable {columns : List Bytes}

lemma map_fst_columns : (columns.map fun col => (col, row col)).map Prod.fst = columns := by
  simp [comp_def]

variable (hcolumns : columns.Nodup)

include hcolumns

variable (row : Row GoValue)

lemma documentOf_perm : (documentOf columns row).Perm (columns.map fun col => (col, row col)) :=
  insertAll_nil_perm (by rwa [map_fst_columns])

lemma insertAll_documentOf (old row : Row GoValue) :
    (documentOf columns old).insertAll (documentOf columns row) = documentOf columns row := by
  rw [documentOf, documentOf, insertAll_insertAll_nil _ (by rwa [map_fst_columns])]
  refine insertAll_insertAll _ ?_
  rw [map_fst_columns, map_fst_columns]
  exact List.Subset.refl _

lemma insertAll_nil_documentOf : insertAll [] (documentOf columns row) = documentOf columns row :=
  insertAll_insertAll_nil [] (by rwa [map_fst_columns])

lemma get?_documentOf {col : Bytes} (hcol : col ∈ columns) :
    (documentOf columns row).get? col = some (row col) := by
  have hperm := documentOf_perm hcolumns row
  have hnodup : ((documentOf columns row).map Prod.fst).Nodup := by
    rw [(hperm.map Prod.fst).nodup_iff, map_fst_columns]
    exact hcolumns
  exact (get?_eq_some_iff hnodup).mpr (hperm.mem_iff.mpr (List.mem_map_of_mem hcol))

lemma documentOf_inj {row row' : Row GoValue} :
    documentOf columns row = documentOf columns row' ↔ ∀ col ∈ columns, row col = row' col := by
  constructor
  · intro heq col hcol
    have hget := get?_documentOf hcolumns row hcol
    rw [heq, get?_documentOf hcolumns row' hcol] at hget
    exact (some.inj hget).symm
  · intro hcols
    rw [documentOf, documentOf]
    congr 1
    exact map_congr_left fun col hcol => by rw [hcols col hcol]

end Documents

namespace SourceTable.FullImage

variable {src : SourceTable} {r : RowData} (h : src.FullImage r)

include h

lemma joinedKey_eq (f : Formatter) : joinedKey f r src.key = keyText f src.key (rowOf r) := by
  have hall : ∀ cols : List Bytes, cols ⊆ src.columns →
      (cols.filterMap fun col => (r.getField col).map fun field => f.value field.value) =
        cols.map fun col => f.value (rowOf r col) := by
    intro cols hcols
    induction cols with
    | nil => rfl
    | cons col cols ih =>
      obtain ⟨hcol, hrest⟩ := cons_subset.mp hcols
      obtain ⟨field, hfield, hvalue⟩ := h.getField_eq hcol
      rw [filterMap_cons, hfield, map_cons, hvalue]
      exact congrArg _ (ih hrest)
  rw [joinedKey, keyText, hall src.key src.key_subset]

lemma fieldValues_eq : fieldValues r = documentOf src.columns (rowOf r) := by
  have hnodup : (r.entries.map Prod.fst).Nodup := h.nodup_iff.mpr src.columns_nodup
  -- Each entry is the entry of its name.
  have hentries : (r.entries.map fun entry => (entry.1, entry.2.value)) =
      (r.entries.map Prod.fst).map fun col => (col, rowOf r col) := by
    rw [List.map_map]
    refine map_congr_left fun entry hentry => ?_
    have hget : r.getField entry.1 = some entry.2 := (get?_eq_some_iff hnodup).mpr hentry
    rw [comp, rowOf, RowData.get, hget]
    rfl
  rw [fieldValues, documentOf, hentries]
  refine insertAll_perm [] (List.Perm.map _ h) ?_
  rw [map_fst_columns]
  exact hnodup

end SourceTable.FullImage

/-! ## Elasticsearch -/

namespace Elasticsearch

/-- The value of a key after a merge. -/
def merged (old : GoMap GoValue) (key : Bytes) (new : GoValue) : GoValue :=
  match old.get? key with
  | some value => mergeValue new value
  | none => new

/-- A merge sets every key of the new object, each on its own. -/
lemma mergeEntries_eq {entries : List (Bytes × GoValue)} (h : (entries.map Prod.fst).Nodup)
    (old : GoMap GoValue) :
    mergeEntries entries old =
      old.insertAll (entries.map fun entry => (entry.1, merged old entry.1 entry.2)) := by
  induction entries generalizing old with
  | nil => rw [mergeEntries]; rfl
  | cons entry entries ih =>
    obtain ⟨key, new⟩ := entry
    obtain ⟨hkey, hrest⟩ := nodup_cons.mp h
    rw [mergeEntries, ih hrest, map_cons, insertAll_cons]
    -- The keys that follow are others, so what is merged into them is what was there before.
    refine congrArg _ (map_congr_left fun entry hentry => ?_)
    have hne : entry.1 ≠ key := fun heq => hkey (List.mem_map.mpr ⟨entry, hentry, heq⟩)
    rw [merged, get?_insert_of_ne _ hne]
    rfl

lemma mergeEntries_documentOf {columns : List Bytes} (hcolumns : columns.Nodup)
    (old row : Row GoValue) :
    mergeEntries (documentOf columns row) (documentOf columns old) =
      documentOf columns fun col => mergeValue (row col) (old col) := by
  have hperm := documentOf_perm hcolumns row
  have hnodup : ((documentOf columns row).map Prod.fst).Nodup := by
    rw [(hperm.map Prod.fst).nodup_iff, map_fst_columns]
    exact hcolumns
  have hentries : ((documentOf columns row).map fun entry =>
      (entry.1, merged (documentOf columns old) entry.1 entry.2)).Perm
        (columns.map fun col => (col, mergeValue (row col) (old col))) := by
    refine (hperm.map _).trans (List.Perm.of_eq ?_)
    rw [List.map_map]
    refine map_congr_left fun col hcol => ?_
    rw [comp, merged, get?_documentOf hcolumns old hcol]
  rw [mergeEntries_eq hnodup, insertAll_perm _ hentries (by rwa [List.map_map, comp_def])]
  refine insertAll_insertAll [] ?_
  rw [map_fst_columns, map_fst_columns]
  exact List.Subset.refl _

variable (toLower : Bytes → Bytes) (f : Formatter) (cfg : Config) (src : SourceTable)
  (store : Store) (rows : List (Row GoValue))

/-- How Elasticsearch keeps the rows of a table. -/
def layout (index : Bytes) : Layout (Row GoValue) (Bytes × Bytes) (GoMap GoValue) where
  id row := (index, keyText f src.key row)
  doc row := some (documentOf src.columns row)
  onInsert _ row := documentOf src.columns row
  onUpdate old row :=
    match old with
    | some old => mergeEntries (documentOf src.columns row) old
    | none => documentOf src.columns row

/-- The store has exactly one document for each row: under the id of the row, with its values. -/
def Mirrors : Prop :=
  (layout f src (resolveIndex toLower cfg src.info)).Mirrors store {r | r ∈ rows}

/-- What an event has to meet: an insert has a key text that no row has; an update keeps the key
text, and an object in one of its columns has all members that it had before. -/
def Keeps (e : ChangeEvent) : Prop :=
  match e.type with
  | .insert => ∀ r ∈ rows, keyText f src.key r ≠ keyText f src.key (rowOf e.after)
  | .update => keyText f src.key (rowOf e.after) = keyText f src.key (rowOf e.before) ∧
      ∀ col ∈ src.columns, mergeValue (rowOf e.after col) (rowOf e.before col) = rowOf e.after col
  | _ => True

variable {toLower : Bytes → Bytes} {f : Formatter} {cfg : Config} {src : SourceTable}
  {rows : List (Row GoValue)} {e : ChangeEvent}

def step (toLower : Bytes → Bytes) (f : Formatter) (cfg : Config) (store : Store)
    (e : ChangeEvent) : Store :=
  match mapEvent toLower f cfg e with
  | some action => store.act action
  | none => store

lemma write_eq_foldl_step :
    write toLower f cfg events = events.foldl (step toLower f cfg) fun _ => none := by
  rw [write, foldl_filterMap]
  refine foldl_ext _ _ _ fun store e _ => ?_
  rw [step]
  rcases mapEvent toLower f cfg e with _ | action <;> rfl

lemma step_eq_write (hvalid : src.ValidChange rows e) :
    step toLower f cfg store e =
      (layout f src (resolveIndex toLower cfg src.info)).write store (changeOf e) := by
  obtain ⟨htable, hchange⟩ := hvalid
  rcases htype : e.type <;> simp only [htype] at hchange <;>
    simp only [step, mapEvent, changeOf, htype, htable, generateDocID, buildDocument]
  · obtain ⟨hfull, -⟩ := hchange
    rw [hfull.joinedKey_eq, hfull.fieldValues_eq]
    rfl
  · obtain ⟨-, hfull, -⟩ := hchange
    rw [hfull.joinedKey_eq, hfull.fieldValues_eq]
    rfl
  · obtain ⟨hfull, -⟩ := hchange
    rw [hfull.joinedKey_eq]
    rfl

lemma faithful_iff (index : Bytes) (hvalid : src.ValidChange rows e) :
    (layout f src index).Faithful {r | r ∈ rows} (changeOf e) ↔ Keeps f src rows e := by
  have hchange := hvalid.2
  rcases htype : e.type <;> simp only [htype] at hchange <;>
    simp only [changeOf, Keeps, htype, Layout.Faithful, layout]
  · simp
  · rw [mergeEntries_documentOf src.columns_nodup, some.injEq,
      documentOf_inj src.columns_nodup, Prod.mk.injEq]
    simp only [true_and, eq_comm]

end Elasticsearch

/-! ## Redis -/

namespace Redis

variable (f : Formatter) (cfg : Config) (src : SourceTable) (store : Store)
  (rows : List (Row GoValue))

variable (columns : List Bytes) (old : Option Stored) (row : Row GoValue)

/-- What a row is stored as; `none` if it cannot be encoded. -/
def storedAs : Option Stored :=
  match cfg.format with
  | .hash => some (.hash (documentOf columns row))
  | .json | .string =>
    ((GoValue.map (documentOf columns row)).toJson).map fun j => .text (Json.marshal j)

/-- What a write leaves under a key. -/
def leaves : Stored :=
  match cfg.format with
  | .hash =>
    match old with
    | none => .hash (documentOf columns row)
    | some (.hash fields) => .hash (fields.insertAll (documentOf columns row))
    | some (.text value) => .text value
  | .json | .string => .text (marshalFields (documentOf columns row))

/-- How Redis keeps the rows of a table. -/
def layout : Layout (Row GoValue) Bytes Stored where
  id row := replaceAll (tablePattern cfg src.info) pkPlaceholder (keyText f src.key row)
  doc row := storedAs cfg src.columns row
  onInsert old row := leaves cfg src.columns old row
  onUpdate old row := leaves cfg src.columns old row

/-- The store has exactly one key for each row: that of the row, with its values. -/
def Mirrors : Prop := (layout f cfg src).Mirrors store {r | r ∈ rows}

/-- The pattern of the table has a place for the key. -/
def HasPlace : Prop := pkPlaceholder <:+: tablePattern cfg src.info

/-- The row can be written in the configured format. -/
def Encodable : Prop := cfg.format = .hash ∨ ∀ col ∈ src.columns, ((row col).toJson).isSome

/-- What an event has to meet: an insert has a key text that no row has, and the pattern a place for
it, unless the table is empty; an update keeps the key text, if there is a place for it; the new row
can be encoded. -/
def Keeps (e : ChangeEvent) : Prop :=
  match e.type with
  | .insert => (∀ r ∈ rows, HasPlace cfg src ∧
        keyText f src.key r ≠ keyText f src.key (rowOf e.after)) ∧
      Encodable cfg src (rowOf e.after)
  | .update =>
    (HasPlace cfg src → keyText f src.key (rowOf e.after) = keyText f src.key (rowOf e.before)) ∧
    Encodable cfg src (rowOf e.after)
  | _ => True

variable {f : Formatter} {cfg : Config} {src : SourceTable} {rows : List (Row GoValue)}
  {e : ChangeEvent}

def step (f : Formatter) (cfg : Config) (store : Store) (e : ChangeEvent) : Store :=
  match buildCommand f cfg e with
  | some command => store.execute command
  | none => store

lemma write_eq_foldl_step : write f cfg events = events.foldl (step f cfg) fun _ => none := by
  rw [write, foldl_filterMap]
  refine foldl_ext _ _ _ fun store e _ => ?_
  rw [step]
  rcases buildCommand f cfg e with _ | command <;> rfl

lemma execute_write (key : Bytes) (row : Row GoValue) :
    (match cfg.format with
      | .hash => store.execute (.hset key (documentOf src.columns row) cfg.ttl)
      | .json | .string =>
        store.execute (.set key (marshalFields (documentOf src.columns row)) cfg.ttl)) =
      update store key (some (leaves cfg src.columns (store key) row)) := by
  rcases hformat : cfg.format <;> simp only [Store.execute, leaves, hformat]
  rcases hstore : store key with _ | ⟨_ | _⟩ <;> dsimp only
  · rw [insertAll_nil_documentOf src.columns_nodup]
  · rw [← hstore, update_eq_self]

lemma step_eq_write (hvalid : src.ValidChange rows e) :
    step f cfg store e = (layout f cfg src).write store (changeOf e) := by
  obtain ⟨htable, hchange⟩ := hvalid
  rcases htype : e.type <;> simp only [htype] at hchange <;>
    simp only [step, buildCommand, changeOf, htype, htable, generateKey]
  · obtain ⟨hfull, -⟩ := hchange
    rw [hfull.joinedKey_eq, hfull.fieldValues_eq]
    refine Eq.trans ?_ (execute_write store _ (rowOf e.after))
    rcases cfg.format <;> rfl
  · obtain ⟨-, hfull, -⟩ := hchange
    rw [hfull.joinedKey_eq, hfull.fieldValues_eq]
    refine Eq.trans ?_ (execute_write store _ (rowOf e.after))
    rcases cfg.format <;> rfl
  · obtain ⟨hfull, -⟩ := hchange
    rw [hfull.joinedKey_eq]
    rfl

lemma layout_id_eq_iff {r r' : Row GoValue} :
    (layout f cfg src).id r = (layout f cfg src).id r' ↔
      (HasPlace cfg src → keyText f src.key r = keyText f src.key r') := by
  have hword : pkPlaceholder ≠ [] := by decide
  by_cases hplace : HasPlace cfg src
  · simp only [layout, replaceAll_inj hword hplace, hplace, forall_const]
  · simp only [layout, replaceAll_of_not_infix hplace, hplace, false_imp_iff]

lemma isSome_toJson_documentOf :
    ((GoValue.map (documentOf src.columns row)).toJson).isSome ↔
      ∀ col ∈ src.columns, ((row col).toJson).isSome := by
  rw [GoValue.toJson, isSome_map, GoValue.isSome_toJsonEntries]
  simp only [(documentOf_perm src.columns_nodup row).mem_iff, List.forall_mem_map]

lemma storedAs_eq_leaves_iff {old : Option Stored}
    (hold : old = none ∨ ∃ r, old = storedAs cfg src.columns r) :
    storedAs cfg src.columns row = some (leaves cfg src.columns old row) ↔
      Encodable cfg src row := by
  rw [Encodable, ← isSome_toJson_documentOf]
  rcases hformat : cfg.format <;> simp only [storedAs, leaves, hformat, marshalFields] at hold ⊢
  · -- The fields of the row are set over those of another row, which has the same ones.
    rcases hold with rfl | ⟨r, rfl⟩
    · simp
    · simp [insertAll_documentOf src.columns_nodup]
  all_goals rcases (GoValue.map (documentOf src.columns row)).toJson with _ | j <;> simp

lemma faithful_iff (hvalid : src.ValidChange rows e) :
    (layout f cfg src).Faithful {r | r ∈ rows} (changeOf e) ↔ Keeps f cfg src rows e := by
  have hchange := hvalid.2
  rcases htype : e.type <;> simp only [htype] at hchange <;>
    simp only [changeOf, Keeps, htype, Layout.Faithful]
  · refine and_congr (forall₂_congr fun r _ => ?_) (storedAs_eq_leaves_iff _ (.inl rfl))
    rw [Ne, layout_id_eq_iff, Classical.not_imp]
  · exact and_congr layout_id_eq_iff (storedAs_eq_leaves_iff _ (.inr ⟨_, rfl⟩))

end Redis

/-! ## Histories -/

lemma mirrors_nil {K D : Type} (L : Layout (Row GoValue) K D) :
    L.Mirrors (fun _ => none) {r | r ∈ ([] : List (Row GoValue))} where
  injOn _ hr := absurd hr not_mem_nil
  holds _ hr := absurd hr not_mem_nil
  alive _ hk := absurd rfl hk

section Histories

variable (toLower : Bytes → Bytes) (f : Formatter) {src : SourceTable} {history : List ChangeEvent}

lemma Elasticsearch.forall_past_mirrors_iff (cfg : Config)
    (hvalid : src.ValidHistory [] history) :
    (∀ past, past <+: history →
      Mirrors toLower f cfg src (write toLower f cfg past) (src.changes [] past)) ↔
      Along src.change (Keeps f src) [] history := by
  rw [← Sink.forall_past_mirrors_iff (fun store _ _ => step_eq_write store)
    (fun _ _ => faithful_iff (resolveIndex toLower cfg src.info)) src.holds_nil (mirrors_nil _)
    hvalid]
  simp only [Mirrors, write_eq_foldl_step]

lemma Redis.forall_past_mirrors_iff (cfg : Config) (hvalid : src.ValidHistory [] history) :
    (∀ past, past <+: history → Mirrors f cfg src (write f cfg past) (src.changes [] past)) ↔
      Along src.change (Keeps f cfg src) [] history := by
  rw [← Sink.forall_past_mirrors_iff (fun store _ _ => step_eq_write store)
    (fun _ _ => faithful_iff) src.holds_nil (mirrors_nil _) hvalid]
  simp only [Mirrors, write_eq_foldl_step]

end Histories

/-- **Mirrors of a table.** Start from an empty table and an empty store. The documents of the
Elasticsearch sink, and the keys of the Redis sink, mirror the table after every event of a valid
history exactly if every event meets `Elasticsearch.Keeps` and `Redis.Keeps` in the state before it:
in short, key texts do not collide and updates do not change them. -/
theorem mirrors_iff (toLower : Bytes → Bytes) (f : Formatter) (src : SourceTable)
    (history : List ChangeEvent) (hvalid : src.ValidHistory [] history) :
    (∀ cfg : Elasticsearch.Config,
      (∀ past, past <+: history →
        Elasticsearch.Mirrors toLower f cfg src (Elasticsearch.write toLower f cfg past)
          (src.changes [] past)) ↔
        Along src.change (Elasticsearch.Keeps f src) [] history) ∧
    (∀ cfg : Redis.Config,
      (∀ past, past <+: history →
        Redis.Mirrors f cfg src (Redis.write f cfg past) (src.changes [] past)) ↔
        Along src.change (Redis.Keeps f cfg src) [] history) :=
  ⟨fun cfg => Elasticsearch.forall_past_mirrors_iff toLower f cfg hvalid,
    fun cfg => Redis.forall_past_mirrors_iff f cfg hvalid⟩

/-- The document and the key of a user whose name changes. -/
theorem mirrors_renameHistory :
    Elasticsearch.Mirrors id plainFormatter Elasticsearch.defaultConfig usersSource
      (Elasticsearch.write id plainFormatter Elasticsearch.defaultConfig
        (renameHistory.map Prod.snd))
      (usersSource.changes [] (renameHistory.map Prod.snd)) ∧
    Redis.Mirrors plainFormatter Redis.defaultConfig usersSource
      (Redis.write plainFormatter Redis.defaultConfig (renameHistory.map Prod.snd))
      (usersSource.changes [] (renameHistory.map Prod.snd)) := by
  obtain ⟨hdocuments, hkeys⟩ := mirrors_iff id plainFormatter usersSource
    (renameHistory.map Prod.snd) renameHistory_valid
  constructor
  · refine (hdocuments Elasticsearch.defaultConfig).mpr ⟨by simp [Elasticsearch.Keeps, userInsert],
      ⟨rfl, ?_⟩, trivial⟩ _ prefix_rfl
    -- Neither column holds an object.
    intro col hcol
    rcases mem_pair.mp hcol with rfl | rfl <;> rfl
  · exact (hkeys Redis.defaultConfig).mpr ⟨⟨by simp, .inl rfl⟩, ⟨fun _ => rfl, .inl rfl⟩, trivial⟩ _
      prefix_rfl

lemma keyText_rekey (f : Formatter) :
    keyText f usersSource.key (rowOf (userRow 2 (lit "eve"))) ≠
      keyText f usersSource.key (rowOf (userRow 1 (lit "ann"))) := by
  have hnew : keyText f usersSource.key (rowOf (userRow 2 (lit "eve"))) = lit "2" := rfl
  have hold : keyText f usersSource.key (rowOf (userRow 1 (lit "ann"))) = lit "1" := rfl
  rw [hnew, hold]
  decide

/-- A change of key leaves the document and the key of the old key behind. -/
theorem not_forall_mirrors :
    ¬ ∃ (toLower : Bytes → Bytes) (f : Formatter),
      (∀ (cfg : Elasticsearch.Config) (src : SourceTable) (history : List ChangeEvent),
        src.ValidHistory [] history →
          Elasticsearch.Mirrors toLower f cfg src (Elasticsearch.write toLower f cfg history)
            (src.changes [] history)) ∨
      (∀ (cfg : Redis.Config) (src : SourceTable) (history : List ChangeEvent),
        src.ValidHistory [] history →
          Redis.Mirrors f cfg src (Redis.write f cfg history) (src.changes [] history)) := by
  rintro ⟨toLower, f, hall | hall⟩
  · have hkeeps := (Elasticsearch.forall_past_mirrors_iff toLower f Elasticsearch.defaultConfig
      usersHistory_valid).mp fun past hpast => hall _ _ past (usersHistory_valid.of_past hpast)
    exact keyText_rekey f hkeeps.2.1.1
  · have hkeeps := (Redis.forall_past_mirrors_iff f Redis.defaultConfig usersHistory_valid).mp
      fun past hpast => hall _ _ past (usersHistory_valid.of_past hpast)
    have hplace : Redis.HasPlace Redis.defaultConfig usersSource := by
      unfold Redis.HasPlace
      decide
    exact keyText_rekey f (hkeeps.2.1.1 hplace)

end DataStream.Sink
