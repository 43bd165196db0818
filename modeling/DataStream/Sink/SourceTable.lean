import DataStream.Event.Row
import DataStream.Foundations.GoMap
import DataStream.Foundations.Lockstep
import DataStream.Foundations.Sql.Table

/-!
# The table that a sink follows

A table of the source with a primary key, as a sink gets to know it: by changes with full row
images. An insert adds a row, an update puts a row in the place of the one with the old key, a
delete removes the row with the key.

* `SourceTable.Holds.change`: a valid change leaves rows of the table.
-/

namespace DataStream.Sink

open Event Sql List

/-! ## Rows and changes -/

/-- A row image as a row: columns that it does not have are null. -/
def rowOf (r : RowData) : Row GoValue := fun col => (r.get col).getD .nil

/-- A table of the source with a primary key. -/
structure SourceTable where
  info : TableInfo
  columns : List Bytes
  columns_nodup : columns.Nodup
  key_ne_nil : info.primaryKeyColumns ≠ []
  key_subset : info.primaryKeyColumns ⊆ columns

namespace SourceTable

variable (src : SourceTable)

/-- The primary key. -/
abbrev key : List Bytes := src.info.primaryKeyColumns

variable (rows : List (Row GoValue)) (r : RowData)

def table : Table GoValue := { columns := src.columns, key := src.key, rows }

/-- Rows that the table can have: the primary key is one, and other columns do not occur. -/
structure Holds (rows : List (Row GoValue)) : Prop where
  valid : (src.table rows).Valid .nil
  columns : ∀ r ∈ rows, ∀ col, col ∉ src.columns → r col = .nil

/-- What a change does to the rows. -/
def change (e : ChangeEvent) : List (Row GoValue) :=
  match e.type with
  | .insert => rows ++ [rowOf e.after]
  | .update => replaceKey src.key (keyOf src.key (rowOf e.before)) (rowOf e.after) rows
  | .delete => removeKey src.key (keyOf src.key (rowOf e.before)) rows
  | _ => rows

/-- An image has exactly the columns of the table. -/
def FullImage : Prop := (r.entries.map Prod.fst).Perm src.columns

/-- The key of an image is not null in any part. -/
def KeyNotNull : Prop := GoValue.nil ∉ keyOf src.key (rowOf r)
  deriving Decidable

/-- No row has the key of an image. -/
def KeyIsNew : Prop := ∀ row ∈ rows, keyOf src.key row ≠ keyOf src.key (rowOf r)

/-- A change that the source table can make. -/
def ValidChange (e : ChangeEvent) : Prop :=
  e.table = src.info ∧
    match e.type with
    | .insert => src.FullImage e.after ∧ src.KeyNotNull e.after ∧ src.KeyIsNew rows e.after
    | .update => src.FullImage e.before ∧ src.FullImage e.after ∧ rowOf e.before ∈ rows ∧
        src.KeyNotNull e.after ∧
        (keyOf src.key (rowOf e.after) = keyOf src.key (rowOf e.before) ∨ src.KeyIsNew rows e.after)
    | .delete => src.FullImage e.before ∧ rowOf e.before ∈ rows
    | _ => False

/-- A history of changes that the source table can make one after the other. -/
def ValidHistory : List (Row GoValue) → List ChangeEvent → Prop
  | _, [] => True
  | rows, e :: rest => src.ValidChange rows e ∧ ValidHistory (src.change rows e) rest

end SourceTable

/-! ## Images -/

section Images

variable {src : SourceTable} {r : RowData}

lemma getField_eq_none_iff {name : Bytes} :
    r.getField name = none ↔ name ∉ r.entries.map Prod.fst := GoMap.get?_eq_none_iff

namespace SourceTable.FullImage

variable (h : src.FullImage r)

include h

variable {col : Bytes} {order : List Bytes → List Bytes}

lemma rowOf_eq_nil (hcol : col ∉ src.columns) : rowOf r col = .nil := by
  have hfield : r.getField col = none := getField_eq_none_iff.mpr fun hmem => hcol (h.subset hmem)
  rw [rowOf, RowData.get, hfield]
  rfl

lemma getField_eq (hcol : col ∈ src.columns) :
    ∃ field, r.getField col = some field ∧ rowOf r col = field.value := by
  have hne : r.getField col ≠ none := by
    rw [Ne, getField_eq_none_iff, not_not]
    exact h.symm.subset hcol
  obtain ⟨field, hfield⟩ := Option.ne_none_iff_exists'.mp hne
  refine ⟨field, hfield, ?_⟩
  rw [rowOf, RowData.get, hfield]
  rfl

lemma columnNames_perm (horder : IsOrder order) : (r.columnNames order).Perm src.columns :=
  (horder _).trans h

lemma columnNames_ne_nil (horder : IsOrder order) : r.columnNames order ≠ [] := by
  intro hnil
  have hperm := h.columnNames_perm horder
  rw [hnil] at hperm
  -- The primary key has at least one column.
  obtain ⟨col, hcol⟩ := exists_mem_of_ne_nil _ src.key_ne_nil
  exact not_mem_nil (hperm.nil_eq ▸ src.key_subset hcol)

lemma mem_columnNames (horder : IsOrder order) (hcol : col ∈ src.columns) :
    col ∈ r.columnNames order :=
  (h.columnNames_perm horder).symm.subset hcol

lemma fits_columnNames (horder : IsOrder order) (rows : List (Row GoValue)) :
    (src.table rows).Fits (r.columnNames order) :=
  ⟨(h.columnNames_perm horder).nodup_iff.mpr src.columns_nodup,
    fun _ hcol => (h.columnNames_perm horder).subset hcol⟩

end SourceTable.FullImage

end Images

/-! ## Histories -/

theorem SourceTable.Holds.change {src : SourceTable} {rows : List (Row GoValue)} {e : ChangeEvent}
    (hrows : src.Holds rows) (hvalid : src.ValidChange rows e) : src.Holds (src.change rows e) := by
  have hchange := hvalid.2
  unfold SourceTable.change
  cases htype : e.type with
  | insert =>
    rw [htype] at hchange
    obtain ⟨hfull, hnull, hnew⟩ := hchange
    refine ⟨hrows.valid.append hnull hnew, ?_⟩
    intro r hr col hcol
    rcases mem_append.mp hr with hr | hr
    · exact hrows.columns r hr col hcol
    · rw [mem_singleton.mp hr]
      exact hfull.rowOf_eq_nil hcol
  | update =>
    rw [htype] at hchange
    obtain ⟨_, hafter, _, hnull, hnew⟩ := hchange
    refine ⟨hrows.valid.replace hnull hnew, ?_⟩
    intro r hr col hcol
    obtain ⟨r', hr', rfl⟩ := List.mem_map.mp hr
    split_ifs
    · exact hafter.rowOf_eq_nil hcol
    · exact hrows.columns r' hr' col hcol
  | delete =>
    refine ⟨hrows.valid.filter _, ?_⟩
    intro r hr
    exact hrows.columns r (mem_of_mem_filter hr)
  | _ => exact hrows

def SourceTable.changes (src : SourceTable) (rows : List (Row GoValue))
    (events : List ChangeEvent) : List (Row GoValue) := events.foldl src.change rows

lemma SourceTable.holds_nil (src : SourceTable) : src.Holds [] :=
  ⟨⟨nodup_nil, by simp [SourceTable.table]⟩, by simp⟩

namespace SourceTable.ValidHistory

variable {src : SourceTable} {rows : List (Row GoValue)} {history : List ChangeEvent}

lemma iff_along :
    src.ValidHistory rows history ↔ Along src.change src.ValidChange rows history := by
  induction history generalizing rows with
  | nil => exact Iff.rfl
  | cons e history ih => exact and_congr_right fun _ => ih

lemma of_past {past : List ChangeEvent} (hpast : past <+: history)
    (hvalid : src.ValidHistory rows history) : src.ValidHistory rows past :=
  iff_along.mpr ((iff_along.mp hvalid).of_past hpast)

lemma append {past rest : List ChangeEvent} (hvalid : src.ValidHistory rows (past ++ rest)) :
    src.ValidHistory rows past ∧ src.ValidHistory (src.changes rows past) rest := by
  obtain ⟨hpast, hrest⟩ := along_append.mp (iff_along.mp hvalid)
  exact ⟨iff_along.mpr hpast, iff_along.mpr hrest⟩

end SourceTable.ValidHistory

end DataStream.Sink
