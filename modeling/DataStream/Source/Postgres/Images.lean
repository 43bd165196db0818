import DataStream.Event.Row
import DataStream.Foundations.GoMap
import DataStream.Source.Postgres.Relations

/-!
# Row images of tuples

What the row image that the handler builds of a tuple says about each column of the relation. A
column whose value is unchanged and was not sent is in the image like any other, with a nil value.

* `get_optionalRow`: the image has the values of the tuple;
* `get?_of_unchanged`: a column that is marked unchanged reads as nil.
-/

namespace DataStream.Source.Postgres

open Event List Option GoMap

variable (relation : RelationMessage) (tuple : Option TupleData)

/-- The columns that a tuple has, with their values; a nil tuple has none. -/
def tupleEntries : List (Bytes × GoValue) :=
  (relation.columns.zip (tuple.getD [])).map fun p => (p.1.name, tupleValue p.1 p.2)

/-- The columns that a tuple marks as unchanged. -/
def unchangedColumns : List Bytes :=
  ((relation.columns.zip (tuple.getD [])).filter fun p => p.2.dataType = .unchanged).map
    fun p => p.1.name

/-- The names of the columns of a relation, which are distinct. -/
def RelationMessage.columnNames : List Bytes := relation.columns.map RelationColumn.name

section Entries

variable {relation : RelationMessage} (hnames : relation.columnNames.Nodup)

lemma map_fst_tupleEntries (relation : RelationMessage) (tuple : Option TupleData) :
    ((tupleEntries relation tuple).map Prod.fst) <+: relation.columnNames := by
  have hzip : ∀ (columns : List RelationColumn) (values : TupleData),
      ((columns.zip values).map fun p => p.1.name) <+: columns.map RelationColumn.name := by
    intro columns
    induction columns with
    | nil => simp
    | cons col columns ih =>
      rintro (_ | ⟨value, values⟩)
      · simp
      · exact (prefix_cons_inj _).mpr (ih values)
  rw [tupleEntries, List.map_map]
  exact hzip _ _

variable {tuple : Option TupleData}

lemma mem_tupleEntries_of_unchanged {col : Bytes}
    (hcol : col ∈ unchangedColumns relation tuple) :
    (col, GoValue.nil) ∈ tupleEntries relation tuple := by
  obtain ⟨p, hp, rfl⟩ := List.mem_map.mp hcol
  obtain ⟨hmem, hkind⟩ := mem_filter.mp hp
  refine List.mem_map.mpr ⟨p, hmem, Prod.ext rfl ?_⟩
  rw [tupleValue, of_decide_eq_true hkind]

variable {r : RowData}

lemma exists_fields_of_optionalRow (h : Handler.optionalRow relation tuple = some r) :
    ∃ fields : List (Bytes × RowField), r.entries = insertAll [] fields ∧
      fields.map (fun entry => (entry.1, entry.2.value)) = tupleEntries relation tuple := by
  rcases tuple with _ | tuple
  · refine ⟨[], ?_, ?_⟩
    · rw [← some.inj h]
      rfl
    · rw [tupleEntries, getD_none, zip_nil_right]
      rfl
  · refine ⟨(relation.columns.zip tuple).map fun p => (p.1.name,
      { name := p.1.name, value := tupleValue p.1 p.2, type := mapPostgresType p.1.dataType
        null := false }), ?_, ?_⟩
    · rw [← some.inj h, insertAll, foldl_map]
      rfl
    · rw [List.map_map]
      rfl

include hnames

lemma nodup_tupleEntries (tuple : Option TupleData) :
    ((tupleEntries relation tuple).map Prod.fst).Nodup :=
  hnames.sublist (map_fst_tupleEntries relation tuple).sublist

lemma map_fst_entries_perm (h : Handler.optionalRow relation tuple = some r) :
    (r.entries.map Prod.fst).Perm ((tupleEntries relation tuple).map Prod.fst) := by
  obtain ⟨fields, hentries, hvalues⟩ := exists_fields_of_optionalRow h
  have hnodup := nodup_tupleEntries hnames tuple
  rw [← hvalues, List.map_map] at hnodup ⊢
  rw [hentries]
  exact (insertAll_nil_perm hnodup).map Prod.fst

theorem get_optionalRow (h : Handler.optionalRow relation tuple = some r) (col : Bytes) :
    r.get col = get? (tupleEntries relation tuple) col := by
  obtain ⟨fields, hentries, hvalues⟩ := exists_fields_of_optionalRow h
  have hnodup := nodup_tupleEntries hnames tuple
  rw [← hvalues, List.map_map] at hnodup
  rw [RowData.get, RowData.getField, hentries, get?_insertAll_nil hnodup, ← hvalues]
  simp only [get?, find?_map, Option.map_map]
  rfl

theorem get?_of_unchanged {col : Bytes}
    (hcol : col ∈ unchangedColumns relation tuple) :
    get? (tupleEntries relation tuple) col = some .nil :=
  (get?_eq_some_iff (nodup_tupleEntries hnames tuple)).mpr (mem_tupleEntries_of_unchanged hcol)

end Entries

end DataStream.Source.Postgres
