import DataStream.EndToEnd.UnchangedColumns
import DataStream.Source.Oracle.LogMiner

/-!
# Addressing the row of an update or a delete

A SQL sink finds the row of an update or a delete by the key columns that the event names and by
their values in the before image. PostgreSQL sends no old row for an update that keeps the key,
unless the replica identity is full, and the handler does not fill the before image from the new
row. The Oracle source does not name key columns at all.

* `addressable_iff`: which events stay addressable.
-/

namespace DataStream.EndToEnd

open Event Sql Sink Source.Postgres List Option Source.Oracle GoMap Handler

/-! ## Changes as PostgreSQL publishes them -/

inductive ReplicaIdentity where
  /-- The old row is reduced to its key, and not sent if the key does not change. -/
  | default
  /-- The old row is always sent. -/
  | full
  deriving DecidableEq

/-- A change of a row, with the cells of the old and the new row. -/
inductive RowChange where
  | update (old new : TupleData)
  | delete (old : TupleData)

def RowChange.old : RowChange → TupleData
  | .update old _ | .delete old => old

/-- A table with a primary key, as its relation message announces it. -/
structure PublishedTable where
  relation : RelationMessage
  key : List Bytes
  /-- The flag of a column that marks the key. -/
  keyFlag : UInt8
  names_nodup : relation.columnNames.Nodup
  key_ne_nil : key ≠ []
  key_subset : key ⊆ relation.columnNames
  flagged : ∀ col ∈ relation.columns, (col.flags &&& keyFlag) ≠ 0 ↔ col.name ∈ key

namespace PublishedTable

variable (table : PublishedTable)

def isKey (col : RelationColumn) : Bool := table.key.any fun name => name = col.name

/-- The old row with its key only: the other cells are null. -/
def keyTuple (old : TupleData) : TupleData :=
  (table.relation.columns.zip old).map fun p =>
    if table.isKey p.1 then p.2 else { dataType := .null, data := [] }

/-- An update changes the key: a cell of the key is sent, and is not the old one. -/
def changesKey (old new : TupleData) : Bool :=
  (table.relation.columns.zip (old.zip new)).any fun p =>
    table.isKey p.1 && p.2.2.dataType ≠ .unchanged && p.2.2 ≠ p.2.1

def oldTuple : ReplicaIdentity → RowChange → Option TupleData
  | .full, change => some change.old
  | .default, .update old new =>
    if table.changesKey old new then some (table.keyTuple old) else none
  | .default, .delete old => some (table.keyTuple old)

def message (identity : ReplicaIdentity) : RowChange → Message
  | .update old new =>
    .update table.relation.relationID (table.oldTuple identity (.update old new)) (some new)
  | .delete old => .delete table.relation.relationID (table.oldTuple identity (.delete old))

def oldValues (change : RowChange) : List (Bytes × GoValue) :=
  tupleEntries table.relation (some change.old)

variable {table}

lemma get?_oldTuple {identity : ReplicaIdentity} {change : RowChange} {tuple : TupleData}
    (htuple : table.oldTuple identity change = some tuple) {name : Bytes}
    (hname : name ∈ table.key) :
    get? (tupleEntries table.relation (some tuple)) name = get? (table.oldValues change) name := by
  have hkeyTuple : ∀ old, get? (tupleEntries table.relation (some (table.keyTuple old))) name =
      get? (tupleEntries table.relation (some old)) name := by
    intro old
    rw [tupleEntries, tupleEntries, keyTuple, getD_some, getD_some]
    generalize table.relation.columns = columns
    induction columns generalizing old with
    | nil => rfl
    | cons col columns ih =>
      rcases old with _ | ⟨cell, old⟩
      · rfl
      · by_cases hcol : col.name = name
        · have hkey : table.isKey col = true := by simpa [isKey] using hcol ▸ hname
          simp [get?, hcol, hkey]
        · simpa [get?, hcol] using ih old
  rcases identity with _ | _
  · rcases change with ⟨old, new⟩ | old
    · rw [oldTuple] at htuple
      split_ifs at htuple
      rw [← some.inj htuple]
      exact hkeyTuple old
    · rw [← some.inj htuple]
      exact hkeyTuple old
  · rw [← some.inj htuple]
    rfl

lemma mem_oldValues (table : PublishedTable) {change : RowChange}
    (hlength : change.old.length = table.relation.columns.length) {name : Bytes}
    (hname : name ∈ table.key) : name ∈ (table.oldValues change).map Prod.fst := by
  have hnames : (table.oldValues change).map Prod.fst = table.relation.columnNames := by
    refine (map_fst_tupleEntries table.relation (some change.old)).eq_of_length ?_
    simp [tupleEntries, RelationMessage.columnNames, hlength]
  rw [hnames]
  exact table.key_subset hname

end PublishedTable

open PublishedTable

/-! ## What the event names and carries -/

section Event

variable {cfg : Source.Postgres.Config} {env : Env} {currentLSN : UInt64} {h : Handler}
  {table : PublishedTable} {identity : ReplicaIdentity} {change : RowChange} {ev : ChangeEvent}

/-- The table and the before image of an update or delete event. -/
theorem before_of_mem_made (hknown : h.relations table.relation.relationID = some table.relation)
    (hev : ev ∈ (h.handleMessage cfg env currentLSN (table.message identity change)).made) :
    (ev.type = .update ∨ ev.type = .delete) ∧ ev.table = h.getTableInfo cfg table.relation ∧
      ∀ col, ev.before.get col =
        get? (tupleEntries table.relation (table.oldTuple identity change)) col := by
  rcases change with ⟨old, new⟩ | old
  · obtain ⟨htype, htable, himages⟩ := images_of_mem_made hknown table.names_nodup hev
    exact ⟨.inl htype, htable, himages.before⟩
  · obtain ⟨relation, images, hrelation, -, himages, rfl⟩ := mem_handleRow_made_iff.mp hev
    obtain rfl := some.inj (hknown.symm.trans hrelation)
    obtain ⟨before, hbefore, rfl⟩ := map_eq_some_iff.mp himages
    exact ⟨.inr rfl, rfl, get_optionalRow table.names_nodup hbefore⟩

/-- The definition that the handler takes names the key: the one kept under the name of the table,
or else the flag that the handler reads marks the key columns. -/
def NamesKey (cfg : Source.Postgres.Config) (h : Handler) (table : PublishedTable) : Prop :=
  match h.tables.bind fun t => t.get cfg.database table.relation.relationName with
  | some info => ∀ name, name ∈ info.primaryKeyColumns ↔ name ∈ table.key
  | none => ∀ col ∈ table.relation.columns,
      (col.flags &&& (2 : UInt8)) ≠ 0 ↔ (col.flags &&& table.keyFlag) ≠ 0

/-- The columns that a definition from the relation message names are the key exactly if the flag
that is read marks the key. -/
lemma mem_primaryKeyColumns_iff (database : Bytes) :
    (∀ name, name ∈ (buildTableInfo database table.relation).primaryKeyColumns ↔
      name ∈ table.key) ↔ ∀ col ∈ table.relation.columns,
        ((col.flags &&& (2 : UInt8)) ≠ 0 ↔ (col.flags &&& table.keyFlag) ≠ 0) := by
  have hmem : ∀ name, name ∈ (buildTableInfo database table.relation).primaryKeyColumns ↔
      ∃ col ∈ table.relation.columns, (col.flags &&& (2 : UInt8)) ≠ 0 ∧ col.name = name := by
    intro name
    simp [buildTableInfo, and_assoc]
  constructor
  · intro hall col hcol
    rw [table.flagged col hcol, ← hall col.name, hmem]
    constructor
    · exact fun hflag => ⟨col, hcol, hflag, rfl⟩
    · rintro ⟨col', hcol', hflag, hname⟩
      -- The names are distinct, so it is the same column.
      rwa [← inj_on_of_nodup_map table.names_nodup hcol' hcol hname]
  · intro hall name
    rw [hmem]
    constructor
    · rintro ⟨col, hcol, hflag, rfl⟩
      exact (table.flagged col hcol).mp ((hall col hcol).mp hflag)
    · intro hname
      obtain ⟨col, hcol, rfl⟩ := List.mem_map.mp (table.key_subset hname)
      exact ⟨col, hcol, (hall col hcol).mpr ((table.flagged col hcol).mpr hname), rfl⟩

lemma namesKey_iff (table : PublishedTable) :
    (∀ name, name ∈ (h.getTableInfo cfg table.relation).primaryKeyColumns ↔ name ∈ table.key) ↔
      NamesKey cfg h table := by
  rw [getTableInfo, NamesKey]
  rcases h.tables.bind fun t => t.get cfg.database table.relation.relationName with _ | info
  · exact mem_primaryKeyColumns_iff cfg.database
  · exact Iff.rfl

end Event

/-! ## What a sink accepts -/

/-- An event names exactly the columns of a key, has their old values in its before image, and no
SQL sink rejects it. -/
structure Addressable (key : List Bytes) (old : List (Bytes × GoValue)) (e : ChangeEvent) :
    Prop where
  names : ∀ name, name ∈ e.table.primaryKeyColumns ↔ name ∈ key
  before : ∀ name ∈ key, ∃ v, get? old name = some v ∧ e.before.get name = some v
  accepted : ∀ (sink : SqlSink) (order : List Bytes → List Bytes) (err : Bytes),
    sink.request order e ≠ .reject err

/-- A sink accepts an update or delete that names a key and has its old values. -/
theorem request_ne_reject {e : ChangeEvent} (htype : e.type = .update ∨ e.type = .delete)
    (hkey : e.table.primaryKeyColumns ≠ [])
    (hbefore : ∀ name ∈ e.table.primaryKeyColumns, (e.before.get name).isSome) (sink : SqlSink)
    (order : List Bytes → List Bytes) (err : Bytes) : sink.request order e ≠ .reject err := by
  have hcolumns : e.table.getKeyColumns = e.table.primaryKeyColumns := by
    have hhas : e.table.hasPrimaryKey = true := by simpa [TableInfo.hasPrimaryKey] using hkey
    rw [TableInfo.getKeyColumns, if_pos hhas]
  have hkeys := keyValues_of_isSome (r := e.before) fun name hname => by
    have hsome := hbefore name hname
    rwa [RowData.get, isSome_map] at hsome
  rcases htype with htype | htype
  · rw [SqlSink.request_update htype]
    by_cases hempty : e.after.columnNames order = []
    · rw [SqlStyle.executeUpdate]
      simp [hempty]
    · rw [SqlStyle.executeUpdate_eq hcolumns hkey hkeys hempty]
      simp
  · rw [SqlSink.request_delete htype, SqlStyle.executeDelete_eq hcolumns hkey hkeys]
    simp

/-- The message of a change has an old tuple. -/
def SendsOld (table : PublishedTable) (identity : ReplicaIdentity) : RowChange → Prop
  | .update old new => identity = .full ∨ table.changesKey old new = true
  | .delete _ => True

lemma isSome_oldTuple_iff {table : PublishedTable} {identity : ReplicaIdentity}
    {change : RowChange} :
    (table.oldTuple identity change).isSome = true ↔ SendsOld table identity change := by
  rcases change with ⟨old, new⟩ | old
  · rcases identity with _ | _
    · rw [oldTuple, SendsOld]
      split_ifs with hkey <;> simp [hkey]
    · simp [oldTuple, SendsOld]
  · rcases identity with _ | _ <;> simp [oldTuple, SendsOld]

lemma primaryKeyColumns_of_rowOutcome {serviceName : Bytes} {seqNo : ℕ}
    {row : RedoRow} {ev : ChangeEvent}
    (h : rowOutcome serviceName seqNo row = .event ev) :
    ev.table.primaryKeyColumns = [] := by
  have hdml : ∀ {toEvent : DmlEntry → ChangeEvent},
      dmlOutcome row toEvent = .event ev → ∃ entry, ev = toEvent entry := by
    intro toEvent hev
    rw [dmlOutcome] at hev
    split at hev <;> cases hev
    exact ⟨_, rfl⟩
  rw [rowOutcome] at h
  split_ifs at h
  · obtain ⟨entry, rfl⟩ := hdml h
    rfl
  · obtain ⟨entry, rfl⟩ := hdml h
    rfl
  · obtain ⟨entry, rfl⟩ := hdml h
    rfl
  · cases h
    rfl

/-! ## Which events are addressable -/

/-- An update or delete event that a source makes. -/
inductive Emission where
  /-- An event that the PostgreSQL handler makes for a change in a table that it knows. -/
  | postgres (table : PublishedTable) (identity : ReplicaIdentity) (change : RowChange)
      (length_old : change.old.length = table.relation.columns.length)
      (cfg : Source.Postgres.Config) (env : Env) (currentLSN : UInt64) (h : Handler)
      (known : h.relations table.relation.relationID = some table.relation) (ev : ChangeEvent)
      (made : ev ∈ (h.handleMessage cfg env currentLSN (table.message identity change)).made)
  /-- An event that the Oracle source reads from redo rows, for a table with any key. -/
  | oracle (serviceName : Bytes) (seqNo : ℕ) (rows : List RedoRow)
      (changes : List (RedoRow × ChangeEvent))
      (parsed : parseRows serviceName seqNo rows = some changes)
      (change : RedoRow × ChangeEvent) (mem : change ∈ changes)
      (type : change.2.type = .update ∨ change.2.type = .delete)
      (key : List Bytes) (key_ne_nil : key ≠ []) (old : List (Bytes × GoValue))

namespace Emission

/-- The event. -/
def event : Emission → ChangeEvent
  | postgres _ _ _ _ _ _ _ _ _ ev _ => ev
  | oracle _ _ _ _ _ change _ _ _ _ _ => change.2

def key : Emission → List Bytes
  | postgres table _ _ _ _ _ _ _ _ _ _ => table.key
  | oracle _ _ _ _ _ _ _ _ key _ _ => key

def old : Emission → List (Bytes × GoValue)
  | postgres table _ change _ _ _ _ _ _ _ _ => table.oldValues change
  | oracle _ _ _ _ _ _ _ _ _ _ old => old

/-- The handler's definition names the key and the message has an old tuple. Redo rows have
neither. -/
def KeepsKey : Emission → Prop
  | postgres table identity change _ cfg _ _ h _ _ _ =>
    NamesKey cfg h table ∧ SendsOld table identity change
  | oracle _ _ _ _ _ _ _ _ _ _ _ => False

end Emission

/-- An update or delete event of PostgreSQL is addressable exactly if the handler's definition names
the key and the message has an old tuple; one of Oracle never is. -/
theorem addressable_iff (e : Emission) : Addressable e.key e.old e.event ↔ e.KeepsKey := by
  rcases e with ⟨table, identity, change, hlength, cfg, env, currentLSN, h, hknown, ev, hev⟩ |
    ⟨serviceName, seqNo, rows, changes, hrows, change, hmem, _, key, hkey, old⟩
  · change Addressable table.key (table.oldValues change) ev ↔
      NamesKey cfg h table ∧ SendsOld table identity change
    obtain ⟨htype, htable, hbefore⟩ := before_of_mem_made hknown hev
    rw [← namesKey_iff, ← htable, ← isSome_oldTuple_iff]
    constructor
    · intro haddressable
      refine ⟨haddressable.names, ?_⟩
      -- Without an old tuple the before image is empty.
      obtain ⟨name, hname⟩ := exists_mem_of_ne_nil _ table.key_ne_nil
      obtain ⟨v, -, hv⟩ := haddressable.before name hname
      rw [hbefore name] at hv
      by_contra hnone
      rw [not_isSome_iff_eq_none.mp hnone, tupleEntries, getD_none, zip_nil_right] at hv
      exact absurd hv (some_ne_none v).symm
    · rintro ⟨hnames, hsome⟩
      obtain ⟨tuple, htuple⟩ := isSome_iff_exists.mp hsome
      have hold : ∀ name ∈ table.key, ∃ v, get? (table.oldValues change) name = some v ∧
          ev.before.get name = some v := by
        intro name hname
        have hvalue : get? (table.oldValues change) name ≠ none := by
          rw [Ne, get?_eq_none_iff, not_not]
          exact table.mem_oldValues hlength hname
        obtain ⟨v, hv⟩ := ne_none_iff_exists'.mp hvalue
        refine ⟨v, hv, ?_⟩
        rw [hbefore name, htuple, get?_oldTuple htuple hname, hv]
      refine ⟨hnames, hold, request_ne_reject htype ?_ fun name hname => ?_⟩
      · obtain ⟨name, hname⟩ := exists_mem_of_ne_nil _ table.key_ne_nil
        exact ne_nil_of_mem ((hnames name).mpr hname)
      · obtain ⟨v, -, hv⟩ := hold name ((hnames name).mp hname)
        rw [hv]
        rfl
  · refine ⟨fun haddressable => ?_, fun hkeeps => False.elim hkeeps⟩
    -- No event of Oracle names a column of a key.
    obtain ⟨seqNo', houtcome⟩ := event_of_mem_parseRows hrows hmem
    obtain ⟨name, hname⟩ := exists_mem_of_ne_nil _ hkey
    have hnamed := (haddressable.names name).mpr hname
    change name ∈ change.2.table.primaryKeyColumns at hnamed
    rw [primaryKeyColumns_of_rowOutcome houtcome] at hnamed
    exact not_mem_nil hnamed

def publishedPosts : PublishedTable where
  relation := postsRelation
  key := [lit "id"]
  keyFlag := 2
  names_nodup := by decide
  key_ne_nil := by decide
  key_subset := by decide
  flagged := by decide

/-- A post with a title. -/
def post (title : Bytes) : TupleData :=
  [{ dataType := .text, data := lit "1" }, { dataType := .text, data := lit "text" },
    { dataType := .text, data := title }]

def titleEvent (identity : ReplicaIdentity) : ChangeEvent :=
  { baseEvent captureAll ((Turn.sending .ignored).env none) 0 7 .update
      (postsHandler.getTableInfo captureAll postsRelation) with
    before := (optionalRow postsRelation (publishedPosts.oldTuple identity
      (.update (post (lit "a")) (post (lit "b"))))).getD noRow
    after := (optionalRow postsRelation (some (post (lit "b")))).getD noRow }

lemma titleEvent_mem_made (identity : ReplicaIdentity) :
    titleEvent identity ∈ (postsHandler.handleMessage captureAll ((Turn.sending .ignored).env none)
      0 (publishedPosts.message identity (.update (post (lit "a")) (post (lit "b"))))).made := by
  rcases identity with _ | _ <;>
    exact mem_handleRow_made_iff.mpr ⟨postsRelation, _, rfl, rfl, rfl, rfl⟩

/-- With full replica identity an update of the title is addressable. -/
theorem addressable_titleEvent :
    Addressable publishedPosts.key (publishedPosts.oldValues
      (.update (post (lit "a")) (post (lit "b")))) (titleEvent .full) := by
  refine (addressable_iff (.postgres publishedPosts .full
    (.update (post (lit "a")) (post (lit "b"))) rfl captureAll _ 0 postsHandler rfl
    (titleEvent .full) (titleEvent_mem_made .full))).mpr ⟨?_, .inl rfl⟩
  exact fun _ _ => Iff.rfl

def deletedOrder : RedoRow :=
  ordersRow 11 2 (lit "delete from \"SHOP\".\"ORDERS\" where \"ID\" = '7';")

/-- With the default replica identity an update that keeps the key is not addressable, and neither
is a delete of Oracle. -/
theorem not_forall_addressable :
    (¬∀ (table : PublishedTable) (identity : ReplicaIdentity) (change : RowChange),
      change.old.length = table.relation.columns.length →
      ∀ (cfg : Source.Postgres.Config) (env : Env) (currentLSN : UInt64) (h : Handler),
      h.relations table.relation.relationID = some table.relation →
      ∀ ev ∈ (h.handleMessage cfg env currentLSN (table.message identity change)).made,
        Addressable table.key (table.oldValues change) ev) ∧
    ¬∀ (serviceName : Bytes) (seqNo : ℕ) (rows : List RedoRow)
      (changes : List (RedoRow × ChangeEvent)),
      parseRows serviceName seqNo rows = some changes →
      ∀ change ∈ changes, change.2.type = .update ∨ change.2.type = .delete →
        ∃ (key : List Bytes) (old : List (Bytes × GoValue)), key ≠ [] ∧
          Addressable key old change.2 := by
  constructor
  · intro hall
    have haddressable := hall publishedPosts .default (.update (post (lit "a")) (post (lit "b")))
      rfl captureAll _ 0 postsHandler rfl (titleEvent .default) (titleEvent_mem_made .default)
    obtain ⟨v, -, hv⟩ := haddressable.before (lit "id") (mem_singleton.mpr rfl)
    cases hv
  · intro hall
    obtain ⟨entry, hparse⟩ : ∃ entry, parse (deletedOrder.sqlRedo.getD []) = .ok entry (lit ";") :=
      ⟨{ type := .delete, newValues := [], oldValues := [(lit "ID", lit "'7'")] }, by
        decide⟩
    obtain ⟨ev, hrows, htype⟩ : ∃ ev, parseRows (lit "ORCL") 0 [deletedOrder] =
        some [(deletedOrder, ev)] ∧ ev.type = .delete := by
      obtain ⟨toEvent, houtcome, htypes⟩ : ∃ toEvent, rowOutcome (lit "ORCL") 1
          deletedOrder = dmlOutcome deletedOrder toEvent ∧
          ∀ entry, (toEvent entry).type = .delete := by
        rw [rowOutcome]
        refine ⟨_, (if_neg (by decide)).trans (if_pos rfl), fun entry => ?_⟩
        rfl
      refine ⟨toEvent entry, ?_, htypes entry⟩
      rw [parseRows, houtcome, dmlOutcome, hparse]
      rfl
    obtain ⟨key, old, hkey, haddressable⟩ := hall _ _ _ _ hrows _ (mem_singleton.mpr rfl)
      (.inr htype)
    obtain ⟨seqNo, houtcome⟩ := event_of_mem_parseRows hrows (mem_singleton.mpr rfl)
    obtain ⟨name, hname⟩ := exists_mem_of_ne_nil _ hkey
    have hnamed := (haddressable.names name).mpr hname
    rw [primaryKeyColumns_of_rowOutcome houtcome] at hnamed
    exact not_mem_nil hnamed

end DataStream.EndToEnd
