import DataStream.Parser.MySQL.Texts
import DataStream.Source.MySQL.BinlogSyncer

/-!
# Recovering table definitions from the target store

The MySQL syncer keeps table definitions in memory and writes a history row for each statement it
applies. After a restart the history is replayed into empty definitions. The replay knows a dropped
table by a missing definition and the change type `DROP`; but a missing definition is loaded as the
zero definition, and the syncer writes `drop_table`. So a row without a definition replays as a
definition with empty names.

* `recovered_eq_live_iff`: when the replay gives the definitions in memory.
-/

namespace DataStream.Source.MySQL

open Event Schema DDL Store Binlog List Option Function DDL.MySQL

/-- The syncer over a binlog, as far as its state goes. -/
def syncerMachine (cfg : Binlog.Config) : Machine Syncer Arrival Empty where
  step s a := ((cfg.processEvent s a).1, [])

/-- A syncer that knows no table and has stored nothing. -/
def fresh (file : Bytes) : Syncer where
  currentFile := file
  schema := { tables := some .empty, history := [] }

/-- A statement leaves the table it is about with a definition, or is not applied at all. -/
def KeepsDefinition (old : Option TableInfo) (r : DDLResult) : Prop :=
  match r.type with
  | .createTable => (r.tableChanges.bind TableChanges.table).isSome
  | .alterTable => True
  | .dropTable => False
  | _ => old.isSome

instance decidableKeepsDefinition (old : Option TableInfo) (r : DDLResult) :
    Decidable (KeepsDefinition old r) :=
  match h : r.type with
  | .createTable =>
    decidable_of_iff ((r.tableChanges.bind TableChanges.table).isSome = true)
      (by simp [KeepsDefinition, h])
  | .alterTable => isTrue (by simp [KeepsDefinition, h])
  | .dropTable => isFalse (by simp [KeepsDefinition, h])
  | .createDatabase | .dropDatabase | .alterDatabase | .renameTable | .truncate | .createIndex
  | .dropIndex | .createView | .dropView | .unknown =>
    decidable_of_iff (old.isSome = true) (by simp [KeepsDefinition, h])

variable (rt : Runtime) (s : Syncer) (a : Arrival)

/-- The syncer with the MySQL parser and a target store. -/
def storing (shouldCapture : Bytes → Bytes → Bool) (zone : ℤ → ℤ) : Binlog.Config :=
  newBinlogSyncer shouldCapture (some rt.parser) true zone

/-- The statement about a table that an event carries, if any, and what the parser makes of it. -/
def statement : Option (Bytes × DDLResult) :=
  match a.body with
  | .query _ query =>
    if isDDL query then
      ((rt.parse query).head?.filter fun r => r.table ≠ []).map fun r => (query, r)
    else none
  | _ => none

/-- If the event is a statement about a table, it leaves the table with a definition. -/
def Remembers : Prop :=
  ∀ q ∈ statement rt a, ∀ tables ∈ s.schema.tables,
    KeepsDefinition (tables.get q.2.database q.2.table) q.2
  deriving Decidable

/-! ## One statement -/

lemma newTableInfo_eq_some_none_iff {rt : Runtime} {old : Option TableInfo}
    {r : DDLResult} : rt.newTableInfo old r = some none ↔ ¬ KeepsDefinition old r := by
  unfold Runtime.newTableInfo KeepsDefinition
  cases r.type <;> simp [isSome_iff_ne_none]

lemma keepsDefinition_of_ne {old : Option TableInfo} {r : DDLResult}
    (h : rt.newTableInfo old r ≠ some none) : KeepsDefinition old r := by
  by_contra hmissing
  exact h (newTableInfo_eq_some_none_iff.mpr hmissing)

/-- The definitions in memory: valid, and none under the key of empty names. -/
def Known (tables : Tables) : Prop :=
  ∀ key t, tables key = some t → t.Valid ∧ t.table ≠ [] ∧ key ≠ lit "."

lemma tableKey_ne_dot {database table : Bytes} (h : table ≠ []) :
    tableKey database table ≠ lit "." := by
  intro hkey
  have hlength := congrArg List.length hkey
  have hpos := length_pos_of_ne_nil h
  have hdot : (lit ".").length = 1 := by decide
  simp only [tableKey, length_append, hdot] at hlength
  omega

lemma Known.put {tables : Tables} (h : Known tables) {info : TableInfo} (hvalid : info.Valid)
    (hname : info.table ≠ []) : Known (tables.put info) := by
  intro key t ht
  rw [Tables.put, update_apply] at ht
  split at ht
  · rename_i hkey
    obtain rfl := some.inj ht
    exact ⟨hvalid, hname, hkey ▸ tableKey_ne_dot hname⟩
  · exact h key t ht

lemma Known.remove {tables : Tables} (h : Known tables) (database table : Bytes) :
    Known (tables.remove database table) := by
  intro key t ht
  rw [Tables.remove, update_apply] at ht
  split at ht
  · cases ht
  · exact h key t ht

/-- What one event does to the definitions in memory and to those that a replay would give. -/
inductive SchemaStep (live recovered : Tables) : Bool → Tables → Tables → Prop where
  /-- Nothing is applied. -/
  | quiet : SchemaStep live recovered true live recovered
  /-- The table has a new definition, which is in the history. -/
  | defined (info : TableInfo) (valid : info.Valid) (name : info.table ≠ []) :
      SchemaStep live recovered true (live.put info) (recovered.put info)
  /-- There is no definition to store, and the history has the zero definition. -/
  | missing (live' : Tables) (known : Known live') :
      SchemaStep live recovered false live' (recovered.put .zero)

/-- What a replay of the history gives. -/
def recovered (s : SchemaState) : Tables := recoverFromStore s.history .empty

/-- One step from known definitions is a schema step, and keeps a definition exactly if a condition
holds. -/
def Evolves (live : Tables) (s s' : SchemaState) (condition : Prop) : Prop :=
  ∃ keeps live', SchemaStep live (recovered s) keeps live' (recovered s') ∧
    s'.tables = some live' ∧ (condition ↔ keeps = true)

section

variable {rt : Runtime} {shouldCapture : Bytes → Bytes → Bool} {zone : ℤ → ℤ}

/-- The position of an event can be stored. -/
def Storable (zone : ℤ → ℤ) (a : Arrival) : Prop :=
  let sec := a.header.timestamp.toNat
  (Time.toJson { unixSec := sec, nsec := 0, offset := zone sec }).isSome
  deriving Decidable

lemma marshal_positionAfter_isSome {s : Syncer} {a : Arrival} (h : Storable zone a)
    (reading : Time) :
    ((storing rt shouldCapture zone).positionAfter s a.header reading).marshal.isSome := by
  rw [Position.marshal, isSome_map, Position.toJson, isSome_map]
  exact h

variable {live live' recovered' : Tables}

lemma evolves_applyQuery (hrt : rt.Valid) {query : Bytes} {r : DDLResult}
    (hr : r ∈ (rt.parse query).head?) (hname : r.table ≠ []) {position : Position}
    (hposition : position.marshal.isSome) (hlive : Known live) {s : SchemaState}
    (hs : s.tables = some live) :
    Evolves live s (applyQuery rt.parser true query r position s)
      (KeepsDefinition (live.get r.database r.table) r) := by
  have happly : rt.parser.applyDDL (live.get r.database r.table) query =
      (rt.newTableInfo (live.get r.database r.table) r).map
        fun info => { r with newTableInfo := info } := by
    show rt.applyDDL _ query = _
    rw [Runtime.applyDDL, mem_def.mp hr, bind_some]
  have hrecovered := fun tableInfo => recoverFromStore_saveSchemaHistory
    { position := position, dbName := r.database, tableName := r.table, ddl := query, tableInfo
      changeType := r.type.name } hposition s.history .empty
  simp only [applyQuery, hs, happly]
  rcases hinfo : rt.newTableInfo (live.get r.database r.table) r with _ | _ | info
  · -- `ApplyDDL` fails, and nothing is recorded.
    refine ⟨true, live, .quiet, hs, ?_⟩
    simpa using keepsDefinition_of_ne rt (by rw [hinfo]; simp)
  · -- There is no definition; a table that is dropped is forgotten.
    have hmissing : ¬ KeepsDefinition (live.get r.database r.table) r :=
      newTableInfo_eq_some_none_iff.mp hinfo
    refine ⟨false, _, ?_, rfl, by simpa using hmissing⟩
    simp only [map_some, if_true, recovered, hrecovered]
    refine .missing _ ?_
    split
    · exact hlive.remove _ _
    · exact hlive
  · -- There is a definition; its texts are valid, so the history gives it back as it is.
    have hkeeps : KeepsDefinition (live.get r.database r.table) r :=
      keepsDefinition_of_ne rt (by rw [hinfo]; simp)
    obtain ⟨hvalid, hnames⟩ := Runtime.valid_newTableInfo hrt
      (fun t ht => (hlive _ t ht).1)
      (Runtime.wellFormed_parse hrt query r (mem_of_mem_head? hr)) hinfo
    have htable : info.table ≠ [] := by
      rcases hnames with ⟨t, ht, -, heq⟩ | ⟨-, heq⟩
      · rw [heq]
        exact (hlive _ t ht).2.1
      · rw [heq]
        exact hname
    refine ⟨true, _, ?_, rfl, by simpa using hkeeps⟩
    simp only [map_some, if_true, recovered, hrecovered]
    rw [show loadedTableInfo (some info) = info from TableInfo.repaired_eq_self hvalid]
    exact .defined info hvalid htable

lemma schema_processEvent (hasStore : Bool) (s : Syncer) (a : Arrival) :
    let cfg := newBinlogSyncer shouldCapture (some rt.parser) hasStore zone
    (cfg.processEvent s a).1.schema =
      (statement rt a).elim s.schema fun q => applyQuery rt.parser hasStore q.1 q.2
        (cfg.positionAfter s a.header (a.now 1)) s.schema := by
  intro cfg
  rw [statement, Binlog.Config.processEvent]
  cases a.body with
  | query database query =>
    have hparse : cfg.parseQuery query = (rt.parse query).head? := rfl
    simp only [Binlog.Config.handleQueryEvent, hparse]
    by_cases hddl : isDDL query = true
    · rcases hr : (rt.parse query).head? with _ | r
      · simp [hddl, cfg, newBinlogSyncer]
      · by_cases hname : r.table = []
        · simp [hddl, hname, cfg, newBinlogSyncer, filter_some]
        · simp [hddl, hname, cfg, newBinlogSyncer, flavor, Binlog.Config.ddlEvent, filter_some]
    · simp [hddl]
  | rotate | rows | xid | gtid | mariadbGTID | other => rfl

lemma evolves_processEvent (hrt : rt.Valid) {s : Syncer} {a : Arrival}
    (hstorable : Storable zone a) (hlive : Known live) (hs : s.schema.tables = some live) :
    Evolves live s.schema ((storing rt shouldCapture zone).processEvent s a).1.schema
      (Remembers rt s a) := by
  rw [storing, schema_processEvent]
  rcases hq : statement rt a with _ | ⟨query, r⟩
  · have hremembers : Remembers rt s a := by simp [Remembers, hq]
    exact ⟨true, live, .quiet, hs, by simpa using hremembers⟩
  · -- The statement is the first result of the parser, and names a table.
    have hstatement : r ∈ (rt.parse query).head? ∧ r.table ≠ [] := by
      rw [statement] at hq
      split at hq
      · split at hq
        · obtain ⟨r', hr', heq⟩ := map_eq_some_iff.mp hq
          obtain ⟨rfl, rfl⟩ := Prod.mk.inj heq
          simpa [filter_eq_some_iff] using hr'
        · cases hq
      · cases hq
    have hcondition : Remembers rt s a ↔ KeepsDefinition (live.get r.database r.table) r := by
      simp [Remembers, hq, hs]
    rw [hcondition]
    exact evolves_applyQuery hrt hstatement.1 hstatement.2
      (marshal_positionAfter_isSome hstorable _) hlive hs

/-! ## Whole binlogs -/

lemma SchemaStep.known {recovered : Tables} {keeps : Bool}
    (h : SchemaStep live recovered keeps live' recovered') (hlive : Known live) : Known live' := by
  cases h with
  | quiet => exact hlive
  | defined info valid name => exact hlive.put valid name
  | missing _ known => exact known

lemma SchemaStep.recovered_eq (h : SchemaStep live live true live' recovered') :
    recovered' = live' := by
  cases h <;> rfl

/-- The zero definition stays under the key of empty names. -/
lemma SchemaStep.dot {recovered : Tables} {keeps : Bool}
    (h : SchemaStep live recovered keeps live' recovered')
    (hdot : recovered (lit ".") ≠ none ∨ keeps = false) : recovered' (lit ".") ≠ none := by
  cases h with
  | quiet => simpa using hdot
  | defined info valid name =>
    have hne : tableKey info.database info.table ≠ lit "." := tableKey_ne_dot name
    simpa [Tables.put, update_of_ne hne.symm] using hdot
  | missing _ known =>
    have hzero : tableKey TableInfo.zero.database TableInfo.zero.table = lit "." := by
      decide
    simp [Tables.put, hzero]

/-- After every binlog: the definitions in memory are known; the replay gives them if every
statement kept a definition, and else has one under the key of empty names. -/
lemma recovered_run (shouldCapture : Bytes → Bytes → Bool) (hrt : rt.Valid) {log : List Arrival}
    (hlog : ∀ a ∈ log, Storable zone a) (file : Bytes) :
    let syncer := syncerMachine (storing rt shouldCapture zone)
    ∃ live, (syncer.run (fresh file) log).1.schema.tables = some live ∧ Known live ∧
      (syncer.Meets (Remembers rt) (fresh file) log →
        recovered (syncer.run (fresh file) log).1.schema = live) ∧
      (¬ syncer.Meets (Remembers rt) (fresh file) log →
        recovered (syncer.run (fresh file) log).1.schema (lit ".") ≠ none) := by
  intro syncer
  induction log using List.reverseRecOn with
  | nil =>
    refine ⟨.empty, rfl, by simp [Known, Tables.empty], fun _ => rfl, fun h => ?_⟩
    exact absurd trivial h
  | append_singleton log a ih =>
    obtain ⟨live, htables, hknown, hkept, hmissing⟩ := ih fun b hb => hlog b (mem_append_left _ hb)
    -- The step is taken from the state that the binlog so far leads to.
    obtain ⟨keeps, live', hstep, htables', hkeeps⟩ := evolves_processEvent hrt
      (hlog a (mem_append_right _ mem_cons_self)) hknown htables
    rw [Machine.run_concat, Machine.meets_append]
    refine ⟨live', htables', hstep.known hknown, ?_, ?_⟩
    · rintro ⟨hmeets, hremembers, -⟩
      rw [hkept hmeets, hkeeps.mp hremembers] at hstep
      exact hstep.recovered_eq
    · intro hnot
      refine hstep.dot ?_
      by_cases hmeets : syncer.Meets (Remembers rt) (fresh file) log
      · right
        rw [← Bool.not_eq_true, ← hkeeps]
        exact fun hremembers => hnot ⟨hmeets, hremembers, trivial⟩
      · exact .inl (hmissing hmeets)

end

/-- Over every binlog whose positions can be stored, each of the two replays gives the definitions
in memory exactly if every statement about a table left it with a definition. -/
theorem recovered_eq_live_iff (rt : Runtime) (hrt : rt.Valid)
    (shouldCapture : Bytes → Bytes → Bool) (zone : ℤ → ℤ) (file : Bytes) (log : List Arrival)
    (hlog : ∀ a ∈ log, Storable zone a) :
    let live := ((syncerMachine (storing rt shouldCapture zone)).run (fresh file) log).1.schema
    let remembers := (syncerMachine (storing rt shouldCapture zone)).Meets (Remembers rt)
      (fresh file) log
    (live.tables = some (recoverFromStore live.history .empty) ↔ remembers) ∧
      (live.tables = some (recover live.history .empty none) ↔ remembers) := by
  intro live remembers
  obtain ⟨tables, htables, hknown, hkept, hmissing⟩ := recovered_run shouldCapture hrt hlog file
  have hiff : live.tables = some (recovered live) ↔ remembers := by
    rw [htables, some.injEq]
    refine ⟨fun heq => ?_, fun h => (hkept h).symm⟩
    -- A definition under the key of empty names is not in memory.
    by_contra hnot
    obtain ⟨t, ht⟩ := ne_none_iff_exists'.mp (hmissing hnot)
    rw [← heq] at ht
    exact (hknown _ t ht).2.2 rfl
  exact ⟨hiff, by rw [recover_none]; exact hiff⟩

/-! ## A table that is created and dropped -/

def createOrders : Bytes := lit "CREATE TABLE shop.orders (id INT)"

def dropOrders : Bytes := lit "DROP TABLE shop.orders"

/-- The trees of the two statements, and ASCII capitals. -/
def ordersRuntime : Runtime where
  tree ddl :=
    if ddl = createOrders then
      { text := lit "CREATETABLEshop.orders(idINT)<EOF>"
        statements := [some (.columnCreateTable (some (lit "shop.orders")) (some
          [.column (some (lit "id"))
            (some { text := lit "INT", dataType := some (lit "INT"), constraints := [] })]))] }
    else if ddl = dropOrders then
      { text := lit "DROPTABLEshop.orders<EOF>"
        statements := [some (.dropTable (some (lit "shop.orders")))] }
    else { text := ddl, statements := [] }
  toUpper s := s.map Text.upper

/-- A statement as a binlog event. -/
def queryEvent (query : Bytes) (startPos : ℕ) (logPos : UInt32) : Arrival where
  header := { eventType := .other, logPos := logPos, timestamp := 1700000000 }
  body := .query (lit "shop") query
  file := lit "binlog.000001"
  startPos := startPos
  now _ := .zero
  cached := none

lemma valid_ordersRuntime : ordersRuntime.Valid where
  tree := by
    intro ddl s hs d hd
    simp only [ordersRuntime] at hs
    split at hs
    · obtain rfl := mem_singleton.mp hs
      obtain rfl := some.inj hd
      have hdefinition : ColumnDefinition.Valid
          { text := lit "INT", dataType := some (lit "INT"), constraints := [] } :=
        ⟨by decide, by rintro _ ⟨⟩; decide⟩
      refine ⟨by rintro _ ⟨⟩; decide, ?_⟩
      rintro _ ⟨⟩ d hd
      obtain rfl := mem_singleton.mp hd
      exact ⟨by rintro _ ⟨⟩; decide, by rintro _ ⟨⟩; exact hdefinition⟩
    split at hs
    · obtain rfl := mem_singleton.mp hs
      obtain rfl := some.inj hd
      rintro _ ⟨⟩
      decide
    · cases hs
  toUpper s hs := Text.valid_map_upper hs

def createAndDrop : List Arrival := [queryEvent createOrders 100 200, queryEvent dropOrders 200 300]

/-- The table is created. -/
def createOnly : List Arrival := [queryEvent createOrders 100 200]

/-- After `CREATE TABLE` and `DROP TABLE` the replay still has the table. -/
theorem not_forall_recovered_eq_live :
    ¬ ∀ (rt : Runtime) (_ : rt.Valid) (shouldCapture : Bytes → Bytes → Bool)
      (zone : ℤ → ℤ) (file : Bytes) (log : List Arrival) (_ : ∀ a ∈ log, Storable zone a),
      let live := ((syncerMachine (storing rt shouldCapture zone)).run (fresh file) log).1.schema
      live.tables = some (recoverFromStore live.history .empty) := by
  intro h
  have heq := h ordersRuntime valid_ordersRuntime (fun _ _ => true) (fun _ => 0)
    (lit "binlog.000001") createAndDrop (by decide)
  have hkey := congrArg (fun t : Option Tables => t.bind fun t => t (lit "shop.orders")) heq
  revert hkey
  decide

/-- After `CREATE TABLE` alone the replay gives the definitions in memory. -/
theorem recovered_eq_live_createOnly :
    let live := ((syncerMachine (storing ordersRuntime (fun _ _ => true) fun _ => 0)).run
      (fresh (lit "binlog.000001")) createOnly).1.schema
    live.tables = some (recoverFromStore live.history .empty) := by
  refine (recovered_eq_live_iff ordersRuntime valid_ordersRuntime (fun _ _ => true) (fun _ => 0)
    (lit "binlog.000001") createOnly ?_).1.mpr ?_
  · decide
  · decide

end DataStream.Source.MySQL
