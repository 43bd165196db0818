import DataStream.Foundations.Lockstep
import DataStream.Source.MySQL.SchemaRecovery
import DataStream.Source.MySQL.StatementReading

/-!
# Tracking the schema of a MySQL server

The syncer applies the statements in the binlog to its table definitions, which should then be the
tables of the server. It reads only the first table of a statement, and a name without a database as
one in a database with the empty name. It does not follow `CREATE TABLE ... LIKE`, `RENAME`, and
some parts of `ALTER TABLE`.

* `tracks_foldl`: in every run of followed statements the definitions are the tables.
-/

namespace DataStream.Source.MySQL

open Event Schema DDL Binlog List Option Function DDL.MySQL AlterSpec ColumnInfo

/-! ## The definitions and the catalog -/

section

variable {fold : Bytes → Bytes}

/-- What is compared of a table: its two names, and the names of its columns in order. -/
abbrev TableView := Bytes × Bytes × List Bytes

/-- The tables in the definitions of the syncer. -/
def trackedViews (tables : Tables) : Set TableView :=
  {v | ∃ key info, tables key = some info ∧ v = (info.database, info.table, info.columns.map name)}

def catalogViews (c : Catalog fold) : Set TableView :=
  {v | ∃ n columns, c n = some columns ∧ v = (n.database, n.table, columns.names)}

/-- The definitions are the tables of the server. -/
structure Tracks (tables : Tables) (c : Catalog fold) : Prop where
  wellKeyed : tables.WellKeyed
  views_eq : trackedViews tables = catalogViews c

/-- The key of a table. -/
def TableName.key (n : TableName) : Bytes := tableKey n.database n.table

/-- A definition is that of a table. -/
structure Shows (info : TableInfo) (n : TableName) (columns : Columns fold) : Prop where
  database : info.database = n.database
  table : info.table = n.table
  columns : info.columns.map name = columns.names

variable {n : TableName}

lemma Shows.key_eq {info : TableInfo} {columns : Columns fold}
    (h : Shows info n columns) : tableKey info.database info.table = n.key := by
  rw [h.database, h.table, TableName.key]

lemma tracks_iff {tables : Tables} {c : Catalog fold} :
    Tracks tables c ↔
      (∀ key info, tables key = some info →
        ∃ n columns, c n = some columns ∧ n.key = key ∧ Shows info n columns) ∧
      ∀ n columns, c n = some columns →
        ∃ info, tables n.key = some info ∧ Shows info n columns := by
  constructor
  · -- A view has its key, as every definition is stored under its own name.
    rintro ⟨hkeyed, hviews⟩
    constructor
    · intro key info hinfo
      have hview : (info.database, info.table, info.columns.map name) ∈
          catalogViews c := hviews ▸ ⟨key, info, hinfo, rfl⟩
      obtain ⟨n, columns, hcolumns, heq⟩ := hview
      obtain ⟨hdatabase, hrest⟩ := Prod.mk.inj heq
      obtain ⟨htable, hnames⟩ := Prod.mk.inj hrest
      have hshows : Shows info n columns := ⟨hdatabase, htable, hnames⟩
      exact ⟨n, columns, hcolumns, hshows.key_eq.symm.trans (hkeyed key info hinfo), hshows⟩
    · intro n columns hcolumns
      have hview : (n.database, n.table, columns.names) ∈ trackedViews tables :=
        hviews ▸ ⟨n, columns, hcolumns, rfl⟩
      obtain ⟨key, info, hinfo, heq⟩ := hview
      obtain ⟨hdatabase, hrest⟩ := Prod.mk.inj heq
      obtain ⟨htable, hnames⟩ := Prod.mk.inj hrest
      have hshows : Shows info n columns := ⟨hdatabase.symm, htable.symm, hnames.symm⟩
      exact ⟨info, by rwa [← hshows.key_eq, hkeyed key info hinfo], hshows⟩
  · rintro ⟨htables, hcatalog⟩
    refine ⟨fun key info hinfo => ?_, Set.ext fun v => ⟨?_, ?_⟩⟩
    · obtain ⟨n, columns, -, hkey, hshows⟩ := htables key info hinfo
      exact hshows.key_eq.trans hkey
    · rintro ⟨key, info, hinfo, rfl⟩
      obtain ⟨n, columns, hcolumns, -, hshows⟩ := htables key info hinfo
      exact ⟨n, columns, hcolumns, by rw [hshows.database, hshows.table, hshows.columns]⟩
    · rintro ⟨n, columns, hcolumns, rfl⟩
      obtain ⟨info, hinfo, hshows⟩ := hcatalog n columns hcolumns
      exact ⟨n.key, info, hinfo, by rw [hshows.database, hshows.table, hshows.columns]⟩

def TableName.NoDots (n : TableName) : Prop := 0x2E ∉ n.database ∧ 0x2E ∉ n.table

lemma TableName.NoDots.key_inj {n n' : TableName} (h : n.NoDots) (hkey : n'.key = n.key) :
    n' = n := by
  have heq : n'.database ++ 0x2E :: n'.table = n.database ++ 0x2E :: n.table := by
    simpa [TableName.key, tableKey, show lit "." = [0x2E] from rfl] using hkey
  have hdatabase : 0x2E ∉ n'.database := by
    -- The key has a single dot.
    have hcount := congrArg (List.count 0x2E) heq
    rw [count_append, count_append, count_cons_self, count_cons_self,
      count_eq_zero.mpr h.1, count_eq_zero.mpr h.2] at hcount
    exact count_eq_zero.mp (by omega)
  have hcut := congrArg (Text.cut 0x2E) heq
  rw [Text.cut_append hdatabase, Text.cut_append h.1] at hcut
  obtain ⟨hd, ht⟩ := Prod.mk.inj (some.inj hcut)
  obtain ⟨database', table', hne'⟩ := n'
  subst hd ht
  rfl

lemma tracks_empty : Tracks .empty (fun _ => none : Catalog fold) where
  wellKeyed := Tables.wellKeyed_empty
  views_eq := Set.ext fun _ => iff_of_false (fun ⟨_, _, hinfo, _⟩ => nomatch hinfo)
    fun ⟨_, _, hcolumns, _⟩ => nomatch hcolumns

namespace Tracks

variable {tables : Tables} {c : Catalog fold}

lemma set (h : Tracks tables c) (hn : n.NoDots) {info : Option TableInfo}
    {columns : Option (Columns fold)} (hinfo : ∀ i ∈ info, ∃ cs ∈ columns, Shows i n cs)
    (hcolumns : ∀ cs ∈ columns, ∃ i ∈ info, Shows i n cs) :
    Tracks (update tables n.key info) (update c n columns) := by
  obtain ⟨htables, hcatalog⟩ := tracks_iff.mp h
  refine tracks_iff.mpr ⟨fun key info' hinfo' => ?_, fun n' columns' hcolumns' => ?_⟩
  · by_cases hkey : key = n.key
    · rw [hkey, update_self] at hinfo'
      obtain ⟨cs, hcs, hshows⟩ := hinfo info' hinfo'
      exact ⟨n, cs, by rwa [update_self], hkey.symm, hshows⟩
    · rw [update_of_ne hkey] at hinfo'
      obtain ⟨n', columns', hcolumns', hkey', hshows'⟩ := htables key info' hinfo'
      have hne : n' ≠ n := fun heq => hkey (heq ▸ hkey'.symm)
      exact ⟨n', columns', by rwa [update_of_ne hne], hkey', hshows'⟩
  · by_cases heq : n' = n
    · rw [heq, update_self] at hcolumns'
      rw [heq, update_self]
      exact hcolumns columns' hcolumns'
    · rw [update_of_ne heq] at hcolumns'
      have hne : n'.key ≠ n.key := fun hkey => heq (hn.key_inj hkey)
      rw [update_of_ne hne]
      exact hcatalog n' columns' hcolumns'

theorem put (h : Tracks tables c) (hn : n.NoDots) {info : TableInfo}
    {columns : Columns fold} (hshows : Shows info n columns) :
    Tracks (tables.put info) (update c n (some columns)) := by
  rw [Tables.put, hshows.key_eq]
  exact h.set hn (by simpa using hshows) (by simpa using hshows)

theorem remove (h : Tracks tables c) (hn : n.NoDots) :
    Tracks (tables.remove n.database n.table) (update c n none) :=
  h.set hn (by simp) (by simp)

lemma get_nil (h : Tracks tables c) {table : Bytes} (hdot : 0x2E ∉ table) :
    tables.get [] table = none := by
  refine eq_none_iff_forall_ne_some.mpr fun info hinfo => ?_
  obtain ⟨n, columns, -, hkey, -⟩ := (tracks_iff.mp h).1 _ info hinfo
  obtain ⟨database, table', hne⟩ := n
  rcases database with _ | ⟨b, database⟩
  · exact hne rfl
  · -- The rest of the database name and a dot would be in the table name.
    have heq : database ++ lit "." ++ table' = table := (List.cons.inj hkey).2
    refine hdot (heq ▸ ?_)
    exact mem_append_left _ (mem_append_right _ (by decide))

end Tracks

end

/-! ## The syncer -/

section

variable {rt : Runtime}

/-- The definitions after a statement about a table. -/
def tablesAfter (rt : Runtime) (r : DDLResult) (tables : Tables) : Tables :=
  match rt.newTableInfo (tables.get r.database r.table) r with
  -- An error, which is not even logged.
  | none => tables
  | some (some info) => tables.put info
  | some none => if r.type = .dropTable then tables.remove r.database r.table else tables

lemma tables_applyQuery {query : Bytes} {r : DDLResult} (hr : (rt.parse query).head? = some r)
    (hasStore : Bool) (position : Position) (s : SchemaState) :
    (applyQuery rt.parser hasStore query r position s).tables =
      s.tables.map (tablesAfter rt r) := by
  obtain ⟨tables, history⟩ := s
  rcases tables with _ | tables
  · rfl
  · have happly : rt.parser.applyDDL (tables.get r.database r.table) query =
        (rt.newTableInfo (tables.get r.database r.table) r).map fun info =>
          { r with newTableInfo := info } := by
      change rt.applyDDL _ query = _
      rw [Runtime.applyDDL, hr]
      rfl
    simp only [applyQuery, happly, map_some, tablesAfter]
    rcases rt.newTableInfo (tables.get r.database r.table) r with _ | _ | info
    · rfl
    · rfl
    · rfl

/-- A query event with a table statement, which the parser reads by the grammar. -/
structure DDLQuery (rt : Runtime) where
  arrival : Arrival
  /-- The default database. -/
  current : Bytes
  query : Bytes
  statement : Statement
  body_eq : arrival.body = .query current query
  tree_eq : ∃ text, rt.tree query = { text := text, statements := [some statement.tree] }

lemma tables_processEvent (shouldCapture : Bytes → Bytes → Bool) (hasStore : Bool)
    (zone : ℤ → ℤ) (s : Syncer) (q : DDLQuery rt) :
    ∃ text, ∀ r, visitDdlStatement rt.toUpper text q.statement.tree = some r →
      ((newBinlogSyncer shouldCapture (some rt.parser) hasStore zone).processEvent s
        q.arrival).1.schema.tables =
        if isDDL q.query ∧ r.table ≠ [] then s.schema.tables.map (tablesAfter rt r)
        else s.schema.tables := by
  obtain ⟨text, htree⟩ := q.tree_eq
  refine ⟨text, fun r hr => ?_⟩
  have hparse : rt.parse q.query = [r] := by
    simp [Runtime.parse, visitRoot, htree, hr]
  have hhead : (rt.parse q.query).head? = some r := by rw [hparse, head?_cons]
  rw [schema_processEvent, statement, q.body_eq]
  dsimp only
  rw [hhead]
  by_cases hddl : isDDL q.query = true
  · by_cases hname : r.table = []
    · simp [hddl, hname, filter_some]
    · simp [hddl, hname, filter_some, tables_applyQuery hhead]
  · simp [hddl]

end

/-! ## Statements that are followed -/

section

variable {fold : Bytes → Bytes} {rt : Runtime}

def DDLQuery.exec (c : Catalog fold) (q : DDLQuery rt) : Option (Catalog fold) :=
  MySQL.exec q.current c q.statement

def Missing (c : Catalog fold) (current : Bytes) (t : TableRef) : Prop :=
  ∀ n ∈ t.resolve current, c n = none

/-- The statements that the syncer follows: it sees from the text that they are DDL; others must
change nothing. -/
def Followed (c : Catalog fold) (q : DDLQuery rt) : Prop :=
  if isDDL q.query then
    match q.statement with
    -- The definition is stored, also if the table exists already.
    | .createTable _ table entries =>
      table.database.isSome ∧ table.Plain ∧ (∀ e ∈ entries, e.Plain) ∧
        ∀ n ∈ table.resolve q.current, ∀ columns ∈ c n,
          columns.names = entries.filterMap CreateEntry.columnName
    -- These have no effect on the definitions.
    | .createTableLike _ _ _ | .createTableSelect _ _ _ | .renameTable _ => q.exec c = some c
    | .alterTable table specs =>
      table.Plain ∧
        if table.database.isSome then
          ∀ n ∈ table.resolve q.current, ∀ columns ∈ c n, AlterFollowed columns.names specs
        else q.exec c = some c
    -- Only the first table is dropped.
    | .dropTable _ tables =>
      (∀ t ∈ tables.head?, t.Plain ∧ (t.database = none → Missing c q.current t)) ∧
        ∀ t ∈ tables.tail, Missing c q.current t
  else q.exec c = some c

/-! ## One statement -/

variable {t : TableRef} {n : TableName} {current text : Bytes} {r : DDLResult} {ts : List TableRef}

lemma resolve_of_qualified {d : Ident} (h : t.database = some d) (current : Bytes) :
    t.resolve current = some ⟨d.value, t.table.value, d.nonempty⟩ := by
  simp [TableRef.resolve, h]

lemma TableRef.Plain.noDots (h : t.Plain) {d : Ident} (hd : t.database = some d) :
    TableName.NoDots ⟨d.value, t.table.value, d.nonempty⟩ :=
  ⟨(h.database d hd).2, h.table.2⟩

lemma aboutTable_text (h : t.Plain) (type : DDLType) (text : Bytes) :
    (aboutTable type text (some t.text)).database = t.database.elim [] Ident.value ∧
      (aboutTable type text (some t.text)).table = t.table.value := by
  have hnames : tableNames (some t.text) =
      (t.database.elim [] Ident.value, t.table.value) := extractTableName_text h
  exact ⟨congrArg Prod.fst hnames, congrArg Prod.snd hnames⟩

variable {tables : Tables} {c c' : Catalog fold}

lemma exists_of_create {ifNotExists : Bool} {names : List Bytes}
    (hcreate : c.create ifNotExists n names = some c')
    (hsame : ∀ columns ∈ c n, columns.names = names) :
    ∃ columns : Columns fold, columns.names = names ∧ c' = update c n (some columns) := by
  rw [Catalog.create] at hcreate
  split at hcreate
  · rename_i columns hcolumns
    split_ifs at hcreate
    refine ⟨columns, hsame columns hcolumns, ?_⟩
    rw [← some.inj hcreate, ← hcolumns, update_eq_self]
  · obtain ⟨columns, hnames, rfl⟩ := map_eq_some_iff.mp hcreate
    rw [Columns.ofNames] at hnames
    split_ifs at hnames
    obtain rfl := some.inj hnames
    exact ⟨_, rfl, rfl⟩

lemma Tracks.createTable (h : Tracks tables c) {ifNotExists : Bool} {table : TableRef}
    {entries : List CreateEntry} (hqualified : table.database.isSome) (hplain : table.Plain)
    (hentries : ∀ e ∈ entries, e.Plain)
    (hsame : ∀ n ∈ table.resolve current, ∀ columns ∈ c n,
      columns.names = entries.filterMap CreateEntry.columnName)
    (hexec : exec current c (.createTable ifNotExists table entries) = some c') :
    Tracks (tablesAfter rt (visitColumnCreateTable text (some table.text)
      (some (entries.map CreateEntry.tree))) tables) c' := by
  obtain ⟨d, hd⟩ := isSome_iff_exists.mp hqualified
  have hresolve := resolve_of_qualified hd current
  obtain ⟨hdatabase, htable⟩ := aboutTable_text hplain .createTable text
  rw [hd] at hdatabase
  simp only [exec, hresolve, bind_eq_bind, bind_some] at hexec
  obtain ⟨columns, hnames, rfl⟩ := exists_of_create hexec (hsame _ hresolve)
  refine h.put (hplain.noDots hd) ⟨hdatabase, htable, ?_⟩
  rw [hnames, ← map_name_extractColumns hentries]
  exact List.map_map

lemma exists_of_alter {specs : List AlterSpec}
    (hspecs : ∀ columns ∈ c n, AlterFollowed columns.names specs)
    (halter : c.alter current n specs = some c') :
    ∃ columns columns' : Columns fold, c n = some columns ∧
      alterColumns fold columns.names specs = some columns'.names ∧
      c' = update c n (some columns') := by
  simp only [Catalog.alter, bind_eq_bind, bind_eq_some_iff] at halter
  obtain ⟨columns, hcolumns, names, hnames, columns', hofNames, hrename⟩ := halter
  have hnone : specs.filterMap AlterSpec.renamedTo = [] := by
    refine filterMap_eq_nil_iff.mpr fun spec hspec => ?_
    have hfollowed := (hspecs columns hcolumns).each spec hspec
    unfold AlterSpec.Followed at hfollowed
    split at hfollowed <;> first | rfl | exact absurd hfollowed id
  rw [hnone] at hrename
  rw [Columns.ofNames] at hofNames
  split_ifs at hofNames
  obtain rfl := some.inj hofNames
  exact ⟨columns, _, hcolumns, hnames, (some.inj hrename).symm⟩

lemma tablesAfter_alter {info : TableInfo} {changes : TableChanges} (htype : r.type = .alterTable)
    (hget : tables.get r.database r.table = some info) (hchanges : r.tableChanges = some changes) :
    tablesAfter rt r tables = tables.put (rt.applyAlterChanges info changes) := by
  simp [tablesAfter, Runtime.newTableInfo, htype, hget, hchanges]

lemma tablesAfter_alter_of_missing (htype : r.type = .alterTable)
    (hget : tables.get r.database r.table = none) : tablesAfter rt r tables = tables := by
  simp [tablesAfter, Runtime.newTableInfo, htype, hget]

lemma Tracks.alterTable (h : Tracks tables c) {table : TableRef} {specs : List AlterSpec}
    (hqualified : table.database.isSome) (hplain : table.Plain)
    (hspecs : ∀ n ∈ table.resolve current, ∀ columns ∈ c n, AlterFollowed columns.names specs)
    (hexec : exec current c (.alterTable table specs) = some c') :
    Tracks (tablesAfter rt (visitAlterTable text (some table.text)
      (specs.map tree)) tables) c' := by
  obtain ⟨d, hd⟩ := isSome_iff_exists.mp hqualified
  have hresolve := resolve_of_qualified hd current
  obtain ⟨hdatabase, htable⟩ := aboutTable_text hplain .alterTable text
  rw [hd] at hdatabase
  simp only [exec, hresolve, bind_eq_bind, bind_some] at hexec
  obtain ⟨columns, columns', hcolumns, hnames, rfl⟩ := exists_of_alter (hspecs _ hresolve) hexec
  obtain ⟨info, hinfo, hshows⟩ := (tracks_iff.mp h).2 _ columns hcolumns
  have hget : tables.get (visitAlterTable text (some table.text)
      (specs.map tree)).database (visitAlterTable text (some table.text)
        (specs.map tree)).table = some info := by
    change tables.get (aboutTable .alterTable text (some table.text)).database
      (aboutTable .alterTable text (some table.text)).table = some info
    rw [hdatabase, htable]
    exact hinfo
  -- The visitor starts with no changes.
  have hchanges : ∃ changes, (visitAlterTable text (some table.text)
      (specs.map tree)).tableChanges = some ((specs.map tree).foldl
        visitAlterSpecification changes) ∧ collectedNames changes = ([], [], []) :=
    ⟨_, rfl, rfl⟩
  obtain ⟨changes, hchanges, hempty⟩ := hchanges
  rw [tablesAfter_alter rfl hget hchanges]
  refine h.put (hplain.noDots hd) ⟨hshows.database, hshows.table, ?_⟩
  exact (hspecs _ hresolve columns hcolumns).map_name_visitAlterTable columns.nodup hnames rt
    hshows.columns hempty

lemma foldl_drop_of_missing {names : List TableName} (h : ∀ n ∈ names, c n = none) :
    names.foldl (fun c n => update c n none) c = c := by
  induction names with
  | nil => rfl
  | cons n names ih =>
    obtain ⟨hn, hrest⟩ := forall_mem_cons.mp h
    have hsame : update c n none = c := by rw [← hn, update_eq_self]
    rw [foldl_cons, hsame, ih hrest]

lemma exists_of_mem_resolved {names : List TableName}
    (h : ts.mapM (TableRef.resolve current) = some names) (hn : n ∈ names) :
    ∃ t ∈ ts, t.resolve current = some n := by
  induction ts generalizing names with
  | nil =>
    obtain rfl := some.inj h
    exact absurd hn not_mem_nil
  | cons t ts ih =>
    simp only [mapM_cons, bind_eq_bind, bind_eq_some_iff] at h
    obtain ⟨m, hm, ms, hms, hcons⟩ := h
    obtain rfl := some.inj hcons
    rcases mem_cons.mp hn with rfl | hn
    · exact ⟨t, mem_cons_self, hm⟩
    · obtain ⟨t', ht', hresolve⟩ := ih hms hn
      exact ⟨t', mem_cons_of_mem _ ht', hresolve⟩

lemma exists_of_drop {ifExists : Bool} (hmissing : ∀ t ∈ ts, Missing c current t)
    (hexec : exec current c (.dropTable ifExists (t :: ts)) = some c') :
    ∃ n, t.resolve current = some n ∧ c' = update c n none := by
  simp only [exec, bind_eq_bind, bind_eq_some_iff] at hexec
  obtain ⟨names, hnames, hdrop⟩ := hexec
  rw [mapM_cons] at hnames
  simp only [bind_eq_bind, bind_eq_some_iff] at hnames
  obtain ⟨n, hn, ns, hns, hcons⟩ := hnames
  obtain rfl := some.inj hcons
  split_ifs at hdrop
  refine ⟨n, hn, ?_⟩
  have hrest : ∀ m ∈ ns, update c n none m = none := by
    intro m hm
    by_cases heq : m = n
    · rw [heq, update_self]
    · obtain ⟨t', ht', hresolve⟩ := exists_of_mem_resolved hns hm
      rw [update_of_ne heq]
      exact hmissing t' ht' m hresolve
  rw [← some.inj hdrop, foldl_cons, foldl_drop_of_missing hrest]

lemma Tracks.dropTable (h : Tracks tables c) {ifExists : Bool} (hplain : t.Plain)
    (hfirst : t.database = none → Missing c current t) (hmissing : ∀ t ∈ ts, Missing c current t)
    (hexec : exec current c (.dropTable ifExists (t :: ts)) = some c') :
    Tracks (tablesAfter rt (aboutTable .dropTable text (some t.text)) tables) c' := by
  obtain ⟨n, hn, rfl⟩ := exists_of_drop hmissing hexec
  obtain ⟨hdatabase, htable⟩ := aboutTable_text hplain .dropTable text
  have hafter : tablesAfter rt (aboutTable .dropTable text (some t.text)) tables =
      tables.remove (t.database.elim [] Ident.value) t.table.value := by
    rw [← hdatabase, ← htable]
    rfl
  rw [hafter]
  rcases hd : t.database with _ | d
  · -- Neither side has the table.
    have hnone : c n = none := hfirst hd n hn
    have hcatalog : update c n none = c := by rw [← hnone, update_eq_self]
    have htables : tables.remove [] t.table.value = tables := by
      rw [Tables.remove, ← show tables (tableKey [] t.table.value) = none from
        h.get_nil hplain.table.2, update_eq_self]
    rw [hcatalog]
    exact htables.symm ▸ h
  · rw [resolve_of_qualified hd] at hn
    obtain rfl := some.inj hn
    exact h.remove (hplain.noDots hd)

/-- The definitions after a statement that the syncer follows are the tables of the server. -/
lemma tracks_of_followed (h : Tracks tables c) {q : DDLQuery rt} (hddl : isDDL q.query = true)
    (hfollowed : Followed c q) (hexec : q.exec c = some c')
    (hr : visitDdlStatement rt.toUpper text q.statement.tree = some r) :
    Tracks (if r.table ≠ [] then tablesAfter rt r tables else tables) c' := by
  rw [Followed, if_pos hddl] at hfollowed
  -- Where the catalog stays, it is enough that the definitions stay.
  have hkept : q.exec c = some c → (r.table ≠ [] → tablesAfter rt r tables = tables) →
      Tracks (if r.table ≠ [] then tablesAfter rt r tables else tables) c' := by
    intro hsame hafter
    rw [hexec, some.injEq] at hsame
    rw [hsame]
    split_ifs with hname
    · exact (hafter hname).symm ▸ h
    · exact h
  obtain ⟨arrival, current, query, st, body_eq, tree_eq⟩ := q
  rcases st with ⟨ifNotExists, table, entries⟩ | ⟨_, table, template⟩ | ⟨_, table, columns⟩ |
    ⟨table, specs⟩ | renames | ⟨ifExists, ts⟩
  · obtain ⟨hqualified, hplain, hentries, hsame⟩ := hfollowed
    obtain rfl := some.inj hr
    rw [if_pos ?_]
    · exact h.createTable hqualified hplain hentries hsame hexec
    · exact (aboutTable_text hplain .createTable text).2 ▸ table.table.nonempty
  iterate 2
    obtain rfl := some.inj hr
    exact hkept hfollowed fun _ => rfl
  · obtain ⟨hplain, hfollowed⟩ := hfollowed
    obtain rfl := some.inj hr
    obtain ⟨hdatabase, htable⟩ := aboutTable_text hplain .alterTable text
    split_ifs at hfollowed with hqualified
    · rw [if_pos ?_]
      · exact h.alterTable hqualified hplain hfollowed hexec
      · exact htable ▸ table.table.nonempty
    · refine hkept hfollowed fun _ => tablesAfter_alter_of_missing rfl ?_
      -- The syncer looks for the table in the empty database.
      change tables.get (aboutTable .alterTable text (some table.text)).database
        (aboutTable .alterTable text (some table.text)).table = none
      rw [hdatabase, htable, not_isSome_iff_eq_none.mp hqualified]
      exact h.get_nil hplain.table.2
  · obtain rfl := some.inj hr
    exact hkept hfollowed fun hname => absurd rfl hname
  · obtain rfl := some.inj hr
    rcases ts with _ | ⟨t, ts⟩
    · have hsame : c = c' := by simpa [DDLQuery.exec, exec] using hexec
      exact hsame ▸ h
    · obtain ⟨hplain, hfirst⟩ := hfollowed.1 t rfl
      rw [if_pos ?_]
      · exact h.dropTable hplain hfirst hfollowed.2 hexec
      · exact (aboutTable_text hplain .dropTable text).2 ▸ t.table.nonempty

/-! ## Whole runs -/

/-- The server after a query; a statement that fails has no effect. -/
def serverStep (c : Catalog fold) (q : DDLQuery rt) : Catalog fold := (q.exec c).getD c

/-- The definitions of a syncer are the tables of the server. -/
def InStep (c : Catalog fold) (s : Syncer) : Prop :=
  ∃ tables, s.schema.tables = some tables ∧ Tracks tables c

lemma InStep.processEvent {s : Syncer} (h : InStep c s) (shouldCapture : Bytes → Bytes → Bool)
    (hasStore : Bool) (zone : ℤ → ℤ) {q : DDLQuery rt} (hexec : (q.exec c).isSome)
    (hfollowed : Followed c q) :
    InStep (serverStep c q) ((newBinlogSyncer shouldCapture (some rt.parser) hasStore
      zone).processEvent s q.arrival).1 := by
  obtain ⟨tables, hs, htracks⟩ := h
  obtain ⟨c', hc'⟩ := isSome_iff_exists.mp hexec
  obtain ⟨text, htables⟩ := tables_processEvent shouldCapture hasStore zone s q
  obtain ⟨r, hr⟩ : ∃ r, visitDdlStatement rt.toUpper text q.statement.tree = some r := by
    rcases q.statement <;> exact ⟨_, rfl⟩
  have hstep : serverStep c q = c' := by rw [serverStep, hc', getD_some]
  rw [InStep, hstep, htables r hr, hs]
  by_cases hddl : isDDL q.query = true
  · refine ⟨_, ?_, tracks_of_followed htracks hddl hfollowed hc' hr⟩
    by_cases hname : r.table = []
    · simp [hname]
    · simp [hddl, hname]
  · -- The syncer does not look at the statement.
    rw [Followed, if_neg hddl, hc', some.injEq] at hfollowed
    exact ⟨tables, if_neg fun hand => hddl hand.1, hfollowed ▸ htracks⟩

end

/-- In every run of the server whose statements are all followed, from definitions that are the
tables of the server, the definitions are its tables in every state that is reached. -/
theorem tracks_foldl (fold : Bytes → Bytes) (rt : Runtime)
    (shouldCapture : Bytes → Bytes → Bool) (hasStore : Bool) (zone : ℤ → ℤ) (c : Catalog fold)
    (s : Syncer) (tables : Tables) (hs : s.schema.tables = some tables) (htracks : Tracks tables c)
    (log : List (DDLQuery rt)) (hexec : Along serverStep (fun c q => (q.exec c).isSome) c log)
    (hfollowed : Along serverStep Followed c log) (past : List (DDLQuery rt))
    (hpast : past <+: log) :
    ∃ tables', (past.foldl (fun s q => ((newBinlogSyncer shouldCapture (some rt.parser) hasStore
        zone).processEvent s q.arrival).1) s).schema.tables = some tables' ∧
      tables'.WellKeyed ∧ trackedViews tables' = catalogViews (past.foldl serverStep c) := by
  have hstep : InStep (past.foldl serverStep c) (past.foldl (fun s q => ((newBinlogSyncer
      shouldCapture (some rt.parser) hasStore zone).processEvent s q.arrival).1) s) :=
    (hexec.and hfollowed).foldl_rel
      (fun c s q hq h => h.processEvent shouldCapture hasStore zone hq.1 hq.2)
      ⟨tables, hs, htracks⟩ hpast
  obtain ⟨tables', hs', htracks'⟩ := hstep
  exact ⟨tables', hs', htracks'.wellKeyed, htracks'.views_eq⟩

/-! ## A table with and without its database -/

def bareIdent (value : Bytes) (h : value ≠ [] ∧ ∀ b ∈ value, isIdentByte b = true) : Ident :=
  ⟨value, .bare, h.1, fun _ => h.2⟩

/-- `shop.orders`. -/
def qualifiedOrders : TableRef :=
  ⟨some (bareIdent (lit "shop") (by decide +kernel)), bareIdent (lit "orders") (by decide +kernel)⟩

/-- `orders`. -/
def unqualifiedOrders : TableRef := ⟨none, bareIdent (lit "orders") (by decide +kernel)⟩

/-- A single column. -/
def idColumn : List CreateEntry :=
  [.column (bareIdent (lit "id") (by decide +kernel))
    { text := lit "INT", dataType := some (lit "INT"), constraints := [] }]

/-- The table is created with its database. -/
def createQualified : DDLQuery ordersRuntime where
  arrival := queryEvent createOrders 100 200
  current := lit "shop"
  query := createOrders
  statement := .createTable false qualifiedOrders idColumn
  body_eq := rfl
  tree_eq := ⟨_, rfl⟩

/-- The table is dropped. -/
def dropQualified : DDLQuery ordersRuntime where
  arrival := queryEvent dropOrders 200 300
  current := lit "shop"
  query := dropOrders
  statement := .dropTable false [qualifiedOrders]
  body_eq := rfl
  tree_eq := ⟨_, rfl⟩

lemma plain_qualifiedOrders : qualifiedOrders.Plain where
  database := by
    rintro d ⟨⟩
    decide
  table := by decide

/-- The table is tracked while it is there, and after it is dropped. -/
theorem tracks_foldl_createQualified :
    ∃ tables', ([createQualified, dropQualified].foldl (fun s q => ((newBinlogSyncer
        (fun _ _ => true) (some ordersRuntime.parser) true fun _ => 0).processEvent s
          q.arrival).1) (fresh (lit "binlog.000001"))).schema.tables = some tables' ∧
      tables'.WellKeyed ∧ trackedViews tables' = catalogViews
        ([createQualified, dropQualified].foldl serverStep (fun _ => none : Catalog id)) := by
  refine tracks_foldl id ordersRuntime (fun _ _ => true) true (fun _ => 0) (fun _ => none)
    (fresh (lit "binlog.000001")) .empty rfl tracks_empty [createQualified, dropQualified] ?_ ?_ _
    (prefix_refl _)
  · exact ⟨by decide, by decide, trivial⟩
  · refine ⟨?_, ?_, trivial⟩
    · rw [Followed, if_pos (by decide)]
      refine ⟨rfl, plain_qualifiedOrders, ?_, fun _ _ _ hcolumns => nomatch hcolumns⟩
      intro e he
      obtain rfl := mem_singleton.mp he
      exact ⟨by decide, by decide⟩
    · rw [Followed, if_pos (by decide)]
      refine ⟨?_, fun _ ht => absurd ht not_mem_nil⟩
      rintro t ⟨⟩
      exact ⟨plain_qualifiedOrders, fun hnone => nomatch hnone⟩

/-- The tree of `CREATE TABLE orders (id INT)`. -/
def unqualifiedRuntime : Runtime where
  tree _ :=
    { text := lit "CREATETABLEorders(idINT)<EOF>"
      statements := [some (Statement.createTable false unqualifiedOrders idColumn).tree] }
  toUpper s := s.map Text.upper

/-- The table is created in the default database. -/
def createUnqualified : DDLQuery unqualifiedRuntime where
  arrival := queryEvent (lit "CREATE TABLE orders (id INT)") 100 200
  current := lit "shop"
  query := lit "CREATE TABLE orders (id INT)"
  statement := .createTable false unqualifiedOrders idColumn
  body_eq := rfl
  tree_eq := ⟨_, rfl⟩

/-- A table that is created in the default database is stored with an empty database. -/
theorem not_forall_tracks_foldl :
    ¬∀ (fold : Bytes → Bytes) (rt : Runtime) (shouldCapture : Bytes → Bytes → Bool)
      (hasStore : Bool) (zone : ℤ → ℤ) (c : Catalog fold) (s : Syncer) (tables : Tables),
      s.schema.tables = some tables → Tracks tables c → ∀ log : List (DDLQuery rt),
      Along serverStep (fun c q => (q.exec c).isSome) c log →
      ∃ tables', (log.foldl (fun s q => ((newBinlogSyncer shouldCapture (some rt.parser) hasStore
          zone).processEvent s q.arrival).1) s).schema.tables = some tables' ∧
        trackedViews tables' = catalogViews (log.foldl serverStep c) := by
  intro hall
  obtain ⟨tables', htables', hviews⟩ := hall id unqualifiedRuntime (fun _ _ => true) true
    (fun _ => 0) (fun _ => none) (fresh (lit "binlog.000001")) .empty rfl tracks_empty
    [createUnqualified] ⟨by decide, trivial⟩
  have hview : (tables'.get [] (lit "orders")).map (fun info =>
      (info.database, info.table, info.columns.map name)) =
        some ([], lit "orders", [lit "id"]) := by
    have hget := congrArg (fun tables : Option Tables => tables.bind fun tables =>
      (tables.get [] (lit "orders")).map fun info =>
        (info.database, info.table, info.columns.map name)) htables'
    refine hget.symm.trans ?_
    decide
  obtain ⟨info, hinfo, heq⟩ := map_eq_some_iff.mp hview
  have hmem : ([], lit "orders", [lit "id"]) ∈ trackedViews tables' := ⟨_, info, hinfo, heq.symm⟩
  -- No table of the server is in a database with an empty name.
  rw [hviews] at hmem
  obtain ⟨n, columns, -, hn⟩ := hmem
  exact n.database_ne (congrArg Prod.fst hn).symm

end DataStream.Source.MySQL
