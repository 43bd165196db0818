import DataStream.Foundations.Sql.Table
import DataStream.Sink.SqlStatements

/-!
# What the texts of the SQL sinks stand for

Each connector writes for one dialect of SQL. This file reads the texts of the statements back:
for names without the closing quote of the dialect, the text that a connector builds has the tokens
of a statement on the table of the event, with placeholders in the order of the arguments.

* `SqlStyle.In.lex_sets`, `SqlStyle.In.lex_wheres`, `SqlStyle.In.lex_columnList`,
  `SqlStyle.In.lex_placeholders`: the parts of the texts;
* `SqlStyle.In.lex_updateText`, `SqlStyle.In.lex_deleteText`, `SqlStyle.In.lex_insertText`: the
  texts;
* `SqlSink.lex_insertText`: the insert of each connector, by its strategy.
-/

namespace DataStream.Sink

open Event Bytes Text Sql Sql.Token List Statement OnConflict

/-! ## Dialects -/

/-- Names in backticks, placeholders without numbers. -/
def Mysql.dialect : Dialect where
  openQuote := 96
  closeQuote := 96
  markerHead := 63
  markerTail := []
  numbered := false
  openQuote_special := by decide
  closeQuote_special := by decide
  markerHead_special := isPlain_questionMark
  markerHead_ne := by decide

/-- Names in double quotes, numbered placeholders with a dollar sign. -/
def Postgres.dialect : Dialect where
  openQuote := 34
  closeQuote := 34
  markerHead := 36
  markerTail := []
  numbered := true
  openQuote_special := isPlain_doubleQuote
  closeQuote_special := isPlain_doubleQuote
  markerHead_special := by decide
  markerHead_ne := by decide

/-- Names in double quotes, numbered placeholders with a colon. -/
def Oracle.dialect : Dialect where
  openQuote := 34
  closeQuote := 34
  markerHead := 58
  markerTail := []
  numbered := true
  openQuote_special := isPlain_doubleQuote
  closeQuote_special := isPlain_doubleQuote
  markerHead_special := by decide
  markerHead_ne := by decide

/-- Names in square brackets, numbered placeholders with `@p`. -/
def Sqlserver.dialect : Dialect where
  openQuote := 91
  closeQuote := 93
  markerHead := 64
  markerTail := [112]
  numbered := true
  openQuote_special := by decide
  closeQuote_special := by decide
  markerHead_special := by decide
  markerHead_ne := by decide

/-- A connector writes names and placeholders as the dialect has them. -/
structure SqlStyle.In (s : SqlStyle) (d : Dialect) : Prop where
  quote : ∀ name, s.quote name = d.quote name
  placeholder : ∀ n, s.placeholder n = d.placeholder n

lemma Mysql.style_in : Mysql.style.In Mysql.dialect := ⟨fun _ => rfl, fun _ => rfl⟩

lemma Postgres.style_in : Postgres.style.In Postgres.dialect := ⟨fun _ => rfl, fun _ => rfl⟩

lemma Oracle.style_in : Oracle.style.In Oracle.dialect := ⟨fun _ => rfl, fun _ => rfl⟩

lemma Sqlserver.style_in : Sqlserver.style.In Sqlserver.dialect := ⟨fun _ => rfl, fun _ => rfl⟩

/-! ## Parts of the texts -/

variable (d : Dialect) (first : ℕ) (columns : List Bytes)

/-- The equations of a clause with placeholders from `first` on. -/
def numberedEquations : List (Bytes × Option ℕ) :=
  columns.mapIdx fun i col => (col, d.number (first + i))

/-- The placeholders of an insert. -/
def numbers : List (Option ℕ) :=
  columns.mapIdx fun i _ => d.number (i + 1)

section Numbers

variable (d : Dialect) (i first : ℕ) (col : Bytes) (columns : List Bytes)

lemma numberedEquations_cons :
    numberedEquations d first (col :: columns) =
      (col, d.number first) :: numberedEquations d (first + 1) columns := by
  simp [numberedEquations, mapIdx_cons, Nat.add_assoc, Nat.add_comm 1]

@[simp]
lemma map_fst_numberedEquations : (numberedEquations d first columns).map Prod.fst = columns := by
  induction columns generalizing first with
  | nil => rfl
  | cons col columns ih => rw [numberedEquations_cons, map_cons, ih]

@[simp]
lemma length_numberedEquations :
    (numberedEquations d first columns).length = columns.length := length_mapIdx

lemma numbers_eq : numbers d columns = (numberedEquations d 1 columns).map Prod.snd := by
  rw [numbers, numberedEquations, mapIdx_eq_zipIdx_map, mapIdx_eq_zipIdx_map, List.map_map]
  apply map_congr_left
  intro p _
  exact congrArg d.number (Nat.add_comm _ _)

lemma inOrder_numberedEquations :
    InOrder i ((numberedEquations d (i + 1) columns).map Prod.snd) := by
  induction columns generalizing i with
  | nil => trivial
  | cons col columns ih =>
    rw [numberedEquations_cons]
    exact ⟨getD_number d (i + 1), ih (i + 1)⟩

end Numbers

section Parts

variable {d : Dialect} {s : SqlStyle}

/-- No name has the closing quote of the dialect in it. -/
def Unquoted (d : Dialect) (names : List Bytes) : Prop := ∀ name ∈ names, d.closeQuote ∉ name
  deriving Decidable

lemma lex_where : lex d (lit " WHERE ") = some [keyword "WHERE"] := lex_lit (by decide)

lemma lex_rparen : lex d (lit ")") = some [rparen] := lex_lit (by decide)

lemma lex_joined_comma {α : Type} (text : α → Bytes) (tokens : α → List Token) (items : List α)
    (h : ∀ x ∈ items, lex d (text x) = some (tokens x)) :
    lex d (joined ", " (items.map text)) = some (separated comma (items.map tokens)) :=
  lex_intercalate (lex_lit (by decide)) (by decide) (by decide) text tokens items h

lemma lex_joined_and {α : Type} (text : α → Bytes) (tokens : α → List Token) (items : List α)
    (h : ∀ x ∈ items, lex d (text x) = some (tokens x)) :
    lex d (joined " AND " (items.map text)) = some (separated (keyword "AND") (items.map tokens)) :=
  lex_intercalate (lex_lit (by decide)) (by decide) (by decide) text tokens items h

namespace SqlStyle.In

variable (h : s.In d)
include h

lemma lex_name {name : Bytes} (hname : d.closeQuote ∉ name) :
    lex d (s.quote name) = some [.name name] := by
  rw [h.quote]
  exact lex_quote hname

variable {columns : List Bytes}

theorem lex_columnList (hnames : Unquoted d columns) :
    lex d (s.columnList columns) = some (namesTokens columns) :=
  lex_joined_comma _ _ _ fun col hcol => h.lex_name (hnames col hcol)

theorem lex_placeholders (columns : List Bytes) :
    lex d (s.placeholders columns) =
      some (separated comma ((numbers d columns).map fun n => [param n])) := by
  rw [SqlStyle.placeholders, numbers, mapIdx_eq_zipIdx_map, mapIdx_eq_zipIdx_map, List.map_map]
  apply lex_joined_comma
  intro p _
  change lex d (s.placeholder (p.2 + 1)) = some [param (d.number (p.2 + 1))]
  rw [h.placeholder]
  exact lex_placeholder _

lemma lex_equation {col : Bytes} (hcol : d.closeQuote ∉ col) (n : ℕ) :
    lex d (s.quote col ++ lit " = " ++ s.placeholder n) =
      some (equationTokens (col, d.number n)) := by
  have hparam : lex d (s.placeholder n) = some [param (d.number n)] := by
    rw [h.placeholder]
    exact lex_placeholder n
  have hequals : lex d (lit " = ") = some [equals] := lex_lit (by decide)
  rw [append_assoc]
  exact lex_append_of_starts (h.lex_name hcol) (lex_append_of_ends hequals hparam rfl) rfl

lemma lex_equation_of_mem (hnames : Unquoted d columns) (first : ℕ) (p : Bytes × ℕ)
    (hp : p ∈ columns.zipIdx) :
    lex d (s.quote p.1 ++ lit " = " ++ s.placeholder (first + p.2)) =
      some (equationTokens (p.1, d.number (first + p.2))) :=
  h.lex_equation (hnames p.1 (fst_mem_of_mem_zipIdx hp)) _

theorem lex_sets (hnames : Unquoted d columns) (first : ℕ) :
    lex d (joined ", " (s.equations first columns)) =
      some (separated comma ((numberedEquations d first columns).map equationTokens)) := by
  rw [SqlStyle.equations, numberedEquations, mapIdx_eq_zipIdx_map,
    mapIdx_eq_zipIdx_map, List.map_map]
  exact lex_joined_comma _ _ _ fun p hp => h.lex_equation_of_mem hnames first p hp

theorem lex_wheres (hnames : Unquoted d columns) (first : ℕ) :
    lex d (joined " AND " (s.equations first columns)) =
      some (separated (keyword "AND")
        ((numberedEquations d first columns).map equationTokens)) := by
  rw [SqlStyle.equations, numberedEquations, mapIdx_eq_zipIdx_map,
    mapIdx_eq_zipIdx_map, List.map_map]
  exact lex_joined_and _ _ _ fun p hp => h.lex_equation_of_mem hnames first p hp

/-! ## The texts -/

variable {table : Bytes} {target columns keyColumns : List Bytes}
  (htable : lex d table = some (tableTokens target))
include htable

theorem lex_updateText (hcolumns : Unquoted d columns) (hkeys : Unquoted d keyColumns) (n : ℕ) :
    lex d (lit "UPDATE " ++ table ++ lit " SET " ++ joined ", " (s.equations 1 columns) ++
      lit " WHERE " ++ joined " AND " (s.equations (n + 1) keyColumns)) =
      some (update target (numberedEquations d 1 columns)
        (numberedEquations d (n + 1) keyColumns)).tokens := by
  have hupdate : lex d (lit "UPDATE ") = some [keyword "UPDATE"] := lex_lit (by decide)
  have hset : lex d (lit " SET ") = some [keyword "SET"] := lex_lit (by decide)
  simp only [append_assoc]
  -- Each literal text starts and ends with white space, so nothing is joined to it.
  apply lex_append_of_ends hupdate _ rfl
  apply lex_append_of_starts htable _ rfl
  apply lex_append_of_ends hset _ rfl
  apply lex_append_of_starts (h.lex_sets hcolumns 1) _ rfl
  exact lex_append_of_ends lex_where (h.lex_wheres hkeys _) rfl

theorem lex_deleteText (hkeys : Unquoted d keyColumns) :
    lex d (lit "DELETE FROM " ++ table ++ lit " WHERE " ++
      joined " AND " (s.equations 1 keyColumns)) =
      some (delete target (numberedEquations d 1 keyColumns)).tokens := by
  have hdelete : lex d (lit "DELETE FROM ") = some [keyword "DELETE", keyword "FROM"] :=
    lex_lit (by decide)
  simp only [append_assoc]
  apply lex_append_of_ends hdelete _ rfl
  apply lex_append_of_starts htable _ rfl
  exact lex_append_of_ends lex_where (h.lex_wheres hkeys _) rfl

/-- The text of an insert, with its first words and a clause about conflicts. -/
theorem lex_insertText (replace : Bool) (hcolumns : Unquoted d columns) {clause : Bytes}
    {c : OnConflict} (hclause : lex d clause = some c.tokens) :
    lex d (lit (if replace then "REPLACE INTO " else "INSERT INTO ") ++ table ++ lit " (" ++
      s.columnList columns ++ lit ") VALUES (" ++ s.placeholders columns ++ lit ")" ++ clause) =
      some (insert replace target columns (numbers d columns) c).tokens := by
  have hinto : lex d (lit (if replace then "REPLACE INTO " else "INSERT INTO ")) =
      some [keyword (if replace then "REPLACE" else "INSERT"), keyword "INTO"] := by
    cases replace <;> exact lex_lit (by decide)
  have hends : endsInBreak (lit (if replace then "REPLACE INTO " else "INSERT INTO ")) = true := by
    cases replace <;> decide
  have hopen : lex d (lit " (") = some [lparen] := lex_lit (by decide)
  have hvalues : lex d (lit ") VALUES (") = some [rparen, keyword "VALUES", lparen] :=
    lex_lit (by decide)
  simp only [append_assoc]
  -- The texts between the lists start and end with white space or a parenthesis.
  apply lex_append_of_ends hinto _ hends
  apply lex_append_of_starts htable _ rfl
  apply lex_append_of_ends hopen _ rfl
  apply lex_append_of_starts (h.lex_columnList hcolumns) _ rfl
  apply lex_append_of_ends hvalues _ rfl
  apply lex_append_of_starts (h.lex_placeholders columns) _ rfl
  exact lex_append_of_ends lex_rparen hclause rfl

end SqlStyle.In

end Parts

/-! ## Tables -/

/-- The name of the table of an event for Oracle and SQL Server, with a schema if there is any. -/
def schemaTarget (configured schema table : Bytes) : List Bytes :=
  let schema := if schema = [] then configured else schema
  if schema ≠ [] then [schema, table] else [table]

namespace SqlSink

def dialect : SqlSink → Dialect
  | mysql _ => Mysql.dialect
  | postgres _ => Postgres.dialect
  | oracle _ => Oracle.dialect
  | sqlserver _ => Sqlserver.dialect

/-- How a sink writes names and placeholders. -/
def style : SqlSink → SqlStyle
  | mysql _ => Mysql.style
  | postgres _ => Postgres.style
  | oracle _ => Oracle.style
  | sqlserver _ => Sqlserver.style

/-- The name of the table that the events of a table are written to. -/
def target (sink : SqlSink) (t : TableInfo) : List Bytes :=
  match sink with
  | mysql _ => [t.database, t.table]
  | postgres cfg => [if t.schema ≠ [] then t.schema else cfg.defaultSchema, t.table]
  | oracle cfg => schemaTarget cfg.defaultSchema t.schema t.table
  | sqlserver cfg => schemaTarget cfg.schema t.schema t.table

/-- The quoted name of the table that an event is written to. -/
def tableText (sink : SqlSink) (e : ChangeEvent) : Bytes :=
  match sink with
  | mysql _ => Mysql.table e
  | postgres cfg => Postgres.getSchemaTable cfg e
  | oracle cfg => Oracle.getSchemaTableFromEvent cfg e
  | sqlserver cfg => Sqlserver.getSchemaTableFromEvent cfg e

variable (sink : SqlSink)

lemma style_in : sink.style.In sink.dialect := by
  cases sink with
  | mysql _ => exact Mysql.style_in
  | postgres _ => exact Postgres.style_in
  | oracle _ => exact Oracle.style_in
  | sqlserver _ => exact Sqlserver.style_in

lemma target_ne_nil (t : TableInfo) : sink.target t ≠ [] := by
  cases sink with
  | mysql _ | postgres _ => exact cons_ne_nil _ _
  | oracle _ | sqlserver _ =>
    unfold target schemaTarget
    simp only
    split_ifs <;> exact cons_ne_nil _ _

end SqlSink

section Tables

variable {d : Dialect} {s : SqlStyle}

lemma SqlStyle.In.lex_twoParts (h : s.In d) {schema table : Bytes}
    (hnames : Unquoted d [schema, table]) :
    lex d (s.quote schema ++ (lit "." ++ s.quote table)) = some (tableTokens [schema, table]) := by
  have hdot : lex d (lit ".") = some [dot] := lex_lit (by decide)
  have hschema := h.lex_name (hnames schema (by simp))
  have htable := h.lex_name (hnames table (by simp))
  exact lex_append_of_starts hschema (lex_append_of_ends hdot htable rfl) rfl

lemma SqlStyle.In.lex_schemaTable (h : s.In d) {configured schema table : Bytes}
    (hnames : Unquoted d (schemaTarget configured schema table)) :
    lex d (schemaTable s.quote configured schema table) =
      some (tableTokens (schemaTarget configured schema table)) := by
  unfold schemaTable schemaTarget at *
  simp only at *
  generalize (if schema = [] then configured else schema) = schema' at *
  split_ifs at * with hschema
  · rw [append_assoc]
    exact h.lex_twoParts hnames
  · exact h.lex_name (hnames table (by simp))

lemma SqlSink.lex_tableText (sink : SqlSink) {e : ChangeEvent}
    (hnames : Unquoted sink.dialect (sink.target e.table)) :
    lex sink.dialect (sink.tableText e) = some (tableTokens (sink.target e.table)) := by
  cases sink with
  | mysql cfg =>
    -- The text between the two names is the closing quote, the dot and the opening quote.
    have htext : Mysql.table e =
        Mysql.style.quote e.table.database ++ (lit "." ++ Mysql.style.quote e.table.table) := by
      simp only [Mysql.table, Mysql.style, quoted, append_assoc]
      rfl
    rw [tableText, htext]
    exact Mysql.style_in.lex_twoParts hnames
  | postgres cfg =>
    have htext : Postgres.getSchemaTable cfg e =
        Postgres.style.quote (Postgres.schema cfg e) ++
          (lit "." ++ Postgres.style.quote e.table.table) := by
      simp only [Postgres.getSchemaTable, Postgres.style, quoted, append_assoc]
      rfl
    rw [tableText, htext]
    exact Postgres.style_in.lex_twoParts hnames
  | oracle cfg => exact Oracle.style_in.lex_schemaTable hnames
  | sqlserver cfg => exact Sqlserver.style_in.lex_schemaTable hnames

end Tables

/-! ## Inserts -/

/-- Each column is assigned itself. -/
def selfSets (columns : List Bytes) : List (Bytes × Bytes) := columns.map fun col => (col, col)

namespace Mysql

lemma columnList_eq {columns : List Bytes} (h : columns ≠ []) :
    columnList columns = lit "(" ++ (style.columnList columns ++ lit ")") := by
  have hjoined : ∀ (col : Bytes) (rest : List Bytes),
      lit "`" ++ (joined "`, `" (col :: rest) ++ lit "`") = style.columnList (col :: rest) := by
    intro col rest
    induction rest generalizing col with
    | nil => simp [joined, SqlStyle.columnList, style, quoted, List.intercalate]
    | cons col' rest ih =>
      have ih' := ih col'
      simp only [joined, SqlStyle.columnList, map_cons, intercalate_cons_cons] at ih' ⊢
      -- The separator of the source is a closing quote, a comma and an opening quote.
      rw [← ih', show lit "`, `" = lit "`" ++ (lit ", " ++ lit "`") by decide]
      simp only [style, quoted, append_assoc]
  obtain ⟨col, rest, rfl⟩ := exists_cons_of_ne_nil h
  rw [← hjoined, columnList, show lit "(`" = lit "(" ++ lit "`" by decide,
    show lit "`)" = lit "`" ++ lit ")" by decide]
  simp only [append_assoc]

/-- What is said about conflicts by the configured strategy. -/
def onConflict (cfg : Config) (columns : List Bytes) : OnConflict :=
  if cfg.insertStrategy = lit "upsert" then .update none (selfSets columns) else .fail

lemma lex_upsert {columns : List Bytes} (hcolumns : Unquoted dialect columns) :
    lex dialect (lit " ON DUPLICATE KEY UPDATE " ++ joined ", " (columns.map fun col =>
      lit "`" ++ col ++ lit "` = VALUES(`" ++ col ++ lit "`)")) =
      some (update none (selfSets columns)).tokens := by
  have hon : lex dialect (lit " ON DUPLICATE KEY UPDATE ") =
      some [keyword "ON", keyword "DUPLICATE", keyword "KEY", keyword "UPDATE"] :=
    lex_lit (by decide)
  have hopen : lex dialect (lit " = VALUES(") = some [equals, keyword "VALUES", lparen] :=
    lex_lit (by decide)
  apply lex_append_of_ends hon _ rfl
  rw [selfSets, List.map_map]
  apply lex_joined_comma
  intro col hcol
  have hname := style_in.lex_name (hcolumns col hcol)
  have htext : lit "`" ++ col ++ lit "` = VALUES(`" ++ col ++ lit "`)" =
      style.quote col ++ (lit " = VALUES(" ++ (style.quote col ++ lit ")")) := by
    simp only [style, quoted, append_assoc]
    rfl
  rw [htext]
  apply lex_append_of_starts hname _ rfl
  apply lex_append_of_ends hopen _ rfl
  exact lex_append_of_starts hname lex_rparen rfl

theorem lex_insertText (cfg : Config) {e : ChangeEvent} {columns : List Bytes}
    (hne : columns ≠ []) (hcolumns : Unquoted dialect columns)
    (hnames : Unquoted dialect [e.table.database, e.table.table]) :
    lex dialect (insertText cfg e columns) = some (insert
      (cfg.insertStrategy = lit "replace") [e.table.database, e.table.table] columns
      (numbers dialect columns) (onConflict cfg columns)).tokens := by
  have htable : lex dialect (table e) = some (tableTokens [e.table.database, e.table.table]) :=
    (SqlSink.mysql cfg).lex_tableText hnames
  have hinto : ∀ (replace : Bool) {clause : Bytes} {c : OnConflict},
      lex dialect clause = some c.tokens →
      lex dialect (lit (if replace then "REPLACE INTO " else "INSERT INTO ") ++ (table e ++
        lit " " ++ columnList columns ++ lit " VALUES (" ++ style.placeholders columns ++
          lit ")") ++ clause) =
        some (insert replace [e.table.database, e.table.table] columns
          (numbers dialect columns) c).tokens := by
    intro replace clause c hclause
    rw [← style_in.lex_insertText htable replace hcolumns hclause, columnList_eq hne]
    simp only [append_assoc]
    rfl
  have hfail : lex dialect [] = some fail.tokens := rfl
  -- The strategies differ in the first word and in the clause at the end.
  unfold insertText onConflict
  by_cases hreplace : cfg.insertStrategy = lit "replace"
  · have hupsert : lit "replace" ≠ lit "upsert" := by decide
    simpa only [hreplace, if_true, if_neg hupsert, decide_true, append_nil] using hinto true hfail
  · by_cases hupsert : cfg.insertStrategy = lit "upsert"
    · simpa only [hreplace, if_pos hupsert, decide_false, if_false, Bool.false_eq_true,
        append_assoc] using hinto false (lex_upsert hcolumns)
    · simpa only [hreplace, if_neg hupsert, decide_false, if_false, Bool.false_eq_true,
        append_nil] using hinto false hfail

end Mysql

namespace Postgres

/-- What is said about conflicts by the configured strategy. -/
def onConflict (cfg : Config) (e : ChangeEvent) (columns : List Bytes) : OnConflict :=
  if cfg.insertStrategy = lit "upsert" then
    if e.table.primaryKeyColumns.isEmpty then .fail
    else if (updateColumns e columns).isEmpty then .nothing e.table.primaryKeyColumns
    else .update (some e.table.primaryKeyColumns) (selfSets (updateColumns e columns))
  else .fail

lemma lex_excluded {columns : List Bytes} (hcolumns : Unquoted dialect columns) :
    lex dialect (joined ", " (columns.map fun col =>
      lit "\"" ++ col ++ lit "\" = EXCLUDED.\"" ++ col ++ lit "\"")) =
      some (separated comma ((selfSets columns).map excludedTokens)) := by
  have hequals : lex dialect (lit " = EXCLUDED.") = some [equals, keyword "EXCLUDED", dot] :=
    lex_lit (by decide)
  rw [selfSets, List.map_map]
  apply lex_joined_comma
  intro col hcol
  have hname := style_in.lex_name (hcolumns col hcol)
  have htext : lit "\"" ++ col ++ lit "\" = EXCLUDED.\"" ++ col ++ lit "\"" =
      style.quote col ++ (lit " = EXCLUDED." ++ style.quote col) := by
    simp only [style, quoted, append_assoc]
    rfl
  rw [htext]
  apply lex_append_of_starts hname _ rfl
  exact lex_append_of_ends hequals hname rfl

lemma lex_target {columns : List Bytes} (hcolumns : Unquoted dialect columns) {tail : Bytes}
    {ts : List Token} (htail : lex dialect (lit ")" ++ tail) = some ts) :
    lex dialect (lit " ON CONFLICT (" ++ (style.columnList columns ++ (lit ")" ++ tail))) =
      some ([keyword "ON", keyword "CONFLICT", lparen] ++ (namesTokens columns ++ ts)) := by
  have hon : lex dialect (lit " ON CONFLICT (") = some [keyword "ON", keyword "CONFLICT", lparen] :=
    lex_lit (by decide)
  apply lex_append_of_ends hon _ rfl
  exact lex_append_of_starts (style_in.lex_columnList hcolumns) htail rfl

theorem lex_insertText (cfg : Config) {e : ChangeEvent} {columns : List Bytes}
    (hcolumns : Unquoted dialect columns) (hkey : Unquoted dialect e.table.primaryKeyColumns)
    (hnames : Unquoted dialect [schema cfg e, e.table.table]) :
    lex dialect (insertText cfg e columns) = some (insert false
      [schema cfg e, e.table.table] columns (numbers dialect columns)
      (onConflict cfg e columns)).tokens := by
  have htable : lex dialect (getSchemaTable cfg e) =
      some (tableTokens [schema cfg e, e.table.table]) :=
    (SqlSink.postgres cfg).lex_tableText hnames
  have hinsert : ∀ {clause : Bytes} {c : OnConflict}, lex dialect clause = some c.tokens →
      lex dialect (style.insertText (getSchemaTable cfg e) columns ++ clause) =
        some (insert false [schema cfg e, e.table.table] columns
          (numbers dialect columns) c).tokens :=
    fun hclause => style_in.lex_insertText htable false hcolumns hclause
  have hplain : lex dialect (style.insertText (getSchemaTable cfg e) columns) =
      some (insert false [schema cfg e, e.table.table] columns
        (numbers dialect columns) fail).tokens := by
    have hfail : lex dialect [] = some fail.tokens := rfl
    simpa using hinsert hfail
  have hupdated : Unquoted dialect (updateColumns e columns) :=
    fun col hcol => hcolumns col (mem_of_mem_filter hcol)
  by_cases hupsert : cfg.insertStrategy = lit "upsert"
  · by_cases hempty : e.table.primaryKeyColumns.isEmpty = true
    · -- Without a primary key the upsert is a plain insert.
      simpa only [insertText, onConflict, if_pos hupsert, if_pos hempty] using hplain
    · by_cases hnothing : (updateColumns e columns).isEmpty = true
      · -- All columns belong to the key.
        have hdo : lex dialect (lit " DO NOTHING") = some [keyword "DO", keyword "NOTHING"] :=
          lex_lit (by decide)
        have hclause : lex dialect _ = some (nothing e.table.primaryKeyColumns).tokens :=
          lex_target hkey (lex_append_of_ends lex_rparen hdo rfl)
        simpa only [insertText, onConflict, if_pos hupsert, if_neg hempty, if_pos hnothing,
          append_assoc] using hinsert hclause
      · have hdo : lex dialect (lit " DO UPDATE SET ") =
            some [keyword "DO", keyword "UPDATE", keyword "SET"] :=
          lex_lit (by decide)
        have hsets := lex_append_of_ends lex_rparen
          (lex_append_of_ends hdo (lex_excluded hupdated) rfl) rfl
        have hclause : lex dialect _ = some (update (some e.table.primaryKeyColumns)
            (selfSets (updateColumns e columns))).tokens := lex_target hkey hsets
        simpa only [insertText, onConflict, if_pos hupsert, if_neg hempty, if_neg hnothing,
          append_assoc] using hinsert hclause
  · simpa only [insertText, onConflict, if_neg hupsert] using hplain

end Postgres

section Requests

variable {s : SqlStyle} {table : Bytes} {e : ChangeEvent} {keyColumns : List Bytes}
  {keys : List GoValue} (hkey : e.table.getKeyColumns = keyColumns) (hne : keyColumns ≠ [])
  (hkeys : keyValues e.before keyColumns = .ok keys)

include hkey hne hkeys

lemma SqlStyle.executeUpdate_eq {order : List Bytes → List Bytes}
    (hcolumns : e.after.columnNames order ≠ []) :
    s.executeUpdate table order e = .exec
      { text := lit "UPDATE " ++ table ++ lit " SET " ++
          joined ", " (s.equations 1 (e.after.columnNames order)) ++ lit " WHERE " ++
          joined " AND " (s.equations ((e.after.columnNames order).length + 1) keyColumns)
        args := columnValues e.after (e.after.columnNames order) ++ keys
        failure := lit "failed to execute update: " } := by
  rw [SqlStyle.executeUpdate]
  simp only [hkey, hkeys, if_neg (List.isEmpty_iff.not.mpr hcolumns),
    if_neg (List.isEmpty_iff.not.mpr hne)]

lemma SqlStyle.executeDelete_eq :
    s.executeDelete table e = .exec
      { text := lit "DELETE FROM " ++ table ++ lit " WHERE " ++
          joined " AND " (s.equations 1 keyColumns)
        args := keys
        failure := lit "failed to execute delete: " } := by
  rw [SqlStyle.executeDelete]
  simp only [hkey, hkeys, if_neg (List.isEmpty_iff.not.mpr hne)]

end Requests

namespace SqlSink

/-- `UseCopy` is off. -/
def CopyOff : SqlSink → Prop
  | postgres cfg => cfg.useCopy = false
  | _ => True

/-- An insert of some columns does not enter the recursion through `executeCopyInsert`. -/
def TakesInsert (columns : ℕ) : SqlSink → Prop
  | postgres cfg => ¬ (cfg.useCopy = true ∧ 10 < columns)
  | _ => True

lemma CopyOff.takesInsert {sink : SqlSink} (h : sink.CopyOff) (columns : ℕ) :
    sink.TakesInsert columns := by
  rcases sink with cfg | cfg | cfg | cfg
  · trivial
  · intro hcopy
    exact Bool.false_ne_true (h.symm.trans hcopy.1)
  · trivial
  · trivial

/-- Whether an insert of the sink replaces a row that has the key of the new one. -/
def replaces : SqlSink → Bool
  | mysql cfg => cfg.insertStrategy = lit "replace"
  | _ => false

/-- What an insert of the sink says about conflicts. -/
def onConflict (sink : SqlSink) (e : ChangeEvent) (columns : List Bytes) : OnConflict :=
  match sink with
  | mysql cfg => Mysql.onConflict cfg columns
  | postgres cfg => Postgres.onConflict cfg e columns
  | _ => .fail

def insertText (sink : SqlSink) (e : ChangeEvent) (columns : List Bytes) : Bytes :=
  match sink with
  | mysql cfg => Mysql.insertText cfg e columns
  | postgres cfg => Postgres.insertText cfg e columns
  | oracle _ | sqlserver _ => sink.style.insertText (sink.tableText e) columns

variable {sink : SqlSink} {e : ChangeEvent} {order : List Bytes → List Bytes}

lemma executeInsert_eq (hcopy : sink.TakesInsert (e.after.columnNames order).length)
    (hne : e.after.columnNames order ≠ []) :
    sink.executeInsert order e = .exec
      { text := sink.insertText e (e.after.columnNames order)
        args := columnValues e.after (e.after.columnNames order)
        failure := lit "failed to execute insert: " } := by
  have hshared : ∀ build : List Bytes → Bytes, SqlStyle.executeInsert build order e = .exec
      { text := build (e.after.columnNames order)
        args := columnValues e.after (e.after.columnNames order)
        failure := lit "failed to execute insert: " } := by
    intro build
    rw [SqlStyle.executeInsert, if_neg (by simpa using hne)]
  cases sink with
  | postgres cfg =>
    rw [executeInsert, Postgres.executeInsert, if_neg hcopy]
    exact hshared _
  | mysql | oracle | sqlserver => exact hshared _

lemma executeInsert_overflow (hcopy : ¬ sink.TakesInsert (e.after.columnNames order).length) :
    sink.executeInsert order e = .overflow := by
  cases sink with
  | postgres cfg => rw [executeInsert, Postgres.executeInsert, if_pos (not_not.mp hcopy)]
  | mysql | oracle | sqlserver => exact absurd trivial hcopy

theorem lex_insertText {columns : List Bytes} (hne : columns ≠ [])
    (hcolumns : Unquoted sink.dialect columns)
    (hkey : Unquoted sink.dialect e.table.primaryKeyColumns)
    (hnames : Unquoted sink.dialect (sink.target e.table)) :
    lex sink.dialect (sink.insertText e columns) =
      some (insert sink.replaces (sink.target e.table) columns (numbers sink.dialect columns)
        (sink.onConflict e columns)).tokens := by
  have hfail : lex sink.dialect [] = some fail.tokens := rfl
  have hplain := sink.style_in.lex_insertText (sink.lex_tableText hnames) false hcolumns hfail
  rw [append_nil] at hplain
  cases sink with
  | mysql cfg => exact Mysql.lex_insertText cfg hne hcolumns hnames
  | postgres cfg => exact Postgres.lex_insertText cfg hcolumns hkey hnames
  | oracle cfg => exact hplain
  | sqlserver cfg => exact hplain

lemma executeUpdate_eq (order : List Bytes → List Bytes) :
    sink.executeUpdate order e = sink.style.executeUpdate (sink.tableText e) order e := by
  cases sink <;> rfl

lemma executeDelete_eq : sink.executeDelete e = sink.style.executeDelete (sink.tableText e) e := by
  cases sink <;> rfl

end SqlSink

end DataStream.Sink
