import DataStream.Foundations.Sql.Lexer

/-!
# Statements on a single table

Statements that insert one row with placeholders for its values, or that change or remove the rows
with given values in some columns. An insert may say what happens to a row that has the key of the
new one: `REPLACE INTO`, `ON DUPLICATE KEY UPDATE` and `ON CONFLICT`.

## Main definitions

* `Statement.tokens`: how a statement is written;
* `parse`: the statement that a text stands for, in a dialect.

## Main results

* `parseTokens_tokens`: a statement is read back from its tokens;
* `params_tokens`: the placeholders in the tokens are those of the statement.
-/

namespace DataStream.Sql

/-! ## Syntax -/

/-- What an insert does with a row that has the key of the new one. -/
inductive OnConflict where
  /-- Nothing is said: the statement fails. -/
  | fail
  /-- Columns of the old row are assigned columns of the new one; `none` counts conflicts in any
  key. -/
  | update (target : Option (List Bytes)) (sets : List (Bytes × Bytes))
  /-- The old row is kept. -/
  | nothing (target : List Bytes)
  deriving DecidableEq

/-- A statement. A placeholder is given by its number, if it has one. -/
inductive Statement where
  /-- `INSERT INTO`, or `REPLACE INTO`. -/
  | insert (replace : Bool) (table columns : List Bytes) (params : List (Option ℕ))
      (onConflict : OnConflict)
  /-- `UPDATE` with assignments and a conjunction of equations. -/
  | update (table : List Bytes) (sets wheres : List (Bytes × Option ℕ))
  /-- `DELETE` with a conjunction of equations. -/
  | delete (table : List Bytes) (wheres : List (Bytes × Option ℕ))
  deriving DecidableEq

namespace Statement

/-- The table of a statement, a name of one or more parts. -/
def table : Statement → List Bytes
  | insert _ table _ _ _ => table
  | update table _ _ => table
  | delete table _ => table

/-- The placeholders of a statement, in the order of its text. -/
def params : Statement → List (Option ℕ)
  | insert _ _ _ params _ => params
  | update _ sets wheres => sets.map Prod.snd ++ wheres.map Prod.snd
  | delete _ wheres => wheres.map Prod.snd

end Statement

open Statement

/-! ## Tokens -/

namespace Token

/-- A key word. -/
def keyword (s : String) : Token := .word (lit s)

/-- `(`. -/
def lparen : Token := .symbol 40

/-- `)`. -/
def rparen : Token := .symbol 41

/-- `,`. -/
def comma : Token := .symbol 44

/-- `.`. -/
def dot : Token := .symbol 46

/-- `=`. -/
def equals : Token := .symbol 61

/-- The number of a placeholder, for a token that is one. -/
def param? : Token → Option (Option ℕ)
  | param n => some n
  | _ => none

end Token

open Token List Option

/-- Groups of tokens with a separator between any two. -/
def separated (sep : Token) (groups : List (List Token)) : List Token := [sep].intercalate groups

/-- `column = placeholder`. -/
def equationTokens (eq : Bytes × Option ℕ) : List Token := [name eq.1, equals, param eq.2]

/-- `column = VALUES(column)`. -/
def valuesTokens (set : Bytes × Bytes) : List Token :=
  [name set.1, equals, keyword "VALUES", lparen, name set.2, rparen]

/-- `column = EXCLUDED.column`. -/
def excludedTokens (set : Bytes × Bytes) : List Token :=
  [name set.1, equals, keyword "EXCLUDED", dot, name set.2]

/-- A list of columns. -/
def namesTokens (names : List Bytes) : List Token := separated comma (names.map fun n => [name n])

/-- The name of a table. -/
def tableTokens (table : List Bytes) : List Token := separated dot (table.map fun n => [name n])

/-- The clause about conflicts. -/
def OnConflict.tokens : OnConflict → List Token
  | fail => []
  | update none sets =>
    [keyword "ON", keyword "DUPLICATE", keyword "KEY", keyword "UPDATE"] ++
      separated comma (sets.map valuesTokens)
  | update (some target) sets =>
    [keyword "ON", keyword "CONFLICT", lparen] ++ (namesTokens target ++
      ([rparen, keyword "DO", keyword "UPDATE", keyword "SET"] ++
        separated comma (sets.map excludedTokens)))
  | nothing target =>
    [keyword "ON", keyword "CONFLICT", lparen] ++ (namesTokens target ++
      [rparen, keyword "DO", keyword "NOTHING"])

/-- How a statement is written. -/
def Statement.tokens : Statement → List Token
  | insert replace table columns params onConflict =>
    [keyword (if replace then "REPLACE" else "INSERT"), keyword "INTO"] ++ (tableTokens table ++
      ([lparen] ++ (namesTokens columns ++ ([rparen, keyword "VALUES", lparen] ++
        (separated comma (params.map fun n => [param n]) ++ ([rparen] ++ onConflict.tokens))))))
  | update table sets wheres =>
    [keyword "UPDATE"] ++ (tableTokens table ++ ([keyword "SET"] ++
      (separated comma (sets.map equationTokens) ++ ([keyword "WHERE"] ++
        separated (keyword "AND") (wheres.map equationTokens)))))
  | delete table wheres =>
    [keyword "DELETE", keyword "FROM"] ++ (tableTokens table ++ ([keyword "WHERE"] ++
      separated (keyword "AND") (wheres.map equationTokens)))

/-! ## Parsing -/

/-- A parser takes what it reads from the front of the tokens. -/
abbrev Parser (α : Type) := List Token → Option (α × List Token)

/-- What is left after the given tokens. -/
def skip : List Token → List Token → Option (List Token)
  | [], ts => some ts
  | _ :: _, [] => none
  | t :: pre, t' :: ts => if t = t' then skip pre ts else none

/-- One or more items with a separator between any two, with a bound on their number. -/
def sepByGo {α : Type} (p : Parser α) (sep : Token) : ℕ → Parser (List α)
  | 0, _ => none
  | fuel + 1, ts =>
    (p ts).bind fun r =>
      if r.2.head? = some sep then
        (sepByGo p sep fuel r.2.tail).map fun rest => (r.1 :: rest.1, rest.2)
      else some ([r.1], r.2)

/-- One or more items with a separator between any two. -/
def sepBy {α : Type} (p : Parser α) (sep : Token) : Parser (List α) :=
  fun ts => sepByGo p sep ts.length ts

/-- A quoted name. -/
def parseName : Parser Bytes
  | .name n :: ts => some (n, ts)
  | _ => none

/-- A placeholder. -/
def parseParam : Parser (Option ℕ)
  | .param n :: ts => some (n, ts)
  | _ => none

/-- `column = placeholder`. -/
def parseEquation : Parser (Bytes × Option ℕ)
  | .name c :: .symbol 61 :: .param n :: ts => some ((c, n), ts)
  | _ => none

/-- `column = VALUES(column)`. -/
def parseValues : Parser (Bytes × Bytes)
  | .name c :: ts => do
      let ts ← skip [equals, keyword "VALUES", lparen] ts
      let (c', ts) ← parseName ts
      let ts ← skip [rparen] ts
      return ((c, c'), ts)
  | _ => none

/-- `column = EXCLUDED.column`. -/
def parseExcluded : Parser (Bytes × Bytes)
  | .name c :: ts => do
      let ts ← skip [equals, keyword "EXCLUDED", dot] ts
      let (c', ts) ← parseName ts
      return ((c, c'), ts)
  | _ => none

/-- A result without tokens left. -/
def complete {α : Type} (r : α × List Token) : Option α := if r.2 = [] then some r.1 else none

variable (replace : Bool) (ts : List Token)

/-- The clause about conflicts. -/
def parseOnConflict : Option OnConflict :=
  if ts = [] then some .fail
  else
    match skip [keyword "ON", keyword "DUPLICATE", keyword "KEY", keyword "UPDATE"] ts with
    | some ts => do
        let sets ← (sepBy parseValues comma ts).bind complete
        return .update none sets
    | none => do
        let ts ← skip [keyword "ON", keyword "CONFLICT", lparen] ts
        let (target, ts) ← sepBy parseName comma ts
        let ts ← skip [rparen, keyword "DO"] ts
        if ts = [keyword "NOTHING"] then return .nothing target
        else
          let ts ← skip [keyword "UPDATE", keyword "SET"] ts
          let sets ← (sepBy parseExcluded comma ts).bind complete
          return .update (some target) sets

/-- An insert after its first two words. -/
def parseInsert : Option Statement := do
  let (table, ts) ← sepBy parseName dot ts
  let ts ← skip [lparen] ts
  let (columns, ts) ← sepBy parseName comma ts
  let ts ← skip [rparen, keyword "VALUES", lparen] ts
  let (params, ts) ← sepBy parseParam comma ts
  let ts ← skip [rparen] ts
  let onConflict ← parseOnConflict ts
  return .insert replace table columns params onConflict

/-- An update after its first word. -/
def parseUpdate : Option Statement := do
  let (table, ts) ← sepBy parseName dot ts
  let ts ← skip [keyword "SET"] ts
  let (sets, ts) ← sepBy parseEquation comma ts
  let ts ← skip [keyword "WHERE"] ts
  let wheres ← (sepBy parseEquation (keyword "AND") ts).bind complete
  return .update table sets wheres

/-- A delete after its first two words. -/
def parseDelete : Option Statement := do
  let (table, ts) ← sepBy parseName dot ts
  let ts ← skip [keyword "WHERE"] ts
  let wheres ← (sepBy parseEquation (keyword "AND") ts).bind complete
  return .delete table wheres

/-- The statement that the tokens stand for. -/
def parseTokens : Option Statement :=
  ((skip [keyword "INSERT", keyword "INTO"] ts).bind (parseInsert false)).or
    (((skip [keyword "REPLACE", keyword "INTO"] ts).bind (parseInsert true)).or
      (((skip [keyword "UPDATE"] ts).bind parseUpdate).or
        ((skip [keyword "DELETE", keyword "FROM"] ts).bind parseDelete)))

/-- The statement that a text stands for. -/
def parse (d : Dialect) (text : Bytes) : Option Statement := (lex d text).bind parseTokens

/-- The placeholders of a text, in order. -/
def placeholders (d : Dialect) (text : Bytes) : Option (List (Option ℕ)) :=
  (lex d text).map (·.filterMap param?)

/-! ## Reading statements back -/

@[simp]
lemma skip_append (pre ts : List Token) : skip pre (pre ++ ts) = some ts := by
  induction pre with
  | nil => rfl
  | cons t pre ih => simp [skip, ih]

lemma skip_of_ne {t t' : Token} (h : t ≠ t') (pre pre' ts : List Token) :
    skip (t :: pre) (t' :: pre' ++ ts) = none := if_neg h

section SepBy

variable {α : Type} {p : Parser α} {sep : Token} {tokens : α → List Token} {items : List α}

/-- Separated items are read back, if there is fuel for each. -/
lemma sepByGo_separated (hne : items ≠ [])
    (h : ∀ x ∈ items, ∀ rest, p (tokens x ++ rest) = some (x, rest)) {rest : List Token}
    (hrest : rest.head? ≠ some sep) {fuel : ℕ} (hfuel : items.length ≤ fuel) :
    sepByGo p sep fuel (separated sep (items.map tokens) ++ rest) = some (items, rest) := by
  induction items generalizing fuel with
  | nil => exact absurd rfl hne
  | cons x items ih =>
    obtain ⟨fuel, rfl⟩ := Nat.exists_eq_add_one.mpr (Nat.lt_of_lt_of_le (Nat.succ_pos _) hfuel)
    have hx := h x mem_cons_self
    cases items with
    | nil =>
      -- After the last item something else follows, and the parser stops.
      have htokens : separated sep ([x].map tokens) = tokens x := by
        simp [separated, List.intercalate]
      rw [htokens, sepByGo, hx, bind_some, if_neg hrest]
    | cons y items =>
      -- After the first item comes the separator, so the parser goes on.
      have htokens : separated sep ((x :: y :: items).map tokens) ++ rest =
          tokens x ++ (sep :: (separated sep ((y :: items).map tokens) ++ rest)) := by
        simp [separated, intercalate_cons_cons]
      rw [htokens, sepByGo, hx, bind_some, head?_cons, if_pos rfl, tail_cons,
        ih (cons_ne_nil _ _) (fun z hz => h z (mem_cons_of_mem _ hz))
          (Nat.le_of_succ_le_succ hfuel)]
      rfl

lemma length_le_length_separated (htokens : ∀ x, tokens x ≠ []) (items : List α) :
    items.length ≤ (separated sep (items.map tokens)).length := by
  induction items with
  | nil => exact Nat.zero_le _
  | cons x items ih =>
    have hx := length_pos_iff.mpr (htokens x)
    cases items with
    | nil =>
      simp only [separated, List.intercalate, map_cons, map_nil, List.intersperse,
        flatten_cons, flatten_nil, append_nil]
      exact hx
    | cons y items =>
      simp only [separated, map_cons, intercalate_cons_cons, length_append, length_cons] at ih ⊢
      omega

/-- Separated items are read back. -/
lemma sepBy_separated (htokens : ∀ x, tokens x ≠ [])
    (h : ∀ x rest, p (tokens x ++ rest) = some (x, rest)) (hne : items ≠ []) {rest : List Token}
    (hrest : rest.head? ≠ some sep) :
    sepBy p sep (separated sep (items.map tokens) ++ rest) = some (items, rest) := by
  apply sepByGo_separated hne (fun x _ => h x) hrest
  rw [length_append]
  exact (length_le_length_separated htokens items).trans (Nat.le_add_right _ _)

lemma complete_sepBy_separated (htokens : ∀ x, tokens x ≠ [])
    (h : ∀ x rest, p (tokens x ++ rest) = some (x, rest)) (hne : items ≠ []) :
    (sepBy p sep (separated sep (items.map tokens))).bind complete = some items := by
  have hitems : sepBy p sep (separated sep (items.map tokens) ++ []) = some (items, []) :=
    sepBy_separated htokens h hne (by simp)
  rw [append_nil] at hitems
  rw [hitems]
  rfl

end SepBy

section Items

variable {rest : List Token}

lemma sepBy_table {table : List Bytes} (hne : table ≠ []) (hrest : rest.head? ≠ some dot) :
    sepBy parseName dot (tableTokens table ++ rest) = some (table, rest) :=
  sepBy_separated (by simp) (fun _ _ => rfl) hne hrest

lemma sepBy_names {names : List Bytes} (hne : names ≠ []) (hrest : rest.head? ≠ some comma) :
    sepBy parseName comma (namesTokens names ++ rest) = some (names, rest) :=
  sepBy_separated (by simp) (fun _ _ => rfl) hne hrest

lemma sepBy_params {params : List (Option ℕ)} (hne : params ≠ [])
    (hrest : rest.head? ≠ some comma) :
    sepBy parseParam comma (separated comma (params.map fun n => [param n]) ++ rest) =
      some (params, rest) :=
  sepBy_separated (by simp) (fun _ _ => rfl) hne hrest

variable {eqs : List (Bytes × Option ℕ)} {sets : List (Bytes × Bytes)}

lemma sepBy_equations (hne : eqs ≠ []) (hrest : rest.head? ≠ some comma) :
    sepBy parseEquation comma (separated comma (eqs.map equationTokens) ++ rest) =
      some (eqs, rest) :=
  sepBy_separated (by simp [equationTokens]) (fun _ _ => rfl) hne hrest

lemma complete_sepBy_equations (hne : eqs ≠ []) :
    (sepBy parseEquation (keyword "AND") (separated (keyword "AND") (eqs.map equationTokens))).bind
      complete = some eqs :=
  complete_sepBy_separated (by simp [equationTokens]) (fun _ _ => rfl) hne

lemma complete_sepBy_values (hne : sets ≠ []) :
    (sepBy parseValues comma (separated comma (sets.map valuesTokens))).bind complete = some sets :=
  complete_sepBy_separated (by simp [valuesTokens]) (fun _ _ => rfl) hne

lemma complete_sepBy_excluded (hne : sets ≠ []) :
    (sepBy parseExcluded comma (separated comma (sets.map excludedTokens))).bind complete =
      some sets :=
  complete_sepBy_separated (by simp [excludedTokens]) (fun _ _ => rfl) hne

end Items

/-- The lists of a clause are not empty. -/
def OnConflict.WF : OnConflict → Prop
  | fail => True
  | update target sets => target ≠ some [] ∧ sets ≠ []
  | nothing target => target ≠ []

/-- The lists of a statement are not empty. -/
def Statement.WF : Statement → Prop
  | insert _ table columns params onConflict =>
    table ≠ [] ∧ columns ≠ [] ∧ params ≠ [] ∧ onConflict.WF
  | update table sets wheres => table ≠ [] ∧ sets ≠ [] ∧ wheres ≠ []
  | delete table wheres => table ≠ [] ∧ wheres ≠ []

lemma skip_duplicate_conflict :
    skip [keyword "ON", keyword "DUPLICATE", keyword "KEY", keyword "UPDATE"]
      ([keyword "ON", keyword "CONFLICT", lparen] ++ ts) = none := by
  rw [cons_append, skip, if_pos rfl]
  exact skip_of_ne (by decide) _ [lparen] _

lemma parseOnConflict_tokens {c : OnConflict} (h : c.WF) : parseOnConflict c.tokens = some c := by
  cases c with
  | fail => rfl
  | update target sets =>
    obtain ⟨htarget, hsets⟩ := h
    cases target with
    | none =>
      rw [OnConflict.tokens, parseOnConflict, if_neg (by simp), skip_append]
      simp only [complete_sepBy_values hsets]
      rfl
    | some target =>
      have htarget' : target ≠ [] := fun hnil => htarget (congrArg some hnil)
      have hnothing : ∀ ts, [keyword "UPDATE", keyword "SET"] ++ ts ≠ [keyword "NOTHING"] := by
        intro ts hts
        exact absurd (List.cons.inj hts).1 (by decide)
      rw [OnConflict.tokens, parseOnConflict, if_neg (by simp), skip_duplicate_conflict]
      simp only [skip_append, bind_eq_bind, bind_some]
      rw [sepBy_names htarget' (by simp [rparen, comma])]
      -- The words after the target are read in two parts.
      change (do
        let ts ← skip [rparen, keyword "DO"] ([rparen, keyword "DO"] ++
          ([keyword "UPDATE", keyword "SET"] ++ separated comma (sets.map excludedTokens)))
        if ts = [keyword "NOTHING"] then return OnConflict.nothing target
        else
          let ts ← skip [keyword "UPDATE", keyword "SET"] ts
          let sets ← (sepBy parseExcluded comma ts).bind complete
          return OnConflict.update (some target) sets) = _
      simp only [skip_append, bind_eq_bind, bind_some, if_neg (hnothing _),
        complete_sepBy_excluded hsets]
      rfl
  | nothing target =>
    rw [OnConflict.tokens, parseOnConflict, if_neg (by simp), skip_duplicate_conflict]
    simp only [skip_append, bind_eq_bind, bind_some]
    rw [sepBy_names h (by simp [rparen, comma])]
    rfl

variable {table : List Bytes} {wheres : List (Bytes × Option ℕ)} {sep : Token}

lemma parseInsert_tokens {replace : Bool} {columns : List Bytes} {params : List (Option ℕ)}
    {c : OnConflict} (htable : table ≠ []) (hcolumns : columns ≠ []) (hparams : params ≠ [])
    (hc : c.WF) :
    parseInsert replace (tableTokens table ++ ([lparen] ++ (namesTokens columns ++
      ([rparen, keyword "VALUES", lparen] ++ (separated comma (params.map fun n => [param n]) ++
        ([rparen] ++ c.tokens)))))) = some (.insert replace table columns params c) := by
  rw [parseInsert, sepBy_table htable (by simp [lparen, dot])]
  simp only [bind_eq_bind, bind_some, skip_append]
  rw [sepBy_names hcolumns (by simp [rparen, comma])]
  simp only [bind_some, skip_append]
  rw [sepBy_params hparams (by simp [rparen, comma])]
  simp only [bind_some, skip_append, parseOnConflict_tokens hc]
  rfl

lemma parseUpdate_tokens {sets : List (Bytes × Option ℕ)} (htable : table ≠ [])
    (hsets : sets ≠ []) (hwheres : wheres ≠ []) :
    parseUpdate (tableTokens table ++ ([keyword "SET"] ++
      (separated comma (sets.map equationTokens) ++ ([keyword "WHERE"] ++
        separated (keyword "AND") (wheres.map equationTokens))))) =
      some (.update table sets wheres) := by
  rw [parseUpdate, sepBy_table htable (by simp [keyword, dot])]
  simp only [bind_eq_bind, bind_some, skip_append]
  rw [sepBy_equations hsets (by simp [keyword, comma])]
  simp only [bind_some, skip_append, complete_sepBy_equations hwheres]
  rfl

lemma parseDelete_tokens (htable : table ≠ []) (hwheres : wheres ≠ []) :
    parseDelete (tableTokens table ++ ([keyword "WHERE"] ++
        separated (keyword "AND") (wheres.map equationTokens))) = some (.delete table wheres) := by
  rw [parseDelete, sepBy_table htable (by simp [keyword, dot])]
  simp only [bind_eq_bind, bind_some, skip_append, complete_sepBy_equations hwheres]
  rfl

theorem parseTokens_tokens {st : Statement} (h : st.WF) : parseTokens st.tokens = some st := by
  -- The first word tells the kinds of statements apart.
  cases st with
  | insert replace table columns params onConflict =>
    obtain ⟨htable, hcolumns, hparams, hconflict⟩ := h
    cases replace with
    | false =>
      rw [parseTokens, tokens, if_neg Bool.false_ne_true, skip_append,
        bind_some, parseInsert_tokens htable hcolumns hparams hconflict, some_or]
    | true =>
      rw [parseTokens, tokens, if_pos rfl, skip_of_ne (by decide), bind_none,
        none_or, skip_append, bind_some,
        parseInsert_tokens htable hcolumns hparams hconflict, some_or]
  | update table sets wheres =>
    obtain ⟨htable, hsets, hwheres⟩ := h
    rw [parseTokens, tokens, skip_of_ne (by decide), bind_none, none_or,
      skip_of_ne (by decide), bind_none, none_or, skip_append, bind_some,
      parseUpdate_tokens htable hsets hwheres, some_or]
  | delete table wheres =>
    obtain ⟨htable, hwheres⟩ := h
    rw [parseTokens, tokens, skip_of_ne (by decide), bind_none, none_or,
      skip_of_ne (by decide), bind_none, none_or, skip_of_ne (by decide),
      bind_none, none_or, skip_append, bind_some,
      parseDelete_tokens htable hwheres]

/-! ## Placeholders -/

lemma filterMap_separated (hsep : sep.param? = none) (groups : List (List Token)) :
    (separated sep groups).filterMap param? = (groups.map (·.filterMap param?)).flatten := by
  induction groups with
  | nil => rfl
  | cons g groups ih =>
    cases groups with
    | nil => simp [separated, List.intercalate]
    | cons g' groups =>
      simp only [separated, intercalate_cons_cons, filterMap_append] at ih ⊢
      rw [ih]
      simp [hsep]

lemma filterMap_separated_eq_nil {α : Type} (hsep : sep.param? = none) {tokens : α → List Token}
    (h : ∀ x, (tokens x).filterMap param? = []) (items : List α) :
    (separated sep (items.map tokens)).filterMap param? = [] := by
  rw [filterMap_separated hsep, List.map_map, flatten_eq_nil_iff]
  simp [h]

lemma filterMap_separated_eq_map {α : Type} (hsep : sep.param? = none) {tokens : α → List Token}
    {n : α → Option ℕ} (h : ∀ x, (tokens x).filterMap param? = [n x]) (items : List α) :
    (separated sep (items.map tokens)).filterMap param? = items.map n := by
  rw [filterMap_separated hsep, List.map_map]
  induction items with
  | nil => rfl
  | cons x items ih => simp [h, ih]

lemma filterMap_tableTokens (table : List Bytes) : (tableTokens table).filterMap param? = [] :=
  filterMap_separated_eq_nil rfl (fun _ => rfl) table

lemma filterMap_namesTokens (names : List Bytes) : (namesTokens names).filterMap param? = [] :=
  filterMap_separated_eq_nil rfl (fun _ => rfl) names

theorem OnConflict.params_tokens (c : OnConflict) : c.tokens.filterMap param? = [] := by
  cases c with
  | fail => rfl
  | update target sets =>
    cases target with
    | none =>
      rw [tokens, filterMap_append, filterMap_separated_eq_nil rfl (fun _ => rfl)]
      rfl
    | some target =>
      rw [tokens, filterMap_append, filterMap_append, filterMap_append,
        filterMap_namesTokens, filterMap_separated_eq_nil rfl (fun _ => rfl)]
      rfl
  | nothing target =>
    rw [tokens, filterMap_append, filterMap_append, filterMap_namesTokens]
    rfl

/-- The placeholders in the tokens of a statement are those of the statement, in order. -/
theorem params_tokens (st : Statement) : st.tokens.filterMap param? = st.params := by
  have hequations : ∀ (sep : Token), sep.param? = none → ∀ eqs : List (Bytes × Option ℕ),
      (separated sep (eqs.map equationTokens)).filterMap param? = eqs.map Prod.snd :=
    fun sep hsep eqs => filterMap_separated_eq_map hsep (fun _ => rfl) eqs
  cases st with
  | insert replace table columns params onConflict =>
    have hparams : (separated comma (params.map fun n => [param n])).filterMap param? =
        params.map id := filterMap_separated_eq_map rfl (fun _ => rfl) params
    simp only [tokens, filterMap_append, filterMap_tableTokens,
      filterMap_namesTokens, hparams, onConflict.params_tokens, List.map_id]
    exact append_nil params
  | update table sets wheres =>
    simp only [tokens, filterMap_append, filterMap_tableTokens,
      hequations comma rfl, hequations (keyword "AND") rfl]
    rfl
  | delete table wheres =>
    simp only [tokens, filterMap_append, filterMap_tableTokens, hequations (keyword "AND") rfl]
    rfl

/-- A text with the tokens of a statement stands for the statement and has its placeholders. -/
lemma parse_of_lex {d : Dialect} {text : Bytes} {st : Statement} (h : st.WF)
    (hlex : lex d text = some st.tokens) :
    parse d text = some st ∧ placeholders d text = some st.params := by
  constructor
  · rw [parse, hlex, bind_some, parseTokens_tokens h]
  · rw [placeholders, hlex, map_some, params_tokens]

end DataStream.Sql
