import DataStream.Foundations.Sql.Statement

/-!
# What statements do to tables

A table is a list of rows with a primary key; a row gives a value to each column. A statement is
executed with the values of its placeholders. It fails if it does not fit the table, or if it would
leave two rows with one key or a null in a key.

* `Table.insertRow_of_new`: an insert of a new key adds the row;
* `Table.insertRow_of_overwrites`: one that overwrites puts its row in the place of the old one;
* `Table.exec_update`, `Table.exec_update_eq`, `Table.exec_delete`: updates and deletes by the key;
* `bindingsFrom_eq`: placeholders in order are bound in order.
-/

namespace DataStream.Sql

open List Function

abbrev Row (V : Type) := Bytes → V

/-- The values of some columns of a row. -/
def keyOf {V : Type} (key : List Bytes) (r : Row V) : List V := key.map r

def assign {V : Type} (columns : List Bytes) (values : List V) (r : Row V) : Row V :=
  fun c => ((columns.zip values).lookup c).getD (r c)

section Keys

variable {V : Type} [DecidableEq V]

variable (key : List Bytes) (k : List V) (row : Row V) (rows : List (Row V))

def replaceKey : List (Row V) :=
  rows.map fun r => if keyOf key r = k then row else r

def removeKey : List (Row V) :=
  rows.filter fun r => keyOf key r ≠ k

end Keys

/-- A table with a primary key. -/
structure Table (V : Type) where
  columns : List Bytes
  key : List Bytes
  rows : List (Row V)

namespace Table

variable {V : Type} [DecidableEq V] (null : V) (t : Table V)

/-- The primary key is one: no two rows have the same, and none has a null in it. -/
def Valid : Prop := (t.rows.map (keyOf t.key)).Nodup ∧ ∀ r ∈ t.rows, null ∉ keyOf t.key r

instance : Decidable (t.Valid null) :=
  inferInstanceAs (Decidable (_ ∧ ∀ r ∈ t.rows, null ∉ keyOf t.key r))

def withRows (rows : List (Row V)) : Option (Table V) :=
  if Valid null { t with rows } then some { t with rows } else none

variable (columns : List Bytes) (values : List V)

/-- The columns are columns of the table, each at most once. -/
def Fits : Prop := columns.Nodup ∧ ∀ c ∈ columns, c ∈ t.columns
  deriving Decidable

/-- The columns of a conflict clause are those of the key. -/
def IsKey (target : List Bytes) : Prop := target ⊆ t.key ∧ t.key ⊆ target
  deriving Decidable

/-- A row has given values, none of them null, in some columns. -/
def selects (r : Row V) : Bool :=
  (columns.zip values).all fun p => r p.1 = p.2 ∧ p.2 ≠ null

/-- Insert a row, with a clause about rows that have its key. -/
def insertRow (replace : Bool) (onConflict : OnConflict) (row : Row V) : Option (Table V) :=
  let others := removeKey t.key (keyOf t.key row) t.rows
  let isNew := t.rows.all fun r => keyOf t.key r ≠ keyOf t.key row
  match replace, onConflict with
  | true, .fail => t.withRows null (others ++ [row])
  | true, _ => none
  -- Without a clause a row with the same key makes the rows invalid.
  | false, .fail => t.withRows null (t.rows ++ [row])
  | false, .update target sets =>
    if (∀ cols ∈ target, t.IsKey cols) ∧ t.Fits (sets.map Prod.fst) then
      if isNew then t.withRows null (t.rows ++ [row])
      else t.withRows null (t.rows.map fun r =>
        if keyOf t.key r = keyOf t.key row then
          assign (sets.map Prod.fst) (sets.map fun set => row set.2) r
        else r)
    else none
  | false, .nothing target =>
    if t.IsKey target then
      if isNew then t.withRows null (t.rows ++ [row]) else some t
    else none

def exec : Statement → Option (Table V)
  | .insert replace _ columns _ onConflict =>
    if t.Fits columns ∧ columns.length = values.length then
      t.insertRow null replace onConflict (assign columns values fun _ => null)
    else none
  | .update _ sets wheres =>
    if t.Fits (sets.map Prod.fst) ∧ ∀ c ∈ wheres.map Prod.fst, c ∈ t.columns then
      t.withRows null (t.rows.map fun r =>
        if selects null (wheres.map Prod.fst) (values.drop sets.length) r then
          assign (sets.map Prod.fst) (values.take sets.length) r
        else r)
    else none
  | .delete _ wheres =>
    if ∀ c ∈ wheres.map Prod.fst, c ∈ t.columns then
      t.withRows null (t.rows.filter fun r => !selects null (wheres.map Prod.fst) values r)
    else none

end Table

/-! ## Arguments and databases -/

/-- The values of placeholders from the `i`th on; one without a number stands for the argument at
its place. -/
def bindingsFrom {V : Type} (args : List V) : ℕ → List (Option ℕ) → Option (List V)
  | _, [] => some []
  | i, p :: rest =>
    match p.getD (i + 1) with
    | 0 => none
    | n + 1 => args[n]?.bind fun v => (bindingsFrom args (i + 1) rest).map (v :: ·)

/-- The values of placeholders; there must be as many arguments. -/
def bindings {V : Type} (params : List (Option ℕ)) (args : List V) : Option (List V) :=
  if params.length = args.length then bindingsFrom args 0 params else none

abbrev Database (V : Type) := List Bytes → Option (Table V)

/-- Execute the text of a statement; `none` is an error. -/
def Database.exec {V : Type} [DecidableEq V] (d : Dialect) (null : V) (db : Database V)
    (text : Bytes) (args : List V) : Option (Database V) := do
  let st ← parse d text
  let values ← bindings st.params args
  let t ← db st.table
  let t' ← t.exec null values st
  return update db st.table (some t')

/-! ## Arguments in order -/

/-- The placeholders have no numbers or those of their places, from the `i`th on. -/
def InOrder : ℕ → List (Option ℕ) → Prop
  | _, [] => True
  | i, p :: rest => p.getD (i + 1) = i + 1 ∧ InOrder (i + 1) rest

lemma inOrder_append {i : ℕ} {params params' : List (Option ℕ)} :
    InOrder i (params ++ params') ↔ InOrder i params ∧ InOrder (i + params.length) params' := by
  induction params generalizing i with
  | nil => simp [InOrder]
  | cons p params ih =>
    rw [cons_append, InOrder, InOrder, ih, and_assoc, length_cons,
      Nat.add_right_comm, Nat.add_assoc]

lemma bindingsFrom_eq {V : Type} {args : List V} {i : ℕ} {params : List (Option ℕ)}
    (h : InOrder i params) (hlength : i + params.length = args.length) :
    bindingsFrom args i params = some (args.drop i) := by
  induction params generalizing i with
  | nil =>
    have hend : args.length ≤ i := Nat.le_of_eq hlength.symm
    rw [bindingsFrom, drop_eq_nil_of_le hend]
  | cons p params ih =>
    have hi : i < args.length := by
      rw [length_cons] at hlength
      omega
    have hrest := ih h.2 (by rw [← hlength, length_cons]; omega)
    -- With or without a number, the placeholder stands for the argument at its place.
    rw [bindingsFrom, h.1]
    change args[i]?.bind (fun v => (bindingsFrom args (i + 1) params).map (v :: ·)) = _
    rw [hrest, getElem?_eq_getElem hi, drop_eq_getElem_cons hi]
    rfl

lemma getD_number (d : Dialect) (n : ℕ) : (d.number n).getD n = n := by
  unfold Dialect.number
  split_ifs <;> rfl

/-! ## Rows -/

section Rows

variable {V : Type} (key columns : List Bytes) (f r : Row V) (c : Bytes)

lemma lookup_zip_map :
    (columns.zip (columns.map f)).lookup c = if c ∈ columns then some (f c) else none := by
  induction columns with
  | nil => rfl
  | cons b columns ih =>
    rw [map_cons, zip_cons_cons, lookup_cons, ih]
    by_cases hc : c = b
    · simp [hc]
    · simp [hc, beq_false_of_ne hc]

lemma assign_map : assign columns (columns.map f) r c = if c ∈ columns then f c else r c := by
  rw [assign, lookup_zip_map]
  split_ifs <;> rfl

lemma keyOf_eq_iff {key : List Bytes} {r r' : Row V} :
    keyOf key r = keyOf key r' ↔ ∀ c ∈ key, r c = r' c := map_inj_left

lemma zip_keyOf : key.zip (keyOf key r) = key.map fun c => (c, r c) := by
  induction key with
  | nil => rfl
  | cons c key ih => simpa [keyOf] using ih

variable [DecidableEq V] {null : V}

lemma selects_keyOf {key : List Bytes} {row : Row V} :
    Table.selects null key (keyOf key row) r = true ↔
      keyOf key r = keyOf key row ∧ null ∉ keyOf key row := by
  rw [Table.selects, zip_keyOf, keyOf_eq_iff, List.all_map, List.all_eq_true]
  simp only [comp, decide_eq_true_eq, keyOf, List.mem_map, not_exists, not_and]
  exact forall₂_and

end Rows

/-! ## Effects on valid tables -/

namespace Table

variable {V : Type} [DecidableEq V] {null : V} {t : Table V}

lemma withRows_of_valid {rows : List (Row V)} (h : Valid null { t with rows }) :
    t.withRows null rows = some { t with rows } := if_pos h

omit [DecidableEq V] in
lemma Valid.eq_of_keyOf_eq (h : t.Valid null) {r r' : Row V} (hr : r ∈ t.rows) (hr' : r' ∈ t.rows)
    (heq : keyOf t.key r = keyOf t.key r') : r = r' :=
  inj_on_of_nodup_map h.1 hr hr' heq

variable {row : Row V}

omit [DecidableEq V] in
lemma Valid.append (h : t.Valid null) (hnull : null ∉ keyOf t.key row)
    (hnew : ∀ r ∈ t.rows, keyOf t.key r ≠ keyOf t.key row) :
    Valid null { t with rows := t.rows ++ [row] } := by
  constructor
  · rw [map_append, map_singleton, nodup_append]
    refine ⟨h.1, nodup_singleton _, ?_⟩
    intro k hk k' hk' heq
    obtain ⟨r, hr, rfl⟩ := List.mem_map.mp hk
    exact hnew r hr (heq.trans (mem_singleton.mp hk'))
  · intro r hr
    rcases mem_append.mp hr with hr | hr
    · exact h.2 r hr
    · rw [mem_singleton.mp hr]
      exact hnull

omit [DecidableEq V] in
lemma Valid.filter (h : t.Valid null) (p : Row V → Bool) :
    Valid null { t with rows := t.rows.filter p } :=
  ⟨h.1.sublist (filter_sublist.map _), fun r hr => h.2 r (mem_of_mem_filter hr)⟩

variable {k : List V}

lemma mem_replaceKey_iff {key : List Bytes} {row r : Row V} {rows : List (Row V)}
    (hk : ∃ old ∈ rows, keyOf key old = k) :
    r ∈ replaceKey key k row rows ↔ r = row ∨ (r ∈ rows ∧ keyOf key r ≠ k) := by
  obtain ⟨old, hold, hkey⟩ := hk
  constructor
  · intro hr
    obtain ⟨r', hr', rfl⟩ := List.mem_map.mp hr
    split_ifs with hk'
    · exact .inl rfl
    · exact .inr ⟨hr', hk'⟩
  · rintro (rfl | ⟨hr, hk'⟩)
    · exact List.mem_map.mpr ⟨old, hold, if_pos hkey⟩
    · exact List.mem_map.mpr ⟨r, hr, if_neg hk'⟩

lemma map_keyOf_replaceKey (key : List Bytes) (k : List V) (row : Row V) (rows : List (Row V)) :
    (replaceKey key k row rows).map (keyOf key) =
      (rows.map (keyOf key)).map fun x => if x = k then keyOf key row else x := by
  rw [replaceKey, List.map_map, List.map_map]
  apply map_congr_left
  intro r _
  simp only [comp]
  split_ifs <;> rfl

lemma not_valid_replace (hk : ∃ r ∈ t.rows, keyOf t.key r = k)
    (hrow : ∃ r ∈ t.rows, keyOf t.key r = keyOf t.key row) (hne : keyOf t.key row ≠ k) :
    ¬ Valid null { t with rows := replaceKey t.key k row t.rows } := by
  rintro ⟨hnodup, -⟩
  rw [map_keyOf_replaceKey] at hnodup
  obtain ⟨r, hr, rfl⟩ := hk
  obtain ⟨r', hr', hkey⟩ := hrow
  -- Both keys become that of the new row.
  have heq := inj_on_of_nodup_map hnodup (List.mem_map_of_mem hr) (List.mem_map_of_mem hr')
    (by rw [if_pos rfl, hkey, if_neg hne])
  exact hne (hkey.symm.trans heq.symm)

lemma Valid.replace (h : t.Valid null) (hnull : null ∉ keyOf t.key row)
    (hnew : keyOf t.key row = k ∨ ∀ r ∈ t.rows, keyOf t.key r ≠ keyOf t.key row) :
    Valid null { t with rows := replaceKey t.key k row t.rows } := by
  constructor
  · -- On the keys the replacement is a function that is injective on those of the table.
    rw [map_keyOf_replaceKey]
    apply h.1.map_on
    intro x hx y hy heq
    rcases hnew with rfl | hnew
    · -- The key stays the same, so the keys do not change at all.
      split_ifs at heq with hxk hyk hyk
      · exact hxk.trans hyk.symm
      · exact hxk.trans heq
      · exact heq.trans hyk.symm
      · exact heq
    · -- A new key is met only where it has just been put.
      obtain ⟨r, hr, rfl⟩ := List.mem_map.mp hx
      obtain ⟨r', hr', rfl⟩ := List.mem_map.mp hy
      split_ifs at heq with hxk hyk hyk
      · exact hxk.trans hyk.symm
      · exact absurd heq.symm (hnew r' hr')
      · exact absurd heq (hnew r hr)
      · exact heq
  · intro r hr
    obtain ⟨r', hr', rfl⟩ := List.mem_map.mp hr
    split_ifs
    · exact hnull
    · exact h.2 r' hr'

/-- The table takes the clause of an insert. -/
def Suits (t : Table V) (replace : Bool) : OnConflict → Prop
  | .fail => True
  | .update target sets =>
    replace = false ∧ (∀ cols ∈ target, t.IsKey cols) ∧ t.Fits (sets.map Prod.fst)
  | .nothing target => replace = false ∧ t.IsKey target

variable {replace : Bool} {c : OnConflict}

/-- A row with a new key is added, whatever is said about conflicts. -/
theorem insertRow_of_new (h : t.Valid null) (hsuits : t.Suits replace c)
    (hnull : null ∉ keyOf t.key row) (hnew : ∀ r ∈ t.rows, keyOf t.key r ≠ keyOf t.key row) :
    t.insertRow null replace c row = some { t with rows := t.rows ++ [row] } := by
  -- All clauses come down to adding the row, as no row has its key.
  have hall : (t.rows.all fun r => keyOf t.key r ≠ keyOf t.key row) = true := by
    simpa using hnew
  have hadd := withRows_of_valid (h.append hnull hnew)
  cases c with
  | fail =>
    cases replace with
    | false => exact hadd
    | true =>
      have hothers : removeKey t.key (keyOf t.key row) t.rows = t.rows :=
        filter_eq_self.mpr (by simpa using hnew)
      rw [insertRow]
      simp only [hothers]
      exact hadd
  | update target sets =>
    obtain ⟨rfl, hfits⟩ := hsuits
    rw [insertRow]
    simp only [if_pos hfits, hall, if_true]
    exact hadd
  | nothing target =>
    obtain ⟨rfl, hkey⟩ := hsuits
    rw [insertRow]
    simp only [if_pos hkey, hall, if_true]
    exact hadd

/-- The clause of an insert makes any row with the key of the new one the new one. -/
def Overwrites (t : Table V) (replace : Bool) (c : OnConflict) (row : Row V) : Prop :=
  match replace, c with
  | true, .fail => True
  | false, .update _ sets => ∀ r ∈ t.rows, keyOf t.key r = keyOf t.key row →
      assign (sets.map Prod.fst) (sets.map fun set => row set.2) r = row
  | false, .nothing _ => ∀ r ∈ t.rows, keyOf t.key r = keyOf t.key row → r = row
  | _, _ => False

/-- A row is put into a table, in the place of the one with its key if there is one. -/
theorem insertRow_of_overwrites (h : t.Valid null) (hsuits : t.Suits replace c)
    (hover : t.Overwrites replace c row) (hnull : null ∉ keyOf t.key row) :
    ∃ rows, t.insertRow null replace c row = some { t with rows } ∧ Valid null { t with rows } ∧
      ∀ r, r ∈ rows ↔ r = row ∨ (r ∈ t.rows ∧ keyOf t.key r ≠ keyOf t.key row) := by
  by_cases hnew : ∀ r ∈ t.rows, keyOf t.key r ≠ keyOf t.key row
  · refine ⟨t.rows ++ [row], insertRow_of_new h hsuits hnull hnew, h.append hnull hnew, ?_⟩
    intro r
    rw [mem_append, mem_singleton, or_comm, and_iff_left_of_imp (hnew r)]
  · -- There is a row with the key, and the clause says what becomes of it.
    push Not at hnew
    obtain ⟨old, hold, hkey⟩ := hnew
    have hall : (t.rows.all fun r => keyOf t.key r ≠ keyOf t.key row) = false := by
      simpa using ⟨old, hold, hkey⟩
    cases c with
    | fail =>
      cases replace with
      | false => exact hover.elim
      | true =>
        have hothers : ∀ r ∈ removeKey t.key (keyOf t.key row) t.rows,
            keyOf t.key r ≠ keyOf t.key row := fun r hr => by
          simpa using (mem_filter.mp hr).2
        have hvalid : Valid null { t with
            rows := removeKey t.key (keyOf t.key row) t.rows ++ [row] } :=
          (h.filter _).append hnull hothers
        refine ⟨_, withRows_of_valid hvalid, hvalid, fun r => ?_⟩
        rw [mem_append, mem_singleton, or_comm, removeKey, mem_filter]
        simp
    | update target sets =>
      obtain ⟨rfl, hfits⟩ := hsuits
      have hrows : (t.rows.map fun r => if keyOf t.key r = keyOf t.key row then
          assign (sets.map Prod.fst) (sets.map fun set => row set.2) r else r) =
          replaceKey t.key (keyOf t.key row) row t.rows := by
        refine map_congr_left fun r hr => ?_
        split_ifs with hr'
        · exact hover r hr hr'
        · rfl
      have hvalid := h.replace (k := keyOf t.key row) hnull (.inl rfl)
      -- The assignments make the new row of the old one.
      refine ⟨replaceKey t.key (keyOf t.key row) row t.rows, ?_, hvalid, fun r => ?_⟩
      · rw [insertRow]
        simp only [if_pos hfits, hall, Bool.false_eq_true, if_false, hrows]
        exact withRows_of_valid hvalid
      · exact mem_replaceKey_iff ⟨old, hold, hkey⟩
    | nothing target =>
      obtain ⟨rfl, hisKey⟩ := hsuits
      -- The row of the key is the new row already.
      refine ⟨t.rows, ?_, h, fun r => ?_⟩
      · rw [insertRow]
        simp only [if_pos hisKey, hall, Bool.false_eq_true, if_false]
      · constructor
        · intro hr
          by_cases hk : keyOf t.key r = keyOf t.key row
          · exact .inl (hover r hr hk)
          · exact .inr ⟨hr, hk⟩
        · rintro (rfl | ⟨hr, -⟩)
          · exact hover old hold hkey ▸ hold
          · exact hr

variable (table : List Bytes) {columns : List Bytes}

lemma exec_insert_eq (hfits : t.Fits columns) (params : List (Option ℕ))
    (hrow : ∀ x, x ∉ columns → row x = null) :
    t.exec null (columns.map row) (.insert replace table columns params c) =
      t.insertRow null replace c row := by
  have hassign : assign columns (columns.map row) (fun _ => null) = row := by
    ext x
    rw [assign_map]
    split_ifs with hx
    · rfl
    · exact (hrow x hx).symm
  rw [exec, if_pos ⟨hfits, (length_map _).symm⟩, hassign]

lemma Valid.selects_key (h : t.Valid null) {row r : Row V} (hr : r ∈ t.rows) :
    selects null t.key (keyOf t.key row) r = true ↔ keyOf t.key r = keyOf t.key row := by
  rw [selects_keyOf]
  refine ⟨And.left, fun heq => ⟨heq, ?_⟩⟩
  rw [← heq]
  exact h.2 r hr

section Key

variable (h : t.Valid null) {sets wheres : List (Bytes × Option ℕ)}
  (hwheres : wheres.map Prod.fst = t.key) (hkey : t.key ⊆ t.columns)
include h hwheres hkey

/-- An update by a key assigns to the row that has it, if the rows stay valid. -/
theorem exec_update (hfits : t.Fits (sets.map Prod.fst)) (before after : Row V) :
    t.exec null ((sets.map Prod.fst).map after ++ keyOf t.key before) (.update table sets wheres) =
      t.withRows null (t.rows.map fun r => if keyOf t.key r = keyOf t.key before then
        assign (sets.map Prod.fst) ((sets.map Prod.fst).map after) r else r) := by
  have hlength : ((sets.map Prod.fst).map after).length = sets.length := by simp
  rw [exec, if_pos ⟨hfits, fun c hc => hkey (hwheres ▸ hc)⟩, hwheres, drop_left' hlength,
    take_left' hlength]
  congr 1
  refine map_congr_left fun r hr => ?_
  simp only [h.selects_key hr]

/-- An update of all columns by a key replaces the row that has it, if the rows stay valid. -/
theorem exec_update_eq (hfits : t.Fits (sets.map Prod.fst)) (before : Row V) {after : Row V}
    (hrows : ∀ r ∈ t.rows, ∀ x, x ∉ sets.map Prod.fst → r x = after x) :
    t.exec null ((sets.map Prod.fst).map after ++ keyOf t.key before) (.update table sets wheres) =
      t.withRows null (replaceKey t.key (keyOf t.key before) after t.rows) := by
  rw [exec_update table h hwheres hkey hfits before after, replaceKey]
  congr 1
  refine map_congr_left fun r hr => if_congr Iff.rfl ?_ rfl
  -- What is not assigned was equal before.
  ext x
  rw [assign_map]
  split_ifs with hx
  · rfl
  · exact hrows r hr x hx

theorem exec_delete (before : Row V) :
    t.exec null (keyOf t.key before) (.delete table wheres) =
      some { t with rows := removeKey t.key (keyOf t.key before) t.rows } := by
  have hrows : (t.rows.filter fun r => !selects null t.key (keyOf t.key before) r) =
      removeKey t.key (keyOf t.key before) t.rows := by
    apply filter_congr
    intro r hr
    simp [← h.selects_key hr]
  rw [exec, if_pos fun c hc => hkey (hwheres ▸ hc), hwheres, hrows]
  exact withRows_of_valid (h.filter _)

end Key

end Table

lemma Database.exec_of_lex {V : Type} [DecidableEq V] {d : Dialect} {null : V} {db : Database V}
    {text : Bytes} {args : List V} {st : Statement} {t : Table V} (hwf : st.WF)
    (hlex : lex d text = some st.tokens) (horder : InOrder 0 st.params)
    (hlength : st.params.length = args.length) (htable : db st.table = some t) :
    db.exec d null text args =
      (t.exec null args st).map fun t' => update db st.table (some t') := by
  rcases hexec : t.exec null args st with _ | t' <;>
    simp [Database.exec, (parse_of_lex hwf hlex).1, bindings, hlength, bindingsFrom_eq horder,
      htable, hexec]

end DataStream.Sql
