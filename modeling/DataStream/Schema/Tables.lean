import DataStream.Event.TableInfo

/-!
# The in-memory table definitions

`schema.Tables`, a map from the joined name `database.table` to a table definition.

* `independent_iff`: which tables the calls for a table leave alone.
-/

namespace DataStream.Schema

open Event Function List

def tableKey (database table : Bytes) : Bytes := database ++ lit "." ++ table

/-- The definitions by key. -/
abbrev Tables := Bytes → Option TableInfo

namespace Tables

/-- `NewTables`. -/
def empty : Tables := fun _ => none

variable (t : Tables) (database table : Bytes)

/-- `Put`: store a definition under its own name. -/
def put (info : TableInfo) : Tables := update t (tableKey info.database info.table) (some info)

def get : Option TableInfo := t (tableKey database table)

def remove : Tables := update t (tableKey database table) none

@[simp]
theorem get_put_self (info : TableInfo) :
    (t.put info).get info.database info.table = some info := by
  simp [get, put]

@[simp]
theorem get_remove_self : (t.remove database table).get database table = none := by
  simp [get, remove]

variable {database table : Bytes}

lemma get_put_of_key {info : TableInfo}
    (h : tableKey info.database info.table = tableKey database table) (table' : Bytes) :
    (t.put info).get database table' =
      if table = table' then some info else t.get database table' := by
  rw [get, put, h]
  split_ifs with heq
  · rw [heq, update_self]
  · exact update_of_ne (fun hkey => heq (append_cancel_left hkey).symm) _ _

/-- Every definition is stored under its own name. -/
def WellKeyed : Prop := ∀ key info, t key = some info → tableKey info.database info.table = key

lemma wellKeyed_empty : empty.WellKeyed := fun _ _ h => nomatch h

lemma WellKeyed.put {t : Tables} (h : t.WellKeyed) (info : TableInfo) : (t.put info).WellKeyed := by
  intro key info' hkey
  by_cases heq : key = tableKey info.database info.table
  · subst heq
    rw [Tables.put, update_self] at hkey
    rw [← Option.some.inj hkey]
  · rw [Tables.put, update_of_ne heq] at hkey
    exact h key info' hkey

lemma WellKeyed.put_of_get {t : Tables} (h : t.WellKeyed) {info : TableInfo}
    (hget : t.get database table = some info) : t.put info = t := by
  rw [Tables.put, h _ _ hget, ← show t (tableKey database table) = some info from hget]
  exact update_eq_self _ _

/-! ## Calls for different tables -/

inductive Call where
  | put (info : TableInfo)
  | remove (database table : Bytes)

def apply (t : Tables) : Call → Tables
  | .put info => t.put info
  | .remove database table => t.remove database table

/-- The call is for the table. A `Remove` does not say a schema. -/
def Call.IsFor (a : TableInfo) : Call → Prop
  | .put info => info.database = a.database ∧ info.schema = a.schema ∧ info.table = a.table
  | .remove database table => database = a.database ∧ table = a.table

variable (a b : TableInfo)

/-- Whatever calls have been made, a call for the first table does not change what `Get` gives for
the second. -/
def Independent : Prop :=
  ∀ (calls : List Call) (call : Call), call.IsFor a →
    ((calls.foldl apply empty).apply call).get b.database b.table =
      (calls.foldl apply empty).get b.database b.table

/-- The name of a table goes on, after a dot, where that of its database ended in another table. -/
def Overlaps : Prop :=
  ∃ mid, b.database = a.database ++ 0x2E :: mid ∧ a.table = mid ++ 0x2E :: b.table

lemma tableKey_eq_iff : tableKey a.database a.table = tableKey b.database b.table ↔
    a.database = b.database ∧ a.table = b.table ∨ Overlaps a b ∨ Overlaps b a := by
  have hdot : lit "." = [0x2E] := rfl
  rw [tableKey, tableKey, hdot, append_assoc, append_assoc, append_eq_append_iff]
  simp only [singleton_append, cons_eq_append_iff, cons.injEq, true_and]
  constructor
  · rintro (⟨_, hd, ⟨rfl, ht⟩ | ⟨mid, rfl, ht⟩⟩ | ⟨_, hd, ⟨rfl, ht⟩ | ⟨mid, rfl, ht⟩⟩)
    · exact .inl ⟨by simpa using hd.symm, ht.symm⟩
    · exact .inr (.inl ⟨mid, hd, ht⟩)
    · exact .inl ⟨by simpa using hd, ht⟩
    · exact .inr (.inr ⟨mid, hd, ht⟩)
  · rintro (⟨hd, ht⟩ | ⟨mid, hd, ht⟩ | ⟨mid, hd, ht⟩)
    · exact .inl ⟨[], by simpa using hd.symm, .inl ⟨rfl, ht.symm⟩⟩
    · exact .inl ⟨_, hd, .inr ⟨mid, rfl, ht⟩⟩
    · exact .inr ⟨_, hd, .inr ⟨mid, rfl, ht⟩⟩

/-- The calls for one table leave another one alone exactly if the two differ in database or table
name, and do not overlap across a dot. -/
theorem independent_iff : Independent a b ↔
    ¬(a.database = b.database ∧ a.table = b.table) ∧ ¬Overlaps a b ∧ ¬Overlaps b a := by
  rw [← not_or, ← not_or, ← tableKey_eq_iff]
  constructor
  · intro h hkey
    have hput := h [] (.put a) ⟨rfl, rfl, rfl⟩
    rw [apply, get, put, hkey, update_self] at hput
    cases hput
  · intro hkey calls call hcall
    rcases call with info | ⟨database, table⟩
    · obtain ⟨hdatabase, -, htable⟩ := hcall
      rw [apply, put, hdatabase, htable]
      exact update_of_ne (Ne.symm hkey) _ _
    · obtain ⟨rfl, rfl⟩ := hcall
      exact update_of_ne (Ne.symm hkey) _ _

/-- The table `orders` of a schema of the database `shop`. -/
def ordersIn (schema : Bytes) : TableInfo :=
  { TableInfo.zero with database := lit "shop", schema, table := lit "orders" }

/-- A call for `public.orders` changes what is stored for `audit.orders`. -/
theorem not_independent_schemas :
    ordersIn (lit "public") ≠ ordersIn (lit "audit") ∧
      ¬Independent (ordersIn (lit "public")) (ordersIn (lit "audit")) := by
  refine ⟨by decide, fun h => ?_⟩
  have hput := h [] (.put (ordersIn (lit "public"))) ⟨rfl, rfl, rfl⟩
  cases hput

end Tables

end DataStream.Schema
