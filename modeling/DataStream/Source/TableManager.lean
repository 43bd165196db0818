import DataStream.Event.TableInfo
import DataStream.Foundations.Lockstep
import DataStream.Foundations.Machine
import DataStream.Foundations.Text
import DataStream.Source.SyncScope
import DataStream.Source.TableLifecycle
import Mathlib.Order.CompletePartialOrder

/-!
# The managed tables of a table-level scope

`source.TableManager` keeps a state for each managed table beside the names of its scope.
`AddTables` and `RemoveTables` change both name by name and return at the first name that fails,
with the names before it done. The events of a call are sent after its last name, so a call that
fails on the way has changed tables that no event tells of.

* `manages_run`: the managed tables are always the names of the scope that have a dot;
* `tells_iff`: when the events tell the managed tables.
-/

namespace DataStream.Source

open Event List Option Function

/-- `TableOperationType`, as far as `AddTables` and `RemoveTables` use it. -/
inductive TableOperationType
  | add | remove
  deriving DecidableEq

structure TableOperationEvent where
  operation : TableOperationType
  tableID : TableID
  schema : Option TableInfo

structure TableSyncState where
  tableID : TableID
  schema : Option TableInfo

/-- How a name can fail. -/
inductive TableManagerError
  | invalidConfig (name : Bytes)
  | tableAlreadyExists (name : Bytes)
  | tableNotFound (name : Bytes)
  | fetch (err : Bytes)

/-- `TableManager`: the names of the scope, if any, whether there is a channel, and the managed
tables by joined name. -/
structure TableManager where
  names : Option (List Bytes)
  eventCh : Bool
  syncTables : Bytes → Option TableSyncState

/-- A call with the answers of the schema fetcher, if any, and the number of events received before
its context is done. -/
inductive TableCall
  | addTables (tables : List Bytes) (fetchSchema : TableID → Except Bytes (Option TableInfo))
      (received : ℕ)
  | removeTables (tables : List Bytes) (received : ℕ)

/-- `parseTableName`; `none` is the error. -/
def parseTableName (name : Bytes) : Option TableID :=
  match Text.cut 0x2E name with
  | some (database, table) =>
    if database = [] ∨ table = [] then none else some ⟨database, [], table⟩
  | none => none

/-- The key of a table. -/
def TableID.key (id : TableID) : Bytes := fullName id.database id.table

namespace TableManager

/-- `NewTableManager`; `ParseTableNames` takes every name with a dot. -/
def newTableManager (names : Option (List Bytes)) (eventCh : Bool) : TableManager where
  names
  eventCh
  syncTables := ((names.getD []).filterMap (Text.cut 0x2E)).foldl
    (fun tables (database, table) => update tables (fullName database table)
      (some ⟨⟨database, [], table⟩, none⟩)) fun _ => none

variable (fetchSchema : TableID → Except Bytes (Option TableInfo)) (tm : TableManager)
  (name : Bytes)

/-- A table is put into or taken out of the map, and the names of the scope are edited. -/
def put (key : Bytes) (state : Option TableSyncState) (edit : List Bytes → List Bytes) :
    TableManager :=
  { tm with syncTables := update tm.syncTables key state, names := tm.names.map edit }

/-- One name of `AddTables`. -/
def addTable : Except TableManagerError (TableManager × TableOperationEvent) :=
  match parseTableName name with
  | none => .error (.invalidConfig name)
  | some id =>
    if (tm.syncTables id.key).isSome then .error (.tableAlreadyExists name)
    else
      match fetchSchema id with
      | .error err => .error (.fetch err)
      | .ok schema => .ok (tm.put id.key (some ⟨id, schema⟩) (· ++ [name]), ⟨.add, id, schema⟩)

def removeTable : Except TableManagerError (TableManager × TableOperationEvent) :=
  match parseTableName name with
  | none => .error (.invalidConfig name)
  | some id =>
    match tm.syncTables id.key with
    | none => .error (.tableNotFound name)
    | some state =>
      .ok (tm.put id.key none (·.filter (· ≠ name)), ⟨.remove, state.tableID, state.schema⟩)

/-- One name of a call. -/
def change : TableCall → TableManager → Bytes →
    Except TableManagerError (TableManager × TableOperationEvent)
  | .addTables _ fetchSchema _ => addTable fetchSchema
  | .removeTables .. => removeTable

/-- The loop of a call: what it leaves, its events and the error that ended it. -/
def changes (call : TableCall) :
    TableManager → List Bytes → TableManager × List TableOperationEvent × Option TableManagerError
  | tm, [] => (tm, [], none)
  | tm, name :: names =>
    match change call tm name with
    | .error err => (tm, [], some err)
    | .ok (next, ev) =>
      let (last, evs, err) := changes call next names
      (last, ev :: evs, err)

end TableManager

def TableCall.tables : TableCall → List Bytes
  | .addTables tables .. | .removeTables tables _ => tables

/-- How many events of a call are received before its context is done. -/
def TableCall.received : TableCall → ℕ
  | .addTables _ _ received | .removeTables _ received => received

namespace TableManager

def machine : Machine TableManager TableCall TableOperationEvent where
  step tm call :=
    let (last, evs, err) := changes call tm call.tables
    (last, if err.isNone ∧ tm.eventCh then evs.take call.received else [])

def listTables (tm : TableManager) : Set Bytes := {key | (tm.syncTables key).isSome}

/-- Each table is kept under its name, and the tables are the names of the scope with a dot. -/
structure Consistent (tm : TableManager) : Prop where
  keyed : ∀ name state, tm.syncTables name = some state → state.tableID.key = name
  manages : ∀ names ∈ tm.names, ∀ name, name ∈ tm.listTables ↔ name ∈ names ∧ 0x2E ∈ name

/-- The call can change this name in this state. -/
def Accepts (tm : TableManager) : TableCall → Bytes → Prop
  | .addTables _ fetchSchema _, name =>
    name ∉ tm.listTables ∧ ∃ id ∈ parseTableName name, ∃ schema, fetchSchema id = .ok schema
  | .removeTables .., name => name ∈ tm.listTables ∧ (parseTableName name).isSome

/-- The tables as one who receives the event sees them. -/
def apply (tables : Set Bytes) (ev : TableOperationEvent) : Set Bytes :=
  match ev.operation with
  | .add => insert ev.tableID.key tables
  | .remove => tables \ {ev.tableID.key}

/-- The tables after a change of the call, which adds or removes. -/
def Moves (tables next : Set Bytes) : TableCall → Prop
  | .addTables .. => tables ⊂ next
  | .removeTables .. => next ⊂ tables

variable {tm : TableManager} {call : TableCall} {name : Bytes}

lemma key_of_cut {database table : Bytes} (h : Text.cut 0x2E name = some (database, table)) :
    fullName database table = name ∧ 0x2E ∈ name := by
  obtain rfl := Text.cut_eq_some h
  exact ⟨by simp [fullName, show lit "." = [0x2E] from rfl], by simp⟩

lemma key_of_parse {id : TableID} (h : parseTableName name = some id) :
    id.key = name ∧ 0x2E ∈ name := by
  unfold parseTableName at h
  split at h
  next hcut =>
    split_ifs at h
    obtain rfl := some.inj h
    exact key_of_cut hcut
  · cases h

lemma consistent_new (names : Option (List Bytes)) (eventCh : Bool) :
    (newTableManager names eventCh).Consistent := by
  have hnew : ∀ names : List Bytes, ∀ name,
      ((newTableManager (some names) eventCh).syncTables name).elim (¬ (name ∈ names ∧ 0x2E ∈ name))
        fun state => state.tableID.key = name ∧ name ∈ names ∧ 0x2E ∈ name := by
    intro names name
    induction names using List.reverseRecOn with
    | nil => simp [newTableManager]
    | append_singleton names last ih =>
      simp only [newTableManager, getD_some, filterMap_append, foldl_append] at ih ⊢
      cases hcut : Text.cut 0x2E last with
      | none =>
        have hdot : 0x2E ∉ last := fun hmem => by simp [Text.cut, hmem] at hcut
        simp only [filterMap_cons, hcut, filterMap_nil, foldl_nil]
        grind
      | some parts =>
        obtain ⟨hkey, hdot⟩ := key_of_cut hcut
        by_cases hname : name = last
        · simp [hcut, hkey, hname, hdot, TableID.key]
        · simpa [hcut, hkey, hname] using ih
  cases names with
  | none => exact ⟨by simp [newTableManager], by simp [newTableManager]⟩
  | some names =>
    refine ⟨fun name state hstate => ?_, fun names' hnames name => ?_⟩ <;> have h := hnew names name
    · rw [hstate] at h
      exact h.1
    · obtain rfl := some.inj hnames
      rw [listTables, Set.mem_ofPred_eq]
      revert h
      cases (newTableManager (some names) eventCh).syncTables name <;> simp +contextual

lemma mem_listTables_put {key other : Bytes} {state : Option TableSyncState}
    {edit : List Bytes → List Bytes} : other ∈ (tm.put key state edit).listTables ↔
      if other = key then state.isSome = true else other ∈ tm.listTables := by
  by_cases hother : other = key <;> simp [put, listTables, hother]

lemma Consistent.put {state : Option TableSyncState} {edit : List Bytes → List Bytes}
    (h : tm.Consistent) (hdot : 0x2E ∈ name) (hstate : ∀ s ∈ state, s.tableID.key = name)
    (hedit : ∀ names other, other ∈ edit names ↔
      if other = name then state.isSome = true else other ∈ names) :
    (tm.put name state edit).Consistent := by
  refine ⟨fun other s hs => ?_, fun names' hnames' other => ?_⟩
  · by_cases hother : other = name
    · exact hother ▸ hstate s (by simpa [TableManager.put, hother] using hs)
    · exact h.keyed other s (by simpa [TableManager.put, hother] using hs)
  · obtain ⟨names, hnames, rfl⟩ := map_eq_some_iff.mp hnames'
    rw [mem_listTables_put, hedit, h.manages names hnames]
    split_ifs with hother <;> simp [hother, hdot]

/-- What a change does: its event tells it, and the call can no longer change this name. -/
structure Changes (tm : TableManager) (call : TableCall) (name : Bytes) (next : TableManager)
    (ev : TableOperationEvent) : Prop where
  accepts : tm.Accepts call name
  consistent : next.Consistent
  scope : next.names.isSome = tm.names.isSome
  told : apply tm.listTables ev = next.listTables
  moves : Moves tm.listTables next.listTables call
  rest : ∀ other, next.Accepts call other ↔ other ≠ name ∧ tm.Accepts call other

lemma change_spec (h : tm.Consistent) (call : TableCall) (name : Bytes) :
    (∃ err, change call tm name = .error err) ∧ ¬ tm.Accepts call name ∨
      ∃ next ev, change call tm name = .ok (next, ev) ∧ Changes tm call name next ev := by
  cases hid : parseTableName name with
  | none => cases call <;> simp [change, addTable, removeTable, Accepts, hid]
  | some id =>
    obtain ⟨rfl, hdot⟩ := key_of_parse hid
    cases hstate : tm.syncTables id.key with
    | none =>
      have hnew : id.key ∉ tm.listTables := by simp [listTables, hstate]
      cases call with
      | removeTables => simp [change, removeTable, Accepts, hid, hstate, hnew]
      | addTables _ fetchSchema =>
        cases hfetch : fetchSchema id with
        | error => simp [change, addTable, Accepts, hid, hstate, hfetch]
        | ok schema =>
          have htables : (tm.put id.key (some ⟨id, schema⟩) (· ++ [id.key])).listTables =
              insert id.key tm.listTables := by
            ext other
            rw [mem_listTables_put, Set.mem_insert_iff]
            split_ifs <;> simp [*]
          refine .inr ⟨_, ⟨.add, id, schema⟩,
            by simp only [change, addTable, hid, hstate, hfetch]; rfl,
            ⟨hnew, id, hid, schema, hfetch⟩, h.put hdot (by simp) fun names other => ?_,
            isSome_map,
            htables.symm, ?_, fun other => ?_⟩
          · split_ifs <;> simp [*]
          · exact htables ▸ Set.ssubset_insert hnew
          · rw [Accepts, htables, Accepts, Set.mem_insert_iff, not_or, and_assoc]
    | some state =>
      have hmem : id.key ∈ tm.listTables := by simp [listTables, hstate]
      cases call with
      | addTables => simp [change, addTable, Accepts, hid, hstate, hmem]
      | removeTables =>
        have htables : (tm.put id.key none (·.filter (· ≠ id.key))).listTables =
            tm.listTables \ {id.key} := by
          ext other
          rw [mem_listTables_put, Set.mem_sdiff, Set.mem_singleton_iff]
          split_ifs <;> simp [*]
        refine .inr ⟨_, _, by simp only [change, removeTable, hid, hstate]; rfl,
          ⟨hmem, by simp [hid]⟩, h.put hdot (by simp) fun names other => ?_,
          isSome_map, ?_, ?_,
          fun other => ?_⟩
        · split_ifs <;> simp [*]
        · rw [htables, apply, h.keyed _ state hstate]
        · exact htables ▸ Set.sdiff_singleton_ssubset.mpr hmem
        · rw [Accepts, htables, Accepts, Set.mem_sdiff, Set.mem_singleton_iff]
          tauto

/-- What the loop of a call leaves, `r` being what it returns. -/
structure Ends (tm : TableManager) (call : TableCall) (names : List Bytes)
    (r : TableManager × List TableOperationEvent × Option TableManagerError) : Prop where
  consistent : r.1.Consistent
  scope : r.1.names.isSome = tm.names.isSome
  told : ∀ n, (r.2.1.take n).foldl apply tm.listTables = r.1.listTables ↔ r.2.1.length ≤ n
  moves : r.1.listTables = tm.listTables ∨ Moves tm.listTables r.1.listTables call
  nil_iff : r.2.1 = [] ↔ ∀ name ∈ names.head?, ¬ tm.Accepts call name
  none_iff : r.2.2 = none ↔ names.Nodup ∧ ∀ name ∈ names, tm.Accepts call name
  length : r.2.2 = none → r.2.1.length = names.length

lemma changes_ends (h : tm.Consistent) (call : TableCall) (names : List Bytes) :
    Ends tm call names (changes call tm names) := by
  induction names generalizing tm with
  | nil => exact ⟨h, rfl, by simp [changes], .inl rfl, by simp [changes], by simp [changes],
      by simp [changes]⟩
  | cons name names ih =>
    rw [changes]
    obtain ⟨⟨err, herr⟩, hnot⟩ | ⟨next, ev, hok, hchange⟩ := change_spec h call name
    · rw [herr]
      exact ⟨h, rfl, by simp, .inl rfl, by simpa, by simp [hnot], by simp⟩
    · rw [hok]
      have hends := ih hchange.consistent
      have hmoves : Moves tm.listTables (changes call next names).1.listTables call := by
        rcases hends.moves with heq | hmoves
        · exact heq ▸ hchange.moves
        · have := hchange.moves
          cases call with
          | addTables => exact this.trans hmoves
          | removeTables => exact hmoves.trans this
      refine ⟨hends.consistent, hends.scope.trans hchange.scope, fun n => ?_, .inr hmoves,
        by simp [hchange.accepts], ?_, fun hnone => congrArg (· + 1) (hends.length hnone)⟩
      · cases n with
        | zero =>
          have hne : tm.listTables ≠ (changes call next names).1.listTables := by
            intro heq
            rw [← heq] at hmoves
            cases call <;> exact ssubset_irrefl _ hmoves
          simpa using hne
        | succ n => simpa [hchange.told] using hends.told n
      · rw [hends.none_iff, nodup_cons, forall_mem_cons]
        simp only [hchange.rest]
        grind [hchange.accepts]

/-- Whatever calls are made, the managed tables are the names of the scope that have a dot. -/
theorem manages_run (names : List Bytes) (eventCh : Bool) (calls : List TableCall) :
    let tm := (machine.run (newTableManager (some names) eventCh) calls).1
    ∃ names', tm.names = some names' ∧
      ∀ key, (tm.syncTables key).isSome ↔ key ∈ names' ∧ 0x2E ∈ key := by
  have hrun : (machine.run (newTableManager (some names) eventCh) calls).1.Consistent ∧
      (machine.run (newTableManager (some names) eventCh) calls).1.names.isSome := by
    refine machine.run_induction (motive := fun tm _ => tm.Consistent ∧ tm.names.isSome) calls
      ⟨consistent_new _ _, rfl⟩ fun tm _ call h => ?_
    have hends := changes_ends h.1 call call.tables
    exact ⟨hends.consistent, hends.scope.trans h.2⟩
  obtain ⟨names', hnames'⟩ := isSome_iff_exists.mp hrun.2
  exact ⟨names', hnames', hrun.1.manages names' hnames'⟩

/-- After each of the calls, the events received so far, applied to the tables of the start, give
the tables listed. -/
def Tells (tm : TableManager) (calls : List TableCall) : Prop :=
  ∀ before, before <+: calls → (machine.run tm before).2.foldl apply tm.listTables =
    (machine.run tm before).1.listTables

/-- The call can change none of its names, or all of them, which are distinct, and all its events
are received. -/
def Whole (tm : TableManager) (call : TableCall) : Prop :=
  (∀ name ∈ call.tables.head?, ¬ tm.Accepts call name) ∨
    tm.eventCh ∧ call.tables.length ≤ call.received ∧ call.tables.Nodup ∧
      ∀ name ∈ call.tables, tm.Accepts call name

lemma told_step_iff (h : tm.Consistent) :
    (machine.step tm call).2.foldl apply tm.listTables = (machine.step tm call).1.listTables ↔
      tm.Whole call := by
  have hends := changes_ends h call call.tables
  rw [Whole, ← hends.nil_iff, ← hends.none_iff]
  dsimp only [machine]
  split_ifs with hsent
  · have hnone := isNone_iff_eq_none.mp hsent.1
    rw [hends.told, hends.length hnone, ← length_eq_zero_iff, hends.length hnone]
    simp only [hsent.2, hnone, and_true, true_and]
    omega
  · rw [← take_zero, hends.told, Nat.le_zero, length_eq_zero_iff]
    refine ⟨.inl, fun hwhole => hwhole.resolve_right fun hall => hsent ⟨?_, hall.1⟩⟩
    exact isNone_iff_eq_none.mpr hall.2.2

lemma tells_iff_meets (h : tm.Consistent) (calls : List TableCall) :
    tm.Tells calls ↔ machine.Meets Whole tm calls := by
  induction calls generalizing tm with
  | nil => simp [Tells, Machine.run, Machine.Meets]
  | cons call calls ih =>
    have hnext : (machine.step tm call).1.Consistent := (changes_ends h call _).consistent
    rw [Tells, forall_past_cons, Machine.Meets, ← told_step_iff h, ← ih hnext]
    simp only [Tells, Machine.run_cons, foldl_append]
    constructor
    · rintro ⟨-, hall⟩
      have hstep := hall [] nil_prefix
      exact ⟨hstep, hstep ▸ hall⟩
    · rintro ⟨hstep, hall⟩
      exact ⟨rfl, hstep ▸ hall⟩

/-- The events tell the managed tables exactly if every call is whole. -/
theorem tells_iff (names : Option (List Bytes)) (eventCh : Bool) (calls : List TableCall) :
    (newTableManager names eventCh).Tells calls ↔
      machine.Meets Whole (newTableManager names eventCh) calls :=
  tells_iff_meets (consistent_new names eventCh) calls

/-- The first name of the call is added, the second is no table, and there is no event for the
first. -/
theorem not_tells : ¬ (newTableManager (some []) true).Tells
    [.addTables [lit "shop.orders", lit "orders"] (fun _ => .ok none) 2] := by
  rw [tells_iff_meets (consistent_new _ _)]
  rintro ⟨hfirst | ⟨-, -, -, hall⟩, -⟩
  · exact hfirst _ rfl ⟨by simp [listTables, newTableManager], ⟨lit "shop", [], lit "orders"⟩, rfl,
      none, rfl⟩
  · obtain ⟨-, id, hid, -⟩ := hall (lit "orders") (by simp [TableCall.tables])
    cases hid

end TableManager

end DataStream.Source
