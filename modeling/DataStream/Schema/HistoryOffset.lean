import DataStream.Schema.LocalHistory
import Mathlib.Data.List.Lex
import Mathlib.Data.Prod.Lex

/-!
# Recovery to an offset

`Recover` of both histories takes an offset and stops at the first record whose commit time is after
the offset's. The log orders the records by other fields of their positions, so the two cuts can
differ.

* `recover_offset_iff`: when recovery applies the records up to the offset.
-/

namespace DataStream.Schema

open Event Store List Function Tables

/-! ## The effect of records -/

variable (o : Position) (row : SchemaHistoryRow)

/-- What a record does: the key it changes, and the definition it leaves there. -/
def effect : Option (Bytes × Option TableInfo) :=
  match row.tableInfo with
  | some info => some (tableKey info.database info.table, some info)
  | none =>
    if row.changeType = lit "DROP" then some (tableKey row.dbName row.tableName, none) else none

variable (tables : Tables) (rows : List SchemaHistoryRow)

/-- What the last of the records that change a key leaves there, if there is one. -/
def lastEffect (key : Bytes) : Option (Option TableInfo) :=
  ((rows.filterMap effect).filter fun e => e.1 = key).getLast?.map Prod.snd

/-- Every key that the records change ends with the definition it has already. -/
def Idle : Prop := ∀ key, ∀ info ∈ lastEffect rows key, info = tables key

variable (tables : Tables)

lemma replayRow_eq :
    replayRow tables row = (effect row).elim tables fun e => update tables e.1 e.2 := by
  unfold replayRow effect
  cases row.tableInfo with
  | some info => rfl
  | none =>
    split_ifs
    · rfl
    · rfl

lemma foldl_replayRow_apply (key : Bytes) :
    rows.foldl replayRow tables key = (lastEffect rows key).getD (tables key) := by
  -- The last record decides, so the induction takes it off the end.
  induction rows using List.reverseRecOn with
  | nil => rfl
  | append_singleton rows row ih =>
    rw [foldl_concat, replayRow_eq, lastEffect, filterMap_append]
    cases heffect : effect row with
    | none => simpa [heffect, lastEffect] using ih
    | some e =>
      by_cases hkey : e.1 = key
      · subst hkey
        simp [heffect]
      · simpa [heffect, hkey, update_of_ne (Ne.symm hkey), lastEffect] using ih

lemma foldl_replayRow_eq_self_iff : rows.foldl replayRow tables = tables ↔ Idle tables rows := by
  rw [funext_iff]
  refine forall_congr' fun key => ?_
  rw [foldl_replayRow_apply]
  cases lastEffect rows key with
  | none => simp
  | some info => simp

/-! ## The two histories -/

/-- A history of records, in the target store or in a local file. -/
inductive History where
  | targetStore (rows : List StoredRow)
  | localFile (file : Bytes) (rs : List SchemaHistoryRecord) (reads : Reads [] file rs)

namespace History

/-- The records, in the order in which they were written. -/
def records : History → List SchemaHistoryRow
  | targetStore rows => loadSchemaHistory rows
  | localFile _ rs _ => rs.map (·.toSchemaHistoryRow)

/-- `Recover`: the definitions, and whether it returns no error. -/
def recover (tables : Tables) (offset : Option Position) : History → Tables × Bool
  | targetStore rows => (Store.recover rows tables offset, true)
  | localFile file _ _ => Schema.recover file tables offset

/-- Both histories replay their records up to the cut by commit time. -/
theorem recover_eq (history : History) (tables : Tables) (offset : Option Position) :
    history.recover tables offset = (recoverRows offset tables history.records, true) := by
  cases history with
  | targetStore rows => rfl
  | localFile file rs reads =>
    simp only [recover, records]
    induction reads generalizing tables with
    | nil => exact recover_nil tables offset
    | cons h _ ih =>
      rw [recover_of_eq_some h, map_cons, recoverRows]
      split_ifs
      · rfl
      · exact ih _

end History

/-! ## Two cuts of a history -/

/-- The records after the earlier and up to the later of two cuts. -/
def between (cut cut' : List SchemaHistoryRow) : List SchemaHistoryRow :=
  cut.drop cut'.length ++ cut'.drop cut.length

/-- The replays up to two cuts agree exactly when the records between them are idle. -/
theorem replay_eq_iff_idle {cut cut' rows : List SchemaHistoryRow} (h : cut <+: rows)
    (h' : cut' <+: rows) (tables : Tables) :
    cut.foldl replayRow tables = cut'.foldl replayRow tables ↔
      Idle ((cut.take cut'.length).foldl replayRow tables) (between cut cut') := by
  -- One of the two cuts is an initial part of the other.
  rcases prefix_or_prefix_of_prefix h h' with ⟨later, rfl⟩ | ⟨later, rfl⟩
  · have hle : cut.length ≤ (cut ++ later).length := by simp
    rw [← foldl_replayRow_eq_self_iff, between, take_of_length_le hle,
      drop_of_length_le hle, drop_left, nil_append, foldl_append]
    exact eq_comm
  · have hle : cut'.length ≤ (cut' ++ later).length := by simp
    rw [← foldl_replayRow_eq_self_iff, between, take_left, drop_left,
      drop_of_length_le hle, append_nil, foldl_append]

/-! ## The offset -/

/-- The commit time of a record is not after the offset's. -/
def notAfter : Bool :=
  !o.commitTime.before row.position.commitTime

lemma recoverRows_some {o : Position} (ho : o.isZero = false) (tables : Tables)
    (rows : List SchemaHistoryRow) :
    recoverRows (some o) tables rows = (rows.takeWhile (notAfter o)).foldl replayRow tables := by
  induction rows generalizing tables with
  | nil => rfl
  | cons row rows ih =>
    rw [recoverRows]
    cases hrow : o.commitTime.before row.position.commitTime with
    | true => simp [ho, hrow, notAfter]
    | false => simp [ho, hrow, notAfter, ih]

section LogOrder

variable {α : Type*} [LinearOrder α] (place : Position → α)

/-- The records stand in the order of the log. -/
def InLogOrder (rows : List SchemaHistoryRow) : Prop :=
  rows.Pairwise fun row row' => place row.position ≤ place row'.position

/-- A record is at or before the offset in the log. -/
def atOrBefore (o : Position) (row : SchemaHistoryRow) : Bool :=
  decide (place row.position ≤ place o)

lemma filter_atOrBefore {rows : List SchemaHistoryRow} (h : InLogOrder place rows)
    (o : Position) : rows.filter (atOrBefore place o) = rows.takeWhile (atOrBefore place o) := by
  induction rows with
  | nil => rfl
  | cons row rows ih =>
    obtain ⟨hrow, hrows⟩ := pairwise_cons.mp h
    by_cases hle : place row.position ≤ place o
    · simp [atOrBefore, hle, ← ih hrows]
    · -- Every later record is beyond the offset too.
      have hlater : ∀ row' ∈ rows, ¬place row'.position ≤ place o := fun row' hmem hle' =>
        hle ((hrow row' hmem).trans hle')
      simpa [atOrBefore, hle] using hlater

/-- Recovery to an offset applies exactly the records at or before it, if and only if the records
between the cut by commit time and the cut by the log end, for every table they change, with the
definition that it has at the earlier cut. -/
theorem recover_offset_iff (history : History) (hlog : InLogOrder place history.records)
    (tables : Tables) (o : Position) (ho : o.isZero = false) :
    history.recover tables (some o) =
        ((history.records.filter (atOrBefore place o)).foldl replayRow tables, true) ↔
      Idle (((history.records.takeWhile (notAfter o)).take
          (history.records.filter (atOrBefore place o)).length).foldl replayRow tables)
        (between (history.records.takeWhile (notAfter o))
          (history.records.filter (atOrBefore place o))) := by
  have hprefix : history.records.filter (atOrBefore place o) <+: history.records := by
    rw [filter_atOrBefore place hlog]
    exact takeWhile_prefix _
  have hcut : history.records.takeWhile (notAfter o) <+: history.records := takeWhile_prefix _
  rw [history.recover_eq, recoverRows_some ho, ← replay_eq_iff_idle hcut hprefix,
    Prod.mk.injEq, and_iff_left rfl]

end LogOrder

/-! ## Two changes in one second -/

/-- The order of the binary log: by the name of the file, then by the offset in it. -/
def fileNamePlace (p : Position) : Lex (List ℕ × ℕ) :=
  toLex (p.binlogFile.map UInt8.toNat, p.binlogPos.toNat)

/-- A position of the binary log with the commit time that MySQL gives in whole seconds. -/
def binlogAt (sec : ℤ) (pos : UInt32) : Position :=
  { Position.zero with
    binlogFile := lit "binlog.000001"
    binlogPos := pos
    commitTime := { unixSec := 1700000000 + sec, nsec := 0, offset := 0 } }

/-- The definition of the table `shop.orders`. -/
def orders : TableInfo := { TableInfo.zero with database := lit "shop", table := lit "orders" }

/-- The creation of the table, at a time and an offset of the binary log. -/
def creation (sec : ℤ) (pos : UInt32) : SchemaHistoryRow where
  position := binlogAt sec pos
  dbName := lit "shop"
  tableName := lit "orders"
  ddl := lit "CREATE TABLE orders (id INT)"
  tableInfo := some orders
  changeType := lit "CREATE"

/-- A store with the creation at offset 200, and one a second later at offset 400. -/
def twoCreations : History :=
  .targetStore (saveSchemaHistory (saveSchemaHistory [] (creation 0 200)) (creation 1 400))

private lemma records_twoCreations : twoCreations.records = [creation 0 200, creation 1 400] := by
  decide

private lemma inLogOrder_twoCreations : InLogOrder fileNamePlace twoCreations.records := by
  rw [records_twoCreations]
  refine pairwise_pair.mpr (Prod.Lex.toLex_le_toLex.mpr (.inr ⟨rfl, ?_⟩))
  decide

private lemma isZero_binlogAt (sec : ℤ) (pos : UInt32) : (binlogAt sec pos).isZero = false := by
  simp [Position.isZero, binlogAt, show lit "binlog.000001" ≠ [] by decide]

private lemma atOrBefore_creation (sec sec' : ℤ) (pos pos' : UInt32) :
    atOrBefore fileNamePlace (binlogAt sec pos) (creation sec' pos') = decide (pos' ≤ pos) := by
  simp [atOrBefore, fileNamePlace, creation, binlogAt, Prod.Lex.toLex_le_toLex,
    UInt32.le_iff_toNat_le]

/-- At an offset between the records, in the second of the first one, both cuts are after the
first. -/
theorem recover_offset_twoCreations :
    twoCreations.recover empty (some (binlogAt 0 300)) =
      ((twoCreations.records.filter (atOrBefore fileNamePlace (binlogAt 0 300))).foldl replayRow
        empty, true) := by
  refine (recover_offset_iff fileNamePlace twoCreations inLogOrder_twoCreations empty
    (binlogAt 0 300) (isZero_binlogAt 0 300)).mpr ?_
  have hkept : notAfter (binlogAt 0 300) (creation 0 200) = true := by decide
  have hcut : notAfter (binlogAt 0 300) (creation 1 400) = false := by decide
  intro key info hinfo
  simp [records_twoCreations, between, atOrBefore_creation, hkept, hcut, lastEffect] at hinfo

/-- An offset in the same second in front of the record does not keep recovery from applying it. -/
theorem not_forall_recover_offset :
    ¬∀ (history : History) (tables : Tables) (o : Position),
      InLogOrder fileNamePlace history.records → o.isZero = false →
      history.recover tables (some o) =
        ((history.records.filter (atOrBefore fileNamePlace o)).foldl replayRow tables, true) := by
  intro hall
  have heq := hall twoCreations empty (binlogAt 0 100) inLogOrder_twoCreations
    (isZero_binlogAt 0 100)
  have hkept : notAfter (binlogAt 0 100) (creation 0 200) = true := by decide
  have hcut : notAfter (binlogAt 0 100) (creation 1 400) = false := by decide
  have htime : [creation 0 200, creation 1 400].takeWhile (notAfter (binlogAt 0 100)) =
      [creation 0 200] := by
    simp [hkept, hcut]
  have hlog : [creation 0 200, creation 1 400].filter
      (atOrBefore fileNamePlace (binlogAt 0 100)) = [] := by
    simp [atOrBefore_creation]
  rw [History.recover_eq, recoverRows_some (isZero_binlogAt 0 100), records_twoCreations, htime,
    hlog] at heq
  -- The table is there after recovery, and not among the records up to the offset.
  have hkey := congrFun (congrArg Prod.fst heq) (tableKey orders.database orders.table)
  have hput : replayRow empty (creation 0 200) = empty.put orders :=
    replayRow_of_tableInfo_eq_some rfl _
  simp only [foldl_cons, foldl_nil, hput, put, update_self, empty, reduceCtorEq] at hkey

end DataStream.Schema
