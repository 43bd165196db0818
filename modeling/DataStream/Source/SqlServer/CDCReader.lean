import DataStream.Event.ChangeEvent
import DataStream.Foundations.GoMap
import DataStream.Foundations.Hex

/-!
# The SQL Server change reader

`sqlserver.CDCReader` reads the change table of one capture instance in windows of log sequence
numbers. A number is a `binary(10)`, kept as hexadecimal text; the next window starts at the
increment of the last maximum.

* `incrementLSN_exact`: increments are exact, and texts compare as their numbers;
* `belongTogether_iff`: when the images of updates are combined as they belong.
-/

namespace DataStream.Source.SqlServer

open Event List Option

/-- A log sequence number: ten bytes, as `binary(10)`. -/
abbrev LSN := { data : Bytes // data.length = 10 }

namespace LSN

/-- The number. -/
def value (lsn : LSN) : ℕ := Bytes.bigEndian lsn.val

/-- The text in which the connector keeps it. -/
def hex (lsn : LSN) : Bytes := Hex.encodeToString lsn.val

lemma decodeString_hex (lsn : LSN) : Hex.decodeString lsn.hex = (lsn.val, true) :=
  Hex.decodeString_encodeToString lsn.val

end LSN

/-- `incrementLSN`. The error of an invalid text is ignored: what was decoded is incremented. -/
def incrementLSN (lsn : Bytes) : Bytes :=
  Hex.encodeToString (Bytes.increment (Hex.decodeString lsn).1)

/-- The number that a text stands for. -/
def textValue (lsn : Bytes) : ℕ := Bytes.bigEndian (Hex.decodeString lsn).1

lemma textValue_hex (lsn : LSN) : textValue lsn.hex = lsn.value := by
  rw [textValue, LSN.decodeString_hex, LSN.value]

/-- Incrementing adds at most one; at the end of the range it wraps around to zero. -/
theorem textValue_incrementLSN_le (lsn : Bytes) :
    textValue (incrementLSN lsn) ≤ textValue lsn + 1 := by
  rw [textValue, incrementLSN, Hex.decodeString_encodeToString, Bytes.bigEndian_increment]
  exact Nat.mod_le _ _

/-- `incrementLSN` is exact for texts of every length, and texts of one length in lower case, as
`EncodeToString` writes them, compare as their numbers do. -/
theorem incrementLSN_exact :
    (∀ (n : ℕ) (lsn data : Bytes), Hex.decodeString lsn = (data, true) → data.length = n →
      ∃ next : Bytes, next.length = n ∧ next.bigEndian = (data.bigEndian + 1) % 256 ^ n ∧
        incrementLSN lsn = Hex.encodeToString next) ∧
    ∀ x y : Bytes, x.length = y.length →
      (Hex.encodeToString x > Hex.encodeToString y ↔ x.bigEndian > y.bigEndian) := by
  refine ⟨?_, fun x y hlength => Hex.encodeToString_lt_iff hlength.symm⟩
  rintro n lsn data hdata rfl
  refine ⟨data.increment, data.length_increment, data.bigEndian_increment, ?_⟩
  rw [incrementLSN, hdata]

theorem incrementLSN_exact_carry :
    (∃ next : Bytes, next.length = 2 ∧ next.bigEndian = (0xff + 1) % 256 ^ 2 ∧
      incrementLSN (lit "00FF") = Hex.encodeToString next) ∧
    (lit "0100" > lit "00ff" ↔ Bytes.bigEndian [1, 0] > Bytes.bigEndian [0, 0xff]) :=
  ⟨incrementLSN_exact.1 2 (lit "00FF") [0, 0xff] (by decide) rfl,
    incrementLSN_exact.2 [1, 0] [0, 0xff] rfl⟩

structure CDCRow where
  /-- The column `__$start_lsn`. -/
  lsn : LSN
  /-- The column `__$operation`: delete, insert, update before image, update after image. -/
  operation : ℤ
  /-- The data columns, in order. -/
  values : List (Bytes × GoValue)

namespace CDCRow

/-- The row is a change of its own, not the before image of one. -/
def IsChange (row : CDCRow) : Prop := row.operation = 1 ∨ row.operation = 2 ∨ row.operation = 4
  deriving Decidable

def data (row : CDCRow) : GoMap RowField :=
  row.values.foldl (fun fields (name, value) =>
    GoMap.insert fields name { name, value, type := [], null := false }) []

def DescribedBy (row : CDCRow) (ev : ChangeEvent) : Prop :=
  ev.position.changeLsn = row.lsn.hex ∧
    (row.operation = 1 → ev.type = .delete ∧ ev.before.fields = some row.data) ∧
    (row.operation = 2 → ev.type = .insert ∧ ev.after.fields = some row.data) ∧
    (row.operation = 4 → ev.type = .update ∧ ev.after.fields = some row.data)

end CDCRow

/-- The before image that waits for its after image. -/
structure Pairing where
  beforeRow : Option (GoMap RowField)
  beforeLSN : Bytes

/-- No before image is waiting. -/
def Pairing.none : Pairing := { beforeRow := .none, beforeLSN := [] }

section ParseRows

variable (database captureInstance : Bytes) (now : Time)

variable (pairing : Pairing) (row : CDCRow)

/-- The parts that every event of the reader has. -/
def baseEvent : ChangeEvent :=
  { ChangeEvent.zero with
    table := { TableInfo.zero with database, table := captureInstance }
    source := { SourceInfo.zero with connector := lit "sqlserver", database }
    timestamp := now
    position := { Position.zero with changeLsn := row.lsn.hex, commitTime := now } }

/-- One turn of the loop of `parseRows`: the next pairing and the event of the row. -/
def parseRow : Pairing × Option ChangeEvent :=
  let ev := baseEvent database captureInstance now row
  -- 1 delete, 2 insert, 3 and 4 the images before and after an update.
  if row.operation = 1 then
    (pairing, some { ev with type := .delete, before := { fields := some row.data } })
  else if row.operation = 2 then
    (pairing, some { ev with type := .insert, after := { fields := some row.data } })
  else if row.operation = 3 then
    ({ beforeRow := some row.data, beforeLSN := row.lsn.hex }, none)
  else if row.operation = 4 then
    -- The before image is attached if it belongs to the same change.
    let matching := pairing.beforeLSN = row.lsn.hex ∧ 0 < (pairing.beforeRow.getD []).length
    (Pairing.none, some { ev with
      type := .update
      before := { fields := if matching then pairing.beforeRow else none }
      after := { fields := some row.data } })
  else (pairing, none)

def parseRows (pairing : Pairing) : List CDCRow → List ChangeEvent
  | [] => []
  | row :: rows =>
    let r := parseRow database captureInstance now pairing row
    r.2.toList ++ parseRows r.1 rows

lemma describedBy_parseRow {row : CDCRow} (h : row.IsChange) :
    ∃ ev, (parseRow database captureInstance now pairing row).2 = some ev ∧ row.DescribedBy ev := by
  rcases h with h | h | h <;> simp [parseRow, h, CDCRow.DescribedBy, baseEvent]

/-- Every change row of a result set becomes an event. -/
theorem exists_mem_parseRows {rows : List CDCRow} {row : CDCRow} (hmem : row ∈ rows)
    (h : row.IsChange) :
    ∃ ev ∈ parseRows database captureInstance now pairing rows, row.DescribedBy ev := by
  induction rows generalizing pairing with
  | nil => cases hmem
  | cons first rows ih =>
    rcases mem_cons.mp hmem with rfl | hmem
    · obtain ⟨ev, hev, hdescribed⟩ := describedBy_parseRow database captureInstance now pairing h
      exact ⟨ev, mem_append_left _ (by simp [hev]), hdescribed⟩
    · obtain ⟨ev, hev, hdescribed⟩ := ih _ hmem
      exact ⟨ev, mem_append_right _ hev, hdescribed⟩

end ParseRows

/-- The change tables of a database, as far as the readers see them. -/
structure Database where
  name : Bytes
  /-- The rows of each capture instance, in the order of their numbers. -/
  rows : Bytes → List CDCRow
  /-- `sys.fn_cdc_get_min_lsn`. -/
  minLSN : Bytes → LSN

variable (db : Database)

/-- The change function of a capture instance: the rows between two numbers. -/
def Database.allChanges (captureInstance : Bytes) (lower upper : Bytes) : List CDCRow :=
  (db.rows captureInstance).filter fun row =>
    Bytes.bigEndian lower ≤ row.lsn.value ∧ row.lsn.value ≤ Bytes.bigEndian upper

/-- Where the next window of a reader starts, given its position. -/
def fromLSN (captureInstance : Bytes) (position : Option Bytes) : Bytes :=
  match position with
  -- A position is used as it is, also when it lies below the minimum of the instance.
  | some lsn => if lsn = [] then (db.minLSN captureInstance).hex else lsn
  | none => (db.minLSN captureInstance).hex

def queryChanges (captureInstance : Bytes) (now : Time) (lower upper : Bytes) :
    Option (List ChangeEvent) :=
  match Hex.decodeString lower, Hex.decodeString upper with
  | (fromBytes, true), (toBytes, true) =>
    some (parseRows db.name captureInstance now Pairing.none
      (db.allChanges captureInstance fromBytes toBytes))
  | _, _ => none

/-- `ReadChanges` on a reader with a position, when the queries succeed: the events and the new
upper end. -/
def readChanges (captureInstance : Bytes) (now : Time) (position : Option Bytes) (maxLSN : LSN) :
    Option (List ChangeEvent × Bytes) :=
  let lower := fromLSN db captureInstance position
  -- Equal ends skip the window, although the change function includes both ends.
  if lower = maxLSN.hex then some ([], maxLSN.hex)
  else (queryChanges db captureInstance now lower maxLSN.hex).map (·, maxLSN.hex)

section Window

variable {db : Database} {captureInstance : Bytes} {now : Time} {position : Option Bytes}
  {maxLSN : LSN} {events : List ChangeEvent} {upper : Bytes}
  (hread : readChanges db captureInstance now position maxLSN = some (events, upper))
include hread

/-- A window that is read and not skipped gives an event for every change row in it. -/
theorem exists_mem_readChanges (hskip : fromLSN db captureInstance position ≠ maxLSN.hex)
    {row : CDCRow} (hmem : row ∈ db.rows captureInstance) (hchange : row.IsChange)
    (hlower : textValue (fromLSN db captureInstance position) ≤ row.lsn.value)
    (hupper : row.lsn.value ≤ maxLSN.value) : ∃ ev ∈ events, row.DescribedBy ev := by
  rw [readChanges] at hread
  simp only [if_neg hskip, queryChanges, LSN.decodeString_hex] at hread
  split at hread
  · rename_i fromBytes toBytes hfrom hto
    obtain ⟨rfl, -⟩ : maxLSN.val = toBytes ∧ true = true := Prod.mk.inj hto
    simp only [map_some, some.injEq, Prod.mk.injEq] at hread
    rw [← hread.1]
    refine exists_mem_parseRows _ _ _ _ ?_ hchange
    rw [textValue, hfrom] at hlower
    rw [Database.allChanges, mem_filter]
    exact ⟨hmem, by simpa using ⟨hlower, hupper⟩⟩
  · simp at hread

lemma upper_of_readChanges : upper = maxLSN.hex := by
  rw [readChanges] at hread
  split at hread
  · simp only [some.injEq, Prod.mk.injEq] at hread
    exact hread.2.symm
  · simp only [map_eq_some_iff, Prod.mk.injEq] at hread
    obtain ⟨_, _, _, hupper⟩ := hread
    exact hupper.symm

end Window

/-! ## The images of an update

The query selects `__$start_lsn`, `__$operation` and `__$update_mask`, and then `*`, so the metadata
columns come again among the columns that the reader takes for data. It asks for `N'all'`, which
gives no images from before an update; the results below are about any rows in any order. -/

/-- The metadata columns of the change function. -/
def metadataColumns : List Bytes :=
  [lit "__$start_lsn", lit "__$seqval", lit "__$operation", lit "__$update_mask"]

/-- A row that the change function of a capture instance returns. -/
structure ChangeRow where
  startLSN : LSN
  /-- The place of the change in its transaction. -/
  seqval : Bytes
  operation : Int64
  updateMask : Bytes
  /-- The captured columns, in order. -/
  captured : List (Bytes × GoValue)
  /-- The names of the metadata columns are reserved. -/
  reserved : ∀ col ∈ captured, col.1 ∉ metadataColumns

namespace ChangeRow

variable (row : ChangeRow)

/-- The columns that `*` stands for in the query. -/
def star : List (Bytes × GoValue) :=
  metadataColumns.zip [.bytes row.startLSN.val, .bytes row.seqval, .int row.operation,
    .bytes row.updateMask] ++ row.captured

def result : CDCRow :=
  { lsn := row.startLSN, operation := row.operation.toInt, values := row.star }

/-- The captured columns as row data. -/
def image : GoMap RowField :=
  { row.result with values := row.captured : CDCRow }.data

/-- The row is an image of an update, from before or after it. -/
def IsImage : Prop := row.operation = 3 ∨ row.operation = 4
  deriving Decidable

end ChangeRow

open ChangeRow

/-- Two rows are the old and the new image of one update of one row. -/
structure OfOneUpdate (old new : ChangeRow) : Prop where
  before : old.operation = 3
  after : new.operation = 4
  startLSN : old.startLSN = new.startLSN
  seqval : old.seqval = new.seqval

/-- The update events combine the images of the rows: each the two images of one update, and every
image is used once. -/
def BelongTogether (rows : List ChangeRow) (events : List ChangeEvent) : Prop :=
  ∃ updates : List (ChangeRow × ChangeRow), (∀ u ∈ updates, OfOneUpdate u.1 u.2) ∧
    (updates.flatMap fun u => [u.1, u.2]).Perm (rows.filter fun row => row.IsImage) ∧
    (events.filter fun ev => ev.type = .update).map
        (fun ev => (ev.before.fields, ev.after.fields)) =
      updates.map fun u => (some u.1.image, some u.2.image)

lemma mem_keys_data {row : CDCRow} {key : Bytes} :
    key ∈ row.data.map Prod.fst ↔ key ∈ row.values.map Prod.fst := by
  suffices ∀ (values : List (Bytes × GoValue)) (m : GoMap RowField),
      key ∈ (values.foldl (fun fields (name, value) =>
        GoMap.insert fields name { name, value, type := [], null := false }) m).map Prod.fst ↔
      key ∈ m.map Prod.fst ∨ key ∈ values.map Prod.fst by
    rw [CDCRow.data, this]
    simp
  intro values
  induction values with
  | nil => simp
  | cons col values ih =>
    intro m
    rw [foldl_cons, ih, GoMap.mem_keys_insert, map_cons, mem_cons]
    tauto

/-- The data of a result row is never an image: it has the metadata columns. -/
lemma data_result_ne_image (row row' : ChangeRow) : row.result.data ≠ row'.image := by
  intro h
  have hmem : lit "__$start_lsn" ∈ row.result.data.map Prod.fst := by
    rw [mem_keys_data]
    exact mem_cons_self
  rw [h, image, mem_keys_data] at hmem
  obtain ⟨col, hcol, hname⟩ := List.mem_map.mp hmem
  exact row'.reserved col hcol (hname ▸ mem_cons_self)

variable {database captureInstance : Bytes} {now : Time}

lemma after_of_parseRow {pairing : Pairing} {row : CDCRow} {ev : ChangeEvent}
    (hev : (parseRow database captureInstance now pairing row).2 = some ev)
    (htype : ev.type = .update) : row.operation = 4 ∧ ev.after.fields = some row.data := by
  by_cases hop : row.operation = 4
  · obtain ⟨ev', hev', hdescribed⟩ :=
      describedBy_parseRow database captureInstance now pairing (.inr (.inr hop))
    rw [← some.inj (hev'.symm.trans hev)]
    exact ⟨hop, (hdescribed.2.2.2 hop).2⟩
  · rw [parseRow] at hev
    split_ifs at hev <;>
    · rw [← some.inj hev] at htype
      cases htype

lemma exists_of_mem_parseRows {pairing : Pairing} {rows : List ChangeRow} {ev : ChangeEvent}
    (hmem : ev ∈ parseRows database captureInstance now pairing (rows.map result))
    (htype : ev.type = .update) :
    ∃ row ∈ rows, row.IsImage ∧ ev.after.fields = some row.result.data := by
  induction rows generalizing pairing with
  | nil => cases hmem
  | cons row rows ih =>
    rcases mem_append.mp hmem with hmem | hmem
    · obtain ⟨hop, hafter⟩ := after_of_parseRow (mem_toList.mp hmem) htype
      exact ⟨row, mem_cons_self, .inr (Int64.toInt_inj.mp hop), hafter⟩
    · obtain ⟨row', hrow', h⟩ := ih hmem
      exact ⟨row', mem_cons_of_mem _ hrow', h⟩

lemma not_belongTogether {rows : List ChangeRow} {row : ChangeRow} (hrow : row ∈ rows)
    (himage : row.IsImage) :
    ¬BelongTogether rows
      (parseRows database captureInstance now Pairing.none (rows.map result)) := by
  rintro ⟨updates, -, hperm, hevents⟩
  -- The image is one of an update, whose event has the data of a result row as its new image.
  have hmem : row ∈ updates.flatMap fun u => [u.1, u.2] :=
    hperm.mem_iff.mpr (mem_filter.mpr ⟨hrow, decide_eq_true himage⟩)
  obtain ⟨u, hu, -⟩ := mem_flatMap.mp hmem
  obtain ⟨ev, hev, hfields⟩ := List.mem_map.mp (hevents ▸ List.mem_map_of_mem hu)
  obtain ⟨hev, htype⟩ := mem_filter.mp hev
  obtain ⟨row', -, -, hdata⟩ := exists_of_mem_parseRows hev (of_decide_eq_true htype)
  exact data_result_ne_image row' u.2 (some.inj (hdata.symm.trans (Prod.mk.inj hfields).2))

/-- The events of a result set combine the images of updates as they belong together exactly if
there is no such image among the rows, whatever their order. -/
theorem belongTogether_iff (database captureInstance : Bytes) (now : Time)
    (rows : List ChangeRow) :
    BelongTogether rows (parseRows database captureInstance now Pairing.none (rows.map result)) ↔
      ∀ row ∈ rows, ¬row.IsImage := by
  refine ⟨fun h row hrow himage => not_belongTogether hrow himage h, fun h => ?_⟩
  refine ⟨[], by simp, ?_, ?_⟩
  · have hnone : rows.filter (fun row => row.IsImage) = [] := by simpa using h
    rw [hnone]
    rfl
  · rw [filter_eq_nil_iff.mpr]
    · rfl
    · intro ev hev htype
      obtain ⟨row, hrow, himage, -⟩ := exists_of_mem_parseRows hev (of_decide_eq_true htype)
      exact h row hrow himage

def sampleImage (operation : Int64) (name : Bytes) : ChangeRow where
  startLSN := ⟨[0, 0, 0, 42, 0, 0, 1, 0, 0, 3], rfl⟩
  seqval := [0, 0, 0, 42, 0, 0, 1, 0, 0, 2]
  operation := operation
  updateMask := [2]
  captured := [(lit "id", .int 1), (lit "name", .string name)]
  reserved := by
    have hid : lit "id" ∉ metadataColumns := by decide
    have hname : lit "name" ∉ metadataColumns := by decide
    simp [hid, hname]

/-- The two images of a single update, one after the other, do not belong together in its event. -/
theorem not_belongTogether_sample :
    ¬BelongTogether [sampleImage 3 (lit "old"), sampleImage 4 (lit "new")]
      (parseRows (lit "shop") (lit "dbo_users") Time.zero Pairing.none
        ([sampleImage 3 (lit "old"), sampleImage 4 (lit "new")].map result)) :=
  not_belongTogether mem_cons_self (by decide)

end DataStream.Source.SqlServer
