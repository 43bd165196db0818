import DataStream.Event.ChangeEvent
import DataStream.Schema.Tables

/-!
# Detecting DDL in SQL Server

`detectDDLChanges` of `sqlserver.Connector`: the tables that were modified since the last check are
looked up in `sys.objects`, their definitions are read anew, and an event is emitted for each
captured one. The statement that modified a table is not known; the event has a comment instead.
The record manager, which stores the same comment, is left out.

* `metadata_of_mem_detectDDLChanges`: what the events say about the statement.
-/

namespace DataStream.Source.SqlServer

open Event Schema List

/-- A row of `sys.objects` with its schema. -/
structure ModifiedObject where
  schemaName : Bytes
  tableName : Bytes
  modifyDate : Time

/-- What a check reads. -/
structure DetectEnv where
  now : Time
  /-- The objects modified after a time; `none` is an error, and a `none` row does not scan. -/
  modifiedAfter : Time → Option (List (Option ModifiedObject))
  /-- The readers by capture instance, each with its position, if it has one. -/
  cdcReaders : Bytes → Option (Option Bytes)
  /-- The change position of the connector, if it has one. -/
  position : Option Bytes
  /-- The definition that the schema cache reads; `none` is an error. -/
  freshInfo : Bytes → Option TableInfo
  /-- The select of the event with this number takes the channel; otherwise the check is over. -/
  sends : ℕ → Bool

/-- The part of the connector that a check changes. -/
structure DDLDetector where
  tables : Option Tables
  lastDDLCheckTime : Time

variable (database : Bytes) (env : DetectEnv) (object : ModifiedObject)

def captureInstance : Bytes := object.schemaName ++ lit "_" ++ object.tableName

def detectedDDLEvent (readerPosition : Option Bytes) (freshInfo : TableInfo) : ChangeEvent :=
  { ChangeEvent.zero with
    id := generateEventID (lit "sqlserver") [] object.modifyDate 0
    type := .ddl
    source := { SourceInfo.zero with connector := lit "sqlserver", database }
    table := freshInfo
    timestamp := object.modifyDate
    -- The position of the reader wins over that of the connector.
    position := { Position.zero with
      commitTime := object.modifyDate
      changeLsn := (readerPosition.or env.position).getD [] }
    metadata :=
      [(lit "ddl", lit "-- " ++ captureInstance object ++ lit " detected via sys.objects"),
        (lit "ddlType", lit "alter_table")] }

/-- The loop of `detectDDLChanges` over the rows: the definitions, the events sent, and whether all
rows were visited. `n` counts the events so far. -/
def detectRows (database : Bytes) (env : DetectEnv) (n : ℕ) (tables : Option Tables) :
    List (Option ModifiedObject) → Option Tables × List ChangeEvent × Bool
  | [] => (tables, [], true)
  | none :: rest => detectRows database env n tables rest
  | some object :: rest =>
    match env.cdcReaders (captureInstance object), env.freshInfo object.tableName with
    | some readerPosition, some freshInfo =>
      let tables := tables.map fun t => t.put freshInfo
      if env.sends n then
        let ev := detectedDDLEvent database env object readerPosition freshInfo
        let result := detectRows database env (n + 1) tables rest
        (result.1, ev :: result.2.1, result.2.2)
      else (tables, [], false)
    -- Not captured, or the definition cannot be read.
    | _, _ => detectRows database env n tables rest

def detectDDLChanges (d : DDLDetector) : DDLDetector × List ChangeEvent :=
  -- The first check looks back five minutes.
  let checkTime := if d.lastDDLCheckTime.isZero then
    { env.now with unixSec := env.now.unixSec - 300 } else d.lastDDLCheckTime
  match env.modifiedAfter checkTime with
  | none => ({ d with lastDDLCheckTime := env.now }, [])
  | some rows =>
    let result := detectRows database env 0 d.tables rows
    -- A check that was stopped does not move the time.
    ({ tables := result.1
       lastDDLCheckTime := if result.2.2 then env.now else d.lastDDLCheckTime }, result.2.1)

lemma exists_of_mem_detectRows {database : Bytes} {env : DetectEnv} {n : ℕ}
    {tables : Option Tables} {rows : List (Option ModifiedObject)} {ev : ChangeEvent}
    (hev : ev ∈ (detectRows database env n tables rows).2.1) :
    ∃ object readerPosition freshInfo,
      ev = detectedDDLEvent database env object readerPosition freshInfo := by
  induction rows generalizing n tables with
  | nil => exact absurd hev not_mem_nil
  | cons row rows ih =>
    rcases row with _ | object
    · exact ih hev
    · rw [detectRows] at hev
      split at hev
      · rename_i readerPosition freshInfo _ _
        split_ifs at hev
        · rcases mem_cons.mp hev with rfl | hev
          · exact ⟨object, readerPosition, freshInfo, rfl⟩
          · exact ih hev
        · exact absurd hev not_mem_nil
      · exact ih hev

/-- Every event is a DDL event with a comment for the statement. -/
theorem metadata_of_mem_detectDDLChanges {database : Bytes} {env : DetectEnv} {d : DDLDetector}
    {ev : ChangeEvent} (hev : ev ∈ (detectDDLChanges database env d).2) :
    ev.type = .ddl ∧ ∃ object : ModifiedObject, ev.metadata =
      [(lit "ddl", lit "-- " ++ captureInstance object ++ lit " detected via sys.objects"),
        (lit "ddlType", lit "alter_table")] := by
  rw [detectDDLChanges] at hev
  split at hev
  · exact absurd hev not_mem_nil
  · obtain ⟨object, readerPosition, freshInfo, rfl⟩ := exists_of_mem_detectRows hev
    exact ⟨rfl, object, rfl⟩

end DataStream.Source.SqlServer
