import DataStream.Event.TableInfo
import DataStream.Source.TableLifecycle

/-!
# The tasks of a snapshot

`SnapshotCoordinator` splits a table with an integer key into chunks. The loop that does it counts
with the 64-bit integers of the keys. When the start of the chunk after the last one is beyond the
largest of them, the loop does not end there but goes on from the other end of the integers.

* `partitions_iff`: when the loop ends with a partition of the key range.
-/

namespace DataStream.Source

open Event List Option Int64

/-- `SnapshotConcurrencyConfig`, as far as `Validate` reads it. -/
structure SnapshotConcurrencyConfig where
  maxTableThreads : Int64
  maxChunkThreads : Int64
  batchSize : Int64
  chunkSize : Int64

/-- `Validate`, with the text of the error. -/
def SnapshotConcurrencyConfig.validate (c : SnapshotConcurrencyConfig) : Option Bytes :=
  if c.maxTableThreads < 1 ∨ c.maxTableThreads > 16 then
    some (lit "max-table-threads must be between 1 and 16")
  else if c.maxChunkThreads < 1 ∨ c.maxChunkThreads > 8 then
    some (lit "max-chunk-threads must be between 1 and 8")
  else if c.batchSize < 100 ∨ c.batchSize > 10000 then
    some (lit "batch-size must be between 100 and 10000")
  else if c.chunkSize < 1000 then some (lit "chunk-size must be at least 1000")
  else none

/-- `ChunkRange` of integer keys. -/
structure ChunkRange where
  startKey : Int64
  endKey : Int64

structure SnapshotTask where
  tableID : TableID
  schema : TableInfo
  chunkID : ℕ
  chunkRange : Option ChunkRange
  priority : ℕ

/-- The answer of `GetKeyRange`. -/
inductive KeyRange
  /-- An error, or keys of another type. -/
  | unknown
  /-- Two `int` or two `int64` keys. -/
  | numeric (min max : Int64)

namespace SnapshotCoordinator

/-- The loop of `generateTableTasks` from a start on, if it ends within a number of rounds. -/
def chunkTasks (id : TableID) (table : TableInfo) (chunkSize max : Int64) :
    ℕ → ℕ → Int64 → Option (List SnapshotTask)
  | 0, _, _ => none
  | rounds + 1, chunkID, start =>
    if start ≤ max then
      let last := start + chunkSize - 1
      let last := if last > max then max else last
      (chunkTasks id table chunkSize max rounds (chunkID + 1) (start + chunkSize)).map
        (⟨id, table, chunkID, some ⟨start, last⟩, chunkID⟩ :: ·)
    else some []

/-- `generateTableTasks`, if it ends within a number of rounds. -/
def generateTableTasks (c : SnapshotConcurrencyConfig) (table : TableInfo) (keys : KeyRange)
    (rounds : ℕ) : Option (List SnapshotTask) :=
  let id : TableID := ⟨table.database, table.schema, table.table⟩
  match keys with
  | .unknown => some [⟨id, table, 0, none, 0⟩]
  | .numeric min max => chunkTasks id table c.chunkSize max rounds 0 min

abbrev ranges (tasks : List SnapshotTask) : List ChunkRange := tasks.filterMap (·.chunkRange)

/-- Every task has a range. The ranges are not empty, follow one another, are at most the chunk size
long and cover exactly the integers from `min` to `max`. -/
structure Partitions (size min max : ℤ) (tasks : List SnapshotTask) : Prop where
  ranged : ∀ t ∈ tasks, t.chunkRange.isSome
  nonempty : ∀ r ∈ ranges tasks, r.startKey ≤ r.endKey
  increasing : (ranges tasks).Pairwise fun r r' => r.endKey < r'.startKey
  short : ∀ r ∈ ranges tasks, r.endKey.toInt - r.startKey.toInt + 1 ≤ size
  covers : ∀ key : ℤ, (∃ r ∈ ranges tasks, r.startKey.toInt ≤ key ∧ key ≤ r.endKey.toInt) ↔
    min ≤ key ∧ key ≤ max

variable {id : TableID} {table : TableInfo} {size max : Int64}

lemma toInt_next (start : Int64) (hsize : 0 < size.toInt) :
    start.toInt + size.toInt < 2 ^ 63 ∧ (start + size).toInt = start.toInt + size.toInt ∧
        (start + size - 1).toInt = start.toInt + size.toInt - 1 ∨
      2 ^ 63 ≤ start.toInt + size.toInt ∧ (start + size).toInt < start.toInt := by
  have hstart' := start.le_toInt
  have hsize' := size.toInt_lt
  have hone : (1 : Int64).toInt = 1 := rfl
  rw [toInt_sub, toInt_add, hone, Int.bmod_def, Int.bmod_def]
  omega

/-- The start after the last chunk of a key range. -/
def startAfterLast (size min max : ℤ) : ℤ := max - (max - min) % size + size

lemma startAfterLast_next (size start max : ℤ) :
    startAfterLast size (start + size) max = startAfterLast size start max := by
  rw [startAfterLast, startAfterLast, ← sub_sub, Int.sub_emod_right]

lemma startAfterLast_last {size start max : ℤ} (hle : start ≤ max) (hlt : max < start + size) :
    startAfterLast size start max = start + size := by
  rw [startAfterLast, Int.emod_eq_of_lt (by omega) (by omega)]
  omega

lemma le_startAfterLast {size start max : ℤ} (hsize : 0 < size) (hle : start ≤ max) :
    start + size ≤ startAfterLast size start max := by
  have hchunks := Int.mul_nonneg hsize.le (Int.ediv_nonneg (sub_nonneg.mpr hle) hsize.le)
  rw [startAfterLast, Int.emod_def]
  omega

lemma exists_partitions (hsize : 0 < size.toInt) (chunkID : ℕ) (start : Int64)
    (hfits : startAfterLast size.toInt start.toInt max.toInt < 2 ^ 63) :
    ∃ rounds tasks, chunkTasks id table size max rounds chunkID start = some tasks ∧
      Partitions size.toInt start.toInt max.toInt tasks := by
  by_cases hle : start ≤ max
  · have hle' := le_iff_toInt_le.mp hle
    obtain ⟨-, hnext, hlast⟩ | ⟨hover, -⟩ := toInt_next start hsize
    · obtain ⟨rounds, tasks, htasks, hparts⟩ := exists_partitions hsize (chunkID + 1) (start + size)
        (by rwa [hnext, startAfterLast_next])
      refine ⟨rounds + 1, _, by simp only [chunkTasks, hle, htasks]; rfl, ?_⟩
      set last := if start + size - 1 > max then max else start + size - 1 with hdef
      have hend : last.toInt = max.toInt ∧ max.toInt < start.toInt + size.toInt ∨
          last.toInt = start.toInt + size.toInt - 1 ∧ last.toInt ≤ max.toInt := by
        rw [hdef]
        split_ifs with hlt
        · have hlt' := lt_iff_toInt_lt.mp hlt
          omega
        · have hle'' := Int64.le_iff_toInt_le.mp (Int64.not_lt.mp hlt)
          omega
      refine ⟨forall_mem_cons.mpr ⟨rfl, hparts.ranged⟩, forall_mem_cons.mpr ⟨?_, hparts.nonempty⟩,
        pairwise_cons.mpr ⟨fun r hr => ?_, hparts.increasing⟩,
        forall_mem_cons.mpr ⟨?_, hparts.short⟩, fun key => ?_⟩
      · exact le_iff_toInt_le.mpr (show start.toInt ≤ last.toInt by omega)
      · -- The other ranges begin with the next chunk or after it.
        have hbeyond := ((hparts.covers _).mp ⟨r, hr, le_rfl,
          le_iff_toInt_le.mp (hparts.nonempty r hr)⟩).1
        exact lt_iff_toInt_lt.mpr (show last.toInt < r.startKey.toInt by omega)
      · show last.toInt - start.toInt + 1 ≤ size.toInt
        omega
      · rw [ranges, filterMap_cons]
        simp only [exists_mem_cons_iff, hparts.covers]
        omega
    · have := le_startAfterLast hsize hle'
      omega
  · have hlt := Int64.lt_iff_toInt_lt.mp (Int64.not_le.mp hle)
    refine ⟨1, [], by simp [chunkTasks, hle], by simp, by simp, by simp, by simp, fun key => ?_⟩
    simp
    omega
termination_by (max.toInt + 1 - start.toInt).toNat
decreasing_by omega

lemma fits_of_chunkTasks (hsize : 0 < size.toInt) {rounds chunkID : ℕ} {start : Int64}
    (hle : start ≤ max) {tasks : List SnapshotTask}
    (htasks : chunkTasks id table size max rounds chunkID start = some tasks)
    (hnonempty : ∀ r ∈ ranges tasks, r.startKey ≤ r.endKey)
    (hincreasing : (ranges tasks).Pairwise fun r r' => r.endKey < r'.startKey) :
    startAfterLast size.toInt start.toInt max.toInt < 2 ^ 63 := by
  induction rounds generalizing chunkID start tasks with
  | zero => cases htasks
  | succ rounds ih =>
    simp only [chunkTasks, hle, if_true, map_eq_some_iff] at htasks
    obtain ⟨rest, hrest, rfl⟩ := htasks
    simp only [ranges, filterMap_cons, forall_mem_cons, pairwise_cons] at hnonempty hincreasing
    rw [le_iff_toInt_le] at hle
    by_cases hnext : start + size ≤ max
    · -- The next round has a task, and its range is beyond that of this one.
      have hmono : start < start + size := by
        cases rounds with
        | zero => cases hrest
        | succ rounds =>
          simp only [chunkTasks, hnext, if_true, map_eq_some_iff] at hrest
          obtain ⟨rest, -, rfl⟩ := hrest
          simp only [filterMap_cons, forall_mem_cons] at hincreasing
          exact Int64.lt_of_le_of_lt hnonempty.1 hincreasing.1.1
      have hih := ih hnext hrest hnonempty.2 hincreasing.2
      rw [lt_iff_toInt_lt] at hmono
      obtain ⟨-, hadd, -⟩ | ⟨-, hover⟩ := toInt_next start hsize
      · rwa [hadd, startAfterLast_next] at hih
      · omega
    · rw [le_iff_toInt_le] at hnext
      obtain ⟨hfits, hadd, -⟩ | ⟨-, hover⟩ := toInt_next start hsize
      · rwa [startAfterLast_last hle (by omega)]
      · omega

variable (c : SnapshotConcurrencyConfig) (table : TableInfo) (min max : Int64)

/-- `generateTableTasks` ends, and its tasks partition the key range. -/
def Chunked : Prop :=
  ∃ rounds tasks, generateTableTasks c table (.numeric min max) rounds = some tasks ∧
    Partitions c.chunkSize.toInt min.toInt max.toInt tasks

lemma chunked_iff (hsize : 0 < c.chunkSize.toInt) (hle : min ≤ max) :
    Chunked c table min max ↔ startAfterLast c.chunkSize.toInt min.toInt max.toInt < 2 ^ 63 :=
  ⟨fun ⟨_, _, htasks, h⟩ => fits_of_chunkTasks hsize hle htasks h.nonempty h.increasing,
    exists_partitions hsize 0 min⟩

/-- The tasks of a table partition its key range exactly if the start after the last chunk is a
64-bit integer. -/
theorem partitions_iff (hvalid : c.validate = none) (hle : min ≤ max) :
    Chunked c table min max ↔
      max.toInt - (max.toInt - min.toInt) % c.chunkSize.toInt + c.chunkSize.toInt < 2 ^ 63 := by
  refine chunked_iff c table min max ?_ hle
  unfold SnapshotConcurrencyConfig.validate at hvalid
  split_ifs at hvalid with _ _ _ hsize
  have hsize' := Int64.le_iff_toInt_le.mp (Int64.not_lt.mp hsize)
  exact lt_of_lt_of_le (by decide) hsize'

def defaultConfig : SnapshotConcurrencyConfig := ⟨4, 4, 1000, 10000⟩

theorem partitions_default : Chunked defaultConfig TableInfo.zero 1 25000 :=
  (partitions_iff _ _ _ _ (by decide) (by decide)).mpr (by decide)

/-- The largest key is a chunk of its own, and the loop goes on from the smallest one. -/
theorem not_chunked : ¬ Chunked defaultConfig TableInfo.zero maxValue maxValue := by
  rw [chunked_iff _ _ _ _ (by decide) (by decide)]
  decide

end SnapshotCoordinator

end DataStream.Source
