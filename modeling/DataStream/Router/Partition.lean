import DataStream.Sink.HashDispatcher

/-!
# Routing events to partitions

`router.PartitionRouter` picks the partition of an event by a hash. The strategy `pk` takes the key
of the row from the `After` image, which a delete does not have.

* `together_iff`: which events of a row go to one partition.
-/

namespace DataStream.Router

open Bytes Event Sink List Option

inductive PartitionStrategy where
  | table
  | pk
  | field
  | random
  | other

structure PartitionRouter where
  strategy : PartitionStrategy
  partitionCount : Int64
  partitionKey : List Bytes

/-- The values of the columns that a row has, each followed by a bar. -/
def keyText (f : Formatter) (row : RowData) (columns : List Bytes) : Bytes :=
  columns.flatMap fun col => ((row.get col).map fun value => f.value value ++ lit "|").getD []

/-- The conversion `uint32(n)`. -/
def uint32 (n : Int64) : UInt32 := n.toUInt64.toUInt32

/-- The partition of a key; `none` is the panic of a division by zero. -/
def hashed (count : Int64) (key : Bytes) : Option Bytes :=
  if uint32 count = 0 then none else some (formatNat (fnv32 key % uint32 count).toNat)

/-- `PartitionRouter.Route`, with what the generator draws; `none` is a panic. -/
def PartitionRouter.route (pr : PartitionRouter) (f : Formatter) (draw : ℕ) (e : ChangeEvent) :
    Option Bytes :=
  match pr.strategy with
  | .table => hashed pr.partitionCount (e.table.database ++ lit "." ++ e.table.table)
  | .pk => hashed pr.partitionCount (keyText f e.after e.table.primaryKeyColumns)
  | .field => hashed pr.partitionCount (keyText f e.after pr.partitionKey)
  | .random =>
    if pr.partitionCount ≤ 0 then none
    else some (formatNat (draw % pr.partitionCount.toInt.toNat))
  | .other => hashed pr.partitionCount []

/-- An insert, update or delete of the row with a key, which the event does not change. -/
def OfRow (key : List GoValue) (e : ChangeEvent) : Prop :=
  match e.type with
  | .insert => imageKey e.table e.after = some key
  | .update => imageKey e.table e.before = some key ∧ imageKey e.table e.after = some key
  | .delete => imageKey e.table e.before = some key ∧ e.after.isEmpty
  | _ => False

/-- All events of a list have the same partition, and none of them makes `Route` panic. -/
def Together (pr : PartitionRouter) (f : Formatter) (events : List ChangeEvent) : Prop :=
  ∃ partition, ∀ e ∈ events, ∀ draw, pr.route f draw e = some partition

/-- The text that is hashed for the key of a row. -/
def rowText (f : Formatter) (key : List GoValue) : Bytes :=
  key.flatMap fun value => f.value value ++ lit "|"

section Texts

variable {f : Formatter} {row : RowData} {columns : List Bytes} {key : List GoValue}

lemma keyText_of_mapM (h : columns.mapM row.get = some key) :
    keyText f row columns = rowText f key := by
  induction columns generalizing key with
  | nil =>
    obtain rfl := some.inj h
    rfl
  | cons col columns ih =>
    simp only [mapM_cons, bind_eq_bind, bind_eq_some_iff, Option.pure_def, some.injEq] at h
    obtain ⟨value, hvalue, rest, hrest, rfl⟩ := h
    have htail := ih hrest
    simp only [keyText, rowText, flatMap_cons] at htail ⊢
    rw [htail, hvalue]
    rfl

lemma keyText_of_isEmpty (h : row.isEmpty = true) : keyText f row columns = [] := by
  refine flatMap_eq_nil_iff.mpr fun col _ => ?_
  have hentries : row.entries = [] := isEmpty_iff.mp h
  simp [RowData.get, RowData.getField, hentries, GoMap.get?]

/-- A delete of a row is hashed as the empty text, every other event by the key of the row. -/
lemma keyText_of_ofRow {e : ChangeEvent} (htable : e.table.hasPrimaryKey = true)
    (h : OfRow key e) : keyText f e.after e.table.primaryKeyColumns =
      if e.type = .delete then [] else rowText f key := by
  have hcolumns : e.table.getKeyColumns = e.table.primaryKeyColumns := if_pos htable
  unfold OfRow imageKey at h
  rw [hcolumns] at h
  split at h
  · next htype => simpa [htype] using keyText_of_mapM h
  · next htype => simpa [htype] using keyText_of_mapM h.2
  · next htype => simpa [htype] using keyText_of_isEmpty h.2
  · exact h.elim

end Texts

lemma hashed_eq_some_iff {count : Int64} {text partition : Bytes} :
    hashed count text = some partition ↔
      uint32 count ≠ 0 ∧ formatNat (fnv32 text % uint32 count).toNat = partition := by
  unfold hashed
  split_ifs with hzero <;> simp [hzero]

/-- **When a row stays in its partition.** Some events of a row that do not change its key go to one
partition if and only if the count is not zero as 32 bits, and all of them are deletes, or none is,
or the hashes of the key and of the empty text agree modulo the count. -/
theorem together_iff (f : Formatter) (count : Int64) (columns : List Bytes) {table : TableInfo}
    (htable : table.hasPrimaryKey = true) {key : List GoValue} {events : List ChangeEvent}
    (hne : events ≠ []) (hevents : ∀ e ∈ events, e.table = table ∧ OfRow key e) :
    Together ⟨.pk, count, columns⟩ f events ↔
      uint32 count ≠ 0 ∧ ((∀ e ∈ events, e.type = .delete) ∨ (∀ e ∈ events, e.type ≠ .delete) ∨
        fnv32 (rowText f key) % uint32 count = fnv32 [] % uint32 count) := by
  have hroute : ∀ e ∈ events, ∀ draw, PartitionRouter.route ⟨.pk, count, columns⟩ f draw e =
      hashed count (if e.type = .delete then [] else rowText f key) := by
    intro e he draw
    obtain ⟨rfl, hrow⟩ := hevents e he
    exact congrArg (hashed count) (keyText_of_ofRow htable hrow)
  constructor
  · rintro ⟨partition, hall⟩
    have hhash := fun e he => hashed_eq_some_iff.mp ((hroute e he 0).symm.trans (hall e he 0))
    obtain ⟨e, he⟩ := exists_mem_of_ne_nil events hne
    refine ⟨(hhash e he).1, ?_⟩
    by_cases hdeletes : ∀ e ∈ events, e.type = .delete
    · exact .inl hdeletes
    by_cases hothers : ∀ e ∈ events, e.type ≠ .delete
    · exact .inr (.inl hothers)
    -- A delete and another event, so both texts are hashed.
    push Not at hdeletes hothers
    obtain ⟨e₁, he₁, htype₁⟩ := hdeletes
    obtain ⟨e₂, he₂, htype₂⟩ := hothers
    have h₁ := (hhash e₁ he₁).2
    have h₂ := (hhash e₂ he₂).2
    rw [if_neg htype₁] at h₁
    rw [if_pos htype₂] at h₂
    exact .inr (.inr (UInt32.toNat_inj.mp (by simpa using congrArg natValue (h₁.trans h₂.symm))))
  · rintro ⟨hcount, hsame⟩
    obtain ⟨text, htext⟩ : ∃ text, ∀ e ∈ events,
        fnv32 (if e.type = .delete then [] else rowText f key) % uint32 count =
          fnv32 text % uint32 count := by
      rcases hsame with hdeletes | hothers | hagree
      · exact ⟨[], fun e he => by rw [if_pos (hdeletes e he)]⟩
      · exact ⟨rowText f key, fun e he => by rw [if_neg (hothers e he)]⟩
      · refine ⟨[], fun e _ => ?_⟩
        split_ifs
        · rfl
        · exact hagree
    refine ⟨formatNat (fnv32 text % uint32 count).toNat, fun e he draw => ?_⟩
    rw [hroute e he, hashed_eq_some_iff, htext e he]
    exact ⟨hcount, rfl⟩

/-- The delete of a user. -/
def userDelete (id : Int64) : ChangeEvent :=
  { ChangeEvent.zero with type := .delete, table := usersTable, before := userRow id [] }

/-- With two partitions, the insert of a user and a change of name go to the same one. -/
theorem together_iff_insertUpdate :
    Together ⟨.pk, 2, []⟩ plainFormatter
      [userInsert 1 (lit "ann"), userUpdate 1 (lit "ann") 1 (lit "eve")] := by
  have hevents : ∀ e ∈ [userInsert 1 (lit "ann"), userUpdate 1 (lit "ann") 1 (lit "eve")],
      e.table = usersTable ∧ OfRow [.int 1] e := by
    simp only [forall_mem_cons, not_mem_nil, false_imp_iff, implies_true, and_true]
    exact ⟨⟨rfl, rfl⟩, rfl, rfl, rfl⟩
  exact (together_iff plainFormatter 2 [] rfl (by decide) hevents).mpr
    ⟨by decide, .inr (.inl (by decide))⟩

/-- With two partitions, the insert and the delete of a user part. -/
theorem insert_delete_part :
    OfRow [.int 1] (userInsert 1 []) ∧ OfRow [.int 1] (userDelete 1) ∧
      PartitionRouter.route ⟨.pk, 2, []⟩ plainFormatter 0 (userInsert 1 []) ≠
        PartitionRouter.route ⟨.pk, 2, []⟩ plainFormatter 0 (userDelete 1) :=
  ⟨rfl, ⟨rfl, rfl⟩, by decide⟩

end DataStream.Router
