import DataStream.Event.Row

/-!
# Dispatching events to workers

`sink.HashDispatcher` spreads the events of a table over workers by a hash of the row key, so that
"events for the same row always go to the same worker". The key is taken from one image of the
event: the `After` image, or the `Before` image when there is no `After`. An update that changes
the key of a row is therefore sent to the worker of the new key, while the earlier events of the
row went to the worker of the old one.

* `sameWorker_iff`: when two events go to the same worker.
-/

namespace DataStream.Sink

open Bytes Event List Option Function TableInfo

/-! ## The text of a value -/

/-- The texts of `fmt` for values whose text depends on more than this model keeps: floating-point
numbers and times. Nothing is assumed about them. -/
structure Formatter where
  float : Bytes → Bytes
  /-- An infinite `float64` or one that is not a number. -/
  nonFinite : Bytes
  time : Time → Bytes

mutual

/-- `fmt.Sprintf("%v", value)`. -/
def Formatter.value (f : Formatter) : GoValue → Bytes
  | .nil => lit "<nil>"
  | .bool b => if b then lit "true" else lit "false"
  | .int i => formatInt i.toInt
  | .uint u => formatNat u.toNat
  | .float literal => f.float literal
  | .nonFinite => f.nonFinite
  | .string s => s
  | .bytes s => lit "[" ++ (lit " ").intercalate (s.map fun b => formatNat b.toNat) ++ lit "]"
  | .time t => f.time t
  | .list items => lit "[" ++ (lit " ").intercalate (f.items items) ++ lit "]"
  | .map entries => lit "map[" ++ (lit " ").intercalate (f.entries entries) ++ lit "]"

def Formatter.items (f : Formatter) : List GoValue → List Bytes
  | [] => []
  | item :: items => f.value item :: f.items items

/-- The texts of the entries of a map, in key order. -/
def Formatter.entries (f : Formatter) : List (Bytes × GoValue) → List Bytes
  | [] => []
  | (key, value) :: entries => (key ++ lit ":" ++ f.value value) :: f.entries entries

end

/-! ## Row identifiers -/

inductive RowKeyType where
  | primaryKey
  | uniqueIndex
  | fullRow
  deriving DecidableEq, Repr

structure RowIdentifier where
  schema : Bytes
  database : Bytes
  table : Bytes
  primaryKeyValues : Bytes
  keyType : RowKeyType
  deriving DecidableEq, Repr

variable (f : Formatter) (e : ChangeEvent) (schema : TableInfo)

/-- `extractKeyValues`: the text of the key columns of a row; a missing column reads as nil. -/
def extractKeyValues (row : RowData) (columns : List Bytes) : Bytes :=
  (lit ",").intercalate (columns.map fun col => col ++ lit "=" ++ f.value ((row.get col).getD .nil))

/-- `extractFullRow`: the text of all fields, sorted by name, which is the order of the entries. -/
def extractFullRow (row : RowData) : Bytes := extractKeyValues f row (row.entries.map Prod.fst)

/-- The image of an event that identifies its row. -/
def routingImage : RowData := if e.after.isEmpty then e.before else e.after

def buildRowIdentifier : RowIdentifier :=
  let row := routingImage e
  let rid : RowIdentifier :=
    { schema := schema.schema
      database := schema.database
      table := schema.table
      primaryKeyValues := extractFullRow f row
      keyType := .fullRow }
  if schema.hasPrimaryKey then
    { rid with
      primaryKeyValues := extractKeyValues f row schema.primaryKeyColumns
      keyType := .primaryKey }
  else if schema.hasUniqueKey then
    { rid with
      primaryKeyValues := extractKeyValues f row schema.uniqueKeyColumns
      keyType := .uniqueIndex }
  else rid

def RowIdentifier.hashKey (r : RowIdentifier) : Bytes :=
  r.schema ++ lit "." ++ r.database ++ lit "." ++ r.table ++ lit ":" ++ r.primaryKeyValues

/-! ## The dispatcher -/

/-- `fnv32`: the 32-bit FNV-1a hash. -/
def fnv32 (key : Bytes) : UInt32 := key.foldl (fun h b => (h ^^^ b.toUInt32) * 16777619) 2166136261

/-- The strategies for tables without a key. -/
inductive NoPKTableStrategy where
  | single
  /-- Any other name counts as this one. -/
  | table
  deriving DecidableEq, Repr

/-- `HashDispatcher`, with the configuration that `NewHashDispatcher` has completed. -/
structure HashDispatcher where
  workerCount : ℕ
  noPKTableStrategy : NoPKTableStrategy
  /-- The workers of the tables without a key seen so far. -/
  tableWorkerMap : Bytes → Option ℕ
  pos : 0 < workerCount
  bounded : ∀ key id, tableWorkerMap key = some id → id < workerCount

variable (d : HashDispatcher) (workerCount : Int64)

/-- The number of workers that `NewHashDispatcher` makes of the configured one. -/
def normalizedWorkerCount : ℕ :=
  if workerCount ≤ 0 then 4 else workerCount.toInt.toNat

lemma normalizedWorkerCount_pos : 0 < normalizedWorkerCount workerCount := by
  rw [normalizedWorkerCount]
  split
  · norm_num
  · next h =>
    rw [Int64.le_iff_toInt_le] at h
    simp at h
    omega

def newHashDispatcher (strategy : NoPKTableStrategy) : HashDispatcher where
  workerCount := normalizedWorkerCount workerCount
  noPKTableStrategy := strategy
  tableWorkerMap _ := none
  pos := normalizedWorkerCount_pos workerCount
  bounded _ _ h := by cases h

def HashDispatcher.store (tableKey : Bytes) (workerID : ℕ) (h : workerID < d.workerCount) :
    HashDispatcher where
  workerCount := d.workerCount
  noPKTableStrategy := d.noPKTableStrategy
  tableWorkerMap := update d.tableWorkerMap tableKey (some workerID)
  pos := d.pos
  bounded key id hid := by
    by_cases hkey : key = tableKey
    · rw [hkey, update_self, some.injEq] at hid
      exact hid ▸ h
    · rw [update_of_ne hkey] at hid
      exact d.bounded key id hid

/-- `calculateWorkerID`: the worker of an event, and the dispatcher that remembers it. -/
def HashDispatcher.calculateWorkerID : ℕ × HashDispatcher :=
  let rid := buildRowIdentifier f e schema
  match rid.keyType with
  | .primaryKey | .uniqueIndex => ((fnv32 rid.hashKey).toNat % d.workerCount, d)
  | .fullRow =>
    match d.noPKTableStrategy with
    | .single => (0, d)
    | .table =>
      let tableKey := schema.schema ++ lit "." ++ schema.database ++ lit "." ++ schema.table
      match d.tableWorkerMap tableKey with
      | some id => (id, d)
      | none =>
        let workerID := (fnv32 tableKey).toNat % d.workerCount
        (workerID, d.store tableKey workerID (Nat.mod_lt _ d.pos))

/-- The worker of an event exists, and the number of workers does not change. -/
lemma HashDispatcher.calculateWorkerID_spec :
    (d.calculateWorkerID f e schema).1 < d.workerCount ∧
      (d.calculateWorkerID f e schema).2.workerCount = d.workerCount := by
  unfold calculateWorkerID
  dsimp only
  split
  · exact ⟨Nat.mod_lt _ d.pos, rfl⟩
  · exact ⟨Nat.mod_lt _ d.pos, rfl⟩
  · split
    · exact ⟨d.pos, rfl⟩
    · split
      · next id hid => exact ⟨d.bounded _ _ hid, rfl⟩
      · exact ⟨Nat.mod_lt _ d.pos, rfl⟩

/-! ## Events of one row -/

section Routing

variable (f : Formatter) (schema : TableInfo)

/-- The table has a primary key or a unique key. -/
def HasKeyColumns : Prop := schema.hasPrimaryKey = true ∨ schema.hasUniqueKey = true

/-- The key values of an image that has all key columns. -/
def imageKey (row : RowData) : Option (List GoValue) := schema.getKeyColumns.mapM row.get

/-- A key occurs in the `Before` or the `After` image of an event. -/
def HasKey (e : ChangeEvent) (key : List GoValue) : Prop :=
  imageKey schema e.before = some key ∨ imageKey schema e.after = some key

variable (e₁ e₂ : ChangeEvent)

/-- Two events concern a common row. -/
def SharesRow : Prop := ∃ key, HasKey schema e₁ key ∧ HasKey schema e₂ key

/-- Two events go to the same worker, whatever the number of workers and whatever was dispatched
before. -/
def SameWorker : Prop :=
  ∀ d : HashDispatcher, (d.calculateWorkerID f e₁ schema).1 = (d.calculateWorkerID f e₂ schema).1

/-- The key text of the image that routes an event. -/
def routingKey (e : ChangeEvent) : Bytes := extractKeyValues f (routingImage e) schema.getKeyColumns

/-- The text that is hashed for a key text. -/
def hashText (keyText : Bytes) : Bytes :=
  schema.schema ++ lit "." ++ schema.database ++ lit "." ++ schema.table ++ lit ":" ++ keyText

/-- The images that route two events have the same key text, or texts that collide under the
hash. -/
def RoutedAlike : Prop :=
  routingKey f schema e₁ = routingKey f schema e₂ ∨
    fnv32 (hashText schema (routingKey f schema e₁)) =
      fnv32 (hashText schema (routingKey f schema e₂))

variable {f schema}

lemma calculateWorkerID_of_key (hkey : HasKeyColumns schema) (d : HashDispatcher)
    (e : ChangeEvent) :
    (d.calculateWorkerID f e schema).1 =
      (fnv32 (hashText schema (routingKey f schema e))).toNat % d.workerCount := by
  by_cases hpk : schema.hasPrimaryKey = true
  · have hrid : buildRowIdentifier f e schema =
        ⟨schema.schema, schema.database, schema.table, routingKey f schema e, .primaryKey⟩ := by
      simp [buildRowIdentifier, routingKey, getKeyColumns, hpk]
    rw [HashDispatcher.calculateWorkerID, hrid]
    rfl
  · have huk : schema.hasUniqueKey = true := hkey.resolve_left hpk
    have hrid : buildRowIdentifier f e schema =
        ⟨schema.schema, schema.database, schema.table, routingKey f schema e, .uniqueIndex⟩ := by
      simp [buildRowIdentifier, routingKey, getKeyColumns, hpk, huk]
    rw [HashDispatcher.calculateWorkerID, hrid]
    rfl

/-- **Where two events go, exactly.** For a table with a primary or unique key, two events go to the
same worker, for every number of workers, if and only if the images that route them have the same
key text, or two texts that collide under the 32-bit hash. -/
theorem sameWorker_iff (f : Formatter) (schema : TableInfo) (hkey : HasKeyColumns schema)
    (e₁ e₂ : ChangeEvent) : SameWorker f schema e₁ e₂ ↔ RoutedAlike f schema e₁ e₂ := by
  constructor
  · -- With as many workers as there are hashes, a worker has one hash only.
    intro hsame
    have hall := hsame
      { workerCount := 2 ^ 32, noPKTableStrategy := .table, tableWorkerMap := fun _ => none
        pos := by norm_num, bounded := fun _ _ h => by cases h }
    rw [calculateWorkerID_of_key hkey, calculateWorkerID_of_key hkey,
      Nat.mod_eq_of_lt (UInt32.toNat_lt _), Nat.mod_eq_of_lt (UInt32.toNat_lt _)] at hall
    exact .inr (UInt32.toNat_inj.mp hall)
  · intro halike d
    rw [calculateWorkerID_of_key hkey, calculateWorkerID_of_key hkey]
    rcases halike with htext | hhash
    · rw [htext]
    · rw [hhash]

/-! ## Events that keep the key of their row -/

/-- An event does not change the key of its row: two images that are both there have the same
key. -/
def KeyStable (schema : TableInfo) (e : ChangeEvent) : Prop :=
  e.before.isEmpty = false → e.after.isEmpty = false →
    imageKey schema e.before = imageKey schema e.after

lemma isEmpty_of_imageKey (hkey : HasKeyColumns schema) {row : RowData} {key : List GoValue}
    (h : imageKey schema row = some key) : row.isEmpty = false := by
  have hcolumns : schema.getKeyColumns ≠ [] := by
    unfold getKeyColumns
    unfold HasKeyColumns hasPrimaryKey hasUniqueKey at hkey
    split <;> simp_all [hasPrimaryKey]
  obtain ⟨col, cols, hcols⟩ := exists_cons_of_ne_nil hcolumns
  by_contra hempty
  have hentries : row.entries = [] := by simpa [RowData.isEmpty] using hempty
  have hget : row.get col = none := by
    rw [RowData.get, RowData.getField, hentries]
    rfl
  rw [imageKey, hcols, mapM_cons, hget] at h
  cases h

lemma imageKey_routingImage (hkey : HasKeyColumns schema) {e : ChangeEvent}
    {key : List GoValue} (hstable : KeyStable schema e) (h : HasKey schema e key) :
    imageKey schema (routingImage e) = some key := by
  rw [routingImage]
  cases hafter : e.after.isEmpty with
  | true =>
    refine h.resolve_right fun hkeyAfter => ?_
    rw [isEmpty_of_imageKey hkey hkeyAfter] at hafter
    cases hafter
  | false =>
    rcases h with hbefore | hkeyAfter
    · exact (hstable (isEmpty_of_imageKey hkey hbefore) hafter).symm.trans hbefore
    · exact hkeyAfter

lemma eq_of_mapM_eq {α β : Type} {g₁ g₂ : α → Option β} {xs : List α} {ys : List β}
    (h₁ : xs.mapM g₁ = some ys) (h₂ : xs.mapM g₂ = some ys) : ∀ x ∈ xs, g₁ x = g₂ x := by
  induction xs generalizing ys with
  | nil => simp
  | cons x xs ih =>
    simp only [mapM_cons, bind_eq_bind, bind_eq_some_iff, Option.pure_def, some.injEq] at h₁ h₂
    obtain ⟨y, hy, rest, hrest, rfl⟩ := h₁
    obtain ⟨y', hy', rest', hrest', heq⟩ := h₂
    obtain ⟨rfl, rfl⟩ := List.cons.inj heq
    exact forall_mem_cons.mpr ⟨hy.trans hy'.symm, ih hrest hrest'⟩

/-- Two events that share a key and do not change it are routed by the same text. -/
theorem routedAlike_of_keyStable (f : Formatter) (hkey : HasKeyColumns schema)
    {e₁ e₂ : ChangeEvent} (h₁ : KeyStable schema e₁) (h₂ : KeyStable schema e₂)
    (hshares : SharesRow schema e₁ e₂) : RoutedAlike f schema e₁ e₂ := by
  obtain ⟨key, hkey₁, hkey₂⟩ := hshares
  have hsame := eq_of_mapM_eq (imageKey_routingImage hkey h₁ hkey₁)
    (imageKey_routingImage hkey h₂ hkey₂)
  left
  rw [routingKey, routingKey, extractKeyValues, extractKeyValues]
  refine congrArg _ (map_congr_left fun col hcol => ?_)
  rw [hsame col hcol]

end Routing

/-! ## A table of users -/

/-- The table `users` of the database `shop`, with the primary key `id`. -/
def usersTable : TableInfo :=
  { zero with
    database := lit "shop", table := lit "users", primaryKeyColumns := [lit "id"] }

def userRow (id : Int64) (name : Bytes) : RowData :=
  { fields := some [(lit "id", { RowField.zero with name := lit "id", value := .int id }),
      (lit "name", { RowField.zero with name := lit "name", value := .string name })] }

def userInsert (id : Int64) (name : Bytes) : ChangeEvent :=
  { ChangeEvent.zero with type := .insert, table := usersTable, after := userRow id name }

/-- The update of a user, with or without a new key. -/
def userUpdate (id : Int64) (name : Bytes) (id' : Int64) (name' : Bytes) : ChangeEvent :=
  { ChangeEvent.zero with
    type := .update, table := usersTable, before := userRow id name, after := userRow id' name' }

/-- A formatter for rows without floating-point numbers and times. -/
def plainFormatter : Formatter := { float := id, nonFinite := lit "NaN", time := fun _ => [] }

/-- An insert and a change of name of one user go to the same worker. -/
theorem sameWorker_rename :
    SameWorker plainFormatter usersTable (userInsert 1 (lit "ann"))
      (userUpdate 1 (lit "ann") 1 (lit "eve")) := by
  have hkey : HasKeyColumns usersTable := .inl rfl
  refine (sameWorker_iff plainFormatter usersTable hkey _ _).mpr
    (routedAlike_of_keyStable plainFormatter hkey ?_ ?_ ?_)
  · intro hbefore
    cases hbefore
  · exact fun _ _ => rfl
  · exact ⟨[.int 1], .inr rfl, .inr rfl⟩

/-- An insert of a user and an update that gives the user another key part, with two workers. -/
theorem not_forall_sameWorker :
    ¬ ∃ f : Formatter, ∀ (schema : TableInfo), HasKeyColumns schema →
      ∀ e₁ e₂ : ChangeEvent, e₁.isDataEvent = true → e₂.isDataEvent = true →
        SharesRow schema e₁ e₂ → SameWorker f schema e₁ e₂ := by
  rintro ⟨f, h⟩
  have hsame := h usersTable (.inl rfl) (userInsert 1 (lit "ann"))
    (userUpdate 1 (lit "ann") 2 (lit "ann")) rfl rfl ⟨[.int 1], .inr rfl, .inl rfl⟩
    (newHashDispatcher 2 .table)
  rw [calculateWorkerID_of_key (.inl rfl), calculateWorkerID_of_key (.inl rfl)] at hsame
  -- The texts hold no value whose formatting is open.
  have h₁ : routingKey f usersTable (userInsert 1 (lit "ann")) = lit "id=1" := rfl
  have h₂ : routingKey f usersTable (userUpdate 1 (lit "ann") 2 (lit "ann")) = lit "id=2" := rfl
  rw [h₁, h₂] at hsame
  exact absurd hsame (by decide)

end DataStream.Sink
