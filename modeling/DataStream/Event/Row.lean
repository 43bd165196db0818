import DataStream.Event.ChangeEvent

/-!
# Rows and their keys

The methods of `event.RowData`, `event.TableInfo` and `event.ChangeEvent` that the sinks use.
`RowData.ColumnNames` ranges over a Go map, so the order of the names is whatever the runtime
chooses on each call; it is a parameter here.
-/

namespace DataStream

/-! ## Equality of dynamic values -/

namespace GoValue

mutual

def beq : GoValue → GoValue → Bool
  | .nil, .nil => true
  | .bool a, .bool b => a == b
  | .int a, .int b => a == b
  | .uint a, .uint b => a == b
  | .float a, .float b => a == b
  | .nonFinite, .nonFinite => true
  | .string a, .string b => a == b
  | .bytes a, .bytes b => a == b
  | .time a, .time b => a == b
  | .list a, .list b => beqItems a b
  | .map a, .map b => beqEntries a b
  | _, _ => false

/-- Whether two lists of dynamic values are the same. -/
def beqItems : List GoValue → List GoValue → Bool
  | [], [] => true
  | a :: as, b :: bs => a.beq b && beqItems as bs
  | _, _ => false

def beqEntries : List (Bytes × GoValue) → List (Bytes × GoValue) → Bool
  | [], [] => true
  | (k, a) :: as, (l, b) :: bs => k == l && a.beq b && beqEntries as bs
  | _, _ => false

end

mutual

theorem beq_iff : ∀ a b : GoValue, a.beq b = true ↔ a = b
  | .nil, b => by cases b <;> simp [beq]
  | .bool a, b => by cases b <;> simp [beq]
  | .int a, b => by cases b <;> simp [beq]
  | .uint a, b => by cases b <;> simp [beq]
  | .float a, b => by cases b <;> simp [beq]
  | .nonFinite, b => by cases b <;> simp [beq]
  | .string a, b => by cases b <;> simp [beq]
  | .bytes a, b => by cases b <;> simp [beq]
  | .time a, b => by cases b <;> simp [beq]
  | .list a, b => by cases b <;> simp [beq, beqItems_iff a]
  | .map a, b => by cases b <;> simp [beq, beqEntries_iff a]

theorem beqItems_iff : ∀ as bs : List GoValue, beqItems as bs = true ↔ as = bs
  | [], bs => by cases bs <;> simp [beqItems]
  | a :: as, bs => by cases bs <;> simp [beqItems, beq_iff a, beqItems_iff as]

theorem beqEntries_iff : ∀ as bs : List (Bytes × GoValue), beqEntries as bs = true ↔ as = bs
  | [], bs => by cases bs <;> simp [beqEntries]
  | (k, a) :: as, bs => by
      rcases bs with _ | ⟨⟨l, b⟩, bs⟩ <;> simp [beqEntries, beq_iff a, beqEntries_iff as]

end

instance : DecidableEq GoValue := fun a b => decidable_of_iff _ (beq_iff a b)

end GoValue

namespace Event

namespace RowData

variable (r : RowData)

/-- The entries of a row; the nil map has none. -/
def entries : GoMap RowField := r.fields.getD []

/-- `RowData.GetField`; `none` is the second result being false. -/
def getField (name : Bytes) : Option RowField := r.entries.get? name

def get (name : Bytes) : Option GoValue := (r.getField name).map RowField.value

def isEmpty : Bool := r.entries.isEmpty

/-- `RowData.ColumnNames`, with the iteration order of the map. -/
def columnNames (order : List Bytes → List Bytes) : List Bytes := order (r.entries.map Prod.fst)

end RowData

/-- The iteration order of a map visits every key once. -/
def IsOrder (order : List Bytes → List Bytes) : Prop := ∀ names, (order names).Perm names

namespace TableInfo

variable (t : TableInfo)

def hasPrimaryKey : Bool := !t.primaryKeyColumns.isEmpty

def hasUniqueKey : Bool := !t.uniqueKeyColumns.isEmpty

def getKeyColumns : List Bytes :=
  if t.hasPrimaryKey then t.primaryKeyColumns else t.uniqueKeyColumns

end TableInfo

def ChangeEvent.isDataEvent (e : ChangeEvent) : Bool :=
  e.type = .insert || e.type = .update || e.type = .delete

end Event

end DataStream
