import DataStream.Foundations.Time

/-!
# Untyped values and maps

The dynamic values that an `interface{}` carries through `encoding/json`, and Go maps with
string keys. Encoding keeps the kind of a value only as far as JSON has it: every number comes
back as a `float64`, and byte slices and times come back as strings.
-/

namespace DataStream

open Bytes Json

/-- A dynamic Go value. -/
inductive GoValue where
  | nil
  | bool (b : Bool)
  | int (i : Int64)
  | uint (u : UInt64)
  /-- A finite `float64`, as a literal that names it. -/
  | float (literal : Bytes)
  /-- A `float64` that is infinite or not a number. -/
  | nonFinite
  | string (s : Bytes)
  | bytes (s : Bytes)
  | time (t : Time)
  | list (items : List GoValue)
  /-- A map, as its entries in key order. -/
  | map (entries : List (Bytes × GoValue))

/-- The entries of a Go map with string keys, in key order. -/
abbrev GoMap (α : Type) := List (Bytes × α)

namespace GoMap

variable {α : Type}

def insert (m : GoMap α) (key : Bytes) (value : α) : GoMap α :=
  match m with
  | [] => [(key, value)]
  | (k, v) :: rest =>
    if key = k then (key, value) :: rest
    else if key < k then (key, value) :: (k, v) :: rest
    else (k, v) :: insert rest key value

/-- The value of a key. -/
def get? (m : GoMap α) (key : Bytes) : Option α := (m.find? fun entry => entry.1 = key).map Prod.snd

def toJson (encode : α → Option Json) (m : GoMap α) : Option Json :=
  (m.mapM fun (key, value) => (encode value).map fun j => (quote key, j)).map .obj

/-- Decode the members of an object into a map; every value is decoded from `zero`. -/
def decodeEntries (zero : α) (decode : Decoder α) (m : GoMap α)
    (members : List (Bytes × Json)) : Option (GoMap α) :=
  members.foldlM (fun m (raw, j) => do
    let key ← unquote raw
    let value ← decode zero j
    return m.insert key value) m

/-- Decode a map; `none` inside is the nil map. -/
def decode (zero : α) (decode : Decoder α) : Decoder (Option (GoMap α))
  | _, .null => some none
  | prev, .obj members => (decodeEntries zero decode (prev.getD []) members).map some
  | _, _ => none

end GoMap

/-- Whether a number literal is beyond the range of a `float64`, where `strconv.ParseFloat`
reports an error: its value is at least halfway from the largest finite one to the next. -/
def floatOverflows (literal : Bytes) : Bool :=
  let s := if literal.head? = some 0x2D then literal.tail else literal
  let intPart := s.takeWhile isDigit
  let afterInt := s.dropWhile isDigit
  let fracPart := if afterInt.head? = some 0x2E then afterInt.tail.takeWhile isDigit else []
  let afterFrac := if afterInt.head? = some 0x2E then afterInt.tail.dropWhile isDigit else afterInt
  let exponent : ℤ := match afterFrac.tail with
    | 0x2D :: digits => -(natValue digits : ℤ)
    | 0x2B :: digits => natValue digits
    | digits => natValue digits
  let mantissa := natValue (intPart ++ fracPart)
  let scale : ℤ := exponent - fracPart.length
  let limit := 2 ^ 1024 - 2 ^ 970
  -- The order of magnitude decides without large powers, except near the limit.
  if mantissa = 0 then false
  else
    let magnitude : ℤ := (formatNat mantissa).length + scale
    if magnitude < 308 then false
    else if 310 < magnitude then true
    else if 0 ≤ scale then limit ≤ mantissa * 10 ^ scale.toNat
    else limit * 10 ^ (-scale).toNat ≤ mantissa

namespace GoValue

mutual

/-- The JSON form of a dynamic value; `none` is an encoding error. -/
def toJson : GoValue → Option Json
  | .nil => some .null
  | .bool b => some (.bool b)
  | .int i => some (jsonInt i.toInt)
  | .uint u => some (jsonInt u.toNat)
  | .float literal => some (.num literal)
  | .nonFinite => none
  | .string s => some (jsonString s)
  | .bytes s => some (jsonBytes s)
  | .time t => t.toJson
  | .list items => (toJsonItems items).map .arr
  | .map entries => (toJsonEntries entries).map .obj

def toJsonItems : List GoValue → Option (List Json)
  | [] => some []
  | item :: items => do return (← toJson item) :: (← toJsonItems items)

def toJsonEntries : List (Bytes × GoValue) → Option (List (Bytes × Json))
  | [] => some []
  | (key, value) :: entries => do
      return (quote key, ← toJson value) :: (← toJsonEntries entries)

end

mutual

def ofJson : Json → Option GoValue
  | .null => some .nil
  | .bool b => some (.bool b)
  | .num literal => if floatOverflows literal then none else some (.float literal)
  | .str raw => (unquote raw).map .string
  | .arr items => (ofJsonItems items).map .list
  | .obj members => (ofJsonMembers [] members).map .map

def ofJsonItems : List Json → Option (List GoValue)
  | [] => some []
  | item :: items => do return (← ofJson item) :: (← ofJsonItems items)

def ofJsonMembers (m : GoMap GoValue) : List (Bytes × Json) → Option (GoMap GoValue)
  | [] => some m
  | (raw, value) :: members => do
      let key ← unquote raw
      let v ← ofJson value
      ofJsonMembers (GoMap.insert m key v) members

end

lemma isSome_toJsonEntries (entries : List (Bytes × GoValue)) :
    (toJsonEntries entries).isSome ↔ ∀ entry ∈ entries, (toJson entry.2).isSome := by
  induction entries with
  | nil => simp [toJsonEntries]
  | cons entry entries ih =>
    obtain ⟨key, value⟩ := entry
    rw [List.forall_mem_cons, ← ih, toJsonEntries]
    rcases toJson value with _ | j <;> rcases toJsonEntries entries with _ | js <;> simp

def decode : Decoder GoValue := fun _ j => ofJson j

end GoValue

end DataStream
