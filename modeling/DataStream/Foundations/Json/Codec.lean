import DataStream.Foundations.Json.Value
import DataStream.Foundations.Base64

/-!
# Typed JSON

How `encoding/json` maps Go values to JSON values and back. Encoders are functions into `Json`.
A decoder updates a previous value, since a JSON `null` leaves the target as it is and a struct
is decoded member by member into the same target; `none` is a decoding error. `encoding/json`
goes on after a type mismatch and reports it at the end, so the result is an error either way.

A repeated key decodes a slice or a map afresh; `encoding/json` reuses the elements of the
earlier value, which is visible only in texts that no encoder of this development writes.

* `decodeString_jsonString`, `decodeInt_jsonInt`, `decodeBytes_jsonBytes`, `decodeBool_bool`:
  decoding inverts encoding, up to the repair of strings;
* `decodeMembers_append` and `decodeMembers_member`: a struct is decoded member by member.
-/

namespace DataStream.Json

open Bytes List Option

/-! ## Encoders -/

/-- A Go string. -/
def jsonString (s : Bytes) : Json := .str (quote s)

/-- A Go integer. -/
def jsonInt (i : ℤ) : Json := .num (formatInt i)

/-- A non-nil byte slice. -/
def jsonBytes (s : Bytes) : Json := .str (Base64.encode s)

/-- A struct field under its JSON name. -/
def member (name : String) (value : Json) : List (Bytes × Json) := [(lit name, value)]

/-- A struct field tagged `omitempty`, left out when it is `empty`. -/
def memberOmitEmpty (name : String) (empty : Bool) (value : Json) : List (Bytes × Json) :=
  if empty then [] else member name value

def marshal (j : Json) : Bytes := j.print

/-! ## Decoders -/

/-- A decoder into a previous value. -/
abbrev Decoder (α : Type) := α → Json → Option α

/-- Decode a Go string. -/
def decodeString : Decoder Bytes
  | prev, .null => some prev
  | _, .str raw => unquote raw
  | _, _ => none

/-- The value of a number literal that `strconv.ParseInt` accepts. -/
def literalInt (literal : Bytes) : Option ℤ :=
  match literal with
  | 0x2D :: digits => if digits.all isDigit then some (-(natValue digits : ℤ)) else none
  | digits => if digits.all isDigit then some (natValue digits) else none

/-- Decode an integer of a Go type with the given range. An unsigned type takes no minus sign. -/
def decodeInt (lo hi : ℤ) : Decoder ℤ
  | prev, .null => some prev
  | _, .num literal =>
    if lo = 0 ∧ literal.head? = some 0x2D then none
    else
      match literalInt literal with
      | some i => if lo ≤ i ∧ i ≤ hi then some i else none
      | none => none
  | _, _ => none

/-- Decode a Go `int64`, or a Go `int` on a 64-bit platform. -/
def decodeInt64 : Decoder Int64 := fun prev j =>
  (decodeInt (-2 ^ 63) (2 ^ 63 - 1) prev.toInt j).map Int64.ofInt

/-- Decode a Go `uint64`. -/
def decodeUInt64 : Decoder UInt64 := fun prev j =>
  (decodeInt 0 (2 ^ 64 - 1) prev.toNat j).map fun i => UInt64.ofNat i.toNat

/-- Decode a Go `uint32`. -/
def decodeUInt32 : Decoder UInt32 := fun prev j =>
  (decodeInt 0 (2 ^ 32 - 1) prev.toNat j).map fun i => UInt32.ofNat i.toNat

/-- Decode a Go bool. -/
def decodeBool : Decoder Bool
  | prev, .null => some prev
  | _, .bool b => some b
  | _, _ => none

/-- Decode the elements of a JSON array into a slice of bytes. -/
def decodeByteItems (items : List Json) : Option Bytes :=
  items.mapM fun item => (decodeInt 0 255 0 item).map fun i => UInt8.ofNat i.toNat

/-- Decode a byte slice: base64 text, or an array of numbers. -/
def decodeBytes : Decoder Bytes
  | _, .null => some []
  | _, .str raw => (unquote raw).bind Base64.decode
  | _, .arr items => decodeByteItems items
  | _, _ => none

/-- Decode a slice, element by element from zero values. -/
def decodeList {α : Type} (zero : α) (decode : Decoder α) : Decoder (List α)
  | _, .null => some []
  | _, .arr items => items.mapM (decode zero)
  | _, _ => none

/-- A field of a struct: its JSON name and how its value updates the struct. -/
structure Field (α : Type) where
  name : Bytes
  decode : Decoder α

/-- `foldName`, as far as a comparison with an ASCII name can see it: ASCII letters are raised,
and so are the two other runes that fold to ASCII letters, `U+017F` and `U+212A`. -/
def foldName : Bytes → Bytes
  | 0xC5 :: 0xBF :: rest => 0x53 :: foldName rest
  | 0xE2 :: 0x84 :: 0xAA :: rest => 0x4B :: foldName rest
  | b :: rest => (if 97 ≤ b ∧ b ≤ 122 then b - 32 else b) :: foldName rest
  | [] => []

/-- The field that a key names: exactly, or else up to case. -/
def findField {α : Type} (fields : List (Field α)) (key : Bytes) : Option (Field α) :=
  (fields.find? fun field => field.name = key) <|>
    fields.find? fun field => foldName field.name = foldName key

/-- Decode one member of an object into a struct; members with unknown keys are skipped. -/
def decodeMember {α : Type} (fields : List (Field α)) (prev : α) (m : Bytes × Json) : Option α :=
  match unquote m.1 with
  | none => none
  | some key =>
    match findField fields key with
    | none => some prev
    | some field => field.decode prev m.2

/-- Decode the members of an object into a struct, in order. -/
def decodeMembers {α : Type} (fields : List (Field α)) (prev : α) (ms : List (Bytes × Json)) :
    Option α :=
  ms.foldlM (decodeMember fields) prev

/-- Decode a struct. -/
def decodeStruct {α : Type} (fields : List (Field α)) : Decoder α
  | prev, .null => some prev
  | prev, .obj ms => decodeMembers fields prev ms
  | _, _ => none

/-- `json.Unmarshal` into a zero value. -/
def unmarshal {α : Type} (zero : α) (decode : Decoder α) (data : Bytes) : Option α :=
  (parse data).bind (decode zero)

/-! ## Decoding what was encoded -/

@[simp]
theorem decodeString_jsonString (prev s : Bytes) :
    decodeString prev (jsonString s) = some (Utf8.toValid s) := unquote_quote s

@[simp]
theorem decodeBool_bool (prev b : Bool) : decodeBool prev (.bool b) = some b := rfl

variable (i : ℤ) (s : Bytes)

lemma literalInt_formatInt : literalInt (formatInt i) = some i := by
  have hall : ∀ n, (formatNat n).all isDigit = true := fun n => by
    simpa using all_isDigit_formatNat n
  cases i with
  | ofNat n =>
    obtain ⟨b, rest, heq, -⟩ := formatNat_head n
    have hdigit : isDigit b = true := all_isDigit_formatNat n b (by simp [heq])
    have hminus : b ≠ 0x2D := by
      rintro rfl
      exact absurd hdigit (by decide)
    have hdigits := hall n
    have hvalue := natValue_formatNat n
    rw [heq] at hdigits hvalue
    rw [formatInt, heq, literalInt]
    · simp only [hdigits, hvalue, if_true, Int.ofNat_eq_natCast]
    · rintro digits h
      exact hminus (by simpa using congrArg List.head? h)
  | negSucc n =>
    simp only [formatInt, literalInt, hall, natValue_formatNat, if_true, some.injEq]
    omega

theorem decodeInt_jsonInt {lo hi i : ℤ} (hlo : lo ≤ i) (hhi : i ≤ hi) (prev : ℤ) :
    decodeInt lo hi prev (jsonInt i) = some i := by
  have hsign : ¬ (lo = 0 ∧ (formatInt i).head? = some 0x2D) := by
    rintro ⟨rfl, hhead⟩
    obtain ⟨n, rfl⟩ := Int.eq_ofNat_of_zero_le hlo
    obtain ⟨b, rest, heq, -⟩ := formatNat_head n
    have hdigit : isDigit b = true := all_isDigit_formatNat n b (by simp [heq])
    change (formatNat n).head? = _ at hhead
    obtain rfl : b = 0x2D := by simpa [heq] using hhead
    exact absurd hdigit (by decide)
  simp only [decodeInt, jsonInt, hsign, if_false, literalInt_formatInt, hlo, hhi, and_self, if_true]

@[simp]
lemma decodeInt64_jsonInt (prev i : Int64) : decodeInt64 prev (jsonInt i.toInt) = some i := by
  have hlo := i.le_toInt
  have hhi := i.toInt_lt
  rw [decodeInt64, decodeInt_jsonInt hlo (by omega), map_some, Int64.ofInt_toInt]

@[simp]
lemma decodeUInt64_jsonInt (prev i : UInt64) : decodeUInt64 prev (jsonInt i.toNat) = some i := by
  have hhi := i.toNat_lt
  rw [decodeUInt64, decodeInt_jsonInt (by omega) (by omega), map_some, Int.toNat_natCast,
    UInt64.ofNat_toNat]

@[simp]
lemma decodeUInt32_jsonInt (prev i : UInt32) : decodeUInt32 prev (jsonInt i.toNat) = some i := by
  have hhi := i.toNat_lt
  rw [decodeUInt32, decodeInt_jsonInt (by omega) (by omega), map_some, Int.toNat_natCast,
    UInt32.ofNat_toNat]

/-- Text without quotes, backslashes, control characters or bytes outside ASCII is read as it
is. -/
lemma unquote_of_plain {s : Bytes}
    (h : ∀ b ∈ s, 0x20 ≤ b.toNat ∧ b.toNat < 0x80 ∧ b ≠ 0x22 ∧ b ≠ 0x5C) : unquote s = some s := by
  suffices ∀ fuel, s.length ≤ fuel → unquoteGo fuel s = some s from this _ (le_refl _)
  induction s with
  | nil => intro fuel _; cases fuel <;> rfl
  | cons b rest ih =>
    intro fuel hfuel
    simp only [length_cons] at hfuel
    obtain ⟨f, rfl⟩ : ∃ f, fuel = f + 1 := ⟨fuel - 1, by omega⟩
    obtain ⟨hlow, hascii, hquote, hslash⟩ := h b (by simp)
    have ih := ih (fun c hc => h c (by simp [hc])) f (by omega)
    have hstep : unquoteStep (b :: rest) = some ([b], rest) := by
      simp [unquoteStep, hquote, show ¬ b.toNat < 0x20 by omega, Utf8.runeLen_ascii hascii]
    simp [unquoteGo, hstep, ih]

private lemma plain_base64 : ∀ b ∈ Base64.encode s,
    0x20 ≤ b.toNat ∧ b.toNat < 0x80 ∧ b ≠ 0x22 ∧ b ≠ 0x5C := by
  intro b hb
  obtain ⟨hlo, hhi, -, -, hslash⟩ := Base64.encode_ascii s b hb
  refine ⟨by omega, by omega, ?_, hslash⟩
  rintro rfl
  simp at hlo

@[simp]
theorem decodeBytes_jsonBytes (prev s : Bytes) : decodeBytes prev (jsonBytes s) = some s := by
  simp [decodeBytes, jsonBytes, unquote_of_plain (plain_base64 s), Base64.decode_encode]

/-! ## Decoding structs -/

section Structs

variable {α : Type} {fields : List (Field α)}

theorem decodeMembers_append (prev : α) (ms ns : List (Bytes × Json)) :
    decodeMembers fields prev (ms ++ ns) =
      (decodeMembers fields prev ms).bind fun next => decodeMembers fields next ns := by
  simp [decodeMembers, foldlM_append]

variable {name : String} {field : Field α} (hname : unquote (lit name) = some (lit name))
include hname

/-- A member under the name of a field updates the struct as the field does. -/
theorem decodeMembers_member (hfield : findField fields (lit name) = some field) (prev : α)
    (value : Json) :
    decodeMembers fields prev (member name value) = field.decode prev value := by
  simp only [decodeMembers, member, foldlM_cons, foldlM_nil, decodeMember, hname, hfield]
  cases field.decode prev value <;> rfl

variable {value : Json}

section Set

variable {β : Type} {get : α → β} {set : α → β → α} {decode : Decoder β} {x : β}
  (hfield : findField fields (lit name) =
    some ⟨lit name, fun a j => (decode (get a) j).map (set a)⟩)
  (hdecode : ∀ y, decode y value = some x) (prev : α) (ns : List (Bytes × Json))
include hfield hdecode

/-- A field whose own decoder accepts the value is set, and then the members after it are
decoded. -/
lemma decodeMembers_set : decodeMembers fields prev (member name value ++ ns) =
    decodeMembers fields (set prev x) ns := by
  rw [decodeMembers_append, decodeMembers_member hname hfield]
  simp only [hdecode, map_some, bind_some]

/-- A field that is left out when empty is set too, if the target already holds the empty value. -/
lemma decodeMembers_setOmitEmpty {empty : Bool} (hempty : empty = true → set prev x = prev) :
    decodeMembers fields prev (memberOmitEmpty name empty value ++ ns) =
      decodeMembers fields (set prev x) ns := by
  cases empty with
  | true => rw [hempty rfl]; rfl
  | false => exact decodeMembers_set hname hfield hdecode prev ns

end Set

/-- Every member is accepted, whatever the struct holds. -/
def Decodes (fields : List (Field α)) (ms : List (Bytes × Json)) : Prop :=
  ∀ m ∈ ms, ∀ prev, (decodeMember fields prev m).isSome

omit hname in
lemma Decodes.append {ms ns : List (Bytes × Json)} (hms : Decodes fields ms)
    (hns : Decodes fields ns) : Decodes fields (ms ++ ns) := fun m hm =>
  (mem_append.mp hm).elim (hms m) (hns m)

lemma decodes_member (hfield : findField fields (lit name) = some field)
    (hdecode : ∀ prev, (field.decode prev value).isSome) : Decodes fields (member name value) := by
  intro m hm prev
  obtain rfl := mem_singleton.mp hm
  simpa only [decodeMember, hname, hfield] using hdecode prev

lemma decodes_memberOmitEmpty {empty : Bool} (hfield : findField fields (lit name) = some field)
    (hdecode : ∀ prev, (field.decode prev value).isSome) :
    Decodes fields (memberOmitEmpty name empty value) := by
  rw [memberOmitEmpty]
  split
  · exact fun m hm => absurd hm not_mem_nil
  · exact decodes_member hname hfield hdecode

omit hname in
lemma isSome_decodeMembers {ms : List (Bytes × Json)} (h : Decodes fields ms) (prev : α) :
    (decodeMembers fields prev ms).isSome := by
  induction ms generalizing prev with
  | nil => rfl
  | cons m ms ih =>
    obtain ⟨next, hnext⟩ := isSome_iff_exists.mp (h m mem_cons_self prev)
    rw [decodeMembers, foldlM_cons, hnext]
    exact ih (fun m hm => h m (mem_cons_of_mem _ hm)) next

end Structs

/-! ## Well-formedness of encoded values -/

@[simp]
lemma ok_jsonString : (jsonString s).Ok := strOk_quote s

@[simp]
lemma ok_jsonInt : (jsonInt i).Ok := numOk_formatInt i

@[simp]
lemma ok_bool (b : Bool) : (bool b).Ok := trivial

@[simp]
lemma ok_jsonBytes : (jsonBytes s).Ok :=
  strOk_of_forall fun b hb =>
    have h := plain_base64 s b hb
    ⟨h.2.2.1, h.2.2.2, h.1⟩

lemma okMembers_append {ms ns : List (Bytes × Json)} :
    OkMembers (ms ++ ns) ↔ OkMembers ms ∧ OkMembers ns := by
  induction ms with
  | nil => simp [OkMembers]
  | cons m ms ih => simp [OkMembers, ih, and_assoc]

lemma nestingMembers_append (ms ns : List (Bytes × Json)) :
    nestingMembers (ms ++ ns) = max (nestingMembers ms) (nestingMembers ns) := by
  induction ms with
  | nil => simp [nestingMembers]
  | cons m ms ih => simp [nestingMembers, ih, max_assoc]

variable {name : String} {value : Json} {β : Type}

lemma okMembers_member (hname : StrOk (lit name)) (h : value.Ok) :
    OkMembers (member name value) := ⟨hname, h, trivial⟩

lemma okMembers_memberOmitEmpty {empty : Bool} (hname : StrOk (lit name)) (h : value.Ok) :
    OkMembers (memberOmitEmpty name empty value) := by
  unfold memberOmitEmpty
  split
  · trivial
  · exact okMembers_member hname h

@[simp]
lemma nestingMembers_member (name : String) (value : Json) :
    nestingMembers (member name value) = value.nesting := by
  simp [member, nestingMembers]

@[simp]
lemma nesting_jsonString : (jsonString s).nesting = 0 := (rfl)

@[simp]
lemma nesting_jsonInt : (jsonInt i).nesting = 0 := (rfl)

@[simp]
lemma nesting_jsonBytes : (jsonBytes s).nesting = 0 := (rfl)

@[simp]
lemma nesting_bool (b : Bool) : (Json.bool b).nesting = 0 := (rfl)

lemma nestingMembers_memberOmitEmpty_le (name : String) (empty : Bool) (value : Json) :
    nestingMembers (memberOmitEmpty name empty value) ≤ value.nesting := by
  unfold memberOmitEmpty
  split
  · simp [nestingMembers]
  · simp

lemma nestingMembers_memberOmitEmpty {empty : Bool} (h : value.nesting = 0) :
    nestingMembers (memberOmitEmpty name empty value) = 0 := by
  have hle := nestingMembers_memberOmitEmpty_le name empty value
  rw [h] at hle
  exact Nat.le_zero.mp hle

variable {toJson : β → Json}

lemma okItems_map {xs : List β} (h : ∀ x ∈ xs, (toJson x).Ok) : OkItems (xs.map toJson) := by
  induction xs with
  | nil => trivial
  | cons x xs ih => exact ⟨h x (by simp), ih fun y hy => h y (by simp [hy])⟩

lemma nestingItems_map_le {xs : List β} {n : ℕ} (h : ∀ x ∈ xs, (toJson x).nesting ≤ n) :
    nestingItems (xs.map toJson) ≤ n := by
  induction xs with
  | nil => exact Nat.zero_le n
  | cons x xs ih => exact max_le (h x (by simp)) (ih fun y hy => h y (by simp [hy]))

lemma decodeList_map {zero : β} {decode : Decoder β} {f : β → β} (prev : List β) (xs : List β)
    (h : ∀ x, decode zero (toJson x) = some (f x)) :
    decodeList zero decode prev (.arr (xs.map toJson)) = some (xs.map f) := by
  rw [decodeList]
  induction xs with
  | nil => rfl
  | cons x xs ih => simp [mapM_cons, h, ih]

lemma unmarshal_marshal {α : Type} {zero : α} {decode : Decoder α} {j : Json} (hok : j.Ok)
    (hdepth : j.nesting ≤ maxNestingDepth) :
    unmarshal zero decode (marshal j) = decode zero j := by
  simp [unmarshal, marshal, parse_print hok hdepth]

end DataStream.Json
