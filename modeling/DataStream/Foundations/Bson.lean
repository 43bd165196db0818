import DataStream.Foundations.GoMap
import DataStream.Foundations.Text

/-!
# BSON documents and collections

The values of BSON, and what inserts, replacements, updates with `$set` and deletes do to a
collection. Documents are maps: the order of their fields is not kept. The types that BSON has
deprecated (undefined, DBPointer, symbol, code with scope) are left out.

A name in `$set` is a path: dots separate its segments, and the documents on the way are created
where they are missing. Paths into arrays are left open. The field `_id` cannot be changed.

* `setAll_eq_insertAll`: plain names are set as they are;
* `setAll_eq_self_iff`: when setting all fields of a document over another one leaves the document;
* `updateOne_of_ne`: an update changes the document of its filter only.
-/

namespace DataStream

open Bytes List Option Function

/-- An object id: twelve bytes. -/
structure ObjectID where
  bytes : Bytes
  length_eq : bytes.length = 12
  deriving DecidableEq

/-- The BSON values without parts. -/
inductive Scalar where
  | double (bits : UInt64)
  | string (s : Bytes)
  | binary (subtype : UInt8) (data : Bytes)
  | objectID (id : ObjectID)
  | bool (b : Bool)
  /-- Milliseconds since the epoch. -/
  | dateTime (ms : Int64)
  | null
  | regex (pattern options : Bytes)
  | javaScript (code : Bytes)
  | int32 (i : Int32)
  | timestamp (t i : UInt32)
  | int64 (i : Int64)
  | decimal128 (high low : UInt64)
  | minKey
  | maxKey
  deriving DecidableEq

/-- A BSON value. -/
inductive Bson where
  | scalar (s : Scalar)
  /-- An embedded document, as its fields in the order of their names. -/
  | document (fields : List (Bytes × Bson))
  | array (items : List Bson)

namespace Bson

/-! ## Equality -/

mutual

def beq : Bson → Bson → Bool
  | .scalar a, .scalar b => a == b
  | .document a, .document b => beqFields a b
  | .array a, .array b => beqItems a b
  | _, _ => false

def beqItems : List Bson → List Bson → Bool
  | [], [] => true
  | a :: as, b :: bs => a.beq b && beqItems as bs
  | _, _ => false

def beqFields : List (Bytes × Bson) → List (Bytes × Bson) → Bool
  | [], [] => true
  | (k, a) :: as, (l, b) :: bs => k == l && a.beq b && beqFields as bs
  | _, _ => false

end

mutual

theorem beq_iff : ∀ a b : Bson, a.beq b = true ↔ a = b
  | .scalar a, b => by rcases b <;> simp [beq]
  | .document a, b => by rcases b <;> simp [beq, beqFields_iff a]
  | .array a, b => by rcases b <;> simp [beq, beqItems_iff a]

theorem beqItems_iff : ∀ as bs : List Bson, beqItems as bs = true ↔ as = bs
  | [], bs => by rcases bs <;> simp [beqItems]
  | a :: as, bs => by rcases bs <;> simp [beqItems, beq_iff a, beqItems_iff as]

theorem beqFields_iff : ∀ as bs : List (Bytes × Bson), beqFields as bs = true ↔ as = bs
  | [], bs => by rcases bs <;> simp [beqFields]
  | (k, a) :: as, bs => by
      rcases bs with _ | ⟨⟨l, b⟩, bs⟩ <;> simp [beqFields, beq_iff a, beqFields_iff as]

end

instance : DecidableEq Bson := fun a b => decidable_of_iff _ (beq_iff a b)

/-! ## Documents -/

/-- A document, as its fields in the order of their names. -/
abbrev Document := GoMap Bson

def idField : Bytes := lit "_id"

/-- What a path into an array does; nothing is assumed about it. -/
abbrev ArrayPath := List Bson → List Bytes → Bson → Option (List Bson)

variable (arrays : ArrayPath) (d : Document) (name : Bytes)

def segments : List Bytes := Text.split (lit ".") name

/-- A segment that no path may have: empty, or with a dollar sign in front. -/
def BadSegment (segment : Bytes) : Prop := segment = [] ∨ segment.head? = some 0x24
  deriving Decidable

/-- A name that is a path of one segment. -/
def PlainName : Prop := ¬ lit "." <:+: name ∧ ¬ BadSegment name

/-- Set the value at a path; `none` is an error. -/
def setPath (arrays : ArrayPath) : List Bytes → Bson → Document → Option Document
  | [], _, _ => none
  | [name], v, d => if BadSegment name then none else some (d.insert name v)
  | name :: rest, v, d =>
    if BadSegment name then none
    else
      match d.get? name with
      | none => (setPath arrays rest v []).map fun sub => d.insert name (.document sub)
      | some (.document sub) =>
        (setPath arrays rest v sub).map fun sub => d.insert name (.document sub)
      | some (.array items) => (arrays items rest v).map fun items => d.insert name (.array items)
      | some (.scalar _) => none

/-- Set a field by its name; the identity of a document cannot be changed. -/
def setField (v : Bson) : Option Document :=
  if (segments name).head? = some idField then
    if name = idField ∧ d.get? idField = some v then some (d.insert name v) else none
  else setPath arrays (segments name) v d

/-- Two different names of which one is a path through the other. -/
def Conflict (names : List Bytes) : Prop :=
  ∃ n ∈ names, ∃ n' ∈ names, n ≠ n' ∧ segments n <+: segments n'
  deriving Decidable

/-- `$set`; `none` is an error. -/
def setAll (fields : List (Bytes × Bson)) (d : Document) : Option Document :=
  if Conflict (fields.map Prod.fst) then none
  else fields.foldlM (fun d field => setField arrays d field.1 field.2) d

/-! ## Plain names -/

variable {name : Bytes} {d d' : Document} {id v : Bson} {fields : List (Bytes × Bson)}

lemma segments_of_no_dot (h : ¬ lit "." <:+: name) : segments name = [name] :=
  Text.split_eq_singleton h

lemma segments_of_mem {segment : Bytes} (h : segment ∈ segments name) :
    segments segment = [segment] := by
  refine segments_of_no_dot fun hinfix => Text.not_mem_of_mem_split (b := 0x2E) h ?_
  exact hinfix.subset mem_cons_self

lemma segments_of_infix (h : lit "." <:+: name) :
    ∃ first next rest, segments name = first :: next :: rest := by
  have hlength := Text.one_lt_length_split (by decide) h
  rcases hsplit : segments name with _ | ⟨first, _ | ⟨next, rest⟩⟩ <;> rw [segments] at hsplit
  · simp [hsplit] at hlength
  · simp [hsplit] at hlength
  · exact ⟨first, next, rest, rfl⟩

lemma not_conflict_of_plain {names : List Bytes} (h : ∀ n ∈ names, PlainName n) :
    ¬ Conflict names := by
  rintro ⟨n, hn, n', hn', hne, hstarts⟩
  rw [segments_of_no_dot (h n hn).1, segments_of_no_dot (h n' hn').1] at hstarts
  exact hne (cons_prefix_cons.mp hstarts).1

variable {arrays : ArrayPath}

lemma setField_of_plain (h : PlainName name) (hid : name ≠ idField) (v : Bson) (d : Document) :
    setField arrays d name v = some (d.insert name v) := by
  rw [setField, segments_of_no_dot h.1, head?_cons,
    if_neg fun heq => hid (some.inj heq), setPath, if_neg h.2]

lemma setField_idField (h : d.get? idField = some id) :
    setField arrays d idField id = some (d.insert idField id) := by
  have hplain : ¬ lit "." <:+: idField := by decide
  rw [setField, segments_of_no_dot hplain, head?_cons, if_pos rfl, if_pos ⟨rfl, h⟩]

lemma foldlM_setField (hplain : ∀ n ∈ fields.map Prod.fst, PlainName n)
    (hid : ∀ v, (idField, v) ∈ fields → d.get? idField = some v)
    (hnodup : (fields.map Prod.fst).Nodup) :
    fields.foldlM (fun d field => setField arrays d field.1 field.2) d =
      some (d.insertAll fields) := by
  induction fields generalizing d with
  | nil => rfl
  | cons field fields ih =>
    obtain ⟨name, v⟩ := field
    obtain ⟨hname, hnames⟩ := forall_mem_cons.mp hplain
    obtain ⟨hnot, hnodup⟩ := nodup_cons.mp hnodup
    have hfirst : setField arrays d name v = some (d.insert name v) := by
      by_cases hname' : name = idField
      · subst hname'
        exact setField_idField (hid v mem_cons_self)
      · exact setField_of_plain hname hname' v d
    rw [foldlM_cons, hfirst]
    refine ih hnames ?_ hnodup
    -- The id is among the other fields only if it was not the first one.
    intro w hw
    have hne : idField ≠ name := by
      rintro rfl
      exact hnot (List.mem_map.mpr ⟨_, hw, rfl⟩)
    rw [GoMap.get?_insert_of_ne _ hne]
    exact hid w (mem_cons_of_mem _ hw)

/-- Fields with plain names are set as they are, if the id stays the same. -/
theorem setAll_eq_insertAll {fields : Document} (hfields : fields.Ordered)
    (hplain : ∀ n ∈ fields.map Prod.fst, PlainName n) (hid : fields.get? idField = some id)
    (hid' : d.get? idField = some id) : setAll arrays fields d = some (d.insertAll fields) := by
  rw [setAll, if_neg (not_conflict_of_plain hplain)]
  refine foldlM_setField hplain ?_ hfields.nodup
  intro v hv
  rw [← (GoMap.get?_eq_some_iff hfields.nodup).mpr hv, hid, hid']

/-! ## Names that are paths -/

lemma setPath_eq_insert {rest : List Bytes} (h : setPath arrays (name :: rest) v d = some d') :
    ¬ BadSegment name ∧ ∃ w, d' = d.insert name w := by
  rcases rest with _ | ⟨next, rest⟩
  · rw [setPath] at h
    split_ifs at h with hbad
    exact ⟨hbad, v, (some.inj h).symm⟩
  · rw [setPath] at h
    · split_ifs at h with hbad
      refine ⟨hbad, ?_⟩
      split at h
      iterate 3
        obtain ⟨_, -, rfl⟩ := map_eq_some_iff.mp h
        exact ⟨_, rfl⟩
      · cases h
    · exact cons_ne_nil _ _

lemma setField_eq_insert (h : setField arrays d name v = some d') :
    ∃ first w, (segments name).head? = some first ∧ ¬ BadSegment first ∧ d' = d.insert first w ∧
      (first = idField → name = idField) := by
  rw [setField] at h
  split_ifs at h with hhead hid
  · obtain ⟨rfl, -⟩ := hid
    exact ⟨idField, v, hhead, by decide, (some.inj h).symm, fun _ => rfl⟩
  · rcases hsegments : segments name with _ | ⟨first, rest⟩
    · rw [hsegments, setPath] at h
      cases h
    · rw [hsegments] at h hhead
      obtain ⟨hbad, w, hd⟩ := setPath_eq_insert h
      exact ⟨first, w, rfl, hbad, hd, fun heq => absurd (heq ▸ rfl) hhead⟩

lemma get?_idField_of_setField (h : setField arrays d name v = some d') :
    d'.get? idField = d.get? idField ∧ (name = idField → d.get? idField = some v) := by
  by_cases hname : name = idField
  · subst hname
    have hplain : ¬ lit "." <:+: idField := by decide
    rw [setField, segments_of_no_dot hplain, head?_cons, if_pos rfl] at h
    split_ifs at h with hid
    rw [← some.inj h, GoMap.get?_insert_self, hid.2]
    exact ⟨rfl, fun _ => rfl⟩
  · obtain ⟨first, w, -, -, rfl, hfirst⟩ := setField_eq_insert h
    have hne : idField ≠ first := fun heq => hname (hfirst heq.symm)
    exact ⟨GoMap.get?_insert_of_ne _ hne _, fun heq => absurd heq hname⟩

lemma get?_idField_of_setAll (h : setAll arrays fields d = some d') (hv : (idField, v) ∈ fields) :
    d.get? idField = some v := by
  have hfold : ∀ (fields : List (Bytes × Bson)) (d : Document),
      fields.foldlM (fun d field => setField arrays d field.1 field.2) d = some d' →
        (idField, v) ∈ fields → d.get? idField = some v := by
    intro fields
    induction fields with
    | nil => exact fun d _ hv => absurd hv not_mem_nil
    | cons field fields ih =>
      intro d hd hv
      obtain ⟨d₁, hfirst, hrest⟩ := bind_eq_some_iff.mp hd
      obtain ⟨hsame, hid⟩ := get?_idField_of_setField hfirst
      rcases mem_cons.mp hv with rfl | hv
      · exact hid rfl
      · exact hsame ▸ ih d₁ hrest hv
  rw [setAll] at h
  split_ifs at h
  exact hfold fields d h hv

lemma mem_of_foldlM_setField
    (h : fields.foldlM (fun d field => setField arrays d field.1 field.2) d = some d') :
    (∀ k ∈ d.map Prod.fst, k ∈ d'.map Prod.fst) ∧
      ∀ n ∈ fields.map Prod.fst, ∃ first, (segments n).head? = some first ∧ ¬ BadSegment first ∧
        first ∈ d'.map Prod.fst := by
  induction fields generalizing d with
  | nil =>
    obtain rfl := some.inj h
    exact ⟨fun k hk => hk, fun n hn => absurd hn not_mem_nil⟩
  | cons field fields ih =>
    obtain ⟨d₁, hfirst, hrest⟩ := bind_eq_some_iff.mp h
    obtain ⟨first, w, hhead, hbad, rfl, -⟩ := setField_eq_insert hfirst
    obtain ⟨hkeys, hnames⟩ := ih hrest
    refine ⟨fun k hk => hkeys k (GoMap.mem_keys_insert.mpr (.inr hk)), ?_⟩
    intro n hn
    rcases mem_cons.mp hn with rfl | hn
    · exact ⟨first, hhead, hbad, hkeys first (GoMap.mem_keys_insert.mpr (.inl rfl))⟩
    · exact hnames n hn

/-- **Setting a whole document.** Setting all fields of a document over another one with the same
id leaves the document exactly if its names are plain and the other one has no further fields. -/
theorem setAll_eq_self_iff {doc : Document} (hdoc : doc.Ordered) (hd : d.Ordered)
    (hid : doc.get? idField = some id) (hid' : d.get? idField = some id) :
    setAll arrays doc d = some doc ↔
      (∀ n ∈ doc.map Prod.fst, PlainName n) ∧ d.map Prod.fst ⊆ doc.map Prod.fst := by
  constructor
  · intro h
    rw [setAll] at h
    split_ifs at h with hconflict
    obtain ⟨hkeys, hnames⟩ := mem_of_foldlM_setField h
    refine ⟨fun n hn => ?_, hkeys⟩
    obtain ⟨first, hhead, hbad, hmem⟩ := hnames n hn
    -- A name with a dot would meet the name of its first segment.
    have hdot : ¬ lit "." <:+: n := by
      intro hdot
      obtain ⟨first', next, rest, hsegments⟩ := segments_of_infix hdot
      obtain rfl : first' = first := by simpa [hsegments] using hhead
      have hone : segments first' = [first'] := segments_of_mem (hsegments ▸ mem_cons_self)
      refine hconflict ⟨first', hmem, n, hn, ?_, ?_⟩
      · rintro rfl
        simp [hsegments] at hone
      · rw [hone, hsegments]
        exact cons_prefix_cons.mpr ⟨rfl, nil_prefix⟩
    rw [segments_of_no_dot hdot] at hhead
    obtain rfl : n = first := by simpa using hhead
    exact ⟨hdot, hbad⟩
  · rintro ⟨hplain, hsubset⟩
    rw [setAll_eq_insertAll hdoc hplain hid hid']
    have hall := GoMap.insertAll_insertAll [] hsubset
    rw [hd.insertAll_nil, hdoc.insertAll_nil] at hall
    rw [hall]

/-! ## Collections -/

abbrev Collection := Bson → Option Document

namespace Collection

variable (c : Collection)

/-- Insert a document; the driver gives it the id `fresh` if it has none. -/
def insertOne (fresh : Bson) (doc : Document) : Option Collection :=
  let id := (doc.get? idField).getD fresh
  let doc := if doc.get? idField = none then doc.insert idField fresh else doc
  if c id = none then some (update c id (some doc)) else none

/-- Replace the document with an id, or insert it if there is none. The id stays. -/
def replaceOne (id : Bson) (doc : Document) : Option Collection :=
  match doc.get? idField with
  | none => some (update c id (some (doc.insert idField id)))
  | some id' => if id' = id then some (update c id (some doc)) else none

/-- Update the document with an id by `$set`; without one, an upsert starts from the id only. -/
def updateOne (arrays : ArrayPath) (id : Bson) (fields : List (Bytes × Bson)) (upsert : Bool) :
    Option Collection :=
  match c id with
  | some d => (setAll arrays fields d).map fun d => update c id (some d)
  | none =>
    if upsert then
      (setAll arrays fields [(idField, id)]).map fun d => update c id (some d)
    else some c

def deleteOne (id : Bson) : Collection := update c id none

variable {c} {arrays : ArrayPath} {id : Bson} {fields : List (Bytes × Bson)} {upsert : Bool}

/-- An update changes the document with its id only. -/
theorem updateOne_of_ne {c' : Collection} (h : c.updateOne arrays id fields upsert = some c')
    {other : Bson} (hne : other ≠ id) : c' other = c other := by
  rw [updateOne] at h
  split at h
  · obtain ⟨d, -, rfl⟩ := map_eq_some_iff.mp h
    exact update_of_ne hne _ _
  · split_ifs at h
    · obtain ⟨d, -, rfl⟩ := map_eq_some_iff.mp h
      exact update_of_ne hne _ _
    · rw [some.inj h]

lemma updateOne_nil : c.updateOne arrays id [] false = some c := by
  have hset : ∀ d : Document, setAll arrays [] d = some d := by
    intro d
    rfl
  rcases hd : c id with _ | d
  · rw [updateOne, hd]
    rfl
  · rw [updateOne, hd]
    simp only [hset, map_some]
    rw [← hd, update_eq_self]

variable {doc : Document}

lemma map_update_eq_some_iff {d : Option Document} :
    (d.map fun d => update c id (some d)) = some (update c id (some doc)) ↔ d = some doc := by
  constructor
  · intro h
    obtain ⟨d', rfl, heq⟩ := map_eq_some_iff.mp h
    have hsome := update_injective c id heq
    rw [some.inj hsome]
  · rintro rfl
    rfl

end Collection

end Bson

end DataStream
