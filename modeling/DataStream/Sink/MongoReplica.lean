import DataStream.Source.MongoDB.ChangeStream

/-!
# From MongoDB to MongoDB

The MongoDB sink finds the document of an event by the id in its metadata. The source has put it
there as text, and the sink reads the text back as an object id if the driver takes it for the
digits of one, and as a string otherwise. The text of an object id is not its digits but
`ObjectID("…")`, and the type of any other id is lost, so that only strings find their documents
again. An update and a replacement are written with `$set`, which removes no field.

* `replicates_iff`: when the target follows the source through a history.
-/

namespace DataStream.Sink.MongoDB

open Bytes Bson Event Source.MongoDB Function CollectionChange Collection GoMap

/-! ## The sink -/

/-- The write strategies that `Config.Validate` accepts. -/
inductive WriteStrategy where
  | insert
  | replace
  | update
  | upsert
  deriving DecidableEq, Repr

/-- The write models that the sink builds. -/
inductive WriteModel where
  | insertOne (doc : Document)
  /-- With an upsert. -/
  | replaceOne (id : Bson) (replacement : Document)
  | updateOne (id : Bson) (set : Document) (upsert : Bool)
  | deleteOne (id : Bson)

/-- `ObjectIDFromHex` of the driver, of which only this is used: it does not read what an object id
prints as. -/
structure Driver where
  objectIDFromHex : Bytes → Option ObjectID
  objectIDFromHex_text : ∀ digits,
    objectIDFromHex (lit "ObjectID(\"" ++ digits ++ lit "\")") = none

variable (driver : Driver)

/-- `convertFieldToBSON`: the values that the driver decodes are passed on as they are. -/
def convertFieldToBSON (v : Bson) : Bson := v

def buildDocument (row : Option (GoMap Field)) : Document :=
  insertAll [] ((row.getD []).map fun entry => (entry.1, convertFieldToBSON entry.2.value))

/-- The id that a text stands for. -/
def parseID (idStr : Bytes) : Bson :=
  match driver.objectIDFromHex idStr with
  | some objID => .scalar (.objectID objID)
  | none => .scalar (.string idStr)

variable (arrays : ArrayPath) (fresh : Bson) (strategy : WriteStrategy) (c : Collection)
  (e : StreamEvent)

/-- `Connector.getDocumentID`; `fresh` is the id that is generated if there is none. -/
def getDocumentID : Bson :=
  match e.metadata.get? (lit "_id") with
  | some idStr => parseID driver idStr
  | none =>
    match (e.after.getD []).get? (lit "_id") with
    | some field => convertFieldToBSON field.value
    | none =>
      match e.primaryKeyColumns.head?.bind (e.after.getD []).get? with
      | some field => convertFieldToBSON field.value
      | none => fresh

def buildInsertModel : WriteModel :=
  let doc := buildDocument e.after
  match strategy with
  | .insert => .insertOne doc
  | .replace => .replaceOne (getDocumentID driver fresh e) doc
  | .upsert => .updateOne (getDocumentID driver fresh e) doc true
  | .update => .insertOne doc

/-- `Connector.buildWriteModel`; `none` is nil. -/
def buildWriteModel : Option WriteModel :=
  match e.type with
  | .insert => some (buildInsertModel driver fresh strategy e)
  | .update => some (.updateOne (getDocumentID driver fresh e) (buildDocument e.after) false)
  | .delete => some (.deleteOne (getDocumentID driver fresh e))
  | _ => none

def WriteModel.exec : WriteModel → Option Collection
  | .insertOne doc => c.insertOne fresh doc
  | .replaceOne id replacement => c.replaceOne id replacement
  | .updateOne id set upsert => c.updateOne arrays id set upsert
  | .deleteOne id => some (c.deleteOne id)

def writeEvent : Option Collection :=
  match buildWriteModel driver fresh strategy e with
  | some model => model.exec arrays fresh c
  | none => some c

/-! ## Ids -/

/-- A string that is not taken for an object id. -/
def PlainID (id : Bson) : Prop :=
  ∃ s, id = .scalar (.string s) ∧ driver.objectIDFromHex s = none

/-- **Ids.** An id survives the way through the metadata exactly if it is a string that is not taken
for an object id. -/
theorem parseID_printID_iff (printer : Printer) (id : Bson) :
    parseID driver (printID printer (some id)) = id ↔ PlainID driver id := by
  -- Whatever is read back is a string or an object id.
  have hother : ∀ text, (∀ s, id ≠ .scalar (.string s)) → (∀ o, id ≠ .scalar (.objectID o)) →
      (parseID driver text = id ↔ PlainID driver id) := by
    intro text hstring hobject
    refine iff_of_false (fun heq => ?_) fun ⟨s, heq, _⟩ => hstring s heq
    rw [parseID] at heq
    split at heq
    · exact hobject _ heq.symm
    · exact hstring _ heq.symm
  rcases id with s | fields | items
  · rcases s with _ | s | _ | o | _ | _ | _ | _ | _ | _ | _ | _ | _ | _ | _
    case string =>
      rw [printID, parseID]
      constructor
      · intro heq
        split at heq
        · cases heq
        · next hnone => exact ⟨s, rfl, hnone⟩
      · rintro ⟨s', heq, hnone⟩
        cases heq
        rw [hnone]
    case objectID =>
      rw [printID, parseID, driver.objectIDFromHex_text]
      exact iff_of_false (fun heq => by cases heq) fun ⟨s, heq, _⟩ => by cases heq
    all_goals exact hother _ (fun s heq => by cases heq) fun o heq => by cases heq
  · exact hother _ (fun s heq => by cases heq) fun o heq => by cases heq
  · exact hother _ (fun s heq => by cases heq) fun o heq => by cases heq

/-! ## One change -/

lemma buildDocument_documentFields {doc : Document} (h : doc.Ordered) :
    buildDocument (some (documentFields doc)) = doc := by
  have hmap : (doc.map fun entry => (entry.1, fieldOf entry.1 entry.2)).map
      (fun entry => (entry.1, convertFieldToBSON entry.2.value)) = doc := by
    rw [List.map_map]
    exact List.map_id' doc
  rw [buildDocument, Option.getD_some, documentFields_eq h, hmap, h.insertAll_nil]

/-- An update that overwrites the document: it finds it, sets every field by its name, and leaves
none over. -/
def Overwrites (id : Bson) (doc : Document) : Prop :=
  PlainID driver id ∧ (∀ n ∈ doc.map Prod.fst, PlainName n) ∧
    ∀ old ∈ c id, old.map Prod.fst ⊆ doc.map Prod.fst

/-- What a change has to meet, by the write strategy. -/
def Carried : CollectionChange → Prop
  | .insert id doc =>
    match strategy with
    | .insert | .update => True
    | .replace => PlainID driver id
    | .upsert => PlainID driver id ∧ ∀ n ∈ doc.map Prod.fst, PlainName n
  | .update id doc carried => carried = true ∧ Overwrites driver c id doc
  | .replace id doc => Overwrites driver c id doc
  | .delete id => PlainID driver id

section Step

variable (arrays : ArrayPath) (fresh : Bson) (printer : Printer) (strategy : WriteStrategy)
  (database collection : Bytes)

/-- Convert a change and write it to a collection; the change document may tell the document
before. -/
def replicate (c : Collection) (item : Option Document × CollectionChange) : Option Collection :=
  writeEvent driver arrays fresh strategy c
    (convertDocument printer (item.2.document database collection item.1))

variable {driver arrays fresh printer strategy} {c : Collection} {id : Bson} {doc : Document}

section

variable (hdoc : IsDocument id doc)
include hdoc

lemma updateOne_eq_update_iff (hc : WellFormed c) {old : Document} (hold : c id = some old)
    (hne : old ≠ doc) :
    c.updateOne arrays (parseID driver (printID printer (some id))) doc false =
      some (update c id (some doc)) ↔ Overwrites driver c id doc := by
  by_cases hid : PlainID driver id
  · rw [(parseID_printID_iff driver printer id).mpr hid, updateOne, hold]
    rw [map_update_eq_some_iff,
      setAll_eq_self_iff hdoc.1 (hc id old hold).1 hdoc.2 (hc id old hold).2]
    simp [Overwrites, hid, hold]
  · -- The document of another id is updated, if any, so the one of this id stays as it was.
    refine iff_of_false (fun heq => ?_) fun h => hid h.1
    have hother : id ≠ parseID driver (printID printer (some id)) :=
      fun heq => hid ((parseID_printID_iff driver printer id).mp heq.symm)
    have hsame := updateOne_of_ne heq hother
    rw [update_self, hold] at hsame
    exact hne (Option.some.inj hsame).symm

lemma upsert_eq_update_iff (hc : WellFormed c) (hnone : c id = none) :
    c.updateOne arrays (parseID driver (printID printer (some id))) doc true =
      some (update c id (some doc)) ↔ PlainID driver id ∧ ∀ n ∈ doc.map Prod.fst, PlainName n := by
  have hmem : (idField, id) ∈ doc := (get?_eq_some_iff hdoc.1.nodup).mp hdoc.2
  by_cases hid : PlainID driver id
  · have hkeys : ([(idField, id)] : Document).map Prod.fst ⊆ doc.map Prod.fst := by
      simpa using ⟨id, hmem⟩
    have hordered : GoMap.Ordered ([(idField, id)] : Document) := List.pairwise_singleton _ _
    have hget : get? ([(idField, id)] : Document) idField = some id := by simp [get?]
    rw [(parseID_printID_iff driver printer id).mpr hid, updateOne, hnone]
    rw [if_pos rfl, map_update_eq_some_iff,
      setAll_eq_self_iff hdoc.1 hordered hdoc.2 hget, and_iff_left hkeys, and_iff_right hid]
  · -- The document that is updated, or started from, has another id, which cannot be changed.
    refine iff_of_false (fun heq => ?_) fun h => hid h.1
    have hother : parseID driver (printID printer (some id)) ≠ id :=
      fun heq => hid ((parseID_printID_iff driver printer id).mp heq)
    rw [updateOne] at heq
    split at heq
    · next d hd =>
      obtain ⟨d', hset, -⟩ := Option.map_eq_some_iff.mp heq
      have hid' := get?_idField_of_setAll hset hmem
      rw [(hc _ d hd).2] at hid'
      exact hother (Option.some.inj hid')
    · obtain ⟨d', hset, -⟩ := Option.map_eq_some_iff.mp heq
      have hid' := get?_idField_of_setAll hset hmem
      simp [get?] at hid'
      exact hother hid'

lemma replaceOne_eq_update_iff :
    c.replaceOne (parseID driver (printID printer (some id))) doc =
      some (update c id (some doc)) ↔ PlainID driver id := by
  rw [← parseID_printID_iff driver printer id, replaceOne, hdoc.2]
  dsimp only
  constructor
  · intro heq
    by_contra hne
    rw [if_neg (Ne.symm hne)] at heq
    cases heq
  · intro heq
    rw [heq, if_pos rfl]

lemma insertOne_eq_update (hnone : c id = none) :
    c.insertOne fresh doc = some (update c id (some doc)) := by
  simp [insertOne, hdoc.2, hnone]

end

lemma getDocumentID_convertDocument (change : StreamDocument) (id : Bson)
    (h : change.documentKey = some [(idField, id)]) :
    getDocumentID driver fresh (convertDocument printer change) =
      parseID driver (printID printer (some id)) := by
  have hmeta : (convertDocument printer change).metadata =
      [(lit "_id", printID printer (some id))] := by
    simp [convertDocument, h, GoMap.get?, GoMap.insert]
  rw [getDocumentID, hmeta]
  simp [GoMap.get?]

variable {e : StreamEvent}

lemma writeEvent_update (h : e.type = .update) :
    writeEvent driver arrays fresh strategy c e =
      c.updateOne arrays (getDocumentID driver fresh e) (buildDocument e.after) false := by
  simp [writeEvent, buildWriteModel, h, WriteModel.exec]

lemma writeEvent_insert (h : e.type = .insert) :
    writeEvent driver arrays fresh strategy c e =
      match strategy with
      | .insert | .update => c.insertOne fresh (buildDocument e.after)
      | .replace => c.replaceOne (getDocumentID driver fresh e) (buildDocument e.after)
      | .upsert =>
        c.updateOne arrays (getDocumentID driver fresh e) (buildDocument e.after) true := by
  rcases strategy <;> simp [writeEvent, buildWriteModel, buildInsertModel, h, WriteModel.exec]

lemma writeEvent_delete (h : e.type = .delete) :
    writeEvent driver arrays fresh strategy c e =
      some (c.deleteOne (getDocumentID driver fresh e)) := by
  simp [writeEvent, buildWriteModel, h, WriteModel.exec]

/-- **One change.** Converting a change and writing it to a target that equals the source does what
the change did exactly if the change is carried. -/
lemma replicate_eq_apply_iff (hc : WellFormed c) (before : Option Document)
    {change : CollectionChange} (hvalid : change.Valid c) :
    replicate driver arrays fresh printer strategy database collection c (before, change) =
      some (change.apply c) ↔ Carried driver strategy c change := by
  have hinsert : eventType (lit "insert") = .insert := by decide
  have hupdate : eventType (lit "update") = .update := by decide
  have hreplace : eventType (lit "replace") = .update := by decide
  have hdelete : eventType (lit "delete") = .delete := by decide
  rw [replicate]
  rcases change with ⟨id, doc⟩ | ⟨id, doc, carried⟩ | ⟨id, doc⟩ | id
  · obtain ⟨hnone, hdoc⟩ := hvalid
    rw [writeEvent_insert hinsert, getDocumentID_convertDocument _ id rfl]
    simp only [convertDocument, CollectionChange.document, Option.map_some,
      buildDocument_documentFields hdoc.1, Carried, CollectionChange.apply]
    rcases strategy
    · exact iff_of_true (insertOne_eq_update hdoc hnone) trivial
    · exact replaceOne_eq_update_iff hdoc
    · exact iff_of_true (insertOne_eq_update hdoc hnone) trivial
    · exact upsert_eq_update_iff hdoc hc hnone
  · obtain ⟨hdoc, old, hold, hne⟩ := hvalid
    rw [writeEvent_update hupdate, getDocumentID_convertDocument _ id rfl]
    rcases carried
    · -- Without the document nothing is set, and the source has changed.
      refine iff_of_false (fun heq => ?_) fun h => Bool.false_ne_true h.1
      have hempty : buildDocument (convertDocument printer (CollectionChange.document database
          collection before (.update id doc false))).after = [] := rfl
      rw [hempty, updateOne_nil, Option.some.injEq] at heq
      have hsame := congrFun heq id
      rw [CollectionChange.apply, update_self, hold] at hsame
      exact hne (Option.some.inj hsame)
    · simp only [convertDocument, CollectionChange.document, if_true, Option.map_some,
        buildDocument_documentFields hdoc.1, Carried, CollectionChange.apply, true_and]
      exact updateOne_eq_update_iff hdoc hc hold hne
  · obtain ⟨hdoc, old, hold, hne⟩ := hvalid
    rw [writeEvent_update hreplace, getDocumentID_convertDocument _ id rfl]
    simp only [convertDocument, CollectionChange.document, Option.map_some,
      buildDocument_documentFields hdoc.1, Carried, CollectionChange.apply]
    exact updateOne_eq_update_iff hdoc hc hold hne
  · rw [writeEvent_delete hdelete, getDocumentID_convertDocument _ id rfl, Option.some.injEq,
      Carried, ← parseID_printID_iff driver printer id]
    constructor
    · intro heq
      -- The document of the id is gone only if it was the one that was deleted.
      by_contra hne
      have hgone := congrFun heq id
      rw [deleteOne, update_of_ne (Ne.symm hne), CollectionChange.apply, update_self] at hgone
      exact hvalid hgone
    · intro heq
      rw [heq]
      rfl

end Step

/-! ## Histories -/

/-- **From MongoDB to MongoDB.** Start from a target that equals the source collection. It equals
the source after every change of a valid history, without an error, exactly if every change meets
`Carried` in the state before it: ids are strings that do not look like object ids, updates carry
the document and remove no field, and names that go through `$set` are plain. With the strategies
`insert` and `update` nothing is asked of inserts. -/
theorem replicates_iff (driver : Driver) (arrays : ArrayPath) (fresh : Bson) (printer : Printer)
    (strategy : WriteStrategy) (database collection : Bytes) (c : Collection) (hc : WellFormed c)
    (history : List (Option Document × CollectionChange))
    (hvalid : Along apply Valid c (history.map Prod.snd)) :
    (∀ past, past <+: history →
      past.foldlM (replicate driver arrays fresh printer strategy database collection) c =
        some ((past.map Prod.snd).foldl apply c)) ↔
      Along apply (Carried driver strategy) c (history.map Prod.snd) := by
  rw [along_map] at hvalid ⊢
  simp only [List.foldl_map]
  rw [forall_past_foldlM_iff]
  refine along_congr (fun c item hc hv => hc.apply hv) ?_ hc hvalid
  intro c item hc hv
  exact replicate_eq_apply_iff database collection hc item.1 hv

/-- A driver that reads an object id from its 24 hexadecimal digits. -/
def hexDriver : Driver where
  objectIDFromHex s :=
    if s.length ≠ 24 then none
    else
      match Hex.decodeString s with
      | (bytes, true) => if h : bytes.length = 12 then some ⟨bytes, h⟩ else none
      | (_, false) => none
  objectIDFromHex_text digits := by
    have hdecode : Hex.decodeString (lit "ObjectID(\"" ++ digits ++ lit "\")") = ([], false) := rfl
    rw [hdecode]
    split_ifs <;> rfl

def sample (id : Bson) (x : Int64) : Document := [(idField, id), (lit "x", .scalar (.int64 x))]

/-- An insert and an update of a document whose id is a string. -/
def sampleHistory : List (Option Document × CollectionChange) :=
  let id := .scalar (.string (lit "ann"))
  [(none, .insert id (sample id 1)), (none, .update id (sample id 2) true)]

/-- The document with a string as its id is followed. -/
theorem replicates_sampleHistory :
    sampleHistory.foldlM
        (replicate hexDriver (fun _ _ _ => none) (.scalar .null) (fun _ => []) .upsert (lit "db")
          (lit "people"))
        (fun _ => none) =
      some ((sampleHistory.map Prod.snd).foldl apply fun _ => none) := by
  have hplain : PlainID hexDriver (.scalar (.string (lit "ann"))) := ⟨lit "ann", rfl, by decide⟩
  have hnames : ∀ n ∈ [idField, lit "x"], PlainName n := by
    intro n hn
    rcases List.mem_pair.mp hn with rfl | rfl
    · exact ⟨by decide, by decide⟩
    · exact ⟨by decide, by decide⟩
  refine (replicates_iff hexDriver _ _ _ .upsert _ _ (fun _ => none) (fun _ _ h => by cases h)
    sampleHistory ?_).mpr ?_ sampleHistory List.prefix_rfl
  · refine ⟨⟨rfl, by decide, rfl⟩, ⟨⟨by decide, rfl⟩, _, rfl, ?_⟩, trivial⟩
    decide
  · refine ⟨⟨hplain, hnames⟩, ⟨rfl, hplain, hnames, ?_⟩, trivial⟩
    intro old hold
    obtain rfl := Option.some.inj hold
    exact List.Subset.refl _

def zeroID : Bson := .scalar (.objectID ⟨List.replicate 12 0, rfl⟩)

/-- A collection with one document, whose id is an object id. -/
def objectIDs : Collection := fun id => if id = zeroID then some [(idField, zeroID)] else none

/-- With no write strategy is the delete of a document with an object id followed. -/
theorem not_forall_replicates :
    ¬ ∃ (driver : Driver) (arrays : ArrayPath) (fresh : Bson) (printer : Printer)
      (strategy : WriteStrategy),
      ∀ (database collection : Bytes) (c : Collection), WellFormed c →
        ∀ history : List (Option Document × CollectionChange),
          Along apply Valid c (history.map Prod.snd) →
            history.foldlM (replicate driver arrays fresh printer strategy database collection) c =
              some ((history.map Prod.snd).foldl apply c) := by
  rintro ⟨driver, arrays, fresh, printer, strategy, hall⟩
  have hwf : WellFormed objectIDs := by
    intro id doc hdoc
    rw [objectIDs] at hdoc
    split_ifs at hdoc with hid
    obtain rfl := Option.some.inj hdoc
    exact ⟨List.pairwise_singleton _ _, by simp [get?, hid]⟩
  have hvalid : (delete zeroID).Valid objectIDs := by
    simp [Valid, objectIDs]
  have hfollows := hall (lit "db") (lit "people") objectIDs hwf [(none, .delete zeroID)]
    ⟨hvalid, trivial⟩
  simp only [List.foldlM_cons, List.foldlM_nil, bind_pure] at hfollows
  obtain ⟨s, hs, -⟩ := (replicate_eq_apply_iff _ _ hwf none hvalid).mp hfollows
  cases hs

end DataStream.Sink.MongoDB
