import DataStream.Event.ChangeEvent
import DataStream.Foundations.Json.Prefix
import DataStream.Store.SchemaHistory

/-!
# The local schema history

`internal/schema/local_history.go`: `Record` appends a record to a file as the length of its JSON
text in four bytes and the text; `Recover` reads one record after the other and replays it. The
length field holds the length modulo `2 ^ 32`.

* `recoversAll_crash`: what a crash in the middle of a record does to recovery.
-/

namespace DataStream.Schema

open Event Store Json Bytes List Option Tables

/-! ## Records -/

/-- `event.SchemaHistoryRecord`, with `Database` and `Table` under the names of the target store's
rows. -/
structure SchemaHistoryRecord extends SchemaHistoryRow where
  schema : Bytes
  ddlStatus : Bytes
  timestamp : Time
  deriving DecidableEq

namespace SchemaHistoryRecord

def zero : SchemaHistoryRecord where
  position := .zero
  dbName := []
  schema := []
  tableName := []
  ddl := []
  tableInfo := none
  changeType := []
  ddlStatus := []
  timestamp := .zero

/-- The JSON form of a record; `none` is an encoding error. -/
def toJson (r : SchemaHistoryRecord) : Option Json :=
  r.position.toJson.bind fun position => r.timestamp.toJson.map fun timestamp =>
    .obj (member "position" position ++
      (member "database" (jsonString r.dbName) ++
      (memberOmitEmpty "schema" (r.schema = []) (jsonString r.schema) ++
      (member "table" (jsonString r.tableName) ++
      (member "ddl" (jsonString r.ddl) ++
      (memberOmitEmpty "tableInfo" (r.tableInfo = none) ((r.tableInfo.getD .zero).toJson) ++
      (member "changeType" (jsonString r.changeType) ++
      (member "ddlStatus" (jsonString r.ddlStatus) ++
      (member "timestamp" timestamp ++ [])))))))))

/-- How the members of the JSON form update a record. -/
def fields : List (Json.Field SchemaHistoryRecord) :=
  [⟨lit "position", fun r j => (Position.decode r.position j).map ({ r with position := · })⟩,
    ⟨lit "database", fun r j => (decodeString r.dbName j).map ({ r with dbName := · })⟩,
    ⟨lit "schema", fun r j => (decodeString r.schema j).map ({ r with schema := · })⟩,
    ⟨lit "table", fun r j => (decodeString r.tableName j).map ({ r with tableName := · })⟩,
    ⟨lit "ddl", fun r j => (decodeString r.ddl j).map ({ r with ddl := · })⟩,
    ⟨lit "tableInfo", fun r j =>
      (ChangeEvent.decodePointer .zero TableInfo.decode r.tableInfo j).map
        ({ r with tableInfo := · })⟩,
    ⟨lit "changeType", fun r j => (decodeString r.changeType j).map ({ r with changeType := · })⟩,
    ⟨lit "ddlStatus", fun r j => (decodeString r.ddlStatus j).map ({ r with ddlStatus := · })⟩,
    ⟨lit "timestamp", fun r j => (Time.decode r.timestamp j).map ({ r with timestamp := · })⟩]

def marshal (r : SchemaHistoryRecord) : Option Bytes := r.toJson.map Json.marshal

def unmarshal (data : Bytes) : Option SchemaHistoryRecord :=
  Json.unmarshal zero (decodeStruct fields) data

lemma ok_toJson {r : SchemaHistoryRecord} {j : Json} (h : r.toJson = some j) :
    j.Ok ∧ j.nesting ≤ maxNestingDepth ∧ ∃ ms, j = .obj ms := by
  obtain ⟨position, hposition, h⟩ := bind_eq_some_iff.mp h
  obtain ⟨timestamp, htime, rfl⟩ := map_eq_some_iff.mp h
  refine ⟨?_, ?_, _, rfl⟩
  · have hparts := And.intro (Position.ok_toJson hposition) (Time.ok_toJson htime)
    simp (disch := first | decide | simp [hparts, TableInfo.ok_toJson]) only [Json.Ok,
      okMembers_append, okMembers_memberOmitEmpty, okMembers_member, OkMembers, and_self]
  · have hinfo := (nestingMembers_memberOmitEmpty_le "tableInfo" (decide (r.tableInfo = none))
      (r.tableInfo.getD .zero).toJson).trans (TableInfo.nesting_toJson_le _)
    simp only [nesting, nestingMembers_append, nestingMembers_member, nesting_jsonString,
      Position.nesting_toJson hposition, Time.nesting_toJson htime,
      nestingMembers_memberOmitEmpty (nesting_jsonString _), nestingMembers]
    have hdepth : 4 ≤ maxNestingDepth := by decide
    omega

/-- What a record is read back as, but for its position and time. -/
def repaired (r : SchemaHistoryRecord) (position : Position) (timestamp : Time) :
    SchemaHistoryRecord where
  position := position
  dbName := Utf8.toValid r.dbName
  schema := Utf8.toValid r.schema
  tableName := Utf8.toValid r.tableName
  ddl := Utf8.toValid r.ddl
  tableInfo := r.tableInfo.map TableInfo.repaired
  changeType := Utf8.toValid r.changeType
  ddlStatus := Utf8.toValid r.ddlStatus
  timestamp := timestamp

private lemma decodeMembers_tableInfo {prev : SchemaHistoryRecord} (info : Option TableInfo)
    (hprev : prev.tableInfo = none) :
    decodeMembers fields prev (memberOmitEmpty "tableInfo" (info = none) (info.getD .zero).toJson) =
      some { prev with tableInfo := info.map TableInfo.repaired } := by
  obtain ⟨row, schema, ddlStatus, timestamp⟩ := prev
  obtain ⟨position, dbName, tableName, ddl, tableInfo, changeType⟩ := row
  obtain rfl : tableInfo = none := hprev
  cases info with
  | none => rfl
  | some info =>
    refine (decodeMembers_member (by decide) rfl _ _).trans ?_
    exact congrArg (Option.map _) (congrArg (Option.map some) info.decode_toJson)

variable {r : SchemaHistoryRecord}

lemma exists_unmarshal_marshal {data : Bytes} (h : r.marshal = some data) :
    ∃ position timestamp, unmarshal data = some (r.repaired position timestamp) := by
  obtain ⟨j, hj, rfl⟩ := map_eq_some_iff.mp h
  obtain ⟨hok, hdepth, -⟩ := ok_toJson hj
  obtain ⟨position, hposition, hj⟩ := bind_eq_some_iff.mp hj
  obtain ⟨timestamp, htime, rfl⟩ := map_eq_some_iff.mp hj
  obtain ⟨p, hp⟩ := Position.exists_decode_toJson hposition .zero
  obtain ⟨t, ht⟩ := Time.exists_decode_toJson htime
  refine ⟨p, t, ?_⟩
  rw [unmarshal, Json.unmarshal_marshal hok hdepth]
  simp only [decodeStruct]
  rw [decodeMembers_append, decodeMembers_member (by decide) rfl]
  simp only [zero, hp, map_some, bind_some]
  rw [decodeMembers_set (by decide) rfl fun y => decodeString_jsonString y _,
    decodeMembers_setOmitEmpty (by decide) rfl fun y => decodeString_jsonString y _,
    decodeMembers_set (by decide) rfl fun y => decodeString_jsonString y _,
    decodeMembers_set (by decide) rfl fun y => decodeString_jsonString y _,
    decodeMembers_append, decodeMembers_tableInfo _ rfl, bind_some,
    decodeMembers_set (by decide) rfl fun y => decodeString_jsonString y _,
    decodeMembers_set (by decide) rfl fun y => decodeString_jsonString y _,
    decodeMembers_set (by decide) rfl ht]
  · rfl
  · intro hempty
    have hschema : r.schema = [] := by simpa using hempty
    simp [hschema]

lemma unmarshal_take {data : Bytes} (h : r.marshal = some data) {n : ℕ} (hn : n < data.length) :
    unmarshal (data.take n) = none := by
  obtain ⟨j, hj, rfl⟩ := map_eq_some_iff.mp h
  obtain ⟨hok, hdepth, ms, rfl⟩ := ok_toJson hj
  have hsplit : (Json.obj ms).print = (Json.marshal (.obj ms)).take n ++
      (Json.marshal (.obj ms)).drop n := (take_append_drop n _).symm
  have hdrop : (Json.marshal (.obj ms)).drop n ≠ [] := by
    rw [Ne, drop_eq_nil_iff]
    omega
  rw [unmarshal, Json.unmarshal, parse_eq_none_of_prefix hok hdepth hsplit hdrop, bind_none]

end SchemaHistoryRecord

open SchemaHistoryRecord

/-! ## The file -/

variable {r : SchemaHistoryRecord} {rs : List SchemaHistoryRecord} {file data rest : Bytes}

/-- The bytes that `Record` writes for a JSON text. -/
def frame (data : Bytes) : Bytes := putUint32 data.length ++ data

/-- `LocalSchemaHistory.Record` on a file that takes the bytes; `none` is an encoding error. -/
def record (file : Bytes) (r : SchemaHistoryRecord) : Option Bytes :=
  r.marshal.map fun data => file ++ frame data

/-- The length field and the text of the next record; `none` is an error. -/
def readRecord (file : Bytes) : Option (SchemaHistoryRecord × Bytes) :=
  if file.length < 4 then none
  else if (file.drop 4).length < uint32 file then none
  else (SchemaHistoryRecord.unmarshal ((file.drop 4).take (uint32 file))).map
    fun r => (r, (file.drop 4).drop (uint32 file))

lemma length_rest_lt (h : readRecord file = some (r, rest)) : rest.length < file.length := by
  unfold readRecord at h
  split at h
  · cases h
  · split at h
    · cases h
    · obtain ⟨r', -, heq⟩ := map_eq_some_iff.mp h
      obtain rfl := congrArg Prod.snd heq
      simp only [length_drop]
      omega

/-- `LocalSchemaHistory.Recover`: the definitions, and whether it returns no error. -/
def recover (file : Bytes) (tables : Tables) (offset : Option Position) : Tables × Bool :=
  if file = [] then (tables, true)
  else match _h : readRecord file with
    | none => (tables, false)
    | some (r, rest) =>
      if offset.any fun o => !o.isZero && o.commitTime.before r.position.commitTime then
        (tables, true)
      else recover rest (replayRow tables r.toSchemaHistoryRow) offset
  termination_by file.length
  decreasing_by exact length_rest_lt ‹_›

variable (tables : Tables)

lemma recover_nil (offset : Option Position) : recover [] tables offset = (tables, true) := by
  rw [recover, if_pos rfl]

lemma recover_of_eq_none (hfile : file ≠ []) (h : readRecord file = none) (tables : Tables)
    (offset : Option Position) : recover file tables offset = (tables, false) := by
  rw [recover, if_neg hfile]
  split
  · rfl
  · next heq => cases h.symm.trans heq

lemma recover_of_eq_some (h : readRecord file = some (r, rest)) (tables : Tables)
    (offset : Option Position) : recover file tables offset =
      if offset.any fun o => !o.isZero && o.commitTime.before r.position.commitTime then
        (tables, true)
      else recover rest (replayRow tables r.toSchemaHistoryRow) offset := by
  have hfile : file ≠ [] := by
    rintro rfl
    cases h
  rw [recover, if_neg hfile]
  split
  · next heq => cases h.symm.trans heq
  · next heq =>
    obtain ⟨rfl, rfl⟩ := Prod.mk.inj (some.inj (h.symm.trans heq))
    rfl

/-! ## Complete and torn records -/

/-- The length of the text fits into the length field. -/
def Fits (data : Bytes) : Prop := data.length < 2 ^ 32
  deriving Decidable

lemma readRecord_frame_append (h : Fits data) (rest : Bytes) :
    readRecord (frame data ++ rest) =
      (SchemaHistoryRecord.unmarshal data).map fun r => (r, rest) := by
  have hlength : uint32 (putUint32 data.length ++ (data ++ rest)) = data.length :=
    uint32_putUint32_append _ h _
  have hdrop : (putUint32 data.length ++ (data ++ rest)).drop 4 = data ++ rest :=
    drop_left' (length_putUint32 _)
  rw [readRecord, frame, append_assoc, hlength, hdrop, if_neg (by simp), if_neg (by simp),
    take_left, drop_left]

lemma exists_readRecord (h : r.marshal = some data) (hfit : Fits data) (rest : Bytes) :
    ∃ r', SchemaHistoryRecord.unmarshal data = some r' ∧
      readRecord (frame data ++ rest) = some (r', rest) := by
  obtain ⟨position, timestamp, hread⟩ := SchemaHistoryRecord.exists_unmarshal_marshal h
  refine ⟨_, hread, ?_⟩
  rw [readRecord_frame_append hfit, hread, map_some]

private lemma uint32_putUint32_append_mod (n : ℕ) (rest : Bytes) :
    uint32 (putUint32 n ++ rest) = n % 2 ^ 32 := by
  simp only [putUint32, cons_append, nil_append, uint32, UInt8.toNat_ofNat']
  omega

lemma readRecord_oversized (h : r.marshal = some data) (hdata : ¬Fits data) (rest : Bytes) :
    readRecord (frame data ++ rest) = none := by
  have hlt : data.length % 2 ^ 32 < data.length :=
    (Nat.mod_lt _ (by norm_num)).trans_le (Nat.le_of_not_lt hdata)
  rw [readRecord, frame, append_assoc, uint32_putUint32_append_mod,
    drop_left' (length_putUint32 _), take_append_of_le_length hlt.le,
    unmarshal_take h hlt, map_none, ite_self, ite_self]

lemma readRecord_torn (h : r.marshal = some data) {torn : Bytes} (htorn : torn <+: frame data)
    (hne : torn ≠ frame data) : readRecord torn = none := by
  by_cases hshort : torn.length < 4
  · rw [readRecord, if_pos hshort]
  · have hlength : torn.length < (frame data).length :=
      lt_of_le_of_ne htorn.length_le fun heq => hne (htorn.eq_of_length heq)
    have heq : torn = putUint32 data.length ++ data.take (torn.length - 4) := by
      conv_lhs => rw [prefix_iff_eq_take.mp htorn, frame, take_append]
      rw [take_of_length_le (by simp; omega), length_putUint32]
    have hbody : torn.length - 4 < data.length := by
      simp only [frame, length_append, length_putUint32] at hlength
      omega
    rw [heq, readRecord, uint32_putUint32_append_mod, drop_left' (length_putUint32 _),
      if_neg (by simp)]
    by_cases hfew : (data.take (torn.length - 4)).length < data.length % 2 ^ 32
    · rw [if_pos hfew]
    · -- The length field wrapped around: the text that is there is long enough for it.
      have hle : data.length % 2 ^ 32 ≤ torn.length - 4 := by
        simp only [length_take] at hfew
        omega
      rw [if_neg hfew, take_take, Nat.min_eq_left hle,
        unmarshal_take h (hle.trans_lt hbody), map_none]

/-! ## Sequences of records -/

variable {bytes : Bytes}

/-- The bytes of records that are appended one after the other. -/
def written : List SchemaHistoryRecord → Option Bytes
  | [] => some []
  | r :: rs => r.marshal.bind fun data => (written rs).map (frame data ++ ·)

lemma foldlM_record (file : Bytes) (rs : List SchemaHistoryRecord) :
    rs.foldlM record file = (written rs).map (file ++ ·) := by
  induction rs generalizing file with
  | nil => simp [written]
  | cons r rs ih =>
    simp only [foldlM_cons, record, written]
    cases r.marshal with
    | none => rfl
    | some data =>
      simp only [map_some, bind_some, bind_eq_bind, ih, Option.map_map]
      congr 1
      funext bytes
      exact append_assoc _ _ _

/-- The records as they are read back. -/
def stored (rs : List SchemaHistoryRecord) : List SchemaHistoryRecord :=
  rs.filterMap fun r => r.marshal.bind unmarshal

/-- The replay of records as they are read back. -/
def replay (tables : Tables) (rs : List SchemaHistoryRecord) : Tables :=
  (stored rs).foldl (fun tables r => replayRow tables r.toSchemaHistoryRow) tables

def AllFit (rs : List SchemaHistoryRecord) : Prop := ∀ r ∈ rs, ∀ data ∈ r.marshal, Fits data

lemma replay_append (rs rs' : List SchemaHistoryRecord) :
    replay tables (rs ++ rs') = replay (replay tables rs) rs' := by
  rw [replay, stored, filterMap_append, foldl_append]
  rfl

@[simp]
lemma replay_nil : replay tables [] = tables := rfl

variable {r' : SchemaHistoryRecord}

lemma stored_cons (h : r.marshal = some data) (hr' : SchemaHistoryRecord.unmarshal data = some r') :
    stored (r :: rs) = r' :: stored rs := by
  rw [stored, filterMap_cons, h, bind_some, hr']
  rfl

lemma replay_cons (h : r.marshal = some data) (hr' : SchemaHistoryRecord.unmarshal data = some r')
    (tables : Tables) :
    replay tables (r :: rs) = replay (replayRow tables r'.toSchemaHistoryRow) rs := by
  rw [replay, stored_cons h hr']
  rfl

/-- The file starts with these records, as `readRecord` reads them, and the rest follows. -/
inductive Reads (rest : Bytes) : Bytes → List SchemaHistoryRecord → Prop
  | nil : Reads rest rest []
  | cons {file file' : Bytes} {r : SchemaHistoryRecord} {rs : List SchemaHistoryRecord}
      (h : readRecord file = some (r, file')) (hrs : Reads rest file' rs) :
      Reads rest file (r :: rs)

lemma reads_written (h : written rs = some bytes) (hfit : AllFit rs)
    (rest : Bytes) : Reads rest (bytes ++ rest) (stored rs) := by
  induction rs generalizing bytes with
  | nil =>
    obtain rfl : [] = bytes := some.inj h
    exact .nil
  | cons r rs ih =>
    obtain ⟨data, hdata, h⟩ := bind_eq_some_iff.mp h
    obtain ⟨bytes, hbytes, rfl⟩ := map_eq_some_iff.mp h
    obtain ⟨r', hread, hnext⟩ :=
      exists_readRecord hdata (hfit r mem_cons_self data hdata) (bytes ++ rest)
    rw [append_assoc, stored_cons hdata hread]
    exact .cons hnext (ih hbytes fun r' hr' => hfit r' (mem_cons_of_mem _ hr'))

lemma Reads.recover_none (h : Reads rest file rs) (tables : Tables) :
    recover file tables none = recover rest
      (rs.foldl (fun tables r => replayRow tables r.toSchemaHistoryRow) tables) none := by
  induction h generalizing tables with
  | nil => rfl
  | cons hnext _ ih => exact (recover_of_eq_some hnext tables none).trans (ih _)

lemma recover_written_append (h : written rs = some bytes) (hfit : AllFit rs)
    (rest : Bytes) (tables : Tables) :
    recover (bytes ++ rest) tables none = recover rest (replay tables rs) none :=
  (reads_written h hfit rest).recover_none tables

lemma recover_of_not_allFit (h : written rs = some bytes) (hfit : ¬AllFit rs)
    (rest : Bytes) (tables : Tables) : (recover (bytes ++ rest) tables none).2 = false := by
  induction rs generalizing bytes tables with
  | nil => exact absurd (forall_mem_nil _) hfit
  | cons r rs ih =>
    obtain ⟨data, hdata, h⟩ := bind_eq_some_iff.mp h
    obtain ⟨bytes, hbytes, rfl⟩ := map_eq_some_iff.mp h
    rw [append_assoc]
    by_cases hr : Fits data
    · obtain ⟨_, -, hnext⟩ := exists_readRecord hdata hr (bytes ++ rest)
      rw [recover_of_eq_some hnext]
      refine ih hbytes (fun hrs => hfit ?_) _
      intro r' hr' data' hdata'
      rcases mem_cons.mp hr' with rfl | hr'
      · rwa [some.inj (hdata'.symm.trans hdata)]
      · exact hrs r' hr' data' hdata'
    · have hne : frame data ++ (bytes ++ rest) ≠ [] := by simp [frame, putUint32]
      rw [recover_of_eq_none hne (readRecord_oversized hdata hr _)]

/-! ## A crash in the middle of a record -/

/-- `Recover` without an offset returns no error and applies these records in order. -/
def RecoversAll (file : Bytes) (rs : List SchemaHistoryRecord) : Prop :=
  ∀ tables, recover file tables none = (replay tables rs, true)

lemma allFit_append {rs' : List SchemaHistoryRecord} :
    AllFit (rs ++ rs') ↔ AllFit rs ∧ AllFit rs' := forall_mem_append

theorem recoversAll_iff_allFit (h : written rs = some bytes) :
    RecoversAll bytes rs ↔ AllFit rs := by
  constructor
  · intro hall
    by_contra hfit
    have herror := recover_of_not_allFit h hfit [] empty
    rw [append_nil, hall empty] at herror
    cases herror
  · intro hfit tables
    rw [← append_nil bytes, recover_written_append h hfit, recover_nil]

lemma not_recoversAll_torn (h : r.marshal = some data) {torn : Bytes}
    (htorn : torn <+: frame data) (hne : torn ≠ frame data) (hnil : torn ≠ [])
    (hbytes : written rs = some bytes) (hfit : AllFit rs) : ¬RecoversAll (bytes ++ torn) rs := by
  intro hall
  have hread := recover_written_append hbytes hfit torn empty
  rw [hall empty, recover_of_eq_none hnil (readRecord_torn h htorn hne)] at hread
  cases congrArg Prod.snd hread

lemma exists_fits {o : Option Bytes} (h : (o.any fun data => data.length < 1000) = true) :
    ∃ data, o = some data ∧ Fits data := by
  cases o with
  | none => cases h
  | some data => exact ⟨data, rfl, (of_decide_eq_true h).trans (by norm_num)⟩

/-- The record of the creation of `shop.orders`. -/
def creationRecord : SchemaHistoryRecord :=
  { zero with
    dbName := lit "shop"
    tableName := lit "orders"
    tableInfo := some { TableInfo.zero with database := lit "shop", table := lit "orders" }
    changeType := lit "CREATE" }

/-- The record of its removal. -/
def removalRecord : SchemaHistoryRecord :=
  { creationRecord with tableInfo := none, changeType := lit "DROP" }

set_option maxRecDepth 100000 in
private lemma exists_written_records : ∃ data data', creationRecord.marshal = some data ∧
    removalRecord.marshal = some data' ∧ Fits data ∧ Fits data' := by
  obtain ⟨data, hdata, hfit⟩ := exists_fits
    (by decide : (creationRecord.marshal.any fun data => data.length < 1000) = true)
  obtain ⟨data', hdata', hfit'⟩ := exists_fits
    (by decide : (removalRecord.marshal.any fun data => data.length < 1000) = true)
  exact ⟨data, data', hdata, hdata', hfit, hfit'⟩

lemma written_singleton (h : r.marshal = some data) : written [r] = some (frame data) := by
  rw [written, h, bind_some, written, map_some, append_nil]

section Crash

variable {before after : List SchemaHistoryRecord} {next : SchemaHistoryRecord}
  {torn bytes' : Bytes}

/-- Recovery around a crash in the middle of `next` is complete when nothing of `next` is left and
all texts fit. Conversely, where it is complete the records before the crash fit, and either nothing
of `next` is left and the later ones fit too, or records follow the torn one. -/
theorem recoversAll_crash (hnext : next.marshal = some data) (htorn : torn <+: frame data)
    (hne : torn ≠ frame data) (hbefore : written before = some bytes)
    (hafter : written after = some bytes') :
    (torn = [] ∧ AllFit (before ++ after) →
      RecoversAll (bytes ++ torn ++ bytes') (before ++ after)) ∧
    (RecoversAll (bytes ++ torn ++ bytes') (before ++ after) →
      AllFit before ∧ (torn = [] ∧ AllFit after ∨ torn ≠ [] ∧ after ≠ [])) := by
  refine ⟨?_, fun hall => ?_⟩
  · rintro ⟨rfl, hfit⟩ tables
    obtain ⟨hfit, hfit'⟩ := allFit_append.mp hfit
    rw [append_nil, recover_written_append hbefore hfit, replay_append]
    exact (recoversAll_iff_allFit hafter).mpr hfit' _
  · have hfit : AllFit before := by
      by_contra hfit
      have herror := recover_of_not_allFit hbefore hfit (torn ++ bytes') empty
      rw [← append_assoc, hall empty] at herror
      cases herror
    refine ⟨hfit, ?_⟩
    by_cases hnil : torn = []
    · refine .inl ⟨hnil, ?_⟩
      by_contra hfit'
      have herror := recover_of_not_allFit hafter hfit' [] (replay empty before)
      rw [append_nil, ← recover_written_append hbefore hfit, ← append_nil bytes,
        ← hnil, hall empty] at herror
      cases herror
    · refine .inr ⟨hnil, ?_⟩
      rintro rfl
      obtain rfl : [] = bytes' := some.inj hafter
      rw [append_nil, append_nil] at hall
      exact not_recoversAll_torn hnext htorn hne hnil hbefore hfit hall

/-- The table is created, the next write is lost in a crash, and the table is removed: recovery
applies both records. With one byte of the lost write at the end of the file it does not. -/
theorem recoversAll_crash_orders : ∃ data data', creationRecord.marshal = some data ∧
    removalRecord.marshal = some data' ∧
      RecoversAll (frame data ++ [] ++ frame data') ([creationRecord] ++ [removalRecord]) ∧
        ¬RecoversAll (frame data ++ (frame data').take 1 ++ []) ([creationRecord] ++ []) := by
  obtain ⟨data, data', hdata, hdata', hfit, hfit'⟩ := exists_written_records
  have hcreation := written_singleton hdata
  refine ⟨data, data', hdata, hdata', ?_, fun hall => ?_⟩
  · refine (recoversAll_crash hdata' nil_prefix (by simp [frame, putUint32]) hcreation
      (written_singleton hdata')).1 ⟨rfl, ?_⟩
    simpa [AllFit, hdata, hdata'] using ⟨hfit, hfit'⟩
  · have htorn : (frame data').take 1 <+: frame data' := take_prefix 1 _
    have hne : (frame data').take 1 ≠ frame data' := by simp [frame, putUint32]
    obtain ⟨-, ⟨hnil, -⟩ | ⟨-, hafter⟩⟩ := (recoversAll_crash hdata' htorn hne hcreation rfl).2 hall
    · simp [frame, putUint32] at hnil
    · exact hafter rfl

end Crash

/-- The first byte of a record, left in the file by a crash, makes recovery fail. -/
theorem not_forall_recoversAll_crash :
    ¬∀ (before after : List SchemaHistoryRecord) (next : SchemaHistoryRecord)
      (data torn bytes bytes' : Bytes), next.marshal = some data → torn <+: frame data →
      torn ≠ frame data → written before = some bytes → written after = some bytes' →
      RecoversAll (bytes ++ torn ++ bytes') (before ++ after) := by
  intro hall
  obtain ⟨data, -, hdata, -⟩ := exists_written_records
  have htorn : [UInt8.ofNat (data.length / 2 ^ 24)] <+: frame data := ⟨_, rfl⟩
  have hne : [UInt8.ofNat (data.length / 2 ^ 24)] ≠ frame data := by simp [frame, putUint32]
  have hcomplete := hall [] [] _ data _ [] [] hdata htorn hne rfl rfl
  exact not_recoversAll_torn hdata htorn hne (by simp) rfl (forall_mem_nil _) hcomplete

end DataStream.Schema
