import DataStream.Foundations.Time

/-!
# Source positions

`event.Position`, the place in a source's log from which a connector can resume, with its JSON
form and its comparison. One struct serves all sources; each uses the fields of its own log.
-/

namespace DataStream.Event

open Json List Option

/-- `SourceType`: the kind of the upstream database. -/
inductive SourceType where
  | unspecified
  | mySQLGTID
  | mySQLFilePos
  | postgres
  | oracle
  | sqlServer
  | mongoDB
  deriving DecidableEq, Repr

/-- A position in the log of some source. -/
structure Position where
  /-- Binary log file (MySQL, MariaDB). -/
  binlogFile : Bytes
  /-- Offset in the binary log file. -/
  binlogPos : UInt32
  /-- Write-ahead log position (PostgreSQL). -/
  lsn : UInt64
  /-- System change number (Oracle). -/
  scn : UInt64
  /-- Oplog timestamp (MongoDB). -/
  timestamp : UInt64
  order : Int64
  /-- Change stream resume token (MongoDB). -/
  resumeToken : Bytes
  /-- Log sequence number in hexadecimal (SQL Server). -/
  changeLsn : Bytes
  seqVal : Bytes
  commitTime : Time
  txID : Bytes
  /-- Sequence within the transaction. -/
  seqNo : Int64
  total : Int64
  deriving DecidableEq, Repr

namespace Position

def zero : Position where
  binlogFile := []
  binlogPos := 0
  lsn := 0
  scn := 0
  timestamp := 0
  order := 0
  resumeToken := []
  changeLsn := []
  seqVal := []
  commitTime := Time.zero
  txID := []
  seqNo := 0
  total := 0

/-- The JSON form of a position; `none` is an encoding error. -/
def toJson (p : Position) : Option Json :=
  p.commitTime.toJson.map fun commitTime =>
    .obj (memberOmitEmpty "binlogFile" (p.binlogFile = []) (jsonString p.binlogFile) ++
      memberOmitEmpty "binlogPos" (p.binlogPos = 0) (jsonInt p.binlogPos.toNat) ++
      memberOmitEmpty "lsn" (p.lsn = 0) (jsonInt p.lsn.toNat) ++
      memberOmitEmpty "scn" (p.scn = 0) (jsonInt p.scn.toNat) ++
      memberOmitEmpty "timestamp" (p.timestamp = 0) (jsonInt p.timestamp.toNat) ++
      memberOmitEmpty "order" (p.order = 0) (jsonInt p.order.toInt) ++
      memberOmitEmpty "resumeToken" (p.resumeToken = []) (jsonBytes p.resumeToken) ++
      memberOmitEmpty "changeLsn" (p.changeLsn = []) (jsonString p.changeLsn) ++
      memberOmitEmpty "seqVal" (p.seqVal = []) (jsonString p.seqVal) ++
      member "commitTime" commitTime ++
      memberOmitEmpty "txId" (p.txID = []) (jsonString p.txID) ++
      memberOmitEmpty "seqNo" (p.seqNo = 0) (jsonInt p.seqNo.toInt) ++
      memberOmitEmpty "total" (p.total = 0) (jsonInt p.total.toInt))

/-- How the members of the JSON form update a position. -/
def fields : List (Json.Field Position) :=
  [⟨lit "binlogFile", fun p j => (decodeString p.binlogFile j).map ({ p with binlogFile := · })⟩,
    ⟨lit "binlogPos", fun p j => (decodeUInt32 p.binlogPos j).map ({ p with binlogPos := · })⟩,
    ⟨lit "lsn", fun p j => (decodeUInt64 p.lsn j).map ({ p with lsn := · })⟩,
    ⟨lit "scn", fun p j => (decodeUInt64 p.scn j).map ({ p with scn := · })⟩,
    ⟨lit "timestamp", fun p j => (decodeUInt64 p.timestamp j).map ({ p with timestamp := · })⟩,
    ⟨lit "order", fun p j => (decodeInt64 p.order j).map ({ p with order := · })⟩,
    ⟨lit "resumeToken", fun p j => (decodeBytes p.resumeToken j).map ({ p with resumeToken := · })⟩,
    ⟨lit "changeLsn", fun p j => (decodeString p.changeLsn j).map ({ p with changeLsn := · })⟩,
    ⟨lit "seqVal", fun p j => (decodeString p.seqVal j).map ({ p with seqVal := · })⟩,
    ⟨lit "commitTime", fun p j => (Time.decode p.commitTime j).map ({ p with commitTime := · })⟩,
    ⟨lit "txId", fun p j => (decodeString p.txID j).map ({ p with txID := · })⟩,
    ⟨lit "seqNo", fun p j => (decodeInt64 p.seqNo j).map ({ p with seqNo := · })⟩,
    ⟨lit "total", fun p j => (decodeInt64 p.total j).map ({ p with total := · })⟩]

/-- Decode a position. -/
def decode : Json.Decoder Position := decodeStruct fields

/-- `json.Marshal` of a position; `none` is an encoding error. -/
def marshal (p : Position) : Option Bytes := p.toJson.map Json.marshal

variable {p : Position} {j : Json}

lemma marshal_ne_nil {data : Bytes} (h : p.marshal = some data) : data ≠ [] := by
  obtain ⟨_, hjson, rfl⟩ := map_eq_some_iff.mp h
  obtain ⟨_, -, rfl⟩ := map_eq_some_iff.mp hjson
  exact cons_ne_nil _ _

/-! ## Reading back a stored position -/

lemma ok_toJson (h : p.toJson = some j) : j.Ok := by
  obtain ⟨commitTime, htime, rfl⟩ := map_eq_some_iff.mp h
  -- The names of the members are decided; their values are numbers, strings and a time.
  simp (disch := first | decide | simp [Time.ok_toJson htime]) only [Json.Ok, okMembers_append,
    okMembers_memberOmitEmpty, okMembers_member, and_self]

lemma nesting_toJson (h : p.toJson = some j) : j.nesting = 1 := by
  obtain ⟨commitTime, htime, rfl⟩ := map_eq_some_iff.mp h
  rw [nesting]
  simp [nestingMembers_append, nestingMembers_memberOmitEmpty, Time.nesting_toJson htime]

lemma exists_decode_toJson (h : p.toJson = some j) (prev : Position) :
    ∃ p', decode prev j = some p' := by
  obtain ⟨commitTime, htime, rfl⟩ := map_eq_some_iff.mp h
  obtain ⟨t', ht'⟩ := Time.exists_decode_toJson htime
  refine isSome_iff_exists.mp (isSome_decodeMembers ?_ prev)
  refine (((((((((((Decodes.append ?_ ?_).append ?_).append ?_).append ?_).append ?_).append
    ?_).append ?_).append ?_).append ?_).append ?_).append ?_).append ?_
  case refine_10 => exact decodes_member (by decide) rfl fun prev => by simp [ht']
  all_goals
    refine decodes_memberOmitEmpty (by decide) rfl fun prev => ?_
    simp only [isSome_map, decodeString_jsonString, decodeUInt32_jsonInt,
      decodeUInt64_jsonInt, decodeInt64_jsonInt, decodeBytes_jsonBytes, isSome_some]

def unmarshal (data : Bytes) : Option Position := Json.unmarshal zero decode data

def isZero (p : Position) : Bool :=
  p.commitTime.isZero && p.binlogFile = [] && p.lsn = 0 && p.scn = 0 && p.timestamp = 0 &&
    p.changeLsn = [] && p.seqVal = [] && p.resumeToken = []

/-- `strings.Compare`: the order of the bytes. -/
def compareStrings (a b : Bytes) : ℤ := if a < b then -1 else if b < a then 1 else 0

def compareUint64 (a b : UInt64) : ℤ := if a < b then -1 else if b < a then 1 else 0

/-- `Compare`: two positions by the fields of their source. -/
def compare (p other : Position) : SourceType → Except Bytes ℤ
  | .postgres => .ok (compareUint64 p.lsn other.lsn)
  | .oracle => .ok (compareUint64 p.scn other.scn)
  | .sqlServer =>
    let c := compareStrings p.changeLsn other.changeLsn
    if c ≠ 0 then .ok c else .ok (compareStrings p.seqVal other.seqVal)
  | .mySQLFilePos =>
    let c := compareStrings p.binlogFile other.binlogFile
    if c ≠ 0 then .ok c
    else .ok (compareUint64 p.binlogPos.toUInt64 other.binlogPos.toUInt64)
  | .mySQLGTID =>
    .error (lit "MySQL GTID mode does not use Compare(); use gtid_set membership instead")
  | .mongoDB => .error (lit "MongoDB does not use Compare(); use SetResumeAfter() instead")
  | .unspecified => .error (lit "unsupported source type for comparison: 0")

end Position

end DataStream.Event
