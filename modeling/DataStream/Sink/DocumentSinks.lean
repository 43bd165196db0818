import DataStream.Foundations.GoMap
import DataStream.Foundations.Text
import DataStream.Sink.HashDispatcher

/-!
# Document and key stores as sinks

The Elasticsearch and the Redis sink map every change on its own to one action: an insert and an
update write the `After` image under an id made of its key, a delete removes what stands under the
id of the `Before` image. The texts of several key columns are joined by an underscore.

The stores are what the documentation of their actions says. An Elasticsearch update merges the
document into the one that is there, member by member and into the objects inside, and stores it if
there is none (`doc_as_upsert`). A Redis `HSET` sets fields of a hash and leaves the others alone;
`SET` replaces a string. Limits of the servers and the expiry of keys are not modelled.
-/

namespace DataStream.Sink

open Bytes Event Text Function

/-! ## What both sinks share -/

/-- The texts of the key columns that a row image has, joined by an underscore: the body of
`DocumentMapper.GenerateDocID` and the first half of `PipelineWriter.generateKey`. -/
def joinedKey (f : Formatter) (row : RowData) (pkColumns : List Bytes) : Bytes :=
  (lit "_").intercalate
    (pkColumns.filterMap fun col => (row.getField col).map fun field => f.value field.value)

/-- The values of a row image by their names, as a loop over the fields collects them. -/
def fieldValues (row : RowData) : GoMap GoValue :=
  GoMap.insertAll [] (row.entries.map fun entry => (entry.1, entry.2.value))

/-! ## Elasticsearch -/

namespace Elasticsearch

/-- `elasticsearch.Config`, as far as the mapping reads it. -/
structure Config where
  indexPrefix : Bytes
  indexPattern : Bytes
  deriving DecidableEq, Repr

/-- `DefaultConfig`, with the braces of the pattern as character codes. -/
def defaultConfig : Config where
  indexPrefix := []
  indexPattern := lit "\x7bdatabase\x7d_\x7btable\x7d"

/-- `BulkAction`, by its operation. -/
inductive BulkAction where
  | index (index id : Bytes) (doc : GoMap GoValue)
  | update (index id : Bytes) (doc : GoMap GoValue)
  | delete (index id : Bytes)

variable (toLower : Bytes → Bytes) (f : Formatter) (cfg : Config)

def generateDocID (row : RowData) (pkColumns : List Bytes) : Bytes := joinedKey f row pkColumns

/-- `DocumentMapper.ResolveIndex`; `toLower` is `strings.ToLower`. -/
def resolveIndex (table : TableInfo) : Bytes :=
  let indexName := cfg.indexPattern
  let indexName := replaceAll indexName (lit "\x7bdatabase\x7d") (toLower table.database)
  let indexName := replaceAll indexName (lit "\x7btable\x7d") (toLower table.table)
  if cfg.indexPrefix ≠ [] then cfg.indexPrefix ++ indexName else indexName

def buildDocument (row : RowData) : GoMap GoValue := fieldValues row

/-- `DocumentMapper.MapEvent`; `none` is nil. -/
def mapEvent (e : ChangeEvent) : Option BulkAction :=
  match e.type with
  | .insert => some (.index (resolveIndex toLower cfg e.table)
      (generateDocID f e.after e.table.primaryKeyColumns) (buildDocument e.after))
  | .update => some (.update (resolveIndex toLower cfg e.table)
      (generateDocID f e.after e.table.primaryKeyColumns) (buildDocument e.after))
  | .delete => some (.delete (resolveIndex toLower cfg e.table)
      (generateDocID f e.before e.table.primaryKeyColumns))
  | _ => none

mutual

/-- What is left of an old value when a new one is merged into it: an object keeps the members
that the new one does not have, anything else is replaced. -/
def mergeValue : (new old : GoValue) → GoValue
  | .map entries, .map old => .map (mergeEntries entries old)
  | new, _ => new

/-- Merge the members of an object into those of another. -/
def mergeEntries : (entries : List (Bytes × GoValue)) → (old : GoMap GoValue) → GoMap GoValue
  | [], old => old
  | (key, new) :: entries, old =>
    mergeEntries entries (old.insert key (match old.get? key with
      | some value => mergeValue new value
      | none => new))

end

/-- The documents of a cluster, by index and id. -/
abbrev Store := Bytes × Bytes → Option (GoMap GoValue)

def Store.act (store : Store) : BulkAction → Store
  | .index index id doc => update store (index, id) (some doc)
  | .update index id doc =>
    update store (index, id) (some (match store (index, id) with
      | some old => mergeEntries doc old
      | none => doc))
  | .delete index id => update store (index, id) none

/-- The documents after the mapped actions of some events, in order. -/
def write (events : List ChangeEvent) : Store :=
  (events.filterMap (mapEvent toLower f cfg)).foldl Store.act fun _ => none

end Elasticsearch

/-! ## Redis -/

namespace Redis

/-- The formats that `Config.Validate` accepts. -/
inductive Format where
  | hash
  | json
  | string
  deriving DecidableEq, Repr

/-- `redis.Config`, as far as the commands depend on it. -/
structure Config where
  keyPattern : Bytes
  format : Format
  /-- In nanoseconds; 0 is no expiration. -/
  ttl : Int64

/-- `DefaultConfig`, with the braces of the pattern as character codes. -/
def defaultConfig : Config where
  keyPattern := lit "\x7bdatabase\x7d:\x7btable\x7d:\x7bpk\x7d"
  format := .hash
  ttl := 0

/-- `RedisCommand`, by its operation. -/
inductive RedisCommand where
  | hset (key : Bytes) (fields : GoMap GoValue) (ttl : Int64)
  | set (key value : Bytes) (ttl : Int64)
  | del (key : Bytes)

/-- The placeholder of the key. -/
def pkPlaceholder : Bytes := lit "\x7bpk\x7d"

variable (f : Formatter) (cfg : Config) (table : TableInfo)

/-- The key pattern with the names of the table filled in. -/
def tablePattern : Bytes :=
  replaceAll (replaceAll cfg.keyPattern (lit "\x7bdatabase\x7d") table.database)
    (lit "\x7btable\x7d") table.table

def generateKey (row : RowData) (pkColumns : List Bytes) : Bytes :=
  replaceAll (tablePattern cfg table) pkPlaceholder (joinedKey f row pkColumns)

/-- `json.Marshal` of a map; an error is ignored and leaves the empty text. -/
def marshalFields (fields : GoMap GoValue) : Bytes :=
  (((GoValue.map fields).toJson).map Json.marshal).getD []

/-- `PipelineWriter.buildCommand`; `none` is nil. -/
def buildCommand (e : ChangeEvent) : Option RedisCommand :=
  let pkColumns := e.table.primaryKeyColumns
  match e.type with
  | .delete => some (.del (generateKey f cfg e.table e.before pkColumns))
  | .insert | .update =>
    let key := generateKey f cfg e.table e.after pkColumns
    match cfg.format with
    | .hash => some (.hset key (fieldValues e.after) cfg.ttl)
    | .json | .string => some (.set key (marshalFields (fieldValues e.after)) cfg.ttl)
  | _ => none

inductive Stored where
  | hash (fields : GoMap GoValue)
  | text (value : Bytes)

abbrev Store := Bytes → Option Stored

def Store.execute (store : Store) : RedisCommand → Store
  | .hset key fields _ =>
    match store key with
    | none => update store key (some (.hash (GoMap.insertAll [] fields)))
    | some (.hash old) => update store key (some (.hash (old.insertAll fields)))
    -- `HSET` fails on a key that holds a string.
    | some (.text _) => store
  | .set key value _ => update store key (some (.text value))
  | .del key => update store key none

/-- The keys after the commands of some events, in order. -/
def write (events : List ChangeEvent) : Store :=
  (events.filterMap (buildCommand f cfg)).foldl Store.execute fun _ => none

end Redis

end DataStream.Sink
