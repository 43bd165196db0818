import DataStream.Foundations.Text

/-!
# The redo parser

`oracle.dmlParser`, a hand-written parser of the `SQL_REDO` texts of LogMiner. It moves a position
over the text; here a parser takes what is left of the text and returns what is left after it.

Two things can happen besides a result or an error. After skipping spaces the parser reads the next
byte without a check, and panics at the end of the text. And the loop over a value list does not
move when a value starts with a semicolon, so it never ends.
-/

namespace DataStream.Source.Oracle

open Text

inductive DmlType where
  | insert
  | update
  | delete
  deriving DecidableEq, Repr

/-- A parsed statement: raw values by column. -/
structure DmlEntry where
  type : DmlType
  newValues : GoMap Bytes
  oldValues : GoMap Bytes
  deriving DecidableEq

inductive DmlError where
  | empty
  | emptyAfterTrimming
  | unsupported (sql : Bytes)
  /-- A word was expected at a position; the text found there. -/
  | expected (word : Bytes) (pos : ℕ) (got : Bytes)
  | expectedParen (pos : ℕ)
  | expectedColumn (pos : ℕ)
  | countMismatch (columns values : ℕ)
  deriving DecidableEq

/-- How a parsing function ends, with what is left of the text. -/
inductive Parsed (α : Type) where
  | ok (value : α) (rest : Bytes)
  | error (err : DmlError)
  /-- An index beyond the end of the text. -/
  | panic
  | diverges
  deriving DecidableEq

/-- Go on with what was parsed. -/
def Parsed.bind {α β : Type} (p : Parsed α) (f : α → Bytes → Parsed β) : Parsed β :=
  match p with
  | .ok value rest => f value rest
  | .error err => .error err
  | .panic => .panic
  | .diverges => .diverges

/-! ## Words and values -/

variable (total : ℕ) (rest : Bytes)

def skipSpaces : Bytes := rest.dropWhile (· = 0x20)

def skipWhitespace : Bytes := rest.dropWhile fun c => c = 0x20 || c = 9 || c = 10 || c = 13

/-- `expect`: skip a word. `total` is the length of the whole text. -/
def expect (word rest : Bytes) : Parsed Unit :=
  if hasPrefixFold rest word then .ok () (rest.drop word.length)
  else .error (.expected word (total - rest.length) (rest.take word.length))

/-- `skipTableName`: up to a parenthesis or space outside double quotes. -/
def skipTableName (inQuote : Bool) : Bytes → Bytes
  | [] => []
  | c :: cs =>
    if c = 0x22 then skipTableName (!inQuote) cs
    else if !inQuote && (c = 0x28 || c = 0x20) then c :: cs
    else skipTableName inQuote cs

/-- `readQuotedName`: a name in double quotes, empty if there is none. -/
def readQuotedName : Bytes × Bytes :=
  match skipSpaces rest with
  -- A name that is not closed reaches to the end of the text.
  | 0x22 :: cs => (cs.takeWhile (· ≠ 0x22), (cs.dropWhile (· ≠ 0x22)).drop 1)
  | rest => ([], rest)

/-- What was read between two points of the text. -/
def between (start rest : Bytes) : Bytes := start.take (start.length - rest.length)

/-- The end of an `Unsupported` value. -/
def scanUnsupported : Bytes → Bytes
  | [] => []
  | c :: cs =>
    if c = 0x2C ∨ c = 0x3B ∨ c = 0x29 ∨ hasPrefixFold (c :: cs) (lit " and ") ∨
        hasPrefixFold (c :: cs) (lit " where ") then c :: cs
    else scanUnsupported cs

/-- The end of a function call or another value without quotes around it. -/
def scanValue (inQuote : Bool) (nested : ℕ) : ℕ → Bytes → Bytes
  | 0, rest => rest
  | _ + 1, [] => []
  | fuel + 1, c :: cs =>
    if inQuote then
      -- Two quotes inside a string stand for one and do not end it.
      if c = 0x27 then
        match cs with
        | 0x27 :: cs => scanValue true nested fuel cs
        | cs => scanValue false nested fuel cs
      else scanValue true nested fuel cs
    else if c = 0x27 then scanValue true nested fuel cs
    else if c = 0x28 then scanValue false (nested + 1) fuel cs
    -- A parenthesis that was not opened here closes the list around the value.
    else if c = 0x29 then
      if 0 < nested then scanValue false (nested - 1) fuel cs else c :: cs
    else if nested = 0 then
      -- A concatenation goes on; a comma, a semicolon or a keyword ends the value.
      if c = 0x20 ∧ cs.head? = some 0x7C then scanValue false 0 fuel cs
      else if c = 0x7C ∧ cs.head? = some 0x7C then scanValue false 0 fuel (skipSpaces cs.tail)
      else if c = 0x2C ∨ c = 0x3B then c :: cs
      else if c = 0x20 ∧ (hasPrefixFold (c :: cs) (lit " and ") ∨
          hasPrefixFold (c :: cs) (lit " where ") ∨ hasPrefixFold (c :: cs) (lit " set ")) then
        c :: cs
      else scanValue false 0 fuel cs
    else scanValue false nested fuel cs

/-- The rest after the closing quote of a string whose opening quote is skipped; `none` if it is
not closed. -/
def scanString : Bytes → Option Bytes
  | [] => none
  | 0x27 :: 0x27 :: cs => scanString cs
  | 0x27 :: cs => some cs
  | _ :: cs => scanString cs

/-- `readValue` and `readQuotedString`, which call each other at a concatenation. -/
def readValue : ℕ → Bytes → Bytes × Bytes
  | 0, rest => ([], rest)
  | fuel + 1, rest =>
    let rest := skipSpaces rest
    match rest with
    | [] => ([], [])
    | 0x27 :: cs =>
      match scanString cs with
      | none => (rest, [])
      | some saved =>
        -- Blanks after the string are given back unless a concatenation follows.
        match skipSpaces saved with
        | 0x7C :: 0x7C :: cs =>
          let next := readValue fuel (skipSpaces cs)
          (between rest saved ++ lit " || " ++ next.1, next.2)
        | _ => (between rest saved, saved)
    | _ =>
      -- The keywords are recognised as prefixes, also of longer words.
      if hasPrefixFold rest (lit "NULL") then (lit "NULL", rest.drop 4)
      else if hasPrefixFold rest (lit "Unsupported Type") then
        (lit "Unsupported Type", rest.drop 16)
      else if hasPrefixFold rest (lit "Unsupported") then
        let next := scanUnsupported rest
        (trimSpace (between rest next), next)
      else
        let next := scanValue false 0 rest.length rest
        (trimSpace (between rest next), next)

/-! ## Lists and clauses -/

/-- Record the value of a column, unless its type is unsupported. -/
def setValue (values : GoMap Bytes) (col val : Bytes) : GoMap Bytes :=
  if val = lit "Unsupported Type" then values else values.insert col val

/-- The loop of `parseColumnList`, after the opening parenthesis. -/
def parseColumns (total : ℕ) : ℕ → List Bytes → Bytes → Parsed (List Bytes)
  | 0, _, _ => .diverges
  | _ + 1, cols, [] => .ok cols []
  | fuel + 1, cols, rest@(_ :: _) =>
    match skipSpaces rest with
    -- The end of the text was checked before the blanks were skipped.
    | [] => .panic
    | 0x29 :: cs => .ok cols cs
    | 0x2C :: cs => parseColumns total fuel cols cs
    | rest =>
      let (name, rest) := readQuotedName rest
      if name = [] then .error (.expectedColumn (total - rest.length))
      else parseColumns total fuel (cols ++ [name]) rest

def parseColumnList : Parsed (List Bytes) :=
  match skipSpaces rest with
  | 0x28 :: cs => parseColumns total (cs.length + 1) [] cs
  | rest => .error (.expectedParen (total - rest.length))

/-- The loop of `parseValueList`, after the parenthesis. A turn that does not move repeats
forever. -/
def parseValues : ℕ → List Bytes → Bytes → Parsed (List Bytes)
  | 0, _, _ => .diverges
  | _ + 1, vals, [] => .ok vals []
  | fuel + 1, vals, rest@(_ :: _) =>
    match skipSpaces rest with
    | [] => .panic
    | 0x29 :: cs => .ok vals cs
    | c :: cs =>
      -- A missing comma is not noticed.
      let start := if c = 0x2C then skipSpaces cs else c :: cs
      let (val, next) := readValue (start.length + 1) start
      if next.length = rest.length then .diverges
      else parseValues fuel (vals ++ [val]) next

def parseValueList (total numCols : ℕ) (rest : Bytes) : Parsed (List Bytes) :=
  match skipSpaces rest with
  | 0x28 :: cs =>
    (parseValues (cs.length + 1) [] cs).bind fun vals rest =>
      if vals.length ≠ numCols then .error (.countMismatch numCols vals.length)
      else .ok vals rest
  | rest => .error (.expectedParen (total - rest.length))

def parseSets : ℕ → GoMap Bytes → Bytes → Parsed (GoMap Bytes)
  | 0, _, _ => .diverges
  | _ + 1, result, [] => .ok result []
  | fuel + 1, result, rest@(_ :: _) =>
    let rest := skipSpaces rest
    if hasPrefixFold rest (lit "where ") then .ok result rest
    else
      match rest with
      | [] => .panic
      | 0x3B :: _ => .ok result rest
      | _ =>
        let (col, rest) := readQuotedName rest
        if col = [] then .ok result rest
        else
          -- The equals sign and the comma are skipped if they are there.
          let rest := skipSpaces rest
          let rest := skipSpaces (if rest.head? = some 0x3D then rest.tail else rest)
          let (val, rest) := readValue (rest.length + 1) rest
          let rest := skipSpaces rest
          parseSets fuel (setValue result col val)
            (if rest.head? = some 0x2C then rest.tail else rest)

def parseSetClause : Parsed (GoMap Bytes) :=
  (expect total (lit "set ") (skipSpaces rest)).bind fun _ rest =>
    parseSets (rest.length + 1) [] rest

/-- Skip the word that joins two conditions. -/
def skipConnective : Bytes :=
  let rest := skipSpaces rest
  if hasPrefixFold rest (lit "and ") then rest.drop 4
  else if hasPrefixFold rest (lit "or ") then rest.drop 3
  else rest

def parseConditions : ℕ → GoMap Bytes → Bytes → Parsed (GoMap Bytes)
  | 0, _, _ => .diverges
  | _ + 1, result, [] => .ok result []
  | fuel + 1, result, rest@(_ :: _) =>
    match skipSpaces rest with
    | [] => .panic
    | 0x3B :: cs => .ok result (0x3B :: cs)
    | rest =>
      let (col, rest) := readQuotedName rest
      if col = [] then .ok result rest
      else
        let rest := skipSpaces rest
        if hasPrefixFold rest (lit "IS NULL") then
          parseConditions fuel (result.insert col (lit "NULL")) (skipConnective (rest.drop 7))
        else
          let rest := skipSpaces (if rest.head? = some 0x3D then rest.tail else rest)
          let (val, rest) := readValue (rest.length + 1) rest
          parseConditions fuel (setValue result col val) (skipConnective rest)

def parseWhereClause : Parsed (GoMap Bytes) :=
  (expect total (lit "where ") rest).bind fun _ rest => parseConditions (rest.length + 1) [] rest

/-! ## Statements -/

def parseInsert : Parsed DmlEntry :=
  (expect total (lit "insert into ") rest).bind fun _ rest =>
  (parseColumnList total (skipTableName false rest)).bind fun cols rest =>
  (expect total (lit "values ") (skipSpaces rest)).bind fun _ rest =>
  (parseValueList total cols.length rest).bind fun vals rest =>
    .ok
      { type := .insert
        newValues := (cols.zip vals).foldl (fun values (col, val) => setValue values col val) []
        oldValues := [] } rest

def parseUpdate : Parsed DmlEntry :=
  (expect total (lit "update ") rest).bind fun _ rest =>
  (parseSetClause total (skipTableName false rest)).bind fun newValues rest =>
    let rest := skipSpaces rest
    if hasPrefixFold rest (lit "where ") then
      (parseWhereClause total rest).bind fun oldValues rest =>
        .ok { type := .update, newValues, oldValues } rest
    else .ok { type := .update, newValues, oldValues := [] } rest

def parseDelete : Parsed DmlEntry :=
  (expect total (lit "delete from ") rest).bind fun _ rest =>
  (parseWhereClause total (skipSpaces (skipTableName false rest))).bind fun oldValues rest =>
    .ok { type := .delete, newValues := [], oldValues } rest

def parse (sql : Bytes) : Parsed DmlEntry :=
  if sql = [] then .error .empty
  else
    match skipWhitespace sql with
    | [] => .error .emptyAfterTrimming
    | c :: cs =>
      -- The mask turns upper case letters into lower case ones.
      if c ||| 0x20 = 0x69 then parseInsert sql.length (c :: cs)
      else if c ||| 0x20 = 0x75 then parseUpdate sql.length (c :: cs)
      else if c ||| 0x20 = 0x64 then parseDelete sql.length (c :: cs)
      else .error (.unsupported sql)

end DataStream.Source.Oracle
