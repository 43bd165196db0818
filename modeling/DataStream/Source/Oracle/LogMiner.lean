import DataStream.Event.Row
import DataStream.Foundations.GoMap
import DataStream.Foundations.Machine
import DataStream.Foundations.Watermark
import DataStream.Source.Oracle.DmlParser

/-!
# Polling LogMiner

`oracle.LogMinerReader` and `pollChanges` of the connector. A poll asks for the current system
change number, reads a limited number of redo rows above the number it holds, emits their events
and takes over the current number.

* `get_concatenated_iff`: when literals joined by `||` become one string;
* `emitted_eq_owed`: in every run of lossless polls each row is emitted once and in order.
-/

namespace DataStream.Source.Oracle

open Event Text List Option

/-! ## Rows -/

def parseValue (raw : Bytes) : GoValue :=
  let raw := trimSpace raw
  if equalFold raw (lit "NULL") then .nil
  else if 2 ≤ raw.length ∧ raw.head? = some 0x27 ∧ raw.getLast? = some 0x27 then
    .string (undouble 0x27 (raw.tail.dropLast))
  else
    -- An integer first, then a float; what is neither stays text.
    match parseInt64 raw with
    | some i => .int i
    | none => (parseFloat64 raw).getD (.string raw)

def isNil : GoValue → Bool
  | .nil => true
  | _ => false

def entryToRowData (vals : GoMap Bytes) : RowData :=
  let fields : GoMap RowField := vals.foldl (fun fields (col, raw) =>
    let value := parseValue raw
    GoMap.insert fields col { name := col, value, type := [], null := isNil value }) []
  { fields := some fields }

/-- `mergeUpdateValues`: the new values, completed by the old ones. -/
def mergeUpdateValues (entry : DmlEntry) : GoMap Bytes :=
  entry.oldValues.foldl (fun values (col, val) =>
    if (values.get? col).isSome then values else values.insert col val) entry.newValues

/-- A row of `V$LOGMNR_CONTENTS`. -/
structure RedoRow where
  scn : ℕ
  /-- The column `SQL_REDO`; `none` is NULL. -/
  sqlRedo : Option Bytes
  opCode : ℤ
  tableName : Bytes
  segOwner : Bytes
  timestamp : Time

namespace RedoRow

/-- The operations that the query selects: insert, delete, update and DDL. -/
def Selected (row : RedoRow) : Prop :=
  row.opCode = 1 ∨ row.opCode = 2 ∨ row.opCode = 3 ∨ row.opCode = 5
  deriving Decidable

end RedoRow

open RedoRow

inductive RowOutcome where
  | event (ev : ChangeEvent)
  /-- The row is skipped because its text does not parse. -/
  | dropped
  /-- The parser panics or does not end. -/
  | stuck

/-- The event of a row whose redo text is parsed first. -/
def dmlOutcome (row : RedoRow) (toEvent : DmlEntry → ChangeEvent) : RowOutcome :=
  match parse (row.sqlRedo.getD []) with
  | .ok entry _ => .event (toEvent entry)
  | .error _ => .dropped
  | .panic | .diverges => .stuck

/-- The body of the loop of `parseRows`, for the row with a sequence number in its batch. -/
def rowOutcome (serviceName : Bytes) (seqNo : ℕ) (row : RedoRow) : RowOutcome :=
  let base : ChangeEvent :=
    { ChangeEvent.zero with
      id := generateEventID (lit "oracle") serviceName row.timestamp seqNo
      table := { TableInfo.zero with
        database := row.segOwner, schema := row.segOwner, table := row.tableName }
      source := { SourceInfo.zero with connector := lit "oracle", database := serviceName }
      timestamp := row.timestamp
      position := { Position.zero with scn := UInt64.ofNat row.scn, commitTime := row.timestamp } }
  -- The operation codes of LogMiner: 1 insert, 2 delete, 3 update, 5 DDL.
  if row.opCode = 1 then
    dmlOutcome row fun entry =>
      { base with type := .insert, after := entryToRowData entry.newValues }
  else if row.opCode = 2 then
    dmlOutcome row fun entry =>
      { base with type := .delete, before := entryToRowData entry.oldValues }
  else if row.opCode = 3 then
    dmlOutcome row fun entry =>
      { base with
        type := .update
        after := entryToRowData (mergeUpdateValues entry)
        before := entryToRowData entry.oldValues }
  else if row.opCode = 5 then
    .event { base with type := .ddl, metadata := [(lit "sql", row.sqlRedo.getD [])] }
  else .dropped

/-- `parseRows`: the rows that become events, with their events; `none` if the call does not
return. -/
def parseRows (serviceName : Bytes) : ℕ → List RedoRow → Option (List (RedoRow × ChangeEvent))
  | _, [] => some []
  | seqNo, row :: rows =>
    match rowOutcome serviceName (seqNo + 1) row with
    | .stuck => none
    -- A row that does not parse is logged and uses up its sequence number.
    | .dropped => parseRows serviceName (seqNo + 1) rows
    | .event ev => (parseRows serviceName (seqNo + 1) rows).map ((row, ev) :: ·)

/-! ## Concatenated literals -/

variable (s : Bytes) (rest : List (ℕ × ℕ × Bytes))

/-- A text with its quotes doubled. -/
def doubled : Bytes := s.flatMap fun b => if b = 0x27 then [b, b] else [b]

/-- A literal that others are joined to by `||`, with blanks before and after. -/
def concatenated : Bytes :=
  0x27 :: (doubled s ++ 0x27 :: rest.flatMap fun (before, after, t) =>
    List.replicate before 0x20 ++ lit "||" ++ List.replicate after 0x20 ++
      0x27 :: (doubled t ++ [0x27]))

/-- What `readValue` returns for the literals, without the quotes around it. -/
def joined : Bytes :=
  doubled s ++ rest.flatMap fun part => 0x27 :: (lit " || " ++ 0x27 :: doubled part.2.2)

section Concatenation

variable (s : Bytes) {rest : List (ℕ × ℕ × Bytes)} {tail : Bytes}

lemma scanString_doubled (h : tail.head? ≠ some 0x27) :
    scanString (doubled s ++ 0x27 :: tail) = some tail := by
  induction s with
  | nil => rcases tail with _ | ⟨b, tail⟩ <;> simp_all [doubled, scanString]
  | cons b s ih => by_cases hb : b = 0x27 <;> simpa [doubled, scanString, hb] using ih

lemma skipSpaces_replicate (n : ℕ) {c : UInt8} (hc : c ≠ 0x20) :
    skipSpaces (List.replicate n 0x20 ++ c :: tail) = c :: tail := by
  rw [skipSpaces, dropWhile_append_of_pos (by simp)]
  simp [hc]

lemma between_literal (tail : Bytes) :
    between (0x27 :: (doubled s ++ 0x27 :: tail)) tail = 0x27 :: (doubled s ++ [0x27]) := by
  have hsplit : 0x27 :: (doubled s ++ 0x27 :: tail) = 0x27 :: (doubled s ++ [0x27]) ++ tail := by
    simp
  rw [hsplit, between, length_append, Nat.add_sub_cancel, take_left]

/-- Literals are read up to the end of the last one. -/
lemma readValue_concatenated (hquote : tail.head? ≠ some 0x27)
    (hbar : (skipSpaces tail).head? ≠ some 0x7C) {fuel : ℕ} (hfuel : rest.length < fuel) :
    readValue fuel (concatenated s rest ++ tail) = (0x27 :: (joined s rest ++ [0x27]), tail) := by
  have hskip (l : Bytes) : skipSpaces (0x27 :: l) = 0x27 :: l := rfl
  have hbars : lit "||" = [0x7C, 0x7C] := rfl
  induction rest generalizing s fuel with
  | nil =>
    obtain _ | fuel := fuel
    · exact absurd hfuel (Nat.not_lt_zero _)
    have hend : ∀ cs, skipSpaces tail ≠ 0x7C :: 0x7C :: cs := fun cs hcs => hbar (by rw [hcs]; rfl)
    have htext : concatenated s [] ++ tail = 0x27 :: (doubled s ++ 0x27 :: tail) := by
      simp [concatenated]
    simp only [htext, readValue, hskip, scanString_doubled s hquote, between_literal]
    simp [joined]
  | cons part rest ih =>
    obtain ⟨before, after, t⟩ := part
    obtain _ | fuel := fuel
    · exact absurd hfuel (Nat.not_lt_zero _)
    have hquote' (l : Bytes) : (List.replicate before 0x20 ++ 0x7C :: l).head? ≠ some 0x27 := by
      cases before <;> simp [replicate_succ]
    have htext : concatenated s ((before, after, t) :: rest) ++ tail =
        0x27 :: (doubled s ++ 0x27 :: (List.replicate before 0x20 ++ 0x7C :: 0x7C ::
          (List.replicate after 0x20 ++ (concatenated t rest ++ tail)))) := by
      simp [concatenated, hbars]
    have hnext : skipSpaces (List.replicate after 0x20 ++ (concatenated t rest ++ tail)) =
        concatenated t rest ++ tail := skipSpaces_replicate after (by decide)
    simp only [htext, readValue, hskip, scanString_doubled s (hquote' _), between_literal,
      skipSpaces_replicate before (show (0x7C : UInt8) ≠ 0x20 by decide), hnext,
      ih t (Nat.lt_of_succ_lt_succ hfuel)]
    simp [joined]

lemma undouble_doubled : undouble 0x27 (doubled s) = s := by
  induction s with
  | nil => rfl
  | cons b s ih =>
    by_cases hb : b = 0x27
    · simp_all [doubled, undouble]
    · have hcons : ∀ l : Bytes, undouble 0x27 (b :: l) = b :: undouble 0x27 l := by
        rintro (_ | ⟨c, l⟩) <;> simp [undouble, hb]
      have hdoubled : doubled (b :: s) = b :: doubled s := by simp [doubled, hb]
      rw [hdoubled, hcons, ih]

lemma count_undouble : (undouble 0x27 s).count 0x7C = s.count 0x7C := by
  fun_induction undouble <;> simp_all [count_cons]

lemma count_joined : (joined s rest).count 0x7C =
    2 * rest.length + (s ++ rest.flatMap fun part => part.2.2).count 0x7C := by
  have hdoubled (s : Bytes) : (doubled s).count 0x7C = s.count 0x7C := by
    rw [← count_undouble, undouble_doubled]
  have hjoint : (lit " || ").count 0x7C = 2 := rfl
  simp only [joined, count_append, hdoubled]
  induction rest with
  | nil => simp
  | cons part rest ih =>
    simp only [flatMap_cons, count_append, count_cons, hdoubled, hjoint, length_cons]
    simp
    omega

lemma parseValue_quoted : parseValue (0x27 :: (s ++ [0x27])) = .string (undouble 0x27 s) := by
  have hleft (n : ℕ) (l : Bytes) : dropWords spaces n (0x27 :: l) = 0x27 :: l := by
    cases n <;> rfl
  have hright (n : ℕ) (l : Bytes) :
      dropWords (spaces.map List.reverse) n (0x27 :: l) = 0x27 :: l := by
    cases n <;> rfl
  have hreverse : (0x27 :: (s ++ [0x27])).reverse = 0x27 :: (s.reverse ++ [0x27]) := by simp
  have htrim : trimSpace (0x27 :: (s ++ [0x27])) = 0x27 :: (s ++ [0x27]) := by
    rw [trimSpace, hleft, hreverse, hright, ← hreverse, reverse_reverse]
  have hnull : equalFold (0x27 :: (s ++ [0x27])) (lit "NULL") = false := by
    have hword : lit "NULL" = [0x4E, 0x55, 0x4C, 0x4C] := rfl
    simp [equalFold, lower, hword]
  have hlast : (0x27 :: (s ++ [0x27])).getLast? = some 0x27 := by
    rw [← cons_append, getLast?_concat]
  rw [parseValue, htrim]
  simp [hnull, hlast]

lemma get_entryToRowData {values : GoMap Bytes} (hkeys : (values.map Prod.fst).Nodup)
    (col : Bytes) : (entryToRowData values).get col = (values.get? col).map parseValue := by
  have hfields : (entryToRowData values).entries = GoMap.insertAll [] (values.map fun entry =>
      (entry.1, ⟨entry.1, parseValue entry.2, [], isNil (parseValue entry.2)⟩)) := by
    rw [GoMap.insertAll, foldl_map]
    rfl
  rw [RowData.get, RowData.getField, hfields,
    GoMap.get?_insertAll_nil (by simpa [Function.comp_def] using hkeys)]
  simp [GoMap.get?, find?_map, Function.comp_def]

/-- A column read from literals has the concatenation of their strings exactly if there is a single
one. -/
theorem get_concatenated_iff {values : GoMap Bytes} {col : Bytes} {fuel : ℕ}
    (hkeys : (values.map Prod.fst).Nodup) (hquote : tail.head? ≠ some 0x27)
    (hbar : (skipSpaces tail).head? ≠ some 0x7C) (hfuel : rest.length < fuel)
    (hvalue : values.get? col = some (readValue fuel (concatenated s rest ++ tail)).1) :
    (entryToRowData values).get col = some (.string (s ++ rest.flatMap fun part => part.2.2)) ↔
      rest = [] := by
  rw [readValue_concatenated s hquote hbar hfuel] at hvalue
  rw [get_entryToRowData hkeys, hvalue, map_some, parseValue_quoted, some.injEq,
    GoValue.string.injEq]
  constructor
  · intro heq
    have hcount := congrArg (List.count 0x7C) heq
    rw [count_undouble, count_joined] at hcount
    exact length_eq_zero_iff.mp (by omega)
  · rintro rfl
    simp [joined, undouble_doubled]

end Concatenation

theorem get_concatenated_single :
    (entryToRowData [(lit "C", lit "'a'")]).get (lit "C") = some (.string (lit "a")) :=
  (@get_concatenated_iff (lit "a") [] (lit ")") [(lit "C", lit "'a'")] (lit "C") 1 (by decide)
    (by decide) (by decide) (by decide) rfl).mpr rfl

/-- `'a' || 'b'` becomes `a' || 'b`. -/
theorem not_get_concatenated_sample :
    ¬(entryToRowData [(lit "C", (readValue 2 (concatenated (lit "a") [(1, 1, lit "b")])).1)]).get
      (lit "C") = some (.string (lit "ab")) := by
  decide

/-! ## Polls -/

/-- The configuration that a poll reads. -/
structure Config where
  serviceName : Bytes
  batchSize : ℕ

/-- What the database answers in one poll. -/
structure Poll where
  currentSCN : ℕ
  /-- The rows of `V$LOGMNR_CONTENTS` when they are queried, in the order of their numbers. -/
  contents : List RedoRow

/-- Where a poll starts; a reader without a number starts just below the current one. -/
def startSCN (scn currentSCN : ℕ) : ℕ := if scn = 0 then currentSCN - 1 else scn

variable (cfg : Config)

/-- The rows that the query of `queryChanges` returns. -/
def queryRows (startSCN : ℕ) (contents : List RedoRow) : List RedoRow :=
  (contents.filter fun row => startSCN < row.scn ∧ row.Selected).take cfg.batchSize

/-- `ReadChanges`, when the queries succeed. -/
def readChanges (scn : ℕ) (poll : Poll) : Option (List (RedoRow × ChangeEvent) × ℕ) :=
  let start := startSCN scn poll.currentSCN
  -- The number held moves on to the current one, whatever the batch has reached.
  if poll.currentSCN ≤ start then some ([], poll.currentSCN)
  else
    (parseRows cfg.serviceName 0 (queryRows cfg start poll.contents)).map (·, poll.currentSCN)

structure Poller where
  /-- The number that the reader holds. -/
  scn : ℕ
  stuck : Bool

/-- `pollChanges` as a machine; its effects are the rows whose events are put on the channel. -/
def poller : Machine Poller Poll (RedoRow × ChangeEvent) where
  step s poll :=
    if s.stuck then (s, [])
    else
      match readChanges cfg s.scn poll with
      | none => ({ s with stuck := true }, [])
      | some (changes, lastSCN) =>
        ({ s with scn := if 0 < lastSCN then lastSCN else s.scn }, changes)

/-! ## Which rows become events -/

namespace RedoRow

/-- The row becomes an event: it is a DDL row, or its redo text parses. -/
def Emits (row : RedoRow) : Prop :=
  row.opCode = 5 ∨ ∃ entry rest, parse (row.sqlRedo.getD []) = .ok entry rest

/-- The row is skipped: its redo text is rejected. -/
def IsDropped (row : RedoRow) : Prop :=
  row.opCode ≠ 5 ∧ ∃ err, parse (row.sqlRedo.getD []) = .error err

end RedoRow

variable (serviceName : Bytes)

lemma rowOutcome_of_emits (seqNo : ℕ) {row : RedoRow} (hsel : row.Selected) (h : row.Emits) :
    ∃ ev, rowOutcome serviceName seqNo row = .event ev := by
  rcases h with h | ⟨entry, rest, h⟩
  · simp [rowOutcome, h]
  · rcases hsel with hop | hop | hop | hop <;> simp [rowOutcome, dmlOutcome, hop, h]

lemma rowOutcome_of_isDropped (seqNo : ℕ) {row : RedoRow} (h : row.IsDropped) :
    rowOutcome serviceName seqNo row = .dropped := by
  obtain ⟨hop, err, herr⟩ := h
  simp [rowOutcome, dmlOutcome, hop, herr]

/-- Rows that emit become events in order; rows that are dropped leave no trace. -/
theorem parseRows_append {rows dropped : List RedoRow}
    (hrows : ∀ row ∈ rows, row.Selected ∧ row.Emits) (hdropped : ∀ row ∈ dropped, row.IsDropped)
    (seqNo : ℕ) :
    ∃ changes, parseRows serviceName seqNo (rows ++ dropped) = some changes ∧
      changes.map Prod.fst = rows := by
  -- First along the rows that emit, then along those that are dropped.
  induction rows generalizing seqNo with
  | nil =>
    refine ⟨[], ?_, rfl⟩
    rw [nil_append]
    induction dropped generalizing seqNo with
    | nil => rfl
    | cons row dropped ih =>
      have hrow := rowOutcome_of_isDropped serviceName (seqNo + 1) (hdropped row mem_cons_self)
      rw [parseRows, hrow]
      exact ih (fun row hmem => hdropped row (mem_cons_of_mem _ hmem)) (seqNo + 1)
  | cons row rows ih =>
    obtain ⟨hsel, hemits⟩ := hrows row mem_cons_self
    obtain ⟨ev, hev⟩ := rowOutcome_of_emits serviceName (seqNo + 1) hsel hemits
    obtain ⟨changes, hchanges, hfst⟩ :=
      ih (fun row hmem => hrows row (mem_cons_of_mem _ hmem)) (seqNo + 1)
    refine ⟨(row, ev) :: changes, ?_, ?_⟩
    · rw [cons_append, parseRows, hev, hchanges]
      rfl
    · rw [map_cons, hfst]

lemma event_of_mem_parseRows {serviceName : Bytes} {seqNo : ℕ} {rows : List RedoRow}
    {changes : List (RedoRow × ChangeEvent)} (h : parseRows serviceName seqNo rows = some changes)
    {change : RedoRow × ChangeEvent} (hmem : change ∈ changes) :
    ∃ seqNo, rowOutcome serviceName seqNo change.1 = .event change.2 := by
  induction rows generalizing seqNo changes with
  | nil =>
    obtain rfl := some.inj h
    cases hmem
  | cons row rows ih =>
    rw [parseRows] at h
    split at h
    · cases h
    · exact ih h hmem
    · rename_i ev hev
      obtain ⟨changes', hchanges', rfl⟩ := map_eq_some_iff.mp h
      rcases mem_cons.mp hmem with rfl | hmem
      · exact ⟨seqNo + 1, hev⟩
      · exact ih hchanges' hmem

lemma event_of_mem_run (s : Poller) (polls : List Poll) :
    ∀ change ∈ ((poller cfg).run s polls).2,
      ∃ seqNo, rowOutcome cfg.serviceName seqNo change.1 = .event change.2 := by
  refine (poller cfg).run_induction (motive := fun _ changes => ∀ change ∈ changes,
    ∃ seqNo, rowOutcome cfg.serviceName seqNo change.1 = .event change.2) polls (by simp) ?_
  intro s changes poll hchanges change hmem
  rcases mem_append.mp hmem with hmem | hmem
  · exact hchanges change hmem
  · rw [poller] at hmem
    dsimp only at hmem
    split at hmem
    · cases hmem
    · split at hmem
      · cases hmem
      · rename_i changes' lastSCN hread
        rw [readChanges] at hread
        split at hread
        · obtain ⟨rfl, -⟩ := Prod.mk.inj (some.inj hread)
          cases hmem
        · obtain ⟨rows, hrows, heq⟩ := map_eq_some_iff.mp hread
          obtain ⟨rfl, -⟩ := Prod.mk.inj heq
          exact event_of_mem_parseRows hrows hmem

/-! ## Runs -/

/-- The rows of the redo that the query can select. -/
def selected (redo : List RedoRow) : List RedoRow := redo.filter fun row => row.Selected

/-- The answers of a database whose redo is `redo` in the end: numbers grow, and a row that is not
there yet when a poll queries gets a number above the current one. -/
structure Answers (redo : List RedoRow) (s : Poller) (poll : Poll) : Prop where
  grows : s.scn ≤ poll.currentSCN
  later : ∃ later, redo = poll.contents ++ later ∧ ∀ row ∈ later, poll.currentSCN < row.scn

def due (s : Poller) (poll : Poll) : List RedoRow :=
  window scn (startSCN s.scn poll.currentSCN) poll.currentSCN (selected poll.contents)

/-- A poll loses nothing and repeats nothing: the rows up to the current number fit into the batch
and become events, and what else is in the batch does not. -/
structure Lossless (cfg : Config) (s : Poller) (poll : Poll) : Prop where
  fits : (due s poll).length ≤ cfg.batchSize
  emits : ∀ row ∈ due s poll, row.Emits
  above : startSCN s.scn poll.currentSCN < poll.currentSCN →
    ∀ row ∈ queryRows cfg (startSCN s.scn poll.currentSCN) poll.contents,
      poll.currentSCN < row.scn → row.IsDropped

/-- The number above which a run of polls emits. -/
def startingSCN (scn : ℕ) : List Poll → ℕ
  | [] => scn
  | poll :: polls =>
    if scn ≠ 0 then scn
    else if poll.currentSCN = 0 then startingSCN 0 polls
    else poll.currentSCN - 1

section Step

variable {cfg : Config} {redo : List RedoRow} {s : Poller} {poll : Poll}

lemma ordered_selected (hredo : Ordered scn redo) : Ordered scn (selected redo) := hredo.filter _

/-- The rows due in a poll are a window of the whole redo. -/
lemma due_eq_window (h : Answers redo s poll) :
    due s poll = window scn (startSCN s.scn poll.currentSCN) poll.currentSCN (selected redo) := by
  obtain ⟨later, hredo, hlater⟩ := h.later
  rw [due, hredo, selected, selected, filter_append, window_of_append]
  intro row hrow
  exact hlater row (mem_of_mem_filter hrow)

lemma queryRows_eq (hcontents : Ordered scn poll.contents) (h : Lossless cfg s poll)
    (hlt : startSCN s.scn poll.currentSCN < poll.currentSCN) :
    ∃ dropped, queryRows cfg (startSCN s.scn poll.currentSCN) poll.contents =
      due s poll ++ dropped ∧ ∀ row ∈ dropped, row.IsDropped := by
  have hquery : queryRows cfg (startSCN s.scn poll.currentSCN) poll.contents =
      (DataStream.above scn (startSCN s.scn poll.currentSCN)
        (selected poll.contents)).take cfg.batchSize := by
    rw [queryRows, DataStream.above, selected, List.filter_filter]
    simp only [Bool.decide_and]
  -- The batch is the window up to the current number, which fits, and some of what lies above it.
  have habove := h.above hlt
  rw [hquery] at habove ⊢
  rw [← window_append_above (ordered_selected hcontents) hlt.le, ← due] at habove ⊢
  rw [take_append, take_of_length_le h.fits] at habove ⊢
  refine ⟨_, rfl, fun row hrow => ?_⟩
  refine habove row (mem_append_right _ hrow) ?_
  have hfilter := of_mem_filter (mem_of_mem_take hrow)
  simpa using hfilter

/-- A lossless poll emits the rows due and takes over the current number. -/
lemma step_poller (hredo : Ordered scn redo) (hanswers : Answers redo s poll)
    (h : Lossless cfg s poll) (hstuck : s.stuck = false) :
    ∃ changes, (poller cfg).step s poll = ({ s with scn := poll.currentSCN }, changes) ∧
      changes.map Prod.fst = window scn (startSCN s.scn poll.currentSCN) poll.currentSCN
        (selected redo) := by
  -- A poll that ends with the number zero keeps the number it had, which is zero as well.
  have hscn : (if 0 < poll.currentSCN then poll.currentSCN else s.scn) = poll.currentSCN := by
    have := hanswers.grows
    split <;> omega
  have hcontents : Ordered scn poll.contents := by
    obtain ⟨later, rfl, -⟩ := hanswers.later
    exact (pairwise_append.mp hredo).1
  have hstep : ∀ changes, readChanges cfg s.scn poll = some (changes, poll.currentSCN) →
      (poller cfg).step s poll = ({ s with scn := poll.currentSCN }, changes) := by
    intro changes hread
    simp only [poller, hstuck, Bool.false_eq_true, if_false, hread, hscn]
  rw [← due_eq_window hanswers]
  rcases le_or_gt poll.currentSCN (startSCN s.scn poll.currentSCN) with hle | hlt
  · -- Nothing is new: the window is empty.
    refine ⟨[], hstep [] (by rw [readChanges, if_pos hle]), ?_⟩
    rw [map_nil, due, window, eq_comm, filter_eq_nil_iff]
    intro row _
    simpa using fun hrow => hle.trans_lt hrow
  · obtain ⟨dropped, hquery, hdropped⟩ := queryRows_eq hcontents h hlt
    have hdue : ∀ row ∈ due s poll, row.Selected ∧ row.Emits := by
      intro row hrow
      refine ⟨?_, h.emits row hrow⟩
      simpa using of_mem_filter (mem_window.mp hrow).1
    obtain ⟨changes, hparse, hfst⟩ := parseRows_append cfg.serviceName hdue hdropped 0
    refine ⟨changes, hstep changes ?_, hfst⟩
    rw [readChanges, if_neg (not_le.mpr hlt), hquery, hparse]
    rfl

end Step

/-- What every poll of a run has to meet. -/
def LosslessAnswer (cfg : Config) (redo : List RedoRow) (s : Poller) (poll : Poll) : Prop :=
  Answers redo s poll ∧ Lossless cfg s poll

lemma startSCN_le {scn currentSCN : ℕ} (hgrows : scn ≤ currentSCN) :
    startSCN scn currentSCN ≤ currentSCN := by
  rw [startSCN]
  split
  · exact Nat.sub_le _ _
  · exact hgrows

lemma startingSCN_cons {scn : ℕ} {poll : Poll} {polls : List Poll} (h : poll.currentSCN ≠ 0) :
    startingSCN scn (poll :: polls) = startSCN scn poll.currentSCN := by
  rw [startingSCN, startSCN]
  by_cases hscn : scn = 0
  · rw [if_neg (by simpa using hscn), if_neg h, if_pos hscn]
  · rw [if_pos hscn, if_neg hscn]

/-- In a run of lossless polls the number held never falls, and the emitted rows are the selected
ones above the starting number and up to the number held, each once and in order. -/
theorem emittedRows_run {cfg : Config} {redo : List RedoRow} (hredo : Ordered scn redo)
    {s : Poller} (hstuck : s.stuck = false) {polls : List Poll}
    (hmeets : (poller cfg).Meets (LosslessAnswer cfg redo) s polls) :
    s.scn ≤ ((poller cfg).run s polls).1.scn ∧
      startingSCN s.scn polls ≤ ((poller cfg).run s polls).1.scn ∧
      ((poller cfg).run s polls).2.map Prod.fst =
        window scn (startingSCN s.scn polls) ((poller cfg).run s polls).1.scn (selected redo) := by
  induction polls generalizing s with
  | nil => exact ⟨le_rfl, le_rfl, window_self.symm⟩
  | cons poll polls ih =>
    obtain ⟨⟨hanswers, hlossless⟩, hmeets⟩ := hmeets
    obtain ⟨changes, hstep, hrows⟩ := step_poller hredo hanswers hlossless hstuck
    have hgrows := hanswers.grows
    rw [Machine.run_cons, hstep]
    rw [hstep] at hmeets
    have hstuck' : ({ s with scn := poll.currentSCN } : Poller).stuck = false := hstuck
    obtain ⟨hle, hstart, htail⟩ := ih hstuck' hmeets
    refine ⟨hgrows.trans hle, ?_⟩
    rw [map_append, hrows, htail]
    -- The next polls start where this one ended, unless no number has been held so far.
    by_cases hcurrent : poll.currentSCN = 0
    · have hscn : s.scn = 0 := Nat.le_zero.mp (hcurrent ▸ hgrows)
      rw [startingSCN, if_neg (by simpa using hscn), if_pos hcurrent]
      rw [hcurrent] at hstart htail hle ⊢
      rw [startSCN, if_pos hscn, window_self, nil_append]
      exact ⟨hstart, rfl⟩
    · have hnext : startingSCN poll.currentSCN polls = poll.currentSCN := by
        cases polls with
        | nil => rfl
        | cons => rw [startingSCN, if_pos hcurrent]
      have hlower := startSCN_le hgrows
      rw [hnext, startingSCN_cons hcurrent]
      exact ⟨hlower.trans hle, window_append (ordered_selected hredo) hlower hle⟩

/-- The rows that a run has to emit: the selected ones above the starting number, up to the number
held in the end. -/
def owed (cfg : Config) (redo : List RedoRow) (s : Poller) (polls : List Poll) : List RedoRow :=
  window scn (startingSCN s.scn polls) ((poller cfg).run s polls).1.scn (selected redo)

/-- In a run of lossless polls every insert, update, delete and DDL row above the starting number
and up to the number held is emitted exactly once, in order, and nothing else is. -/
theorem emitted_eq_owed {cfg : Config} {redo : List RedoRow} (hredo : Ordered scn redo)
    {s : Poller} (hstuck : s.stuck = false) {polls : List Poll}
    (hmeets : (poller cfg).Meets (LosslessAnswer cfg redo) s polls) :
    ((poller cfg).run s polls).2.map Prod.fst = owed cfg redo s polls ∧
      ∀ change ∈ ((poller cfg).run s polls).2,
        ∃ seqNo, rowOutcome cfg.serviceName seqNo change.1 = .event change.2 :=
  ⟨(emittedRows_run hredo hstuck hmeets).2.2, event_of_mem_run cfg s polls⟩

/-! ### A lost row -/

def ordersRow (scn : ℕ) (opCode : ℤ) (sqlRedo : Bytes) : RedoRow :=
  { scn, sqlRedo := some sqlRedo, opCode, tableName := lit "ORDERS", segOwner := lit "SHOP"
    timestamp := Time.zero }

def sampleRedo : List RedoRow :=
  [ordersRow 11 1 (lit "insert into \"SHOP\".\"ORDERS\"(\"ID\") values ('7');"),
    ordersRow 12 5 (lit "ALTER TABLE ORDERS ADD NOTE VARCHAR2(10)")]

def samplePoll : Poll := { currentSCN := 20, contents := sampleRedo }

def sampleReader : Poller := { scn := 10, stuck := false }

lemma answers_samplePoll : Answers sampleRedo sampleReader samplePoll :=
  ⟨by decide, [], (append_nil _).symm, by simp⟩

lemma lossless_samplePoll :
    Lossless { serviceName := lit "ORCL", batchSize := 2 } sampleReader samplePoll where
  fits := by decide
  emits := by
    intro row hrow
    have hmem : row ∈ sampleRedo := mem_of_mem_filter (mem_window.mp hrow).1
    rcases mem_cons.mp hmem with rfl | hmem
    · exact .inr ⟨{ type := .insert, newValues := [(lit "ID", lit "'7'")], oldValues := [] },
        lit ";", by decide⟩
    · obtain rfl := mem_singleton.mp hmem
      exact .inl rfl
  above := by
    intro _ row hrow habove
    have hmem : row ∈ sampleRedo := mem_of_mem_filter (mem_of_mem_take hrow)
    have hnone : ∀ row ∈ sampleRedo, row.scn ≤ samplePoll.currentSCN := by decide
    exact absurd habove (not_lt.mpr (hnone row hmem))

lemma meets_samplePoll :
    (poller { serviceName := lit "ORCL", batchSize := 2 }).Meets
      (LosslessAnswer { serviceName := lit "ORCL", batchSize := 2 } sampleRedo) sampleReader
      [samplePoll] :=
  ⟨⟨answers_samplePoll, lossless_samplePoll⟩, trivial⟩

/-- Both rows are emitted when the batch has room for them. -/
theorem emitted_eq_owed_samplePoll :
    ((poller { serviceName := lit "ORCL", batchSize := 2 }).run sampleReader [samplePoll]).2.map
        Prod.fst = owed { serviceName := lit "ORCL", batchSize := 2 } sampleRedo sampleReader
          [samplePoll] :=
  (emitted_eq_owed (by decide) rfl meets_samplePoll).1

/-- With a batch of one row the second one is lost: the reader never looks below the current number
again. -/
theorem not_forall_emitted_once :
    ¬∀ (cfg : Config) (redo : List RedoRow) (s : Poller) (polls : List Poll),
      Ordered scn redo → s.stuck = false →
      (poller cfg).Meets (Answers redo) s polls →
      ((poller cfg).run s polls).1.stuck = false →
      List.Perm
        ((((poller cfg).run s polls).2.map Prod.fst).filter fun row =>
          startingSCN s.scn polls < row.scn ∧ row.scn ≤ ((poller cfg).run s polls).1.scn)
        (owed cfg redo s polls) := by
  intro h
  have hall := h { serviceName := lit "ORCL", batchSize := 1 } sampleRedo sampleReader [samplePoll]
    (by decide) rfl ⟨answers_samplePoll, trivial⟩ (by decide)
  exact absurd hall.length_eq (by decide)

end DataStream.Source.Oracle
