import DataStream.Foundations.Json.Quote
import DataStream.Foundations.Decimal

/-!
# JSON values, their text and their parser

`Json` is the tree of a JSON text. Numbers keep their literal and strings keep the text between
their quotes, so that what a typed decoder sees is what `encoding/json` hands it. `print` is the
compact form that `json.Marshal` emits, and `parse` accepts what `json.Unmarshal` accepts: one
value, surrounded by white space, nested at most `maxNestingDepth` deep.

The scanners of strings and numbers follow the byte-by-byte state machine of the Go package.

* `parse_print`: a well-formed value within the nesting limit is read back.
-/

namespace DataStream

open Bytes List Option

/-- A JSON value. -/
inductive Json where
  | null
  | bool (b : Bool)
  | num (literal : Bytes)
  /-- A string, as the text between its quotes. -/
  | str (raw : Bytes)
  | arr (items : List Json)
  /-- An object; keys are the texts between their quotes, in source order. -/
  | obj (members : List (Bytes × Json))

namespace Json

/-! ## Printing -/

mutual

def print : Json → Bytes
  | .null => lit "null"
  | .bool true => lit "true"
  | .bool false => lit "false"
  | .num literal => literal
  | .str raw => 0x22 :: (raw ++ [0x22])
  | .arr items => 0x5B :: (printItems items ++ [0x5D])
  | .obj members => 0x7B :: (printMembers members ++ [0x7D])

def printItems : List Json → Bytes
  | [] => []
  | [item] => item.print
  | item :: items => item.print ++ 0x2C :: printItems items

def printMembers : List (Bytes × Json) → Bytes
  | [] => []
  | [(key, value)] => 0x22 :: (key ++ 0x22 :: 0x3A :: value.print)
  | (key, value) :: members =>
    0x22 :: (key ++ 0x22 :: 0x3A :: (value.print ++ 0x2C :: printMembers members))

end

/-! ## Scanning strings -/

/-- Where the scanner is inside a string literal. -/
inductive StrState where
  | text
  | escape
  /-- Inside a `\u` escape, with so many hexadecimal digits to come. -/
  | hex (missing : ℕ)
  deriving DecidableEq, Repr

/-- What the scanner makes of one byte of a string literal. -/
inductive StrStep where
  | fail
  | close
  | next (state : StrState)
  deriving DecidableEq, Repr

def StrState.step : StrState → UInt8 → StrStep
  | .text, b =>
    if b = 0x22 then .close
    else if b = 0x5C then .next .escape
    else if b.toNat < 0x20 then .fail
    else .next .text
  | .escape, b =>
    if b = 0x75 then .next (.hex 3)
    else if b ∈ lit "bfnrt\\/\"" then .next .text
    else .fail
  | .hex missing, b =>
    if (hexValue b).isNone then .fail
    else
      match missing with
      | 0 => .next .text
      | n + 1 => .next (.hex n)

/-- Scan to the closing quote: the text before it and what follows it. -/
def scanString : StrState → Bytes → Option (Bytes × Bytes)
  | _, [] => none
  | state, b :: rest =>
    match state.step b with
    | .fail => none
    | .close => some ([], rest)
    | .next state => (scanString state rest).map fun (raw, rest) => (b :: raw, rest)

/-- The state of the scanner after a text without a closing quote. -/
def StrState.run : StrState → Bytes → Option StrState
  | state, [] => some state
  | state, b :: rest =>
    match state.step b with
    | .next state => state.run rest
    | _ => none

/-- A text that may stand between the quotes of a string literal. -/
def StrOk (raw : Bytes) : Prop := StrState.run .text raw = some .text
  deriving Decidable

lemma StrState.run_append (state : StrState) (s t : Bytes) :
    state.run (s ++ t) = (state.run s).bind fun state => state.run t := by
  induction s generalizing state with
  | nil => rfl
  | cons b rest ih =>
    simp only [cons_append, StrState.run]
    cases state.step b with
    | fail => rfl
    | close => rfl
    | next state => exact ih state

/-- A text that the scanner passes over, followed by a quote, is scanned as that text. -/
lemma scanString_append {state : StrState} {raw : Bytes}
    (h : state.run raw = some .text) (rest : Bytes) :
    scanString state (raw ++ 0x22 :: rest) = some (raw, rest) := by
  induction raw generalizing state with
  | nil =>
    obtain rfl : state = .text := by simpa [StrState.run] using h
    rfl
  | cons b raw ih =>
    simp only [StrState.run] at h
    cases hstep : state.step b with
    | fail => simp [hstep] at h
    | close => simp [hstep] at h
    | next state' =>
      rw [hstep] at h
      simp [scanString, hstep, ih h]

@[simp]
lemma strOk_nil : StrOk [] := rfl

variable {s rest : Bytes} {b : UInt8} {j : Json}

lemma StrOk.append {t : Bytes} (hs : StrOk s) (ht : StrOk t) : StrOk (s ++ t) := by
  simp only [StrOk] at hs ht
  simp [StrOk, StrState.run_append, hs, ht]

lemma strOk_of_forall (h : ∀ b ∈ s, b ≠ 0x22 ∧ b ≠ 0x5C ∧ 0x20 ≤ b.toNat) : StrOk s := by
  induction s with
  | nil => rfl
  | cons b rest ih =>
    obtain ⟨h₁, h₂, h₃⟩ := h b (by simp)
    have ih := ih fun c hc => h c (by simp [hc])
    simp only [StrOk] at ih
    simp [StrOk, StrState.run, StrState.step, h₁, h₂, show ¬ b.toNat < 0x20 by omega, ih]

private lemma strOk_quoteAscii (b : UInt8) (hb : b.toNat < 0x80) : StrOk (quoteAscii b) := by
  have hall : ∀ i : Fin 128, StrState.run .text (quoteAscii (UInt8.ofNat i)) = some .text := by
    decide
  simpa [StrOk] using hall ⟨b.toNat, hb⟩

private lemma strOk_quoteSequence {n : ℕ} (h : Utf8.runeLen (b :: rest) = n + 1) :
    StrOk (quoteSequence (b :: rest.take n)) := by
  by_cases hb : b.toNat < 0x80
  · obtain rfl : n = 0 := by
      have := Utf8.runeLen_ascii hb rest
      omega
    simpa [quoteSequence] using strOk_quoteAscii b hb
  · have hcopy : StrOk (b :: rest.take n) := by
      refine strOk_of_forall fun c hc => ?_
      have hge : 0x80 ≤ c.toNat := by
        rcases mem_cons.mp hc with rfl | hc
        · omega
        · exact Utf8.not_ascii_of_runeLen h c hc
      refine ⟨?_, ?_, by omega⟩ <;> rintro rfl <;> simp at hge
    unfold quoteSequence
    split_ifs
    · decide
    · decide
    · split
      · next c heq =>
        simp only [List.cons.injEq] at heq
        have hlong := take_ne_nil_of_runeLen h hb
        exact absurd heq.2 hlong
      · exact hcopy

lemma strOk_quote (s : Bytes) : StrOk (quote s) := by
  induction s using Utf8.runesInduction with
  | nil => rfl
  | invalid b rest h ih =>
    have : quote (b :: rest) = lit "\\ufffd" ++ quote rest := by
      simp [quote, Utf8.runes_cons_of_invalid h, quoteRune]
    rw [this]
    exact StrOk.append (by decide) ih
  | valid b rest n h ih =>
    have : quote (b :: rest) = quoteSequence (b :: rest.take n) ++ quote (rest.drop n) := by
      simp [quote, Utf8.runes_of_runeLen h, quoteRune]
    rw [this]
    exact StrOk.append (strOk_quoteSequence h) ih

/-! ## Scanning numbers -/

/-- Where the scanner is inside a number literal. -/
inductive NumState where
  | neg
  | zero
  | int
  | dot
  | frac
  | exp
  | expSign
  | expDigits
  deriving DecidableEq, Repr

/-- The state after the first byte of a number literal. -/
def NumState.start (b : UInt8) : Option NumState :=
  if b = 0x2D then some .neg
  else if b = 0x30 then some .zero
  else if isDigit b then some .int
  else none

/-- One step of the number scanner; `none` if the byte does not belong to the literal. -/
def NumState.step : NumState → UInt8 → Option NumState
  | .neg, b => if b = 0x30 then some .zero else if isDigit b then some .int else none
  | .zero, b => afterInt b
  | .int, b => if isDigit b then some .int else afterInt b
  | .dot, b => if isDigit b then some .frac else none
  | .frac, b => if isDigit b then some .frac else if b = 0x65 ∨ b = 0x45 then some .exp else none
  | .exp, b =>
    if b = 0x2B ∨ b = 0x2D then some .expSign else if isDigit b then some .expDigits else none
  | .expSign, b => if isDigit b then some .expDigits else none
  | .expDigits, b => if isDigit b then some .expDigits else none
where
  /-- What may follow the integer part: a point or an exponent mark. -/
  afterInt (b : UInt8) : Option NumState :=
    if b = 0x2E then some .dot else if b = 0x65 ∨ b = 0x45 then some .exp else none

def NumState.accepting : NumState → Bool
  | .zero | .int | .frac | .expDigits => true
  | .neg | .dot | .exp | .expSign => false

/-- Scan the rest of a number literal: its bytes and what follows it. -/
def scanNumber : NumState → Bytes → Option (Bytes × Bytes)
  | state, [] => if state.accepting then some ([], []) else none
  | state, b :: rest =>
    match state.step b with
    | some state => (scanNumber state rest).map fun (digits, rest) => (b :: digits, rest)
    | none => if state.accepting then some ([], b :: rest) else none

/-- The state of the scanner after more bytes of a literal. -/
def NumState.run : NumState → Bytes → Option NumState
  | state, [] => some state
  | state, b :: rest => (state.step b).bind fun state => state.run rest

def NumOk : Bytes → Prop
  | [] => False
  | b :: rest => ∃ state ∈ NumState.start b, ∃ final ∈ state.run rest, final.accepting = true

/-- What may follow a value inside a compact text. -/
def Follows (rest : Bytes) : Prop := ∀ b ∈ rest.head?, b = 0x2C ∨ b = 0x5D ∨ b = 0x7D

@[simp]
lemma follows_nil : Follows [] := by simp [Follows]

@[simp]
lemma follows_cons : Follows (b :: rest) ↔ b = 0x2C ∨ b = 0x5D ∨ b = 0x7D := by simp [Follows]

private lemma NumState.step_eq_none (state : NumState) (h : b = 0x2C ∨ b = 0x5D ∨ b = 0x7D) :
    state.step b = none := by
  rcases h with rfl | rfl | rfl <;> cases state <;> decide

/-- A literal followed by the end or by a separator is scanned as that literal. -/
lemma scanNumber_append {state final : NumState} {digits : Bytes}
    (h : state.run digits = some final) (hacc : final.accepting = true) (hrest : Follows rest) :
    scanNumber state (digits ++ rest) = some (digits, rest) := by
  induction digits generalizing state with
  | nil =>
    obtain rfl : state = final := by simpa [NumState.run] using h
    cases rest with
    | nil => simp [scanNumber, hacc]
    | cons b rest => simp [scanNumber, NumState.step_eq_none _ (follows_cons.mp hrest), hacc]
  | cons b digits ih =>
    obtain ⟨next, hnext, hrun⟩ := bind_eq_some_iff.mp h
    simp [scanNumber, hnext, ih hrun]

private lemma NumState.run_int (h : ∀ b ∈ s, isDigit b = true) :
    NumState.run .int s = some .int := by
  induction s with
  | nil => rfl
  | cons b rest ih =>
    have hb := h b (by simp)
    simp [NumState.run, NumState.step, hb, ih fun c hc => h c (by simp [hc])]

private lemma NumState.run_formatNat {n : ℕ} (heq : formatNat n = b :: rest)
    (next : UInt8 → Option NumState) (hzero : next 0x30 = some .zero)
    (hint : ∀ c, c ≠ 0x30 → isDigit c = true → next c = some .int) :
    ∃ state ∈ next b, ∃ final ∈ state.run rest, final.accepting = true := by
  have hdigits := all_isDigit_formatNat n
  obtain ⟨c, tail, heq', hlead⟩ := formatNat_head n
  obtain ⟨rfl, rfl⟩ : b = c ∧ rest = tail := by simpa [heq] using heq'
  rw [heq] at hdigits
  by_cases hb : b = 0x30
  · subst hb
    rw [hlead rfl]
    exact ⟨.zero, hzero, .zero, rfl, rfl⟩
  · exact ⟨.int, hint b hb (hdigits b (by simp)), .int,
      NumState.run_int fun d hd => hdigits d (by simp [hd]), rfl⟩

lemma numOk_formatInt (i : ℤ) : NumOk (formatInt i) := by
  cases i with
  | ofNat n =>
    obtain ⟨b, rest, heq, -⟩ := formatNat_head n
    rw [formatInt, heq]
    refine NumState.run_formatNat heq NumState.start rfl fun c hc hdigit => ?_
    have hminus : c ≠ 0x2D := by
      rintro rfl
      exact absurd hdigit (by decide)
    simp [NumState.start, hc, hdigit, hminus]
  | negSucc n =>
    obtain ⟨b, rest, heq, -⟩ := formatNat_head (n + 1)
    obtain ⟨state, hstate, final, hfinal, hacc⟩ := NumState.run_formatNat heq
      (NumState.step .neg) rfl fun c hc hdigit => by
        simp [NumState.step, hc, hdigit]
    refine ⟨.neg, rfl, final, ?_, hacc⟩
    rw [heq]
    simp only [mem_def] at hstate hfinal ⊢
    simp [NumState.run, hstate, hfinal]

/-! ## Parsing -/

def isSpace (b : UInt8) : Bool := b = 0x20 || b = 0x09 || b = 0x0D || b = 0x0A

def skipSpace (s : Bytes) : Bytes := s.dropWhile isSpace

/-- The keyword `word`, of which the first byte has been read. -/
def keyword (word : Bytes) (value : Json) (rest : Bytes) : Option (Json × Bytes) :=
  if rest.take word.length = word then some (value, rest.drop word.length) else none

/-- The inside of an array or object: nothing up to the closing bracket, or what `parse` reads. -/
def parseInside {α : Type} (close : UInt8) (parse : Bytes → Option (List α × Bytes)) :
    Bytes → Option (List α × Bytes)
  | [] => none
  | b :: rest => if b = close then some ([], rest) else parse (b :: rest)

/-- What follows an element: the closing bracket, or a comma and what `parse` reads after it. -/
def parseAfter {α : Type} (close : UInt8) (parse : Bytes → Option (List α × Bytes)) (x : α) :
    Bytes → Option (List α × Bytes)
  | [] => none
  | b :: rest =>
    if b = close then some ([x], rest)
    else if b = 0x2C then (parse rest).map fun (xs, rest) => (x :: xs, rest)
    else none

/-- A key and the colon after it. -/
def parseKey : Bytes → Option (Bytes × Bytes)
  | 0x22 :: rest =>
    match scanString .text rest with
    | none => none
    | some (key, rest) =>
      match skipSpace rest with
      | 0x3A :: rest => some (key, rest)
      | _ => none
  | _ => none

mutual

/-- Parse one value. Every call spends fuel, an array or object a level of nesting. -/
def parseValue : ℕ → ℕ → Bytes → Option (Json × Bytes)
  | 0, _, _ => none
  | fuel + 1, depth, s =>
    match skipSpace s with
    | [] => none
    | b :: rest =>
      if b = 0x22 then (scanString .text rest).map fun (raw, rest) => (.str raw, rest)
      else if b = 0x5B then
        match depth with
        | 0 => none
        | depth + 1 =>
          (parseInside 0x5D (parseItems fuel depth) (skipSpace rest)).map
            fun (items, rest) => (.arr items, rest)
      else if b = 0x7B then
        match depth with
        | 0 => none
        | depth + 1 =>
          (parseInside 0x7D (parseMembers fuel depth) (skipSpace rest)).map
            fun (members, rest) => (.obj members, rest)
      else if b = 0x74 then keyword (lit "rue") (.bool true) rest
      else if b = 0x66 then keyword (lit "alse") (.bool false) rest
      else if b = 0x6E then keyword (lit "ull") .null rest
      else
        match NumState.start b with
        | some state => (scanNumber state rest).map fun (digits, rest) => (.num (b :: digits), rest)
        | none => none

/-- Parse one or more array items and the closing bracket. -/
def parseItems : ℕ → ℕ → Bytes → Option (List Json × Bytes)
  | 0, _, _ => none
  | fuel + 1, depth, s =>
    match parseValue fuel depth s with
    | none => none
    | some (item, rest) => parseAfter 0x5D (parseItems fuel depth) item (skipSpace rest)

/-- Parse one or more object members and the closing brace. -/
def parseMembers : ℕ → ℕ → Bytes → Option (List (Bytes × Json) × Bytes)
  | 0, _, _ => none
  | fuel + 1, depth, s =>
    match parseKey (skipSpace s) with
    | none => none
    | some (key, rest) =>
      match parseValue fuel depth rest with
      | none => none
      | some (value, rest) =>
        parseAfter 0x7D (parseMembers fuel depth) (key, value) (skipSpace rest)

end

/-- The nesting limit of `encoding/json`. -/
def maxNestingDepth : ℕ := 10000

/-- The value of a JSON text, as `json.Unmarshal` reads it; `none` is a syntax error. Fuel twice
the length is enough for any text, since every second call consumes a byte. -/
def parse (s : Bytes) : Option Json :=
  match parseValue (2 * s.length + 2) maxNestingDepth s with
  | some (value, rest) => if skipSpace rest = [] then some value else none
  | none => none

/-! ## Parsing what was printed -/

mutual

/-- The literals and string texts of a value follow the grammar. -/
def Ok : Json → Prop
  | .null | .bool _ => True
  | .num literal => NumOk literal
  | .str raw => StrOk raw
  | .arr items => OkItems items
  | .obj members => OkMembers members

def OkItems : List Json → Prop
  | [] => True
  | item :: items => item.Ok ∧ OkItems items

def OkMembers : List (Bytes × Json) → Prop
  | [] => True
  | (key, value) :: members => StrOk key ∧ value.Ok ∧ OkMembers members

end

mutual

/-- How deeply arrays and objects are nested in a value. -/
def nesting : Json → ℕ
  | .null | .bool _ | .num _ | .str _ => 0
  | .arr items => nestingItems items + 1
  | .obj members => nestingMembers members + 1

def nestingItems : List Json → ℕ
  | [] => 0
  | item :: items => max item.nesting (nestingItems items)

def nestingMembers : List (Bytes × Json) → ℕ
  | [] => 0
  | (_, value) :: members => max value.nesting (nestingMembers members)

end

lemma skipSpace_cons (h : isSpace b = false) (rest : Bytes) :
    skipSpace (b :: rest) = b :: rest := by
  simp [skipSpace, h]

private lemma start_ne {state : NumState} (h : NumState.start b = some state) :
    isSpace b = false ∧ b ≠ 0x5D ∧ b ≠ 0x22 ∧ b ≠ 0x5B ∧ b ≠ 0x7B ∧ b ≠ 0x74 ∧ b ≠ 0x66 ∧
      b ≠ 0x6E := by
  have hall : ∀ i : Fin 256, NumState.start (UInt8.ofNat i) ≠ none →
      isSpace (UInt8.ofNat i) = false ∧ UInt8.ofNat i ≠ 0x5D ∧ UInt8.ofNat i ≠ 0x22 ∧
        UInt8.ofNat i ≠ 0x5B ∧ UInt8.ofNat i ≠ 0x7B ∧ UInt8.ofNat i ≠ 0x74 ∧
        UInt8.ofNat i ≠ 0x66 ∧ UInt8.ofNat i ≠ 0x6E := by
    decide +kernel
  simpa [h] using hall ⟨b.toNat, b.toNat_lt⟩

lemma print_head (h : j.Ok) : ∃ b rest, j.print = b :: rest ∧ isSpace b = false ∧ b ≠ 0x5D := by
  cases j with
  | null => exact ⟨0x6E, lit "ull", by decide, by decide, by decide⟩
  | bool b =>
    cases b with
    | true => exact ⟨0x74, lit "rue", by decide, by decide, by decide⟩
    | false => exact ⟨0x66, lit "alse", by decide, by decide, by decide⟩
  | num literal =>
    cases literal with
    | nil => exact absurd h (by simp [Ok, NumOk])
    | cons b rest =>
      obtain ⟨state, hstate, -⟩ := h
      exact ⟨b, rest, rfl, (start_ne hstate).1, (start_ne hstate).2.1⟩
  | str raw => exact ⟨0x22, raw ++ [0x22], rfl, by decide, by decide⟩
  | arr items => exact ⟨0x5B, _, rfl, by decide, by decide⟩
  | obj members => exact ⟨0x7B, _, rfl, by decide, by decide⟩

lemma printItems_cons_cons (item next : Json) (items : List Json) :
    printItems (item :: next :: items) = item.print ++ 0x2C :: printItems (next :: items) := by
  rw [printItems]
  simp

lemma printMembers_cons_cons (key : Bytes) (value : Json) (next : Bytes × Json)
    (members : List (Bytes × Json)) :
    printMembers ((key, value) :: next :: members) =
      0x22 :: (key ++ 0x22 :: 0x3A :: (value.print ++ 0x2C :: printMembers (next :: members))) := by
  rw [printMembers]
  simp

private lemma printItems_head {item : Json} {items : List Json} (h : OkItems (item :: items)) :
    ∃ b rest, printItems (item :: items) = b :: rest ∧ isSpace b = false ∧ b ≠ 0x5D := by
  obtain ⟨b, rest, heq, hb⟩ := print_head h.1
  cases items with
  | nil => exact ⟨b, rest, by simpa [printItems] using heq, hb⟩
  | cons next items => exact ⟨b, _, by rw [printItems_cons_cons, heq]; rfl, hb⟩

private lemma printMembers_head (member : Bytes × Json) (members : List (Bytes × Json)) :
    ∃ rest, printMembers (member :: members) = 0x22 :: rest := by
  obtain ⟨key, value⟩ := member
  cases members with
  | nil => exact ⟨_, by rw [printMembers]⟩
  | cons next members => exact ⟨_, printMembers_cons_cons key value next members⟩

mutual

/-- A printed value is read back, whatever separator or end follows it. -/
theorem parseValue_print : ∀ (j : Json), j.Ok → ∀ (fuel depth : ℕ) (rest : Bytes),
    2 * j.print.length ≤ fuel + 1 → j.nesting ≤ depth → Follows rest →
      parseValue (fuel + 1) depth (j.print ++ rest) = some (j, rest)
  | .null, _, _, _, _, _, _, _ => rfl
  | .bool b, _, _, _, _, _, _, _ => by cases b <;> rfl
  | .num [], hok, _, _, _, _, _, _ => absurd hok (by simp [Ok, NumOk])
  -- Only here it matters what follows: a digit would be taken into the number.
  | .num (b :: digits), hok, fuel, depth, rest, _, _, hrest => by
      obtain ⟨state, hstate, final, hfinal, hacc⟩ := hok
      obtain ⟨hspace, -, h₁, h₂, h₃, h₄, h₅, h₆⟩ := start_ne hstate
      simp [print, parseValue, skipSpace_cons hspace, h₁, h₂, h₃, h₄, h₅, h₆,
        mem_def.mp hstate, scanNumber_append hfinal hacc hrest]
  | .str raw, hok, _, _, rest, _, _, _ => by
      simp [print, parseValue, skipSpace_cons, isSpace, scanString_append hok rest]
  | .arr [], _, _, depth, _, _, hdepth, _ => by
      obtain ⟨d, rfl⟩ : ∃ d, depth = d + 1 := ⟨depth - 1, by
        simp [nesting, nestingItems] at hdepth; omega⟩
      rfl
  -- The bracket pays for two units of fuel, one for this call and one for that of the items.
  | .arr (item :: items), hok, fuel, depth, rest, hfuel, hdepth, _ => by
      simp only [nesting] at hdepth
      simp only [print, length_cons, length_append, length_nil] at hfuel
      obtain ⟨f, rfl⟩ : ∃ f, fuel = f + 2 := ⟨fuel - 2, by omega⟩
      obtain ⟨d, rfl⟩ : ∃ d, depth = d + 1 := ⟨depth - 1, by omega⟩
      have hitems := parseItems_print (item :: items) (by simp) hok f d rest (by omega) (by omega)
      obtain ⟨b, tail, heq, hspace, hbracket⟩ :=
        printItems_head (show OkItems (item :: items) from hok)
      rw [heq, cons_append] at hitems
      simp [print, heq, parseValue, parseInside,
        skipSpace_cons (show isSpace 0x5B = false by decide), skipSpace_cons hspace, hitems,
        hbracket]
  | .obj [], _, _, depth, _, _, hdepth, _ => by
      obtain ⟨d, rfl⟩ : ∃ d, depth = d + 1 := ⟨depth - 1, by
        simp [nesting, nestingMembers] at hdepth; omega⟩
      rfl
  | .obj (member :: members), hok, fuel, depth, rest, hfuel, hdepth, _ => by
      simp only [nesting] at hdepth
      simp only [print, length_cons, length_append, length_nil] at hfuel
      obtain ⟨f, rfl⟩ : ∃ f, fuel = f + 2 := ⟨fuel - 2, by omega⟩
      obtain ⟨d, rfl⟩ : ∃ d, depth = d + 1 := ⟨depth - 1, by omega⟩
      have hmembers := parseMembers_print (member :: members) (by simp) hok f d rest (by omega)
        (by omega)
      obtain ⟨tail, heq⟩ := printMembers_head member members
      rw [heq, cons_append] at hmembers
      simp [print, heq, parseValue, parseInside, skipSpace_cons, isSpace, hmembers]

theorem parseItems_print : ∀ (items : List Json), items ≠ [] → OkItems items →
    ∀ (fuel depth : ℕ) (rest : Bytes), 2 * (printItems items).length ≤ fuel + 1 →
      nestingItems items ≤ depth →
      parseItems (fuel + 2) depth (printItems items ++ 0x5D :: rest) = some (items, rest)
  | [], hne, _, _, _, _, _, _ => absurd rfl hne
  | [item], _, hok, fuel, depth, rest, hfuel, hdepth => by
      simp only [nestingItems] at hdepth
      simp only [printItems] at hfuel
      have hitem := parseValue_print item hok.1 fuel depth (0x5D :: rest) hfuel (by omega) (by simp)
      simp [printItems, parseItems, parseAfter, hitem, skipSpace_cons, isSpace]
  | item :: next :: items, _, hok, fuel, depth, rest, hfuel, hdepth => by
      simp only [nestingItems] at hdepth
      rw [printItems_cons_cons] at hfuel ⊢
      simp only [length_cons, length_append] at hfuel
      obtain ⟨f, rfl⟩ : ∃ f, fuel = f + 1 := ⟨fuel - 1, by omega⟩
      have hitem := parseValue_print item hok.1 (f + 1) depth
        (0x2C :: (printItems (next :: items) ++ 0x5D :: rest)) (by omega) (by omega) (by simp)
      have hitems := parseItems_print (next :: items) (by simp) hok.2 f depth rest (by omega)
        (by simp only [nestingItems]; omega)
      rw [parseItems]
      simp [parseAfter, hitem, skipSpace_cons, isSpace, hitems]

theorem parseMembers_print : ∀ (members : List (Bytes × Json)), members ≠ [] →
    OkMembers members → ∀ (fuel depth : ℕ) (rest : Bytes),
      2 * (printMembers members).length ≤ fuel + 1 → nestingMembers members ≤ depth →
      parseMembers (fuel + 2) depth (printMembers members ++ 0x7D :: rest) = some (members, rest)
  | [], hne, _, _, _, _, _, _ => absurd rfl hne
  | [(key, value)], _, hok, fuel, depth, rest, hfuel, hdepth => by
      simp only [nestingMembers] at hdepth
      simp only [printMembers, length_cons, length_append] at hfuel
      have hvalue := parseValue_print value hok.2.1 fuel depth (0x7D :: rest) (by omega) (by omega)
        (by simp)
      have hkey := scanString_append hok.1 (0x3A :: (value.print ++ 0x7D :: rest))
      simp [printMembers, parseMembers, parseKey, parseAfter, skipSpace_cons, isSpace, hkey, hvalue]
  | (key, value) :: next :: members, _, hok, fuel, depth, rest, hfuel, hdepth => by
      simp only [nestingMembers] at hdepth
      rw [printMembers_cons_cons] at hfuel ⊢
      simp only [length_cons, length_append] at hfuel
      obtain ⟨f, rfl⟩ : ∃ f, fuel = f + 1 := ⟨fuel - 1, by omega⟩
      have hvalue := parseValue_print value hok.2.1 (f + 1) depth
        (0x2C :: (printMembers (next :: members) ++ 0x7D :: rest)) (by omega) (by omega) (by simp)
      have hmembers := parseMembers_print (next :: members) (by simp) hok.2.2 f depth rest
        (by omega)
        (by obtain ⟨k, v⟩ := next; simp only [nestingMembers] at hdepth ⊢; omega)
      have hkey := scanString_append hok.1 (0x3A :: (value.print ++
        0x2C :: (printMembers (next :: members) ++ 0x7D :: rest)))
      rw [parseMembers]
      simp [parseKey, parseAfter, skipSpace_cons, isSpace, hkey, hvalue, hmembers]

end

/-- A well-formed value whose nesting is within the limit is read back from its text. -/
theorem parse_print (hok : j.Ok) (hdepth : j.nesting ≤ maxNestingDepth) :
    parse j.print = some j := by
  have h := parseValue_print j hok (2 * j.print.length + 1) maxNestingDepth [] (by omega) hdepth
    follows_nil
  rw [append_nil] at h
  simp [parse, h, skipSpace]

end Json

end DataStream
