import DataStream.Foundations.Decimal
import Mathlib.Data.List.TakeWhile

/-!
# Tokens of SQL statements

The text of a statement is cut into words, quoted names, placeholders and symbols. Dialects differ
in the quotes around names and in the placeholders, which are either numbered or told apart by
their order in the text.

* `lex_append`: when two texts can be read one after the other;
* `lex_quote`, `lex_placeholder`: a quoted name and a placeholder are read back;
* `lex_congr`: a text of words and symbols is read alike in all dialects;
* `lex_intercalate`: a text that is joined from parts.
-/

namespace DataStream.Sql

open Bytes List Option

/-! ## Kinds of bytes -/

variable (b : UInt8)

/-- White space. -/
def isSpace : Bool := b = 32 || b = 9 || b = 10 || b = 13

/-- ASCII letters. -/
def isLetter : Bool := (65 ≤ b.toNat && b.toNat ≤ 90) || (97 ≤ b.toNat && b.toNat ≤ 122)

/-- The symbols `(`, `)`, `,`, `.` and `=`. -/
def isSymbol : Bool := b = 40 || b = 41 || b = 44 || b = 46 || b = 61

/-- Bytes that mean the same in every dialect. -/
def isPlain : Bool := isSpace b || isLetter b || isSymbol b

/-- Bytes that end what stands before them and what stands after them is not joined to. -/
def isBreak : Bool := isSpace b || isSymbol b

/-! ## Dialects and tokens -/

/-- How names are quoted and how placeholders are written. -/
structure Dialect where
  openQuote : UInt8
  closeQuote : UInt8
  markerHead : UInt8
  /-- The other bytes of a placeholder before its number. -/
  markerTail : Bytes
  /-- Placeholders have a number. -/
  numbered : Bool
  openQuote_special : isPlain openQuote = false
  closeQuote_special : isPlain closeQuote = false
  markerHead_special : isPlain markerHead = false
  markerHead_ne : markerHead ≠ openQuote

/-- A token. -/
inductive Token where
  | word (w : Bytes)
  /-- A quoted name, without its quotes. -/
  | name (n : Bytes)
  /-- A placeholder and its number, if it has one. -/
  | param (n : Option ℕ)
  | symbol (b : UInt8)
  deriving DecidableEq

namespace Dialect

variable (d : Dialect)

/-- What stands before the number of a placeholder. -/
def marker : Bytes := d.markerHead :: d.markerTail

/-- A name in quotes. -/
def quote (name : Bytes) : Bytes := d.openQuote :: (name ++ [d.closeQuote])

/-- The placeholder of the `n`th argument, counted from one. -/
def placeholder (n : ℕ) : Bytes := if d.numbered then d.marker ++ formatNat n else d.marker

/-- The number in the placeholder of the `n`th argument, if it has one. -/
def number (n : ℕ) : Option ℕ := if d.numbered then some n else none

end Dialect

open Dialect

/-! ## The lexer -/

/-- The name up to its closing quote and the rest; a doubled quote stands for the quote. -/
def scanName (close : UInt8) : Bytes → Option (Bytes × Bytes)
  | [] => none
  | [b] => if b = close then some ([], []) else none
  | b :: c :: rest =>
    if b = close then
      if c = close then (scanName close rest).map fun r => (close :: r.1, r.2)
      else some ([], c :: rest)
    else (scanName close (c :: rest)).map fun r => (b :: r.1, r.2)

/-- The rest of a placeholder after its marker. -/
def scanParam (numbered : Bool) (s : Bytes) : Option (Token × Bytes) :=
  if numbered then
    if s.takeWhile isDigit = [] then none
    else some (.param (some (natValue (s.takeWhile isDigit))), s.dropWhile isDigit)
  else some (.param none, s)

/-- The token at the start of a text that does not start with white space. -/
def nextToken (d : Dialect) : Bytes → Option (Token × Bytes)
  | [] => none
  | b :: rest =>
    if b = d.openQuote then (scanName d.closeQuote rest).map fun r => (.name r.1, r.2)
    else if isLetter b then
      some (.word ((b :: rest).takeWhile isLetter), (b :: rest).dropWhile isLetter)
    else if isSymbol b then some (.symbol b, rest)
    else if d.marker <+: b :: rest then
      scanParam d.numbered ((b :: rest).drop d.marker.length)
    else none

/-- The tokens of a text, with a bound on the number of steps. -/
def lexGo (d : Dialect) : ℕ → Bytes → Option (List Token)
  | _, [] => some []
  | 0, _ :: _ => none
  | fuel + 1, b :: rest =>
    if isSpace b then lexGo d fuel rest
    else (nextToken d (b :: rest)).bind fun r => (lexGo d fuel r.2).map (r.1 :: ·)

/-- The tokens of a text; `none` if the text is not made of tokens. -/
def lex (d : Dialect) (s : Bytes) : Option (List Token) := lexGo d s.length s

/-! ## Tokens at the end of a text -/

variable {d : Dialect} {close b : UInt8} {s t : Bytes} {r : Token × Bytes} {ts : List Token}

/-- Two neighbouring bytes that belong to one token or to a doubled quote. -/
def joins (d : Dialect) (x y : UInt8) : Bool :=
  (isLetter x && isLetter y) || (isDigit x && isDigit y) || (x = d.closeQuote && y = d.closeQuote)

section Joins

variable {x y : UInt8}

lemma isLetter_of_not_joins (h : joins d x y = false) (hx : isLetter x = true) :
    isLetter y = false := by
  simp only [joins, Bool.or_eq_false_iff, hx, Bool.true_and] at h
  exact h.1.1

lemma isDigit_of_not_joins (h : joins d x y = false) (hx : isDigit x = true) :
    isDigit y = false := by
  simp only [joins, Bool.or_eq_false_iff, hx, Bool.true_and] at h
  exact h.1.2

lemma ne_of_not_joins (h : joins d d.closeQuote y = false) : y ≠ d.closeQuote := by
  simp only [joins, Bool.or_eq_false_iff] at h
  simpa using h.2

end Joins

/-- The end of the first text and the start of the second do not belong together. -/
def Apart (d : Dialect) (s t : Bytes) : Prop := ∀ x ∈ s.getLast?, ∀ y ∈ t.head?, joins d x y = false

/-- A longest run of bytes of a kind that the second text does not continue. -/
lemma takeWhile_append_of_stops {p : UInt8 → Bool}
    (h : s.dropWhile p ≠ [] ∨ ∀ y ∈ t.head?, p y = false) :
    (s ++ t).takeWhile p = s.takeWhile p ∧ (s ++ t).dropWhile p = s.dropWhile p ++ t := by
  induction s with
  | nil =>
    cases t with
    | nil => simp
    | cons y t =>
      have hy : p y = false := by simpa using h
      simp [hy]
  | cons b s ih =>
    cases hb : p b with
    | false => simp [hb]
    | true => simpa [hb] using ih (by simpa [hb] using h)

/-- A run of bytes of a kind at the end of a text stops where the next text starts with another
kind. -/
lemma stops_of_getLast {p : UInt8 → Bool} (hne : s ≠ [])
    (h : ∀ x ∈ s.getLast?, p x = true → ∀ y ∈ t.head?, p y = false) :
    s.dropWhile p ≠ [] ∨ ∀ y ∈ t.head?, p y = false := by
  by_cases hend : s.dropWhile p = []
  · right
    have hall := dropWhile_eq_nil_iff.mp hend
    exact h _ (getLast?_eq_some_getLast hne) (hall _ (getLast_mem hne))
  · exact Or.inl hend

/-- What follows a name comes after its first byte, a name that is read to the end of a text ends
with the closing quote, and a name is read in the same way with more text after it, unless that
starts with another quote. -/
lemma scanName_spec {r : Bytes × Bytes} (h : scanName close s = some r) :
    r.2 <:+ s.tail ∧ (r.2 = [] → s.getLast? = some close) ∧
      ∀ t, (r.2 ≠ [] ∨ ∀ y ∈ t.head?, y ≠ close) →
        scanName close (s ++ t) = some (r.1, r.2 ++ t) := by
  fun_induction scanName close s generalizing r with
  | case1 | case3 => cases h
  | case2 =>
    obtain rfl := some.inj h
    refine ⟨nil_suffix, fun _ => rfl, fun t hstops => ?_⟩
    cases t with
    | nil => simp [scanName]
    | cons y t =>
      have hy : y ≠ close := by simpa using hstops
      simp [scanName, hy]
  | case4 rest ih =>
    obtain ⟨r', hr', rfl⟩ := map_eq_some_iff.mp h
    obtain ⟨hsuffix, hend, hmore⟩ := ih hr'
    refine ⟨(hsuffix.trans (tail_suffix rest)).trans (suffix_cons _ _), fun hnil => ?_,
      fun t hstops => by simp [scanName, hmore t hstops]⟩
    cases rest with
    | nil => cases hend hnil
    | cons y rest => simpa [getLast?_cons_cons] using hend hnil
  | case5 c rest hc =>
    obtain rfl := some.inj h
    exact ⟨suffix_rfl, nofun, fun _ _ => by simp [scanName, hc]⟩
  | case6 b c rest hb ih =>
    obtain ⟨r', hr', rfl⟩ := map_eq_some_iff.mp h
    obtain ⟨hsuffix, hend, hmore⟩ := ih hr'
    refine ⟨hsuffix.trans (suffix_cons _ _), fun hnil => ?_, fun t hstops => ?_⟩
    · rw [getLast?_cons_cons]
      exact hend hnil
    · -- Two bytes are looked at, so the rest has to show its first byte.
      have hrest := hmore t hstops
      rw [cons_append] at hrest
      simp [scanName, hb, hrest]

lemma scanParam_spec {numbered : Bool} (h : scanParam numbered s = some r) :
    r.2 <:+ s ∧ ∀ t, (∀ x ∈ s.getLast?, isDigit x = true → ∀ y ∈ t.head?, isDigit y = false) →
      scanParam numbered (s ++ t) = some (r.1, r.2 ++ t) := by
  unfold scanParam at h ⊢
  split_ifs at h with hnumbered hdigits
  · obtain rfl := some.inj h
    refine ⟨dropWhile_suffix _, fun t hstops => ?_⟩
    have hne : s ≠ [] := by
      rintro rfl
      exact hdigits rfl
    obtain ⟨htake, hdrop⟩ := takeWhile_append_of_stops (stops_of_getLast hne hstops)
    rw [htake, hdrop, if_pos hnumbered, if_neg hdigits]
  · obtain rfl := some.inj h
    exact ⟨suffix_rfl, fun _ _ => if_neg hnumbered⟩

/-- What follows a token comes after its first byte, and a token is read in the same way with more
text after it, unless it is joined to that text. -/
lemma nextToken_spec (h : nextToken d s = some r) :
    r.2 <:+ s.tail ∧ ∀ t, Apart d s t → nextToken d (s ++ t) = some (r.1, r.2 ++ t) := by
  cases s with
  | nil => cases h
  | cons b rest =>
    simp only [cons_append, nextToken] at h ⊢
    split_ifs at h with hopen hletter hsymbol hmarker
    · obtain ⟨r', hr', rfl⟩ := map_eq_some_iff.mp h
      obtain ⟨hsuffix, hend, hmore⟩ := scanName_spec hr'
      refine ⟨hsuffix.trans (tail_suffix rest), fun t hapart => ?_⟩
      have hstops : r'.2 ≠ [] ∨ ∀ y ∈ t.head?, y ≠ d.closeQuote := by
        by_cases hnil : r'.2 = []
        · right
          intro y hy
          have hlast : (b :: rest).getLast? = some d.closeQuote := by
            rw [getLast?_cons, hend hnil]
            rfl
          exact ne_of_not_joins (hapart _ hlast y hy)
        · exact Or.inl hnil
      rw [if_pos hopen, hmore t hstops]
      rfl
    · obtain rfl := some.inj h
      refine ⟨?_, fun t hapart => ?_⟩
      · rw [dropWhile_cons_of_pos hletter]
        exact dropWhile_suffix _
      have hstops : (b :: rest).dropWhile isLetter ≠ [] ∨ ∀ y ∈ t.head?, isLetter y = false := by
        apply stops_of_getLast (cons_ne_nil b rest)
        intro x hx hletter' y hy
        exact isLetter_of_not_joins (hapart x hx y hy) hletter'
      obtain ⟨htake, hdrop⟩ := takeWhile_append_of_stops hstops
      rw [if_neg hopen, if_pos hletter, ← cons_append, htake, hdrop]
    · obtain rfl := some.inj h
      exact ⟨suffix_rfl, fun _ _ => by rw [if_neg hopen, if_neg hletter, if_pos hsymbol]⟩
    · obtain ⟨hsuffix, hmore⟩ := scanParam_spec h
      refine ⟨hsuffix.trans (drop_suffix d.markerTail.length rest), fun t hapart => ?_⟩
      rw [if_neg hopen, if_neg hletter, if_neg hsymbol, ← cons_append,
        if_pos (hmarker.trans (prefix_append _ _)),
        drop_append_of_le_length hmarker.length_le]
      refine hmore t fun x hx hdigit y hy => ?_
      -- The last byte of the number is the last byte of the text.
      have hlast : (b :: rest).getLast? = some x := by
        obtain ⟨s', hs'⟩ := drop_suffix d.marker.length (b :: rest)
        rw [← hs', getLast?_append, hx]
        rfl
      exact isDigit_of_not_joins (hapart x hlast y hy) hdigit

/-! ## The equations of the lexer -/

lemma length_of_nextToken (h : nextToken d (b :: s) = some r) : r.2.length ≤ s.length :=
  (nextToken_spec h).1.length_le

lemma lexGo_of_le {fuel : ℕ} (h : s.length ≤ fuel) : lexGo d fuel s = lex d s := by
  -- Two bounds that are both large enough give the same tokens.
  suffices ∀ fuel' s, s.length ≤ fuel' → ∀ fuel, s.length ≤ fuel →
      lexGo d fuel s = lexGo d fuel' s from this _ _ le_rfl _ h
  intro fuel'
  induction fuel' with
  | zero =>
    intro s hs fuel _
    rw [length_eq_zero_iff.mp (Nat.le_zero.mp hs)]
    cases fuel <;> rfl
  | succ fuel' ih =>
    intro s hs fuel hfuel
    cases s with
    | nil => cases fuel <;> rfl
    | cons b rest =>
      cases fuel with
      | zero => cases hfuel
      | succ fuel =>
        have hs' := Nat.le_of_succ_le_succ hs
        have hfuel' := Nat.le_of_succ_le_succ hfuel
        simp only [lexGo]
        rw [ih rest hs' fuel hfuel']
        cases hnext : nextToken d (b :: rest) with
        | none => rfl
        | some r =>
          have hle := length_of_nextToken hnext
          simp only [bind_some]
          rw [ih r.2 (hle.trans hs') fuel (hle.trans hfuel')]

lemma lex_cons_of_space (h : isSpace b = true) (s : Bytes) : lex d (b :: s) = lex d s := by
  simp [lex, lexGo, h]

lemma lex_cons_of_not_space (h : isSpace b = false) (s : Bytes) :
    lex d (b :: s) = (nextToken d (b :: s)).bind fun r => (lex d r.2).map (r.1 :: ·) := by
  rw [lex, length_cons, lexGo, if_neg (by simp [h])]
  cases hnext : nextToken d (b :: s) with
  | none => rfl
  | some r => rw [bind_some, bind_some, lexGo_of_le (length_of_nextToken hnext)]

/-! ## Reading one text after another -/

lemma Apart.of_suffix {s' : Bytes} (h : Apart d s t) (hsuffix : s' <:+ s) : Apart d s' t := by
  obtain ⟨pre, rfl⟩ := hsuffix
  intro x hx
  apply h x
  rw [getLast?_append, hx]
  rfl

/-- Two texts that do not belong together are read one after the other. -/
theorem lex_append (h : lex d s = some ts) (hapart : Apart d s t) :
    lex d (s ++ t) = (lex d t).map (ts ++ ·) := by
  -- Induction on the length of the text, as a token may be of any length.
  induction hn : s.length using Nat.strong_induction_on generalizing s ts with
  | _ n ih =>
    subst hn
    cases s with
    | nil =>
      obtain rfl := some.inj h
      simp
    | cons b s =>
      cases hspace : isSpace b with
      | true =>
        rw [lex_cons_of_space hspace] at h
        rw [cons_append, lex_cons_of_space hspace]
        exact ih _ (Nat.lt_succ_self _) h (hapart.of_suffix (suffix_cons _ _)) rfl
      | false =>
        rw [lex_cons_of_not_space hspace] at h
        obtain ⟨r, hr, hrest⟩ := bind_eq_some_iff.mp h
        obtain ⟨ts', hts', rfl⟩ := map_eq_some_iff.mp hrest
        have hsuffix : r.2 <:+ b :: s := (nextToken_spec hr).1.trans (tail_suffix _)
        have hlt := Nat.lt_succ_of_le (length_of_nextToken hr)
        have hrest' := ih _ hlt hts' (hapart.of_suffix hsuffix) rfl
        have hnext := (nextToken_spec hr).2 t hapart
        rw [cons_append] at hnext ⊢
        rw [lex_cons_of_not_space hspace, hnext, bind_some, hrest', Option.map_map]
        rfl

/-! ## Breaks -/

def endsInBreak (s : Bytes) : Bool := s.getLast?.any isBreak

def startsWithBreak (s : Bytes) : Bool := s.head?.any isBreak

lemma isPlain_of_isBreak (h : isBreak b = true) : isPlain b = true := by
  simp only [isBreak, isPlain, Bool.or_eq_true] at h ⊢
  tauto

lemma not_joins_of_isBreak (h : isBreak b = true) (x : UInt8) :
    joins d b x = false ∧ joins d x b = false := by
  have hclose : b ≠ d.closeQuote := by
    rintro rfl
    have hspecial := d.closeQuote_special
    rw [isPlain_of_isBreak h] at hspecial
    cases hspecial
  have hkind : isLetter b = false ∧ isDigit b = false := by
    simp only [isBreak, isSpace, isSymbol, Bool.or_eq_true, decide_eq_true_eq] at h
    rcases h with ((((h | h) | h) | h) | ((((h | h) | h) | h) | h)) <;> subst h <;> decide
  simp [joins, hclose, hkind]

lemma lex_append_of_ends {us : List Token} (hs : lex d s = some ts) (ht : lex d t = some us)
    (h : endsInBreak s = true) : lex d (s ++ t) = some (ts ++ us) := by
  rw [lex_append hs, ht, map_some]
  intro x hx y _
  rw [endsInBreak, mem_def.mp hx] at h
  exact (not_joins_of_isBreak h y).1

lemma lex_append_of_starts {us : List Token} (hs : lex d s = some ts) (ht : lex d t = some us)
    (h : startsWithBreak t = true) : lex d (s ++ t) = some (ts ++ us) := by
  rw [lex_append hs, ht, map_some]
  intro x _ y hy
  rw [startsWithBreak, mem_def.mp hy] at h
  exact (not_joins_of_isBreak h x).2

/-- A text that is joined from parts by a separator between breaks. -/
theorem lex_intercalate {α : Type} {sep : Bytes} {seps : List Token} (hsep : lex d sep = some seps)
    (hstarts : startsWithBreak sep = true) (hends : endsInBreak sep = true) (text : α → Bytes)
    (tokens : α → List Token) (items : List α)
    (h : ∀ x ∈ items, lex d (text x) = some (tokens x)) :
    lex d (sep.intercalate (items.map text)) = some (seps.intercalate (items.map tokens)) := by
  induction items with
  | nil => rfl
  | cons x items ih =>
    have hx := h x mem_cons_self
    have hrest := ih fun y hy => h y (mem_cons_of_mem _ hy)
    cases items with
    | nil => simpa [List.intercalate] using hx
    | cons y items =>
      -- The first part stands before the separator, which starts and ends with a break.
      have hjoined := lex_append_of_ends hsep hrest hends
      apply lex_append_of_starts hx hjoined
      cases sep with
      | nil => cases hstarts
      | cons b sep => exact hstarts

/-! ## Words and symbols, names, placeholders -/

lemma nextToken_congr (d d' : Dialect) (hplain : isPlain b = true) (hspace : isSpace b = false)
    (s : Bytes) : nextToken d (b :: s) = nextToken d' (b :: s) := by
  have hopen : ∀ d : Dialect, b ≠ d.openQuote := by
    rintro d rfl
    have hspecial := d.openQuote_special
    rw [hplain] at hspecial
    cases hspecial
  rw [nextToken, nextToken, if_neg (hopen d), if_neg (hopen d')]
  cases hletter : isLetter b with
  | true => rfl
  | false =>
    -- What is plain and neither white space nor a letter is a symbol.
    have hsymbol : isSymbol b = true := by simpa [isPlain, hspace, hletter] using hplain
    simp [hsymbol]

theorem lex_congr (d d' : Dialect) (h : ∀ b ∈ s, isPlain b = true) : lex d s = lex d' s := by
  induction hn : s.length using Nat.strong_induction_on generalizing s with
  | _ n ih =>
    subst hn
    cases s with
    | nil => rfl
    | cons b s =>
      have hb := h b mem_cons_self
      cases hspace : isSpace b with
      | true =>
        rw [lex_cons_of_space hspace, lex_cons_of_space hspace]
        exact ih _ (Nat.lt_succ_self _) (fun c hc => h c (mem_cons_of_mem _ hc)) rfl
      | false =>
        rw [lex_cons_of_not_space hspace, lex_cons_of_not_space hspace,
          nextToken_congr d d' hb hspace]
        cases hnext : nextToken d' (b :: s) with
        | none => rfl
        | some r =>
          have hsuffix := (nextToken_spec hnext).1
          have hrest := ih _ (Nat.lt_succ_of_le hsuffix.length_le)
            (fun c hc => h c (mem_cons_of_mem _ (hsuffix.subset hc))) rfl
          rw [bind_some, bind_some, hrest]

lemma scanName_quoted {name : Bytes} (h : close ∉ name) :
    scanName close (name ++ [close]) = some (name, []) := by
  induction name with
  | nil => simp [scanName]
  | cons b name ih =>
    have hb : b ≠ close := fun hb => h (hb ▸ mem_cons_self)
    have hrest := ih fun hmem => h (mem_cons_of_mem _ hmem)
    -- The name is followed by at least the closing quote.
    cases name with
    | nil => simp [scanName, hb]
    | cons c name =>
      rw [cons_append] at hrest
      simp [scanName, hb, hrest]

lemma isPlain_eq_false_iff :
    isPlain b = false ↔ isSpace b = false ∧ isLetter b = false ∧ isSymbol b = false := by
  simp [isPlain, and_assoc]

theorem lex_quote {name : Bytes} (h : d.closeQuote ∉ name) :
    lex d (d.quote name) = some [.name name] := by
  have hspace := (isPlain_eq_false_iff.mp d.openQuote_special).1
  rw [quote, lex_cons_of_not_space hspace, nextToken, if_pos rfl, scanName_quoted h]
  rfl

lemma scanParam_formatNat (n : ℕ) : scanParam true (formatNat n) = some (.param (some n), []) := by
  have hdigits := all_isDigit_formatNat n
  have htake : (formatNat n).takeWhile isDigit = formatNat n := takeWhile_eq_self_iff.mpr hdigits
  have hne : formatNat n ≠ [] := by
    obtain ⟨b, rest, heq, _⟩ := formatNat_head n
    rw [heq]
    exact cons_ne_nil _ _
  rw [scanParam, if_pos rfl, htake, if_neg hne, natValue_formatNat,
    dropWhile_eq_nil_iff.mpr hdigits]

theorem lex_placeholder (n : ℕ) : lex d (d.placeholder n) = some [.param (d.number n)] := by
  obtain ⟨hspace, hletter, hsymbol⟩ := isPlain_eq_false_iff.mp d.markerHead_special
  -- The marker is not taken for anything else, whatever follows it.
  have hnext : ∀ s, nextToken d (d.marker ++ s) = scanParam d.numbered s := by
    intro s
    have hmarker : d.marker <+: d.markerHead :: (d.markerTail ++ s) := prefix_append d.marker s
    rw [marker, cons_append, nextToken, if_neg d.markerHead_ne,
      if_neg (by simp [hletter]), if_neg (by simp [hsymbol]), if_pos hmarker]
    exact congrArg (scanParam d.numbered) (drop_left' rfl)
  have hlex : ∀ s, lex d (d.marker ++ s) =
      (scanParam d.numbered s).bind fun r => (lex d r.2).map (r.1 :: ·) := by
    intro s
    rw [← hnext, marker, cons_append, lex_cons_of_not_space hspace]
  unfold placeholder number
  cases hnumbered : d.numbered with
  | true =>
    rw [if_pos rfl, if_pos rfl, hlex, hnumbered, scanParam_formatNat]
    rfl
  | false =>
    have hlex' := hlex []
    rw [append_nil, hnumbered] at hlex'
    rw [if_neg (by simp), if_neg (by simp), hlex']
    rfl

lemma isPlain_doubleQuote : isPlain 34 = false := by decide

lemma isPlain_questionMark : isPlain 63 = false := by decide

/-- Double quotes around names and question marks for placeholders. -/
def Dialect.standard : Dialect where
  openQuote := 34
  closeQuote := 34
  markerHead := 63
  markerTail := []
  numbered := false
  openQuote_special := isPlain_doubleQuote
  closeQuote_special := isPlain_doubleQuote
  markerHead_special := isPlain_questionMark
  markerHead_ne := by decide

lemma lex_lit {s : String}
    (h : (lit s).all isPlain = true ∧ lex standard (lit s) = some ts) :
    lex d (lit s) = some ts := by
  rw [lex_congr d standard (List.all_eq_true.mp h.1), h.2]

example : lex standard (lit "\"t\".\"a?\" = ?") =
    some [.name (lit "t"), .symbol 46, .name (lit "a?"), .symbol 61, .param none] := by
  decide

end DataStream.Sql
