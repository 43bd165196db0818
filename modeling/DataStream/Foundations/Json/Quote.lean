import DataStream.Foundations.Utf8

/-!
# JSON string literals

The text between the quotes of a JSON string, as `encoding/json` writes it (`quote`, with HTML
escaping on, the default of `json.Marshal`) and reads it (`unquote`). Writing repairs invalid
UTF-8, so reading a written string gives the repaired string.

* `unquote_quote`: `unquote (quote s) = some (toValid s)`.
-/

namespace DataStream.Json

open Bytes Utf8 List UInt8

/-- The lower-case hexadecimal digit of a number below sixteen. -/
def hexDigit (n : ℕ) : UInt8 := if n < 10 then ofNat (48 + n) else ofNat (87 + n)

variable (b : UInt8)

def hexValue : Option ℕ :=
  if 48 ≤ b.toNat ∧ b.toNat ≤ 57 then some (b.toNat - 48)
  else if 97 ≤ b.toNat ∧ b.toNat ≤ 102 then some (b.toNat - 87)
  else if 65 ≤ b.toNat ∧ b.toNat ≤ 70 then some (b.toNat - 55)
  else none

/-! ## Writing -/

/-- The bytes that `json.Marshal` copies into a string literal: printable ASCII except the
quote, the backslash and the HTML characters `<`, `>` and `&`. -/
def htmlSafe : Bool :=
  0x20 ≤ b.toNat && b.toNat < 0x80 && b != 0x22 && b != 0x5C && b != 0x3C && b != 0x3E && b != 0x26

/-- The text of one ASCII byte in a string literal. -/
def quoteAscii : Bytes :=
  if htmlSafe b then [b]
  else if b = 0x5C ∨ b = 0x22 then [0x5C, b]
  else if b = 0x08 then lit "\\b"
  else if b = 0x0C then lit "\\f"
  else if b = 0x0A then lit "\\n"
  else if b = 0x0D then lit "\\r"
  else if b = 0x09 then lit "\\t"
  else lit "\\u00" ++ [hexDigit (b.toNat / 16), hexDigit (b.toNat % 16)]

/-- The text of a well-formed sequence in a string literal: `U+2028` and `U+2029` are
escaped. -/
def quoteSequence (bytes : Bytes) : Bytes :=
  if bytes = [0xE2, 0x80, 0xA8] then lit "\\u2028"
  else if bytes = [0xE2, 0x80, 0xA9] then lit "\\u2029"
  else
    match bytes with
    | [b] => quoteAscii b
    | _ => bytes

/-- The text of one rune in a string literal; an invalid byte becomes an escaped `U+FFFD`. -/
def quoteRune : Rune → Bytes
  | .valid bytes => quoteSequence bytes
  | .invalid _ => lit "\\ufffd"

/-- The text between the quotes of the string literal for `s`. -/
def quote (s : Bytes) : Bytes := (runes s).flatMap quoteRune

/-! ## Reading -/

/-- `utf8.EncodeRune`: surrogates and numbers beyond `U+10FFFF` are written as `U+FFFD`. -/
def encodeRune (r : ℕ) : Bytes :=
  if r < 0x80 then [ofNat r]
  else if r < 0x800 then [ofNat (0xC0 + r / 64), ofNat (0x80 + r % 64)]
  else if 0xD800 ≤ r ∧ r < 0xE000 then replacement
  else if r < 0x10000 then
    [ofNat (0xE0 + r / 4096), ofNat (0x80 + r / 64 % 64), ofNat (0x80 + r % 64)]
  else if r < 0x110000 then
    [ofNat (0xF0 + r / 262144), ofNat (0x80 + r / 4096 % 64),
      ofNat (0x80 + r / 64 % 64), ofNat (0x80 + r % 64)]
  else replacement

/-- `getu4`: the number of an escape `\uXXXX` at the head, and what follows it. -/
def getu4 : Bytes → Option (ℕ × Bytes)
  | 0x5C :: 0x75 :: a :: b :: c :: d :: rest =>
    match hexValue a, hexValue b, hexValue c, hexValue d with
    | some a, some b, some c, some d => some (((a * 16 + b) * 16 + c) * 16 + d, rest)
    | _, _, _, _ => none
  | _ => none

/-- What a `\uXXXX` escape writes, given what follows: a surrogate pair is one rune, a lone
surrogate is `U+FFFD`. -/
def unescapeUnicode (r : ℕ) (rest : Bytes) : Bytes × Bytes :=
  if 0xD800 ≤ r ∧ r < 0xDC00 then
    match getu4 rest with
    | some (r₂, rest₂) =>
      if 0xDC00 ≤ r₂ ∧ r₂ < 0xE000 then
        (encodeRune ((r - 0xD800) * 0x400 + (r₂ - 0xDC00) + 0x10000), rest₂)
      else (replacement, rest)
    | none => (replacement, rest)
  else (encodeRune r, rest)

/-- What a one-letter escape writes. -/
def unescapeLetter : Option UInt8 :=
  if b = 0x22 ∨ b = 0x5C ∨ b = 0x2F ∨ b = 0x27 then some b
  else if b = 0x62 then some 0x08
  else if b = 0x66 then some 0x0C
  else if b = 0x6E then some 0x0A
  else if b = 0x72 then some 0x0D
  else if b = 0x74 then some 0x09
  else none

/-- One round of `unquoteBytes`: what is written for the head of the text, and the rest. -/
def unquoteStep : Bytes → Option (Bytes × Bytes)
  | [] => none
  | 0x5C :: rest =>
    match rest with
    | [] => none
    | 0x75 :: _ => (getu4 (0x5C :: rest)).map fun (r, rest) => unescapeUnicode r rest
    | b :: rest => (unescapeLetter b).map fun c => ([c], rest)
  | b :: rest =>
    if b = 0x22 ∨ b.toNat < 0x20 then none
    else
      match runeLen (b :: rest) with
      | 0 => some (replacement, rest)
      | n + 1 => some (b :: rest.take n, rest.drop n)

/-- `unquote` with a bound on the number of rounds. -/
def unquoteGo : ℕ → Bytes → Option Bytes
  | _, [] => some []
  | 0, _ :: _ => none
  | fuel + 1, b :: rest =>
    match unquoteStep (b :: rest) with
    | some (out, rest) => (unquoteGo fuel rest).map (out ++ ·)
    | none => none

/-- `unquoteBytes`: the string whose literal has the given text between its quotes. -/
def unquote (raw : Bytes) : Option Bytes := unquoteGo raw.length raw

/-! ## Reading what was written -/

variable {n : ℕ} {b : UInt8} {rest : Bytes}

lemma hexValue_hexDigit (hn : n < 16) : hexValue (hexDigit n) = some n := by
  have hall : ∀ i : Fin 16, hexValue (hexDigit i) = some i.val := by decide
  exact hall ⟨n, hn⟩

private lemma unescapeUnicode_ascii (hb : b.toNat < 0x80) (rest : Bytes) :
    unescapeUnicode b.toNat rest = ([b], rest) := by
  have hsurrogate : ¬ (0xD800 ≤ b.toNat ∧ b.toNat < 0xDC00) := by omega
  rw [unescapeUnicode, if_neg hsurrogate, encodeRune, if_pos hb, UInt8.ofNat_toNat]

private lemma unquoteStep_escape (hb : b.toNat < 0x80) (rest : Bytes) :
    unquoteStep (lit "\\u00" ++ [hexDigit (b.toNat / 16), hexDigit (b.toNat % 16)] ++ rest) =
      some ([b], rest) := by
  have hhi := hexValue_hexDigit (show b.toNat / 16 < 16 by omega)
  have hlo := hexValue_hexDigit (show b.toNat % 16 < 16 by omega)
  have hzero : hexValue 0x30 = some 0 := by decide
  have hvalue : ((0 * 16 + 0) * 16 + b.toNat / 16) * 16 + b.toNat % 16 = b.toNat := by omega
  change (getu4 (0x5C :: 0x75 :: 0x30 :: 0x30 :: _ :: _ :: rest)).map _ = _
  rw [getu4, hzero, hhi, hlo, Option.map_some, hvalue]
  exact congrArg some (unescapeUnicode_ascii hb rest)

private lemma unquoteStep_quoteAscii (hb : b.toNat < 0x80) (rest : Bytes) :
    unquoteStep (quoteAscii b ++ rest) = some ([b], rest) := by
  unfold quoteAscii
  split_ifs with hsafe hself h8 hc ha hd h9
  · have hne : b ≠ 0x5C ∧ b ≠ 0x22 ∧ 0x20 ≤ b.toNat := by
      simp only [htmlSafe, Bool.and_eq_true, bne_iff_ne, decide_eq_true_eq] at hsafe
      tauto
    simp [unquoteStep, hne, runeLen_ascii hb rest]
  · rcases hself with rfl | rfl <;> rfl
  · subst h8; rfl
  · subst hc; rfl
  · subst ha; rfl
  · subst hd; rfl
  · subst h9; rfl
  · exact unquoteStep_escape hb rest

private lemma unquoteStep_sequence (h : runeLen (b :: rest) = n + 1) (hb : 0x80 ≤ b.toNat)
    (t : Bytes) : unquoteStep (b :: (rest.take n ++ t)) = some (b :: rest.take n, t) := by
  have hlen : n ≤ rest.length := (runeLen_cons_eq_succ_iff.mp h).2.1
  have hne : b ≠ 0x5C ∧ b ≠ 0x22 := by
    constructor <;> rintro rfl <;> simp at hb
  simp [unquoteStep, hne, runeLen_append h t, show ¬ b.toNat < 0x20 by omega, hlen]

lemma take_ne_nil_of_runeLen (h : runeLen (b :: rest) = n + 1) (hb : ¬ b.toNat < 0x80) :
    rest.take n ≠ [] := by
  obtain ⟨ha, hlen, -⟩ := runeLen_cons_eq_succ_iff.mp h
  have hn : n ≠ 0 := by
    rintro rfl
    simp only [announced, hb, if_false] at ha
    split_ifs at ha <;> simp at ha
  rw [← length_pos_iff, length_take]
  omega

private lemma unquoteStep_quoteSequence (h : runeLen (b :: rest) = n + 1) (t : Bytes) :
    unquoteStep (quoteSequence (b :: rest.take n) ++ t) = some (b :: rest.take n, t) := by
  by_cases hb : b.toNat < 0x80
  · obtain rfl : n = 0 := by
      have := runeLen_ascii hb rest
      omega
    simpa [quoteSequence] using unquoteStep_quoteAscii hb t
  · have hcopy := unquoteStep_sequence h (by omega) t
    obtain ⟨c, cs, hcs⟩ := exists_cons_of_ne_nil (take_ne_nil_of_runeLen h hb)
    unfold quoteSequence
    split_ifs with h28 h29
    · rw [h28]; rfl
    · rw [h29]; rfl
    · rw [hcs] at hcopy ⊢
      exact hcopy

private lemma quoteAscii_ne_nil (b : UInt8) : quoteAscii b ≠ [] := by
  unfold quoteAscii
  split_ifs <;> exact cons_ne_nil _ _

private lemma quoteSequence_ne_nil {bytes : Bytes} (h : bytes ≠ []) : quoteSequence bytes ≠ [] := by
  unfold quoteSequence
  split_ifs
  · decide
  · decide
  · split
    · exact quoteAscii_ne_nil _
    · exact h

private lemma unquoteGo_step {fuel : ℕ} {raw out : Bytes} (hne : raw ≠ [])
    (h : unquoteStep raw = some (out, rest)) :
    unquoteGo (fuel + 1) raw = (unquoteGo fuel rest).map (out ++ ·) := by
  cases raw with
  | nil => exact absurd rfl hne
  | cons b t => simp [unquoteGo, h]

private lemma unquoteGo_quote (s : Bytes) (fuel : ℕ) (h : (quote s).length ≤ fuel) :
    unquoteGo fuel (quote s) = some (toValid s) := by
  induction s using runesInduction generalizing fuel with
  | nil => cases fuel <;> rfl
  | invalid b rest hlen ih =>
    -- An invalid byte is written as an escape of six bytes, and read as the replacement.
    have hq : quote (b :: rest) = quoteRune (.invalid b) ++ quote rest := by
      simp [quote, runes_cons_of_invalid hlen]
    have hv : toValid (b :: rest) = replacement ++ toValid rest := by
      simp [toValid, runes_cons_of_invalid hlen, Rune.encode]
    rw [hq, length_append] at h
    have hpos : (quoteRune (.invalid b)).length = 6 := rfl
    obtain ⟨f, rfl⟩ : ∃ f, fuel = f + 1 := ⟨fuel - 1, by omega⟩
    have hstep : unquoteStep (quoteRune (.invalid b) ++ quote rest) =
        some (replacement, quote rest) := rfl
    have hne : quoteRune (.invalid b) ++ quote rest ≠ [] := cons_ne_nil _ _
    rw [hq, hv, unquoteGo_step hne hstep, ih f (by omega)]
    rfl
  | valid b rest n hlen ih =>
    -- A valid rune is written in at least one byte, so the fuel suffices for the rest.
    have hq : quote (b :: rest) = quoteSequence (b :: rest.take n) ++ quote (rest.drop n) := by
      simp [quote, runes_of_runeLen hlen, quoteRune]
    have hv : toValid (b :: rest) = b :: rest.take n ++ toValid (rest.drop n) := by
      simp [toValid, runes_of_runeLen hlen, Rune.encode]
    have hne : quoteSequence (b :: rest.take n) ≠ [] := quoteSequence_ne_nil (by simp)
    have hpos := length_pos_iff.mpr hne
    rw [hq, length_append] at h
    obtain ⟨f, rfl⟩ : ∃ f, fuel = f + 1 := ⟨fuel - 1, by omega⟩
    rw [hq, hv, unquoteGo_step (by simp [hne]) (unquoteStep_quoteSequence hlen _), ih f (by omega)]
    rfl

/-- Reading a written string gives the string with its invalid bytes repaired. -/
theorem unquote_quote (s : Bytes) : unquote (quote s) = some (toValid s) :=
  unquoteGo_quote s _ (le_refl _)

end DataStream.Json
