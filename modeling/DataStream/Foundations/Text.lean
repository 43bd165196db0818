import DataStream.Foundations.Json.Any

/-!
# Text functions

The parts of Go's `strings` and `strconv` that parsers of the connectors use: ASCII case, trimming,
and the numbers that `ParseInt` and `ParseFloat` accept.
-/

namespace DataStream.Text

open Bytes List Utf8

variable (b : UInt8) (s : Bytes)

/-- An ASCII letter in lower case; other bytes are unchanged. -/
def lower : UInt8 := if 65 ≤ b.toNat ∧ b.toNat ≤ 90 then b + 32 else b

/-- An ASCII letter in upper case; other bytes are unchanged. -/
def upper : UInt8 := if 97 ≤ b.toNat ∧ b.toNat ≤ 122 then b - 32 else b

/-- `strings.ToLower`, as far as it yields ASCII text: besides the ASCII letters, only the capital I
with a dot and the Kelvin sign have an ASCII letter as their lower case. -/
def toLower : Bytes → Bytes
  | 0xC4 :: 0xB0 :: rest => 0x69 :: toLower rest
  | 0xE2 :: 0x84 :: 0xAA :: rest => 0x6B :: toLower rest
  | b :: rest => lower b :: toLower rest
  | [] => []

/-- `strings.Join`. -/
def joined (sep : String) (parts : List Bytes) : Bytes := (lit sep).intercalate parts

/-- `strings.EqualFold` where one side is ASCII text without K and S, or both have as many bytes. -/
def equalFold (s t : Bytes) : Bool := s.map lower = t.map lower

/-- The text starts with a word, in either case. -/
def hasPrefixFold (s word : Bytes) : Bool :=
  word.length ≤ s.length && equalFold (s.take word.length) word

/-- The encodings of the runes that `unicode.IsSpace` accepts. -/
def spaces : List Bytes :=
  [[9], [10], [11], [12], [13], [32], [0xC2, 0x85], [0xC2, 0xA0], [0xE1, 0x9A, 0x80],
    [0xE2, 0x80, 0x80], [0xE2, 0x80, 0x81], [0xE2, 0x80, 0x82], [0xE2, 0x80, 0x83],
    [0xE2, 0x80, 0x84], [0xE2, 0x80, 0x85], [0xE2, 0x80, 0x86], [0xE2, 0x80, 0x87],
    [0xE2, 0x80, 0x88], [0xE2, 0x80, 0x89], [0xE2, 0x80, 0x8A], [0xE2, 0x80, 0xA8],
    [0xE2, 0x80, 0xA9], [0xE2, 0x80, 0xAF], [0xE2, 0x81, 0x9F], [0xE3, 0x80, 0x80]]

/-- Drop leading words from a text, as often as there are any. -/
def dropWords (words : List Bytes) : ℕ → Bytes → Bytes
  | 0, s => s
  | fuel + 1, s =>
    match words.find? fun w => w.isPrefixOf s with
    | some w => dropWords words fuel (s.drop w.length)
    | none => s

def trimSpace : Bytes :=
  let s := dropWords spaces s.length s
  (dropWords (spaces.map List.reverse) s.length s.reverse).reverse

/-- `strings.Trim` with a single ASCII character. -/
def trim : Bytes := ((s.dropWhile (· == b)).reverse.dropWhile (· == b)).reverse

/-- `strings.ReplaceAll` of an ASCII character by nothing. -/
def remove : Bytes := s.filter (· != b)

/-- What stands before and after the first occurrence of a byte, if it occurs. -/
def cut : Option (Bytes × Bytes) :=
  if b ∈ s then some (s.takeWhile (· != b), (s.dropWhile (· != b)).tail) else none

/-- `strings.Index`: where a word first occurs. -/
def index (word : Bytes) : Bytes → Option ℕ
  | [] => if word = [] then some 0 else none
  | b :: rest => if word.isPrefixOf (b :: rest) then some 0 else (index word rest).map (· + 1)

/-- The first of `strings.Fields`, empty if there is none. -/
def firstField : Bytes := go (trimSpace s)
where
  /-- The text up to the next space. -/
  go : Bytes → Bytes
    | [] => []
    | b :: rest => if spaces.any fun w => w.isPrefixOf (b :: rest) then [] else b :: go rest

/-- Replace every occurrence of a doubled byte by a single one. -/
def undouble (b : UInt8) : Bytes → Bytes
  | x :: y :: rest => if x = b ∧ y = b then b :: undouble b rest else x :: undouble b (y :: rest)
  | s => s

/-- The pieces of a text between the occurrences of a word, from the left and without overlaps;
`skip` bytes of the last occurrence are still to come. -/
def splitFrom (word : Bytes) : ℕ → Bytes → List Bytes
  | _, [] => [[]]
  | skip + 1, _ :: s => splitFrom word skip s
  | 0, b :: s =>
    if word.isPrefixOf (b :: s) then [] :: splitFrom word (word.length - 1) s
    else (splitFrom word 0 s).modifyHead (b :: ·)

/-- `strings.Split` by a word that is not empty. -/
def split (word s : Bytes) : List Bytes := splitFrom word 0 s

/-- `strings.ReplaceAll` of a word that is not empty: the new text stands between the pieces. -/
def replaceAll (s word new : Bytes) : Bytes := new.intercalate (split word s)

/-! ## Pieces of a text -/

section Pieces

variable {word s piece : Bytes} {words : List Bytes} {n : ℕ}

lemma dropWords_suffix : dropWords words n s <:+ s := by
  fun_induction dropWords words n s with
  | case1 => exact suffix_rfl
  | case2 _ s w _ ih => exact ih.trans (drop_suffix _ _)
  | case3 => exact suffix_rfl

lemma dropWords_eq_self (h : ∀ w ∈ words, ¬ w <+: s) : dropWords words n s = s := by
  cases n with
  | zero => rfl
  | succ n =>
    have hnone : words.find? (fun w => w.isPrefixOf s) = none := by simpa using h
    rw [dropWords, hnone]

lemma not_prefix_dropWords (hwords : [] ∉ words) (hn : s.length ≤ n) :
    ∀ w ∈ words, ¬ w <+: dropWords words n s := by
  fun_induction dropWords words n s with
  | case1 s =>
    rw [length_eq_zero_iff.mp (Nat.le_zero.mp hn)]
    exact fun w hw hfirst => hwords (prefix_nil.mp hfirst ▸ hw)
  | case2 n s w hfind ih =>
    have hw : w ≠ [] := fun h => hwords (h ▸ mem_of_find?_eq_some hfind)
    have hpos := length_pos_iff.mpr hw
    exact ih (by rw [length_drop]; omega)
  | case3 n s hfind => simpa using hfind

lemma prefix_trimSpace : trimSpace s <+: dropWords spaces s.length s := by
  rw [← reverse_reverse (dropWords spaces s.length s)]
  exact reverse_prefix.mpr dropWords_suffix

lemma infix_trimSpace : trimSpace s <:+: s :=
  prefix_trimSpace.isInfix.trans dropWords_suffix.isInfix

@[simp]
lemma trimSpace_trimSpace : trimSpace (trimSpace s) = trimSpace s := by
  -- No space is left at the start, and none comes back when the end is trimmed.
  have hleft : dropWords spaces (trimSpace s).length (trimSpace s) = trimSpace s :=
    dropWords_eq_self fun w hw hfirst =>
      not_prefix_dropWords (by decide) le_rfl w hw (hfirst.trans prefix_trimSpace)
  have hright : dropWords (spaces.map List.reverse) (trimSpace s).length (trimSpace s).reverse =
      (trimSpace s).reverse := by
    refine dropWords_eq_self fun w hw => ?_
    rw [trimSpace, reverse_reverse]
    exact not_prefix_dropWords (by decide) (length_reverse.le) w hw
  rw [trimSpace, hleft, hright, reverse_reverse]

/-- The pieces of a text are parts of it, and the word that separates them is in none of them. -/
lemma splitFrom_spec (word s : Bytes) (n : ℕ) :
    ∃ first rest, splitFrom word n s = first :: rest ∧ (n = 0 → first <+: s) ∧
    ∀ piece ∈ first :: rest, piece <:+: s ∧ (word ≠ [] → ¬ word <:+: piece) := by
  fun_induction splitFrom word n s with
  | case1 n => exact ⟨[], [], rfl, fun _ => prefix_rfl, by simp⟩
  | case2 skip b s ih =>
    obtain ⟨first, rest, heq, -, hpieces⟩ := ih
    exact ⟨first, rest, heq, nofun, fun piece hmem =>
      ⟨(hpieces piece hmem).1.trans (suffix_cons b s).isInfix, (hpieces piece hmem).2⟩⟩
  | case3 b s _ ih =>
    obtain ⟨first, rest, heq, -, hpieces⟩ := ih
    refine ⟨[], first :: rest, by rw [heq], fun _ => nil_prefix, fun piece hmem => ?_⟩
    rcases mem_cons.mp hmem with rfl | hmem
    · simp
    · exact ⟨(hpieces piece hmem).1.trans (suffix_cons b s).isInfix, (hpieces piece hmem).2⟩
  | case4 b s hstarts ih =>
    obtain ⟨first, rest, heq, hfirst, hpieces⟩ := ih
    have hfirst : b :: first <+: b :: s := cons_prefix_cons.mpr ⟨rfl, hfirst rfl⟩
    refine ⟨b :: first, rest, by rw [heq]; rfl, fun _ => hfirst, fun piece hmem => ?_⟩
    rcases mem_cons.mp hmem with rfl | hmem
    · refine ⟨hfirst.isInfix, fun hword hoccurs => ?_⟩
      rcases infix_cons_iff.mp hoccurs with hstart | hoccurs
      · exact hstarts <| isPrefixOf_iff_prefix.mpr <| hstart.trans hfirst
      · exact (hpieces first mem_cons_self).2 hword hoccurs
    · have hrest := hpieces piece (mem_cons_of_mem _ hmem)
      exact ⟨hrest.1.trans (suffix_cons b s).isInfix, hrest.2⟩

lemma infix_of_mem_split (h : piece ∈ split word s) : piece <:+: s := by
  obtain ⟨first, rest, heq, -, hpieces⟩ := splitFrom_spec word s 0
  exact (hpieces piece (heq ▸ h)).1

lemma not_infix_of_mem_split (hword : word ≠ []) (h : piece ∈ split word s) :
    ¬ word <:+: piece := by
  obtain ⟨first, rest, heq, -, hpieces⟩ := splitFrom_spec word s 0
  exact (hpieces piece (heq ▸ h)).2 hword

lemma length_lt_of_mem_split (hword : word ≠ []) (hoccurs : word <:+: s)
    (h : piece ∈ split word s) : piece.length < s.length := by
  refine (infix_of_mem_split h).length_le.lt_of_ne fun heq => not_infix_of_mem_split hword h ?_
  rwa [(infix_of_mem_split h).eq_of_length heq]

end Pieces

/-! ## Replacements -/

lemma length_splitFrom_pos (word : Bytes) (skip : ℕ) (s : Bytes) :
    0 < (splitFrom word skip s).length := by
  fun_induction splitFrom word skip s with
  | case1 => exact Nat.one_pos
  | case2 _ _ _ ih => exact ih
  | case3 => exact Nat.succ_pos _
  | case4 _ _ _ ih => rwa [length_modifyHead]

variable {word s x : Bytes}

lemma one_lt_length_split (hword : word ≠ []) (h : word <:+: s) : 1 < (split word s).length := by
  rw [split]
  induction s with
  | nil => exact absurd (infix_nil.mp h) hword
  | cons b s ih =>
    rw [splitFrom]
    split_ifs with hstarts
    · exact Nat.succ_lt_succ (length_splitFrom_pos _ _ _)
    · rw [length_modifyHead]
      refine ih ((infix_cons_iff.mp h).resolve_left fun hp => hstarts ?_)
      exact isPrefixOf_iff_prefix.mpr hp

lemma split_eq_singleton (h : ¬ word <:+: s) : split word s = [s] := by
  rw [split]
  induction s with
  | nil => rfl
  | cons b s ih =>
    obtain ⟨hstarts, hinfix⟩ := not_or.mp fun hor => h (infix_cons_iff.mpr hor)
    rw [splitFrom, if_neg fun hp => hstarts <| isPrefixOf_iff_prefix.mp hp, ih hinfix]
    rfl

variable {b : UInt8}

lemma not_mem_of_mem_split {piece : Bytes} (h : piece ∈ split [b] s) : b ∉ piece := by
  rw [split] at h
  induction s generalizing piece with
  | nil =>
    rw [mem_singleton.mp h]
    exact not_mem_nil
  | cons x s ih =>
    rw [splitFrom] at h
    split_ifs at h with hstarts
    · rcases mem_cons.mp h with rfl | h
      · exact not_mem_nil
      · exact ih h
    · have hne : b ≠ x := fun heq => hstarts (by simp [heq])
      rcases hpieces : splitFrom [b] 0 s with _ | ⟨first, pieces⟩
      · simp [hpieces] at h
      · rw [hpieces] at h ih
        rcases mem_cons.mp h with rfl | h
        · exact fun hmem => (mem_cons.mp hmem).elim hne (ih mem_cons_self)
        · exact ih (mem_cons_of_mem _ h)

lemma length_intercalate (new piece : Bytes) (pieces : List Bytes) :
    (new.intercalate (piece :: pieces)).length =
      ((piece :: pieces).map List.length).sum + pieces.length * new.length := by
  induction pieces generalizing piece with
  | nil => simp [List.intercalate]
  | cons piece' pieces ih =>
    rw [intercalate_cons_cons, length_append, length_append, ih piece']
    simp only [map_cons, sum_cons, length_cons, Nat.add_mul]
    omega

/-- Where the word occurs, different texts make a difference. -/
lemma replaceAll_inj {new new' : Bytes} (hword : word ≠ []) (h : word <:+: s) :
    replaceAll s word new = replaceAll s word new' ↔ new = new' := by
  refine ⟨fun heq => ?_, fun heq => heq ▸ rfl⟩
  have hlength := one_lt_length_split hword h
  rw [replaceAll, replaceAll] at heq
  rcases hsplit : split word s with _ | ⟨piece, _ | ⟨piece', pieces⟩⟩
  · simp [hsplit] at hlength
  · simp [hsplit] at hlength
  · rw [hsplit] at heq
    -- Both texts stand as often in the results, so they have the same length.
    have hsame : new.length = new'.length := by
      have hsum := congrArg List.length heq
      rw [length_intercalate, length_intercalate, Nat.add_left_cancel_iff] at hsum
      exact Nat.eq_of_mul_eq_mul_left (Nat.succ_pos pieces.length) hsum
    rw [intercalate_cons_cons, intercalate_cons_cons, append_assoc,
      append_assoc, append_cancel_left_eq] at heq
    exact (append_inj heq hsame).1

lemma replaceAll_of_not_infix (h : ¬ word <:+: s) (new : Bytes) : replaceAll s word new = s := by
  rw [replaceAll, split_eq_singleton h]
  simp [List.intercalate]

/-! ## Texts without a character -/

lemma remove_eq_self (h : b ∉ s) : remove b s = s :=
  filter_eq_self.mpr fun _ hc => bne_iff_ne.mpr fun heq => h (heq ▸ hc)

lemma dropWhile_eq_self (h : b ∉ s) : s.dropWhile (· == b) = s := by
  rcases s with _ | ⟨c, s⟩
  · rfl
  · rw [dropWhile_cons_of_neg]
    exact fun heq => h (beq_iff_eq.mp heq ▸ mem_cons_self)

lemma trim_eq_self (h : b ∉ s) : trim b s = s := by
  rw [trim, dropWhile_eq_self h, dropWhile_eq_self (by simpa using h), reverse_reverse]

lemma trim_enclosed (h : b ∉ s) : trim b ([b] ++ s ++ [b]) = s := by
  have hlast : (s ++ [b]).dropWhile (· == b) = s ++ [b] ∨ s = [] := by
    rcases s with _ | ⟨c, s⟩
    · exact .inr rfl
    · refine .inl (dropWhile_cons_of_neg fun heq => h ?_)
      exact beq_iff_eq.mp heq ▸ mem_cons_self
  rcases hlast with hlast | rfl
  · rw [trim, append_assoc, singleton_append, dropWhile_cons_of_pos (by simp), hlast,
      reverse_append, reverse_singleton, singleton_append,
      dropWhile_cons_of_pos (by simp), dropWhile_eq_self (by simpa using h),
      reverse_reverse]
  · simp [trim]

lemma cut_append (h : b ∉ x) (y : Bytes) : cut b (x ++ b :: y) = some (x, y) := by
  have hx : ∀ c ∈ x, (c != b) = true := fun c hc => bne_iff_ne.mpr fun heq => h (heq ▸ hc)
  rw [cut, if_pos (by simp), takeWhile_append_of_pos hx, dropWhile_append_of_pos hx]
  simp

/-! ## Parts of valid texts -/

lemma cut_eq_some {y : Bytes} (h : cut b s = some (x, y)) : s = x ++ b :: y := by
  have hsplit : ∀ s : Bytes, b ∈ s →
      s = s.takeWhile (· != b) ++ b :: (s.dropWhile (· != b)).tail := by
    intro s hmem
    induction s with
    | nil => cases hmem
    | cons c s ih =>
      by_cases hc : c = b
      · simp [hc]
      · have hmem' : b ∈ s := (mem_cons.mp hmem).resolve_left (Ne.symm hc)
        simpa [hc] using ih hmem'
  rw [cut] at h
  split at h
  · rename_i hmem
    obtain ⟨rfl, rfl⟩ := Prod.mk.inj (Option.some.inj h)
    exact hsplit s hmem
  · cases h

lemma valid_cut (hb : b.toNat < 0x80) {y : Bytes} (h : cut b s = some (x, y))
    (hs : Valid s) : Valid x ∧ Valid y := by
  rw [cut_eq_some h, valid_append_ascii hb] at hs
  exact hs

lemma valid_remove (hb : b.toNat < 0x80) (hs : Valid s) : Valid (remove b s) := by
  refine hs.filter fun c hc => ?_
  rw [bne_iff_ne]
  rintro rfl
  omega

lemma valid_trim (hb : b.toNat < 0x80) (hs : Valid s) : Valid (trim b s) := by
  have hleft : Valid (s.dropWhile (· == b)) := by
    induction s with
    | nil => exact hs
    | cons c s ih =>
      rw [dropWhile_cons]
      split
      · rename_i hc
        obtain rfl := beq_iff_eq.mp hc
        exact ih ((valid_cons_ascii hb).mp hs)
      · exact hs
  rw [trim]
  generalize s.dropWhile (· == b) = t at hleft
  -- What is dropped at the end is dropped character by character, from the right.
  induction t using List.reverseRecOn with
  | nil => exact hleft
  | append_singleton t c ih =>
    rw [reverse_append, reverse_singleton, singleton_append, dropWhile_cons]
    split
    · rename_i hc
      obtain rfl := beq_iff_eq.mp hc
      exact ih ((valid_append_ascii hb).mp hleft).1
    · simpa using hleft

lemma upper_of_not_ascii (hb : 0x80 ≤ b.toNat) : upper b = b := by
  rw [upper, if_neg (by omega)]

lemma valid_map_upper (hs : Valid s) : Valid (s.map upper) := by
  induction s using runesInduction with
  | nil => exact hs
  | invalid b rest hlen ih => exact absurd hs (not_valid_of_runeLen_eq_zero hlen)
  | valid b rest n hlen ih =>
    have hrest := ih ((valid_of_runeLen hlen).mp hs)
    by_cases hb : b.toNat < 0x80
    · -- A rune of its own, and its capital too.
      have hn : n = 0 := by
        rw [runeLen_ascii hb] at hlen
        omega
      have hupper : (upper b).toNat < 0x80 := by
        rw [upper]
        split
        · rw [UInt8.toNat_sub_of_le _ _ (by rw [UInt8.le_iff_toNat_le]; simp; omega)]
          omega
        · exact hb
      subst hn
      rw [map_cons, valid_cons_ascii hupper]
      simpa using hrest
    · -- The bytes of a longer rune are not ASCII, so none of them changes.
      have htake : (rest.take n).map upper = rest.take n := by
        conv_rhs => rw [← List.map_id (rest.take n)]
        exact map_congr_left fun c hc => upper_of_not_ascii (not_ascii_of_runeLen hlen c hc)
      have hn : n ≤ rest.length := (runeLen_cons_eq_succ_iff.mp hlen).2.1
      have hsplit : rest.map upper = rest.take n ++ (rest.drop n).map upper := by
        conv_lhs => rw [← take_append_drop n rest, map_append, htake]
      rw [map_cons, upper_of_not_ascii (by omega), hsplit,
        valid_of_runeLen (runeLen_append hlen _), drop_append_of_le_length (by simp [hn])]
      simpa [drop_take] using hrest

/-! ## Numbers -/

/-- The sign of a number text, and the rest. -/
def splitSign : Bytes → Bool × Bytes
  | 0x2B :: rest => (false, rest)
  | 0x2D :: rest => (true, rest)
  | s => (false, s)

/-- `strconv.ParseInt` with base 10 and 64 bits. -/
def parseInt64 (s : Bytes) : Option Int64 :=
  let (negative, digits) := splitSign s
  if digits = [] ∨ !digits.all isDigit then none
  else
    let n := natValue digits
    if negative then if n ≤ 2 ^ 63 then some (Int64.ofInt (-(n : ℤ))) else none
    else if n < 2 ^ 63 then some (Int64.ofInt n) else none

/-- `strconv.Atoi` with its error dropped: zero for no number, the closest one if out of range. -/
def atoi (s : Bytes) : Int64 :=
  let (negative, digits) := splitSign s
  if digits = [] ∨ !digits.all isDigit then 0
  else if negative then Int64.ofInt (max (-(natValue digits : ℤ)) (-2 ^ 63))
  else Int64.ofInt (min (natValue digits) (2 ^ 63 - 1))

/-- A digit of a number text, or of a hexadecimal one. -/
def isBaseDigit (hex : Bool) (b : UInt8) : Bool := isDigit b || (hex && (Json.hexValue b).isSome)

/-- `underscoreOK` on a text without sign: underscores stand only between digits or after a base
letter. -/
def underscoreOK (s : Bytes) : Bool :=
  let go := fun (hex : Bool) (start : UInt8) (s : Bytes) =>
    s.foldl (fun (state : Option UInt8) b =>
      state.bind fun saw =>
        if isBaseDigit hex b then some 48
        else if b = 95 then if saw = 48 then some 95 else none
        else if saw = 95 then none else some 33) (some start)
  let final := match s with
    | 48 :: letter :: rest =>
      if lower letter = 98 ∨ lower letter = 111 ∨ lower letter = 120 then
        go (lower letter = 120) 48 rest
      else go false 94 s
    | _ => go false 94 s
  match final with
  | some saw => saw ≠ 95
  | none => false

/-- The mantissa of a float text: the digits before and after the point, and the rest. -/
def splitMantissa (hex : Bool) (s : Bytes) : Bytes × Bytes × Bytes :=
  let digit := fun b => isBaseDigit hex b || b = 95
  let whole := s.takeWhile digit
  match s.dropWhile digit with
  | 46 :: rest => (whole, rest.takeWhile digit, rest.dropWhile digit)
  | rest => (whole, [], rest)

/-- The exponent of a float text; `none` is a malformed one. -/
def parseExponent (letter : UInt8) (s : Bytes) : Option (Option ℤ) :=
  match s with
  | [] => some none
  | b :: rest =>
    if lower b ≠ letter then none
    else
      let (negative, digits) := splitSign rest
      let plain := digits.filter (· ≠ 95)
      if digits.head?.all isDigit ∧ plain ≠ [] ∧ plain.all isDigit then
        some (some (if negative then -(natValue plain : ℤ) else natValue plain))
      else none

/-- Whether a number `mantissa * 2 ^ exponent` is beyond the range of a `float64`. -/
def binaryOverflows (mantissa : ℕ) (exponent : ℤ) : Bool :=
  if mantissa = 0 then false
  else
    let bits : ℤ := mantissa.log2 + 1 + exponent
    if bits < 1024 then false
    else if 1024 < bits then true
    else if 0 ≤ exponent then 2 ^ 1024 - 2 ^ 970 ≤ mantissa * 2 ^ exponent.toNat
    else (2 ^ 1024 - 2 ^ 970) * 2 ^ (-exponent).toNat ≤ mantissa

/-- `strconv.ParseFloat` with 64 bits; `none` is a syntax or range error. -/
def parseFloat64 (s : Bytes) : Option GoValue :=
  let (negative, t) := splitSign s
  let signed := t ≠ s
  if equalFold t (lit "inf") ∨ equalFold t (lit "infinity") then some .nonFinite
  else if !signed ∧ equalFold t (lit "nan") then some .nonFinite
  else
    let hex := hasPrefixFold t (lit "0x") && 2 < t.length
    let (whole, fraction, rest) := splitMantissa hex (if hex then t.drop 2 else t)
    let digits := (whole ++ fraction).filter (· ≠ 95)
    match parseExponent (if hex then 112 else 101) rest with
    | none => none
    | some exponent =>
      if digits = [] ∨ (hex ∧ exponent = none) ∨ (t.contains 95 ∧ !underscoreOK t) then none
      else if hex then
        let mantissa := digits.foldl (fun n b => n * 16 + (Json.hexValue b).getD 0) 0
        let fractionDigits := (fraction.filter (· ≠ 95)).length
        if binaryOverflows mantissa (exponent.getD 0 - 4 * fractionDigits) then none
        else some (.float s)
      else if floatOverflows ((if negative then [45] else []) ++ t.filter (· ≠ 95)) then none
      else some (.float s)

end DataStream.Text
