import DataStream.Foundations.Bytes

/-!
# UTF-8 as Go reads it

Go strings hold arbitrary bytes, and the functions that read a string as text decode it rune by
rune: a well-formed UTF-8 sequence is one rune, and a byte that starts none is read as one
`U+FFFD`. This file provides that reading:

* `runeLen`: the length of the well-formed sequence at the head of a byte string;
* `runes`: the byte string cut into runes;
* `toValid`: every byte that starts no rune replaced by the encoding of `U+FFFD`;
* `Valid`: the strings of which `toValid` changes nothing.

* `runes_of_runeLen`: one well-formed sequence at the head is one rune;
* `runes_cons_of_invalid`: a byte that starts no sequence is one invalid rune;
* `toValid_eq_self`: repairing a valid string changes nothing.
-/

namespace DataStream.Utf8

open List Option

/-- A continuation byte within the given bounds. -/
def inRange (lo hi : ℕ) (b : UInt8) : Bool := lo ≤ b.toNat && b.toNat ≤ hi

/-- The bounds on the second byte of a sequence of three or four bytes: no overlong forms,
surrogates or code points beyond `U+10FFFF`. -/
def secondRange (b₀ : UInt8) : ℕ × ℕ :=
  if b₀ = 0xE0 then (0xA0, 0xBF)
  else if b₀ = 0xED then (0x80, 0x9F)
  else if b₀ = 0xF0 then (0x90, 0xBF)
  else if b₀ = 0xF4 then (0x80, 0x8F)
  else (0x80, 0xBF)

/-- The number of continuation bytes a leading byte announces; `none` if it leads nothing. -/
def announced (b₀ : UInt8) : Option ℕ :=
  if b₀.toNat < 0x80 then some 0
  else if inRange 0xC2 0xDF b₀ then some 1
  else if inRange 0xE0 0xEF b₀ then some 2
  else if inRange 0xF0 0xF4 b₀ then some 3
  else none

/-- Whether the continuation bytes of a sequence led by `b₀` are within their bounds. -/
def continues (b₀ : UInt8) : Bytes → Bool
  | [] => true
  | b₁ :: rest => inRange (secondRange b₀).1 (secondRange b₀).2 b₁ && rest.all (inRange 0x80 0xBF)

/-- The length of the well-formed sequence at the head of a byte string; zero if there is
none. -/
def runeLen : Bytes → ℕ
  | [] => 0
  | b₀ :: rest =>
    match announced b₀ with
    | none => 0
    | some n => if (rest.take n).length = n ∧ continues b₀ (rest.take n) then n + 1 else 0

inductive Rune where
  /-- A well-formed sequence. -/
  | valid (bytes : Bytes)
  /-- A byte that starts no well-formed sequence. -/
  | invalid (byte : UInt8)
  deriving DecidableEq, Repr

def replacement : Bytes := [0xEF, 0xBF, 0xBD]

/-- The bytes a rune is written as: its own, or `U+FFFD`. -/
def Rune.encode : Rune → Bytes
  | .valid bytes => bytes
  | .invalid _ => replacement

/-- `runes` with a bound on the number of runes. -/
def runesGo : ℕ → Bytes → List Rune
  | 0, _ => []
  | _ + 1, [] => []
  | fuel + 1, b :: rest =>
    match runeLen (b :: rest) with
    | 0 => .invalid b :: runesGo fuel rest
    | n + 1 => .valid (b :: rest.take n) :: runesGo fuel (rest.drop n)

/-- A byte string cut into runes. -/
def runes (s : Bytes) : List Rune := runesGo s.length s

/-- `strings.ToValidUTF8(s, "�")` without merging runs: what encoders make of `s`. -/
def toValid (s : Bytes) : Bytes := (runes s).flatMap Rune.encode

def Valid (s : Bytes) : Prop := ∀ r ∈ runes s, ∃ bytes, r = .valid bytes

instance (s : Bytes) : Decidable (Valid s) :=
  decidable_of_iff (∀ r ∈ runes s, (match r with | .valid _ => true | .invalid _ => false) = true)
    (by
      unfold Valid
      refine forall₂_congr fun r _ => ?_
      cases r <;> simp)

/-! ## The well-formed sequence at the head -/

variable {b : UInt8} {rest : Bytes} {n : ℕ} {s : Bytes}

/-- When there is a well-formed sequence of `n + 1` bytes at the head. -/
lemma runeLen_cons_eq_succ_iff :
    runeLen (b :: rest) = n + 1 ↔
      announced b = some n ∧ n ≤ rest.length ∧ continues b (rest.take n) = true := by
  simp only [runeLen, length_take, min_eq_left_iff]
  cases announced b with
  | none => simp
  | some k =>
    by_cases hc : k ≤ rest.length ∧ continues b (rest.take k) = true
    · simp only [hc, and_self, if_true, Nat.add_right_cancel_iff, some.injEq]
      constructor
      · rintro rfl
        exact ⟨rfl, hc⟩
      · exact fun h => h.1
    · simp only [hc, if_false, some.injEq]
      constructor
      · intro h
        omega
      · rintro ⟨rfl, h⟩
        exact absurd h hc

lemma runeLen_append (h : runeLen (b :: rest) = n + 1) (t : Bytes) :
    runeLen (b :: (rest.take n ++ t)) = n + 1 := by
  rw [runeLen_cons_eq_succ_iff] at h ⊢
  obtain ⟨ha, hlen, hc⟩ := h
  have htake : (rest.take n ++ t).take n = rest.take n := by
    rw [take_append_of_le_length (by simp [hlen]), take_take, min_self]
  exact ⟨ha, by simp [hlen], by rw [htake]; exact hc⟩

lemma runeLen_ascii (hb : b.toNat < 0x80) (rest : Bytes) : runeLen (b :: rest) = 1 := by
  simp [runeLen, announced, hb, continues]

private lemma ge_of_continues {t : Bytes} (h : continues b t = true) : ∀ c ∈ t, 0x80 ≤ c.toNat := by
  cases t with
  | nil => simp
  | cons b₁ rest =>
    simp only [continues, Bool.and_eq_true, List.all_eq_true, inRange, decide_eq_true_eq] at h
    have hlow : 0x80 ≤ (secondRange b).1 := by
      unfold secondRange
      split_ifs <;> decide
    intro c hmem
    rcases mem_cons.mp hmem with rfl | hmem
    · exact hlow.trans h.1.1
    · exact (h.2 c hmem).1

lemma not_ascii_of_runeLen (h : runeLen (b :: rest) = n + 1) : ∀ c ∈ rest.take n, 0x80 ≤ c.toNat :=
  ge_of_continues (runeLen_cons_eq_succ_iff.mp h).2.2

/-! ## Cutting a string into runes -/

lemma runesGo_of_le (s : Bytes) (fuel : ℕ) (h : s.length ≤ fuel) : runesGo fuel s = runes s := by
  suffices ∀ n fuel₁ fuel₂ (s : Bytes), s.length = n → n ≤ fuel₁ → n ≤ fuel₂ →
      runesGo fuel₁ s = runesGo fuel₂ s from this _ _ _ s rfl h (le_refl _)
  intro n
  induction n using Nat.strong_induction_on with
  | h n ih =>
    intro fuel₁ fuel₂ s hs h₁ h₂
    cases s with
    | nil => cases fuel₁ <;> cases fuel₂ <;> rfl
    | cons b rest =>
      simp only [length_cons] at hs
      obtain ⟨f₁, rfl⟩ : ∃ f, fuel₁ = f + 1 := ⟨fuel₁ - 1, by omega⟩
      obtain ⟨f₂, rfl⟩ : ∃ f, fuel₂ = f + 1 := ⟨fuel₂ - 1, by omega⟩
      simp only [runesGo]
      split
      · rw [ih rest.length (by omega) f₁ f₂ rest rfl (by omega) (by omega)]
      · next k _ =>
        rw [ih (rest.drop k).length (by simp only [length_drop]; omega) f₁ f₂ _ rfl
          (by simp only [length_drop]; omega) (by simp only [length_drop]; omega)]

@[simp]
lemma runes_nil : runes [] = [] := rfl

theorem runes_cons_of_invalid (h : runeLen (b :: rest) = 0) :
    runes (b :: rest) = .invalid b :: runes rest := by
  simp [runes, runesGo, h]

theorem runes_of_runeLen (h : runeLen (b :: rest) = n + 1) :
    runes (b :: rest) = .valid (b :: rest.take n) :: runes (rest.drop n) := by
  have : runesGo rest.length (rest.drop n) = runes (rest.drop n) := runesGo_of_le _ _ (by simp)
  simp [runes, runesGo, h, this]

lemma runes_cons_ascii (hb : b.toNat < 0x80) (rest : Bytes) :
    runes (b :: rest) = .valid [b] :: runes rest := by
  simpa using runes_of_runeLen (runeLen_ascii hb rest)

/-- Induction along the runes of a byte string. -/
lemma runesInduction {motive : Bytes → Prop} (nil : motive [])
    (invalid : ∀ b rest, runeLen (b :: rest) = 0 → motive rest → motive (b :: rest))
    (valid : ∀ b rest n, runeLen (b :: rest) = n + 1 → motive (rest.drop n) →
      motive (b :: rest)) (s : Bytes) : motive s := by
  induction h : s.length using Nat.strong_induction_on generalizing s with
  | h n ih =>
    cases s with
    | nil => exact nil
    | cons b rest =>
      simp only [length_cons] at h
      cases hlen : runeLen (b :: rest) with
      | zero => exact invalid b rest hlen (ih _ (by omega) rest rfl)
      | succ k =>
        exact valid b rest k hlen (ih _ (by simp only [length_drop]; omega) (rest.drop k) rfl)

/-! ## Valid strings -/

@[simp]
lemma toValid_nil : toValid [] = [] := rfl

@[simp]
lemma valid_nil : Valid [] := by simp [Valid]

lemma valid_cons_ascii (hb : b.toNat < 0x80) : Valid (b :: rest) ↔ Valid rest := by
  simp [Valid, runes_cons_ascii hb]

theorem toValid_eq_self (h : Valid s) : toValid s = s := by
  induction s using runesInduction with
  | nil => rfl
  | invalid b rest hlen ih =>
    rw [Valid, runes_cons_of_invalid hlen] at h
    obtain ⟨bytes, hbytes⟩ := h _ mem_cons_self
    cases hbytes
  | valid b rest n hlen ih =>
    rw [Valid, runes_of_runeLen hlen] at h
    have hrest : toValid (rest.drop n) = rest.drop n := ih fun r hr => h r (mem_cons_of_mem _ hr)
    rw [toValid, runes_of_runeLen hlen, flatMap_cons, ← toValid, hrest]
    simp [Rune.encode]

/-! ## Splitting at an ASCII character -/

/-- An ASCII character is no part of a longer sequence, so what stands before it is read alike. -/
lemma runeLen_append_ascii (hb : b.toNat < 0x80) (b₀ : UInt8) (s t : Bytes) :
    runeLen (b₀ :: (s ++ b :: t)) = runeLen (b₀ :: s) := by
  have hiff : ∀ n, runeLen (b₀ :: (s ++ b :: t)) = n + 1 ↔ runeLen (b₀ :: s) = n + 1 := by
    intro n
    refine ⟨fun h => ?_, fun h => ?_⟩
    · have hge := not_ascii_of_runeLen h
      -- The sequence ends before the ASCII character.
      have hn : n ≤ s.length := by
        by_contra hlt
        have hmem : b ∈ (s ++ b :: t).take n := by
          rw [take_append, mem_append]
          refine .inr ?_
          obtain ⟨k, hk⟩ : ∃ k, n - s.length = k + 1 := ⟨n - s.length - 1, by omega⟩
          rw [hk, take_succ_cons]
          exact mem_cons_self
        exact absurd (hge b hmem) (by omega)
      rw [runeLen_cons_eq_succ_iff] at h ⊢
      rw [take_append_of_le_length hn] at h
      exact ⟨h.1, hn, h.2.2⟩
    · rw [runeLen_cons_eq_succ_iff] at h ⊢
      rw [take_append_of_le_length h.2.1]
      exact ⟨h.1, h.2.1.trans (by simp), h.2.2⟩
  cases h : runeLen (b₀ :: s) with
  | zero =>
    cases h' : runeLen (b₀ :: (s ++ b :: t)) with
    | zero => rfl
    | succ n => rw [hiff, h] at h'; cases h'
  | succ n => rw [hiff, h]

lemma runes_append_ascii (hb : b.toNat < 0x80) (s t : Bytes) :
    runes (s ++ b :: t) = runes s ++ .valid [b] :: runes t := by
  induction s using runesInduction with
  | nil => rw [nil_append, runes_cons_ascii hb, runes_nil, nil_append]
  | invalid b₀ rest hlen ih =>
    have hlen' := (runeLen_append_ascii hb b₀ rest t).trans hlen
    rw [cons_append, runes_cons_of_invalid hlen', runes_cons_of_invalid hlen, ih, cons_append]
  | valid b₀ rest n hlen ih =>
    have hlen' := (runeLen_append_ascii hb b₀ rest t).trans hlen
    have hn : n ≤ rest.length := (runeLen_cons_eq_succ_iff.mp hlen).2.1
    rw [cons_append, runes_of_runeLen hlen', runes_of_runeLen hlen,
      take_append_of_le_length hn, drop_append_of_le_length hn, ih, cons_append]

lemma valid_append_ascii (hb : b.toNat < 0x80) {t : Bytes} :
    Valid (s ++ b :: t) ↔ Valid s ∧ Valid t := by
  simp only [Valid, runes_append_ascii hb, mem_append, mem_cons, or_imp, forall_and]
  simp

lemma valid_of_runeLen (h : runeLen (b :: rest) = n + 1) :
    Valid (b :: rest) ↔ Valid (rest.drop n) := by
  simp [Valid, runes_of_runeLen h]

lemma not_valid_of_runeLen_eq_zero (h : runeLen (b :: rest) = 0) : ¬ Valid (b :: rest) := by
  intro hvalid
  rw [Valid, runes_cons_of_invalid h] at hvalid
  obtain ⟨bytes, hbytes⟩ := hvalid _ mem_cons_self
  cases hbytes

lemma valid_toValid (s : Bytes) : Valid (toValid s) := by
  induction s using runesInduction with
  | nil => exact valid_nil
  | invalid b rest hlen ih =>
    -- The encoding of `U+FFFD` is one sequence of three bytes, whatever follows it.
    have hreplacement : runeLen (replacement ++ toValid rest) = 2 + 1 := rfl
    rw [toValid, runes_cons_of_invalid hlen, flatMap_cons, ← toValid]
    exact (valid_of_runeLen hreplacement).mpr ih
  | valid b rest n hlen ih =>
    have htake : (rest.take n).length = n :=
      length_take_of_le (runeLen_cons_eq_succ_iff.mp hlen).2.1
    rw [toValid, runes_of_runeLen hlen, flatMap_cons, ← toValid]
    refine (valid_of_runeLen (runeLen_append hlen _)).mpr ?_
    rwa [drop_append_of_le_length htake.ge, drop_of_length_le htake.le, nil_append]

@[simp]
lemma toValid_toValid (s : Bytes) : toValid (toValid s) = toValid s :=
  toValid_eq_self (valid_toValid s)

lemma Valid.filter {p : UInt8 → Bool} (hp : ∀ b, 0x80 ≤ b.toNat → p b = true) (h : Valid s) :
    Valid (s.filter p) := by
  induction s using runesInduction with
  | nil => exact valid_nil
  | invalid b rest hlen ih => exact absurd h (not_valid_of_runeLen_eq_zero hlen)
  | valid b rest n hlen ih =>
    have hrest := ih ((valid_of_runeLen hlen).mp h)
    have hkeep : (rest.take n).filter p = rest.take n := by
      rw [filter_eq_self]
      exact fun c hc => hp c (not_ascii_of_runeLen hlen c hc)
    have hsplit : rest.filter p = rest.take n ++ (rest.drop n).filter p := by
      conv_lhs => rw [← take_append_drop n rest, filter_append, hkeep]
    by_cases hb : p b = true
    · -- The rune is kept whole.
      rw [filter_cons_of_pos hb, hsplit]
      have hlen' := runeLen_append hlen ((rest.drop n).filter p)
      have hn : n ≤ rest.length := (runeLen_cons_eq_succ_iff.mp hlen).2.1
      rw [valid_of_runeLen hlen', drop_append_of_le_length (by simp [hn])]
      simpa [drop_take] using hrest
    · -- Only an ASCII character can be removed, and it is a rune of its own.
      have hascii : b.toNat < 0x80 := by
        by_contra hge
        exact hb (hp b (by omega))
      have hn : n = 0 := by
        rw [runeLen_ascii hascii] at hlen
        omega
      subst hn
      rw [filter_cons_of_neg hb]
      simpa using hrest

end DataStream.Utf8
