import DataStream.Foundations.Bytes
import Mathlib.Data.Nat.Digits.Lemmas

/-!
# Decimal numerals

The decimal text of an integer, as `fmt.Sprintf("%d")` and `strconv.AppendInt` write it, and the
value of a digit string, as `strconv.ParseUint` computes it.

* `natValue_formatNat`: the value of the numeral of `n` is `n`;
* `all_isDigit_formatNat` and `formatNat_head`: a numeral is a digit string without a leading zero,
  but for zero;
* `append_lt_append_of_natValue_lt`: digit strings of one length are in the order of their values;
* `lt_iff_of_length_lt`: when a digit string is before a longer one.
-/

namespace DataStream.Bytes

open List

def isDigit (b : UInt8) : Bool := 48 ≤ b.toNat && b.toNat ≤ 57

def digitByte (d : ℕ) : UInt8 := UInt8.ofNat (48 + d)

/-- The value of an ASCII digit string, most significant digit first. -/
def natValue (s : Bytes) : ℕ := s.foldl (fun acc b => acc * 10 + (b.toNat - 48)) 0

def formatNat (n : ℕ) : Bytes :=
  if n = 0 then [digitByte 0] else ((Nat.digits 10 n).map digitByte).reverse

/-- The decimal numeral of an integer, with a leading minus sign when it is negative. -/
def formatInt : ℤ → Bytes
  | .ofNat n => formatNat n
  | .negSucc n => 45 :: formatNat (n + 1)

lemma toNat_digitByte {d : ℕ} (hd : d < 10) : (digitByte d).toNat = 48 + d := by
  simp only [digitByte, UInt8.toNat_ofNat']
  omega

lemma isDigit_digitByte {d : ℕ} (hd : d < 10) : isDigit (digitByte d) = true := by
  simp only [isDigit, toNat_digitByte hd, Bool.and_eq_true, decide_eq_true_eq]
  omega

lemma natValue_reverse_map_digitByte {ds : List ℕ} (h : ∀ d ∈ ds, d < 10) :
    natValue (ds.map digitByte).reverse = Nat.ofDigits 10 ds := by
  induction ds with
  | nil => rfl
  | cons d ds ih =>
    have hd : d < 10 := h d (by simp)
    have ih := ih fun x hx => h x (by simp [hx])
    simp only [natValue, map_cons, reverse_cons, foldl_append,
      foldl_cons, foldl_nil, toNat_digitByte hd, Nat.ofDigits_cons] at ih ⊢
    omega

/-- Reading a numeral back gives the number it was written for. -/
@[simp]
theorem natValue_formatNat (n : ℕ) : natValue (formatNat n) = n := by
  unfold formatNat
  split
  · next h => subst h; rfl
  · rw [natValue_reverse_map_digitByte fun d hd => Nat.digits_lt_base (by omega) hd,
      Nat.ofDigits_digits]

theorem all_isDigit_formatNat (n : ℕ) : ∀ b ∈ formatNat n, isDigit b = true := by
  intro b hb
  unfold formatNat at hb
  split at hb
  · rw [mem_singleton] at hb
    rw [hb]
    exact isDigit_digitByte (by omega)
  · rw [mem_reverse, List.mem_map] at hb
    obtain ⟨d, hd, rfl⟩ := hb
    exact isDigit_digitByte (Nat.digits_lt_base (by omega) hd)

/-- A numeral is not empty, and it starts with zero only when it is the numeral of zero. -/
theorem formatNat_head (n : ℕ) : ∃ b rest, formatNat n = b :: rest ∧ (b = 48 → rest = []) := by
  unfold formatNat
  split
  · exact ⟨_, _, rfl, fun _ => rfl⟩
  · next h =>
    have hne : Nat.digits 10 n ≠ [] := Nat.digits_ne_nil_iff_ne_zero.mpr h
    have hlast := Nat.getLast_digit_ne_zero 10 h
    have hlt : (Nat.digits 10 n).getLast hne < 10 := Nat.digits_lt_base (by omega) (getLast_mem hne)
    refine ⟨digitByte ((Nat.digits 10 n).getLast hne),
      ((Nat.digits 10 n).dropLast.map digitByte).reverse, ?_, ?_⟩
    · conv_lhs => rw [← dropLast_append_getLast hne]
      simp
    · intro hzero
      have := congrArg UInt8.toNat hzero
      rw [toNat_digitByte hlt] at this
      have : (Nat.digits 10 n).getLast hne = 0 := by
        simpa using this
      exact absurd this hlast

/-! ## The order of digit strings -/

lemma natValue_cons (b : UInt8) (s : Bytes) :
    natValue (b :: s) = (b.toNat - 48) * 10 ^ s.length + natValue s := by
  have hfold : ∀ (s : Bytes) (acc : ℕ),
      s.foldl (fun acc b => acc * 10 + (b.toNat - 48)) acc = acc * 10 ^ s.length + natValue s := by
    intro s
    induction s with
    | nil => simp [natValue]
    | cons b s ih =>
      intro acc
      rw [natValue, foldl_cons, foldl_cons, ih, ih, length_cons, pow_succ]
      ring
  rw [natValue, foldl_cons, hfold]
  simp

variable {s t : Bytes}

lemma natValue_lt (h : ∀ b ∈ s, isDigit b = true) : natValue s < 10 ^ s.length := by
  induction s with
  | nil => simp [natValue]
  | cons b s ih =>
    obtain ⟨hb, hs⟩ := forall_mem_cons.mp h
    have hdigit : b.toNat - 48 ≤ 9 := by
      simp only [isDigit, Bool.and_eq_true, decide_eq_true_eq] at hb
      omega
    have hmul : (b.toNat - 48) * 10 ^ s.length ≤ 9 * 10 ^ s.length := Nat.mul_le_mul_right _ hdigit
    rw [natValue_cons, length_cons, pow_succ]
    have hrest := ih hs
    omega

section SameLength

variable (hlen : s.length = t.length) (hs : ∀ b ∈ s, isDigit b = true)
  (ht : ∀ b ∈ t, isDigit b = true)
include hlen hs ht

lemma natValue_trichotomy :
    (natValue s < natValue t ∧ ∀ x y, s ++ x < t ++ y) ∨ s = t ∨ natValue t < natValue s := by
  induction s generalizing t with
  | nil => exact .inr (.inl (length_eq_zero_iff.mp hlen.symm).symm)
  | cons b s ih =>
    cases t with
    | nil => exact nomatch hlen
    | cons c t =>
      obtain ⟨hb, hs'⟩ := forall_mem_cons.mp hs
      obtain ⟨hc, ht'⟩ := forall_mem_cons.mp ht
      have hlength : s.length = t.length := Nat.succ.inj hlen
      have hslt := natValue_lt hs'
      have htlt := natValue_lt ht'
      simp only [isDigit, Bool.and_eq_true, decide_eq_true_eq] at hb hc
      simp only [natValue_cons, cons_append, cons_lt_cons_iff]
      rw [hlength] at hslt ⊢
      have hmul : ∀ {m n : ℕ}, m < n → (m + 1) * 10 ^ t.length ≤ n * 10 ^ t.length :=
        fun hlt => Nat.mul_le_mul_right _ hlt
      -- The first digits decide, unless they are equal.
      rcases lt_trichotomy b.toNat c.toNat with hlt | heq | hgt
      · have hdigits := hmul (show b.toNat - 48 < c.toNat - 48 by omega)
        rw [Nat.succ_mul] at hdigits
        exact .inl ⟨by omega, fun x y => .inl (UInt8.lt_iff_toNat_lt.mpr hlt)⟩
      · obtain rfl := UInt8.toNat_inj.mp heq
        rcases ih hlength hs' ht' with ⟨hlt, horder⟩ | rfl | hgt
        · exact .inl ⟨by omega, fun x y => .inr ⟨rfl, horder x y⟩⟩
        · exact .inr (.inl rfl)
        · exact .inr (.inr (by omega))
      · have hdigits := hmul (show c.toNat - 48 < b.toNat - 48 by omega)
        rw [Nat.succ_mul] at hdigits
        exact .inr (.inr (by omega))

/-- Digit strings of one length are in the byte order of their values, whatever follows them. -/
theorem append_lt_append_of_natValue_lt (h : natValue s < natValue t) (x y : Bytes) :
    s ++ x < t ++ y := by
  rcases natValue_trichotomy hlen hs ht with hlt | rfl | hgt
  · exact hlt.2 x y
  · exact absurd h (lt_irrefl _)
  · exact absurd h hgt.asymm

lemma eq_of_natValue_eq (h : natValue s = natValue t) : s = t := by
  rcases natValue_trichotomy hlen hs ht with hlt | heq | hgt
  · exact absurd h hlt.1.ne
  · exact heq
  · exact absurd h hgt.ne'

end SameLength

lemma natValue_append (s t : Bytes) :
    natValue (s ++ t) = natValue s * 10 ^ t.length + natValue t := by
  induction s with
  | nil => simp [natValue]
  | cons b s ih =>
    rw [cons_append, natValue_cons, natValue_cons, ih, length_append, pow_add]
    ring

lemma natValue_take (ht : ∀ b ∈ t, isDigit b = true) (k : ℕ) :
    natValue (t.take k) = natValue t / 10 ^ (t.drop k).length := by
  have hdrop : natValue (t.drop k) < 10 ^ (t.drop k).length :=
    natValue_lt fun b hb => ht b (mem_of_mem_drop hb)
  conv_rhs => rw [← take_append_drop k t, natValue_append]
  rw [take_append_drop, mul_comm, Nat.mul_add_div (pow_pos (by norm_num) _),
    Nat.div_eq_of_lt hdrop, add_zero]

/-- A digit string is before a longer one exactly if its value is at most that of the first digits
of the other. -/
theorem lt_iff_of_length_lt (hlen : s.length < t.length) (hs : ∀ b ∈ s, isDigit b = true)
    (ht : ∀ b ∈ t, isDigit b = true) :
    s < t ↔ natValue s ≤ natValue t / 10 ^ (t.length - s.length) := by
  have htake : (t.take s.length).length = s.length := by
    rw [length_take, Nat.min_eq_left hlen.le]
  have ht' : ∀ b ∈ t.take s.length, isDigit b = true := fun b hb => ht b (mem_of_mem_take hb)
  rw [← length_drop, ← natValue_take ht]
  have hsplit := take_append_drop s.length t
  rcases lt_trichotomy (natValue s) (natValue (t.take s.length)) with hlt | heq | hgt
  · have horder := append_lt_append_of_natValue_lt htake.symm hs ht' hlt [] (t.drop s.length)
    rw [append_nil, hsplit] at horder
    exact iff_of_true horder hlt.le
  · -- The first digits are the shorter string itself.
    have hsame := eq_of_natValue_eq htake.symm hs ht' heq
    obtain ⟨b, rest, hrest⟩ : ∃ b rest, t.drop s.length = b :: rest := by
      apply exists_cons_of_ne_nil
      rw [Ne, drop_eq_nil_iff]
      omega
    have horder : s ++ [] < s ++ b :: rest := append_left_lt (nil_lt_cons b rest)
    rw [append_nil] at horder
    refine iff_of_true ?_ heq.le
    rwa [← hsplit, ← hsame, hrest]
  · have horder := append_lt_append_of_natValue_lt htake ht' hs hgt (t.drop s.length) []
    rw [append_nil, hsplit] at horder
    exact iff_of_false (List.lt_asymm horder) (not_le.mpr hgt)

end DataStream.Bytes
