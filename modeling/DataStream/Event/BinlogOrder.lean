import DataStream.Event.Position
import Mathlib.Data.Prod.Lex

/-!
# The order of binary log positions

A server names its binary log files by a base name and a number, written in at least six digits,
and goes on with seven digits after `999999`. A later position is one in a file with a larger
number, or further on in the same file. `Compare` in the file-position mode compares the names as
texts, which is the order of the numbers as long as they are written with the same number of digits.

* `compare_filePos_iff`: when `Compare` returns the order of the log.
-/

namespace DataStream.Event

open Bytes Time List Position

variable (p : Position) (base : Bytes) (number : ℕ) (offset : UInt32)

/-- The name of a binary log file. -/
def binlogName : Bytes := base ++ lit "." ++ padded 6 number

/-- The number of digits in which the number of a file is written. -/
def nameWidth : ℕ := (padded 6 number).length

def logPlace : ℕ ×ₗ ℕ := toLex (number, offset.toNat)

/-- The sign of the comparison of two places in the log. -/
def logSign (x y : ℕ ×ₗ ℕ) : ℤ := if x < y then -1 else if y < x then 1 else 0

/-- A position in a file of a server, with whatever the other fields hold. -/
def Position.inFile : Position :=
  { p with binlogFile := binlogName base number, binlogPos := offset }

/-! ## The names -/

lemma length_formatNat (n : ℕ) : (formatNat n).length = max 1 (Nat.digits 10 n).length := by
  unfold formatNat
  split_ifs with hzero
  · simp [hzero]
  · have hpos : 0 < (Nat.digits 10 n).length :=
      length_pos_iff.mpr (Nat.digits_ne_nil_iff_ne_zero.mpr hzero)
    rw [length_reverse, length_map]
    omega

lemma nameWidth_eq (n : ℕ) : nameWidth n = max 6 (Nat.digits 10 n).length := by
  simp only [nameWidth, padded, length_append, length_replicate, length_formatNat]
  omega

variable {m n : ℕ}

lemma nameWidth_mono (h : m ≤ n) : nameWidth m ≤ nameWidth n := by
  have hdigits : (Nat.digits 10 m).length ≤ (Nat.digits 10 n).length :=
    Nat.le_length_digits_le 10 m n h
  rw [nameWidth_eq, nameWidth_eq]
  omega

private lemma append_lt_append_iff (a s t : Bytes) : a ++ s < a ++ t ↔ s < t := by
  induction a with
  | nil => rfl
  | cons b a ih =>
    rw [cons_append, cons_append, cons_lt_cons_iff, ih]
    exact ⟨fun h => h.elim (fun hlt => absurd hlt (UInt8.lt_irrefl b)) And.right,
      fun h => .inr ⟨rfl, h⟩⟩

/-- An earlier file name is before a later one exactly if its number is at most what the first
digits of the other number say. -/
theorem binlogName_lt_iff (h : m < n) :
    binlogName base m < binlogName base n ↔ m ≤ n / 10 ^ (nameWidth n - nameWidth m) := by
  have hm := all_isDigit_padded 6 m
  have hn := all_isDigit_padded 6 n
  rw [binlogName, binlogName, append_lt_append_iff]
  rcases (nameWidth_mono h.le).lt_or_eq with hlt | heq
  · rw [lt_iff_of_length_lt hlt hm hn, natValue_padded, natValue_padded]
    rfl
  · have horder := append_lt_append_of_natValue_lt heq hm hn
      (by rwa [natValue_padded, natValue_padded]) [] []
    rw [append_nil, append_nil] at horder
    rw [heq, Nat.sub_self, pow_zero, Nat.div_one]
    exact iff_of_true horder h.le

lemma binlogName_injective : Function.Injective (binlogName base) := by
  intro m n h
  have hpadded : padded 6 m = padded 6 n := append_cancel_left h
  rw [← natValue_padded 6 m, hpadded, natValue_padded]

/-! ## Compare -/

lemma compareStrings_swap (a b : Bytes) : compareStrings b a = -compareStrings a b := by
  unfold compareStrings
  split
  · next hlt => simp [List.lt_asymm hlt]
  · next hnot => split <;> simp_all

lemma logSign_swap (x y : ℕ ×ₗ ℕ) : logSign y x = -logSign x y := by
  unfold logSign
  rcases lt_trichotomy x y with hlt | rfl | hgt
  · simp [hlt, lt_asymm hlt]
  · simp
  · simp [hgt, lt_asymm hgt]

lemma compare_inFile_self (p q : Position) (base : Bytes) (n : ℕ) (a b : UInt32) :
    (p.inFile base n a).compare (q.inFile base n b) .mySQLFilePos =
      .ok (logSign (logPlace n a) (logPlace n b)) := by
  have hfile : Position.compareStrings (binlogName base n) (binlogName base n) = 0 := by
    simp [Position.compareStrings, List.lt_irrefl]
  have hplace : ∀ a b : UInt32, logPlace n a < logPlace n b ↔ a.toUInt64 < b.toUInt64 := by
    intro a b
    rw [logPlace, logPlace, Prod.Lex.toLex_lt_toLex, UInt64.lt_iff_toNat_lt]
    simp
  simp only [Position.compare, Position.inFile, hfile, ne_eq, not_true_eq_false, if_false]
  simp only [Position.compareUint64, logSign, hplace]

lemma eq_of_compareStrings_eq_zero {a b : Bytes} (h : compareStrings a b = 0) : a = b := by
  unfold compareStrings at h
  split at h
  · simp at h
  split at h
  · simp at h
  next hab hba => exact List.le_antisymm (List.not_lt.mp hba) (List.not_lt.mp hab)

lemma compare_inFile_of_ne (p q : Position) (base : Bytes) (h : m ≠ n) (a b : UInt32) :
    (p.inFile base m a).compare (q.inFile base n b) .mySQLFilePos =
      .ok (compareStrings (binlogName base m) (binlogName base n)) := by
  have hsign : compareStrings (p.inFile base m a).binlogFile (q.inFile base n b).binlogFile ≠ 0 :=
    fun hzero => h (binlogName_injective base (eq_of_compareStrings_eq_zero hzero))
  rw [Position.compare, if_pos hsign]
  rfl

private lemma compare_eq_logSign_iff_of_lt (h : m < n) (a b : UInt32) :
    compareStrings (binlogName base m) (binlogName base n) = logSign (logPlace m a) (logPlace n b) ↔
      m ≤ n / 10 ^ (nameWidth n - nameWidth m) := by
  have hplace : logSign (logPlace m a) (logPlace n b) = -1 := by
    rw [logSign, if_pos]
    rw [logPlace, logPlace, Prod.Lex.toLex_lt_toLex]
    exact .inl h
  rw [hplace, ← binlogName_lt_iff base h, compareStrings]
  split
  · next hlt => simp [hlt]
  · next hnot => split <;> simp [hnot]

/-- **The order of the log.** For all file numbers and offsets, `Compare` in the file-position mode
is the comparison of number and offset exactly if the smaller number is at most what the first
digits of the larger one say, taken to the width of the smaller one. -/
theorem compare_filePos_iff (p q : Position) (base : Bytes) (m n : ℕ) (a b : UInt32) :
    (p.inFile base m a).compare (q.inFile base n b) .mySQLFilePos =
        .ok (logSign (logPlace m a) (logPlace n b)) ↔
      min m n ≤ max m n / 10 ^ (nameWidth (max m n) - nameWidth (min m n)) := by
  rcases lt_trichotomy m n with hlt | rfl | hgt
  · rw [compare_inFile_of_ne p q base hlt.ne, Except.ok.injEq, min_eq_left hlt.le,
      max_eq_right hlt.le]
    exact compare_eq_logSign_iff_of_lt base hlt a b
  · rw [min_self, max_self, Nat.sub_self, pow_zero, Nat.div_one]
    exact iff_of_true (compare_inFile_self p q base m a b) le_rfl
  · -- The same comparison, with the sides exchanged.
    rw [compare_inFile_of_ne p q base hgt.ne', Except.ok.injEq, min_eq_right hgt.le,
      max_eq_left hgt.le, compareStrings_swap, logSign_swap, neg_inj]
    exact compare_eq_logSign_iff_of_lt base hgt b a

/-- The file after `999999` is taken for an earlier one. -/
theorem not_forall_compare_filePos :
    ¬∀ (p q : Position) (base : Bytes) (m n : ℕ) (a b : UInt32),
      (p.inFile base m a).compare (q.inFile base n b) .mySQLFilePos =
        .ok (logSign (logPlace m a) (logPlace n b)) := by
  intro h
  have hwrong := h .zero .zero (lit "mysql-bin") 999999 1000000 4 4
  revert hwrong
  decide

end DataStream.Event
