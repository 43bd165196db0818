import DataStream.Foundations.Json.Quote
import Mathlib.Data.List.Induction

/-!
# Hexadecimal text and big-endian numbers

Go's `encoding/hex`, and byte strings of fixed length as numbers.

* `decodeString_encodeToString`: encoded bytes are read back;
* `bigEndian_increment`: the byte-wise increment with carry adds one, modulo the range;
* `encodeToString_lt_iff`: texts of one length are in the order of their numbers.
-/

namespace DataStream

open List

namespace Bytes

/-- The number that big-endian bytes hold. -/
def bigEndian (data : Bytes) : ℕ := data.foldl (fun n b => n * 256 + b.toNat) 0

@[simp]
lemma bigEndian_nil : bigEndian [] = 0 := rfl

variable (data : Bytes)

@[simp]
lemma bigEndian_concat (b : UInt8) : bigEndian (data ++ [b]) = bigEndian data * 256 + b.toNat := by
  simp [bigEndian]

lemma bigEndian_cons (b : UInt8) :
    bigEndian (b :: data) = b.toNat * 256 ^ data.length + bigEndian data := by
  induction data using List.reverseRecOn with
  | nil => simp [bigEndian]
  | append_singleton data c ih =>
    rw [← cons_append, bigEndian_concat, ih, bigEndian_concat, length_append, length_singleton]
    ring

lemma bigEndian_lt : bigEndian data < 256 ^ data.length := by
  induction data using List.reverseRecOn with
  | nil => simp
  | append_singleton data b ih =>
    have hb : b.toNat < 256 := b.toNat_lt
    have hstep : bigEndian data * 256 + b.toNat < (bigEndian data + 1) * 256 := by omega
    rw [bigEndian_concat, length_append, length_singleton, Nat.pow_succ]
    exact lt_of_lt_of_le hstep (Nat.mul_le_mul_right 256 ih)

lemma bigEndian_injective {a b : Bytes} (hlength : a.length = b.length)
    (h : bigEndian a = bigEndian b) : a = b := by
  induction a using List.reverseRecOn generalizing b with
  | nil => exact (length_eq_zero_iff.mp hlength.symm).symm
  | append_singleton a x ih =>
    induction b using List.reverseRecOn with
    | nil => simp at hlength
    | append_singleton b y _ =>
      rw [bigEndian_concat, bigEndian_concat] at h
      have hx : x.toNat < 256 := x.toNat_lt
      have hy : y.toNat < 256 := y.toNat_lt
      have hhead : a = b := ih (by simpa using hlength) (by omega)
      have hlast : x = y := UInt8.toNat_inj.mp (by omega)
      rw [hhead, hlast]

/-- Increment a number whose bytes come lowest first: a byte that becomes zero carries. -/
def incrementReversed : Bytes → Bytes
  | [] => []
  | b :: rest => if b + 1 ≠ 0 then (b + 1) :: rest else (b + 1) :: incrementReversed rest

/-- Increment a big-endian number in place, from its last byte on. -/
def increment (data : Bytes) : Bytes := (incrementReversed data.reverse).reverse

lemma length_incrementReversed : (incrementReversed data).length = data.length := by
  induction data with
  | nil => rfl
  | cons b rest ih =>
    rw [incrementReversed]
    split
    · rfl
    · rw [length_cons, length_cons, ih]

@[simp]
lemma length_increment : (increment data).length = data.length := by
  rw [increment, length_reverse, length_incrementReversed, length_reverse]

lemma bigEndian_incrementReversed :
    bigEndian (incrementReversed data).reverse =
      (bigEndian data.reverse + 1) % 256 ^ data.length := by
  induction data with
  | nil => rfl
  | cons b rest ih =>
    have hrest := bigEndian_lt rest.reverse
    rw [length_reverse] at hrest
    have hb : b.toNat < 256 := b.toNat_lt
    rw [incrementReversed, reverse_cons, bigEndian_concat, length_cons, Nat.pow_succ]
    split
    · -- No carry: only the last byte changes.
      rename_i hcarry
      have hnext : (b + 1).toNat = b.toNat + 1 := by
        have hne : (b + 1).toNat ≠ 0 := fun h => hcarry (UInt8.toNat_inj.mp h)
        rw [UInt8.toNat_add] at hne ⊢
        simp only [UInt8.reduceToNat] at hne ⊢
        omega
      have hnextlt : (b + 1).toNat < 256 := (b + 1).toNat_lt
      rw [reverse_cons, bigEndian_concat, hnext, Nat.mod_eq_of_lt (by omega), Nat.add_assoc]
    · -- The last byte was 255: it becomes zero and the rest is incremented.
      rename_i hcarry
      rw [ne_eq, not_not] at hcarry
      have hlast : b.toNat = 255 := by
        have hzero : (b + 1).toNat = 0 := by rw [hcarry]; rfl
        rw [UInt8.toNat_add] at hzero
        simp only [UInt8.reduceToNat] at hzero
        omega
      have hsum : bigEndian rest.reverse * 256 + 255 + 1 = (bigEndian rest.reverse + 1) * 256 := by
        ring
      rw [reverse_cons, bigEndian_concat, ih, hcarry, hlast, hsum, Nat.mul_mod_mul_right,
        UInt8.toNat_zero, Nat.add_zero]

/-- Incrementing adds one, and wraps around at the end of the range. -/
theorem bigEndian_increment :
    bigEndian (increment data) = (bigEndian data + 1) % 256 ^ data.length := by
  rw [increment, bigEndian_incrementReversed, reverse_reverse, length_reverse]

end Bytes

namespace Hex

open Json

def encodeToString (data : Bytes) : Bytes :=
  data.flatMap fun b => [hexDigit (b.toNat / 16), hexDigit (b.toNat % 16)]

/-- `hex.DecodeString`: the bytes decoded before the first error, and whether there was none. -/
def decodeString : Bytes → Bytes × Bool
  | [] => ([], true)
  | [_] => ([], false)
  | hi :: lo :: rest =>
    match hexValue hi, hexValue lo with
    | some x, some y =>
      let r := decodeString rest
      (UInt8.ofNat (x * 16 + y) :: r.1, r.2)
    | _, _ => ([], false)

@[simp]
theorem decodeString_encodeToString (data : Bytes) :
    decodeString (encodeToString data) = (data, true) := by
  induction data with
  | nil => rfl
  | cons b rest ih =>
    have hb : b.toNat < 256 := b.toNat_lt
    have hbyte : UInt8.ofNat (b.toNat / 16 * 16 + b.toNat % 16) = b := by
      rw [show b.toNat / 16 * 16 + b.toNat % 16 = b.toNat by omega, UInt8.ofNat_toNat]
    rw [encodeToString, flatMap_cons]
    simp only [cons_append, nil_append, decodeString,
      hexValue_hexDigit (show b.toNat / 16 < 16 by omega),
      hexValue_hexDigit (show b.toNat % 16 < 16 by omega), hbyte]
    rw [← encodeToString, ih]

lemma encodeToString_ne_nil {data : Bytes} (h : data ≠ []) : encodeToString data ≠ [] := by
  cases data with
  | nil => exact absurd rfl h
  | cons b rest => simp [encodeToString]

lemma hexDigit_lt_iff : ∀ m < 16, ∀ n < 16,
    (hexDigit m < hexDigit n ↔ m < n) ∧ (hexDigit m = hexDigit n ↔ m = n) := by
  decide

/-- Texts of one length are in the order of their numbers. -/
theorem encodeToString_lt_iff {x y : Bytes} (h : x.length = y.length) :
    encodeToString x < encodeToString y ↔ x.bigEndian < y.bigEndian := by
  induction x generalizing y with
  | nil =>
    obtain rfl := length_eq_zero_iff.mp h.symm
    simp [encodeToString]
  | cons a x ih =>
    obtain ⟨b, y, rfl⟩ := exists_cons_of_length_eq_add_one h.symm
    have hlength : x.length = y.length := Nat.succ.inj h
    have ha : a.toNat < 256 := a.toNat_lt
    have hb : b.toNat < 256 := b.toNat_lt
    have hx := Bytes.bigEndian_lt x
    have hy := Bytes.bigEndian_lt y
    have hhigh := hexDigit_lt_iff (a.toNat / 16) (by omega) (b.toNat / 16) (by omega)
    have hlow := hexDigit_lt_iff (a.toNat % 16) (by omega) (b.toNat % 16) (by omega)
    simp only [encodeToString, flatMap_cons, cons_append, nil_append, cons_lt_cons_iff, hhigh, hlow]
    rw [← encodeToString, ← encodeToString, ih hlength, Bytes.bigEndian_cons, Bytes.bigEndian_cons]
    rw [hlength] at hx ⊢
    generalize 256 ^ y.length = range at *
    -- The first bytes decide unless they are the same.
    rcases Nat.lt_trichotomy a.toNat b.toNat with hlt | heq | hgt
    · have hfirst := Nat.mul_le_mul_right range hlt
      rw [Nat.succ_mul] at hfirst
      omega
    · rw [heq]
      omega
    · have hfirst := Nat.mul_le_mul_right range hgt
      rw [Nat.succ_mul] at hfirst
      omega

end Hex

end DataStream
