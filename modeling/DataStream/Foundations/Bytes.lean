import Mathlib.Data.List.Basic
import Mathlib.Tactic.Ring
import Mathlib.Tactic.Common

/-!
# Byte strings and fixed-width integers

A Go `string` and a Go `[]byte` are both finite sequences of bytes, so both are modelled by
`Bytes := List UInt8`. This file fixes the byte-level vocabulary that the encodings of the
development share:

* `lit`: the UTF-8 bytes of a Lean string literal, used to write the constants of the source;
* `putUint32` and `uint32`: the four-byte big-endian encoding of `encoding/binary`;
* `crc32`: the reflected CRC-32 of `hash/crc32` with the IEEE polynomial.

* `uint32_putUint32_append`: a four-byte big-endian field is read back;
* `putUint32_uint32`: writing back the value read gives the bytes of the field;
* `length_putUint32`: the field has four bytes.
-/

namespace DataStream

/-- A Go string or byte slice: a finite sequence of bytes, not necessarily valid UTF-8. -/
abbrev Bytes := List UInt8

/-- The UTF-8 bytes of a string literal. -/
def lit (s : String) : Bytes := s.toUTF8.data.toList

namespace Bytes

/-- `binary.BigEndian.PutUint32`: the four bytes of `n`, most significant first. -/
def putUint32 (n : ℕ) : Bytes :=
  [UInt8.ofNat (n / 2 ^ 24), UInt8.ofNat (n / 2 ^ 16), UInt8.ofNat (n / 2 ^ 8), UInt8.ofNat n]

/-- `binary.BigEndian.Uint32` on the first four bytes; shorter input reads as zero. -/
def uint32 : Bytes → ℕ
  | b₀ :: b₁ :: b₂ :: b₃ :: _ => b₀.toNat * 2 ^ 24 + b₁.toNat * 2 ^ 16 + b₂.toNat * 2 ^ 8 + b₃.toNat
  | _ => 0

@[simp]
theorem length_putUint32 (n : ℕ) : (putUint32 n).length = 4 := rfl

@[simp]
lemma uint32_putUint32_append (n : ℕ) (hn : n < 2 ^ 32) (rest : Bytes) :
    uint32 (putUint32 n ++ rest) = n := by
  simp only [putUint32, List.cons_append, List.nil_append, uint32, UInt8.toNat_ofNat']
  omega

lemma uint32_lt (s : Bytes) : uint32 s < 2 ^ 32 := by
  unfold uint32
  split
  · next b₀ b₁ b₂ b₃ _ =>
    have h₀ := b₀.toNat_lt
    have h₁ := b₁.toNat_lt
    have h₂ := b₂.toNat_lt
    have h₃ := b₃.toNat_lt
    omega
  · norm_num

/-- Writing the field that was read gives its four bytes back. -/
theorem putUint32_uint32 {s : Bytes} (h : 4 ≤ s.length) : putUint32 (uint32 s) = s.take 4 := by
  obtain ⟨b₀, b₁, b₂, b₃, rest, rfl⟩ : ∃ b₀ b₁ b₂ b₃ rest, s = b₀ :: b₁ :: b₂ :: b₃ :: rest := by
    rcases s with _ | ⟨b₀, _ | ⟨b₁, _ | ⟨b₂, _ | ⟨b₃, rest⟩⟩⟩⟩
    all_goals simp_all
  have h₀ := b₀.toNat_lt
  have h₁ := b₁.toNat_lt
  have h₂ := b₂.toNat_lt
  have h₃ := b₃.toNat_lt
  simp only [uint32, putUint32, List.take_succ_cons, List.take_zero]
  -- Byte by byte, as a statement about remainders.
  refine congrArg₂ _ ?_ (congrArg₂ _ ?_ (congrArg₂ _ ?_ (congrArg₂ _ ?_ rfl)))
  all_goals
    rw [← UInt8.toNat_inj, UInt8.toNat_ofNat']
    omega

/-- One shift of the reflected CRC register, folding the IEEE polynomial back in on carry. -/
def crcShift (c : ℕ) : ℕ := if c % 2 = 1 then (c / 2) ^^^ 0xEDB88320 else c / 2

/-- The CRC register after one input byte: eight shifts of the register xored with the byte. -/
def crcByte (c : ℕ) (b : UInt8) : ℕ :=
  crcShift (crcShift (crcShift (crcShift (crcShift (crcShift (crcShift (crcShift
    (c ^^^ b.toNat))))))))

/-- `crc32.ChecksumIEEE`. -/
def crc32 (data : Bytes) : ℕ := data.foldl crcByte 0xFFFFFFFF ^^^ 0xFFFFFFFF

/-- The check value of CRC-32/IEEE. -/
example : crc32 (lit "123456789") = 0xCBF43926 := by decide +kernel

end Bytes

end DataStream
