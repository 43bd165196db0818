import DataStream.Foundations.Bytes

/-!
# Base64

The standard encoding of `encoding/base64` with padding, in which `encoding/json` carries byte
slices. The decoder ignores line breaks, requires padding and does not check the unused bits of
the last group.

* `decode_encode`: decoding inverts encoding;
* `encode_ascii`: encoded text is made of the characters of the alphabet.
-/

namespace DataStream.Base64

open List

def encodeSextet (n : ℕ) : UInt8 :=
  if n < 26 then UInt8.ofNat (65 + n)
  else if n < 52 then UInt8.ofNat (71 + n)
  else if n < 62 then UInt8.ofNat (n - 4)
  else if n = 62 then 43
  else 47

def decodeSextet (b : UInt8) : Option ℕ :=
  if 65 ≤ b.toNat ∧ b.toNat ≤ 90 then some (b.toNat - 65)
  else if 97 ≤ b.toNat ∧ b.toNat ≤ 122 then some (b.toNat - 71)
  else if 48 ≤ b.toNat ∧ b.toNat ≤ 57 then some (b.toNat + 4)
  else if b = 43 then some 62
  else if b = 47 then some 63
  else none

def pad : UInt8 := 61

/-- The text of a byte string: four characters for every three bytes. -/
def encode : Bytes → Bytes
  | [] => []
  | [a] => [encodeSextet (a.toNat / 4), encodeSextet (a.toNat % 4 * 16), pad, pad]
  | [a, b] =>
    [encodeSextet (a.toNat / 4), encodeSextet (a.toNat % 4 * 16 + b.toNat / 16),
      encodeSextet (b.toNat % 16 * 4), pad]
  | a :: b :: c :: rest =>
    encodeSextet (a.toNat / 4) :: encodeSextet (a.toNat % 4 * 16 + b.toNat / 16) ::
      encodeSextet (b.toNat % 16 * 4 + c.toNat / 64) :: encodeSextet (c.toNat % 64) :: encode rest

variable (s : Bytes)

lemma length_encode : (encode s).length = 4 * ((s.length + 2) / 3) := by
  fun_induction encode s with
  | case1 => rfl
  | case2 a => simp
  | case3 a b => simp
  | case4 a b c rest ih =>
    simp only [length_cons, ih]
    omega

/-- Decode groups of four characters; only the last group may be padded. -/
def decodeGroups : Bytes → Option Bytes
  | [] => some []
  | a :: b :: c :: d :: rest =>
    match decodeSextet a, decodeSextet b with
    | some a, some b =>
      let first := UInt8.ofNat (a * 4 + b / 16)
      if c = pad then if d = pad ∧ rest = [] then some [first] else none
      else
        match decodeSextet c with
        | none => none
        | some c =>
          let second := UInt8.ofNat (b * 16 + c / 4)
          if d = pad then if rest = [] then some [first, second] else none
          else
            match decodeSextet d with
            | none => none
            | some d =>
              (decodeGroups rest).map fun bytes =>
                first :: second :: UInt8.ofNat (c * 64 + d) :: bytes
    | _, _ => none
  | _ => none

/-- `base64.StdEncoding.DecodeString`: line breaks are skipped. -/
def decode (s : Bytes) : Option Bytes := decodeGroups (s.filter fun b => b ≠ 10 ∧ b ≠ 13)

/-! ## Decoding what was encoded -/

lemma decodeSextet_encodeSextet {n : ℕ} (h : n < 64) : decodeSextet (encodeSextet n) = some n := by
  have hall : ∀ i : Fin 64, decodeSextet (encodeSextet i) = some i.val := by decide
  exact hall ⟨n, h⟩

lemma encodeSextet_plain {n : ℕ} (h : n < 64) :
    encodeSextet n ≠ pad ∧ 0x2B ≤ (encodeSextet n).toNat ∧ (encodeSextet n).toNat < 0x7B ∧
      encodeSextet n ≠ 0x3C ∧ encodeSextet n ≠ 0x3E ∧ encodeSextet n ≠ 0x5C := by
  have hall : ∀ i : Fin 64, encodeSextet i ≠ pad ∧ 0x2B ≤ (encodeSextet i).toNat ∧
      (encodeSextet i).toNat < 0x7B ∧ encodeSextet i ≠ 0x3C ∧ encodeSextet i ≠ 0x3E ∧
      encodeSextet i ≠ 0x5C := by
    decide
  exact hall ⟨n, h⟩

lemma ofNat_eq {n : ℕ} {b : UInt8} (h : n % 2 ^ 8 = b.toNat) : UInt8.ofNat n = b := by
  rw [← UInt8.toNat_inj, UInt8.toNat_ofNat', h]

lemma encodeSextet_ne_pad {n : ℕ} (h : n < 64) : encodeSextet n ≠ pad := (encodeSextet_plain h).1

lemma decodeGroups_encode : decodeGroups (encode s) = some s := by
  -- Groups of one, two and three bytes; only the last of a text is shorter than three.
  fun_induction encode s with
  | case1 => rfl
  | case2 a =>
    have ha := a.toNat_lt
    simp (disch := omega) only [decodeGroups, decodeSextet_encodeSextet, if_true, and_self]
    rw [ofNat_eq (b := a) (by omega)]
  | case3 a b =>
    have ha := a.toNat_lt
    have hb := b.toNat_lt
    simp (disch := omega) only [decodeGroups, decodeSextet_encodeSextet, encodeSextet_ne_pad,
      if_true, if_false]
    rw [ofNat_eq (b := a) (by omega), ofNat_eq (b := b) (by omega)]
  | case4 a b c rest ih =>
    have ha := a.toNat_lt
    have hb := b.toNat_lt
    have hc := c.toNat_lt
    simp (disch := omega) only [decodeGroups, decodeSextet_encodeSextet, encodeSextet_ne_pad,
      if_false, ih, Option.map_some]
    rw [ofNat_eq (b := a) (by omega), ofNat_eq (b := b) (by omega), ofNat_eq (b := c) (by omega)]

/-- Encoded text is plain ASCII without quotes, backslashes, HTML characters or line breaks. -/
theorem encode_ascii : ∀ b ∈ encode s,
    0x2B ≤ b.toNat ∧ b.toNat < 0x7B ∧ b ≠ 0x3C ∧ b ≠ 0x3E ∧ b ≠ 0x5C := by
  have hpad : 0x2B ≤ pad.toNat ∧ pad.toNat < 0x7B ∧ pad ≠ 0x3C ∧ pad ≠ 0x3E ∧ pad ≠ 0x5C := by
    decide
  have hsextet : ∀ n, n < 64 → 0x2B ≤ (encodeSextet n).toNat ∧ (encodeSextet n).toNat < 0x7B ∧
      encodeSextet n ≠ 0x3C ∧ encodeSextet n ≠ 0x3E ∧ encodeSextet n ≠ 0x5C :=
    fun n hn => (encodeSextet_plain hn).2
  fun_induction encode s with
  | case1 => simp
  | case2 a =>
    have ha := a.toNat_lt
    simp only [forall_mem_cons, not_mem_nil, false_implies, implies_true, and_true]
    exact ⟨hsextet _ (by omega), hsextet _ (by omega), hpad, hpad⟩
  | case3 a b =>
    have ha := a.toNat_lt
    have hb := b.toNat_lt
    simp only [forall_mem_cons, not_mem_nil, false_implies, implies_true, and_true]
    exact ⟨hsextet _ (by omega), hsextet _ (by omega), hsextet _ (by omega), hpad⟩
  | case4 a b c rest ih =>
    have ha := a.toNat_lt
    have hb := b.toNat_lt
    have hc := c.toNat_lt
    simp only [forall_mem_cons]
    exact ⟨hsextet _ (by omega), hsextet _ (by omega), hsextet _ (by omega),
      hsextet _ (by omega), ih⟩

theorem decode_encode : decode (encode s) = some s := by
  have hfilter : (encode s).filter (fun b => b ≠ 10 ∧ b ≠ 13) = encode s := by
    rw [filter_eq_self]
    intro b hb
    have hge := (encode_ascii s b hb).1
    have h₁ : b ≠ 10 := by rintro rfl; simp at hge
    have h₂ : b ≠ 13 := by rintro rfl; simp at hge
    simp [h₁, h₂]
  rw [decode, hfilter, decodeGroups_encode]

end DataStream.Base64
