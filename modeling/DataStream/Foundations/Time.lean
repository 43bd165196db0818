import DataStream.Foundations.Json.Codec
import Mathlib.Data.List.TakeWhile

/-!
# Times

A Go `time.Time` without its monotonic clock reading, and the RFC 3339 text in which
`encoding/json` carries it. The reader is the strict one of `Time.UnmarshalJSON`: it looks at
the bytes between the quotes without undoing escapes.

* `exists_parseRFC3339`: a time that has a text is read back from it.
-/

namespace DataStream

open Bytes List Option Json.StrOk Json

/-- An instant with the offset of its zone. -/
structure Time where
  /-- Seconds since 1970-01-01 00:00:00 UTC. -/
  unixSec : ℤ
  /-- Nanoseconds within the second. -/
  nsec : ℕ
  /-- Seconds east of UTC. -/
  offset : ℤ
  deriving DecidableEq, Repr

namespace Time

/-- The zero time: January 1 of year 1, UTC. -/
def zero : Time := { unixSec := -62135596800, nsec := 0, offset := 0 }

/-- `Time.Before`, and with the sides exchanged `Time.After`: the order of the instants. -/
def before (t u : Time) : Bool :=
  t.unixSec < u.unixSec || (t.unixSec = u.unixSec && t.nsec < u.nsec)

/-- `Time.IsZero`: the zero instant, in whatever zone. -/
def isZero (t : Time) : Bool := t.unixSec = zero.unixSec && t.nsec = 0

def unixMilli (t : Time) : ℤ := t.unixSec * 1000 + t.nsec / 1000000

/-- Days from 1970-01-01 to a date of the proleptic Gregorian calendar. Years are counted from
March, so that the leap day is the last day of its year. -/
def daysFromCivil (year month day : ℤ) : ℤ :=
  let y := if month ≤ 2 then year - 1 else year
  let era := y / 400
  let yearOfEra := y % 400
  let dayOfYear := (153 * ((month + 9) % 12) + 2) / 5 + day - 1
  era * 146097 + yearOfEra * 365 + yearOfEra / 4 - yearOfEra / 100 + dayOfYear - 719468

/-- The date of a day number: year, month and day. -/
def civilFromDays (days : ℤ) : ℤ × ℤ × ℤ :=
  let z := days + 719468
  let era := z / 146097
  let dayOfEra := z % 146097
  let yearOfEra := (dayOfEra - dayOfEra / 1460 + dayOfEra / 36524 - dayOfEra / 146096) / 365
  let dayOfYear := dayOfEra - (365 * yearOfEra + yearOfEra / 4 - yearOfEra / 100)
  let monthFromMarch := (5 * dayOfYear + 2) / 153
  let day := dayOfYear - (153 * monthFromMarch + 2) / 5 + 1
  let month := if monthFromMarch < 10 then monthFromMarch + 3 else monthFromMarch - 9
  (yearOfEra + era * 400 + (if month ≤ 2 then 1 else 0), month, day)

/-- The days of a month. -/
def daysIn (month year : ℕ) : ℕ :=
  if month = 2 then if year % 4 = 0 ∧ (year % 100 ≠ 0 ∨ year % 400 = 0) then 29 else 28
  else if month = 4 ∨ month = 6 ∨ month = 9 ∨ month = 11 then 30
  else 31

def padded (width : ℕ) (n : ℕ) : Bytes :=
  let digits := formatNat n
  List.replicate (width - digits.length) 48 ++ digits

variable {width n : ℕ} {t : Time} {j : Json}

lemma length_padded (h : n < 10 ^ width) (hwidth : 0 < width) :
    (padded width n).length = width := by
  have hlen : (formatNat n).length ≤ width := by
    unfold formatNat
    split_ifs with hzero
    · exact hwidth
    · rw [length_reverse, length_map]
      exact (Nat.digits_length_le_iff (by omega) n).mpr h
  simp only [padded, length_append, length_replicate]
  omega

lemma all_isDigit_padded (width n : ℕ) : ∀ b ∈ padded width n, isDigit b = true := by
  intro b hb
  rcases mem_append.mp hb with hb | hb
  · rw [eq_of_mem_replicate hb]
    rfl
  · exact all_isDigit_formatNat n b hb

lemma natValue_padded (width n : ℕ) : natValue (padded width n) = n := by
  have hzeros : ∀ (k : ℕ) (s : Bytes), natValue (List.replicate k 48 ++ s) = natValue s := by
    intro k s
    induction k with
    | zero => rfl
    | succ k ih =>
      rw [replicate_succ, cons_append, natValue_cons, ih]
      simp
  rw [padded, hzeros, natValue_formatNat]

/-- Padded numbers are in the byte order of their values, whatever follows them. -/
lemma padded_append_lt {m : ℕ} (h : m < n) (hn : n < 10 ^ width) (x y : Bytes) :
    padded width m ++ x < padded width n ++ y := by
  have hwidth : 0 < width := by
    by_contra hzero
    obtain rfl : width = 0 := by omega
    omega
  refine append_lt_append_of_natValue_lt ?_ (all_isDigit_padded width m)
    (all_isDigit_padded width n) (by rwa [natValue_padded, natValue_padded]) x y
  rw [length_padded (h.trans hn) hwidth, length_padded hn hwidth]

def formatFraction (nsec : ℕ) : Bytes :=
  if nsec = 0 then []
  else 46 :: ((padded 9 nsec).reverse.dropWhile (· = 48)).reverse

def formatZone (offset : ℤ) : Bytes :=
  if offset = 0 then [90]
  else
    let minutes := offset.natAbs / 60
    (if offset < 0 then 45 else 43) :: padded 2 (minutes / 60) ++ 58 :: padded 2 (minutes % 60)

/-- `Time.MarshalJSON` without the quotes: the RFC 3339 text with nanoseconds; an error if the
year has not four digits or the zone is a day or more away. -/
def formatRFC3339 (t : Time) : Option Bytes :=
  let wall := t.unixSec + t.offset
  let (year, month, day) := civilFromDays (wall / 86400)
  let secOfDay := (wall % 86400).toNat
  if year < 0 ∨ 9999 < year ∨ 24 ≤ t.offset.natAbs / 3600 then none
  else
    some (padded 4 year.toNat ++ 45 :: padded 2 month.toNat ++ 45 :: padded 2 day.toNat ++
      84 :: padded 2 (secOfDay / 3600) ++ 58 :: padded 2 (secOfDay / 60 % 60) ++
      58 :: padded 2 (secOfDay % 60) ++ formatFraction t.nsec ++ formatZone t.offset)

/-- `Time.Format` with the layout `20060102150405.000`. -/
def formatCompact (t : Time) : Bytes :=
  let wall := t.unixSec + t.offset
  let (year, month, day) := civilFromDays (wall / 86400)
  let secOfDay := (wall % 86400).toNat
  (if year < 0 then [45] else []) ++ padded 4 year.natAbs ++ padded 2 month.toNat ++
    padded 2 day.toNat ++ padded 2 (secOfDay / 3600) ++ padded 2 (secOfDay / 60 % 60) ++
    padded 2 (secOfDay % 60) ++ 46 :: padded 3 (t.nsec / 1000000)

/-- A field of decimal digits within bounds. -/
def parseUint (s : Bytes) (min max : ℕ) : Option ℕ :=
  if s.all isDigit ∧ min ≤ natValue s ∧ natValue s ≤ max then some (natValue s) else none

/-- The zone at the end of an RFC 3339 text. -/
def parseZone : Bytes → Option ℤ
  | [90] => some 0
  | [sign, h₁, h₂, colon, m₁, m₂] =>
    match parseUint [h₁, h₂] 0 23, parseUint [m₁, m₂] 0 59 with
    | some hours, some minutes =>
      if (sign = 45 ∨ sign = 43) ∧ colon = 58 then
        let seconds : ℤ := (hours * 60 + minutes) * 60
        some (if sign = 45 then -seconds else seconds)
      else none
    | _, _ => none
  | _ => none

/-- The nanoseconds of a fraction: its first nine digits. -/
def fractionNanos (digits : Bytes) : ℕ :=
  let kept := digits.take 9
  natValue kept * 10 ^ (9 - kept.length)

/-- The fraction and the zone that follow the seconds of an RFC 3339 text. -/
def parseFractionZone (rest : Bytes) : Option (ℕ × ℤ) :=
  match rest with
  | 46 :: digits =>
    let fraction := digits.takeWhile isDigit
    if fraction = [] then none
    else (parseZone (digits.dropWhile isDigit)).map fun offset => (fractionNanos fraction, offset)
  | _ => (parseZone rest).map fun offset => (0, offset)

/-- `Time.UnmarshalJSON` on the bytes between the quotes. -/
def parseRFC3339 : Bytes → Option Time
  | y₁ :: y₂ :: y₃ :: y₄ :: d₁ :: mo₁ :: mo₂ :: d₂ :: da₁ :: da₂ :: t :: h₁ :: h₂ :: c₁ ::
      mi₁ :: mi₂ :: c₂ :: s₁ :: s₂ :: rest => do
      let year ← parseUint [y₁, y₂, y₃, y₄] 0 9999
      let month ← parseUint [mo₁, mo₂] 1 12
      let day ← parseUint [da₁, da₂] 1 (daysIn month year)
      let hour ← parseUint [h₁, h₂] 0 23
      let minute ← parseUint [mi₁, mi₂] 0 59
      let second ← parseUint [s₁, s₂] 0 59
      let (nsec, offset) ← parseFractionZone rest
      if d₁ = 45 ∧ d₂ = 45 ∧ t = 84 ∧ c₁ = 58 ∧ c₂ = 58 then
        some
          { unixSec := daysFromCivil year month day * 86400 +
              (hour * 3600 + minute * 60 + second : ℕ) - offset
            nsec, offset }
      else none
  | _ => none

/-- A Go time as a JSON value; `none` is an encoding error. -/
def toJson (t : Time) : Option Json := (formatRFC3339 t).map .str

/-- Decode a Go time. -/
def decode : Decoder Time
  | prev, .null => some prev
  | _, .str raw => parseRFC3339 raw
  | _, _ => none

/-- The text of a leap day with a fraction in a zone east of UTC, and back. -/
example : formatRFC3339 ⟨1709164799, 250000000, 7200⟩ = some (lit "2024-02-29T01:59:59.25+02:00") ∧
    parseRFC3339 (lit "2024-02-29T01:59:59.25+02:00") = some ⟨1709164799, 250000000, 7200⟩ ∧
    formatRFC3339 zero = some (lit "0001-01-01T00:00:00Z") := by
  decide

/-! ## Reading a formatted time -/

/-- The year of the era and the day of the year: the 366th is only there in a leap year. -/
lemma yearOfEra_bounds {day year rest : ℤ} (hlo : 0 ≤ day) (hhi : day < 146097)
    (hyear : year = (day - day / 1460 + day / 36524 - day / 146096) / 365)
    (hrest : rest = day - (365 * year + year / 4 - year / 100)) :
    0 ≤ year ∧ year < 400 ∧ 0 ≤ rest ∧ rest ≤ 365 ∧
      (rest = 365 → (year + 1) % 4 = 0 ∧ ((year + 1) % 100 ≠ 0 ∨ (year + 1) % 400 = 0)) := by
  have hylo : 0 ≤ year := by omega
  have hyhi : year < 400 := by omega
  refine ⟨hylo, hyhi, ?_⟩
  -- The centuries are few enough to be looked at one by one.
  obtain ⟨century, hcentury⟩ : ∃ c, day / 36524 = c := ⟨_, rfl⟩
  obtain ⟨last, hlast⟩ : ∃ e, day / 146096 = e := ⟨_, rfl⟩
  obtain ⟨hundreds, hhundreds⟩ : ∃ k, year / 100 = k := ⟨_, rfl⟩
  obtain ⟨fours, hfours⟩ : ∃ f, year / 4 = f := ⟨_, rfl⟩
  have hc : 0 ≤ century ∧ century ≤ 4 := by omega
  have he : 0 ≤ last ∧ last ≤ 1 := by omega
  have hk : 0 ≤ hundreds ∧ hundreds ≤ 3 := by omega
  obtain ⟨hc0, hc4⟩ := hc
  obtain ⟨he0, he1⟩ := he
  obtain ⟨hk0, hk3⟩ := hk
  have hleap : rest = 365 → year = 4 * fours + 3 := by
    intro hfull
    have hsame : century = hundreds ∧ last = 0 ∨ day = 146096 := by
      interval_cases century <;> interval_cases last <;> interval_cases hundreds <;> omega
    rcases hsame with ⟨rfl, rfl⟩ | rfl
    · have hblocks : fours + 1 ≤ day / 1460 := by omega
      omega
    · omega
  interval_cases century <;> interval_cases last <;> interval_cases hundreds <;> omega

lemma day_le_daysIn {rest month : ℤ} {year : ℕ} (hlo : 0 ≤ rest) (hhi : rest ≤ 365)
    (hmonth : month = (5 * rest + 2) / 153)
    (hleap : rest = 365 → year % 4 = 0 ∧ (year % 100 ≠ 0 ∨ year % 400 = 0)) :
    rest - (153 * month + 2) / 5 + 1 ≤
      daysIn (if month < 10 then month + 3 else month - 9).toNat year := by
  have hm0 : 0 ≤ month := by omega
  have hm11 : month ≤ 11 := by omega
  by_cases hfeb : month = 11
  · subst hfeb
    have hday : rest - (153 * 11 + 2) / 5 + 1 ≤ if rest = 365 then 29 else 28 := by
      split <;> omega
    refine hday.trans ?_
    rw [show ((if (11 : ℤ) < 10 then (11 : ℤ) + 3 else 11 - 9).toNat) = 2 from rfl, daysIn,
      if_pos rfl]
    split_ifs with h365 hyear hyear
    · exact le_rfl
    · exact absurd (hleap h365) hyear
    · decide
    · exact le_rfl
  · interval_cases month <;> simp [daysIn] <;> omega

lemma civilFromDays_bounds (days : ℤ) :
    1 ≤ (civilFromDays days).2.1 ∧ (civilFromDays days).2.1 ≤ 12 ∧
      1 ≤ (civilFromDays days).2.2 ∧
      (0 ≤ (civilFromDays days).1 → (civilFromDays days).2.2 ≤
        daysIn (civilFromDays days).2.1.toNat (civilFromDays days).1.toNat) := by
  unfold civilFromDays
  dsimp only
  obtain ⟨day, hday⟩ : ∃ d, (days + 719468) % 146097 = d := ⟨_, rfl⟩
  rw [hday]
  obtain ⟨year, hyear⟩ : ∃ y, (day - day / 1460 + day / 36524 - day / 146096) / 365 = y := ⟨_, rfl⟩
  rw [hyear]
  obtain ⟨rest, hrest⟩ : ∃ r, day - (365 * year + year / 4 - year / 100) = r := ⟨_, rfl⟩
  rw [hrest]
  obtain ⟨month, hmonth⟩ : ∃ m, (5 * rest + 2) / 153 = m := ⟨_, rfl⟩
  rw [hmonth]
  obtain ⟨hylo, hyhi, hrlo, hrhi, hleap⟩ :=
    yearOfEra_bounds (by omega) (by omega) hyear.symm hrest.symm
  refine ⟨by split <;> omega, by split <;> omega, by omega, fun hpos => ?_⟩
  refine day_le_daysIn hrlo hrhi hmonth.symm fun hfull => ?_
  have hmonth11 : month = 11 := by omega
  omega

lemma parseUint_padded {lo hi : ℕ} (hlo : lo ≤ n) (hhi : n ≤ hi) :
    parseUint (padded width n) lo hi = some n := by
  have hdigits : (padded width n).all isDigit = true :=
    List.all_eq_true.mpr (all_isDigit_padded width n)
  rw [parseUint, natValue_padded, if_pos ⟨hdigits, hlo, hhi⟩]

lemma exists_parseUint_two {lo hi : ℕ} (hlo : lo ≤ n) (hhi : n ≤ hi) (hmax : n < 100) :
    ∃ a b, padded 2 n = [a, b] ∧ parseUint [a, b] lo hi = some n := by
  obtain ⟨a, b, hab⟩ := length_eq_two.mp (length_padded hmax (by decide))
  exact ⟨a, b, hab, hab ▸ parseUint_padded hlo hhi⟩

lemma exists_parseZone_formatZone {offset : ℤ} (h : offset.natAbs / 3600 < 24) :
    ∃ zone, parseZone (formatZone offset) = some zone := by
  rw [formatZone]
  by_cases hzero : offset = 0
  · rw [if_pos hzero]
    exact ⟨0, rfl⟩
  · rw [if_neg hzero]
    obtain ⟨h₁, h₂, hhours, hread⟩ := exists_parseUint_two (Nat.zero_le (offset.natAbs / 60 / 60))
      (show _ ≤ 23 by omega) (by omega)
    obtain ⟨m₁, m₂, hminutes, hread'⟩ := exists_parseUint_two
      (Nat.zero_le (offset.natAbs / 60 % 60)) (show _ ≤ 59 by omega) (by omega)
    have hsign : ∀ sign : UInt8, sign = 45 ∨ sign = 43 →
        ∃ zone, parseZone [sign, h₁, h₂, 58, m₁, m₂] = some zone := by
      intro sign hsign
      simp only [parseZone, hread, hread']
      exact ⟨_, if_pos ⟨hsign, trivial⟩⟩
    simp only [hhours, hminutes, cons_append, nil_append]
    exact hsign _ (by split <;> simp)

lemma exists_formatZone_cons (offset : ℤ) :
    ∃ b rest, formatZone offset = b :: rest ∧ isDigit b = false ∧ b ≠ 46 := by
  rw [formatZone]
  split_ifs with hzero hneg
  · exact ⟨90, [], rfl, rfl, by decide⟩
  · exact ⟨45, _, rfl, rfl, by decide⟩
  · exact ⟨43, _, rfl, rfl, by decide⟩

lemma exists_formatFraction_cons {nsec : ℕ} (h : nsec ≠ 0) :
    ∃ digits, formatFraction nsec = 46 :: digits ∧ digits ≠ [] ∧ ∀ b ∈ digits, isDigit b := by
  refine ⟨_, if_neg h, ?_, fun b hb => ?_⟩
  · -- If only zeros were written, the number would be zero.
    intro hnil
    have hzeros : ∀ b ∈ padded 9 nsec, b = 48 := by
      simpa [dropWhile_eq_nil_iff] using hnil
    have hvalue := natValue_padded 9 nsec
    rw [eq_replicate_of_mem hzeros] at hvalue
    refine h (hvalue ▸ ?_)
    generalize (padded 9 nsec).length = k
    induction k with
    | zero => rfl
    | succ k ih => rw [replicate_succ, natValue_cons, ih]; simp
  · have hmem := (dropWhile_sublist _).subset (mem_reverse.mp hb)
    exact all_isDigit_padded 9 nsec b (mem_reverse.mp hmem)

lemma exists_parseFractionZone (nsec : ℕ) {offset : ℤ} (h : offset.natAbs / 3600 < 24) :
    ∃ parsed, parseFractionZone (formatFraction nsec ++ formatZone offset) = some parsed := by
  obtain ⟨zone, hzone⟩ := exists_parseZone_formatZone h
  obtain ⟨b, rest, hcons, hdigit, hpoint⟩ := exists_formatZone_cons offset
  by_cases hnsec : nsec = 0
  · refine ⟨(0, zone), ?_⟩
    rw [formatFraction, if_pos hnsec, nil_append, parseFractionZone.eq_def, hzone, hcons]
    split
    · next heq => exact absurd (List.cons.inj heq).1 hpoint
    · rfl
  · obtain ⟨digits, hfraction, hne, hall⟩ := exists_formatFraction_cons hnsec
    refine ⟨(fractionNanos digits, zone), ?_⟩
    have htake : (digits ++ formatZone offset).takeWhile isDigit = digits := by
      rw [hcons, takeWhile_append_of_pos hall, takeWhile_cons_of_neg (by simp [hdigit]), append_nil]
    have hdrop : (digits ++ formatZone offset).dropWhile isDigit = formatZone offset := by
      rw [hcons, dropWhile_append_of_pos hall, dropWhile_cons_of_neg (by simp [hdigit])]
    rw [hfraction, cons_append]
    simp only [parseFractionZone, htake, hdrop, if_neg hne, hzone, map_some]

/-- A time that has a text is read back from it. -/
theorem exists_parseRFC3339 {text : Bytes} (h : formatRFC3339 t = some text) :
    ∃ t', parseRFC3339 text = some t' := by
  obtain ⟨hm1, hm12, hd1, hdays⟩ := civilFromDays_bounds ((t.unixSec + t.offset) / 86400)
  unfold formatRFC3339 at h
  dsimp only at h
  generalize civilFromDays ((t.unixSec + t.offset) / 86400) = date at *
  obtain ⟨year, month, day⟩ := date
  dsimp only at hm1 hm12 hd1 hdays
  split_ifs at h with hbad
  obtain ⟨hyear, hyear', hzone⟩ : 0 ≤ year ∧ year ≤ 9999 ∧ t.offset.natAbs / 3600 < 24 := by
    omega
  obtain ⟨sec, hsec⟩ : ∃ s, ((t.unixSec + t.offset) % 86400).toNat = s := ⟨_, rfl⟩
  obtain ⟨parsed, hparsed⟩ := exists_parseFractionZone t.nsec hzone
  have hdays' : day.toNat ≤ daysIn month.toNat year.toNat := by
    omega
  have hlen : (padded 4 year.toNat).length = 4 := length_padded (by omega) (by decide)
  obtain ⟨y₁, y₂, y₃, y₄, hy⟩ : ∃ a b c d, padded 4 year.toNat = [a, b, c, d] := by
    match padded 4 year.toNat, hlen with
    | [a, b, c, d], _ => exact ⟨a, b, c, d, rfl⟩
  have hdaylt : day.toNat < 100 := by
    have : daysIn month.toNat year.toNat ≤ 31 := by
      unfold daysIn
      split_ifs <;> omega
    omega
  obtain ⟨a₁, a₂, ha, pa⟩ :=
    exists_parseUint_two (show 1 ≤ month.toNat by omega) (show _ ≤ 12 by omega) (by omega)
  obtain ⟨b₁, b₂, hb, pb⟩ := exists_parseUint_two (show 1 ≤ day.toNat by omega) hdays' hdaylt
  obtain ⟨c₁, c₂, hc, pc⟩ :=
    exists_parseUint_two (Nat.zero_le (sec / 3600)) (show _ ≤ 23 by omega) (by omega)
  obtain ⟨d₁, d₂, hd, pd⟩ :=
    exists_parseUint_two (Nat.zero_le (sec / 60 % 60)) (show _ ≤ 59 by omega) (by omega)
  obtain ⟨e₁, e₂, he, pe⟩ :=
    exists_parseUint_two (Nat.zero_le (sec % 60)) (show _ ≤ 59 by omega) (by omega)
  have py : parseUint [y₁, y₂, y₃, y₄] 0 9999 = some year.toNat :=
    hy ▸ parseUint_padded (Nat.zero_le _) (by omega)
  rw [some.injEq] at h
  subst h
  simp only [hsec, hy, ha, hb, hc, hd, he, cons_append, nil_append, parseRFC3339, py, pa,
    pb, pc, pd, pe, hparsed, bind_eq_bind, bind_some]
  exact ⟨_, if_pos ⟨trivial, trivial, trivial, trivial, trivial⟩⟩

lemma exists_decode_toJson (h : t.toJson = some j) : ∃ t', ∀ prev, decode prev j = some t' := by
  obtain ⟨text, htext, rfl⟩ := map_eq_some_iff.mp h
  obtain ⟨t', ht'⟩ := exists_parseRFC3339 htext
  exact ⟨t', fun _ => ht'⟩

lemma nesting_toJson (h : t.toJson = some j) : j.nesting = 0 := by
  obtain ⟨text, -, rfl⟩ := map_eq_some_iff.mp h
  rfl

lemma plain_of_isDigit {b : UInt8} (h : isDigit b = true) :
    b ≠ 0x22 ∧ b ≠ 0x5C ∧ 0x20 ≤ b.toNat := by
  simp only [isDigit, Bool.and_eq_true, decide_eq_true_eq] at h
  refine ⟨fun heq => ?_, fun heq => ?_, ?_⟩
  · subst heq
    revert h
    decide
  · subst heq
    revert h
    decide
  · omega

lemma ok_toJson (h : t.toJson = some j) : j.Ok := by
  obtain ⟨text, htext, rfl⟩ := map_eq_some_iff.mp h
  have hdigits : ∀ width n, StrOk (padded width n) := fun width n =>
    strOk_of_forall fun b hb => plain_of_isDigit (all_isDigit_padded width n b hb)
  have hfraction : StrOk (formatFraction t.nsec) := by
    by_cases hnsec : t.nsec = 0
    · rw [formatFraction, if_pos hnsec]
      exact strOk_nil
    · obtain ⟨digits, heq, -, hall⟩ := exists_formatFraction_cons hnsec
      rw [heq]
      exact append (s := [46]) (by decide)
        (strOk_of_forall fun b hb => plain_of_isDigit (hall b hb))
  have hzone : StrOk (formatZone t.offset) := by
    rw [formatZone]
    split_ifs
    · decide
    · exact append (s := [45]) (by decide)
        ((hdigits _ _).append (append (s := [58]) (by decide) (hdigits _ _)))
    · exact append (s := [43]) (by decide)
        ((hdigits _ _).append (append (s := [58]) (by decide) (hdigits _ _)))
  unfold formatRFC3339 at htext
  dsimp only at htext
  split_ifs at htext
  rw [some.injEq] at htext
  subst htext
  have hsep : ∀ (b : UInt8) (width n : ℕ), StrOk [b] → StrOk (b :: padded width n) :=
    fun b width n hb => hb.append (hdigits width n)
  exact ((((((((hdigits _ _).append (hsep 45 _ _ (by decide))).append
    (hsep 45 _ _ (by decide))).append (hsep 84 _ _ (by decide))).append
    (hsep 58 _ _ (by decide))).append (hsep 58 _ _ (by decide))).append hfraction).append hzone)

end Time

end DataStream
