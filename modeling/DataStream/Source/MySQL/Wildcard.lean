import DataStream.Foundations.Bytes
import Mathlib.Data.List.Forall2

/-!
# Wildcard table patterns

`matchPattern` and `wildcardMatch` of `internal/source/mysql/binlog_syncer.go`. The source fills a
table whose entry at `(i, j)` says whether the first `i` bytes of the pattern match the first `j`
bytes of the name. Each row needs only the row above it, so the model keeps one row at a time.

* `wildcardMatch_iff`: the table decides whether the name splits into pieces for the pattern.
-/

namespace DataStream.Source.MySQL

open List

/-- The entries of a row after the first one, from the entries of the row above; `left` is the
entry before. -/
def fillRow (c : UInt8) (left : Bool) : Bytes → List Bool → List Bool
  | b :: s, diagonal :: above :: row =>
    let entry :=
      if c = 0x2A then above || left
      else if c = 0x3F then diagonal
      else diagonal && c = b
    entry :: fillRow c entry s (above :: row)
  | _, _ => []

/-- The row for a pattern with one more byte. Only a star can match the empty name. -/
def nextRow (s : Bytes) (row : List Bool) (c : UInt8) : List Bool :=
  let first := c = 0x2A && row.headD false
  first :: fillRow c first s row

variable (pattern s : Bytes)

def wildcardMatch : Bool :=
  (pattern.foldl (nextRow s) (true :: s.map fun _ => false)).getLastD false

def matchPattern : Bool := pattern = lit "*" || wildcardMatch pattern s

/-- A byte of a pattern stands for a piece of the name. -/
def StandsFor (c : UInt8) (piece : Bytes) : Prop :=
  if c = 0x2A then True else if c = 0x3F then piece.length = 1 else piece = [c]

/-- The name splits into pieces for which the bytes of the pattern stand, in order. -/
def Matches : Prop :=
  ∃ pieces : List Bytes, List.Forall₂ StandsFor pattern pieces ∧ pieces.flatten = s

variable {p pre s t : Bytes} {b c : UInt8} {row : List Bool}

lemma matches_nil : Matches [] s ↔ s = [] := by
  constructor
  · rintro ⟨pieces, h, rfl⟩
    rw [forall₂_nil_left_iff.mp h, flatten_nil]
  · rintro rfl
    exact ⟨[], .nil, rfl⟩

lemma matches_concat : Matches (p ++ [c]) s ↔ ∃ u v, s = u ++ v ∧ Matches p u ∧ StandsFor c v := by
  constructor
  · rintro ⟨pieces, h, rfl⟩
    -- The last piece is the first one of the reversed list.
    rw [← forall₂_reverse_iff, reverse_append] at h
    obtain ⟨v, us, hv, hus, hpieces⟩ := forall₂_cons_left_iff.mp h
    have hsplit : pieces = us.reverse ++ [v] := by
      rw [← reverse_reverse pieces, hpieces, reverse_cons]
    refine ⟨us.reverse.flatten, v, by simp [hsplit], ⟨us.reverse, ?_, rfl⟩, hv⟩
    rwa [← forall₂_reverse_iff, reverse_reverse]
  · rintro ⟨u, v, rfl, ⟨us, hus, rfl⟩, hv⟩
    exact ⟨us ++ [v], rel_append hus (.cons hv .nil), by simp⟩

lemma matches_concat_nil : Matches (p ++ [c]) [] ↔ c = 0x2A ∧ Matches p [] := by
  rw [matches_concat]
  constructor
  · rintro ⟨u, v, hsplit, hu, hv⟩
    obtain ⟨rfl, rfl⟩ := append_eq_nil_iff.mp hsplit.symm
    refine ⟨?_, hu⟩
    by_contra hstar
    simp [StandsFor, hstar] at hv
  · rintro ⟨rfl, hp⟩
    exact ⟨[], [], rfl, hp, by simp [StandsFor]⟩

lemma matches_star :
    Matches (p ++ [0x2A]) (t ++ [b]) ↔ Matches p (t ++ [b]) ∨ Matches (p ++ [0x2A]) t := by
  have hstar : ∀ v, StandsFor 0x2A v := fun v => by simp [StandsFor]
  rw [matches_concat, matches_concat]
  constructor
  · rintro ⟨u, v, hsplit, hu, -⟩
    rcases eq_nil_or_concat v with rfl | ⟨v, b', rfl⟩
    · rw [append_nil] at hsplit
      exact .inl (hsplit ▸ hu)
    · rw [concat_eq_append, ← append_assoc] at hsplit
      exact .inr ⟨u, v, (append_inj' hsplit rfl).1, hu, hstar v⟩
  · rintro (h | ⟨u, v, rfl, hu, -⟩)
    · exact ⟨t ++ [b], [], (append_nil _).symm, h, hstar _⟩
    · exact ⟨u, v ++ [b], append_assoc _ _ _, hu, hstar _⟩

lemma matches_single (hc : c ≠ 0x2A) :
    Matches (p ++ [c]) (t ++ [b]) ↔ Matches p t ∧ (c = 0x3F ∨ c = b) := by
  have hsingle : ∀ v, StandsFor c v ↔ ∃ b, v = [b] ∧ (c = 0x3F ∨ c = b) := by
    intro v
    by_cases hq : c = 0x3F
    · simp [StandsFor, hq, length_eq_one_iff]
    · simp [StandsFor, hc, hq]
  rw [matches_concat]
  constructor
  · rintro ⟨u, v, hsplit, hu, hv⟩
    obtain ⟨b', rfl, hb⟩ := (hsingle v).mp hv
    obtain ⟨rfl, hlast⟩ := append_inj' hsplit rfl
    rw [singleton_inj.mp hlast]
    exact ⟨hu, hb⟩
  · rintro ⟨ht, hb⟩
    exact ⟨t, [b], rfl, ht, (hsingle [b]).mpr ⟨b, rfl, hb⟩⟩

/-- A row says for every place in the rest of the name, after `pre`, whether the pattern matches
what lies before. -/
def RowFor (p pre : Bytes) : Bytes → List Bool → Prop
  | [], row => ∃ entry, row = [entry] ∧ (entry = true ↔ Matches p pre)
  | b :: s, row => ∃ entry row', row = entry :: row' ∧ (entry = true ↔ Matches p pre) ∧
      RowFor p (pre ++ [b]) s row'

lemma RowFor.exists_cons (h : RowFor p pre s row) :
    ∃ entry row', row = entry :: row' ∧ (entry = true ↔ Matches p pre) := by
  cases s with
  | nil =>
    obtain ⟨entry, rfl, hentry⟩ := h
    exact ⟨entry, [], rfl, hentry⟩
  | cons b s =>
    obtain ⟨entry, row', rfl, hentry, -⟩ := h
    exact ⟨entry, row', rfl, hentry⟩

lemma RowFor.getLastD (h : RowFor p pre s row) :
    row.getLastD false = true ↔ Matches p (pre ++ s) := by
  induction s generalizing pre row with
  | nil =>
    obtain ⟨entry, rfl, hentry⟩ := h
    rwa [append_nil]
  | cons b s ih =>
    obtain ⟨entry, row', rfl, -, hrow⟩ := h
    obtain ⟨next, row'', rfl, -⟩ := hrow.exists_cons
    rw [append_cons, ← ih hrow]
    rfl

/-- The row below is filled from left to right. -/
lemma rowFor_fillRow {left : Bool} (habove : RowFor p pre s row)
    (hleft : left = true ↔ Matches (p ++ [c]) pre) :
    RowFor (p ++ [c]) pre s (left :: fillRow c left s row) := by
  induction s generalizing pre left row with
  | nil => exact ⟨left, rfl, hleft⟩
  | cons b s ih =>
    obtain ⟨diagonal, row', rfl, hdiagonal, hrow⟩ := habove
    obtain ⟨above, row'', rfl, habove⟩ := hrow.exists_cons
    refine ⟨left, _, rfl, hleft, ih hrow ?_⟩
    by_cases hstar : c = 0x2A
    · subst hstar
      rw [if_pos rfl, matches_star, Bool.or_eq_true, habove, hleft]
    · rw [if_neg hstar, matches_single hstar, ← hdiagonal]
      split <;> simp [*]

lemma rowFor_nextRow (h : RowFor p [] s row) : RowFor (p ++ [c]) [] s (nextRow s row c) := by
  refine rowFor_fillRow h ?_
  obtain ⟨entry, row', rfl, hentry⟩ := h.exists_cons
  rw [matches_concat_nil, ← hentry]
  simp

lemma rowFor_first {entry : Bool} (h : entry = true ↔ pre = []) :
    RowFor [] pre s (entry :: s.map fun _ => false) := by
  induction s generalizing pre entry with
  | nil => exact ⟨entry, rfl, by rw [h, matches_nil]⟩
  | cons b s ih => exact ⟨entry, _, rfl, by rw [h, matches_nil], ih (by simp)⟩

/-- Along the bytes of the pattern, the row is the one for the bytes read so far. -/
lemma rowFor_foldl {rest : Bytes} (h : RowFor p [] s row) :
    RowFor (p ++ rest) [] s (rest.foldl (nextRow s) row) := by
  induction rest generalizing p row with
  | nil => rwa [append_nil]
  | cons c rest ih =>
    rw [append_cons]
    exact ih (rowFor_nextRow h)

/-- The last row is that of the whole pattern. -/
lemma rowFor_table (pattern s : Bytes) :
    RowFor pattern [] s (pattern.foldl (nextRow s) (true :: s.map fun _ => false)) :=
  rowFor_foldl (rowFor_first (by simp))

/-- `wildcardMatch` is true exactly when the name splits into pieces for the pattern. -/
theorem wildcardMatch_iff (pattern s : Bytes) :
    wildcardMatch pattern s = true ↔ Matches pattern s :=
  (rowFor_table pattern s).getLastD

/-- A single star matches every name, as the table would find. -/
theorem matchPattern_iff (pattern s : Bytes) :
    matchPattern pattern s = true ↔ Matches pattern s := by
  rw [matchPattern, wildcardMatch, Bool.or_eq_true, (rowFor_table pattern s).getLastD,
    decide_eq_true_iff]
  refine or_iff_right_of_imp ?_
  rintro rfl
  exact ⟨[s], .cons (by simp [StandsFor]) .nil, by simp⟩

end DataStream.Source.MySQL
