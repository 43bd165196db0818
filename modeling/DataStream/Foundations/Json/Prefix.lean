import DataStream.Foundations.Json.Value

/-!
# Torn JSON texts

A JSON object or array ends with its closing bracket, so no strict prefix of its text is a JSON
text. The argument is that the parser reads from left to right: once it has read a value that is
closed by a delimiter, more input does not change what it has read.

* `parseInside_extend`, `parseAfter_extend`, `parseKey_extend`: what a delimiter closes is read
  alike when more follows;
* `parse_eq_none_of_prefix`: a strict prefix of the text of an object is no JSON text.
-/

namespace DataStream.Json

open Bytes List Option

/-- A value whose text needs what follows it to be complete: a number at the end of input. -/
def OpenEnded (j : Json) (rest : Bytes) : Prop := (∃ literal, j = .num literal) ∧ rest = []

variable {s rest : Bytes} {j : Json} {fuel depth : ℕ}

lemma scanString_extend {state : StrState} {raw : Bytes}
    (h : scanString state s = some (raw, rest)) (q : Bytes) :
    scanString state (s ++ q) = some (raw, rest ++ q) := by
  induction s generalizing state raw with
  | nil => simp [scanString] at h
  | cons b s ih =>
    rw [cons_append, scanString]
    rw [scanString] at h
    cases hstep : state.step b with
    | fail => simp [hstep] at h
    | close =>
      simp only [hstep, some.injEq, Prod.mk.injEq] at h ⊢
      obtain ⟨rfl, rfl⟩ := h
      exact ⟨rfl, rfl⟩
    | next next =>
      simp only [hstep, map_eq_some_iff, Prod.exists, Prod.mk.injEq] at h ⊢
      obtain ⟨raw', rest', hscan, rfl, rfl⟩ := h
      exact ⟨raw', rest' ++ q, ih hscan, rfl, rfl⟩

lemma scanNumber_extend {state : NumState} {digits : Bytes}
    (h : scanNumber state s = some (digits, rest)) (hrest : rest ≠ []) (q : Bytes) :
    scanNumber state (s ++ q) = some (digits, rest ++ q) := by
  induction s generalizing state digits with
  | nil =>
    rw [scanNumber] at h
    split at h
    · simp only [some.injEq, Prod.mk.injEq] at h
      exact absurd h.2.symm hrest
    · simp at h
  | cons b s ih =>
    rw [cons_append, scanNumber]
    rw [scanNumber] at h
    cases hstep : state.step b with
    | some next =>
      simp only [hstep, map_eq_some_iff, Prod.exists, Prod.mk.injEq] at h ⊢
      obtain ⟨digits', rest', hscan, rfl, rfl⟩ := h
      exact ⟨digits', rest' ++ q, ih hscan, rfl, rfl⟩
    | none =>
      simp only [hstep] at h ⊢
      split at h
      · simp only [some.injEq, Prod.mk.injEq] at h
        obtain ⟨rfl, rfl⟩ := h
        simp_all
      · simp at h

lemma skipSpace_extend {b : UInt8} (h : skipSpace s = b :: rest) (q : Bytes) :
    skipSpace (s ++ q) = b :: (rest ++ q) := by
  induction s with
  | nil => simp [skipSpace] at h
  | cons c s ih =>
    simp only [skipSpace, dropWhile_cons, cons_append] at h ih ⊢
    split at h
    · next hc => simpa [hc] using ih h
    · next hc =>
      obtain ⟨rfl, rfl⟩ : c = b ∧ s = rest := by simpa using h
      simp [hc]

lemma keyword_extend {word rest' : Bytes} {value : Json}
    (h : keyword word value rest = some (j, rest')) (q : Bytes) :
    keyword word value (rest ++ q) = some (j, rest' ++ q) := by
  unfold keyword at h ⊢
  split at h
  · next htake =>
    have hlen : word.length ≤ rest.length := by
      have := congrArg List.length htake
      simp only [length_take] at this
      omega
    obtain ⟨rfl, rfl⟩ := h
    rw [take_append_of_le_length hlen, if_pos htake, drop_append_of_le_length hlen]
  · simp at h

section Combinators

variable {α : Type} {parse parse' : Bytes → Option (List α × Bytes)} {q : Bytes}

lemma parseInside_extend
    (hparse : ∀ {s rest : Bytes} {xs : List α},
      parse s = some (xs, rest) → parse' (s ++ q) = some (xs, rest ++ q))
    {close : UInt8} {xs : List α} (h : parseInside close parse (skipSpace s) = some (xs, rest)) :
    parseInside close parse' (skipSpace (s ++ q)) = some (xs, rest ++ q) := by
  cases hs : skipSpace s with
  | nil => simp [hs, parseInside] at h
  | cons b r =>
    rw [skipSpace_extend hs q, parseInside]
    rw [hs, parseInside] at h
    split_ifs at h ⊢
    · simp only [some.injEq, Prod.mk.injEq] at h ⊢
      exact ⟨h.1, by rw [h.2]⟩
    · exact hparse h

lemma parseAfter_extend
    (hparse : ∀ {s rest : Bytes} {xs : List α},
      parse s = some (xs, rest) → parse' (s ++ q) = some (xs, rest ++ q))
    {close : UInt8} {x : α} {xs : List α}
    (h : parseAfter close parse x (skipSpace s) = some (xs, rest)) :
    s ≠ [] ∧ parseAfter close parse' x (skipSpace (s ++ q)) = some (xs, rest ++ q) := by
  cases hs : skipSpace s with
  | nil => simp [hs, parseAfter] at h
  | cons b r =>
    refine ⟨by rintro rfl; simp [skipSpace] at hs, ?_⟩
    rw [skipSpace_extend hs q, parseAfter]
    rw [hs, parseAfter] at h
    split_ifs at h ⊢
    · simp only [some.injEq, Prod.mk.injEq] at h ⊢
      exact ⟨h.1, by rw [h.2]⟩
    · simp only [map_eq_some_iff, Prod.exists, Prod.mk.injEq] at h ⊢
      obtain ⟨xs', rest', hxs, rfl, rfl⟩ := h
      exact ⟨xs', rest' ++ q, hparse hxs, rfl, rfl⟩

end Combinators

lemma parseKey_extend {key : Bytes} (h : parseKey (skipSpace s) = some (key, rest)) (q : Bytes) :
    parseKey (skipSpace (s ++ q)) = some (key, rest ++ q) := by
  cases hs : skipSpace s with
  | nil => simp [hs, parseKey] at h
  | cons b r =>
    rw [skipSpace_extend hs q]
    rw [hs] at h
    unfold parseKey at h ⊢
    split at h
    · next r' heq =>
      obtain ⟨rfl, rfl⟩ : b = 0x22 ∧ r = r' := by simpa using heq
      cases hscan : scanString .text r with
      | none => simp [hscan] at h
      | some pair =>
        simp only [hscan] at h
        simp only [scanString_extend hscan q]
        split at h
        · next tail hcolon =>
          rw [skipSpace_extend hcolon q]
          simp only [some.injEq, Prod.mk.injEq] at h ⊢
          exact ⟨h.1, by rw [h.2]⟩
        · simp at h
    · simp at h

/-- What each parser reads when more input follows and more fuel is spent. -/
private structure Extends (q : Bytes) (fuel : ℕ) : Prop where
  value : ∀ {fuel' depth : ℕ} {s rest : Bytes} {j : Json}, fuel ≤ fuel' →
    parseValue fuel depth s = some (j, rest) → ¬ OpenEnded j rest →
      parseValue fuel' depth (s ++ q) = some (j, rest ++ q)
  items : ∀ {fuel' depth : ℕ} {s rest : Bytes} {js : List Json}, fuel ≤ fuel' →
    parseItems fuel depth s = some (js, rest) →
      parseItems fuel' depth (s ++ q) = some (js, rest ++ q)
  members : ∀ {fuel' depth : ℕ} {s rest : Bytes} {ms : List (Bytes × Json)}, fuel ≤ fuel' →
    parseMembers fuel depth s = some (ms, rest) →
      parseMembers fuel' depth (s ++ q) = some (ms, rest ++ q)

private lemma value_extend {q : Bytes} (ih : Extends q fuel) {fuel' : ℕ} (hfuel : fuel ≤ fuel')
    (h : parseValue (fuel + 1) depth s = some (j, rest)) (hopen : ¬ OpenEnded j rest) :
    parseValue (fuel' + 1) depth (s ++ q) = some (j, rest ++ q) := by
  rw [parseValue] at h ⊢
  cases hs : skipSpace s with
  | nil => simp [hs] at h
  | cons b r =>
    rw [skipSpace_extend hs q]
    simp only [hs] at h ⊢
    -- The first byte decides: string, array, object, one of three keywords, or a number.
    split_ifs at h ⊢ with h₁ h₂ h₃ h₄ h₅ h₆
    · simp only [map_eq_some_iff, Prod.exists, Prod.mk.injEq] at h ⊢
      obtain ⟨raw, rest', hscan, rfl, rfl⟩ := h
      exact ⟨raw, rest' ++ q, scanString_extend hscan q, rfl, rfl⟩
    · cases depth with
      | zero => simp at h
      | succ depth =>
        simp only [map_eq_some_iff, Prod.exists, Prod.mk.injEq] at h ⊢
        obtain ⟨items, rest', hitems, rfl, rfl⟩ := h
        exact ⟨items, rest' ++ q, parseInside_extend (ih.items hfuel) hitems, rfl, rfl⟩
    · cases depth with
      | zero => simp at h
      | succ depth =>
        simp only [map_eq_some_iff, Prod.exists, Prod.mk.injEq] at h ⊢
        obtain ⟨members, rest', hmembers, rfl, rfl⟩ := h
        exact ⟨members, rest' ++ q, parseInside_extend (ih.members hfuel) hmembers, rfl, rfl⟩
    iterate 3 exact keyword_extend h q
    · cases hstart : NumState.start b with
      | none => simp [hstart] at h
      | some state =>
        simp only [hstart, map_eq_some_iff, Prod.exists, Prod.mk.injEq] at h ⊢
        obtain ⟨digits, rest', hscan, rfl, rfl⟩ := h
        -- A number at the end of the text might go on in what is appended.
        have hrest : rest' ≠ [] := fun hnil => hopen ⟨⟨_, rfl⟩, hnil⟩
        exact ⟨digits, rest' ++ q, scanNumber_extend hscan hrest q, rfl, rfl⟩

private lemma extends_all (q : Bytes) (fuel : ℕ) : Extends q fuel := by
  induction fuel with
  | zero =>
    constructor
    · intro _ _ _ _ _ _ h; simp [parseValue] at h
    · intro _ _ _ _ _ _ h; simp [parseItems] at h
    · intro _ _ _ _ _ _ h; simp [parseMembers] at h
  | succ fuel ih =>
    constructor
    · intro fuel' depth s rest j hfuel h hopen
      obtain ⟨f, rfl⟩ : ∃ f, fuel' = f + 1 := ⟨fuel' - 1, by omega⟩
      exact value_extend ih (by omega) h hopen
    · intro fuel' depth s rest js hfuel h
      obtain ⟨f, rfl⟩ : ∃ f, fuel' = f + 1 := ⟨fuel' - 1, by omega⟩
      have hle : fuel ≤ f := by omega
      rw [parseItems] at h ⊢
      cases hvalue : parseValue fuel depth s with
      | none => simp [hvalue] at h
      | some pair =>
        simp only [hvalue] at h
        -- An item is always followed by a comma or a bracket, so it is not open-ended.
        obtain ⟨hne, hafter⟩ := parseAfter_extend (ih.items hle) h
        rw [ih.value hle hvalue fun hopen => hne hopen.2]
        exact hafter
    · intro fuel' depth s rest ms hfuel h
      obtain ⟨f, rfl⟩ : ∃ f, fuel' = f + 1 := ⟨fuel' - 1, by omega⟩
      have hle : fuel ≤ f := by omega
      rw [parseMembers] at h ⊢
      cases hkey : parseKey (skipSpace s) with
      | none => simp [hkey] at h
      | some pair =>
        obtain ⟨key, after⟩ := pair
        rw [parseKey_extend hkey q]
        simp only [hkey] at h ⊢
        cases hvalue : parseValue fuel depth after with
        | none => simp [hvalue] at h
        | some pair =>
          simp only [hvalue] at h
          obtain ⟨hne, hafter⟩ := parseAfter_extend (ih.members hle) h
          rw [ih.value hle hvalue fun hopen => hne hopen.2]
          exact hafter

private lemma not_num_of_brace (h : parseValue fuel depth (0x7B :: s) = some (j, rest)) :
    ¬ OpenEnded j rest := by
  rintro ⟨⟨literal, rfl⟩, -⟩
  cases fuel with
  | zero => simp [parseValue] at h
  | succ fuel =>
    rw [parseValue, skipSpace_cons (by decide)] at h
    cases depth with
    | zero => simp at h
    | succ depth => simp at h

/-- A strict prefix of the text of an object is no JSON text. -/
theorem parse_eq_none_of_prefix {ms : List (Bytes × Json)} (hok : (Json.obj ms).Ok)
    (hdepth : (Json.obj ms).nesting ≤ maxNestingDepth) {p q : Bytes}
    (heq : (Json.obj ms).print = p ++ q) (hq : q ≠ []) : parse p = none := by
  cases p with
  | nil => rfl
  | cons b p =>
    obtain rfl : b = 0x7B := by simpa [print] using (congrArg List.head? heq).symm
    unfold parse
    cases hparse : parseValue (2 * (0x7B :: p : Bytes).length + 2) maxNestingDepth (0x7B :: p) with
    | none => rfl
    | some pair =>
      obtain ⟨j, rest⟩ := pair
      -- The whole text would be read as the same value, with the cut-off part left over.
      have hlen : (Json.obj ms).print.length = (0x7B :: p : Bytes).length + q.length := by
        rw [heq, length_append]
      have hwhole : parseValue (2 * (Json.obj ms).print.length + 2) maxNestingDepth
          (0x7B :: p ++ q) = some (j, rest ++ q) :=
        (extends_all q _).value (by omega) hparse (not_num_of_brace hparse)
      rw [← heq] at hwhole
      have hprint := parseValue_print (Json.obj ms) hok (2 * (Json.obj ms).print.length + 1)
        maxNestingDepth [] (by omega) hdepth follows_nil
      rw [append_nil, hwhole, some.injEq, Prod.mk.injEq, append_eq_nil_iff] at hprint
      exact absurd hprint.2.2 hq

end DataStream.Json
