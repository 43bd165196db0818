import Mathlib.Data.List.Infix
import Mathlib.Tactic.Common

/-!
# Splitting a stream into frames

A stream starts with consecutive frames, each of which stands for a value. A reader that takes one
frame after another finds the longest such sequence, if it takes a frame exactly when there is one.

* `IsNext.longest_nil`, `IsNext.longest_cons`: the rounds of the reader.
-/

namespace DataStream.Frames

open List Option

variable {α β : Type*} {Frame : List α → β → Prop} {next : List α → Option (β × List α)}
  {s a rest : List α} {b : β} {frames frames' : List (List α × β)}

/-- A stream starts with these frames, and the rest follows them. -/
structure Splits (Frame : List α → β → Prop) (s : List α) (frames : List (List α × β))
    (rest : List α) : Prop where
  eq : s = (frames.map Prod.fst).flatten ++ rest
  isFrame : ∀ f ∈ frames, Frame f.1 f.2

/-- These are the longest sequence of frames from the start: every other one is an initial part of
it. -/
structure Longest (Frame : List α → β → Prop) (s : List α) (frames : List (List α × β))
    (rest : List α) : Prop extends Splits Frame s frames rest where
  longest : ∀ frames' rest', Splits Frame s frames' rest' → frames' <+: frames

/-- The reader takes a frame exactly when the stream starts with one. -/
def IsNext (Frame : List α → β → Prop) (next : List α → Option (β × List α)) : Prop :=
  ∀ s b rest, next s = some (b, rest) ↔ ∃ a, Frame a b ∧ s = a ++ rest

lemma Splits.nil (s : List α) : Splits Frame s [] s where
  eq := rfl
  isFrame := forall_mem_nil _

lemma Splits.cons (h : Splits Frame rest frames s) (ha : Frame a b) :
    Splits Frame (a ++ rest) ((a, b) :: frames) s where
  eq := by rw [h.eq, map_cons, flatten_cons, append_assoc]
  isFrame := forall_mem_cons.mpr ⟨ha, h.isFrame⟩

lemma Splits.of_cons (h : Splits Frame s ((a, b) :: frames) rest) :
    ∃ s', s = a ++ s' ∧ Frame a b ∧ Splits Frame s' frames rest := by
  obtain ⟨ha, hframes⟩ := forall_mem_cons.mp h.isFrame
  refine ⟨(frames.map Prod.fst).flatten ++ rest, ?_, ha, rfl, hframes⟩
  rw [h.eq, map_cons, flatten_cons, append_assoc]

theorem IsNext.longest_nil (h : IsNext Frame next) (hs : next s = none) : Longest Frame s [] s where
  toSplits := .nil s
  longest frames' rest' hsplits := by
    rcases frames' with _ | ⟨⟨a, b⟩, frames'⟩
    · exact prefix_refl []
    · obtain ⟨s', rfl, ha, -⟩ := hsplits.of_cons
      have hnext := (h _ b s').mpr ⟨a, ha, rfl⟩
      exact absurd (hs.symm.trans hnext) (some_ne_none _).symm

theorem IsNext.longest_cons (h : IsNext Frame next) (ha : Frame a b)
    (hrest : Longest Frame rest frames s) : Longest Frame (a ++ rest) ((a, b) :: frames) s where
  toSplits := hrest.toSplits.cons ha
  longest frames' rest' hsplits := by
    rcases frames' with _ | ⟨⟨a', b'⟩, frames'⟩
    · exact nil_prefix
    · -- The reader takes one of the two frames, so they are the same.
      obtain ⟨s', heq, ha', hframes'⟩ := hsplits.of_cons
      have hnext := (h _ b rest).mpr ⟨a, ha, rfl⟩
      have hnext' := (h _ b' s').mpr ⟨a', ha', heq⟩
      obtain ⟨rfl, rfl⟩ := Prod.mk.inj (some.inj (hnext.symm.trans hnext'))
      obtain rfl := append_cancel_right heq
      exact (cons_prefix_cons).mpr ⟨rfl, hrest.longest _ _ hframes'⟩

end DataStream.Frames
