import Mathlib.Data.List.Basic
import Mathlib.Data.Set.Basic
import Mathlib.Order.Basic
import Mathlib.Tactic.Common

/-!
# Watermarks

Items have places in an ordered log and are processed one by one. A place covers the items if every
item up to it is done, so that a reader who starts behind it misses nothing.

* `Covered.mono`: a place stays covered as more items are done, and so do earlier places;
* `window_append`: adjacent windows of an ordered log are read one after the other;
* `window_append_above`: an ordered log from a place on is a window and what lies above it.
-/

namespace DataStream

open List

variable {ι α : Type*} [LinearOrder α]

/-- Every item placed at or before `mark` is done. -/
def Covered (place : ι → α) (items done : Set ι) (mark : α) : Prop :=
  ∀ x ∈ items, place x ≤ mark → x ∈ done

variable {place : ι → α} {items done done' : Set ι} {mark mark' : α}

theorem Covered.mono (h : Covered place items done mark) (hdone : done ⊆ done')
    (hmark : mark' ≤ mark) : Covered place items done' mark' := by
  intro x hx hplace
  exact hdone (h x hx (hplace.trans hmark))

lemma covered_empty_iff : Covered place items ∅ mark ↔ ∀ x ∈ items, mark < place x := by
  simp [Covered]

/-! ## Windows of an ordered log -/

/-- The items placed above `lower` and at most at `upper`, in order. -/
def window (place : ι → α) (lower upper : α) (log : List ι) : List ι :=
  log.filter fun x => lower < place x ∧ place x ≤ upper

/-- The items placed above `lower`, in order. -/
def above (place : ι → α) (lower : α) (log : List ι) : List ι := log.filter fun x => lower < place x

/-- The log is in the order of the places. -/
def Ordered (place : ι → α) (log : List ι) : Prop := log.Pairwise fun x y => place x ≤ place y
  deriving Decidable

variable {log log' : List ι} {lower middle upper : α}

lemma mem_window {x : ι} :
    x ∈ window place lower upper log ↔ x ∈ log ∧ lower < place x ∧ place x ≤ upper := by
  simp [window]

/-- In an ordered log everything above a place comes last. -/
theorem window_append_above (hlog : Ordered place log) (hle : lower ≤ upper) :
    window place lower upper log ++ above place upper log = above place lower log := by
  induction log with
  | nil => rfl
  | cons x log ih =>
    rw [Ordered, pairwise_cons] at hlog
    have ih := ih hlog.2
    rw [window, above, above] at ih ⊢
    rcases le_or_gt (place x) lower with hx | hx
    · -- The item lies below both windows.
      rw [filter_cons_of_neg (by simp [hx]), filter_cons_of_neg (by simpa using hx.trans hle),
        filter_cons_of_neg (by simpa using hx), ih]
    rcases le_or_gt (place x) upper with hx' | hx'
    · rw [filter_cons_of_pos (by simpa using ⟨hx, hx'⟩), filter_cons_of_neg (by simpa using hx'),
        filter_cons_of_pos (by simpa using hx), cons_append, ih]
    · -- The item lies above the first window, and so does everything after it.
      have hnone : log.filter (fun y => decide (lower < place y ∧ place y ≤ upper)) = [] := by
        rw [filter_eq_nil_iff]
        intro y hy
        simpa using fun _ => hx'.trans_le (hlog.1 y hy)
      rw [hnone, nil_append] at ih
      rw [filter_cons_of_neg (by simpa using fun _ => hx'), hnone,
        filter_cons_of_pos (by simpa using hx'), filter_cons_of_pos (by simpa using hx),
        ih, nil_append]

lemma filter_above (log : List ι) :
    (above place lower log).filter (fun x => place x ≤ upper) = window place lower upper log := by
  rw [above, window, List.filter_filter]
  refine filter_congr fun x _ => ?_
  rw [Bool.decide_and, Bool.and_comm]

/-- Adjacent windows of an ordered log are read one after the other. -/
theorem window_append (hlog : Ordered place log) (hlower : lower ≤ middle)
    (hupper : middle ≤ upper) :
    window place lower middle log ++ window place middle upper log =
      window place lower upper log := by
  have hfirst : (window place lower middle log).filter (fun x => place x ≤ upper) =
      window place lower middle log := by
    rw [filter_eq_self]
    intro x hx
    simpa using (mem_window.mp hx).2.2.trans hupper
  calc window place lower middle log ++ window place middle upper log
      = (window place lower middle log ++ above place middle log).filter
          (fun x => place x ≤ upper) := by
        rw [filter_append, hfirst, filter_above]
    _ = (above place lower log).filter (fun x => place x ≤ upper) := by
        rw [window_append_above hlog hlower]
    _ = window place lower upper log := filter_above log

lemma window_of_append (h : ∀ x ∈ log', upper < place x) :
    window place lower upper (log ++ log') = window place lower upper log := by
  have hnone : log'.filter (fun x => decide (lower < place x ∧ place x ≤ upper)) = [] := by
    rw [filter_eq_nil_iff]
    intro x hx
    simpa using fun _ => h x hx
  rw [window, filter_append, hnone, append_nil, window]

lemma window_self : window place lower lower log = [] := by
  rw [window, filter_eq_nil_iff]
  simp

end DataStream
