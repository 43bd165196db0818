import Mathlib.Data.List.Basic
import Mathlib.Tactic.Common

/-!
# Wait groups

The state of a `sync.WaitGroup`: a counter, and the number of goroutines that are blocked in `Wait`.
The call of `Done` that brings the counter to zero releases all of them at once and forgets them. A
released goroutine looks at the group again when it wakes up, and panics if the group has been used
in between.

A wait group is only as good as its users: it *counts* the participants that hold it if each of them
adds one when it takes hold and subtracts one when it lets go.

* `Counts.set_add`, `Counts.set_done`, `Counts.set_of_eq`: what a step of one participant does to
  the count;
* `Counts.not_holding`: nobody holds a group whose counter is zero.
-/

namespace DataStream

open List

@[ext]
structure WaitGroup where
  /-- How many more calls of `Done` there have to be. -/
  counter : ℕ
  /-- How many goroutines are blocked in `Wait`. -/
  waiters : ℕ
  deriving DecidableEq

namespace WaitGroup

def zero : WaitGroup := ⟨0, 0⟩

variable (wg : WaitGroup)

/-- `Add(1)`. -/
def add : WaitGroup := { wg with counter := wg.counter + 1 }

/-- `Done`: the last one forgets the goroutines that it releases. -/
def done : WaitGroup :=
  { counter := wg.counter - 1, waiters := if wg.counter ≤ 1 then 0 else wg.waiters }

/-- `Wait` blocks, because the counter is not zero. -/
def block : WaitGroup := { wg with waiters := wg.waiters + 1 }

@[simp]
lemma add_counter : wg.add.counter = wg.counter + 1 := rfl

@[simp]
lemma done_counter : wg.done.counter = wg.counter - 1 := rfl

@[simp]
lemma done_add_zero : zero.add.done = zero := rfl

variable {wg} {π : Type*} {holding : π → Bool} {l : List π} {i : ℕ} {p q : π}

/-- The counter is the number of participants that hold the group. -/
def Counts (wg : WaitGroup) (holding : π → Bool) (l : List π) : Prop :=
  wg.counter = l.countP holding

section

variable (h : wg.Counts holding l)
include h

theorem Counts.not_holding (hzero : wg.counter = 0) : ∀ p ∈ l, holding p = false := by
  rw [Counts, hzero, eq_comm, countP_eq_zero] at h
  simpa using h

lemma Counts.concat (hp : holding p = false) : wg.Counts holding (l ++ [p]) := by
  simpa [Counts, hp] using h

lemma Counts.map {f : π → π} (hf : ∀ p, holding (f p) = holding p) :
    wg.Counts holding (l.map f) := by
  rw [Counts, countP_map, h]
  exact countP_congr fun p _ => by simp [hf p]

/-- One participant moves without taking hold or letting go. -/
theorem Counts.set_of_eq (hp : l[i]? = some p) (hq : holding q = holding p) :
    wg.Counts holding (l.set i q) := by
  obtain ⟨hi, rfl⟩ := List.getElem?_eq_some_iff.mp hp
  rw [Counts, countP_set hi, hq, h]
  cases hheld : holding l[i] with
  | false => simp
  | true =>
    have hpos : 0 < l.countP holding := countP_pos_iff.mpr ⟨l[i], getElem_mem hi, hheld⟩
    simp only [if_true]
    omega

theorem Counts.set_add (hp : l[i]? = some p) (hheld : holding p = false) (hq : holding q = true) :
    wg.add.Counts holding (l.set i q) := by
  obtain ⟨hi, rfl⟩ := List.getElem?_eq_some_iff.mp hp
  rw [Counts, countP_set hi, hq, hheld, add_counter, h]
  simp

theorem Counts.set_done (hp : l[i]? = some p) (hheld : holding p = true) (hq : holding q = false) :
    wg.done.Counts holding (l.set i q) := by
  obtain ⟨hi, rfl⟩ := List.getElem?_eq_some_iff.mp hp
  rw [Counts, countP_set hi, hq, hheld, done_counter, h]
  simp

end

end WaitGroup

end DataStream
