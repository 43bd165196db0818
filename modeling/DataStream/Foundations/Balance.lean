import Mathlib.Algebra.BigOperators.Group.Finset.Piecewise
import Mathlib.Algebra.Order.BigOperators.Group.Finset

/-!
# Balanced loads

Items are placed one by one on a place with the least load. The loads of any two places then differ
by at most one, and no place has more than its share of the items.

* `Balanced.place`: one more item on a place with the least load;
* `Balanced.le_of_sum_le`: the bound on a single load from the number of items;
* `scan_cases`: what a scan for the least load below a limit finds.
-/

namespace DataStream.Balance

open List Function

variable {ι : Type*} {s : Finset ι} {load : ι → ℕ}

/-- The loads of two places differ by at most one. -/
def Balanced (s : Finset ι) (load : ι → ℕ) : Prop := ∀ a ∈ s, ∀ b ∈ s, load a ≤ load b + 1

variable {a : ι}

/-- Balanced loads are bounded by the share of each place. -/
theorem Balanced.le_of_sum_le (h : Balanced s load) {k : ℕ} (hsum : ∑ i ∈ s, load i ≤ k * s.card)
    (ha : a ∈ s) : load a ≤ k := by
  by_contra hlt
  rw [not_le] at hlt
  -- Every load is at least `k`, and the one of `a` is larger.
  have hlower : ∀ b ∈ s, k ≤ load b := fun b hb => by
    have hab := h a ha b hb
    omega
  have hstrict : ∑ _i ∈ s, k < ∑ i ∈ s, load i := Finset.sum_lt_sum hlower ⟨a, ha, hlt⟩
  rw [Finset.sum_const_nat fun _ _ => rfl, mul_comm] at hstrict
  omega

variable [DecidableEq ι]

/-- One more item on a place. -/
def place (load : ι → ℕ) (a : ι) : ι → ℕ := update load a (load a + 1)

lemma place_self (load : ι → ℕ) (a : ι) : place load a a = load a + 1 := update_self ..

lemma place_of_ne {b : ι} (h : b ≠ a) : place load a b = load b := update_of_ne h ..

/-- A place with the least load gets one more item. -/
theorem Balanced.place (h : Balanced s load) (hmin : ∀ b ∈ s, load a ≤ load b) :
    Balanced s (place load a) := by
  intro b hb c hc
  by_cases hba : b = a <;> by_cases hca : c = a
  · rw [hba, hca]
    omega
  · rw [hba, place_self, place_of_ne hca]
    have hac := hmin c hc
    omega
  · rw [hca, place_self, place_of_ne hba]
    have hba' := h b hb a (hca ▸ hc)
    omega
  · rw [place_of_ne hba, place_of_ne hca]
    exact h b hb c hc

lemma sum_place (load : ι → ℕ) (ha : a ∈ s) : ∑ i ∈ s, place load a i = ∑ i ∈ s, load i + 1 := by
  rw [Balance.place, Finset.sum_update_of_mem ha, Finset.sdiff_singleton_eq_erase,
    ← Finset.add_sum_erase s load ha]
  omega

omit [DecidableEq ι] in
/-- A scan for the first place with the least load below a limit, from a default. -/
def scan (load : ι → ℕ) (best : ι × ℕ) (order : List ι) : ι × ℕ :=
  order.foldl (fun best a => if load a < best.2 then (a, load a) else best) best

omit [DecidableEq ι] in
/-- The scan keeps the default, or finds a place with the least load. -/
theorem scan_cases (load : ι → ℕ) (best : ι × ℕ) (order : List ι) :
    scan load best order = best ∧ (∀ a ∈ order, best.2 ≤ load a) ∨
      ∃ a ∈ order, scan load best order = (a, load a) ∧ load a < best.2 ∧
        ∀ b ∈ order, load a ≤ load b := by
  induction order generalizing best with
  | nil => exact .inl ⟨rfl, fun _ ha => nomatch ha⟩
  | cons a order ih =>
    by_cases hless : load a < best.2
    · have hstep : scan load best (a :: order) = scan load (a, load a) order := by
        rw [scan, foldl_cons, if_pos hless]
        rfl
      rcases ih (a, load a) with ⟨hkept, hleast⟩ | ⟨b, hb, hfound, hlt, hleast⟩
      · exact .inr ⟨a, mem_cons_self, hstep.trans hkept, hless,
          forall_mem_cons.mpr ⟨le_rfl, hleast⟩⟩
      · exact .inr ⟨b, mem_cons_of_mem _ hb, hstep.trans hfound, hlt.trans hless,
          forall_mem_cons.mpr ⟨hlt.le, hleast⟩⟩
    · have hstep : scan load best (a :: order) = scan load best order := by
        rw [scan, foldl_cons, if_neg hless]
        rfl
      rw [not_lt] at hless
      rcases ih best with ⟨hkept, hleast⟩ | ⟨b, hb, hfound, hlt, hleast⟩
      · exact .inl ⟨hstep.trans hkept, forall_mem_cons.mpr ⟨hless, hleast⟩⟩
      · exact .inr ⟨b, mem_cons_of_mem _ hb, hstep.trans hfound, hlt,
          forall_mem_cons.mpr ⟨hlt.le.trans hless, hleast⟩⟩

end DataStream.Balance
