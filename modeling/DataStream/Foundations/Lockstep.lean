import Mathlib.Tactic.Common

/-!
# Conditions along a history

A history is run on a state one item after the other. A condition that speaks of the state before
each item holds along the history, and a replica that takes each item on its own follows the
original exactly if it does so in every single step.

* `along_append`: a history in two parts;
* `forall_past_foldlM_iff`: a replica follows the original through a history exactly if each step
  does;
* `Along.foldl_rel`: a follower that keeps a relation to the original in every step.
-/

namespace DataStream

open List

section Along

variable {σ ι : Type} (step : σ → ι → σ)

/-- What holds after every part of a history holds at its start and after every part of the rest. -/
lemma forall_past_cons {P : List ι → Prop} {i : ι} {rest : List ι} :
    (∀ past, past <+: i :: rest → P past) ↔ P [] ∧ ∀ past, past <+: rest → P (i :: past) := by
  constructor
  · exact fun h => ⟨h [] nil_prefix, fun past hpast => h _ (cons_prefix_cons.mpr ⟨rfl, hpast⟩)⟩
  · rintro ⟨hnil, hcons⟩ past hpast
    rcases prefix_cons_iff.mp hpast with rfl | ⟨past, rfl, hrest⟩
    · exact hnil
    · exact hcons past hrest

/-- Every item of a history meets a condition on the state before it. -/
def Along (P : σ → ι → Prop) : σ → List ι → Prop
  | _, [] => True
  | s, i :: rest => P s i ∧ Along P (step s i) rest

variable {step} {P : σ → ι → Prop} {s : σ} {past history : List ι}

theorem along_append {rest : List ι} :
    Along step P s (past ++ rest) ↔
      Along step P s past ∧ Along step P (past.foldl step s) rest := by
  induction past generalizing s with
  | nil => simp [Along]
  | cons i past ih => rw [cons_append, Along, Along, ih, and_assoc, foldl_cons]

lemma Along.of_past (hpast : past <+: history) (h : Along step P s history) :
    Along step P s past := by
  obtain ⟨rest, rfl⟩ := hpast
  exact (along_append.mp h).1

lemma Along.and {Q : σ → ι → Prop} (hP : Along step P s history) (hQ : Along step Q s history) :
    Along step (fun s i => P s i ∧ Q s i) s history := by
  induction history generalizing s with
  | nil => trivial
  | cons i history ih => exact ⟨⟨hP.1, hQ.1⟩, ih hP.2 hQ.2⟩

lemma along_map {κ : Type} {f : κ → ι} {history : List κ} :
    Along step P s (history.map f) ↔
      Along (fun s k => step s (f k)) (fun s k => P s (f k)) s history := by
  induction history generalizing s with
  | nil => exact Iff.rfl
  | cons k history ih => exact and_congr_right fun _ => ih

/-- Two conditions that agree on the valid items in states with an invariant agree along histories
of valid items. -/
lemma along_congr {inv : σ → Prop} {V Q : σ → ι → Prop}
    (hinv : ∀ s i, inv s → V s i → inv (step s i)) (hiff : ∀ s i, inv s → V s i → (P s i ↔ Q s i))
    (hs : inv s) (hvalid : Along step V s history) :
    Along step P s history ↔ Along step Q s history := by
  induction history generalizing s with
  | nil => exact Iff.rfl
  | cons i history ih => exact and_congr (hiff s i hs hvalid.1) (ih (hinv s i hs hvalid.1) hvalid.2)

/-- **Following in lockstep.** A replica that can fail has the state of the original after every
part of a history exactly if each of its steps does what the original does. -/
theorem forall_past_foldlM_iff {replica : σ → ι → Option σ} :
    (∀ past, past <+: history → past.foldlM replica s = some (past.foldl step s)) ↔
      Along step (fun s i => replica s i = some (step s i)) s history := by
  induction history generalizing s with
  | nil =>
    refine ⟨fun _ => trivial, fun _ past hpast => ?_⟩
    rw [prefix_nil.mp hpast]
    rfl
  | cons i history ih =>
    rw [forall_past_cons, Along, ← ih]
    constructor
    · rintro ⟨-, hall⟩
      have hfirst : replica s i = some (step s i) := by simpa using hall [] nil_prefix
      exact ⟨hfirst, by simpa [hfirst] using hall⟩
    · rintro ⟨hfirst, hall⟩
      exact ⟨rfl, by simpa [hfirst] using hall⟩

/-- **Simulation.** A follower that stays related to the original in every step that meets a
condition is related to it after every part of a history along which the condition holds. -/
theorem Along.foldl_rel {τ : Type} {follow : τ → ι → τ} {R : σ → τ → Prop}
    (hstep : ∀ s t i, P s i → R s t → R (step s i) (follow t i)) {t : τ} (hrel : R s t)
    (h : Along step P s history) (hpast : past <+: history) :
    R (past.foldl step s) (past.foldl follow t) := by
  have hold := h.of_past hpast
  clear h hpast
  induction past generalizing s t with
  | nil => exact hrel
  | cons i past ih => exact ih (hstep s t i hold.1 hrel) hold.2

end Along

end DataStream
