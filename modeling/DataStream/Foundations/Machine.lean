import DataStream.Foundations.Bytes

/-!
# Runs of a state machine

A deterministic machine reads one input at a time, changes its state and emits effects. Whatever
the environment decides (an answer of a service, a timeout, the order of interleaved activities)
is part of the input, so a property of every run is a property of every list of inputs.

* `run_append`: running a list of inputs in two parts;
* `run_induction`: what every step preserves holds of every run;
* `run_induction_of_meets`: the same for runs whose steps all meet a condition;
* `run_simulation`: machines whose steps keep a relation and emit the same effects.
-/

namespace DataStream

open List

/-- How a call returns. -/
inductive Outcome where
  | ok
  | error (msg : Bytes)
  | panic
  deriving DecidableEq

/-- A state machine with states `σ`, inputs `ι` and effects `ε`. -/
structure Machine (σ ι ε : Type) where
  /-- One step: the next state and the effects, in order. -/
  step : σ → ι → σ × List ε

namespace Machine

variable {σ ι ε : Type} (m : Machine σ ι ε)

/-- A run from a state: the last state and all effects, in order. -/
def run : σ → List ι → σ × List ε
  | s, [] => (s, [])
  | s, i :: is =>
    let next := m.step s i
    let rest := run next.1 is
    (rest.1, next.2 ++ rest.2)

variable (s : σ) (i : ι) (is : List ι)

@[simp]
lemma run_nil : m.run s [] = (s, []) := rfl

lemma run_cons :
    m.run s (i :: is) =
      ((m.run (m.step s i).1 is).1, (m.step s i).2 ++ (m.run (m.step s i).1 is).2) := rfl

@[simp]
lemma run_singleton : m.run s [i] = m.step s i := by
  simp [run]

theorem run_append (is js : List ι) :
    m.run s (is ++ js) =
      ((m.run (m.run s is).1 js).1, (m.run s is).2 ++ (m.run (m.run s is).1 js).2) := by
  induction is generalizing s with
  | nil => simp
  | cons i is ih => simp [run_cons, ih]

lemma run_concat (i : ι) :
    m.run s (is ++ [i]) =
      ((m.step (m.run s is).1 i).1, (m.run s is).2 ++ (m.step (m.run s is).1 i).2) := by
  rw [run_append, run_singleton]

variable {s : σ} {is : List ι} {ok ok' : σ → ι → Prop} {motive : σ → List ε → Prop}

lemma run_eq_self (h : ∀ i ∈ is, m.step s i = (s, [])) : m.run s is = (s, []) := by
  induction is with
  | nil => rfl
  | cons i is ih =>
    obtain ⟨hi, his⟩ := forall_mem_cons.mp h
    rw [run_cons, hi, ih his]
    rfl

/-- Every step of a run meets a condition on its state and input. -/
def Meets (ok : σ → ι → Prop) : σ → List ι → Prop
  | _, [] => True
  | s, i :: is => ok s i ∧ Meets ok (m.step s i).1 is

instance decidableMeets {ok : σ → ι → Prop} [∀ s i, Decidable (ok s i)] :
    ∀ (s : σ) (is : List ι), Decidable (m.Meets ok s is)
  | _, [] => isTrue trivial
  | s, i :: is =>
    have : Decidable (m.Meets ok (m.step s i).1 is) := decidableMeets _ is
    inferInstanceAs (Decidable (ok s i ∧ m.Meets ok (m.step s i).1 is))

lemma meets_append {js : List ι} :
    m.Meets ok s (is ++ js) ↔ m.Meets ok s is ∧ m.Meets ok (m.run s is).1 js := by
  induction is generalizing s with
  | nil => simp [Meets]
  | cons i is ih => simp [Meets, ih, run_cons, and_assoc]

/-- A condition that follows from another in the states with an invariant is met by every run that
meets the other, if its steps keep the invariant. -/
lemma meets_of_invariant (Inv : σ → Prop)
    (h : ∀ s i, Inv s → ok s i → ok' s i ∧ Inv (m.step s i).1) (hs : Inv s)
    (hmeets : m.Meets ok s is) : m.Meets ok' s is := by
  induction is generalizing s with
  | nil => trivial
  | cons i is ih =>
    obtain ⟨hok, hnext⟩ := h s i hs hmeets.1
    exact ⟨hok, ih hnext hmeets.2⟩

/-- A condition may be replaced by one that follows from it for the inputs of the run. -/
lemma meets_imp_of_mem (h : ∀ i ∈ is, ∀ s, ok s i → ok' s i) (hmeets : m.Meets ok s is) :
    m.Meets ok' s is := by
  induction is generalizing s with
  | nil => trivial
  | cons i is ih =>
    rw [forall_mem_cons] at h
    exact ⟨h.1 s hmeets.1, ih h.2 hmeets.2⟩

lemma meets_true (s : σ) (is : List ι) : m.Meets (fun _ _ => True) s is := by
  induction is generalizing s with
  | nil => trivial
  | cons i is ih => exact ⟨trivial, ih _⟩

lemma meets_imp (h : ∀ s i, ok s i → ok' s i) (hmeets : m.Meets ok s is) : m.Meets ok' s is :=
  m.meets_imp_of_mem (fun i _ s => h s i) hmeets

lemma meets_congr (h : ∀ s i, ok s i ↔ ok' s i) : m.Meets ok s is ↔ m.Meets ok' s is := by
  induction is generalizing s with
  | nil => rfl
  | cons i is ih => rw [Meets, Meets, h, ih]

/-- Two conditions that agree in the states with an invariant are met by the same runs, if steps
that meet one keep the invariant. -/
lemma meets_iff_of_invariant {Inv : σ → Prop} (agree : ∀ s i, Inv s → (ok s i ↔ ok' s i))
    (step : ∀ s i, Inv s → ok' s i → Inv (m.step s i).1) (hs : Inv s) :
    m.Meets ok s is ↔ m.Meets ok' s is := by
  induction is generalizing s with
  | nil => rfl
  | cons i is ih =>
    rw [Meets, Meets, agree s i hs]
    exact and_congr_right fun hok => ih (step s i hs hok)

/-- A run has at most as many steps as a measure allows that each of them makes smaller. -/
lemma length_le_of_meets (μ : σ → ℕ) (h : ∀ s i, ok s i → μ (m.step s i).1 < μ s)
    (hmeets : m.Meets ok s is) : is.length ≤ μ s := by
  induction is generalizing s with
  | nil => exact Nat.zero_le _
  | cons i is ih => exact (ih hmeets.2).trans_lt (h s i hmeets.1)

lemma forall_mem_run_iff {P : ε → Prop} :
    (∀ e ∈ (m.run s is).2, P e) ↔ m.Meets (fun s i => ∀ e ∈ (m.step s i).2, P e) s is := by
  induction is generalizing s with
  | nil => simp [Meets]
  | cons i is ih => simp only [run_cons, mem_append, or_imp, forall_and, Meets, ih]

/-- What holds at the start and is preserved by every step that meets a condition holds at the end
of every run whose steps all meet it, effects included. -/
theorem run_induction_of_meets (hmeets : m.Meets ok s is) (init : motive s [])
    (step : ∀ s es i, ok s i → motive s es → motive (m.step s i).1 (es ++ (m.step s i).2)) :
    motive (m.run s is).1 (m.run s is).2 := by
  suffices ∀ es, motive s es → motive (m.run s is).1 (es ++ (m.run s is).2) by
    simpa using this [] init
  clear init
  induction is generalizing s with
  | nil => simp
  | cons i is ih =>
    intro es hes
    rw [run_cons, ← append_assoc]
    exact ih hmeets.2 _ (step s es i hmeets.1 hes)

/-- What holds at the start and is preserved by every step holds at the end of every run. -/
theorem run_induction (is : List ι) (init : motive s [])
    (step : ∀ s es i, motive s es → motive (m.step s i).1 (es ++ (m.step s i).2)) :
    motive (m.run s is).1 (m.run s is).2 :=
  m.run_induction_of_meets (m.meets_true s is) init fun s es i _ h => step s es i h

/-- The machine that emits for each step its input and all its effects, as one record. -/
def recorded : Machine σ ι (ι × List ε) where
  step s i := ((m.step s i).1, [(i, (m.step s i).2)])

@[simp]
lemma recorded_step (s : σ) (i : ι) :
    m.recorded.step s i = ((m.step s i).1, [(i, (m.step s i).2)]) := rfl

lemma meets_recorded : m.recorded.Meets ok s is ↔ m.Meets ok s is := by
  induction is generalizing s with
  | nil => rfl
  | cons i is ih => rw [Meets, Meets, recorded_step, ih]

/-- If every admissible step leads from related states to related states and emits the same effects,
so does the run. -/
theorem run_simulation {τ : Type} {m' : Machine τ ι ε} {R : σ → τ → Prop} {ok : ι → Prop}
    (step : ∀ s t i, ok i → R s t →
      R (m.step s i).1 (m'.step t i).1 ∧ (m.step s i).2 = (m'.step t i).2)
    (hok : ∀ i ∈ is, ok i) {t : τ} (h : R s t) :
    R (m.run s is).1 (m'.run t is).1 ∧ (m.run s is).2 = (m'.run t is).2 := by
  induction is generalizing s t with
  | nil => exact ⟨h, rfl⟩
  | cons i is ih =>
    rw [forall_mem_cons] at hok
    obtain ⟨hnext, heffects⟩ := step s t i hok.1 h
    obtain ⟨hrest, hrun⟩ := ih hok.2 hnext
    refine ⟨hrest, ?_⟩
    rw [run_cons, run_cons, heffects, hrun]

end Machine

end DataStream
