import Mathlib.Data.List.Basic
import Mathlib.Tactic.Common

/-!
# Traces with forbidden stretches

A trace opens a stretch with one kind of effect and closes it with another; a third kind is
forbidden while a stretch is open. A monitor with one bit decides this as the trace grows.

* `Monitor.respects_append`: a trace is checked in parts;
* `Monitor.exists_closing`: a closing effect stands between an opening and a later forbidden one.
-/

namespace DataStream

/-- What opens a stretch, what closes it and what is forbidden inside. -/
structure Monitor (ε : Type) where
  opening : ε → Bool
  closing : ε → Bool
  forbidden : ε → Bool

namespace Monitor

variable {ε : Type} (m : Monitor ε)

variable (isOpen : Bool) (e : ε)

def next : Bool :=
  if m.opening e then true else if m.closing e then false else isOpen

def openAfter (es : List ε) : Bool := es.foldl m.next isOpen

/-- No forbidden effect occurs while a stretch is open. -/
def Respects : Bool → List ε → Prop
  | _, [] => True
  | isOpen, e :: es => (isOpen = true → m.forbidden e = false) ∧ Respects (m.next isOpen e) es

variable (isOpen : Bool)

@[simp]
lemma openAfter_nil : m.openAfter isOpen [] = isOpen := rfl

@[simp]
lemma openAfter_cons (es : List ε) :
    m.openAfter isOpen (e :: es) = m.openAfter (m.next isOpen e) es := rfl

@[simp]
lemma openAfter_append (es es' : List ε) :
    m.openAfter isOpen (es ++ es') = m.openAfter (m.openAfter isOpen es) es' :=
  List.foldl_append

@[simp]
lemma respects_nil : m.Respects isOpen [] := trivial

@[simp]
lemma respects_cons (es : List ε) :
    m.Respects isOpen (e :: es) ↔
      (isOpen = true → m.forbidden e = false) ∧ m.Respects (m.next isOpen e) es := Iff.rfl

@[simp]
theorem respects_append (es es' : List ε) :
    m.Respects isOpen (es ++ es') ↔
      m.Respects isOpen es ∧ m.Respects (m.openAfter isOpen es) es' := by
  induction es generalizing isOpen with
  | nil => simp
  | cons e es ih => simp [ih, and_assoc]

/-- A stretch stays open as long as nothing closes it. -/
lemma openAfter_eq_true {es : List ε} (h : ∀ e ∈ es, m.closing e = false) :
    m.openAfter true es = true := by
  induction es with
  | nil => rfl
  | cons e es ih =>
    have hnext : m.next true e = true := by
      simp [next, h e List.mem_cons_self]
    rw [openAfter_cons, hnext]
    exact ih fun e' he' => h e' (List.mem_cons_of_mem _ he')

/-- Between an opening effect and a later forbidden one stands a closing one. -/
theorem exists_closing {isOpen : Bool} {before between after : List ε} {e e' : ε}
    (h : m.Respects isOpen (before ++ e :: (between ++ e' :: after)))
    (hopen : m.opening e = true) (hforbidden : m.forbidden e' = true) :
    ∃ c ∈ between, m.closing c = true := by
  by_contra hnone
  have hclosing : ∀ c ∈ between, m.closing c = false := by
    simpa using hnone
  have hnext : m.next (m.openAfter isOpen before) e = true := by
    simp [next, hopen]
  have hstill : m.openAfter true between = true := m.openAfter_eq_true hclosing
  have hallowed : m.forbidden e' = false := by
    simp only [respects_append, respects_cons, hnext, hstill] at h
    exact h.2.2.2.1 trivial
  rw [hallowed] at hforbidden
  exact Bool.noConfusion hforbidden

end Monitor

end DataStream
