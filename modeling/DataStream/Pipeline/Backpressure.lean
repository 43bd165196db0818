import DataStream.Foundations.Machine
import Mathlib.Data.List.Induction

/-!
# Backpressure

`BackpressureController` pauses the pipeline when its queue is too full or its latency too high.
Whoever finds the controller paused waits in `WaitWhilePaused` for a token in `resumeCh`, which has
room for one. A token that nobody takes is still there when the controller pauses again.

* `hysteresis`: what pauses and what resumes the controller, and that its callbacks alternate;
* `waits_iff`: when a `WaitWhilePaused` that returns nil has seen the controller not paused.
-/

namespace DataStream.Backpressure

open List Function

/-- `BackpressureState`. -/
inductive State where
  | normal
  | warning
  | paused
  deriving DecidableEq

/-- `BackpressureConfig`, without the interval of the checks. -/
structure Config where
  enableBackpressure : Bool
  highWatermark : ℤ
  lowWatermark : ℤ
  maxLatency : ℤ

/-- `BackpressureController`, without its channels. -/
structure Controller where
  queueSize : ℤ
  maxQueueSize : ℤ
  latency : ℤ
  state : State

/-- `notifyPause` and `notifyResume`: a callback, and a token for the channel of that name. -/
inductive Notification where
  | pause
  | resume
  deriving DecidableEq

inductive Op where
  | updateMetrics (queueSize maxQueueSize latency : ℤ)
  | check

-- The percentage of two sizes is computed in floating-point numbers.
variable (cfg : Config) (percent : ℤ → ℤ → ℤ)

namespace Controller

/-- `NewBackpressureController`. -/
def new : Controller := { queueSize := 0, maxQueueSize := 0, latency := 0, state := .normal }

variable (b : Controller)

def usagePercent : ℤ := if 0 < b.maxQueueSize then percent b.queueSize b.maxQueueSize else 0

abbrev Overloaded : Prop := cfg.highWatermark ≤ b.usagePercent percent ∨ cfg.maxLatency < b.latency

abbrev Relieved : Prop := b.usagePercent percent ≤ cfg.lowWatermark ∧ b.latency ≤ cfg.maxLatency

def check : Controller × List Notification :=
  if !cfg.enableBackpressure then (b, [])
  else if b.state ≠ .paused then
    if b.Overloaded cfg percent then ({ b with state := .paused }, [.pause])
    else if cfg.lowWatermark ≤ b.usagePercent percent then ({ b with state := .warning }, [])
    else (b, [])
  else if b.Relieved cfg percent then ({ b with state := .normal }, [.resume])
  else (b, [])

def unpaused : Bool := b.state ≠ .paused

end Controller

/-- The controller; the effects are its notifications. -/
def machine : Machine Controller Op Notification where
  step b
    | .updateMetrics queueSize maxQueueSize latency =>
      ({ b with queueSize, maxQueueSize, latency }, [])
    | .check => b.check cfg percent

/-- What a call does: it pauses the controller, resumes it, or does neither. -/
inductive Stepped (b : Controller) (op : Op) : Controller × List Notification → Prop
  | pauses (hcheck : op = .check) (hstate : b.state ≠ .paused) (h : b.Overloaded cfg percent) :
      Stepped b op ({ b with state := .paused }, [.pause])
  | resumes (hcheck : op = .check) (hstate : b.state = .paused) (h : b.Relieved cfg percent) :
      Stepped b op ({ b with state := .normal }, [.resume])
  | stays (b' : Controller) (hstate : b'.state = .paused ↔ b.state = .paused) :
      Stepped b op (b', [])

lemma stepped_step (b : Controller) (op : Op) :
    Stepped cfg percent b op ((machine cfg percent).step b op) := by
  cases op with
  | updateMetrics => exact .stays _ .rfl
  | check =>
    simp only [machine, Controller.check]
    split_ifs with _ hstate hover _ hrelieved
    · exact .stays _ .rfl
    · exact .pauses rfl hstate hover
    · exact .stays _ (by simp [hstate])
    · exact .stays _ .rfl
    · exact .resumes rfl (not_not.mp hstate) hrelieved
    · exact .stays _ .rfl

/-- Notifications that alternate, beginning with a pause. -/
def alternating (n : ℕ) : List Notification :=
  (range n).map fun i => if i % 2 = 0 then .pause else .resume

/-- The notifications so far alternate, and their number tells whether the controller is paused. -/
structure Alternates (b : Controller) (sent : List Notification) : Prop where
  eq : sent = alternating sent.length
  paused : b.state = .paused ↔ sent.length % 2 = 1

variable {sent : List Notification}

lemma alternating_concat (h : sent = alternating sent.length) {n : Notification}
    (hn : n = if sent.length % 2 = 0 then .pause else .resume) :
    sent ++ [n] = alternating (sent ++ [n]).length := by
  rw [length_append, length_singleton, alternating, range_succ, map_append, map_singleton, ← hn]
  exact congrArg (· ++ [n]) h

lemma alternates_run (ops : List Op) :
    Alternates ((machine cfg percent).run .new ops).1 ((machine cfg percent).run .new ops).2 := by
  refine (machine cfg percent).run_induction (motive := Alternates) ops
    ⟨rfl, by simp [Controller.new]⟩ fun b sent op h => ?_
  obtain ⟨heq, hpaused⟩ := h
  have hstep := stepped_step cfg percent b op
  generalize (machine cfg percent).step b op = r at hstep
  cases hstep with
  | pauses _ hstate =>
    have heven := Nat.mod_two_ne_one.mp (hpaused.not.mp hstate)
    refine ⟨alternating_concat heq (by rw [if_pos heven]), ?_⟩
    simp only [length_append, length_singleton, true_iff]
    omega
  | resumes _ hstate =>
    have hodd := hpaused.mp hstate
    refine ⟨alternating_concat heq (by rw [if_neg (by omega)]), ?_⟩
    simp only [length_append, length_singleton, reduceCtorEq, false_iff]
    omega
  | stays b' hstate =>
    rw [append_nil]
    exact ⟨heq, hstate.trans hpaused⟩

lemma Alternates.two_le {b : Controller} (h : Alternates b sent) (hmem : .resume ∈ sent) :
    2 ≤ sent.length := by
  rw [h.eq, alternating, mem_map] at hmem
  obtain ⟨i, hi, hresume⟩ := hmem
  have hodd : ¬i % 2 = 0 := fun heven => by simp [heven] at hresume
  have := mem_range.mp hi
  omega

/-- **Hysteresis.** After any calls, the next one pauses the controller only if it is a check that
finds too much usage or latency, and resumes it only if it finds little usage and latency within the
limit; and the callbacks have alternated, beginning with a pause. -/
theorem hysteresis (ops : List Op) (op : Op) :
    let r := (machine cfg percent).run .new ops
    let next := (machine cfg percent).step r.1 op
    (r.1.state ≠ .paused → next.1.state = .paused → op = .check ∧ r.1.Overloaded cfg percent) ∧
    (r.1.state = .paused → next.1.state ≠ .paused → op = .check ∧ r.1.Relieved cfg percent) ∧
    r.2 = alternating r.2.length := by
  intro r next
  have hstep : Stepped cfg percent r.1 op next := stepped_step cfg percent r.1 op
  clear_value next
  refine ⟨fun hrunning hpaused => ?_, fun hpaused hrunning => ?_,
    (alternates_run cfg percent ops).eq⟩
  · cases hstep with
    | pauses hcheck _ h => exact ⟨hcheck, h⟩
    | resumes _ hstate => exact absurd hstate hrunning
    | stays b hstate => exact absurd (hstate.mp hpaused) hrunning
  · cases hstep with
    | pauses _ hstate => exact absurd hpaused hstate
    | resumes hcheck _ h => exact ⟨hcheck, h⟩
    | stays b hstate => exact absurd (hstate.mpr hpaused) hrunning

/-! ## Waiting -/

/-- Where a caller of `WaitWhilePaused` is. -/
inductive Phase where
  | idle
  /-- About to call `ShouldPause`. -/
  | looking
  | selecting

structure Caller where
  phase : Phase
  /-- The controller was not paused at some moment of the call. -/
  unpaused : Bool

/-- The cases of the `select`: the token, the interval of the checks, the context. -/
inductive Case where
  | resumeCh
  | after
  | done

structure System where
  controller : Controller
  /-- There is a token in the channel. -/
  resumeCh : Bool
  callers : ℕ → Caller

/-- What runs next: a call that changes the controller, or a caller. -/
abbrev Move := Op ⊕ ℕ × Case

/-- The next step of a caller: the token and the caller after it, and for a call that returns nil
whether the controller was not paused at some moment of it. -/
def Caller.next (c : Caller) (b : Controller) (token : Bool) (case : Case) :
    Bool × Caller × List Bool :=
  match c.phase, case with
  | .idle, _ => (token, ⟨.looking, b.unpaused⟩, [])
  | .looking, _ =>
    if b.unpaused then (token, { c with phase := .idle }, [c.unpaused])
    else (token, { c with phase := .selecting }, [])
  | .selecting, .resumeCh =>
    if token then (false, { c with phase := .idle }, [c.unpaused]) else (token, c, [])
  | .selecting, .after => (token, { c with phase := .looking }, [])
  | .selecting, .done => (token, { c with phase := .idle }, [])

/-- The system; the effects are what the calls that return nil say. -/
def system : Machine System Move Bool where
  step s
    | .inl op =>
      let (b, sent) := (machine cfg percent).step s.controller op
      ({ controller := b
         resumeCh := s.resumeCh || decide (.resume ∈ sent)
         callers := fun i =>
          { s.callers i with unpaused := (s.callers i).unpaused || b.unpaused } }, [])
    | .inr (i, case) =>
      let (token, caller, returned) := (s.callers i).next s.controller s.resumeCh case
      ({ s with resumeCh := token, callers := update s.callers i caller }, returned)

def System.start : System where
  controller := .new
  resumeCh := false
  callers _ := { phase := .idle, unpaused := true }

/-- The calls that change the controller, among all that runs. -/
def control (moves : List Move) : List Op := moves.filterMap Sum.getLeft?

/-- A step of a caller puts no token into the channel; a call that returns nil while paused has
taken one. -/
lemma Caller.next_spec {c : Caller} {b : Controller} (h : b.unpaused = true → c.unpaused = true)
    (token : Bool) (case : Case) :
    ((c.next b token case).1 = true → token = true) ∧
      (b.unpaused = true → (c.next b token case).2.1.unpaused = true) ∧
      ((token = true → b.unpaused = true) → ∀ u ∈ (c.next b token case).2.2, u = true) := by
  unfold Caller.next
  split
  · exact ⟨id, id, by simp⟩
  · split_ifs with hrunning
    · exact ⟨id, h, by simp [h hrunning]⟩
    · exact ⟨id, h, by simp⟩
  · split_ifs with htoken
    · exact ⟨by simp, h, fun hrunning => by simp [h (hrunning htoken)]⟩
    · exact ⟨id, h, by simp⟩
  · exact ⟨id, h, by simp⟩
  · exact ⟨id, h, by simp⟩

/-- The controller among its callers is the controller alone. If that has paused at most once, the
calls that returned nil saw it not paused. -/
structure Follows (s : System) (returned : List Bool) (alone : Controller × List Notification) :
    Prop where
  controller : s.controller = alone.1
  token : s.resumeCh = true → .resume ∈ alone.2
  callers : ∀ i, s.controller.unpaused = true → (s.callers i).unpaused = true
  returned : alone.2.length ≤ 2 → ∀ u ∈ returned, u = true

lemma follows_run (moves : List Move) :
    Follows ((system cfg percent).run .start moves).1 ((system cfg percent).run .start moves).2
      ((machine cfg percent).run .new (control moves)) := by
  induction moves using List.reverseRecOn with
  | nil => exact ⟨rfl, by simp [System.start], fun _ _ => rfl, by simp⟩
  | append_singleton moves move ih =>
    have halone := alternates_run cfg percent (control moves)
    rw [Machine.run_concat]
    generalize (system cfg percent).run .start moves = r at ih ⊢
    rcases move with op | ⟨i, case⟩
    · rw [show control (moves ++ [.inl op]) = control moves ++ [op] by simp [control],
        Machine.run_concat, ← ih.controller]
      refine ⟨rfl, fun htoken => ?_, fun i hi => Bool.or_eq_true_iff.mpr (.inr hi), fun hle => ?_⟩
      · rcases Bool.or_eq_true_iff.mp htoken with htoken | hresume
        · exact mem_append_left _ (ih.token htoken)
        · exact mem_append_right _ (of_decide_eq_true hresume)
      · rw [length_append] at hle
        show ∀ u ∈ r.2 ++ [], u = true
        rw [append_nil]
        exact ih.returned (by omega)
    · rw [show control (moves ++ [.inr (i, case)]) = control moves by simp [control]]
      obtain ⟨htoken, hunpaused, hreturned⟩ := Caller.next_spec (ih.callers i) r.1.resumeCh case
      refine ⟨ih.controller, ih.token ∘ htoken, fun j hj => ?_, fun hle u hu => ?_⟩
      · show (update r.1.callers i _ j).unpaused = true
        by_cases hji : j = i
        · rw [hji, update_self]
          exact hunpaused hj
        · rw [update_of_ne hji]
          exact ih.callers j hj
      · rcases mem_append.mp hu with hu | hu
        · exact ih.returned hle u hu
        · -- The token is that of the only resume, and the controller has not paused since.
          refine hreturned (fun htoken => ?_) u hu
          have htwo := halone.two_le (ih.token htoken)
          rw [ih.controller, Controller.unpaused, decide_eq_true_iff, ne_eq, halone.paused]
          omega

lemma run_control (ops : List Op) :
    (system cfg percent).run .start (ops.map .inl) =
      (⟨((machine cfg percent).run .new ops).1,
        decide (.resume ∈ ((machine cfg percent).run .new ops).2),
        fun _ => ⟨.idle, true⟩⟩, []) := by
  induction ops using List.reverseRecOn with
  | nil => rfl
  | append_singleton ops op ih =>
    rw [map_append, map_singleton, Machine.run_concat, Machine.run_concat, ih]
    simp [system]

/-- When the controller has paused twice, a call can take the token of the resume between. -/
lemma exists_stale {ops : List Op} (h : 2 < ((machine cfg percent).run .new ops).2.length) :
    ∃ moves, control moves = ops ∧ false ∈ ((system cfg percent).run .start moves).2 := by
  induction ops using List.reverseRecOn with
  | nil => cases h
  | append_singleton ops op ih =>
    by_cases hbefore : 2 < ((machine cfg percent).run .new ops).2.length
    · obtain ⟨moves, rfl, hstale⟩ := ih hbefore
      refine ⟨moves ++ [.inl op], by simp [control], ?_⟩
      rw [Machine.run_append]
      exact mem_append_left _ hstale
    · -- This is the second pause. A call begins, finds it and takes the token.
      have halone := alternates_run cfg percent (ops ++ [op])
      have hthree : ((machine cfg percent).run .new (ops ++ [op])).2.length = 3 := by
        have hstep := stepped_step cfg percent ((machine cfg percent).run .new ops).1 op
        rw [Machine.run_concat, length_append] at h ⊢
        generalize (machine cfg percent).step _ op = next at hstep h ⊢
        cases hstep <;> simp only [length_singleton, length_nil] at h ⊢ <;> omega
      have hpaused := halone.paused.mpr (by rw [hthree])
      have hresume : .resume ∈ ((machine cfg percent).run .new (ops ++ [op])).2 := by
        rw [halone.eq, hthree]
        decide
      refine ⟨(ops ++ [op]).map .inl ++ replicate 3 (.inr (0, .resumeCh)), ?_, ?_⟩
      · simp [control, comp_def, replicate]
      · rw [Machine.run_append, run_control]
        simp [Machine.run, system, Caller.next, Controller.unpaused, hpaused, hresume]

/-- **Waiting out backpressure.** For all calls that change the controller: in every interleaving of
them with any number of callers, a `WaitWhilePaused` returns nil only if the controller was not
paused at some moment of it, exactly if the controller pauses at most once. -/
theorem waits_iff (ops : List Op) :
    (∀ moves, control moves = ops → ∀ u ∈ ((system cfg percent).run .start moves).2, u = true) ↔
      ((machine cfg percent).run .new ops).2.length ≤ 2 := by
  refine ⟨fun h => ?_, fun hle moves hmoves => ?_⟩
  · by_contra hlt
    obtain ⟨moves, hmoves, hstale⟩ := exists_stale cfg percent (not_le.mp hlt)
    exact Bool.false_ne_true (h moves hmoves false hstale)
  · subst hmoves
    exact (follows_run cfg percent moves).returned hle

def filling : List Op :=
  [.updateMetrics 9 10 0, .check, .updateMetrics 0 10 0, .check, .updateMetrics 9 10 0, .check]

/-- A call that begins after the second pause returns nil while the controller stays paused. -/
theorem filling_stale :
    false ∈ ((system ⟨true, 80, 50, 5000000000⟩ fun size max => size * 100 / max).run .start
      (filling.map .inl ++ replicate 3 (.inr (0, .resumeCh)))).2 := by
  decide

end DataStream.Backpressure
