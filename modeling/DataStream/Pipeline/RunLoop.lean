import DataStream.Foundations.Machine

/-!
# The run loop of a pipeline

`pipeline.Pipeline`: the calls `Start`, `Stop`, `Pause` and `Resume`, each cut where it releases the
lock, and the goroutine `run` that a `Start` launches. Calls and loops interleave in any order.
`Start` and `Stop` leave the lock in the middle; `Pause` and `Resume` are one step. The source is
set, and what is done with an event is left out: it does not touch the state.

`Start` refuses only a pipeline that is running. Called while another `Start` is on its way or on a
paused pipeline it launches a second loop, and after a `Stop` a loop that returns at once, because
the stop channel is closed for good.

* `oneLoop_run`: at most one loop is live if the pipeline is started once.
-/

namespace DataStream

open List Option

namespace Pipeline

/-! ## The program -/

inductive State where
  | created
  | starting
  | running
  | pausing
  | paused
  | resuming
  | stopping
  | stopped
  | error
  deriving DecidableEq, Repr

/-- A channel that is only ever closed. -/
inductive Signal where
  | unmade
  | pending
  | closed
  deriving DecidableEq, Repr

/-- A live `run` goroutine: its context, and the resume channel that it waits on with an event. -/
structure RunLoop where
  ctx : ℕ
  waitsFor : Option ℕ
  deriving DecidableEq, Repr

/-- A `Start` or `Stop` call on its way, by what it does next. -/
inductive Call where
  | startSource (ctx : ℕ)
  /-- `Start` has started the source and the sinks and is about to enter `StateRunning`. -/
  | enter (ctx : ℕ)
  /-- `Start` is about to launch the loop. -/
  | launch (ctx : ℕ)
  /-- `Start` is about to call `updateState`. -/
  | reportRunning (ctx : ℕ)
  | closeStopCh
  | awaitLoops
  /-- `Stop` has stopped the source and the sinks and is about to enter `StateStopped`. -/
  | markStopped
  /-- `Stop` is about to call `updateState`. -/
  | reportStopped
  deriving DecidableEq, Repr

/-- What a call returns. -/
inductive Reply where
  | ok
  | errAlreadyRunning
  | errInvalidState
  | errSource
  deriving DecidableEq, Repr

end Pipeline

open Pipeline in
/-- A pipeline with its goroutines and what they look at. -/
structure Pipeline where
  state : State
  stopClosed : Bool
  pauseCh : Signal
  /-- The number of the current resume channel; each is made with a number of its own. -/
  resumeCh : ℕ
  /-- The resume channels that are closed. -/
  resumed : List ℕ
  loops : List RunLoop
  calls : List Call
  /-- The contexts of the `Start` calls that returned nil. -/
  started : List ℕ
  cancelled : List ℕ
  /-- The event channel of the source is closed and drained. -/
  sourceClosed : Bool
  /-- A goroutine panicked, which ends the process. -/
  crashed : Bool
  deriving DecidableEq, Repr

namespace Pipeline

def new : Pipeline where
  state := .created
  stopClosed := false
  pauseCh := .unmade
  resumeCh := 0
  resumed := []
  loops := []
  calls := []
  started := []
  cancelled := []
  sourceClosed := false
  crashed := false

/-- Which case of its `select` a loop takes. -/
inductive Choice where
  | ctxDone
  | stop
  | event
  | sourceError
  | resume
  deriving DecidableEq, Repr

/-- One step of a call, of a loop or of the outside. -/
inductive Move where
  | start (ctx : ℕ)
  | stop
  | pause
  | resume
  /-- The `i`th call on its way goes on; `ok` is the answer of the source. -/
  | advance (i : ℕ) (ok : Bool)
  /-- The `j`th loop takes a case of its `select`. -/
  | loop (j : ℕ) (choice : Choice)
  | cancel (ctx : ℕ)
  | closeSource
  deriving DecidableEq, Repr

variable (p : Pipeline)

/-- The first part of `Start`. -/
def start (ctx : ℕ) : Pipeline × List Reply :=
  if p.state = .running then (p, [.errAlreadyRunning])
  else ({ p with state := .starting, calls := p.calls ++ [.startSource ctx] }, [])

/-- The first part of `Stop`. -/
def stop : Pipeline × List Reply :=
  if p.state = .stopped then (p, [.ok])
  else ({ p with state := .stopping, calls := p.calls ++ [.closeStopCh] }, [])

/-- `Pause`. Closing a channel that is closed or was never made panics. -/
def pause : Pipeline × List Reply :=
  if p.state ≠ .running then (p, [.errInvalidState])
  else if p.pauseCh = .pending then
    ({ p with state := .paused, pauseCh := .closed }, [.ok])
  else ({ p with crashed := true, loops := [] }, [])

/-- `Resume`. The resume channel is closed here only and then made anew. -/
def resume : Pipeline × List Reply :=
  if p.state ≠ .paused then (p, [.errInvalidState])
  else
    ({ p with
        state := .running
        resumed := p.resumeCh :: p.resumed
        pauseCh := .pending
        resumeCh := p.resumeCh + 1 }, [.ok])

def advance (i : ℕ) (ok : Bool) : Pipeline × List Reply :=
  match p.calls[i]? with
  | none => (p, [])
  | some (.startSource ctx) =>
    if ok then ({ p with calls := p.calls.set i (.enter ctx) }, [])
    else ({ p with state := .error, calls := p.calls.eraseIdx i }, [.errSource])
  | some (.enter ctx) =>
    -- Both channels are made anew, whatever waits on the old ones.
    ({ p with
        state := .running
        pauseCh := .pending
        resumeCh := p.resumeCh + 1
        calls := p.calls.set i (.launch ctx) }, [])
  | some (.launch ctx) =>
    ({ p with
        loops := p.loops ++ [{ ctx, waitsFor := none }]
        calls := p.calls.set i (.reportRunning ctx) }, [])
  | some (.reportRunning ctx) =>
    ({ p with
        state := .running
        started := ctx :: p.started
        calls := p.calls.eraseIdx i }, [.ok])
  | some .closeStopCh => ({ p with stopClosed := true, calls := p.calls.set i .awaitLoops }, [])
  | some .awaitLoops =>
    if p.loops = [] then ({ p with calls := p.calls.set i .markStopped }, []) else (p, [])
  | some .markStopped => ({ p with state := .stopped, calls := p.calls.set i .reportStopped }, [])
  | some .reportStopped => ({ p with state := .stopped, calls := p.calls.eraseIdx i }, [.ok])

/-- The loop after it has taken a case of its `select`, if that is ready; `none` if it returns. -/
def select (l : RunLoop) : Choice → Option RunLoop
  | .ctxDone => if l.ctx ∈ p.cancelled then none else some l
  | .stop => if p.stopClosed then none else some l
  | .event =>
    match l.waitsFor with
    | none =>
      if p.sourceClosed then none
      -- An event that comes while the pipeline is paused is held back.
      else if p.state = .paused then some { l with waitsFor := some p.resumeCh }
      else some l
    | some _ => some l
  | .sourceError => some l
  | .resume =>
    match l.waitsFor with
    | some ch => if ch ∈ p.resumed then some { l with waitsFor := none } else some l
    | none => some l

/-- A loop takes a case of its `select`. -/
def loop (j : ℕ) (choice : Choice) : Pipeline :=
  match p.loops[j]? with
  | none => p
  | some l =>
    match p.select l choice with
    | some l' => { p with loops := p.loops.set j l' }
    | none => { p with loops := p.loops.eraseIdx j }

/-- The pipeline with its calls and loops; a crashed process does nothing. -/
def machine : Machine Pipeline Move Reply where
  step p move :=
    if p.crashed then (p, [])
    else match move with
      | .start ctx => p.start ctx
      | .stop => p.stop
      | .pause => p.pause
      | .resume => p.resume
      | .advance i ok => p.advance i ok
      | .loop j choice => (p.loop j choice, [])
      | .cancel ctx => ({ p with cancelled := ctx :: p.cancelled }, [])
      | .closeSource => ({ p with sourceClosed := true }, [])

/-! ## How many loops are live -/

/-- The pipeline is running or paused after a `Start` that returned nil, with a source and a context
that are not done. -/
def Up : Prop :=
  p.crashed = false ∧ (p.state = .running ∨ p.state = .paused) ∧ p.started ≠ [] ∧
    p.sourceClosed = false ∧ ∀ ctx ∈ p.started, ctx ∉ p.cancelled
  deriving Decidable

/-- At most one loop is live, and one is while the pipeline is up. -/
def OneLoop : Prop := p.loops.length ≤ 1 ∧ (p.Up → p.loops.length = 1)

/-- The call is a `Stop`. -/
def Call.IsStop : Call → Prop
  | .closeStopCh | .awaitLoops | .markStopped | .reportStopped => True
  | .startSource _ | .enter _ | .launch _ | .reportRunning _ => False

instance : DecidablePred Call.IsStop
  | .closeStopCh | .awaitLoops | .markStopped | .reportStopped => isTrue trivial
  | .startSource _ | .enter _ | .launch _ | .reportRunning _ => isFalse id

/-- The pipeline is started once: `Start` is called only before or after a failed `Start`, or where
it is refused, and `Stop` is not called while a `Start` is on its way. -/
def StartedOnce : Move → Prop
  | .start _ => p.state = .created ∨ p.state = .error ∨ p.state = .running
  | .stop => ∀ c ∈ p.calls, c.IsStop
  | _ => True

instance : DecidablePred p.StartedOnce
  | .start _ => inferInstanceAs (Decidable (_ ∨ _ ∨ _))
  | .stop => inferInstanceAs (Decidable (∀ c ∈ p.calls, c.IsStop))
  | .pause | .resume | .advance _ _ | .loop _ _ | .cancel _ | .closeSource => isTrue trivial

/-! ## The stages of a pipeline that is started once -/

variable {p}

/-- The loop of a `Start` is live unless it had a reason to return. -/
structure Attended (p : Pipeline) (ctx : ℕ) : Prop where
  stopClosed : p.stopClosed = false
  ctx_eq : ∀ l ∈ p.loops, l.ctx = ctx
  length_le : p.loops.length ≤ 1
  live : p.loops = [] → ctx ∈ p.cancelled ∨ p.sourceClosed = true

/-- How far a pipeline is that is started once. -/
inductive Stage (p : Pipeline) : Prop where
  | idle (calls : p.calls = []) (loops : p.loops = [])
      (state : p.state = .created ∨ p.state = .error) (stopClosed : p.stopClosed = false)
      (started : p.started = [])
  | starting (ctx : ℕ) (calls : p.calls = [.startSource ctx] ∨ p.calls = [.enter ctx])
      (loops : p.loops = []) (state : p.state = .starting) (stopClosed : p.stopClosed = false)
      (started : p.started = [])
  | launching (ctx : ℕ) (calls : p.calls = [.launch ctx]) (loops : p.loops = [])
      (state : p.state = .running ∨ p.state = .paused) (stopClosed : p.stopClosed = false)
      (started : p.started = [])
  | up (ctx : ℕ)
      (calls : p.calls = [.reportRunning ctx] ∧ p.started = [] ∨ p.calls = [] ∧ p.started = [ctx])
      (state : p.state = .running ∨ p.state = .paused) (attended : p.Attended ctx)
  | down (calls : ∀ c ∈ p.calls, c.IsStop) (state : p.state = .stopping ∨ p.state = .stopped)
      (length_le : p.loops.length ≤ 1)
  | crashed (crashed : p.crashed = true) (loops : p.loops = [])

lemma select_spec (l : RunLoop) (choice : Choice) :
    match p.select l choice with
    | some l' => l'.ctx = l.ctx
    | none => l.ctx ∈ p.cancelled ∨ p.stopClosed = true ∨ p.sourceClosed = true := by
  cases choice with
  | sourceError => rfl
  | ctxDone | stop =>
    rw [select]
    split_ifs with h <;> simp [h]
  | event =>
    rw [select]
    cases l.waitsFor with
    | none => split_ifs with hsource <;> simp [hsource]
    | some ch => rfl
  | resume =>
    rw [select]
    cases l.waitsFor with
    | none => rfl
    | some ch =>
      dsimp only
      split_ifs <;> rfl

lemma loop_cases (p : Pipeline) (j : ℕ) (choice : Choice) :
    p.loop j choice = p ∨
      (∃ l l', l ∈ p.loops ∧ l'.ctx = l.ctx ∧
        p.loop j choice = { p with loops := p.loops.set j l' }) ∨
      ∃ l ∈ p.loops, (l.ctx ∈ p.cancelled ∨ p.stopClosed = true ∨ p.sourceClosed = true) ∧
        p.loop j choice = { p with loops := p.loops.eraseIdx j } := by
  unfold loop
  split
  · exact Or.inl rfl
  · next l hl =>
    have hmem : l ∈ p.loops := mem_of_getElem? hl
    have hspec := p.select_spec l choice
    split
    · next l' hl' =>
      rw [hl'] at hspec
      exact .inr (.inl ⟨l, l', hmem, hspec, rfl⟩)
    · next hnone =>
      rw [hnone] at hspec
      exact .inr (.inr ⟨l, hmem, hspec, rfl⟩)

lemma loop_of_nil (h : p.loops = []) (j : ℕ) (choice : Choice) : p.loop j choice = p := by
  rw [loop, h]
  rfl

lemma length_loop_le (p : Pipeline) (j : ℕ) (choice : Choice) :
    (p.loop j choice).loops.length ≤ p.loops.length := by
  rcases loop_cases p j choice with h | ⟨l, l', -, -, h⟩ | ⟨l, -, -, h⟩
  · rw [h]
  · rw [h, length_set]
  · rw [h]
    exact length_eraseIdx_le _ _

lemma Attended.loop {ctx : ℕ} (h : p.Attended ctx) (j : ℕ) (choice : Choice) :
    (p.loop j choice).Attended ctx := by
  have hlength := (length_loop_le p j choice).trans h.length_le
  rcases loop_cases p j choice with heq | ⟨l, l', hl, hctx, heq⟩ | ⟨l, hl, hreason, heq⟩
  · rw [heq]
    exact h
  · rw [heq] at hlength ⊢
    refine ⟨h.stopClosed, ?_, hlength, ?_⟩
    · intro l₁ hl₁
      rcases mem_or_eq_of_mem_set hl₁ with hl₁ | rfl
      · exact h.ctx_eq l₁ hl₁
      · exact hctx.trans (h.ctx_eq l hl)
    · intro hnil
      rw [← length_eq_zero_iff, length_set, length_eq_zero_iff] at hnil
      exact absurd hnil (ne_nil_of_mem hl)
  · rw [heq] at hlength ⊢
    refine ⟨h.stopClosed, fun l₁ hl₁ => h.ctx_eq l₁ (mem_of_mem_eraseIdx hl₁), hlength, ?_⟩
    intro _
    rw [h.ctx_eq l hl, h.stopClosed] at hreason
    simpa using hreason

lemma Attended.withState {ctx : ℕ} (h : p.Attended ctx) {q : Pipeline}
    (hstop : q.stopClosed = p.stopClosed) (hloops : q.loops = p.loops)
    (hcancelled : p.cancelled ⊆ q.cancelled)
    (hsource : p.sourceClosed = true → q.sourceClosed = true) :
    q.Attended ctx where
  stopClosed := hstop.trans h.stopClosed
  ctx_eq := by
    rw [hloops]
    exact h.ctx_eq
  length_le := by
    rw [hloops]
    exact h.length_le
  live hnil := by
    rw [hloops] at hnil
    exact (h.live hnil).imp (fun hctx => hcancelled hctx) hsource

lemma eq_zero_of_calls {i : ℕ} {c c' : Call} (hcall : p.calls[i]? = some c')
    (hcalls : p.calls = [c]) : i = 0 := by
  have hlength : i < p.calls.length := (List.getElem?_eq_some_iff.mp hcall).1
  simpa [hcalls] using hlength

namespace Stage

section

variable (h : Stage p)
include h

lemma start {ctx : ℕ} (hcrashed : p.crashed = false) (hstart : p.StartedOnce (.start ctx)) :
    Stage (p.start ctx).1 := by
  unfold Pipeline.start
  split_ifs with hrunning
  · exact h
  · -- The state is that of an idle pipeline.
    have hidle : p.state = .created ∨ p.state = .error := by
      rcases hstart with hstate | hstate | hstate
      · exact Or.inl hstate
      · exact Or.inr hstate
      · exact absurd hstate hrunning
    cases h with
    | idle calls loops state stopClosed started =>
      refine .starting ctx (Or.inl ?_) loops rfl stopClosed started
      rw [calls]
      rfl
    | starting ctx' calls loops state => simp [state] at hidle
    | launching _ _ _ state | up _ _ state | down _ state =>
      rcases state with state | state <;> simp [state] at hidle
    | crashed crashed => simp [crashed] at hcrashed

lemma length_loops_le : p.loops.length ≤ 1 := by
  cases h with
  | idle _ loops | starting _ _ loops | launching _ _ loops | crashed _ loops => simp [loops]
  | up ctx calls state attended => exact attended.length_le
  | down calls state length_le => exact length_le

lemma stop (hstop : p.StartedOnce .stop) : Stage p.stop.1 := by
  unfold Pipeline.stop
  split_ifs with hstopped
  · exact h
  · refine .down ?_ (Or.inl rfl) h.length_loops_le
    intro c hc
    rcases mem_append.mp hc with hc | hc
    · exact hstop c hc
    · rw [mem_singleton.mp hc]
      trivial

lemma switch {state : State} {pauseCh : Signal} {resumeCh : ℕ} {resumed : List ℕ}
    (hold : p.state = .running ∨ p.state = .paused) (hnew : state = .running ∨ state = .paused) :
    Stage { p with state, pauseCh, resumeCh, resumed } := by
  cases h with
  | idle _ _ state | starting _ _ _ state | down _ state =>
    rcases hold with hold | hold <;> simp [hold] at state
  | launching ctx calls loops state stopClosed started =>
    exact .launching ctx calls loops hnew stopClosed started
  | up ctx calls state attended =>
    exact .up ctx calls hnew (attended.withState rfl rfl (fun _ h => h) id)
  | crashed crashed loops => exact .crashed crashed loops

lemma pause : Stage p.pause.1 := by
  unfold Pipeline.pause
  split_ifs with hstate hpending
  · exact h
  · exact h.switch (.inl (not_ne_iff.mp hstate)) (.inr rfl)
  · exact .crashed rfl rfl

lemma resume : Stage p.resume.1 := by
  unfold Pipeline.resume
  split_ifs with hstate
  · exact h
  · exact h.switch (.inr (not_ne_iff.mp hstate)) (.inl rfl)

lemma loop (j : ℕ) (choice : Choice) : Stage (p.loop j choice) := by
  by_cases hloops : p.loops = []
  · rw [loop_of_nil hloops]
    exact h
  have hlength := (length_loop_le p j choice).trans h.length_loops_le
  cases h with
  | idle _ loops | starting _ _ loops | launching _ _ loops | crashed _ loops =>
    exact absurd loops hloops
  | up ctx calls state attended =>
    have hattended := attended.loop j choice
    rcases loop_cases p j choice with heq | ⟨l, l', -, -, heq⟩ | ⟨l, -, -, heq⟩ <;>
      rw [heq] at hattended ⊢ <;>
      exact .up ctx calls state hattended
  | down calls state =>
    rcases loop_cases p j choice with heq | ⟨l, l', -, -, heq⟩ | ⟨l, -, -, heq⟩ <;>
      rw [heq] at hlength ⊢ <;>
      exact .down calls state hlength

/-- The single call on its way does its next part; a `Start` leads from stage to stage. -/
lemma advance (hcrashed : p.crashed = false) (i : ℕ) (ok : Bool) : Stage (p.advance i ok).1 := by
  cases hcall : p.calls[i]? with
  | none =>
    rw [Pipeline.advance, hcall]
    exact h
  | some c =>
    have hmem : c ∈ p.calls := mem_of_getElem? hcall
    cases h with
    | idle calls => simp [calls] at hmem
    | starting ctx calls loops state stopClosed started =>
      rcases calls with calls | calls
      · obtain rfl := eq_zero_of_calls hcall calls
        rw [Pipeline.advance, calls, getElem?_cons_zero]
        cases ok with
        | false => exact .idle rfl loops (Or.inr rfl) stopClosed started
        | true => exact .starting ctx (Or.inr rfl) loops state stopClosed started
      · obtain rfl := eq_zero_of_calls hcall calls
        rw [Pipeline.advance, calls, getElem?_cons_zero]
        exact .launching ctx rfl loops (Or.inl rfl) stopClosed started
    | launching ctx calls loops state stopClosed started =>
      obtain rfl := eq_zero_of_calls hcall calls
      rw [Pipeline.advance, calls, getElem?_cons_zero]
      refine .up ctx (Or.inl ⟨rfl, started⟩) state ⟨stopClosed, ?_, ?_, ?_⟩ <;> simp [loops]
    | up ctx calls state attended =>
      rcases calls with ⟨calls, started⟩ | ⟨calls, -⟩
      · obtain rfl := eq_zero_of_calls hcall calls
        rw [Pipeline.advance, calls, getElem?_cons_zero]
        refine .up ctx (Or.inr ⟨rfl, ?_⟩) (Or.inl rfl)
          (attended.withState rfl rfl (fun _ h => h) id)
        rw [started]
      · simp [calls] at hmem
    | down calls state length_le =>
      -- The other calls stay, and they are all `Stop`s.
      have hset : ∀ c', Call.IsStop c' → ∀ c'' ∈ p.calls.set i c', c''.IsStop := by
        intro c' hc' c'' hc''
        rcases mem_or_eq_of_mem_set hc'' with hc'' | rfl
        · exact calls c'' hc''
        · exact hc'
      have herase : ∀ c'' ∈ p.calls.eraseIdx i, c''.IsStop :=
        fun c'' hc'' => calls c'' (mem_of_mem_eraseIdx hc'')
      rw [Pipeline.advance, hcall]
      cases c with
      | closeStopCh => exact .down (hset _ trivial) state length_le
      | awaitLoops =>
        dsimp only
        split_ifs
        · exact .down (hset _ trivial) state length_le
        · exact .down calls state length_le
      | markStopped => exact .down (hset _ trivial) (Or.inr rfl) length_le
      | reportStopped => exact .down herase (Or.inr rfl) length_le
      | startSource ctx | enter ctx | launch ctx | reportRunning ctx => exact (calls _ hmem).elim
    | crashed crashed => simp [crashed] at hcrashed

lemma withEnvironment {cancelled : List ℕ} {sourceClosed : Bool}
    (hcancelled : p.cancelled ⊆ cancelled) (hsource : p.sourceClosed = true → sourceClosed = true) :
    Stage { p with cancelled, sourceClosed } := by
  cases h with
  | idle calls loops state stopClosed started => exact .idle calls loops state stopClosed started
  | starting ctx calls loops state stopClosed started =>
    exact .starting ctx calls loops state stopClosed started
  | launching ctx calls loops state stopClosed started =>
    exact .launching ctx calls loops state stopClosed started
  | up ctx calls state attended =>
    exact .up ctx calls state (attended.withState rfl rfl hcancelled hsource)
  | down calls state length_le => exact .down calls state length_le
  | crashed crashed loops => exact .crashed crashed loops

theorem step {move : Move} (hmove : p.StartedOnce move) : Stage (machine.step p move).1 := by
  dsimp only [machine]
  split_ifs with hcrashed
  · exact h
  · rw [Bool.not_eq_true] at hcrashed
    cases move with
    | start ctx => exact h.start hcrashed hmove
    | stop => exact h.stop hmove
    | pause => exact h.pause
    | resume => exact h.resume
    | advance i ok => exact h.advance hcrashed i ok
    | loop j choice => exact h.loop j choice
    | cancel ctx => exact h.withEnvironment (subset_cons_self _ _) id
    | closeSource => exact h.withEnvironment (fun _ h => h) fun _ => rfl

lemma oneLoop : p.OneLoop := by
  refine ⟨h.length_loops_le, ?_⟩
  rintro ⟨hcrashed, hstate, hstarted, hsource, hctx⟩
  cases h with
  | idle _ _ _ _ started | starting _ _ _ _ _ started | launching _ _ _ _ _ started =>
    exact absurd started hstarted
  | up ctx calls state attended =>
    rcases calls with ⟨-, started⟩ | ⟨-, started⟩
    · exact absurd started hstarted
    · -- Neither reason to return is there, so the loop is live.
      have hne : p.loops ≠ [] := by
        intro hnil
        rcases attended.live hnil with hcancelled | hclosed
        · exact hctx ctx (by simp [started]) hcancelled
        · simp [hsource] at hclosed
      exact le_antisymm attended.length_le (length_pos_iff.mpr hne)
  | down _ state => rcases state with state | state <;> simp [state] at hstate
  | crashed crashed => simp [crashed] at hcrashed

end

end Stage

/-- **A pipeline has at most one run loop.** In every run in which it is started once, in every
state reached: at most one loop is live, and exactly one while the pipeline is running or paused
after a successful `Start` with a source and a context that are not done. -/
theorem oneLoop_run (moves : List Move)
    (hmoves : machine.Meets StartedOnce new moves) : (machine.run new moves).1.OneLoop := by
  have hstage : Stage (machine.run new moves).1 :=
    machine.run_induction_of_meets (motive := fun p _ => Stage p) hmoves
      (.idle rfl rfl (Or.inl rfl) rfl rfl) fun _ _ _ hmove h => h.step hmove
  exact hstage.oneLoop

/-- The moves of a `Start` call that is alone on its way. -/
def startMoves (ctx : ℕ) : List Move :=
  [.start ctx, .advance 0 true, .advance 0 true, .advance 0 true, .advance 0 true]

/-- The pipeline is paused and resumed, with an event held back, and a second `Start` is refused. -/
theorem oneLoop_pauseAndResume :
    (machine.run new
      (startMoves 1 ++ [.pause, .loop 0 .event, .resume, .loop 0 .resume, .start 2])).1.Up ∧
      (machine.run new
        (startMoves 1 ++ [.pause, .loop 0 .event, .resume, .loop 0 .resume, .start 2])).1.OneLoop :=
  ⟨by decide, oneLoop_run _ (by decide)⟩

/-- A paused pipeline is started again, which launches a second loop. -/
theorem not_forall_oneLoop : ¬ ∀ moves : List Move, (machine.run new moves).1.OneLoop := by
  intro h
  have htwo : (machine.run new (startMoves 1 ++ [.pause] ++ startMoves 2)).1.loops.length = 2 := by
    decide
  have hle := (h (startMoves 1 ++ [.pause] ++ startMoves 2)).1
  omega

end Pipeline

end DataStream
