import DataStream.Pipeline.RunLoop

/-!
# Tasks and their pipelines

`pipeline.Task` with `Start`, `Stop`, `Pause` and `Resume`, and `TaskManager` with `Create`,
`Delete` and `StopAll`. The calls are made one after another; while a call waits for the pipeline
of a task, the run loops go on and the services answer. A deleted task stays where it is, for its
pipeline may be live and its callers may still use it.

`Pause` and `Resume` change the status of a task and nothing else: the pipeline of a paused task
goes on running. `Delete` and `StopAll` stop the tasks with the status `running` only, so they leave
the pipeline of a paused task live.

* `truthful_iff`: the statuses tell the truth exactly if no running task is paused.
-/

namespace DataStream.Tasks

open List Option Pipeline

/-! ## The program -/

inductive TaskStatus where
  | created
  | starting
  | running
  | paused
  | stopping
  | stopped
  | error
  deriving DecidableEq, Repr

inductive TaskError where
  | alreadyRunning
  | noSource
  | invalidState
  | taskNotFound
  | taskExists
  | source
  | coordinator
  deriving DecidableEq, Repr

/-- What a part of a call on a task ends with. -/
inductive Answer where
  | waits
  /-- The call returns, `none` being nil. -/
  | returns (err : Option TaskError)
  deriving DecidableEq, Repr

/-- `Task`: its status and its pipeline, if it has been given one. -/
structure Task where
  status : TaskStatus
  pipeline : Option Pipeline
  deriving DecidableEq, Repr

namespace Task

variable (t : Task)

/-- `Start`, until it waits for `Pipeline.Start`. -/
def start (ctx : ℕ) : Task × Answer :=
  if t.status = .running then (t, .returns (some .alreadyRunning))
  else
    match t.pipeline with
    | none => ({ t with status := .error }, .returns (some .noSource))
    | some p =>
      match machine.step p (.start ctx) with
      | (p, []) => ({ status := .starting, pipeline := some p }, .waits)
      | (p, _ :: _) => ({ status := .error, pipeline := some p }, .returns (some .alreadyRunning))

/-- `Pipeline.Start` does its next part, and `Start` goes on when it returns. -/
def awaitStart (ok : Bool) : Task × Answer :=
  match t.pipeline with
  | none => (t, .waits)
  | some p =>
    match machine.step p (.advance 0 ok) with
    | (p, []) => ({ t with pipeline := some p }, .waits)
    | (p, .ok :: _) => ({ status := .running, pipeline := some p }, .returns none)
    | (p, _ :: _) => ({ status := .error, pipeline := some p }, .returns (some .source))

/-- `Stop`, until it waits for `Pipeline.Stop`. -/
def stop : Task × Answer :=
  if t.status = .stopped then (t, .returns none)
  else
    match t.pipeline with
    | none => ({ t with status := .stopped }, .returns none)
    | some p =>
      match machine.step p .stop with
      | (p, []) => ({ status := .stopping, pipeline := some p }, .waits)
      | (p, _ :: _) => ({ status := .stopped, pipeline := some p }, .returns none)

/-- `Pipeline.Stop` does its next part, and `Stop` goes on when it returns. -/
def awaitStop : Task × Answer :=
  match t.pipeline with
  | none => (t, .waits)
  | some p =>
    match machine.step p (.advance 0 true) with
    | (p, []) => ({ t with pipeline := some p }, .waits)
    | (p, _ :: _) => ({ status := .stopped, pipeline := some p }, .returns none)

/-- `Pause`. The pipeline is not told. -/
def pause : Task × Answer :=
  if t.status ≠ .running then (t, .returns (some .invalidState))
  else ({ t with status := .paused }, .returns none)

/-- `Resume`. The pipeline is not told. -/
def resume : Task × Answer :=
  if t.status ≠ .paused then (t, .returns (some .invalidState))
  else ({ t with status := .running }, .returns none)

end Task

/-- `NewTask`, and what the caller sets its pipeline to. -/
def newTask (hasPipeline : Bool) : Task where
  status := .created
  pipeline := if hasPipeline then some .new else none

/-- Who called `Task.Stop`. -/
inductive Caller where
  | outside
  | delete (id : Bytes)
  /-- `StopAll` with the tasks that it has not come to yet and the last error. -/
  | stopAll (rest : List ℕ) (lastErr : Option TaskError)
  deriving DecidableEq, Repr

/-- The call on its way, by what it waits for. -/
inductive Activity where
  /-- `Task.Start` waits for `Pipeline.Start`. -/
  | start (i : ℕ)
  /-- `Task.Stop` waits for `Pipeline.Stop`. -/
  | stop (i : ℕ) (caller : Caller)
  /-- `Delete` is about to delete the task from the coordinator. -/
  | delete (id : Bytes) (i : ℕ)
  /-- `StopAll` is about to stop the next task. -/
  | stopAll (rest : List ℕ) (lastErr : Option TaskError)
  deriving DecidableEq, Repr

/-- How a call returns. -/
inductive Reply where
  /-- A call returns, other than by the next two. -/
  | returned (err : Option TaskError)
  /-- `Delete` of the `i`th task returns nil. -/
  | deleted (i : ℕ)
  /-- `StopAll` returns nil. -/
  | stoppedAll
  deriving DecidableEq, Repr

/-- `TaskManager`, with all tasks that were ever created. -/
structure TaskManager where
  objects : List Task
  /-- The map `tasks`, by the places of the tasks. -/
  tasks : List (Bytes × ℕ)
  active : Option Activity
  deriving DecidableEq, Repr

/-- What happens to a pipeline besides the calls. -/
inductive Background where
  | loop (j : ℕ) (choice : Choice)
  | cancel (ctx : ℕ)
  | closeSource
  deriving DecidableEq, Repr

def Background.move : Background → Move
  | loop j choice => .loop j choice
  | cancel ctx => .cancel ctx
  | closeSource => .closeSource

/-- One step of the calls, of a run loop or of the outside. -/
inductive Move where
  /-- `Create`; the caller gives the task a pipeline or not, and `saved` is the answer of the
  coordinator. -/
  | create (id : Bytes) (hasPipeline saved : Bool)
  | start (i ctx : ℕ)
  | stop (i : ℕ)
  | pause (i : ℕ)
  | resume (i : ℕ)
  | delete (id : Bytes)
  /-- `StopAll`; the map is iterated in any order. -/
  | stopAll (order : List ℕ)
  /-- The call on its way does its next part; `ok` is the answer of the source or of the
  coordinator. -/
  | advance (ok : Bool)
  | background (i : ℕ) (b : Background)
  deriving DecidableEq, Repr

/-- What follows on a `Task.Stop` of the `i`th task: the next activity and the replies. -/
def Caller.resume (i : ℕ) : Caller → Option TaskError → Option Activity × List Reply
  | .outside, err => (none, [.returned err])
  | .delete id, none => (some (.delete id i), [])
  | .delete _, some err => (none, [.returned (some err)])
  | .stopAll rest lastErr, none => (some (.stopAll rest lastErr), [])
  | .stopAll rest _, some err => (some (.stopAll rest (some err)), [])

namespace TaskManager

variable (s : TaskManager)

/-- A part of a call on the `i`th task: the call waits, or something follows on its return. -/
def call (i : ℕ) (part : Task → Task × Answer) (waiting : Activity)
    (done : Option TaskError → Option Activity × List Reply) : TaskManager × List Reply :=
  match s.objects[i]? with
  | none => (s, [])
  | some t =>
    match part t with
    | (t, .waits) => ({ s with objects := s.objects.set i t, active := some waiting }, [])
    | (t, .returns err) =>
      ({ s with objects := s.objects.set i t, active := (done err).1 }, (done err).2)

def stop (i : ℕ) (caller : Caller) : TaskManager × List Reply :=
  s.call i Task.stop (.stop i caller) (caller.resume i)

def create (id : Bytes) (hasPipeline saved : Bool) : TaskManager × List Reply :=
  if s.tasks.any fun entry => entry.1 = id then (s, [.returned (some .taskExists)])
  else if saved then
    ({ s with
        objects := s.objects ++ [newTask hasPipeline]
        tasks := (id, s.objects.length) :: s.tasks }, [.returned none])
  else (s, [.returned (some .coordinator)])

/-- `Delete`, until it waits for `Task.Stop` or the coordinator. -/
def delete (id : Bytes) : TaskManager × List Reply :=
  match s.tasks.find? fun entry => entry.1 = id with
  | none => (s, [.returned (some .taskNotFound)])
  | some (_, i) =>
    if (s.objects[i]?).map Task.status = some .running then s.stop i (.delete id)
    else ({ s with active := some (.delete id i) }, [])

/-- `StopAll` collects the running tasks. -/
def stopAll (order : List ℕ) : TaskManager × List Reply :=
  if order.Perm (s.tasks.map Prod.snd) then
    ({ s with
        active := some (.stopAll
          (order.filter fun i => (s.objects[i]?).map Task.status = some .running) none) }, [])
  else (s, [])

def advance (ok : Bool) : Activity → TaskManager × List Reply
  | .start i => s.call i (fun t => t.awaitStart ok) (.start i) fun err => (none, [.returned err])
  | .stop i caller => s.call i Task.awaitStop (.stop i caller) (caller.resume i)
  | .delete id i =>
    if ok then
      ({ s with tasks := s.tasks.filter fun entry => entry.1 ≠ id, active := none }, [.deleted i])
    else ({ s with active := none }, [.returned (some .coordinator)])
  | .stopAll [] none => ({ s with active := none }, [.stoppedAll])
  | .stopAll [] (some err) => ({ s with active := none }, [.returned (some err)])
  | .stopAll (i :: rest) lastErr => s.stop i (.stopAll rest lastErr)

/-- A pipeline takes a step of its own. -/
def background (i : ℕ) (b : Background) : TaskManager :=
  match s.objects[i]? with
  | some { status, pipeline := some p } =>
    { s with
      objects := s.objects.set i { status, pipeline := some (machine.step p b.move).1 } }
  | _ => s

/-- The tasks and their manager; a call is made when no other is on its way. -/
def machine : Machine TaskManager Move Reply where
  step s move :=
    match s.active, move with
    | _, .background i b => (s.background i b, [])
    | some activity, .advance ok => s.advance ok activity
    | none, .create id hasPipeline saved => s.create id hasPipeline saved
    | none, .start i ctx =>
      s.call i (fun t => t.start ctx) (.start i) fun err => (none, [.returned err])
    | none, .stop i => s.stop i .outside
    | none, .pause i => s.call i Task.pause (.start i) fun err => (none, [.returned err])
    | none, .resume i => s.call i Task.resume (.start i) fun err => (none, [.returned err])
    | none, .delete id => s.delete id
    | none, .stopAll order => s.stopAll order
    | _, _ => (s, [])

/-! ## What the statuses say -/

/-- No run loop of the `i`th task is live. -/
def Quiet (i : ℕ) : Prop := ∀ t p, s.objects[i]? = some t → t.pipeline = some p → p.loops = []

/-- A paused task has a paused pipeline, and if `Delete` or `StopAll` returned nil, no loop of its
tasks is live. -/
structure Truthful (s : TaskManager) (replies : List Reply) : Prop where
  paused : ∀ t ∈ s.objects, t.status = .paused → ∃ p, t.pipeline = some p ∧ p.state = .paused
  deleted : ∀ i, .deleted i ∈ replies → s.Quiet i
  stoppedAll : .stoppedAll ∈ replies → ∀ entry ∈ s.tasks, s.Quiet entry.2

/-- The step does not pause a running task. -/
def KeepsRunning : Move → Prop
  | .pause i => s.active = none → (s.objects[i]?).map Task.status ≠ some .running
  | _ => True

instance : DecidablePred s.KeepsRunning
  | .pause _ => inferInstanceAs (Decidable (s.active = none → _ ≠ some TaskStatus.running))
  | .create _ _ _ | .start _ _ | .stop _ | .resume _ | .delete _ | .stopAll _ | .advance _
  | .background _ _ => isTrue trivial

/-- The tasks are new. -/
def Fresh : Prop := s.active = none ∧ ∀ t ∈ s.objects, t = newTask true ∨ t = newTask false
  deriving Decidable

end TaskManager

/-! ## One task -/

section Task

variable {t : Task} {p : Pipeline}

/-- A pipeline without a call on its way that was not paused. -/
structure Idle (p : Pipeline) : Prop where
  calls : p.calls = []
  state_ne_paused : p.state ≠ .paused
  crashed : p.crashed = false

/-- A task between two calls: its pipeline runs, or has no loop. -/
inductive Settled (t : Task) : Prop where
  | down (status : t.status = .created ∨ t.status = .error ∨ t.status = .stopped)
      (pipeline : ∀ p, t.pipeline = some p → Idle p ∧ p.loops = [] ∧ p.state ≠ .running)
  | up (p : Pipeline) (status : t.status = .running) (pipeline : t.pipeline = some p)
      (idle : Idle p) (state : p.state = .running)

/-- A task whose `Start` is on its way. A loop is launched in the last part but one. -/
structure Starting (t : Task) (p : Pipeline) : Prop where
  status : t.status = .starting
  pipeline : t.pipeline = some p
  calls : (∃ ctx, p.calls = [.startSource ctx] ∨ p.calls = [.enter ctx] ∨ p.calls = [.launch ctx]) ∧
    p.loops = [] ∨ ∃ ctx, p.calls = [.reportRunning ctx]
  state_ne_paused : p.state ≠ .paused
  crashed : p.crashed = false

/-- A task whose `Stop` is on its way. No loop is live once it has waited for them. -/
structure Stopping (t : Task) (p : Pipeline) : Prop where
  status : t.status = .stopping
  pipeline : t.pipeline = some p
  calls : p.calls = [.closeStopCh] ∨ p.calls = [.awaitLoops] ∨
    (p.calls = [.markStopped] ∨ p.calls = [.reportStopped]) ∧ p.loops = []
  state_ne_paused : p.state ≠ .paused
  crashed : p.crashed = false

/-- A part of a call leads to a task that waits or to one that something follows on. -/
def Part (waits : Task → Prop) (returned : Option TaskError → Task → Prop) : Task × Answer → Prop
  | (t, .waits) => waits t
  | (t, .returns err) => returned err t

lemma Settled.loops_eq_nil (h : Settled t) (hstatus : t.status ≠ .running)
    (hp : t.pipeline = some p) : p.loops = [] := by
  rcases h with ⟨-, hpipeline⟩ | ⟨-, hrunning, -, -, -⟩
  · exact (hpipeline p hp).2.1
  · exact absurd hrunning hstatus

lemma Settled.status_ne_paused (h : Settled t) : t.status ≠ .paused := by
  rcases h with ⟨hstatus | hstatus | hstatus, -⟩ | ⟨-, hstatus, -, -, -⟩ <;> simp [hstatus]

lemma settled_newTask (hasPipeline : Bool) : Settled (newTask hasPipeline) := by
  refine .down (.inl rfl) fun p hp => ?_
  rcases hasPipeline with _ | _
  · exact nomatch hp
  · obtain rfl := some.inj hp
    exact ⟨⟨rfl, nofun, rfl⟩, rfl, nofun⟩

lemma Settled.start (h : Settled t) (ctx : ℕ) :
    Part (fun t => ∃ p, Starting t p) (fun _ t => Settled t) (t.start ctx) := by
  rcases h with ⟨hstatus, hpipeline⟩ | ⟨p, hstatus, hp, hidle, hstate⟩
  · have hrunning : t.status ≠ .running := by
      rcases hstatus with hstatus | hstatus | hstatus <;> simp [hstatus]
    rw [Task.start, if_neg hrunning]
    rcases hp : t.pipeline with _ | p
    · exact .down (.inr (.inl rfl)) fun p hp' => nomatch hp'
    · obtain ⟨hidle, hloops, hstate⟩ := hpipeline p hp
      have hstep : Pipeline.machine.step p (.start ctx) =
          ({ p with state := .starting, calls := [.startSource ctx] }, []) := by
        simp [Pipeline.machine, Pipeline.start, hidle.crashed, hidle.calls, hstate]
      simp only [hstep]
      refine ⟨_, rfl, rfl, .inl ⟨⟨ctx, .inl rfl⟩, hloops⟩, ?_, hidle.crashed⟩
      exact nofun
  · rw [Task.start, if_pos hstatus]
    exact .up p hstatus hp hidle hstate

lemma Starting.awaitStart (h : Starting t p) (ok : Bool) :
    Part (fun t => ∃ p, Starting t p) (fun _ t => Settled t) (t.awaitStart ok) := by
  obtain ⟨hstatus, hp, hcalls, hstate, hcrashed⟩ := h
  simp only [Task.awaitStart, hp, machine, hcrashed, Bool.false_eq_true, if_false]
  rcases hcalls with ⟨⟨ctx, hcalls | hcalls | hcalls⟩, hloops⟩ | ⟨ctx, hcalls⟩ <;>
    simp only [advance, hcalls, getElem?_cons_zero]
  · -- The source starts or fails.
    rcases ok with _ | _
    · refine .down (.inr (.inl rfl)) ?_
      rintro _ ⟨⟩
      exact ⟨⟨rfl, by simp, hcrashed⟩, hloops, by simp⟩
    · exact ⟨_, hstatus, rfl, .inl ⟨⟨ctx, .inr (.inl rfl)⟩, hloops⟩, hstate, hcrashed⟩
  · exact ⟨_, hstatus, rfl, .inl ⟨⟨ctx, .inr (.inr rfl)⟩, hloops⟩, by simp, hcrashed⟩
  · exact ⟨_, hstatus, rfl, .inr ⟨ctx, rfl⟩, hstate, hcrashed⟩
  · exact .up _ rfl rfl ⟨rfl, by simp, hcrashed⟩ rfl

lemma Settled.stop (h : Settled t) :
    Part (fun t => ∃ p, Stopping t p) (fun _ t => Settled t ∧ t.status ≠ .running) t.stop := by
  rw [Task.stop]
  split_ifs with hstopped
  · exact ⟨h, by simp [hstopped]⟩
  · -- Whatever the status, the pipeline is idle, and has no loop if it is stopped.
    have hidle : ∀ p, t.pipeline = some p → Idle p ∧ (p.state = .stopped → p.loops = []) := by
      rcases h with ⟨-, hpipeline⟩ | ⟨p, -, hp, hidle, hstate⟩
      · exact fun p hp => ⟨(hpipeline p hp).1, fun _ => (hpipeline p hp).2.1⟩
      · intro p' hp'
        obtain rfl := some.inj (hp.symm.trans hp')
        exact ⟨hidle, fun hdown => nomatch hstate.symm.trans hdown⟩
    rcases hp : t.pipeline with _ | p
    · exact ⟨.down (.inr (.inr rfl)) (fun p hp' => nomatch hp'), nofun⟩
    · obtain ⟨⟨hcalls, hstate, hcrashed⟩, hloops⟩ := hidle p hp
      have hstep : Pipeline.machine.step p .stop = p.stop := by
        simp [Pipeline.machine, hcrashed]
      simp only [hstep, Pipeline.stop]
      split_ifs with hdown
      · refine ⟨.down (.inr (.inr rfl)) ?_, nofun⟩
        rintro _ ⟨⟩
        exact ⟨⟨hcalls, hstate, hcrashed⟩, hloops hdown, by simp [hdown]⟩
      · refine ⟨_, rfl, rfl, .inl ?_, nofun, hcrashed⟩
        rw [hcalls]
        rfl

lemma Stopping.awaitStop (h : Stopping t p) :
    Part (fun t => ∃ p, Stopping t p) (fun _ t => Settled t ∧ t.status ≠ .running) t.awaitStop := by
  obtain ⟨hstatus, hp, hcalls, hstate, hcrashed⟩ := h
  have hstep : machine.step p (.advance 0 true) = p.advance 0 true := by
    simp [machine, hcrashed]
  simp only [Task.awaitStop, hp, hstep]
  rcases hcalls with hcalls | hcalls | ⟨hcalls | hcalls, hloops⟩ <;>
    simp only [advance, hcalls, getElem?_cons_zero]
  · exact ⟨_, hstatus, rfl, .inr (.inl rfl), hstate, hcrashed⟩
  · -- It waits until no loop is left.
    by_cases hloops : p.loops = []
    · simp only [if_pos hloops]
      exact ⟨_, hstatus, rfl, .inr (.inr ⟨.inl rfl, hloops⟩), hstate, hcrashed⟩
    · simp only [if_neg hloops]
      exact ⟨_, hstatus, rfl, .inr (.inl hcalls), hstate, hcrashed⟩
  · exact ⟨_, hstatus, rfl, .inr (.inr ⟨.inr rfl, hloops⟩), by simp, hcrashed⟩
  · refine ⟨.down (.inr (.inr rfl)) ?_, by simp⟩
    rintro _ ⟨⟩
    exact ⟨⟨rfl, by simp, hcrashed⟩, hloops, by simp⟩

/-- What a pipeline keeps while it goes on by itself. -/
structure Kept (p q : Pipeline) : Prop where
  state : q.state = p.state
  calls : q.calls = p.calls
  crashed : q.crashed = p.crashed
  loops : p.loops = [] → q.loops = []

lemma kept_background (p : Pipeline) (b : Background) : Kept p (machine.step p b.move).1 := by
  simp only [machine]
  split_ifs with hcrashed
  · exact ⟨rfl, rfl, rfl, id⟩
  · rcases b with ⟨j, choice⟩ | ctx | _
    · have hnil : p.loops = [] → (p.loop j choice).loops = [] := by
        intro hloops
        rw [loop_of_nil hloops, hloops]
      rcases loop_cases p j choice with heq | ⟨l, l', -, -, heq⟩ | ⟨l, -, -, heq⟩ <;>
        simp only [Background.move] <;> rw [heq] at hnil ⊢ <;> exact ⟨rfl, rfl, rfl, hnil⟩
    · exact ⟨rfl, rfl, rfl, id⟩
    · exact ⟨rfl, rfl, rfl, id⟩

variable {q : Pipeline}

lemma Kept.idle (hkept : Kept p q) (h : Idle p) : Idle q where
  calls := hkept.calls.trans h.calls
  state_ne_paused := by
    rw [hkept.state]
    exact h.state_ne_paused
  crashed := hkept.crashed.trans h.crashed

lemma Settled.background (h : Settled t) (hp : t.pipeline = some p) (hkept : Kept p q) :
    Settled { t with pipeline := some q } := by
  rcases h with ⟨hstatus, hpipeline⟩ | ⟨p', hstatus, hp', hidle, hstate⟩
  · obtain ⟨hidle, hloops, hstate⟩ := hpipeline p hp
    refine .down hstatus ?_
    rintro _ ⟨⟩
    exact ⟨hkept.idle hidle, hkept.loops hloops, by rwa [hkept.state]⟩
  · obtain rfl := some.inj (hp.symm.trans hp')
    exact .up q hstatus rfl (hkept.idle hidle) (hkept.state.trans hstate)

lemma Starting.background (h : Starting t p) (hkept : Kept p q) :
    Starting { t with pipeline := some q } q where
  status := h.status
  pipeline := rfl
  calls := by
    rw [hkept.calls]
    exact h.calls.imp (fun hearly => ⟨hearly.1, hkept.loops hearly.2⟩) id
  state_ne_paused := by
    rw [hkept.state]
    exact h.state_ne_paused
  crashed := hkept.crashed.trans h.crashed

lemma Stopping.background (h : Stopping t p) (hkept : Kept p q) :
    Stopping { t with pipeline := some q } q where
  status := h.status
  pipeline := rfl
  calls := by
    rw [hkept.calls]
    exact h.calls.imp id (Or.imp id fun hlate => ⟨hlate.1, hkept.loops hlate.2⟩)
  state_ne_paused := by
    rw [hkept.state]
    exact h.state_ne_paused
  crashed := hkept.crashed.trans h.crashed

end Task

/-! ## All tasks -/

/-- How the `i`th task stands while a call is on its way. -/
def Stands (tasks : List (Bytes × ℕ)) : Option Activity → ℕ → Task → Prop
  | none, _, t => Settled t
  | some (.start j), i, t => if i = j then ∃ p, Starting t p else Settled t
  | some (.stop j (.stopAll rest _)), i, t =>
    if i = j then ∃ p, Stopping t p
    -- The running tasks of the manager are the ones that `StopAll` has not come to yet.
    else Settled t ∧ (i ∈ tasks.map Prod.snd → t.status = .running → i ∈ rest)
  | some (.stop j _), i, t => if i = j then ∃ p, Stopping t p else Settled t
  | some (.delete _ j), i, t => Settled t ∧ (i = j → t.status ≠ .running)
  | some (.stopAll rest _), i, t =>
    Settled t ∧ (i ∈ tasks.map Prod.snd → t.status = .running → i ∈ rest)

namespace TaskManager

variable {s : TaskManager}

/-- Every task stands as the call on its way says. -/
def Inv (s : TaskManager) : Prop := ∀ i t, s.objects[i]? = some t → Stands s.tasks s.active i t

end TaskManager

section Stands

variable {tasks : List (Bytes × ℕ)} {i j : ℕ} {t : Task}

lemma Stands.status_ne_paused {active : Option Activity} (h : Stands tasks active i t) :
    t.status ≠ .paused := by
  have hstopping : (∃ p, Stopping t p) → t.status ≠ .paused := fun ⟨p, h⟩ => by simp [h.status]
  unfold Stands at h
  split at h
  · exact h.status_ne_paused
  · split_ifs at h
    · obtain ⟨p, hstarting⟩ := h
      simp [hstarting.status]
    · exact h.status_ne_paused
  · split_ifs at h
    · exact hstopping h
    · exact h.1.status_ne_paused
  · split_ifs at h
    · exact hstopping h
    · exact h.status_ne_paused
  all_goals exact h.1.status_ne_paused

variable {caller : Caller}

lemma Stands.resume_of_ne (hne : j ≠ i) (h : Stands tasks (some (.stop i caller)) j t)
    (err : Option TaskError) : Stands tasks (caller.resume i err).1 j t := by
  rcases caller with _ | id | ⟨rest, lastErr⟩
  · simp only [Stands, if_neg hne] at h
    exact h
  · simp only [Stands, if_neg hne] at h
    rcases err with _ | err
    · exact ⟨h, fun hij => absurd hij hne⟩
    · exact h
  · simp only [Stands, if_neg hne] at h
    rcases err with _ | err <;> exact h

lemma Stands.resume_self (h : Settled t) (hstatus : t.status ≠ .running)
    (err : Option TaskError) : Stands tasks (caller.resume i err).1 i t := by
  rcases caller with _ | id | ⟨rest, lastErr⟩
  · exact h
  · rcases err with _ | err
    · exact ⟨h, fun _ => hstatus⟩
    · exact h
  · rcases err with _ | err <;> exact ⟨h, fun _ hrunning => absurd hrunning hstatus⟩

lemma Stands.stopping (h : ∃ p, Stopping t p) : Stands tasks (some (.stop i caller)) i t := by
  rcases caller with _ | id | ⟨rest, lastErr⟩ <;> simpa [Stands] using h

lemma Stands.background {active : Option Activity} {p q : Pipeline}
    (h : Stands tasks active i t) (hp : t.pipeline = some p) (hkept : Kept p q) :
    Stands tasks active i { t with pipeline := some q } := by
  have hstopping : (∃ p, Stopping t p) → ∃ p, Stopping { t with pipeline := some q } p := by
    rintro ⟨p', hstopping⟩
    obtain rfl := some.inj (hp.symm.trans hstopping.pipeline)
    exact ⟨q, hstopping.background hkept⟩
  rcases active with _ | j | ⟨j, _ | id | ⟨rest, lastErr⟩⟩ | ⟨id, j⟩ | ⟨rest, lastErr⟩
  case none => exact Settled.background h hp hkept
  case some.start =>
    simp only [Stands] at h ⊢
    split_ifs at h ⊢
    · obtain ⟨p', hstarting⟩ := h
      obtain rfl := some.inj (hp.symm.trans hstarting.pipeline)
      exact ⟨q, hstarting.background hkept⟩
    · exact h.background hp hkept
  case some.stop.outside | some.stop.delete =>
    simp only [Stands] at h ⊢
    split_ifs at h ⊢
    · exact hstopping h
    · exact h.background hp hkept
  case some.stop.stopAll =>
    simp only [Stands] at h ⊢
    split_ifs at h ⊢
    · exact hstopping h
    · exact ⟨h.1.background hp hkept, h.2⟩
  case some.delete | some.stopAll => exact ⟨Settled.background h.1 hp hkept, h.2⟩

lemma Part.imp {waits waits' : Task → Prop} {returned returned' : Option TaskError → Task → Prop}
    {r : Task × Answer} (h : Part waits returned r) (hwaits : ∀ t, waits t → waits' t)
    (hreturned : ∀ err t, returned err t → returned' err t) : Part waits' returned' r := by
  obtain ⟨t, _ | err⟩ := r
  · exact hwaits t h
  · exact hreturned err t h

end Stands

namespace TaskManager

/-! ## The replies -/

/-- No `Delete` and no `StopAll` returns nil. -/
def OnlyReturns (replies : List Reply) : Prop := ∀ r ∈ replies, ∃ err, r = .returned err

lemma onlyReturns_nil : OnlyReturns [] := fun _ hr => nomatch hr

lemma onlyReturns_returned (err : Option TaskError) : OnlyReturns [.returned err] :=
  fun _ hr => ⟨err, mem_singleton.mp hr⟩

section Replies

variable {s : TaskManager} {i : ℕ}

lemma onlyReturns_resume (caller : Caller) (err : Option TaskError) :
    OnlyReturns (caller.resume i err).2 := by
  rcases caller with _ | id | ⟨rest, lastErr⟩
  · exact onlyReturns_returned err
  · rcases err with _ | err
    · exact onlyReturns_nil
    · exact onlyReturns_returned (some err)
  · rcases err with _ | err <;> exact onlyReturns_nil

lemma onlyReturns_call {part : Task → Task × Answer} {waiting : Activity}
    {done : Option TaskError → Option Activity × List Reply}
    (hdone : ∀ err, OnlyReturns (done err).2) : OnlyReturns (s.call i part waiting done).2 := by
  unfold call
  split
  · exact onlyReturns_nil
  · split
    · exact onlyReturns_nil
    · exact hdone _

lemma onlyReturns_stop (caller : Caller) : OnlyReturns (s.stop i caller).2 :=
  onlyReturns_call (onlyReturns_resume caller)

lemma onlyReturns_create (id : Bytes) (hasPipeline saved : Bool) :
    OnlyReturns (s.create id hasPipeline saved).2 := by
  unfold create
  split_ifs <;> exact onlyReturns_returned _

lemma onlyReturns_delete (id : Bytes) : OnlyReturns (s.delete id).2 := by
  unfold delete
  split
  · exact onlyReturns_returned _
  · split_ifs
    · exact onlyReturns_stop _
    · exact onlyReturns_nil

lemma onlyReturns_stopAll (order : List ℕ) : OnlyReturns (s.stopAll order).2 := by
  unfold stopAll
  split_ifs <;> exact onlyReturns_nil

end Replies

end TaskManager

namespace TaskManager.Inv

variable {s : TaskManager} {i : ℕ} {part : Task → Task × Answer} {waiting : Activity}
  {done : Option TaskError → Option Activity × List Reply}

lemma set (h : s.Inv) {active : Option Activity} {t : Task} (hself : Stands s.tasks active i t)
    (hother : ∀ j u, j ≠ i → Stands s.tasks s.active j u → Stands s.tasks active j u) :
    Inv { s with objects := s.objects.set i t, active := active } := by
  intro j u hu
  rw [getElem?_set] at hu
  split_ifs at hu with hij
  · obtain rfl := some.inj hu
    exact hij ▸ hself
  · exact hother j u (Ne.symm hij) (h j u hu)

theorem call (h : s.Inv)
    (hself : ∀ t, s.objects[i]? = some t → Stands s.tasks s.active i t →
      Part (Stands s.tasks (some waiting) i) (fun err => Stands s.tasks (done err).1 i) (part t))
    (hother : ∀ j t, j ≠ i → Stands s.tasks s.active j t →
      Stands s.tasks (some waiting) j t ∧ ∀ err, Stands s.tasks (done err).1 j t) :
    (s.call i part waiting done).1.Inv := by
  unfold TaskManager.call
  split
  · exact h
  · next t ht =>
    have hpart := hself t ht (h i t ht)
    split
    · next t' ht' =>
      rw [ht'] at hpart
      exact h.set hpart fun j u hne hu => (hother j u hne hu).1
    · next t' err ht' =>
      rw [ht'] at hpart
      exact h.set hpart fun j u hne hu => (hother j u hne hu).2 err

lemma stop (h : s.Inv) {caller : Caller} (hself : ∀ t, Stands s.tasks s.active i t → Settled t)
    (hother : ∀ j t, j ≠ i → Stands s.tasks s.active j t →
      Stands s.tasks (some (.stop i caller)) j t) : (s.stop i caller).1.Inv := by
  refine h.call (fun t _ ht => ?_) fun j t hne ht => ?_
  · exact (hself t ht).stop.imp (fun t => Stands.stopping) fun err t hstopped =>
      Stands.resume_self hstopped.1 hstopped.2 err
  · exact ⟨hother j t hne ht, fun err => Stands.resume_of_ne hne (hother j t hne ht) err⟩

lemma truthful (h : s.Inv) {replies : List Reply}
    (hreplies : OnlyReturns replies) : s.Truthful replies where
  paused t ht hstatus := by
    obtain ⟨i, hi⟩ := getElem?_of_mem ht
    exact absurd hstatus (h i t hi).status_ne_paused
  deleted i hi := by
    obtain ⟨err, herr⟩ := hreplies _ hi
    exact nomatch herr
  stoppedAll hall := by
    obtain ⟨err, herr⟩ := hreplies _ hall
    exact nomatch herr

lemma and_truthful (h : s.Inv) {replies : List Reply} (hreplies : OnlyReturns replies) :
    s.Inv ∧ s.Truthful replies :=
  ⟨h, h.truthful hreplies⟩

lemma quiet_of_settled
    (h : ∀ t, s.objects[i]? = some t → Settled t ∧ t.status ≠ .running) : s.Quiet i :=
  fun t _ ht hp => (h t ht).1.loops_eq_nil (h t ht).2 hp

lemma advance (h : s.Inv) (ok : Bool) {activity : Activity} (hactive : s.active = some activity) :
    (s.advance ok activity).1.Inv ∧
      (s.advance ok activity).1.Truthful (s.advance ok activity).2 := by
  have hstands : ∀ (j : ℕ) t, s.objects[j]? = some t → Stands s.tasks (some activity) j t :=
    fun j t ht => hactive ▸ h j t ht
  rcases activity with i | ⟨i, caller⟩ | ⟨id, i⟩ | ⟨_ | ⟨i, rest⟩, lastErr⟩
  · -- `Task.Start` waits for the pipeline.
    refine (h.call (fun t _ ht => ?_) fun j t hne ht => ?_).and_truthful
      (onlyReturns_call fun err => onlyReturns_returned err)
    · simp only [hactive, Stands, if_true] at ht
      obtain ⟨p, hstarting⟩ := ht
      refine (hstarting.awaitStart ok).imp (fun t ht => ?_) fun err t ht => ht
      simpa [Stands] using ht
    · rw [hactive] at ht
      refine ⟨ht, fun err => ?_⟩
      simpa only [Stands, if_neg hne] using ht
  · -- `Task.Stop` waits for the pipeline.
    refine (h.call (fun t _ ht => ?_) fun j t hne ht => ?_).and_truthful
      (onlyReturns_call (onlyReturns_resume caller))
    · have hstopping : ∃ p, Stopping t p := by
        rcases caller with _ | id | ⟨rest, lastErr⟩ <;> simpa [hactive, Stands] using ht
      obtain ⟨p, hstopping⟩ := hstopping
      exact hstopping.awaitStop.imp (fun t => Stands.stopping) fun err t hstopped =>
        Stands.resume_self hstopped.1 hstopped.2 err
    · rw [hactive] at ht
      exact ⟨ht, fun err => Stands.resume_of_ne hne ht err⟩
  · -- `Delete` asks the coordinator.
    have hinv (tasks : List (Bytes × ℕ)) : Inv { s with tasks, active := none } :=
      fun j t ht => (hstands j t ht).1
    rcases ok with _ | _
    · exact (hinv _).and_truthful (onlyReturns_returned _)
    · refine ⟨hinv _, ((hinv _).truthful onlyReturns_nil).paused, fun j hj => ?_,
        fun hall => nomatch mem_singleton.mp hall⟩
      obtain ⟨rfl⟩ := mem_singleton.mp hj
      exact quiet_of_settled fun t ht => (hstands i t ht).imp_right fun hstatus => hstatus rfl
  · -- `StopAll` is through.
    have hinv : Inv { s with active := none } := fun j t ht => (hstands j t ht).1
    rcases lastErr with _ | err
    · refine ⟨hinv, (hinv.truthful onlyReturns_nil).paused,
        fun _ hj => absurd (mem_singleton.mp hj) Reply.noConfusion, fun _ entry hentry => ?_⟩
      -- No task is left to stop, so none is running.
      exact quiet_of_settled fun t ht => (hstands _ t ht).imp_right fun hrest hrunning =>
        not_mem_nil (hrest (List.mem_map_of_mem hentry) hrunning)
    · exact hinv.and_truthful (onlyReturns_returned _)
  · -- `StopAll` stops its next task; the running tasks among the others are in the rest.
    refine (h.stop (fun t ht => ?_) fun j t hne ht => ?_).and_truthful (onlyReturns_stop _)
    · rw [hactive] at ht
      exact ht.1
    · rw [hactive] at ht
      simp only [Stands, if_neg hne]
      exact ⟨ht.1, fun hmanaged hrunning => (mem_cons.mp (ht.2 hmanaged hrunning)).resolve_left hne⟩

lemma background (h : s.Inv) (i : ℕ) (b : Background) : (s.background i b).Inv := by
  unfold TaskManager.background
  split
  · next status p hi =>
    exact h.set ((h i _ hi).background rfl (kept_background p b)) fun _ _ _ hu => hu
  · exact h

lemma delete (h : s.Inv) (hidle : s.active = none) (id : Bytes) : (s.delete id).1.Inv := by
  have hsettled : ∀ (j : ℕ) t, Stands s.tasks s.active j t → Settled t := by
    intro j t ht
    rwa [hidle] at ht
  unfold TaskManager.delete
  split
  · exact h
  · next i hfind =>
    split_ifs with hrunning
    · refine h.stop (fun t => hsettled i t) fun j t hne ht => ?_
      simp only [Stands, if_neg hne]
      exact hsettled j t ht
    · intro j t ht
      refine ⟨hsettled j t (h j t ht), ?_⟩
      rintro rfl hstatus
      exact hrunning (by rw [show s.objects[j]? = some t from ht, map_some, hstatus])

lemma stopAll (h : s.Inv) (hidle : s.active = none) (order : List ℕ) : (s.stopAll order).1.Inv := by
  unfold TaskManager.stopAll
  split_ifs with horder
  · intro j t ht
    have hsettled := h j t ht
    rw [hidle] at hsettled
    refine ⟨hsettled, fun hmanaged hrunning => mem_filter.mpr ⟨horder.mem_iff.mpr hmanaged, ?_⟩⟩
    rw [show s.objects[j]? = some t from ht, map_some, hrunning]
    rfl
  · exact h

lemma create (h : s.Inv) (hidle : s.active = none) (id : Bytes) (hasPipeline saved : Bool) :
    (s.create id hasPipeline saved).1.Inv := by
  unfold TaskManager.create
  split_ifs with hexists hsaved
  · exact h
  · intro j t ht
    have hsettled : Settled t := by
      rcases mem_append.mp (mem_of_getElem? ht) with hold | hnew
      · obtain ⟨j', hj'⟩ := getElem?_of_mem hold
        have hstands := h j' t hj'
        rwa [hidle] at hstands
      · rw [mem_singleton.mp hnew]
        exact settled_newTask hasPipeline
    change Stands _ s.active j t
    rwa [hidle]
  · exact h

lemma of_fresh (h : s.Fresh) : s.Inv := by
  intro i t ht
  rw [h.1]
  rcases h.2 t (mem_of_getElem? ht) with rfl | rfl <;> exact settled_newTask _

lemma call_of_idle (h : s.Inv) (hidle : s.active = none)
    (hself : ∀ t, s.objects[i]? = some t → Settled t →
      Part (Stands s.tasks (some waiting) i) (fun _ t => Settled t) (part t))
    (hother : ∀ j t, j ≠ i → Settled t → Stands s.tasks (some waiting) j t) :
    (s.call i part waiting fun err => (none, [.returned err])).1.Inv ∧
      (s.call i part waiting fun err => (none, [.returned err])).1.Truthful
        (s.call i part waiting fun err => (none, [.returned err])).2 := by
  have hinv : (s.call i part waiting fun err => (none, [.returned err])).1.Inv := by
    refine h.call (fun t hi ht => ?_) fun j t hne ht => ?_
    · rw [hidle] at ht
      exact hself t hi ht
    · rw [hidle] at ht
      exact ⟨hother j t hne ht, fun _ => ht⟩
  exact hinv.and_truthful (onlyReturns_call fun err => onlyReturns_returned err)

lemma step (h : s.Inv) {move : Move} (hmove : s.KeepsRunning move) :
    (machine.step s move).1.Inv ∧ (machine.step s move).1.Truthful (machine.step s move).2 := by
  rcases hactive : s.active with _ | activity
  · have hwaiting : ∀ i j t, j ≠ i → Settled t → Stands s.tasks (some (.start i)) j t := by
      intro i j t hne ht
      simpa only [Stands, if_neg hne] using ht
    have hsettled : ∀ j t, Stands s.tasks s.active j t → Settled t := by
      intro j t ht
      rwa [hactive] at ht
    rcases move with ⟨id, hasPipeline, saved⟩ | ⟨i, ctx⟩ | i | i | i | id | order | ok | ⟨i, b⟩ <;>
      simp only [machine, hactive]
    · exact (h.create hactive id hasPipeline saved).and_truthful (onlyReturns_create _ _ _)
    · refine h.call_of_idle hactive (fun t _ ht => ?_) (hwaiting i)
      refine (ht.start ctx).imp (fun t ht => ?_) fun _ _ ht => ht
      simpa [Stands] using ht
    · have hstop : (s.stop i .outside).1.Inv := by
        refine h.stop (hsettled i) fun j t hne ht => ?_
        simpa only [Stands, if_neg hne] using hsettled j t ht
      exact hstop.and_truthful (onlyReturns_stop _)
    · -- The task is not running, so `Pause` is refused.
      refine h.call_of_idle hactive (fun t hi ht => ?_) (hwaiting i)
      have hstatus : t.status ≠ .running := by
        intro hrunning
        exact hmove hactive (by rw [hi, map_some, hrunning])
      rw [Task.pause, if_pos hstatus]
      exact ht
    · -- No task is paused, so `Resume` is refused.
      refine h.call_of_idle hactive (fun t _ ht => ?_) (hwaiting i)
      rw [Task.resume, if_pos ht.status_ne_paused]
      exact ht
    · exact (h.delete hactive id).and_truthful (onlyReturns_delete id)
    · exact (h.stopAll hactive order).and_truthful (onlyReturns_stopAll order)
    · exact h.and_truthful onlyReturns_nil
    · exact (h.background i b).and_truthful onlyReturns_nil
  · rcases move with _ | _ | _ | _ | _ | _ | _ | ok | ⟨i, b⟩ <;> simp only [machine, hactive]
    case advance => exact h.advance ok hactive
    case background => exact (h.background i b).and_truthful onlyReturns_nil
    -- No other call is made meanwhile.
    all_goals exact h.and_truthful onlyReturns_nil

/-- A step that tells the truth does not pause a running task. -/
lemma keepsRunning (h : s.Inv) {move : Move}
    (htruthful : (machine.step s move).1.Truthful (machine.step s move).2) :
    s.KeepsRunning move := by
  rcases move with _ | _ | _ | i | _ | _ | _ | _ | _
  case pause =>
    intro hactive hstatus
    obtain ⟨t, ht, hrunning⟩ := map_eq_some_iff.mp hstatus
    have hsettled := h i t ht
    rw [hactive] at hsettled
    have hstep : (machine.step s (.pause i)).1.objects =
        s.objects.set i { t with status := .paused } := by
      simp only [machine, hactive, TaskManager.call, ht, Task.pause, hrunning, ne_eq, not_true,
        if_false]
    have hlength : i < s.objects.length := (List.getElem?_eq_some_iff.mp ht).1
    obtain ⟨p, hp, hpaused⟩ := htruthful.paused { t with status := .paused }
      (by rw [hstep]; exact mem_set hlength _) rfl
    rcases hsettled with ⟨hdown, -⟩ | ⟨p', -, hp', -, hstate⟩
    · rw [hrunning] at hdown
      rcases hdown with hdown | hdown | hdown <;> exact nomatch hdown
    · obtain rfl := some.inj (hp'.symm.trans hp)
      exact nomatch hstate.symm.trans hpaused
  all_goals exact trivial

end TaskManager.Inv

namespace TaskManager

/-- **The status of a task tells the truth.** Along every run from new tasks the statuses `paused`
are those of paused pipelines and no loop outlives a `Delete` or `StopAll` that returned nil,
exactly if no running task is ever paused. -/
theorem truthful_iff {s : TaskManager} (hfresh : s.Fresh) (moves : List Move) :
    machine.Meets (fun s move => (machine.step s move).1.Truthful (machine.step s move).2) s moves ↔
      machine.Meets KeepsRunning s moves :=
  machine.meets_iff_of_invariant (fun _ _ h => ⟨h.keepsRunning, fun hmove => (h.step hmove).2⟩)
    (fun _ _ h hmove => (h.step hmove).1) (Inv.of_fresh hfresh)

def oneTask : TaskManager where
  objects := [newTask true]
  tasks := [(lit "t1", 0)]
  active := none

def startMoves : List Move :=
  [.start 0 1, .advance true, .advance true, .advance true, .advance true]

/-- A running task is deleted: `Delete` stops it first and waits for its loop. -/
theorem truthful_deleteRunning :
    .deleted 0 ∈ (machine.run oneTask (startMoves ++ [.delete (lit "t1"), .advance true,
      .background 0 (.loop 0 .stop), .advance true, .advance true, .advance true,
      .advance true])).2 ∧
    machine.Meets (fun s move => (machine.step s move).1.Truthful (machine.step s move).2) oneTask
      (startMoves ++ [.delete (lit "t1"), .advance true, .background 0 (.loop 0 .stop),
        .advance true, .advance true, .advance true, .advance true]) :=
  ⟨by decide, (truthful_iff (by decide) _).mpr (by decide)⟩

/-- A running task is paused: its pipeline goes on running, and `Delete` and `StopAll` leave the
loop live. -/
theorem not_forall_truthful :
    (¬∀ moves : List Move, ∀ t ∈ (machine.run oneTask moves).1.objects, t.status = .paused →
      ∃ p, t.pipeline = some p ∧ p.state = .paused) ∧
    (¬∀ (moves : List Move) (move : Move) (i : ℕ),
      .deleted i ∈ (machine.step (machine.run oneTask moves).1 move).2 →
        (machine.step (machine.run oneTask moves).1 move).1.Quiet i) ∧
    ¬∀ (moves : List Move) (move : Move),
      .stoppedAll ∈ (machine.step (machine.run oneTask moves).1 move).2 →
        ∀ entry ∈ (machine.step (machine.run oneTask moves).1 move).1.tasks,
          (machine.step (machine.run oneTask moves).1 move).1.Quiet entry.2 := by
  obtain ⟨t, p, hstatus, hp, hstate, hloops, hpaused, hdelete, hstopAll⟩ : ∃ t p,
      t.status = .paused ∧ t.pipeline = some p ∧ p.state = .running ∧ p.loops ≠ [] ∧
      (machine.run oneTask (startMoves ++ [.pause 0])).1.objects = [t] ∧
      (machine.run oneTask
        (startMoves ++ [.pause 0, .delete (lit "t1"), .advance true])).1.objects = [t] ∧
      (machine.run oneTask (startMoves ++ [.pause 0, .stopAll [0], .advance true])).1.objects =
        [t] :=
    ⟨_, _, rfl, rfl, rfl, cons_ne_nil _ _, rfl, rfl, rfl⟩
  refine ⟨fun h => ?_, fun h => ?_, fun h => ?_⟩
  · obtain ⟨p', hp', hpaused'⟩ := h (startMoves ++ [.pause 0]) t (by rw [hpaused]; simp) hstatus
    obtain rfl := some.inj (hp.symm.trans hp')
    exact nomatch hstate.symm.trans hpaused'
  · refine hloops (h (startMoves ++ [.pause 0, .delete (lit "t1")]) (.advance true) 0 (by decide)
      t p ?_ hp)
    exact congrArg (fun objects => objects[0]?) hdelete
  · refine hloops (h (startMoves ++ [.pause 0, .stopAll [0]]) (.advance true) (by decide)
      (lit "t1", 0) (by decide) t p ?_ hp)
    exact congrArg (fun objects => objects[0]?) hstopAll

end TaskManager

end DataStream.Tasks
