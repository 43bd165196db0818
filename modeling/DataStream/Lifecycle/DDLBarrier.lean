import DataStream.Lifecycle.ConcurrentRoute
import DataStream.Lifecycle.FailedDDL

/-!
# DDL as a barrier for data

Before it executes a statement, `handleDDL` waits on `pendingWg` until no data event is being
written, and the field's comment says what for: "tracks in-flight DML writes so DDL can wait for
them". The wait says something about one moment only. Right after it another `Route` call may count
and begin a write, while the statement is recorded, parsed and executed. A replay writes its events
without counting them at all.

The machine interleaves any number of `Route` calls and replays with changes of the stores by the
rest of the process. The barrier holds in the runs in which nobody begins to write data between the
flush of a statement and the end of its execution, and no replay is writing at the flush.

* `Traffic.Apart.step`, `barrier_of_guarded`: the barrier holds along every guarded run.
-/

namespace DataStream.Lifecycle

open Event Source Cache CaughtUp List Option

/-- The consumer with all calls of `Route` and all replays that were begun so far. -/
structure Traffic where
  shared : Consumer
  pendingWg : WaitGroup
  calls : List CallPhase
  replays : List Replaying

/-- One step of a call, of a replay or of the rest of the process. -/
inductive Turn where
  | call (ev : ChangeEvent)
  /-- A call makes its next step, with these answers of the services. -/
  | step (i : ℕ) (env : Env)
  | replay (req : Request)
  /-- A replay, its reader or its context makes a move. -/
  | move (i : ℕ) (move : Move)
  /-- The rest of the process changes the stores. -/
  | update (shared : Consumer)

/-- A call blocked in `Wait` is released as soon as the group has forgotten its waiters. -/
def CallPhase.wake (wg : WaitGroup) : CallPhase → CallPhase
  | .ddl ev retry .blocked => .ddl ev retry (if wg.waiters = 0 then .released else .blocked)
  | phase => phase

/-- The event whose write to the sink a call has in progress. -/
def CallPhase.inProgress : CallPhase → Option ChangeEvent
  | .ddl ev _ (.writing _ _ _) => some ev
  | .writing ev => some ev
  | _ => none

namespace Traffic

def start (shared : Consumer) : Traffic := ⟨shared, .zero, [], []⟩

variable (s : Traffic)

def stepCall (cfg : Config) (env : Env) (i : ℕ) (phase : CallPhase) : Traffic × List Effect :=
  let next := phase.next cfg env s.shared s.pendingWg
  ({ s with
      shared := next.shared
      pendingWg := next.pendingWg
      calls := (s.calls.set i next.phase).map (CallPhase.wake next.pendingWg) },
    next.effects)

/-- The events whose write to the sink is in progress. -/
def inProgress : List ChangeEvent :=
  s.calls.filterMap CallPhase.inProgress ++ s.replays.filterMap Replaying.writing

/-- While a DDL event is being written to the sink, no data event is. -/
def Barrier : Prop := (∃ ev ∈ s.inProgress, ev.isDDL = true) → ∀ ev ∈ s.inProgress, ev.isDDL = true
  deriving Decidable

end Traffic

/-- The consumer as a machine. A process that has panicked does nothing more. -/
def traffic (cfg : Config) : Machine Traffic Turn Effect where
  step s turn :=
    if s.shared.crashed then (s, [])
    else
      match turn with
      | .call ev => ({ s with calls := s.calls ++ [.entered ev] }, [])
      | .step i env =>
        match s.calls[i]? with
        | none => (s, [])
        | some phase => s.stepCall cfg env i phase
      | .replay req => ({ s with replays := s.replays ++ [.start req] }, [])
      | .move i move =>
        match s.replays[i]? with
        | none => (s, [])
        | some r => ({ s with replays := s.replays.set i (r.step move) }, [])
      | .update shared => ({ s with shared := { shared with crashed := false } }, [])

/-! ## What the barrier is about -/

namespace CallPhase

/-- The call has counted its write, and has not yet said that it is over. -/
def holding : CallPhase → Bool
  | .counted _ | .writing _ | .written _ _ => true
  | _ => false

def writesData : CallPhase → Bool
  | .writing _ => true
  | _ => false

/-- The call begins to write a data event in its next step. -/
def beginsData : CallPhase → Bool
  | .counted _ => true
  | _ => false

/-- The call may return from `Wait` in its next step. -/
def atFlush : CallPhase → Bool
  | .ddl _ _ .flushing | .ddl _ _ .released => true
  | _ => false

/-- The call has passed its flush, and its statement is not yet executed. -/
def flushed : CallPhase → Bool
  | .ddl _ _ .saving | .ddl _ _ (.parsing _) => true
  | .ddl _ _ (.executing _ _ _) | .ddl _ _ (.writing _ _ _) => true
  | _ => false

end CallPhase

open CallPhase

namespace Replaying

/-- The replay is writing a data event. -/
def writesData (r : Replaying) : Bool := r.writing.any fun ev => !ev.isDDL

/-- The replay is writing a DDL event, which it found in the cache. -/
def writesDDL (r : Replaying) : Bool := r.writing.any ChangeEvent.isDDL

end Replaying

namespace Traffic

variable (s : Traffic)

/-- A statement is on its way to the sink, or a replayed DDL event is being written. -/
def DDLOpen : Prop :=
  (∃ phase ∈ s.calls, phase.flushed = true) ∨ ∃ r ∈ s.replays, r.writesDDL = true
  deriving Decidable

def ReplaysData : Prop := ∃ r ∈ s.replays, r.writesData = true
  deriving Decidable

/-- A data event is being written. -/
def DataOpen : Prop := (∃ phase ∈ s.calls, phase.writesData = true) ∨ s.ReplaysData
  deriving Decidable

end Traffic

/-- The condition on a step. No data event begins to be written while a statement is on its way to
the sink; when a flush is passed, no replay is writing data; and a replay does not write a DDL event
next to data. -/
def Guarded (s : Traffic) : Turn → Prop
  | .step i _ =>
    ∀ phase ∈ s.calls[i]?, (phase.beginsData = true → ¬s.DDLOpen) ∧
      (phase.atFlush = true → s.pendingWg.counter = 0 → ¬s.ReplaysData)
  | .move i (.takeEvent upsert _) =>
    ∀ r ∈ s.replays[i]?, r.writing = none → ∀ ev ∈ Replaying.nextWrite r.session upsert,
      if ev.isDDL then ¬s.DataOpen else ¬s.DDLOpen
  | _ => True

instance (s : Traffic) (turn : Turn) : Decidable (Guarded s turn) := by
  unfold Guarded
  split <;> infer_instance

/-! ## One step of a call -/

/-- What one step of a call can do to the barrier. -/
inductive Moves (wg : WaitGroup) (phase : CallPhase) (wg' : WaitGroup) (phase' : CallPhase) : Prop
  /-- Nothing: a call may return or go on to where the others do not notice it. -/
  | quiet (counter : wg'.counter = wg.counter) (holding : phase'.holding = phase.holding)
      (flushed : phase'.flushed = true → phase.flushed = true)
      (writes : phase'.writesData = false)
  | flush (counter : wg'.counter = 0) (same : wg' = wg) (atFlush : phase.atFlush = true)
      (holding : phase'.holding = phase.holding) (writes : phase'.writesData = false)
  | count (add : wg' = wg.add) (free : phase.holding = false) (holding : phase'.holding = true)
      (flushed : phase'.flushed = false) (writes : phase'.writesData = false)
  | write (same : wg' = wg) (begins : phase.beginsData = true)
      (holding : phase'.holding = phase.holding) (flushed : phase'.flushed = false)
  /-- Its write is over and no longer counted. -/
  | release (done : wg' = wg.done) (holding : phase.holding = true)
      (free : phase'.holding = false) (flushed : phase'.flushed = false)
      (writes : phase'.writesData = false)

section Steps

variable {cfg : Config} {env : Env} {s : Consumer} {wg : WaitGroup}

/-- A return does nothing to the barrier, if nothing was counted. -/
lemma Moves.return {phase : CallPhase} (hfree : phase.holding = false) (outcome : Outcome) :
    Moves wg phase wg (.returned outcome) :=
  .quiet rfl hfree.symm (fun h => by cases h) rfl

/-- The steps of `handleDDL`. Only the flush matters. -/
lemma moves_ddl (ev : DDLEvent) (retry : Bool) (phase : DDLPhase) :
    let next := phase.next env s wg ev retry
    Moves wg (.ddl ev retry phase) next.pendingWg next.phase := by
  cases phase with
  | flushing =>
    by_cases hzero : wg.counter = 0
    · simp only [DDLPhase.next, if_pos hzero]
      exact .flush hzero rfl rfl rfl rfl
    · simp only [DDLPhase.next, if_neg hzero]
      exact .quiet rfl rfl (fun h => by cases h) rfl
  | blocked => exact .quiet rfl rfl id rfl
  | released =>
    by_cases hzero : wg = .zero
    · simp only [DDLPhase.next, if_pos hzero]
      exact .flush (by rw [hzero]; rfl) rfl rfl rfl rfl
    · simp only [DDLPhase.next, if_neg hzero]
      exact .return rfl _
  | executing info oldTable result => exact .quiet rfl rfl (fun _ => rfl) rfl
  | saving | parsing | writing =>
    -- The call goes on behind its flush or returns.
    simp only [DDLPhase.next]
    split
    all_goals first | exact .return rfl _ | exact .quiet rfl rfl (fun _ => rfl) rfl

lemma moves_enterDDL {phase : CallPhase} (hfree : phase.holding = false) (retry : Bool)
    (ev : DDLEvent) : Moves wg phase wg (.enterDDL cfg retry ev) := by
  rw [enterDDL]
  split
  · exact .return hfree _
  split
  · exact .return hfree _
  · exact .quiet rfl hfree.symm (fun h => by cases h) rfl

/-- **What one step of a call can do to the barrier.** -/
theorem CallPhase.moves_next (cfg : Config) (env : Env) (s : Consumer) (wg : WaitGroup)
    (phase : CallPhase) :
    let next := phase.next cfg env s wg
    Moves wg phase next.pendingWg next.phase := by
  cases phase with
  | entered ev =>
    simp only [next]
    split
    · exact moves_enterDDL rfl _ _
    split
    · exact .quiet rfl rfl (fun h => by cases h) rfl
    · split
      · exact moves_enterDDL rfl _ _
      · exact .return rfl _
  | ddl ev retry phase => exact moves_ddl ev retry phase
  | unblocked ev =>
    simp only [next]
    split
    · exact .return rfl _
    · exact .quiet rfl rfl (fun h => by cases h) rfl
    · exact .quiet rfl rfl (fun h => by cases h) rfl
    · exact .return rfl _
  | accepted ev => exact .count rfl rfl rfl rfl rfl
  | counted ev => exact .write rfl rfl rfl rfl
  | writing ev => exact .quiet rfl rfl (fun h => by cases h) rfl
  | written ev err => exact .release rfl rfl rfl rfl rfl
  | returned outcome => exact .return rfl outcome

end Steps

/-! ## The barrier along a run -/

/-- The wait group counts the writes of the calls, and no data event is being written while a
statement is on its way to the sink. -/
structure Traffic.Apart (s : Traffic) : Prop where
  counts : s.pendingWg.Counts holding s.calls
  apart : s.DDLOpen → ¬s.DataOpen

variable (wg : WaitGroup)

variable (phase : CallPhase)

@[simp]
lemma CallPhase.holding_wake : (phase.wake wg).holding = phase.holding := by
  unfold wake
  split <;> rfl

@[simp]
lemma CallPhase.flushed_wake : (phase.wake wg).flushed = phase.flushed := by
  unfold wake
  split
  · split <;> rfl
  · rfl

@[simp]
lemma CallPhase.writesData_wake : (phase.wake wg).writesData = phase.writesData := by
  unfold wake
  split <;> rfl

section Run

variable {cfg : Config} {env : Env} {s : Traffic} {i : ℕ} {phase : CallPhase}

lemma exists_mem_set {α : Type} {f : α → Bool} {l : List α} {x : α}
    (h : ∃ a ∈ l.set i x, f a = true) : (∃ a ∈ l, f a = true) ∨ f x = true := by
  obtain ⟨a, ha, hf⟩ := h
  rcases mem_or_eq_of_mem_set ha with hmem | rfl
  · exact .inl ⟨a, hmem, hf⟩
  · exact .inr hf

/-- A call for which something holds after a step of one call is that call, or it held before. -/
lemma exists_mem_stepCall {f : CallPhase → Bool} (hwake : ∀ wg p, f (p.wake wg) = f p)
    (h : ∃ p ∈ (s.stepCall cfg env i phase).1.calls, f p = true) :
    (∃ p ∈ s.calls, f p = true) ∨ f (phase.next cfg env s.shared s.pendingWg).phase = true := by
  obtain ⟨p, hp, hf⟩ := h
  obtain ⟨q, hq, rfl⟩ := List.mem_map.mp hp
  exact exists_mem_set ⟨q, hq, hwake _ q ▸ hf⟩

lemma CallPhase.holding_of_writesData (h : phase.writesData = true) : phase.holding = true := by
  cases phase <;> first | rfl | cases h

lemma counts_stepCall (h : s.pendingWg.Counts holding s.calls)
    (hphase : s.calls[i]? = some phase) :
    (s.stepCall cfg env i phase).1.pendingWg.Counts holding
      (s.stepCall cfg env i phase).1.calls := by
  -- Waking the blocked calls changes nobody who is counted.
  refine WaitGroup.Counts.map ?_ (holding_wake _)
  show (phase.next cfg env s.shared s.pendingWg).pendingWg.Counts holding _
  cases phase.moves_next cfg env s.shared s.pendingWg with
  | quiet counter holding _ _ => exact counter.trans (h.set_of_eq hphase holding)
  | flush _ same _ holding _ | write same _ holding _ =>
    rw [same]
    exact h.set_of_eq hphase holding
  | count add free holding _ _ =>
    rw [add]
    exact h.set_add hphase free holding
  | release done holding free _ _ =>
    rw [done]
    exact h.set_done hphase holding free

/-- A step of a call that meets the condition keeps data and DDL apart. -/
lemma apart_stepCall (h : s.Apart) (hphase : s.calls[i]? = some phase)
    (hguard : Guarded s (.step i env)) (hddl : (s.stepCall cfg env i phase).1.DDLOpen) :
    ¬(s.stepCall cfg env i phase).1.DataOpen := by
  intro hdata
  obtain ⟨hbegin, hflush⟩ := hguard phase hphase
  -- What is open now was so before, or the call itself has opened it.
  have hddl : s.DDLOpen ∨ _ := hddl.elim
    (fun hcalls => (exists_mem_stepCall flushed_wake hcalls).imp_left .inl)
    fun hreplays => .inl (.inr hreplays)
  have hdata : s.DataOpen ∨ _ := hdata.elim
    (fun hcalls => (exists_mem_stepCall writesData_wake hcalls).imp_left .inl)
    fun hreplays => .inl (.inr hreplays)
  cases phase.moves_next cfg env s.shared s.pendingWg with
  | quiet _ _ flushed writes =>
    -- A statement that is on its way now was so before, and so was every data write.
    have hopen : s.DDLOpen := hddl.elim id fun hflushed =>
      .inl ⟨phase, mem_of_getElem? hphase, flushed hflushed⟩
    exact h.apart hopen (hdata.resolve_right (by simp [writes]))
  | flush counter same atFlush _ writes =>
    rw [same] at counter
    -- Nobody is counted, so nobody who counts is writing, and by the condition nobody else is.
    rcases hdata.resolve_right (by simp [writes]) with ⟨p, hp, hwrites⟩ | hreplays
    · have hheld := holding_of_writesData hwrites
      rw [h.counts.not_holding counter p hp] at hheld
      cases hheld
    · exact hflush atFlush counter hreplays
  | write _ begins _ flushed => exact hbegin begins (hddl.resolve_right (by simp [flushed]))
  | count _ _ _ flushed writes | release _ _ _ flushed writes =>
    exact h.apart (hddl.resolve_right (by simp [flushed])) (hdata.resolve_right (by simp [writes]))

/-- A replay that is writing after a step was writing the same event before, or has just begun. -/
lemma Replaying.writing_step {r : Replaying} {move : Move} {ev : ChangeEvent}
    (h : (r.step move).writing = some ev) :
    r.writing = some ev ∨ r.writing = none ∧ ∃ upsert accepted,
      move = .takeEvent upsert accepted ∧ nextWrite r.session upsert = some ev := by
  unfold Replaying.step at h
  split at h
  · next hnone =>
    split at h
    · next ev hnext =>
      cases h
      exact .inr ⟨hnone, _, _, rfl, hnext⟩
    · exact .inl h
  · cases h
  · exact .inl h
  · exact .inl h
  · exact .inl h

/-- A move of a replay that meets the condition keeps data and DDL apart. -/
lemma apart_move {r : Replaying} {move : Move} (h : s.DDLOpen → ¬s.DataOpen)
    (hr : s.replays[i]? = some r) (hguard : Guarded s (.move i move)) :
    let s' : Traffic := { s with replays := s.replays.set i (r.step move) }
    s'.DDLOpen → ¬s'.DataOpen := by
  intro s' hddl hdata
  have hmem : r ∈ s.replays := mem_of_getElem? hr
  have hddl : s.DDLOpen ∨ (r.step move).writesDDL = true := hddl.elim
    (fun hcalls => .inl (.inl hcalls)) fun hreplays => (exists_mem_set hreplays).imp_left .inr
  have hdata : s.DataOpen ∨ (r.step move).writesData = true := hdata.elim
    (fun hcalls => .inl (.inl hcalls)) fun hreplays => (exists_mem_set hreplays).imp_left .inr
  cases hwriting : (r.step move).writing with
  | none =>
    simp only [Replaying.writesDDL, Replaying.writesData, hwriting, any_none,
      Bool.false_eq_true, or_false] at hddl hdata
    exact h hddl hdata
  | some ev =>
    rcases Replaying.writing_step hwriting with hbefore | ⟨hnone, upsert, accepted, rfl, hnext⟩
    · have hsame : (r.step move).writing = r.writing := hwriting.trans hbefore.symm
      rw [Replaying.writesDDL, hsame] at hddl
      rw [Replaying.writesData, hsame] at hdata
      exact h (hddl.elim id fun hw => .inr ⟨r, hmem, hw⟩)
        (hdata.elim id fun hw => .inr ⟨r, hmem, hw⟩)
    · -- The write has just begun, so the condition speaks about it.
      have hbegin := hguard r hr hnone ev hnext
      cases hkind : ev.isDDL with
      | true =>
        rw [if_pos hkind] at hbegin
        exact hbegin (hdata.resolve_right (by simp [Replaying.writesData, hwriting, hkind]))
      | false =>
        rw [if_neg (by simp [hkind])] at hbegin
        exact hbegin (hddl.resolve_right (by simp [Replaying.writesDDL, hwriting, hkind]))

/-- **What one step that meets the condition preserves.** -/
theorem Traffic.Apart.step (h : s.Apart) {turn : Turn} (hguard : Guarded s turn) :
    ((traffic cfg).step s turn).1.Apart := by
  simp only [traffic]
  split
  · exact h
  cases turn with
  | call ev =>
    refine ⟨h.counts.concat rfl, fun hddl hdata => ?_⟩
    have hopen : s.DDLOpen := by simpa [DDLOpen, flushed] using hddl
    have hwrites : s.DataOpen := by
      simpa [DataOpen, ReplaysData, writesData] using hdata
    exact h.apart hopen hwrites
  | step i env =>
    dsimp only
    split
    · exact h
    · next phase hphase =>
      exact ⟨counts_stepCall h.counts hphase, apart_stepCall h hphase hguard⟩
  | replay req =>
    refine ⟨h.counts, fun hddl hdata => ?_⟩
    have hopen : s.DDLOpen := by
      simpa [DDLOpen, Replaying.writesDDL, Replaying.start] using hddl
    have hwrites : s.DataOpen := by
      simpa [DataOpen, ReplaysData, Replaying.writesData, Replaying.start] using hdata
    exact h.apart hopen hwrites
  | move i move =>
    dsimp only
    split
    · exact h
    · next r hr => exact ⟨h.counts, apart_move h.apart hr hguard⟩
  | update shared => exact ⟨h.counts, h.apart⟩

lemma apart_start (shared : Consumer) : (Traffic.start shared).Apart := by
  refine ⟨rfl, fun hddl => ?_⟩
  simp [Traffic.DDLOpen, Traffic.start] at hddl

/-- A call that has an event in progress is writing data, or has passed its flush. -/
lemma CallPhase.of_inProgress {ev : ChangeEvent} (h : phase.inProgress = some ev) :
    ev.isDDL = true ∧ phase.flushed = true ∨ ev.isDDL = false ∧ phase.writesData = true := by
  unfold inProgress at h
  split at h
  · next ev' _ _ _ _ =>
    cases h
    exact .inl ⟨ev'.2, rfl⟩
  · next ev' =>
    cases h
    exact .inr ⟨ev'.2, rfl⟩
  · cases h

/-- An event that is being written is data, or opens the way of a statement. -/
lemma open_of_mem_inProgress {ev : ChangeEvent} (h : ev ∈ s.inProgress) :
    ev.isDDL = true ∧ s.DDLOpen ∨ ev.isDDL = false ∧ s.DataOpen := by
  rcases mem_append.mp h with hcall | hreplay
  · obtain ⟨phase, hmem, hev⟩ := mem_filterMap.mp hcall
    rcases of_inProgress hev with ⟨hkind, hflushed⟩ | ⟨hkind, hwrites⟩
    · exact .inl ⟨hkind, .inl ⟨phase, hmem, hflushed⟩⟩
    · exact .inr ⟨hkind, .inl ⟨phase, hmem, hwrites⟩⟩
  · obtain ⟨r, hmem, hwriting⟩ := mem_filterMap.mp hreplay
    cases hkind : ev.isDDL with
    | true => exact .inl ⟨rfl, .inr ⟨r, hmem, by simp [Replaying.writesDDL, hwriting, hkind]⟩⟩
    | false => exact .inr ⟨rfl, .inr ⟨r, hmem, by simp [Replaying.writesData, hwriting, hkind]⟩⟩

lemma Traffic.Apart.barrier (h : s.Apart) : s.Barrier := by
  rintro ⟨ddl, hddl, hkind⟩ ev hev
  obtain ⟨-, hopen⟩ | ⟨hdata, -⟩ := open_of_mem_inProgress hddl
  · rcases open_of_mem_inProgress hev with ⟨hev, -⟩ | ⟨-, hdata⟩
    · exact hev
    · exact (h.apart hopen hdata).elim
  · rw [hkind] at hdata
    cases hdata

end Run

/-- **The barrier along every guarded run.** Whatever calls and replays interleave, and however the
stores change, no data event is being written while a DDL event is. -/
theorem barrier_of_guarded (cfg : Config) (shared : Consumer) (turns : List Turn)
    (h : (traffic cfg).Meets Guarded (.start shared) turns) :
    ((traffic cfg).run (.start shared) turns).1.Barrier := by
  have hrun : ((traffic cfg).run (.start shared) turns).1.Apart :=
    (traffic cfg).run_induction_of_meets (motive := fun s _ => s.Apart) h (apart_start shared)
      fun _ _ _ hguard hs => hs.step hguard
  exact hrun.barrier

/-- A statement that arrives while a row is being written waits for the write. -/
def waitingRun : List Turn :=
  let env := answering (.result (some ordersTable))
  [.call ordersInsert, .step 0 env, .step 0 env, .step 0 env, .step 0 env,
    .call ordersDDL, .step 1 env, .step 1 env,
    .step 0 env, .step 0 env,
    .step 1 env, .step 1 env, .step 1 env, .step 1 env]

theorem barrier_waitingRun :
    let s := ((traffic fullConfig).run (.start ordersStreaming) waitingRun).1
    (traffic fullConfig).Meets Guarded (.start ordersStreaming) waitingRun ∧
      (∃ ev ∈ s.inProgress, ev.isDDL = true) ∧ s.Barrier := by
  have hguarded : (traffic fullConfig).Meets Guarded (.start ordersStreaming) waitingRun := by
    decide
  exact ⟨hguarded, by decide, barrier_of_guarded fullConfig ordersStreaming waitingRun hguarded⟩

/-- A row and a statement for the same table. The statement passes its flush before the write of the
row is counted, and both are written at the same time. -/
def overlappingRun : List Turn :=
  let env := answering (.result (some ordersTable))
  [.call ordersInsert, .step 0 env, .step 0 env,
    .call ordersDDL, .step 1 env, .step 1 env,
    .step 0 env, .step 0 env,
    .step 1 env, .step 1 env, .step 1 env]

theorem not_forall_barrier :
    ¬∀ (cfg : Config) (shared : Consumer) (turns : List Turn),
      ((traffic cfg).run (.start shared) turns).1.Barrier := by
  intro h
  have hrun := h fullConfig ordersStreaming overlappingRun
  revert hrun
  decide

-- A replay is not counted at all: a flush does not wait for the write that it has in progress.
set_option maxRecDepth 100000 in
example :
    let env := answering (.result (some ordersTable))
    ¬((traffic fullConfig).run (.start ordersStreaming)
      [.replay ⟨some (recordOf (numberedEvent 1)), [], 0⟩, .move 0 (.openFile true),
        .move 0 .checkContext, .move 0 (.readRecord true), .move 0 .send,
        .move 0 (.takeEvent true true), .call ordersDDL, .step 0 env, .step 0 env, .step 0 env,
        .step 0 env, .step 0 env]).1.Barrier := by
  decide

end DataStream.Lifecycle
