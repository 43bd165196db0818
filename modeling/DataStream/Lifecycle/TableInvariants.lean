import DataStream.Lifecycle.TableHistory

/-!
# Pausing and streaming

Two properties of every run of a task, however its operations are mixed. The state that a paused
table remembers is written by the pause and read by the resume, with any number of operations
between them; and a table gets to streaming only through a snapshot, or past an error by the
decision of an operator.

Both follow from what one call can do to a record (`Moved`), by induction over the calls on the
record of one table (`history_induction`).

* `pause_reversible`: a resume puts a table back in the state in which it was paused;
* `streaming_after_snapshot`: a streaming table has a snapshot, or an error of it was skipped.
-/

namespace DataStream.Lifecycle

open Event Source List Option RecordCall TableLifecycle

/-! ## Induction over the history of a table -/

/-- The change that a call on the record of a table makes. -/
def Change.of (id : TableID) (record : Option TableLifecycle) (call : RecordCall) : Change where
  id := id
  call := call
  before := record.map state
  after := (applyTo record call).map state

section Induction

variable {id : TableID} {motive : Option TableLifecycle → List Change → Prop}

/-- What the calls on a record preserve, and changes of other tables leave, every list of calls
preserves. -/
lemma records_induction
    (other : ∀ record changes c, c.id ≠ id → motive record changes → motive record (changes ++ [c]))
    (call : ∀ record changes call, motive record changes →
      motive (applyTo record call) (changes ++ [Change.of id record call]))
    (calls : List (TableID × RecordCall)) {store : LifecycleStore} {changes : List Change}
    (h : motive (store id) changes) :
    motive ((records.run store calls).1 id) (changes ++ (records.run store calls).2) := by
  induction calls generalizing store changes with
  | nil => simpa using h
  | cons next calls ih =>
    obtain ⟨target, c⟩ := next
    rw [Machine.run_cons, ← append_assoc]
    refine ih ?_
    by_cases hid : target = id
    · subst hid
      have hrecord : (records.step store (target, c)).1 target =
          applyTo (store target) c := Function.update_self _ _ _
      rw [hrecord]
      exact call _ _ c h
    · have hrecord : (records.step store (target, c)).1 id = store id :=
        Function.update_of_ne (Ne.symm hid) _ _
      rw [hrecord]
      exact other _ _ _ hid h

/-- The same for every run of a task: what holds before the first operation and is preserved by
every call on the record of a table holds after every operation. -/
theorem history_induction (start : motive none [])
    (other : ∀ record changes c, c.id ≠ id → motive record changes → motive record (changes ++ [c]))
    (call : ∀ record changes call, motive record changes →
      motive (applyTo record call) (changes ++ [Change.of id record call]))
    (cfg : Config) (task : TaskEntry) (tables : Schema.Tables)
    (ddlStates : Bytes → Bytes → Option DDLStateRow) (history : List SchemaHistoryRow)
    (ops : List Operation) :
    motive (((tableSystem cfg task).run (.start tables ddlStates history) ops).1.lifecycle id)
      ((tableSystem cfg task).run (.start tables ddlStates history) ops).2 := by
  refine (tableSystem cfg task).run_induction
    (motive := fun s changes => motive (s.lifecycle id) changes) ops start fun s changes op h => ?_
  dsimp only [tableSystem]
  split
  · simpa using h
  · rw [lifecycle_run]
    exact records_induction other call (op.calls cfg s) h

end Induction

/-! ## What a call does -/

/-- What a call can do to the state of a table. -/
inductive Moved (lc lc' : TableLifecycle) : RecordCall → Prop where
  | refused (call : RecordCall) (h : lc' = lc) : Moved lc lc' call
  | transition {target : TableState} {pos : Option Position} {allowed : List TableState}
      (hallowed : validTransitions lc.state = some allowed) (htarget : target ∈ allowed)
      (hstate : lc'.state = target) (hprevious : lc'.previousState = lc.state) :
      Moved lc lc' (.transitionTo target pos)
  | errored {msg : Bytes} (hstate : lc'.state = .error) : Moved lc lc' (.setError msg)
  | pending {call : RecordCall} (hstate : lc'.state = .pending) : Moved lc lc' call
  | paused (hfrom : lc.state = .catchingUp ∨ lc.state = .streaming) (hstate : lc'.state = .paused)
      (hprevious : lc'.previousState = lc.state) : Moved lc lc' .pause
  | resumed (hfrom : lc.state = .paused) (hstate : lc'.state = lc.previousState) :
      Moved lc lc' .resume
  | skipped (hfrom : lc.state = .error)
      (hstate : lc'.state = .catchingUp ∨ lc'.state = .streaming) : Moved lc lc' .skip

lemma skipTarget_cases (s : TableState) :
    Api.skipTarget s = .catchingUp ∨ Api.skipTarget s = .streaming := by
  cases s
  case pending => exact .inl rfl
  case snapshotting => exact .inl rfl
  all_goals exact .inr rfl

theorem moved_apply (lc : TableLifecycle) (call : RecordCall) : Moved lc (call.apply lc) call := by
  cases call with
  | register pos => exact .pending rfl
  | transitionTo target pos =>
    rw [apply]
    rcases htransition : lc.transitionTo target pos with err | lc'
    · exact .refused _ rfl
    · obtain ⟨⟨allowed, hallowed, htarget⟩, heq⟩ :=
        (transitionTo_eq_ok_iff lc lc' target pos).mp htransition
      rw [accepted, heq]
      exact .transition hallowed htarget rfl rfl
  | setError msg => exact .errored rfl
  | resetToPending pos =>
    rw [apply, TableLifecycle.resetToPending]
    split
    · exact .refused _ rfl
    · exact .pending rfl
  | pause =>
    rw [apply, TableLifecycle.pause]
    split
    · exact .refused _ rfl
    · next hfrom =>
      refine .paused ?_ rfl rfl
      by_contra hnot
      exact hfrom (not_or.mp hnot)
  | resume =>
    rw [apply, TableLifecycle.resume]
    split
    · exact .refused _ rfl
    · next hfrom => exact .resumed (not_not.mp hfrom) rfl
  | skip =>
    rw [apply]
    split
    · next hfrom => exact .skipped hfrom (skipTarget_cases _)
    · exact .refused _ rfl

/-! ## Pausing -/

variable {allowed : List TableState}

/-- Only two states have a transition to `paused`. -/
lemma transition_paused {state : TableState} (hallowed : validTransitions state = some allowed)
    (hpaused : .paused ∈ allowed) :
    state = .catchingUp ∨ state = .streaming := by
  revert hallowed
  cases state <;> simp [validTransitions] <;> rintro rfl <;> simp at hpaused

variable {lc lc' : TableLifecycle} {id : TableID} {record : Option TableLifecycle}
  {changes since : List Change} {c : Change}

/-- A call after which a table is paused has changed nothing, or paused it in one of the two
states. -/
lemma Moved.of_paused {call : RecordCall} (h : Moved lc lc' call) (hpaused : lc'.state = .paused)
    (hremembers : lc.state = .paused → lc.previousState ≠ .paused) :
    lc' = lc ∨ (lc.state = .catchingUp ∨ lc.state = .streaming) ∧ lc'.previousState = lc.state := by
  cases h with
  | refused _ heq => exact .inl heq
  | transition hallowed htarget hstate hprevious =>
    rw [← hstate, hpaused] at htarget
    exact .inr ⟨transition_paused hallowed htarget, hprevious⟩
  | paused hfrom _ hprevious => exact .inr ⟨hfrom, hprevious⟩
  | resumed hfrom hstate => exact absurd (hstate.symm.trans hpaused) (hremembers hfrom)
  | errored hstate | pending hstate | skipped _ hstate => simp [hpaused] at hstate

/-- The state in which a table was last paused. -/
def pausedFrom (id : TableID) (changes : List Change) : Option TableState :=
  changes.foldl (fun last c =>
    if c.id = id ∧ c.before ≠ some .paused ∧ c.after = some .paused then c.before else last) none

/-- A successful resume. -/
def Change.Resumes (c : Change) : Prop := c.call = .resume ∧ c.before = some .paused

lemma pausedFrom_concat (id : TableID) (changes : List Change) (c : Change) :
    pausedFrom id (changes ++ [c]) =
      if c.id = id ∧ c.before ≠ some .paused ∧ c.after = some .paused then c.before
      else pausedFrom id changes := by
  rw [pausedFrom, foldl_append]
  rfl

/-- A paused table remembers the state in which it was last paused, and every resume so far went
back there. -/
structure Reversible (id : TableID) (record : Option TableLifecycle) (changes : List Change) :
    Prop where
  remembered : ∀ lc, record = some lc → lc.state = .paused →
    (lc.previousState = .catchingUp ∨ lc.previousState = .streaming) ∧
      pausedFrom id changes = some lc.previousState
  restored : ∀ before c, before ++ [c] <+: changes → c.id = id → c.Resumes →
    ∃ state, pausedFrom id before = some state ∧ c.after = some state

/-- One more change of which nothing but the resumes matters. -/
lemma Reversible.concat {record' : Option TableLifecycle} (h : Reversible id record changes)
    (hremembered : ∀ lc, record' = some lc → lc.state = .paused →
      (lc.previousState = .catchingUp ∨ lc.previousState = .streaming) ∧
        pausedFrom id (changes ++ [c]) = some lc.previousState)
    (hrestored : c.id = id → c.Resumes →
      ∃ state, pausedFrom id changes = some state ∧ c.after = some state) :
    Reversible id record' (changes ++ [c]) := by
  refine ⟨hremembered, fun before d hpre hid hresumes => ?_⟩
  rcases prefix_concat_iff.mp hpre with heq | hpre
  · obtain ⟨rfl, hd⟩ := append_inj' heq rfl
    obtain rfl := singleton_inj.mp hd
    exact hrestored hid hresumes
  · exact h.restored before d hpre hid hresumes

lemma Reversible.other (hid : c.id ≠ id) (h : Reversible id record changes) :
    Reversible id record (changes ++ [c]) := by
  refine h.concat (fun lc hlc hpaused => ?_) fun heq => absurd heq hid
  rw [pausedFrom_concat, if_neg fun hall => hid hall.1]
  exact h.remembered lc hlc hpaused

lemma Reversible.call (h : Reversible id record changes) (call : RecordCall) :
    Reversible id (applyTo record call) (changes ++ [Change.of id record call]) := by
  rcases record with _ | lc
  · -- Without a record there is nothing to pause; a new record is pending.
    refine h.concat (fun lc hlc hpaused => ?_) fun _ hresumes => ?_
    · cases call with
      | register pos =>
        rw [← some.inj hlc] at hpaused
        simp [new] at hpaused
      | _ => exact absurd hlc (some_ne_none lc).symm
    · exact absurd hresumes.2 (some_ne_none _).symm
  have happly : applyTo (some lc) call = some (call.apply lc) := by
    cases call <;> rfl
  have hbefore : (Change.of id (some lc) call).before = some lc.state := rfl
  have hafter : (Change.of id (some lc) call).after = some (call.apply lc).state := by
    rw [Change.of, happly]
    rfl
  rw [happly]
  refine h.concat (fun lc' hlc' hpaused => ?_) fun _ hresumes => ?_
  · obtain rfl : call.apply lc = lc' := some.inj hlc'
    have hremembers : lc.state = .paused → lc.previousState ≠ .paused := fun hfrom => by
      rcases (h.remembered lc rfl hfrom).1 with hprevious | hprevious <;> simp [hprevious]
    rw [pausedFrom_concat, hbefore, hafter, hpaused]
    rcases (moved_apply lc call).of_paused hpaused hremembers with heq | ⟨hfrom, hprevious⟩
    · rw [heq] at hpaused ⊢
      rw [if_neg (by simp [hpaused])]
      exact h.remembered lc rfl hpaused
    · rw [hprevious]
      refine ⟨hfrom, if_pos ⟨rfl, ?_, rfl⟩⟩
      rcases hfrom with hfrom | hfrom <;> simp [hfrom]
  · obtain ⟨hcall, hfrom⟩ := hresumes
    have hpaused : lc.state = .paused := some.inj (hbefore.symm.trans hfrom)
    obtain ⟨-, hremembered⟩ := h.remembered lc rfl hpaused
    refine ⟨lc.previousState, hremembered, ?_⟩
    have hresume : call = .resume := hcall
    rw [hafter, hresume, apply, TableLifecycle.resume, if_neg (not_not.mpr hpaused)]
    rfl

/-- **Pausing is reversible.** In every run of scheduler operations, transitions, requests of the
API and `Route` calls: a paused table remembers `catching_up` or `streaming`, and every successful
resume, by a request or for a retry, puts the table back in the state in which it was last
paused. -/
theorem pause_reversible (cfg : Config) (task : TaskEntry) (tables : Schema.Tables)
    (ddlStates : Bytes → Bytes → Option DDLStateRow) (history : List SchemaHistoryRow)
    (ops : List Operation) :
    let r := (tableSystem cfg task).run (.start tables ddlStates history) ops
    (∀ id lc, r.1.lifecycle id = some lc → lc.state = .paused →
      lc.previousState = .catchingUp ∨ lc.previousState = .streaming) ∧
    ∀ before c, before ++ [c] <+: r.2 → c.Resumes →
      ∃ state, pausedFrom c.id before = some state ∧ c.after = some state := by
  intro r
  have hreversible : ∀ id, Reversible id (r.1.lifecycle id) r.2 := fun id =>
    history_induction (motive := Reversible id)
      ⟨fun lc hlc => absurd hlc (some_ne_none lc).symm, fun before c hpre => by simp at hpre⟩
      (fun _ _ _ hid h => h.other hid) (fun _ _ call h => h.call call) cfg task tables ddlStates
      history ops
  exact ⟨fun id lc hlc hpaused => ((hreversible id).remembered lc hlc hpaused).1,
    fun before c hpre hresumes => (hreversible c.id).restored before c hpre rfl hresumes⟩

/-! ## Streaming -/

def sincePending (id : TableID) (changes : List Change) : List Change :=
  changes.foldl (fun since c =>
    if c.id ≠ id then since else if c.after = some .pending then [] else since ++ [c]) []

namespace Change

def Enters (c : Change) (state : TableState) : Prop := c.before ≠ some state ∧ c.after = some state

/-- A caught-up notification is accepted: the transition to `streaming`, which `OnCaughtUp`
makes. -/
def CaughtUp (c : Change) : Prop :=
  (∃ pos, c.call = .transitionTo .streaming pos) ∧ c.before = some .catchingUp ∧
    c.after = some .streaming

/-- An operator skips an error of the table. -/
def SkipsError (c : Change) : Prop := c.call = .skip ∧ c.before = some .error

end Change

def Skipped (since : List Change) : Prop := ∃ c ∈ since, c.SkipsError

def Snapshotted (since : List Change) : Prop := ∃ a, [a].Sublist since ∧ a.Enters .snapshotting

/-- The table entered `snapshotting`, and then `catching_up`. -/
def CatchingUp (since : List Change) : Prop :=
  ∃ a b, [a, b].Sublist since ∧ a.Enters .snapshotting ∧ b.Enters .catchingUp

/-- The table entered `snapshotting`, then `catching_up`, and then a caught-up notification was
accepted. -/
def CompletedSnapshot (since : List Change) : Prop :=
  ∃ a b c, [a, b, c].Sublist since ∧ a.Enters .snapshotting ∧ b.Enters .catchingUp ∧ c.CaughtUp

section Since

variable {since : List Change} {c : Change}

lemma Skipped.concat (h : Skipped since) (c : Change) : Skipped (since ++ [c]) := by
  obtain ⟨d, hd, hskips⟩ := h
  exact ⟨d, mem_append_left _ hd, hskips⟩

lemma Snapshotted.concat (h : Snapshotted since) (c : Change) : Snapshotted (since ++ [c]) := by
  obtain ⟨a, hsub, ha⟩ := h
  exact ⟨a, hsub.trans (sublist_append_left _ _), ha⟩

lemma CatchingUp.concat (h : CatchingUp since) (c : Change) : CatchingUp (since ++ [c]) := by
  obtain ⟨a, b, hsub, hab⟩ := h
  exact ⟨a, b, hsub.trans (sublist_append_left _ _), hab⟩

lemma CompletedSnapshot.concat (h : CompletedSnapshot since) (c : Change) :
    CompletedSnapshot (since ++ [c]) := by
  obtain ⟨a, b, d, hsub, habd⟩ := h
  exact ⟨a, b, d, hsub.trans (sublist_append_left _ _), habd⟩

lemma Snapshotted.enters (h : Snapshotted since) (hc : c.Enters .catchingUp) :
    CatchingUp (since ++ [c]) := by
  obtain ⟨a, hsub, ha⟩ := h
  exact ⟨a, c, hsub.append (List.Sublist.refl [c]), ha, hc⟩

lemma CatchingUp.caughtUp (h : CatchingUp since) (hc : c.CaughtUp) :
    CompletedSnapshot (since ++ [c]) := by
  obtain ⟨a, b, hsub, ha, hb⟩ := h
  exact ⟨a, b, c, hsub.append (List.Sublist.refl [c]), ha, hb, hc⟩

end Since

/-- How far a table must have come to be in its state; a paused one, in the state that it
remembers. -/
def Reached (lc : TableLifecycle) (since : List Change) : Prop :=
  match lc.state with
  | .snapshotting => Snapshotted since
  | .catchingUp => CatchingUp since
  | .streaming => CompletedSnapshot since
  | .paused =>
    lc.previousState = .catchingUp ∧ CatchingUp since ∨
      lc.previousState = .streaming ∧ CompletedSnapshot since
  | _ => True

/-- What the state of a table says about the time since it was last pending. -/
def Explained (id : TableID) (record : Option TableLifecycle) (changes : List Change) : Prop :=
  ∀ lc, record = some lc → Skipped (sincePending id changes) ∨ Reached lc (sincePending id changes)

lemma sincePending_concat (id : TableID) (changes : List Change) (c : Change) :
    sincePending id (changes ++ [c]) =
      if c.id ≠ id then sincePending id changes
      else if c.after = some .pending then [] else sincePending id changes ++ [c] := by
  rw [sincePending, foldl_append]
  rfl

lemma Reached.concat (h : Reached lc since) (c : Change) : Reached lc (since ++ [c]) := by
  unfold Reached at h ⊢
  split
  · exact Snapshotted.concat (by simpa [*] using h) c
  · exact CatchingUp.concat (by simpa [*] using h) c
  · exact CompletedSnapshot.concat (by simpa [*] using h) c
  · next hpaused =>
    simp only [hpaused] at h
    exact h.imp (fun h => ⟨h.1, h.2.concat c⟩) fun h => ⟨h.1, h.2.concat c⟩
  · trivial

/-- What a transition leads to, one case for each transition of the table. -/
lemma Reached.transition {pos : Option Position} (h : Reached lc since)
    (hallowed : validTransitions lc.state = some allowed) (htarget : lc'.state ∈ allowed)
    (hprevious : lc'.previousState = lc.state) (hcall : c.call = .transitionTo lc'.state pos)
    (hbefore : c.before = some lc.state) (hafter : c.after = some lc'.state) :
    Reached lc' (since ++ [c]) := by
  unfold Reached at h ⊢
  rw [hprevious]
  generalize lc'.state = target at htarget hcall hafter ⊢
  rcases hfrom : lc.state with _ | _ | _ | _ | _ | _ | _
  all_goals
    rw [hfrom] at hallowed hbefore h
    simp only [validTransitions, some.injEq, reduceCtorEq] at hallowed
    try subst hallowed
    try simp only [mem_cons, not_mem_nil, or_false] at htarget
  · subst htarget
    exact ⟨_, sublist_append_right _ _, by simp [hbefore], hafter⟩
  · rcases htarget with rfl | rfl
    · exact Snapshotted.enters h ⟨by simp [hbefore], hafter⟩
    · trivial
  · rcases htarget with rfl | rfl | rfl | rfl
    · exact CatchingUp.caughtUp h ⟨⟨pos, hcall⟩, hbefore, hafter⟩
    · exact CatchingUp.concat h c
    · trivial
    · exact .inl ⟨rfl, CatchingUp.concat h c⟩
  · rcases htarget with rfl | rfl
    · trivial
    · exact .inr ⟨rfl, CompletedSnapshot.concat h c⟩

/-- What a call that was not refused leads to, from what has been reached. -/
lemma Reached.moved {call : RecordCall} (h : Reached lc since) (hmoved : Moved lc lc' call)
    (hcall : c.call = call) (hbefore : c.before = some lc.state)
    (hafter : c.after = some lc'.state) :
    Skipped (since ++ [c]) ∨ Reached lc' (since ++ [c]) := by
  cases hmoved with
  | refused _ heq =>
    rw [heq]
    exact .inr (h.concat c)
  | transition hallowed htarget hstate hprevious =>
    subst hstate
    exact .inr (h.transition hallowed htarget hprevious hcall hbefore hafter)
  | errored hstate | pending hstate =>
    right
    rw [Reached, hstate]
    trivial
  | paused hfrom hstate hprevious =>
    right
    unfold Reached at h ⊢
    rw [hstate, hprevious]
    rcases hfrom with hfrom | hfrom <;> rw [hfrom] at h ⊢
    · exact .inl ⟨rfl, CatchingUp.concat h c⟩
    · exact .inr ⟨rfl, CompletedSnapshot.concat h c⟩
  | resumed hfrom hstate =>
    right
    unfold Reached at h ⊢
    rw [hfrom] at h
    rw [hstate]
    rcases h with ⟨hprevious, h⟩ | ⟨hprevious, h⟩ <;> rw [hprevious] <;> exact h.concat c
  | skipped hfrom _ =>
    left
    refine ⟨c, mem_append_right _ (mem_singleton_self c), hcall, ?_⟩
    rw [hbefore, hfrom]

lemma Explained.other (hid : c.id ≠ id) (h : Explained id record changes) :
    Explained id record (changes ++ [c]) := by
  unfold Explained
  rw [sincePending_concat, if_pos hid]
  exact h

lemma Explained.call (h : Explained id record changes) (call : RecordCall) :
    Explained id (applyTo record call) (changes ++ [Change.of id record call]) := by
  intro lc' hlc'
  have hafter : (Change.of id record call).after = some lc'.state := by
    rw [Change.of, hlc']
    rfl
  have hself : ¬(Change.of id record call).id ≠ id := not_not.mpr rfl
  rw [sincePending_concat, if_neg hself, hafter]
  by_cases hpending : lc'.state = .pending
  · -- A pending table has nothing to explain.
    right
    rw [Reached, hpending]
    trivial
  rw [if_neg fun heq => hpending (some.inj heq)]
  rcases record with _ | lc
  · -- Only a registration makes a record, and the table is then pending.
    cases call with
    | register pos => exact absurd (some.inj hlc' ▸ rfl) hpending
    | _ => exact absurd hlc' (some_ne_none lc').symm
  · have happly : call.apply lc = lc' := by
      cases call <;> exact some.inj hlc'
    have hmoved := moved_apply lc call
    rw [happly] at hmoved
    rcases h lc rfl with hskipped | hreached
    · exact .inl (hskipped.concat _)
    · exact hreached.moved hmoved rfl rfl hafter

/-- **Streaming implies a completed snapshot.** In every run of scheduler operations, transitions,
requests of the API and `Route` calls: since it was last pending, a streaming table has either had
an error skipped by an operator, or entered `snapshotting`, then `catching_up`, and then a caught-up
notification was accepted for it. -/
theorem streaming_after_snapshot (cfg : Config) (task : TaskEntry) (tables : Schema.Tables)
    (ddlStates : Bytes → Bytes → Option DDLStateRow) (history : List SchemaHistoryRow)
    (ops : List Operation) (id : TableID) (lc : TableLifecycle)
    (hlc : ((tableSystem cfg task).run (.start tables ddlStates history) ops).1.lifecycle id =
      some lc)
    (hstreaming : lc.state = .streaming) :
    let since := sincePending id
      ((tableSystem cfg task).run (.start tables ddlStates history) ops).2
    Skipped since ∨ CompletedSnapshot since := by
  have hexplained : Explained id
      (((tableSystem cfg task).run (.start tables ddlStates history) ops).1.lifecycle id)
      ((tableSystem cfg task).run (.start tables ddlStates history) ops).2 :=
    history_induction (motive := Explained id)
      (fun lc hlc => absurd hlc (some_ne_none lc).symm)
      (fun _ _ _ hid h => h.other hid) (fun _ _ call h => h.call call) cfg task tables ddlStates
      history ops
  refine (hexplained lc hlc).imp_right fun hreached => ?_
  rw [Reached, hstreaming] at hreached
  exact hreached

/-- A table that is registered, takes its snapshot, catches up, and is paused and resumed. -/
def snapshotAndPause (id : TableID) : List Operation :=
  [.addTable id none, .transitionTo id .snapshotting none, .onSnapshotComplete id, .onCaughtUp id,
    .pauseTable id, .resumeTable id]

/-- A consumer without the handling of DDL statements. -/
def plainConfig : Config := { sourceType := 1, hasDDLHandling := false, hasDDLStore := false }

/-- The run ends with a streaming table, whose history has a completed snapshot or a skipped
error. -/
theorem streaming_after_snapshotAndPause :
    let orders : TableID := { database := lit "shop", schema := [], table := lit "orders" }
    let since := sincePending orders ((tableSystem plainConfig ⟨lit "\"task\"", true⟩).run
      (.start .empty (fun _ _ => none) []) (snapshotAndPause orders)).2
    since.length = 5 ∧ (Skipped since ∨ CompletedSnapshot since) := by
  intro orders since
  refine ⟨by decide, ?_⟩
  exact streaming_after_snapshot plainConfig ⟨lit "\"task\"", true⟩ .empty (fun _ _ => none) []
    (snapshotAndPause orders) orders
    { new with state := .streaming, previousState := .paused } (by decide) rfl

end DataStream.Lifecycle
