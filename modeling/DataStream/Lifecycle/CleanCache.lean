import DataStream.Cache.LocalBackend
import DataStream.Lifecycle.FailedDDL
import DataStream.Lifecycle.TableHistory

/-!
# The cache at the start of a snapshot

A table that is registered or restarted becomes pending, and takes a new snapshot when it is moved
to `snapshotting`. What its cache holds then is replayed after the snapshot, so it should hold
nothing that was offered before the table became pending.

Three activities are interleaved: the calls of the scheduler, one at a time, in which a restart
resets the state of a table in one step and removes its cache file in the next; the transitions to
`snapshotting`, which do not take the scheduler's lock; and any number of `Route` calls, each of
which decides by the state of the table in one step and writes to the cache in a later one.

* `clean_of_orderly`: in every orderly run every snapshot starts with a clean cache.
-/

namespace DataStream.Lifecycle

open Event Source Cache List Option Function SnapshotScheduler

/-! ## The cache, with the time of each offer -/

/-- A cached event, and when it was offered to `Route`, which is not stored. -/
structure CachedEvent where
  event : CacheEvent
  offered : ℕ

/-- `LocalBackend`, with the events of each file in place of its bytes. -/
structure OfferedCache where
  files : Bytes → Option (List CachedEvent)
  handles : Bytes → Option Handle

namespace OfferedCache

def empty : OfferedCache := { files := fun _ => none, handles := fun _ => none }

variable (c : OfferedCache) (tableID : Bytes)

/-- The events in the file that a table id is read from. -/
def content : List CachedEvent := (c.files (fileName tableID)).getD []

def getFile : OfferedCache :=
  match c.handles tableID with
  | some _ => c
  | none =>
    { files := update c.files (fileName tableID) (some (c.content tableID))
      handles := update c.handles tableID (some .attached) }

/-- A write to the handle of a table, which appends. -/
def append (ev : CachedEvent) : OfferedCache :=
  match c.handles tableID with
  | some .attached =>
    let events := (c.files (fileName tableID)).map (· ++ [ev])
    { c with files := update c.files (fileName tableID) events }
  | _ => c

/-- `Write`; an event whose record cannot be built is not written. -/
def write (ev : CachedEvent) : OfferedCache :=
  if (encodeRecord ev.event.marshal).isSome then (c.getFile tableID).append tableID ev
  else c.getFile tableID

def delete : OfferedCache where
  files := update c.files (fileName tableID) none
  handles := fun other =>
    if other = tableID then none
    else if fileName other = fileName tableID then (c.handles other).map fun _ => .orphaned
    else c.handles other

/-- The bytes of a file. -/
def bytes (events : List CachedEvent) : Bytes :=
  (events.filterMap fun ev => encodeRecord ev.event.marshal).flatten

/-- The backend, without the times. -/
def erase : LocalBackend where
  files := fun name => (c.files name).map bytes
  handles := c.handles

lemma erase_content : c.erase.content tableID = (c.files (fileName tableID)).map bytes := rfl

variable {ev : CachedEvent} {other : Bytes}

lemma erase_update (events : Option (List CachedEvent)) (handles : Bytes → Option Handle) :
    erase { files := update c.files (fileName tableID) events, handles } =
      { files := update c.erase.files (fileName tableID) (events.map bytes), handles } := by
  simp only [erase, LocalBackend.mk.injEq, and_true]
  funext name
  by_cases hname : name = fileName tableID
  · subst hname
    simp
  · simp [hname]

lemma erase_getFile : (c.getFile tableID).erase = c.erase.getFile tableID := by
  unfold getFile LocalBackend.getFile
  cases hhandle : c.handles tableID with
  | some handle => rw [show c.erase.handles tableID = some handle from hhandle]
  | none =>
    have hbytes : bytes (c.content tableID) = (c.erase.content tableID).getD [] := by
      rw [erase_content, content]
      cases c.files (fileName tableID) <;> rfl
    rw [show c.erase.handles tableID = none from hhandle, erase_update, map_some, hbytes]
    rfl

lemma erase_append {record : Bytes} (h : encodeRecord ev.event.marshal = some record) :
    (c.append tableID ev).erase = c.erase.append tableID record := by
  have hmap : ((c.files (fileName tableID)).map (· ++ [ev])).map bytes =
      (c.erase.content tableID).map (· ++ record) := by
    rw [erase_content]
    cases c.files (fileName tableID) with
    | none => rfl
    | some events => exact congrArg some (by simp [bytes, h])
  unfold append LocalBackend.append
  rw [show c.erase.handles tableID = c.handles tableID from rfl]
  rcases c.handles tableID with - | - | -
  · rfl
  · exact (erase_update c tableID _ _).trans (by rw [hmap]; rfl)
  · rfl

theorem erase_write (ev : CachedEvent) :
    (c.write tableID ev).erase = (c.erase.write tableID ev.event).1 := by
  unfold write LocalBackend.write
  cases h : encodeRecord ev.event.marshal with
  | none => exact erase_getFile c tableID
  | some record => exact (erase_append _ tableID h).trans (by rw [erase_getFile]; rfl)

theorem erase_delete : (c.delete tableID).erase = c.erase.delete tableID :=
  erase_update c tableID none _

/-! ### What a call does to the events of a file -/

lemma content_delete {tableID : Bytes} (h : fileName other = fileName tableID) :
    (c.delete tableID).content other = [] := by
  simp [content, delete, h]

lemma mem_content_of_mem_delete {tableID : Bytes} (h : ev ∈ (c.delete tableID).content other) :
    ev ∈ c.content other := by
  by_cases hname : fileName other = fileName tableID
  · rw [content_delete c hname] at h
    exact absurd h not_mem_nil
  · simpa [content, delete, hname] using h

@[simp]
lemma content_getFile (other : Bytes) : (c.getFile tableID).content other = c.content other := by
  unfold getFile
  cases c.handles tableID with
  | some handle => rfl
  | none =>
    by_cases hname : fileName other = fileName tableID
    · simp [content, hname]
    · simp [content, hname]

/-- After a write a file has its old events, and perhaps the new one. -/
lemma mem_content_of_mem_write {tableID : Bytes} {ev' : CachedEvent}
    (h : ev' ∈ (c.write tableID ev).content other) :
    ev' ∈ c.content other ∨ fileName tableID = fileName other ∧ ev' = ev := by
  -- Opening the file changes no content, so it is about the append alone.
  suffices happend : ∀ c : OfferedCache, ev' ∈ (c.append tableID ev).content other →
      ev' ∈ c.content other ∨ fileName tableID = fileName other ∧ ev' = ev by
    unfold write at h
    split_ifs at h
    · simpa using happend _ h
    · exact .inl (by simpa using h)
  intro c h
  unfold append at h
  rcases hhandle : c.handles tableID with - | - | - <;> rw [hhandle] at h
  · exact .inl h
  · by_cases hname : fileName other = fileName tableID
    · cases hfile : c.files (fileName tableID) with
      | none => simp [content, hname, hfile] at h
      | some events =>
        simp only [content, hname, hfile, update_self, map_some, getD_some,
          mem_append, mem_singleton] at h
        refine h.imp (fun hold => ?_) fun hnew => ⟨hname.symm, hnew⟩
        simpa [content, hname, hfile] using hold
    · simp only [content, update_of_ne hname] at h
      exact .inl h
  · exact .inl h

end OfferedCache

/-! ## The program -/

/-- A write to the cache that a `Route` call has decided on. -/
structure CacheWrite where
  tableID : Bytes
  ev : CachedEvent

/-- A call of `RestartTable` or `RestartSchema` that holds the lock of the scheduler. -/
structure Restart where
  newPos : Option Position
  force : Bool
  /-- The table that was reset, and whose cache is to be removed next. -/
  deleting : Option TableID
  /-- The tables that are still to be reset. -/
  rest : List TableID

/-- The state of the scheduler, the consumer and the cache. -/
structure Scheduling where
  consumer : Consumer
  cache : OfferedCache
  /-- The writes of `Route` calls that have not returned. -/
  inflight : List CacheWrite
  /-- The call that holds the lock, if any. -/
  restart : Option Restart
  clock : ℕ
  pendingSince : TableID → ℕ

inductive SchedulingInput where
  | addTable (id : TableID) (snapshotPos : Option Position)
  /-- `RestartTable` takes the lock. -/
  | restartTable (id : TableID) (newPos : Option Position) (force : Bool)
  /-- `RestartSchema` takes the lock and lists the tables; `order` is the order of the map. -/
  | restartSchema (schema : Bytes) (newPos : Option Position) (force : Bool) (order : List TableID)
  /-- The restart at hand resets the next table, or removes the cache of the last one, or is
  done. -/
  | proceed
  | snapshot (id : TableID) (pos : Option Position)
  /-- `Route` is called and decides, with these answers of the services. -/
  | offer (env : Env) (ev : ChangeEvent)
  /-- One of the `Route` calls does its write. -/
  | perform (i : ℕ)

namespace Scheduling

/-- No table, no cache, no call. -/
def start (consumer : Consumer) : Scheduling where
  consumer := { consumer with lifecycle := fun _ => none }
  cache := .empty
  inflight := []
  restart := none
  clock := 0
  pendingSince := fun _ => 0

variable (cfg : Config) (task : TaskEntry) (s : Scheduling)

def setLifecycle (store : LifecycleStore) : Scheduling :=
  { s with consumer := { s.consumer with lifecycle := store } }

def markPending (id : TableID) : Scheduling :=
  { s with pendingSince := update s.pendingSince id s.clock }

/-- The writes to the cache among the effects of a `Route` call. -/
def writes (now : ℕ) (effects : List Effect) : List CacheWrite :=
  effects.filterMap fun
    | .cacheWrite tableID _ ce => some ⟨tableID, ⟨ce, now⟩⟩
    | _ => none

def proceed (r : Restart) : Scheduling :=
  match r.deleting with
  | some id =>
    { s with
      cache := s.cache.delete id.toBytes
      restart := some { r with deleting := none } }
  | none =>
    match r.rest with
    | [] => { s with restart := none }
    | id :: rest =>
      match restartTable task s.consumer.lifecycle id r.newPos r.force with
      | .ok store =>
        { (s.setLifecycle store).markPending id with
          restart := some { r with deleting := some id, rest } }
      -- `RestartTable` returns the error; `RestartSchema` goes on with the next table.
      | .error _ => { s with restart := some { r with rest } }

def snapshot (id : TableID) (pos : Option Position) : Scheduling :=
  match s.consumer.lifecycle id with
  | none => s
  | some lc =>
    match lc.transitionTo .snapshotting pos with
    | .ok lc => s.setLifecycle (update s.consumer.lifecycle id (some lc))
    | .error _ => s

/-- What one step does, apart from the clock. -/
def act : SchedulingInput → Scheduling
  | .addTable id snapshotPos =>
    match s.restart with
    | some _ => s
    | none =>
      (s.setLifecycle (addTable s.consumer.lifecycle id snapshotPos)).markPending id
  | .restartTable id newPos force =>
    match s.restart with
    | some _ => s
    | none => { s with restart := some { newPos, force, deleting := none, rest := [id] } }
  | .restartSchema schema newPos force order =>
    match s.restart with
    | some _ => s
    | none =>
      let tables := order.filter fun id => id.database = schema && (s.consumer.lifecycle id).isSome
      { s with restart := some { newPos, force, deleting := none, rest := tables } }
  | .proceed =>
    match s.restart with
    | some r => s.proceed task r
    | none => s
  | .snapshot id pos => s.snapshot id pos
  | .offer env ev =>
    if s.consumer.crashed then s
    else
      let r := route cfg env s.consumer ev
      { s with consumer := r.state, inflight := s.inflight ++ writes s.clock r.effects }
  | .perform i =>
    match s.inflight[i]? with
    | some w => { s with cache := s.cache.write w.tableID w.ev, inflight := s.inflight.eraseIdx i }
    | none => s

/-- All interleavings. -/
def machine : Machine Scheduling SchedulingInput Empty where
  step s i := ({ s.act cfg task i with clock := s.clock + 1 }, [])

/-! ## Clean snapshots -/

/-- The state of a table. -/
def stateOf (id : TableID) : Option TableState := (s.consumer.lifecycle id).map TableLifecycle.state

/-- Every table that enters `snapshotting` between two states has a cache without an event from
before it became pending. -/
def CleanBetween (s s' : Scheduling) : Prop :=
  ∀ id, s.stateOf id ≠ some .snapshotting → s'.stateOf id = some .snapshotting →
    ∀ ev ∈ s'.cache.content id.toBytes, s'.pendingSince id ≤ ev.offered

/-- In a run every snapshot starts with a clean cache. -/
def Clean (is : List SchedulingInput) : Prop :=
  (machine cfg task).Meets (fun s i => CleanBetween s ((machine cfg task).step s i).1) s is

/-- The steps that keep old events apart from new snapshots. A table is registered when there is
nothing in its cache and no `Route` call is about to write to it; when a restart removes the cache
of a table, no `Route` call from before the reset is about to write to it; and no table enters
`snapshotting` while its restart has yet to remove the cache. Tables with one file name share their
cache. -/
def Orderly : SchedulingInput → Prop
  | .addTable id _ =>
    s.restart = none → s.cache.content id.toBytes = [] ∧
      ∀ w ∈ s.inflight, fileName w.tableID ≠ fileName id.toBytes
  | .proceed =>
    ∀ r, s.restart = some r → ∀ id, r.deleting = some id →
      ∀ w ∈ s.inflight, fileName w.tableID = fileName id.toBytes → s.pendingSince id ≤ w.ev.offered
  | .snapshot id _ => ∀ r, s.restart = some r → r.deleting ≠ some id
  | _ => True

end Scheduling

open Scheduling

/-! ## What `Route` does to the records

A failed statement pauses its table and a retry resumes it, so `Route` changes records too. It never
moves a table to `snapshotting`, because only tables that are catching up or streaming are
paused. -/

/-- A paused table resumes to catching up or streaming. -/
def Resumable (lc : TableLifecycle) : Prop :=
  lc.state = .paused → lc.previousState = .catchingUp ∨ lc.previousState = .streaming

/-- Every record that is new is resumable and not of a table in its snapshot. -/
def Calm (store store' : LifecycleStore) : Prop :=
  ∀ id lc, store' id = some lc → store id = some lc ∨ Resumable lc ∧ lc.state ≠ .snapshotting

namespace Calm

lemma refl (store : LifecycleStore) : Calm store store := fun _ _ h => .inl h

lemma trans {store₁ store₂ store₃ : LifecycleStore} (h : Calm store₁ store₂)
    (h' : Calm store₂ store₃) : Calm store₁ store₃ := by
  intro id lc hlc
  rcases h' id lc hlc with hold | hnew
  · exact h id lc hold
  · exact .inr hnew

lemma resumable {store store' : LifecycleStore} (h : Calm store store')
    (hstore : ∀ id lc, store id = some lc → Resumable lc) :
    ∀ id lc, store' id = some lc → Resumable lc := by
  intro id lc hlc
  rcases h id lc hlc with hold | hnew
  · exact hstore id lc hold
  · exact hnew.1

lemma update {store : LifecycleStore} (id : TableID) {lc : TableLifecycle}
    (hlc : Resumable lc) (hstate : lc.state ≠ .snapshotting) :
    Calm store (update store id (some lc)) := by
  intro id' lc' hlc'
  by_cases hid : id' = id
  · subst hid
    rw [update_self] at hlc'
    obtain rfl := some.inj hlc'
    exact .inr ⟨hlc, hstate⟩
  · rw [update_of_ne hid] at hlc'
    exact .inl hlc'

lemma changeRecord {store : LifecycleStore} {id : TableID}
    {f : TableLifecycle → Except TransitionError TableLifecycle}
    (hf : ∀ lc lc', store id = some lc → f lc = .ok lc' →
      Resumable lc' ∧ lc'.state ≠ .snapshotting) :
    Calm store (Lifecycle.changeRecord store id f) := by
  unfold Lifecycle.changeRecord
  cases hid : store id with
  | none => exact refl _
  | some lc =>
    dsimp only
    cases hlc : f lc with
    | error err =>
      rw [RecordCall.accepted, ← hid, update_eq_self]
      exact refl _
    | ok lc' =>
      obtain ⟨hresumable, hstate⟩ := hf lc lc' hid hlc
      exact update id hresumable hstate

lemma pause (store : LifecycleStore) (id : TableID) :
    Calm store (records.run store [(id, .pause)]).1 := by
  rw [records_run_eq_changed (f := TableLifecycle.pause) (by simp) fun _ => rfl]
  refine changeRecord fun lc lc' _ hpause => ?_
  unfold TableLifecycle.pause at hpause
  split_ifs at hpause with hstate
  obtain rfl := Except.ok.inj hpause
  simp only [not_and_or, not_not] at hstate
  exact ⟨fun _ => hstate, nofun⟩

lemma resume {store : LifecycleStore} (hstore : ∀ id lc, store id = some lc → Resumable lc)
    (id : TableID) : Calm store (records.run store [(id, .resume)]).1 := by
  rw [records_run_eq_changed (f := TableLifecycle.resume) (by simp) fun _ => rfl]
  refine changeRecord fun lc lc' hlc hresume => ?_
  unfold TableLifecycle.resume at hresume
  split_ifs at hresume with hstate
  obtain rfl := Except.ok.inj hresume
  rcases hstore id lc hlc (not_not.mp hstate) with hprevious | hprevious <;>
    simp [Resumable, hprevious]

end Calm

open Calm

variable (cfg : Config) (env : Env)

lemma calm_handleDDLCalls (store : LifecycleStore) (s : Consumer) (ev : ChangeEvent) :
    Calm store (records.run store (handleDDLCalls cfg env s ev)).1 := by
  unfold handleDDLCalls
  split_ifs
  · exact pause _ _
  · exact refl _

/-- `Route` makes no other calls on the records than a pause and a resume. -/
lemma calm_route {s : Consumer} (hs : ∀ id lc, s.lifecycle id = some lc → Resumable lc)
    (ev : ChangeEvent) : Calm s.lifecycle (route cfg env s ev).state.lifecycle := by
  rw [lifecycle_route, Operation.calls]
  split_ifs
  · exact calm_handleDDLCalls cfg env _ s ev
  · unfold checkDDLStateCalls
    split_ifs
    · exact refl _
    · cases s.ddlStates ev.table.database ev.table.table with
      | none => exact refl _
      | some row =>
        dsimp only
        split_ifs
        · exact refl _
        · cases s.lifecycle (ddlTableID ev.table.database ev.table.table) with
          | none => exact refl _
          | some lc => exact (resume hs _).trans (calm_handleDDLCalls cfg env _ _ _)

namespace Scheduling

/-! ## Nothing old in the cache -/

/-- A restart has reset the table and has yet to remove its cache. -/
def Deleting (s : Scheduling) (id : TableID) : Prop :=
  ∃ r, s.restart = some r ∧ r.deleting = some id

variable {s : Scheduling} {id : TableID}

lemma deleting_iff {r : Restart} (hr : s.restart = some r) :
    s.Deleting id ↔ r.deleting = some id := by
  constructor
  · rintro ⟨r', hr', hid⟩
    obtain rfl := some.inj (hr.symm.trans hr')
    exact hid
  · exact fun hid => ⟨r, hr, hid⟩

/-- Outside of its restart, nothing in or on the way to the cache of a table was offered before it
became pending. -/
structure Fresh (s : Scheduling) : Prop where
  clock : ∀ id, s.pendingSince id ≤ s.clock
  cached : ∀ id, ¬ s.Deleting id → ∀ ev ∈ s.cache.content id.toBytes, s.pendingSince id ≤ ev.offered
  inflight : ∀ id, ¬ s.Deleting id → ∀ w ∈ s.inflight, fileName w.tableID = fileName id.toBytes →
    s.pendingSince id ≤ w.ev.offered
  resumable : ∀ id lc, s.consumer.lifecycle id = some lc → Resumable lc

lemma fresh_start (consumer : Consumer) : Fresh (start consumer) where
  clock _ := le_rfl
  cached _ _ _ hev := absurd hev not_mem_nil
  inflight _ _ _ hw := absurd hw not_mem_nil
  resumable _ lc hlc := absurd hlc (some_ne_none lc).symm

lemma snapshot_eq (s : Scheduling) (id : TableID) (pos : Option Position) :
    ∃ store, s.snapshot id pos = s.setLifecycle store ∧
      (∀ id', id' ≠ id → store id' = s.consumer.lifecycle id') ∧
      ∀ lc, store id = some lc → s.consumer.lifecycle id = some lc ∨ lc.state = .snapshotting := by
  unfold snapshot
  split
  · exact ⟨s.consumer.lifecycle, rfl, fun _ _ => rfl, fun _ => .inl⟩
  · split
    · next lc' hlc =>
      refine ⟨_, rfl, fun id' hid' => update_of_ne hid' _ _, fun lc hid => ?_⟩
      rw [update_self] at hid
      obtain ⟨-, rfl⟩ := (TableLifecycle.transitionTo_eq_ok_iff ..).mp hlc
      exact .inr (some.inj hid ▸ rfl)
    · exact ⟨s.consumer.lifecycle, rfl, fun _ _ => rfl, fun _ => .inl⟩

lemma resumable_of_state {lc : TableLifecycle} {state : TableState} (h : lc.state = state)
    (hstate : state ≠ .paused) : Resumable lc := fun hpaused => absurd (h ▸ hpaused) hstate

namespace Fresh

variable {s : Scheduling}

section

variable (h : Fresh s)
include h

lemma tick {clock : ℕ} (hclock : s.clock ≤ clock) : Fresh { s with clock } :=
  { h with clock := fun id => (h.clock id).trans hclock }

lemma withRestart (hs : ∀ id, ¬ s.Deleting id) (restart : Option Restart) :
    Fresh { s with restart } where
  __ := h
  cached id _ := h.cached id (hs id)
  inflight id _ := h.inflight id (hs id)

lemma setLifecycle {store : LifecycleStore}
    (hstore : ∀ id lc, store id = some lc → Resumable lc) :
    Fresh (s.setLifecycle store) :=
  { h with resumable := hstore }

/-- A table becomes pending; either a restart is about to remove its cache, or nothing is in it or
on the way to it. -/
lemma markPending (restart : Option Restart) (hs : ∀ id', ¬ s.Deleting id')
    (hid : (∃ r, restart = some r ∧ r.deleting = some id) ∨
      s.cache.content id.toBytes = [] ∧
        ∀ w ∈ s.inflight, fileName w.tableID ≠ fileName id.toBytes) :
    Fresh { s.markPending id with restart } where
  clock id' := by
    by_cases hid' : id' = id
    · subst hid'
      simp [markPending]
    · simpa [Scheduling.markPending, hid'] using h.clock id'
  cached id' hdeleting ev hev := by
    by_cases hid' : id' = id
    · subst hid'
      rcases hid with hrestart | ⟨hempty, -⟩
      · exact absurd hrestart hdeleting
      · exact absurd (hempty ▸ hev : ev ∈ []) not_mem_nil
    · simpa [Scheduling.markPending, hid'] using h.cached id' (hs id') ev hev
  inflight id' hdeleting w hw hname := by
    by_cases hid' : id' = id
    · subst hid'
      rcases hid with hrestart | ⟨-, hidle⟩
      · exact absurd hrestart hdeleting
      · exact absurd hname (hidle w hw)
    · simpa [Scheduling.markPending, hid'] using h.inflight id' (hs id') w hw hname
  resumable := h.resumable

lemma delete {r : Restart} (hr : s.restart = some r) (hid : r.deleting = some id)
    (horderly : ∀ w ∈ s.inflight, fileName w.tableID = fileName id.toBytes →
      s.pendingSince id ≤ w.ev.offered) : Fresh { s with
      cache := s.cache.delete id.toBytes
      restart := some { r with deleting := none } } := by
  have hother : ∀ id', id' ≠ id → ¬ s.Deleting id' := by
    intro id' hid'
    rw [deleting_iff hr, hid]
    exact fun hsame => hid' (some.inj hsame).symm
  refine { h with cached := fun id' _ ev hev => ?_, inflight := fun id' _ w hw hname => ?_ }
  · by_cases hid' : id' = id
    · subst hid'
      rw [OfferedCache.content_delete _ rfl] at hev
      exact absurd hev not_mem_nil
    · exact h.cached id' (hother id' hid') ev (s.cache.mem_content_of_mem_delete hev)
  · by_cases hid' : id' = id
    · subst hid'
      exact horderly w hw hname
    · exact h.inflight id' (hother id' hid') w hw hname

lemma offer (cfg : Config) (env : Env) (ev : ChangeEvent) :
    Fresh { s with
      consumer := (route cfg env s.consumer ev).state
      inflight := s.inflight ++ writes s.clock (route cfg env s.consumer ev).effects } where
  __ := h
  inflight id hdeleting w hw hname := by
    rcases mem_append.mp hw with hw | hw
    · exact h.inflight id hdeleting w hw hname
    · -- A new write is offered now.
      obtain ⟨effect, -, heffect⟩ := mem_filterMap.mp hw
      have hoffered : w.ev.offered = s.clock := by
        cases effect with
        | cacheWrite tableID ev ce => rw [← some.inj heffect]
        | attempt | sinkWrite | ddlFailed | ddlCompleted => exact nomatch heffect
      rw [hoffered]
      exact h.clock id
  resumable := (calm_route cfg env h.resumable ev).resumable h.resumable

lemma perform {i : ℕ} {w : CacheWrite} (hw : s.inflight[i]? = some w) :
    Fresh { s with
      cache := s.cache.write w.tableID w.ev
      inflight := s.inflight.eraseIdx i } where
  __ := h
  cached id hdeleting ev hev := by
    rcases s.cache.mem_content_of_mem_write hev with hold | ⟨hname, rfl⟩
    · exact h.cached id hdeleting ev hold
    · exact h.inflight id hdeleting w (mem_of_getElem? hw) hname
  inflight id hdeleting w' hw' hname := h.inflight id hdeleting w' (mem_of_mem_eraseIdx hw') hname

lemma snapshot (id : TableID) (pos : Option Position) : Fresh (s.snapshot id pos) := by
  obtain ⟨store, heq, hother, hself⟩ := snapshot_eq s id pos
  rw [heq]
  refine h.setLifecycle fun id' lc hlc => ?_
  by_cases hid' : id' = id
  · subst hid'
    rcases hself lc hlc with hold | hstate
    · exact h.resumable id' lc hold
    · exact resumable_of_state hstate nofun
  · exact h.resumable id' lc (hother id' hid' ▸ hlc)

/-- The next step of a restart, which moves no table to `snapshotting`. -/
lemma proceed {task : TaskEntry} {r : Restart} (hr : s.restart = some r)
    (horderly : s.Orderly .proceed) :
    let next := s.proceed task r
    Fresh next ∧ next.clock = s.clock ∧ Calm s.consumer.lifecycle next.consumer.lifecycle := by
  unfold Scheduling.proceed
  cases hdeleting : r.deleting with
  | some id => exact ⟨h.delete hr hdeleting (horderly r hr id hdeleting), rfl, refl _⟩
  | none =>
    have hs : ∀ id, ¬ s.Deleting id := by
      intro id
      rw [deleting_iff hr, hdeleting]
      exact nofun
    cases hrest : r.rest with
    | nil => exact ⟨h.withRestart hs none, rfl, refl _⟩
    | cons id rest =>
      cases hreset : restartTable task s.consumer.lifecycle id r.newPos r.force with
      | error err =>
        simp only [hreset]
        exact ⟨h.withRestart hs _, trivial, refl _⟩
      | ok store =>
        obtain ⟨lc, hlc, rfl⟩ := exists_of_restartTable_eq_ok hreset
        have hcalm : Calm s.consumer.lifecycle _ :=
          update id (resumable_of_state hlc nofun) (hlc ▸ nofun)
        simp only [hreset]
        exact ⟨(h.setLifecycle (hcalm.resumable h.resumable)).markPending _ hs
          (.inl ⟨_, rfl, rfl⟩), rfl, hcalm⟩

/-- One orderly step, apart from the clock. Only the transition moves a table to `snapshotting`. -/
lemma act (cfg : Config) (task : TaskEntry) {i : SchedulingInput} (horderly : s.Orderly i) :
    let next := s.act cfg task i
    Fresh next ∧ next.clock = s.clock ∧ ((∀ id pos, i ≠ .snapshot id pos) →
      Calm s.consumer.lifecycle next.consumer.lifecycle) := by
  have hidle : s.restart = none → ∀ id, ¬ s.Deleting id := by
    rintro hnone id ⟨r, hr, -⟩
    exact nomatch hnone.symm.trans hr
  have hsame : Fresh s ∧ s.clock = s.clock ∧ ((∀ id pos, i ≠ .snapshot id pos) →
      Calm s.consumer.lifecycle s.consumer.lifecycle) := ⟨h, rfl, fun _ => refl _⟩
  cases i with
  | addTable id snapshotPos =>
    unfold Scheduling.act
    cases hr : s.restart with
    | some r => exact hsame
    | none =>
      have hcalm : Calm s.consumer.lifecycle (addTable s.consumer.lifecycle id snapshotPos) :=
        update id nofun nofun
      have hfresh := h.setLifecycle (hcalm.resumable h.resumable)
      exact ⟨hfresh.markPending s.restart (hidle hr) (.inr (horderly hr)), rfl, fun _ => hcalm⟩
  | restartTable | restartSchema =>
    unfold Scheduling.act
    cases hr : s.restart with
    | some r => exact hsame
    | none => exact ⟨h.withRestart (hidle hr) _, hsame.2⟩
  | proceed =>
    unfold Scheduling.act
    cases hr : s.restart with
    | some r =>
      obtain ⟨hfresh, hclock, hcalm⟩ := h.proceed hr horderly
      exact ⟨hfresh, hclock, fun _ => hcalm⟩
    | none => exact hsame
  | snapshot id pos =>
    refine ⟨h.snapshot id pos, ?_, fun hi => absurd rfl (hi id pos)⟩
    obtain ⟨store, heq, -⟩ := snapshot_eq s id pos
    exact (congrArg Scheduling.clock heq :)
  | offer env ev =>
    unfold Scheduling.act
    split_ifs
    · exact hsame
    · exact ⟨h.offer cfg env ev, rfl, fun _ => calm_route cfg env h.resumable ev⟩
  | perform i =>
    dsimp only [Scheduling.act]
    cases hw : s.inflight[i]? with
    | some w => exact ⟨h.perform hw, hsame.2⟩
    | none => exact hsame

end

end Fresh

/-! ## Entering a snapshot -/

lemma stateOf_eq_snapshotting_of_calm {s' : Scheduling}
    (h : Calm s.consumer.lifecycle s'.consumer.lifecycle)
    (hid : s'.stateOf id = some .snapshotting) : s.stateOf id = some .snapshotting := by
  obtain ⟨lc, hlc, hstate⟩ := map_eq_some_iff.mp hid
  rcases h id lc hlc with hold | ⟨-, hnew⟩
  · rw [stateOf, hold, map_some, hstate]
  · exact absurd hstate hnew

/-- The transition to `snapshotting` changes the state of its table only, and no cache. -/
lemma cleanBetween_snapshot (h : Fresh s) (pos : Option Position)
    (horderly : s.Orderly (.snapshot id pos)) : CleanBetween s (s.snapshot id pos) := by
  obtain ⟨store, heq, hother, -⟩ := snapshot_eq s id pos
  rw [heq]
  intro id' hbefore hafter
  by_cases hid' : id' = id
  · subst hid'
    exact h.cached id' fun ⟨r, hr, hdeleting⟩ => horderly r hr hdeleting
  · refine absurd ?_ hbefore
    rwa [stateOf, ← hother id' hid']

lemma cleanBetween_step (h : Fresh s) (cfg : Config) (task : TaskEntry) {i : SchedulingInput}
    (horderly : s.Orderly i) : CleanBetween s ((machine cfg task).step s i).1 := by
  by_cases hi : ∃ id pos, i = .snapshot id pos
  · obtain ⟨id, pos, rfl⟩ := hi
    exact cleanBetween_snapshot h pos horderly
  · have hcalm := (h.act cfg task horderly).2.2 fun id pos heq => hi ⟨id, pos, heq⟩
    intro id hbefore hafter
    exact absurd (stateOf_eq_snapshotting_of_calm hcalm hafter) hbefore

end Scheduling

/-- In every run of orderly steps every snapshot starts with a clean cache. -/
theorem clean_of_orderly (cfg : Config) (task : TaskEntry) (consumer : Consumer)
    {is : List SchedulingInput}
    (horderly : (machine cfg task).Meets Orderly (.start consumer) is) :
    Clean cfg task (.start consumer) is := by
  refine (machine cfg task).meets_of_invariant Fresh (fun s i hfresh hi => ?_)
    (fresh_start consumer) horderly
  obtain ⟨hact, hclock, -⟩ := hfresh.act cfg task hi
  have hnext : ((machine cfg task).step s i).1.Fresh := hact.tick (hclock ▸ Nat.le_succ _)
  exact ⟨cleanBetween_step hfresh cfg task hi, hnext⟩

/-! ## A write before and after a restart -/

section Sample

def restartedID : TableID := ddlTableID (lit "shop") (lit "orders")

def offeredInsert : SchedulingInput := .offer (answering (.result (some ordersTable))) ordersInsert

/-- The insert is cached before the table is restarted. -/
def cachedBefore : List SchedulingInput :=
  [.addTable restartedID none, .snapshot restartedID none, offeredInsert, .perform 0,
    .restartTable restartedID none true, .proceed, .proceed, .proceed, .snapshot restartedID none]

/-- The insert is cached after the state of the table was reset and its cache removed. -/
def cachedAfter : List SchedulingInput :=
  [.addTable restartedID none, .snapshot restartedID none, offeredInsert,
    .restartTable restartedID none true, .proceed, .proceed, .perform 0] ++
  [.snapshot restartedID none]

/-- What is cached before the restart is gone at the next snapshot. -/
theorem clean_cachedBefore :
    Clean fullConfig ⟨lit "\"shop\"", true⟩ (.start ordersStreaming) cachedBefore := by
  refine clean_of_orderly fullConfig _ ordersStreaming ⟨fun _ => ⟨rfl, nofun⟩, ?_, trivial,
    trivial, trivial, ?_, ?_, ?_, ?_, trivial⟩
  -- The lock is free at both transitions, and no `Route` call is at work when the cache is removed.
  · exact fun r hr => nomatch hr
  · rintro r ⟨⟩ id hid
    exact nomatch hid
  · exact fun r hr id hid w hw => absurd hw not_mem_nil
  · rintro r ⟨⟩ id hid
    exact nomatch hid
  · exact fun r hr => nomatch hr

set_option maxRecDepth 4000 in
/-- What is cached after the restart is there at the next snapshot. -/
theorem not_forall_clean :
    ¬ ∀ (cfg : Config) (task : TaskEntry) (consumer : Consumer) (is : List SchedulingInput),
      Clean cfg task (.start consumer) is := by
  intro hall
  have hrun := hall fullConfig ⟨lit "\"shop\"", true⟩ ordersStreaming cachedAfter
  rw [cachedAfter, Clean, Machine.meets_append] at hrun
  have hoffered := List.forall_mem_map.mpr (hrun.2.1 restartedID (by decide) (by decide))
  exact absurd hoffered (by decide)

end Sample

end DataStream.Lifecycle
