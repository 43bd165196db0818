import DataStream.Foundations.Machine
import DataStream.Sink.HashDispatcher
import Mathlib.Algebra.Order.BigOperators.Group.Finset

/-!
# The concurrent sink writer

`sink.ConcurrentSinkWriter` hands events to workers over bounded channels. A worker collects
events in a buffer and writes the buffer to the sink as a batch when it is full, when a ticker
fires, and when its channel is closed and drained. A batch that `WriteBatch` rejects is tried again
up to `MaxRetry` times; then it is dropped, which is counted and logged and not reported to anyone:
`Close` returns nil in any case.

The steps of the producer, of the ticker and of the workers are interleaved in any order, with a
single attempt at a batch as one step. The writer is started before the first `Write`, as its
documentation asks for. The context of the workers is cancelled only when all of them are done.

* `close_writes_all`: without dropped batches every worker writes what was dispatched to it;
* `close_loses_nothing`: if no batch runs out of attempts, no accepted event is lost;
* `rows_inOrder`: the changes of a row are accepted in the order of the calls of `Write`;
* `close_returns`: `Close` returns, whatever the sink answers.
-/

namespace DataStream.Sink

open Event List Option Function

/-! ## Workers -/

/-- `ConcurrentSinkConfig`, without the times. -/
structure ConcurrentSinkConfig where
  workerCount : Int64
  batchSize : Int64
  maxRetry : Int64

namespace ConcurrentSinkConfig

variable (cfg : ConcurrentSinkConfig)

/-- The batch size that `NewConcurrentSinkWriter` makes of the configured one. -/
def batchLimit : ℕ :=
  if cfg.batchSize ≤ 0 then 100 else cfg.batchSize.toInt.toNat

/-- The capacity of a worker's channel. -/
def bufferSize : ℕ :=
  let size := (if cfg.batchSize ≤ 0 then 100 else cfg.batchSize) * 4
  if size ≤ 0 then 1024 else size.toInt.toNat

lemma batchLimit_pos : 0 < cfg.batchLimit := by
  rw [batchLimit]
  split
  · norm_num
  · next h =>
    rw [Int64.le_iff_toInt_le] at h
    simp at h
    omega

end ConcurrentSinkConfig

structure Flush where
  batch : List ChangeEvent
  attempt : ℕ
  /-- The worker returns after this flush. -/
  exits : Bool

structure SinkWorker where
  eventCh : List ChangeEvent
  buffer : List ChangeEvent
  flushing : Option Flush
  exited : Bool
  eventsWritten : ℕ
  batchesFlushed : ℕ
  batchesFailed : ℕ

inductive WriterEffect where
  /-- `Write` returned nil for an event, which went to a worker. -/
  | dispatched (worker : ℕ) (e : ChangeEvent)
  | wrote (worker : ℕ) (batch : List ChangeEvent)
  | closeReturned

namespace SinkWorker

def start : SinkWorker where
  eventCh := []
  buffer := []
  flushing := none
  exited := false
  eventsWritten := 0
  batchesFlushed := 0
  batchesFailed := 0

variable (w : SinkWorker)

/-- The begin of `flush`: an empty buffer is nothing to do. -/
def startFlush (exits : Bool) : SinkWorker :=
  if w.buffer = [] then { w with exited := exits }
  else { w with buffer := [], flushing := some { batch := w.buffer, attempt := 0, exits } }

/-- `Run` receives from the channel, or finds it closed and drained. -/
def receive (batchSize : ℕ) (closed : Bool) : SinkWorker :=
  match w.eventCh with
  | e :: rest =>
    let w := { w with eventCh := rest, buffer := w.buffer ++ [e] }
    if batchSize ≤ w.buffer.length then w.startFlush false else w
  | [] => if closed then w.startFlush true else w

/-- The ticker fires. -/
def tick : SinkWorker := if w.buffer = [] then w else w.startFlush false

/-- `WriteBatch` accepts the batch. -/
def succeed (fl : Flush) : SinkWorker :=
  { w with
    flushing := none
    exited := fl.exits
    eventsWritten := w.eventsWritten + fl.batch.length
    batchesFlushed := w.batchesFlushed + 1 }

/-- `WriteBatch` rejects the batch. -/
def fail (fl : Flush) : SinkWorker :=
  { w with flushing := some { fl with attempt := fl.attempt + 1 } }

/-- All attempts are used up: the batch is dropped. -/
def giveUp (fl : Flush) : SinkWorker :=
  { w with flushing := none, exited := fl.exits, batchesFailed := w.batchesFailed + 1 }

/-- The worker waits in its select. -/
def idle : Bool := !w.exited && w.flushing.isNone

end SinkWorker

open SinkWorker

/-! ## The writer -/

/-- `ConcurrentSinkWriter`, started. -/
structure ConcurrentSinkWriter where
  dispatcher : HashDispatcher
  workers : ℕ → SinkWorker
  closed : Bool
  closeReturned : Bool

/-- `NewConcurrentSinkWriter` and `Start`. -/
def newConcurrentSinkWriter (cfg : ConcurrentSinkConfig) : ConcurrentSinkWriter where
  dispatcher := newHashDispatcher cfg.workerCount .table
  workers _ := .start
  closed := false
  closeReturned := false

/-- One step of the producer, of a worker or of its ticker. -/
inductive WriterMove where
  /-- `Write` sends an event to its worker, if there is room in the channel. -/
  | dispatch (e : ChangeEvent) (schema : TableInfo)
  /-- `Write` gives up, because its context is done, and returns an error. -/
  | dispatchCancelled (e : ChangeEvent) (schema : TableInfo)
  | close
  /-- `Close` has waited for all workers and returns. -/
  | closeReturn
  | receive (worker : ℕ)
  | tick (worker : ℕ)
  | attempt (worker : ℕ) (ok : Bool)
  /-- The retry loop of a flush ends without success. -/
  | giveUp (worker : ℕ)

namespace ConcurrentSinkWriter

variable (s : ConcurrentSinkWriter)

/-- Replace a worker. -/
def setWorker (i : ℕ) (w : SinkWorker) : ConcurrentSinkWriter :=
  { s with workers := update s.workers i w }

@[simp]
lemma workers_setWorker_self (i : ℕ) (w : SinkWorker) : (s.setWorker i w).workers i = w :=
  update_self _ _ _

lemma workers_setWorker_of_ne {i j : ℕ} (h : j ≠ i) (w : SinkWorker) :
    (s.setWorker i w).workers j = s.workers j :=
  update_of_ne h _ _

/-- `Dispatch`: the event goes to the channel of its worker. -/
def dispatch (f : Formatter) (cfg : ConcurrentSinkConfig) (e : ChangeEvent) (schema : TableInfo) :
    ConcurrentSinkWriter × List WriterEffect :=
  let id := (s.dispatcher.calculateWorkerID f e schema).1
  let w := s.workers id
  -- A send on a closed channel panics and a full channel makes the producer wait.
  if s.closed || decide (cfg.bufferSize ≤ w.eventCh.length) then (s, [])
  else
    ({ s with dispatcher := (s.dispatcher.calculateWorkerID f e schema).2 }.setWorker id
        { w with eventCh := w.eventCh ++ [e] }, [.dispatched id e])

/-- One call of `WriteBatch`, while the loop has attempts left. -/
def attempt (cfg : ConcurrentSinkConfig) (i : ℕ) (ok : Bool) :
    ConcurrentSinkWriter × List WriterEffect :=
  match (s.workers i).flushing with
  | none => (s, [])
  | some fl =>
    if (fl.attempt : ℤ) ≤ cfg.maxRetry.toInt then
      if ok then (s.setWorker i ((s.workers i).succeed fl), [.wrote i fl.batch])
      else (s.setWorker i ((s.workers i).fail fl), [])
    else (s, [])

/-- The end of the retry loop, when no attempts are left. -/
def giveUp (cfg : ConcurrentSinkConfig) (i : ℕ) : ConcurrentSinkWriter :=
  match (s.workers i).flushing with
  | none => s
  | some fl =>
    if (fl.attempt : ℤ) ≤ cfg.maxRetry.toInt then s
    else s.setWorker i ((s.workers i).giveUp fl)

/-- `wg.Wait`: all workers have returned. -/
def allExited : Bool := (List.range s.dispatcher.workerCount).all fun i => (s.workers i).exited

/-- `Stats`: the events written by all workers. -/
def totalEventsWritten : ℕ :=
  ∑ i ∈ Finset.range s.dispatcher.workerCount, (s.workers i).eventsWritten

end ConcurrentSinkWriter

open ConcurrentSinkWriter

/-- The writer as a machine. A move that is not possible changes nothing. -/
def writer (f : Formatter) (cfg : ConcurrentSinkConfig) :
    Machine ConcurrentSinkWriter WriterMove WriterEffect where
  step s
    | .dispatch e schema => s.dispatch f cfg e schema
    | .dispatchCancelled e schema =>
      ({ s with dispatcher := (s.dispatcher.calculateWorkerID f e schema).2 }, [])
    | .close => ({ s with closed := true }, [])
    | .closeReturn =>
      if s.closed && !s.closeReturned && s.allExited then
        ({ s with closeReturned := true }, [.closeReturned])
      else (s, [])
    | .receive i =>
      if (s.workers i).idle then
        (s.setWorker i ((s.workers i).receive cfg.batchLimit s.closed), [])
      else (s, [])
    | .tick i => if (s.workers i).idle then (s.setWorker i (s.workers i).tick, []) else (s, [])
    | .attempt i ok => s.attempt cfg i ok
    | .giveUp i => (s.giveUp cfg i, [])

/-! ## What was dispatched and what was written -/

variable (i : ℕ) (es : List WriterEffect)

/-- The events dispatched to a worker, in order. -/
def dispatchedTo : List ChangeEvent :=
  es.filterMap fun
    | .dispatched j e => if j = i then some e else none
    | _ => none

/-- The batches of a worker that the sink accepted, in order. -/
def writtenBy : List (List ChangeEvent) :=
  es.filterMap fun
    | .wrote j batch => if j = i then some batch else none
    | _ => none

def dispatchedCount : ℕ :=
  es.countP fun
    | .dispatched _ _ => true
    | _ => false

@[simp]
lemma dispatchedTo_append (es es' : List WriterEffect) :
    dispatchedTo i (es ++ es') = dispatchedTo i es ++ dispatchedTo i es' :=
  filterMap_append

@[simp]
lemma writtenBy_append (es es' : List WriterEffect) :
    writtenBy i (es ++ es') = writtenBy i es ++ writtenBy i es' :=
  filterMap_append

variable {i es} in
lemma dispatched_mem {e : ChangeEvent} (h : e ∈ dispatchedTo i es) : .dispatched i e ∈ es := by
  obtain ⟨eff, hmem, heff⟩ := mem_filterMap.mp h
  rcases eff with ⟨j, e'⟩ | ⟨j, batch⟩ | -
  · rw [ite_none_right_eq_some, some.injEq] at heff
    obtain ⟨rfl, rfl⟩ := heff
    exact hmem
  · cases heff
  · cases heff

lemma sum_length_dispatchedTo {n : ℕ} {es : List WriterEffect}
    (h : ∀ i e, .dispatched i e ∈ es → i < n) :
    ∑ i ∈ Finset.range n, (dispatchedTo i es).length = dispatchedCount es := by
  induction es with
  | nil => simp [dispatchedTo, dispatchedCount]
  | cons eff es ih =>
    have ih := ih fun i e hmem => h i e (mem_cons_of_mem _ hmem)
    rcases eff with ⟨j, e⟩ | ⟨j, batch⟩ | -
    · -- The event counts once, for its worker.
      have hlength : ∀ i, (dispatchedTo i (.dispatched j e :: es)).length =
          (if j = i then 1 else 0) + (dispatchedTo i es).length := by
        intro i
        by_cases hij : j = i
        · simp [dispatchedTo, hij, Nat.add_comm]
        · simp [dispatchedTo, hij]
      have hj : j ∈ Finset.range n := Finset.mem_range.mpr (h j e mem_cons_self)
      simp only [hlength, Finset.sum_add_distrib, ih, Finset.sum_ite_eq, hj, if_true]
      simp [dispatchedCount, Nat.add_comm]
    · exact ih
    · exact ih

/-! ## The account of one worker -/

def SinkWorker.inFlight (w : SinkWorker) : List ChangeEvent := (w.flushing.map Flush.batch).getD []

/-- What was dispatched to a worker is what it has written, what it is flushing, its buffer and its
channel, in this order; batches are neither empty nor too large; a worker that returns has nothing
left. -/
structure WorkerAccounts (limit : ℕ) (closed : Bool) (w : SinkWorker)
    (dispatched : List ChangeEvent) (written : List (List ChangeEvent)) : Prop where
  events : dispatched = written.flatten ++ (w.inFlight ++ (w.buffer ++ w.eventCh))
  batches : ∀ batch ∈ written, 1 ≤ batch.length ∧ batch.length ≤ limit
  flush : ∀ fl, w.flushing = some fl → 1 ≤ fl.batch.length ∧ fl.batch.length ≤ limit
  buffer : w.buffer.length < limit
  count : w.eventsWritten = (written.map List.length).sum
  drained : w.exited = true ∨ (∃ fl, w.flushing = some fl ∧ fl.exits = true) →
    closed = true ∧ w.eventCh = [] ∧ w.buffer = []
  exited : w.exited = true → w.flushing = none

namespace WorkerAccounts

variable {limit : ℕ} {closed : Bool} {w : SinkWorker} {dispatched : List ChangeEvent}
  {written : List (List ChangeEvent)}

lemma start (hlimit : 0 < limit) (closed : Bool) : WorkerAccounts limit closed .start [] [] where
  events := rfl
  batches _ h := absurd h not_mem_nil
  flush := nofun
  buffer := hlimit
  count := rfl
  drained h := by rcases h with h | ⟨fl, h, -⟩ <;> cases h
  exited _ := rfl

lemma idle_iff (w : SinkWorker) : w.idle = true ↔ w.exited = false ∧ w.flushing = none := by
  simp [idle]

lemma send (h : WorkerAccounts limit false w dispatched written) (e : ChangeEvent) :
    WorkerAccounts limit false { w with eventCh := w.eventCh ++ [e] } (dispatched ++ [e])
      written where
  __ := h
  events := by
    rw [h.events]
    simp only [inFlight, append_assoc]
  drained hdone := by cases (h.drained hdone).1

lemma startFlush (hidle : w.idle = true) {exits : Bool}
    (hevents : dispatched = written.flatten ++ (w.buffer ++ w.eventCh))
    (hbatches : ∀ batch ∈ written, 1 ≤ batch.length ∧ batch.length ≤ limit)
    (hlimit : 0 < limit) (hbuffer : w.buffer.length ≤ limit)
    (hcount : w.eventsWritten = (written.map List.length).sum)
    (hexits : exits = true → closed = true ∧ w.eventCh = []) :
    WorkerAccounts limit closed (w.startFlush exits) dispatched written := by
  obtain ⟨hexited, hflushing⟩ := (idle_iff w).mp hidle
  unfold SinkWorker.startFlush
  split
  · next hempty =>
    -- There is nothing to flush; a worker whose channel is closed and drained exits at once.
    refine ⟨?_, hbatches, fun fl hfl => ?_, ?_, hcount, ?_, fun _ => hflushing⟩
    · rw [hevents, inFlight, hflushing]
      rfl
    · simp [hflushing] at hfl
    · rw [hempty]
      exact hlimit
    · rintro (hexit | ⟨fl, hfl, -⟩)
      · exact ⟨(hexits hexit).1, (hexits hexit).2, hempty⟩
      · simp [hflushing] at hfl
  · next hne =>
    -- The buffer becomes the batch of the flush.
    refine ⟨?_, hbatches, fun fl hfl => ?_, hlimit, hcount, ?_, fun hexit => ?_⟩
    · rw [hevents]
      rfl
    · obtain rfl := some.inj hfl
      exact ⟨length_pos_iff.mpr hne, hbuffer⟩
    · rintro (hexit | ⟨fl, hfl, hexit⟩)
      · simp [hexited] at hexit
      · obtain rfl := some.inj hfl
        exact ⟨(hexits hexit).1, (hexits hexit).2, rfl⟩
    · simp [hexited] at hexit

lemma inFlight_of_idle (hidle : w.idle = true) : w.inFlight = [] := by
  rw [inFlight, ((idle_iff w).mp hidle).2]
  rfl

section

variable (h : WorkerAccounts limit closed w dispatched written)
include h

lemma receive (hidle : w.idle = true) :
    WorkerAccounts limit closed (w.receive limit closed) dispatched written := by
  have hlimit : 0 < limit := lt_of_le_of_lt (Nat.zero_le _) h.buffer
  have hevents := h.events
  rw [inFlight_of_idle hidle, nil_append] at hevents
  obtain ⟨hexited, hflushing⟩ := (idle_iff w).mp hidle
  unfold SinkWorker.receive
  split
  · next e rest hch =>
    have hmoved : dispatched = written.flatten ++ ((w.buffer ++ [e]) ++ rest) := by
      rw [hevents, hch, append_assoc]
      rfl
    have hlength : (w.buffer ++ [e]).length = w.buffer.length + 1 := length_append
    have hbuffer := h.buffer
    dsimp only
    split
    · -- The event fills the buffer, so the flush takes it along.
      refine startFlush (w := { w with eventCh := rest, buffer := w.buffer ++ [e] }) hidle hmoved
        h.batches hlimit ?_ h.count fun hexit => ?_
      · rw [hlength]
        omega
      · cases hexit
    · next hroom =>
      -- The event stays in the buffer.
      refine ⟨?_, h.batches, h.flush, not_le.mp hroom, h.count, ?_, h.exited⟩
      · rw [hmoved, inFlight, hflushing]
        rfl
      · simp [hexited, hflushing]
  · next hch =>
    -- An empty channel: the worker waits, or flushes for the last time if it is closed.
    split
    · next hclosed =>
      exact startFlush hidle hevents h.batches hlimit h.buffer.le h.count fun _ => ⟨hclosed, hch⟩
    · exact h

lemma tick (hidle : w.idle = true) : WorkerAccounts limit closed w.tick dispatched written := by
  have hlimit : 0 < limit := lt_of_le_of_lt (Nat.zero_le _) h.buffer
  have hevents := h.events
  rw [inFlight_of_idle hidle, nil_append] at hevents
  unfold SinkWorker.tick
  split
  · exact h
  · exact startFlush hidle hevents h.batches hlimit h.buffer.le h.count fun hexit => by cases hexit

lemma succeed {fl : Flush} (hfl : w.flushing = some fl) :
    WorkerAccounts limit closed (w.succeed fl) dispatched (written ++ [fl.batch]) where
  __ := h
  events := by
    rw [h.events, SinkWorker.inFlight, hfl]
    simp [SinkWorker.succeed, SinkWorker.inFlight]
  batches batch hbatch := by
    rcases mem_append.mp hbatch with hold | hnew
    · exact h.batches batch hold
    · rw [mem_singleton.mp hnew]
      exact h.flush fl hfl
  flush := nofun
  count := by
    rw [SinkWorker.succeed, h.count]
    simp
  drained hdone := by
    rcases hdone with hexit | ⟨_, hnone, -⟩
    · exact h.drained (.inr ⟨fl, hfl, hexit⟩)
    · cases hnone
  exited _ := rfl

lemma fail {fl : Flush} (hfl : w.flushing = some fl) :
    WorkerAccounts limit closed (w.fail fl) dispatched written where
  __ := h
  events := by
    rw [h.events, inFlight, hfl]
    rfl
  flush fl' hfl' := by
    obtain rfl := some.inj hfl'
    exact h.flush fl hfl
  drained hdone := by
    rcases hdone with hexit | ⟨fl', hfl', hexit⟩
    · exact h.drained (.inl hexit)
    · obtain rfl := some.inj hfl'
      exact h.drained (.inr ⟨fl, hfl, hexit⟩)
  exited hexit := by
    have hnone := h.exited hexit
    rw [hfl] at hnone
    cases hnone

lemma close : WorkerAccounts limit true w dispatched written :=
  { h with drained := fun hdone => ⟨rfl, (h.drained hdone).2⟩ }

lemma flatten_of_exited (hexited : w.exited = true) : written.flatten = dispatched := by
  obtain ⟨-, hch, hbuffer⟩ := h.drained (.inl hexited)
  rw [h.events, inFlight, h.exited hexited, hch, hbuffer]
  simp

end

end WorkerAccounts

/-! ## The account of the writer -/

/-- Every worker's account holds, every event went to a worker, and when `Close` has returned all
workers have. -/
structure Accounts (cfg : ConcurrentSinkConfig) (s : ConcurrentSinkWriter)
    (es : List WriterEffect) : Prop where
  worker : ∀ i, WorkerAccounts cfg.batchLimit s.closed (s.workers i) (dispatchedTo i es)
    (writtenBy i es)
  known : ∀ i e, .dispatched i e ∈ es → i < s.dispatcher.workerCount
  returned : s.closeReturned = true →
    s.closed = true ∧ ∀ i < s.dispatcher.workerCount, (s.workers i).exited = true

/-- No batch is dropped: a flush leaves its loop only with attempts left, because its batch was
accepted. -/
def NoBatchDropped (cfg : ConcurrentSinkConfig) (s : ConcurrentSinkWriter) : WriterMove → Prop
  | .giveUp i => ∀ fl ∈ (s.workers i).flushing, (fl.attempt : ℤ) ≤ cfg.maxRetry.toInt
  | _ => True

instance (cfg : ConcurrentSinkConfig) (s : ConcurrentSinkWriter) (move : WriterMove) :
    Decidable (NoBatchDropped cfg s move) := by
  unfold NoBatchDropped
  split <;> infer_instance

namespace Accounts

variable {cfg : ConcurrentSinkConfig} {s : ConcurrentSinkWriter} {es : List WriterEffect}

lemma start (cfg : ConcurrentSinkConfig) : Accounts cfg (newConcurrentSinkWriter cfg) [] where
  worker _ := .start cfg.batchLimit_pos _
  known _ _ h := absurd h not_mem_nil
  returned h := by cases h

variable {i : ℕ}

section

variable (h : Accounts cfg s es)
include h

lemma setWorker (hup : (s.workers i).exited = false) {w : SinkWorker} {es' : List WriterEffect}
    (hw : WorkerAccounts cfg.batchLimit s.closed w (dispatchedTo i es)
      (writtenBy i es ++ writtenBy i es')) (hes' : ∀ eff ∈ es', ∃ batch, eff = .wrote i batch) :
    Accounts cfg (s.setWorker i w) (es ++ es') := by
  have hnone : ∀ j, dispatchedTo j es' = [] := by
    intro j
    rw [dispatchedTo, filterMap_eq_nil_iff]
    intro eff heff
    obtain ⟨batch, rfl⟩ := hes' eff heff
    rfl
  have hother : ∀ j, j ≠ i → writtenBy j es' = [] := by
    intro j hj
    rw [writtenBy, filterMap_eq_nil_iff]
    intro eff heff
    obtain ⟨batch, rfl⟩ := hes' eff heff
    exact if_neg (Ne.symm hj)
  refine ⟨fun j => ?_, fun j e hmem => ?_, fun hreturned => ?_⟩
  · rw [dispatchedTo_append, writtenBy_append, hnone, append_nil]
    by_cases hj : j = i
    · subst hj
      rw [workers_setWorker_self]
      exact hw
    · rw [s.workers_setWorker_of_ne hj, hother j hj, append_nil]
      exact h.worker j
  · rcases mem_append.mp hmem with hold | hnew
    · exact h.known j e hold
    · obtain ⟨batch, hbatch⟩ := hes' _ hnew
      cases hbatch
  · obtain ⟨hclosed, hexited⟩ := h.returned hreturned
    refine ⟨hclosed, fun j hj => ?_⟩
    -- The worker is none of those that `Close` has waited for.
    have hne : j ≠ i := by
      rintro rfl
      simp [hexited j hj] at hup
    rw [s.workers_setWorker_of_ne hne]
    exact hexited j hj

lemma setWorker_silent (hup : (s.workers i).exited = false) {w : SinkWorker}
    (hw : WorkerAccounts cfg.batchLimit s.closed w (dispatchedTo i es) (writtenBy i es)) :
    Accounts cfg (s.setWorker i w) (es ++ []) := by
  refine h.setWorker hup ?_ fun eff heff => absurd heff not_mem_nil
  rwa [show writtenBy i [] = [] from rfl, append_nil]

lemma exited_of_flushing {fl : Flush} (hfl : (s.workers i).flushing = some fl) :
    (s.workers i).exited = false := by
  by_contra hexited
  simp [(h.worker i).exited (by simpa using hexited)] at hfl

lemma setDispatcher {d : HashDispatcher} (hd : d.workerCount = s.dispatcher.workerCount) :
    Accounts cfg { s with dispatcher := d } es :=
  { h with known := hd ▸ h.known, returned := hd ▸ h.returned }

lemma dispatch (f : Formatter) (e : ChangeEvent) (schema : TableInfo) :
    Accounts cfg (s.dispatch f cfg e schema).1 (es ++ (s.dispatch f cfg e schema).2) := by
  obtain ⟨hlt, hcount⟩ := s.dispatcher.calculateWorkerID_spec f e schema
  unfold ConcurrentSinkWriter.dispatch
  dsimp only
  split
  · rw [append_nil]
    exact h
  · next hroom =>
    -- The event goes to the channel of one worker; the accounts of the others do not change.
    have hopen : s.closed = false := by
      rw [Bool.or_eq_true, not_or, Bool.not_eq_true] at hroom
      exact hroom.1
    generalize (s.dispatcher.calculateWorkerID f e schema).1 = id at hlt ⊢
    have hworker := h.worker
    rw [hopen] at hworker
    refine ⟨fun j => ?_, fun j e' hmem => ?_, fun hreturned => ?_⟩
    · rw [dispatchedTo_append, writtenBy_append]
      change WorkerAccounts _ s.closed _ _ _
      rw [hopen]
      by_cases hj : j = id
      · subst hj
        simpa [dispatchedTo, writtenBy] using (hworker j).send e
      · rw [workers_setWorker_of_ne _ hj]
        simpa [dispatchedTo, writtenBy, Ne.symm hj] using hworker j
    · change j < (s.dispatcher.calculateWorkerID f e schema).2.workerCount
      rw [hcount]
      rcases mem_append.mp hmem with hold | hnew
      · exact h.known j e' hold
      · obtain ⟨rfl, -⟩ : j = id ∧ e' = e := by simpa using hnew
        exact hlt
    · -- `Close` has not even been called.
      simp [(h.returned hreturned).1] at hopen

lemma attempt (i : ℕ) (ok : Bool) :
    Accounts cfg (s.attempt cfg i ok).1 (es ++ (s.attempt cfg i ok).2) := by
  unfold ConcurrentSinkWriter.attempt
  split
  · rw [append_nil]
    exact h
  · next fl hfl =>
    have hup := h.exited_of_flushing hfl
    split
    · split
      · refine h.setWorker hup ?_ fun eff heff => ⟨fl.batch, mem_singleton.mp heff⟩
        simpa [writtenBy] using (h.worker i).succeed hfl
      · exact h.setWorker_silent hup ((h.worker i).fail hfl)
    · rw [append_nil]
      exact h

/-- One step that drops no batch preserves the account. -/
theorem step (f : Formatter) (move : WriterMove) (hkeeps : NoBatchDropped cfg s move) :
    Accounts cfg ((writer f cfg).step s move).1 (es ++ ((writer f cfg).step s move).2) := by
  cases move with
  | dispatch e schema => exact h.dispatch f e schema
  | dispatchCancelled e schema =>
    -- No event is sent; only the table of pinned workers may have grown.
    dsimp only [writer]
    rw [append_nil]
    exact h.setDispatcher (s.dispatcher.calculateWorkerID_spec f e schema).2
  | close =>
    dsimp only [writer]
    rw [append_nil]
    exact ⟨fun i => (h.worker i).close, h.known, fun hreturned => ⟨rfl, (h.returned hreturned).2⟩⟩
  | closeReturn =>
    dsimp only [writer]
    split
    · next hready =>
      -- `Close` returns when the last worker has exited, so every worker is drained.
      rw [Bool.and_eq_true, Bool.and_eq_true] at hready
      obtain ⟨⟨hclosed, -⟩, hall⟩ := hready
      refine ⟨fun i => ?_, fun i e hmem => h.known i e ?_, fun _ => ⟨hclosed, fun i hi => ?_⟩⟩
      · simpa [dispatchedTo, writtenBy] using h.worker i
      · simpa using hmem
      · exact List.all_eq_true.mp hall i (mem_range.mpr hi)
    · rw [append_nil]
      exact h
  | receive i =>
    dsimp only [writer]
    split
    · next hidle =>
      exact h.setWorker_silent ((WorkerAccounts.idle_iff _).mp hidle).1 ((h.worker i).receive hidle)
    · rw [append_nil]
      exact h
  | tick i =>
    dsimp only [writer]
    split
    · next hidle =>
      exact h.setWorker_silent ((WorkerAccounts.idle_iff _).mp hidle).1 ((h.worker i).tick hidle)
    · rw [append_nil]
      exact h
  | attempt i ok => exact h.attempt i ok
  | giveUp i =>
    -- By the condition no flush has used up its attempts, so there is nothing to give up.
    have hnothing : s.giveUp cfg i = s := by
      unfold ConcurrentSinkWriter.giveUp
      split
      · rfl
      · next fl hfl => rw [if_pos (hkeeps fl hfl)]
    dsimp only [writer]
    rw [hnothing, append_nil]
    exact h

end

end Accounts

/-! ## Runs -/

section Runs

variable (f : Formatter) (cfg : ConcurrentSinkConfig) (moves : List WriterMove)

def runWriter : ConcurrentSinkWriter × List WriterEffect :=
  (writer f cfg).run (newConcurrentSinkWriter cfg) moves

variable {f cfg moves}

lemma accounts_runWriter
    (hkeeps : (writer f cfg).Meets (NoBatchDropped cfg) (newConcurrentSinkWriter cfg) moves) :
    Accounts cfg (runWriter f cfg moves).1 (runWriter f cfg moves).2 :=
  (writer f cfg).run_induction_of_meets (motive := Accounts cfg) hkeeps (.start cfg)
    fun _ _ move hmove h => h.step f move hmove

end Runs

/-- What `Close` should leave: each worker's batches are what was dispatched to it, in order; each
batch holds between one and `BatchSize` events; the events are all counted. -/
structure WroteAll (cfg : ConcurrentSinkConfig) (s : ConcurrentSinkWriter)
    (es : List WriterEffect) : Prop where
  order : ∀ i < s.dispatcher.workerCount, (writtenBy i es).flatten = dispatchedTo i es
  batches : ∀ i < s.dispatcher.workerCount, ∀ batch ∈ writtenBy i es,
    1 ≤ batch.length ∧ batch.length ≤ cfg.batchLimit
  total : s.totalEventsWritten = dispatchedCount es

/-- **Nothing is lost or reordered.** For every configuration, in every interleaving of dispatches,
ticks and worker steps in which every batch is accepted within its attempts, all was written as
`WroteAll` says when `Close` has returned. -/
theorem close_writes_all (f : Formatter) (cfg : ConcurrentSinkConfig) (moves : List WriterMove)
    (haccepted : (writer f cfg).Meets (NoBatchDropped cfg) (newConcurrentSinkWriter cfg) moves)
    (hreturned : (runWriter f cfg moves).1.closeReturned = true) :
    WroteAll cfg (runWriter f cfg moves).1 (runWriter f cfg moves).2 := by
  have haccounts := accounts_runWriter haccepted
  have hexited := (haccounts.returned hreturned).2
  have horder : ∀ i < (runWriter f cfg moves).1.dispatcher.workerCount,
      (writtenBy i (runWriter f cfg moves).2).flatten = dispatchedTo i (runWriter f cfg moves).2 :=
    fun i hi => (haccounts.worker i).flatten_of_exited (hexited i hi)
  refine ⟨horder, fun i _ => (haccounts.worker i).batches, ?_⟩
  calc (runWriter f cfg moves).1.totalEventsWritten
      = ∑ i ∈ Finset.range (runWriter f cfg moves).1.dispatcher.workerCount,
          (dispatchedTo i (runWriter f cfg moves).2).length := by
        refine Finset.sum_congr rfl fun i hi => ?_
        rw [(haccounts.worker i).count, ← horder i (Finset.mem_range.mp hi), length_flatten]
    _ = dispatchedCount (runWriter f cfg moves).2 := sum_length_dispatchedTo haccounts.known

/-- When `Close` has returned, every event that `Write` accepted is in a batch that the sink
accepted. -/
def LosesNothing (s : ConcurrentSinkWriter) (es : List WriterEffect) : Prop :=
  s.closeReturned = true → ∀ i, ∀ e ∈ dispatchedTo i es, ∃ batch ∈ writtenBy i es, e ∈ batch

/-- **No silent loss.** For every pattern of `WriteBatch` failures, in every run in which no batch
uses up its `MaxRetry + 1` attempts, in every state reached: when `Close` has returned, every event
for which `Write` returned nil is in a batch that `WriteBatch` accepted. -/
theorem close_loses_nothing (f : Formatter) (cfg : ConcurrentSinkConfig) (moves : List WriterMove)
    (hattempts : (writer f cfg).Meets (NoBatchDropped cfg) (newConcurrentSinkWriter cfg) moves) :
    LosesNothing (runWriter f cfg moves).1 (runWriter f cfg moves).2 := by
  intro hreturned i e he
  have haccounts := accounts_runWriter hattempts
  -- The event has a worker that exists, and this worker has returned.
  have hknown := haccounts.known i e (dispatched_mem he)
  have hexited := (haccounts.returned hreturned).2 i hknown
  rw [← (haccounts.worker i).flatten_of_exited hexited] at he
  exact mem_flatten.mp he

/-! ## The order of the changes of a row -/

def dispatchedEvents (es : List WriterEffect) : List ChangeEvent :=
  es.filterMap fun
    | .dispatched _ e => some e
    | _ => none

/-- All events that the sink accepted, in the order in which it did. -/
def writtenEvents (es : List WriterEffect) : List ChangeEvent :=
  es.flatMap fun
    | .wrote _ batch => batch
    | _ => []

section RowOrder

variable {f : Formatter} {cfg : ConcurrentSinkConfig} {moves : List WriterMove}
  {es : List WriterEffect} {isRow : ChangeEvent → Bool} {i i₀ : ℕ} {e : ChangeEvent}

lemma step_dispatched (f : Formatter) (cfg : ConcurrentSinkConfig) (s : ConcurrentSinkWriter)
    (move : WriterMove) :
    ((writer f cfg).step s move).1.dispatcher.workerCount = s.dispatcher.workerCount ∧
      ∀ i e, .dispatched i e ∈ ((writer f cfg).step s move).2 →
        ∃ schema, move = .dispatch e schema ∧
          i = (s.dispatcher.calculateWorkerID f e schema).1 := by
  cases move with
  | dispatch e schema =>
    simp only [writer, ConcurrentSinkWriter.dispatch]
    split
    · simp
    · exact ⟨(s.dispatcher.calculateWorkerID_spec f e schema).2, by simp⟩
  | dispatchCancelled e schema =>
    exact ⟨(s.dispatcher.calculateWorkerID_spec f e schema).2, by simp [writer]⟩
  | close | closeReturn | receive | tick | attempt | giveUp =>
    simp only [writer, ConcurrentSinkWriter.attempt, ConcurrentSinkWriter.giveUp, setWorker]
    repeat' split
    all_goals simp

/-- The number of workers stays the same, so a row has one worker throughout. -/
lemma worker_of_row {schema : TableInfo} (hschema : HasKeyColumns schema) {keyText : Bytes}
    (hrow : ∀ e schema', .dispatch e schema' ∈ moves → isRow e = true →
      schema' = schema ∧ routingKey f schema e = keyText) (hisRow : isRow e = true) :
    .dispatched i e ∈ (runWriter f cfg moves).2 →
      i = (fnv32 (hashText schema keyText)).toNat % normalizedWorkerCount cfg.workerCount := by
  have hmoves : (writer f cfg).Meets (fun _ move => move ∈ moves) (newConcurrentSinkWriter cfg)
      moves :=
    (writer f cfg).meets_imp_of_mem (fun _ hmem _ _ => hmem) ((writer f cfg).meets_true _ _)
  refine ((writer f cfg).run_induction_of_meets
    (motive := fun s es => s.dispatcher.workerCount = normalizedWorkerCount cfg.workerCount ∧
      ∀ i, .dispatched i e ∈ es → i = (fnv32 (hashText schema keyText)).toNat %
        normalizedWorkerCount cfg.workerCount) hmoves
    ⟨rfl, fun _ h => absurd h not_mem_nil⟩ ?_).2 i
  intro s es move hmove ⟨hcount, hes⟩
  obtain ⟨hstep, hdispatched⟩ := step_dispatched f cfg s move
  refine ⟨hstep.trans hcount, fun i h => (mem_append.mp h).elim (hes i) fun hnew => ?_⟩
  obtain ⟨schema', rfl, rfl⟩ := hdispatched i e hnew
  obtain ⟨rfl, rfl⟩ := hrow e schema' hmove hisRow
  rw [calculateWorkerID_of_key hschema, hcount]

lemma filter_dispatchedEvents (h : ∀ i e, .dispatched i e ∈ es → isRow e = true → i = i₀) :
    (dispatchedEvents es).filter isRow = (dispatchedTo i₀ es).filter isRow := by
  rw [dispatchedEvents, dispatchedTo, filter_filterMap, filter_filterMap]
  refine filterMap_congr fun eff hmem => ?_
  rcases eff with ⟨i, e⟩ | - | -
  · have hi := h i e hmem
    by_cases hworker : i = i₀ <;> simp_all [Option.filter]
  · rfl
  · rfl

lemma filter_writtenEvents
    (h : ∀ i batch, .wrote i batch ∈ es → ∀ e ∈ batch, isRow e = true → i = i₀) :
    (writtenEvents es).filter isRow = (writtenBy i₀ es).flatten.filter isRow := by
  induction es with
  | nil => rfl
  | cons eff es ih =>
    have ih := ih fun i batch hmem => h i batch (mem_cons_of_mem _ hmem)
    rcases eff with - | ⟨i, batch⟩ | -
    · exact ih
    · show (batch ++ writtenEvents es).filter isRow = _
      rw [filter_append, ih]
      by_cases hworker : i = i₀
      · simp [writtenBy, hworker]
      · have hnone : batch.filter isRow = [] :=
          filter_eq_nil_iff.mpr fun e he hisRow => hworker (h i batch mem_cons_self e he hisRow)
        simp [writtenBy, hworker, hnone]
    · exact ih

end RowOrder

/-- **The changes of a row reach the sink in order.** Take events of one row of a table with a
primary or unique key, told by the key text of the images that route them. In every run in which no
batch is dropped, the sink has accepted a first part of those dispatched, in the order of the calls
of `Write`, and all of them when `Close` has returned. -/
theorem rows_inOrder (f : Formatter) (cfg : ConcurrentSinkConfig) (moves : List WriterMove)
    (haccepted : (writer f cfg).Meets (NoBatchDropped cfg) (newConcurrentSinkWriter cfg) moves)
    (schema : TableInfo) (hschema : HasKeyColumns schema) (keyText : Bytes)
    (isRow : ChangeEvent → Bool)
    (hrow : ∀ e schema', .dispatch e schema' ∈ moves → isRow e = true →
      schema' = schema ∧ routingKey f schema e = keyText) :
    (writtenEvents (runWriter f cfg moves).2).filter isRow <+:
        (dispatchedEvents (runWriter f cfg moves).2).filter isRow ∧
      ((runWriter f cfg moves).1.closeReturned = true →
        (writtenEvents (runWriter f cfg moves).2).filter isRow =
          (dispatchedEvents (runWriter f cfg moves).2).filter isRow) := by
  have haccounts := accounts_runWriter haccepted
  obtain ⟨i₀, hworker⟩ : ∃ i₀, ∀ i e, .dispatched i e ∈ (runWriter f cfg moves).2 →
      isRow e = true → i = i₀ := ⟨_, fun _ _ h hisRow => worker_of_row hschema hrow hisRow h⟩
  -- Each worker has written a first part of what was dispatched to it.
  have hpart : ∀ i, (writtenBy i (runWriter f cfg moves).2).flatten <+:
      dispatchedTo i (runWriter f cfg moves).2 := fun i => ⟨_, (haccounts.worker i).events.symm⟩
  have hwritten : ∀ i batch, .wrote i batch ∈ (runWriter f cfg moves).2 →
      ∀ e ∈ batch, isRow e = true → i = i₀ := by
    intro i batch hmem e he
    have hbatch : batch ∈ writtenBy i (runWriter f cfg moves).2 :=
      mem_filterMap.mpr ⟨_, hmem, if_pos rfl⟩
    exact hworker i e (dispatched_mem ((hpart i).subset (mem_flatten_of_mem hbatch he)))
  rw [filter_dispatchedEvents hworker, filter_writtenEvents hwritten]
  refine ⟨(hpart i₀).filter isRow, fun hreturned => congrArg (filter isRow) ?_⟩
  by_cases hi : i₀ < (runWriter f cfg moves).1.dispatcher.workerCount
  · exact (haccounts.worker i₀).flatten_of_exited ((haccounts.returned hreturned).2 i₀ hi)
  · -- Nothing is dispatched to a worker that does not exist.
    have hnone : dispatchedTo i₀ (runWriter f cfg moves).2 = [] :=
      eq_nil_iff_forall_not_mem.mpr fun e he => hi (haccounts.known i₀ e (dispatched_mem he))
    rw [hnone, ← prefix_nil, ← hnone]
    exact hpart i₀

/-! ## `Close` returns -/

/-- A bound on the steps of a flush: its attempts, the end of the loop and the exit of the
worker. -/
def Flush.remaining (cfg : ConcurrentSinkConfig) (fl : Flush) : ℕ :=
  (cfg.maxRetry.toInt + 1 - fl.attempt).toNat + 2

/-- A bound on the steps of a worker with what it has. An event costs more than a flush. -/
def SinkWorker.remaining (cfg : ConcurrentSinkConfig) (w : SinkWorker) : ℕ :=
  let flush := (cfg.maxRetry.toInt + 1).toNat + 2
  w.eventCh.length * (flush + 2) + (if w.buffer = [] then 0 else flush + 1) +
    (w.flushing.elim 0 (Flush.remaining cfg) + if w.exited then 0 else 1)

/-- A bound on the steps of all workers and of `Close`. -/
def ConcurrentSinkWriter.remaining (cfg : ConcurrentSinkConfig) (s : ConcurrentSinkWriter) : ℕ :=
  ∑ i ∈ Finset.range s.dispatcher.workerCount, (s.workers i).remaining cfg +
    if s.closeReturned then 0 else 1

/-- The moves that are left when `Close` has been called. -/
def Works (s : ConcurrentSinkWriter) : WriterMove → Prop
  | .receive i | .tick i | .attempt i _ | .giveUp i => i < s.dispatcher.workerCount
  | .closeReturn => True
  | _ => False

instance (s : ConcurrentSinkWriter) : (move : WriterMove) → Decidable (Works s move)
  | .receive i | .tick i | .attempt i _ | .giveUp i =>
    inferInstanceAs (Decidable (i < s.dispatcher.workerCount))
  | .closeReturn => isTrue trivial
  | .dispatch _ _ | .dispatchCancelled _ _ | .close => isFalse id

/-- None of these moves changes the state. -/
def AtRest (f : Formatter) (cfg : ConcurrentSinkConfig) (s : ConcurrentSinkWriter) : Prop :=
  ∀ move, Works s move → ((writer f cfg).step s move).1 = s

section Close

variable {f : Formatter} {cfg : ConcurrentSinkConfig} {s : ConcurrentSinkWriter} {w : SinkWorker}

lemma remaining_startFlush (hidle : w.idle = true) {exits : Bool}
    (hwork : w.buffer = [] → exits = true) :
    (w.startFlush exits).remaining cfg < w.remaining cfg := by
  obtain ⟨hexited, hflushing⟩ := (WorkerAccounts.idle_iff w).mp hidle
  unfold SinkWorker.startFlush
  split
  · next hempty => simp [SinkWorker.remaining, hempty, hwork hempty, hexited]
  · next hne => simp [SinkWorker.remaining, Flush.remaining, hne, hexited, hflushing]

lemma remaining_receive (hidle : w.idle = true) (limit : ℕ) {closed : Bool}
    (hwork : w.eventCh = [] → closed = true) :
    (w.receive limit closed).remaining cfg < w.remaining cfg := by
  unfold SinkWorker.receive
  split
  · next e rest hch =>
    -- The event leaves the channel for the buffer, which pays for the flush.
    have hbuffer : ({ w with eventCh := rest, buffer := w.buffer ++ [e] } : SinkWorker).remaining
        cfg < w.remaining cfg := by
      have hne : w.buffer ++ [e] ≠ [] := by simp
      simp only [SinkWorker.remaining, hch, length_cons, Nat.succ_mul, if_neg hne]
      split <;> omega
    dsimp only
    split
    · exact (remaining_startFlush (by exact hidle) (by simp)).trans hbuffer
    · exact hbuffer
  · next hch =>
    rw [if_pos (hwork hch)]
    exact remaining_startFlush hidle fun _ => rfl

/-- The end of a flush, in whatever way. -/
lemma remaining_flushed {fl : Flush} (hfl : w.flushing = some fl) {w' : SinkWorker}
    (hch : w'.eventCh = w.eventCh) (hbuffer : w'.buffer = w.buffer) (hnone : w'.flushing = none) :
    w'.remaining cfg < w.remaining cfg := by
  have hexit : (if w'.exited then 0 else 1) ≤ 1 := by split <;> omega
  simp only [SinkWorker.remaining, hch, hbuffer, hnone, hfl, elim_none, elim_some, Flush.remaining]
  omega

lemma remaining_setWorker {i : ℕ} (hi : i < s.dispatcher.workerCount)
    (hw : w.remaining cfg < (s.workers i).remaining cfg) :
    (s.setWorker i w).remaining cfg < s.remaining cfg := by
  refine Nat.add_lt_add_right (Finset.sum_lt_sum (fun j _ => ?_) ⟨i, Finset.mem_range.mpr hi, ?_⟩) _
  · rcases eq_or_ne j i with rfl | hj
    · simpa using hw.le
    · exact (congrArg (SinkWorker.remaining cfg) (s.workers_setWorker_of_ne hj w)).le
  · simpa using hw

/-- A move changes nothing or brings the end nearer. -/
lemma step_eq_or_lt {move : WriterMove} (hworks : Works s move) :
    ((writer f cfg).step s move).1 = s ∨
      ((writer f cfg).step s move).1.remaining cfg < s.remaining cfg := by
  cases move with
  | dispatch | dispatchCancelled | close => exact hworks.elim
  | closeReturn =>
    dsimp only [writer]
    split
    · next hready =>
      right
      simp at hready
      simp [ConcurrentSinkWriter.remaining, hready]
    · exact .inl rfl
  | receive i =>
    dsimp only [writer]
    split
    · next hidle =>
      by_cases hwork : (s.workers i).eventCh = [] ∧ s.closed = false
      · have hsame : (s.workers i).receive cfg.batchLimit s.closed = s.workers i := by
          simp [SinkWorker.receive, hwork]
        exact .inl (by rw [hsame, ConcurrentSinkWriter.setWorker, update_eq_self])
      · exact .inr (remaining_setWorker hworks (remaining_receive hidle _ (by simpa using hwork)))
    · exact .inl rfl
  | tick i =>
    dsimp only [writer]
    split
    · next hidle =>
      by_cases hempty : (s.workers i).buffer = []
      · exact .inl (by simp [SinkWorker.tick, hempty, ConcurrentSinkWriter.setWorker])
      · rw [SinkWorker.tick, if_neg hempty]
        exact .inr <| remaining_setWorker hworks <|
          remaining_startFlush hidle fun h => absurd h hempty
    · exact .inl rfl
  | attempt i ok =>
    dsimp only [writer, ConcurrentSinkWriter.attempt]
    split
    · exact .inl rfl
    · next fl hfl =>
      split
      · split
        · exact .inr (remaining_setWorker hworks (remaining_flushed hfl rfl rfl rfl))
        · refine .inr (remaining_setWorker hworks ?_)
          rw [SinkWorker.remaining, SinkWorker.remaining, hfl]
          refine Nat.add_lt_add_left (Nat.add_lt_add_right ?_ _) _
          show Flush.remaining cfg _ < Flush.remaining cfg _
          simp only [Flush.remaining]
          omega
      · exact .inl rfl
  | giveUp i =>
    dsimp only [writer, ConcurrentSinkWriter.giveUp]
    split
    · exact .inl rfl
    · next fl hfl =>
      split
      · exact .inl rfl
      · exact .inr (remaining_setWorker hworks (remaining_flushed hfl rfl rfl rfl))

lemma closed_step {move : WriterMove} (hworks : Works s move) :
    ((writer f cfg).step s move).1.closed = s.closed := by
  cases move with
  | dispatch | dispatchCancelled | close => exact hworks.elim
  | closeReturn | receive i | tick i | attempt i ok | giveUp i =>
    simp only [writer, ConcurrentSinkWriter.attempt, ConcurrentSinkWriter.giveUp]
    repeat' split
    all_goals rfl

variable (f cfg) in
/-- As long as a worker has not returned, it can go on. -/
lemma exists_step_lt (hclosed : s.closed = true) (hall : s.allExited = false) :
    ∃ move, Works s move ∧ ((writer f cfg).step s move).1.remaining cfg < s.remaining cfg := by
  obtain ⟨i, hi, hexited⟩ : ∃ i < s.dispatcher.workerCount, (s.workers i).exited = false := by
    simpa [ConcurrentSinkWriter.allExited] using hall
  rcases hfl : (s.workers i).flushing with _ | fl
  · have hidle : (s.workers i).idle = true := (WorkerAccounts.idle_iff _).mpr ⟨hexited, hfl⟩
    refine ⟨.receive i, hi, ?_⟩
    simp only [writer, hidle, if_true]
    exact remaining_setWorker hi (remaining_receive hidle _ fun _ => hclosed)
  · by_cases hleft : (fl.attempt : ℤ) ≤ cfg.maxRetry.toInt
    · refine ⟨.attempt i true, hi, ?_⟩
      simp only [writer, ConcurrentSinkWriter.attempt, hfl, hleft, if_true]
      exact remaining_setWorker hi (remaining_flushed hfl rfl rfl rfl)
    · refine ⟨.giveUp i, hi, ?_⟩
      simp only [writer, ConcurrentSinkWriter.giveUp, hfl, hleft, if_false]
      exact remaining_setWorker hi (remaining_flushed hfl rfl rfl rfl)

lemma AtRest.allExited (h : AtRest f cfg s) (hclosed : s.closed = true) : s.allExited = true := by
  by_contra hall
  obtain ⟨move, hworks, hlt⟩ := exists_step_lt f cfg hclosed (Bool.eq_false_iff.mpr hall)
  rw [h move hworks] at hlt
  exact lt_irrefl _ hlt

lemma AtRest.closeReturned (h : AtRest f cfg s) (hclosed : s.closed = true) :
    s.closeReturned = true := by
  by_contra hreturned
  rw [Bool.not_eq_true] at hreturned
  have hstep := congrArg ConcurrentSinkWriter.closeReturned (h .closeReturn trivial)
  simp [writer, hclosed, hreturned, h.allExited hclosed] at hstep

end Close

/-- **`Close` returns.** In whatever state it is called, whatever `WriteBatch` answers, and in
whatever order the workers go on: only so many moves can change the state, and when none can any
more, all workers and `Close` have returned. -/
theorem close_returns (f : Formatter) (cfg : ConcurrentSinkConfig) (s : ConcurrentSinkWriter) :
    (∀ moves, (writer f cfg).Meets
        (fun s move => Works s move ∧ ((writer f cfg).step s move).1 ≠ s)
        { s with closed := true } moves → moves.length ≤ s.remaining cfg) ∧
      ∀ moves, (writer f cfg).Meets Works { s with closed := true } moves →
        AtRest f cfg ((writer f cfg).run { s with closed := true } moves).1 →
          ((writer f cfg).run { s with closed := true } moves).1.allExited = true ∧
            ((writer f cfg).run { s with closed := true } moves).1.closeReturned = true := by
  refine ⟨fun moves hmoves => ?_, fun moves hmoves hrest => ?_⟩
  · have hlt : ∀ s move, Works s move ∧ ((writer f cfg).step s move).1 ≠ s →
        ((writer f cfg).step s move).1.remaining cfg < s.remaining cfg :=
      fun s move hmove => (step_eq_or_lt hmove.1).resolve_left hmove.2
    have hlength := (writer f cfg).length_le_of_meets (ConcurrentSinkWriter.remaining cfg) hlt
      hmoves
    exact hlength
  · have hclosed := (writer f cfg).run_induction_of_meets (motive := fun s _ => s.closed = true)
      hmoves rfl fun s _ move hworks h => (closed_step hworks).trans h
    exact ⟨hrest.allExited hclosed, hrest.closeReturned hclosed⟩

/-! ## Two runs -/

/-- Two workers and batches of two, with one retry. -/
def smallConfig : ConcurrentSinkConfig := { workerCount := 2, batchSize := 2, maxRetry := 1 }

/-- Three users are inserted; the batches are full, flushed by the ticker or flushed at the end,
and one of them is accepted only at the second attempt. -/
def threeInserts : List WriterMove :=
  [.dispatch (userInsert 1 (lit "ann")) usersTable, .dispatch (userInsert 2 (lit "bob")) usersTable,
    .dispatch (userInsert 3 (lit "cyd")) usersTable, .receive 0, .receive 1, .receive 0, .receive 1,
    .tick 0, .tick 1, .attempt 0 false, .attempt 1 false, .attempt 0 true, .attempt 1 true, .close,
    .receive 0, .receive 1, .attempt 0 true, .attempt 1 true, .receive 0, .receive 1, .closeReturn]

/-- The three inserts are written when `Close` has returned. -/
theorem close_writes_all_threeInserts :
    WroteAll smallConfig (runWriter plainFormatter smallConfig threeInserts).1
      (runWriter plainFormatter smallConfig threeInserts).2 :=
  close_writes_all plainFormatter smallConfig threeInserts (by decide +kernel) (by decide +kernel)

/-- The same run, seen from the events that `Write` accepted. -/
theorem close_loses_nothing_threeInserts :
    (runWriter plainFormatter smallConfig threeInserts).1.closeReturned = true ∧
      LosesNothing (runWriter plainFormatter smallConfig threeInserts).1
        (runWriter plainFormatter smallConfig threeInserts).2 :=
  ⟨by decide +kernel,
    close_loses_nothing plainFormatter smallConfig threeInserts (by decide +kernel)⟩

/-- Two users are inserted and the first one is renamed, with a rejected attempt. -/
def insertAndRename : List WriterMove :=
  [.dispatch (userInsert 1 (lit "ann")) usersTable, .dispatch (userInsert 2 (lit "bob")) usersTable,
    .receive 0, .receive 1, .tick 0, .tick 1, .attempt 0 false, .attempt 1 false,
    .dispatch (userUpdate 1 (lit "ann") 1 (lit "eve")) usersTable, .attempt 0 true, .attempt 1 true,
    .receive 0, .receive 1, .close, .receive 0, .receive 1, .attempt 0 true, .attempt 1 true,
    .receive 0, .receive 1, .closeReturn]

/-- The event is routed as the first user. -/
def isFirstUser (e : ChangeEvent) : Bool := routingKey plainFormatter usersTable e = lit "id=1"

/-- The insert and the renaming of the first user are written, in this order. -/
theorem rows_inOrder_insertAndRename :
    ((dispatchedEvents (runWriter plainFormatter smallConfig insertAndRename).2).filter
        isFirstUser).map ChangeEvent.type = [.insert, .update] ∧
      (writtenEvents (runWriter plainFormatter smallConfig insertAndRename).2).filter isFirstUser =
        (dispatchedEvents (runWriter plainFormatter smallConfig insertAndRename).2).filter
          isFirstUser := by
  refine ⟨by decide +kernel, (rows_inOrder plainFormatter smallConfig insertAndRename
    (by decide +kernel) usersTable (.inl rfl) (lit "id=1") isFirstUser ?_).2 (by decide +kernel)⟩
  intro e schema' h hrow
  simp only [insertAndRename, mem_cons, WriterMove.dispatch.injEq, reduceCtorEq, not_mem_nil,
    or_false, false_or] at h
  exact ⟨by rcases h with ⟨-, h⟩ | ⟨-, h⟩ | ⟨-, h⟩ <;> exact h, of_decide_eq_true hrow⟩

/-- One worker and batches of one, without a retry. -/
def noRetry : ConcurrentSinkConfig := { workerCount := 1, batchSize := 1, maxRetry := 0 }

/-- One user is inserted, the only attempt to write the batch fails, and the writer is closed. -/
def failedInsert : List WriterMove :=
  [.dispatch (userInsert 1 (lit "ann")) usersTable, .receive 0, .attempt 0 false, .giveUp 0, .close,
    .receive 0, .closeReturn]

/-- `Close` is called with an event in the channel; its batch is rejected and dropped, and `Close`
returns. -/
theorem close_returns_failedInsert :
    let s := (runWriter plainFormatter noRetry [.dispatch (userInsert 1 (lit "ann")) usersTable]).1
    ((writer plainFormatter noRetry).run { s with closed := true } [.receive 0, .attempt 0 false,
      .giveUp 0, .receive 0, .closeReturn]).1.closeReturned = true := by
  refine ((close_returns plainFormatter noRetry _).2 _ (by decide) fun move hworks => ?_).2
  cases move with
  | dispatch | dispatchCancelled | close => exact hworks.elim
  | closeReturn => rfl
  | receive i | tick i | attempt i ok | giveUp i =>
    obtain rfl : i = 0 := Nat.lt_one_iff.mp hworks
    rfl

/-- The insert was accepted, `Close` returned nil, and nothing was written. -/
theorem not_forall_close_loses_nothing :
    ¬ ∀ (f : Formatter) (cfg : ConcurrentSinkConfig) (moves : List WriterMove),
      LosesNothing (runWriter f cfg moves).1 (runWriter f cfg moves).2 := by
  intro h
  have hlost := h plainFormatter noRetry failedInsert (by decide) 0
  have hdispatched : (dispatchedTo 0 (runWriter plainFormatter noRetry failedInsert).2).length = 1 ∧
      (writtenBy 0 (runWriter plainFormatter noRetry failedInsert).2).length = 0 := by
    decide
  obtain ⟨e, he⟩ := length_eq_one_iff.mp hdispatched.1
  obtain ⟨batch, hbatch, -⟩ := hlost e (by rw [he]; exact mem_singleton_self e)
  exact absurd hbatch not_mem_nil

end DataStream.Sink
