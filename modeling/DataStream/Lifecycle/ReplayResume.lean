import DataStream.Cache.Framing
import DataStream.Lifecycle.CaughtUp

/-!
# Resuming an interrupted replay

`Replay` returns the transaction id and the sequence number of the last event that it wrote, and a
later `Replay` starts to read from them. Neither need be unique in the cache, and the numbers need
not be in order. The scan for the start takes the first event with this transaction id and a number
that is not smaller, so it can start before the last event written, but not after it.

* `resume_without_loss`: reading again from the result of a replay loses nothing.
-/

namespace DataStream.Lifecycle

open Event Cache CaughtUp List

structure ReplayResult where
  caughtUp : Bool
  lastGTID : Bytes
  lastEventSeq : Int64
  eventsApplied : ℕ
  deriving DecidableEq, Repr

namespace ReplayResult

def zero : ReplayResult :=
  { caughtUp := false, lastGTID := [], lastEventSeq := 0, eventsApplied := 0 }

def applied (r : ReplayResult) (ce : CacheEvent) : ReplayResult :=
  { r with
    lastGTID := ce.txID
    lastEventSeq := ce.eventSeq
    eventsApplied := r.eventsApplied + 1 }

end ReplayResult

variable (req : Request) (s : Session)

/-- The cached event that a move writes: `Replay` takes it, its payload decodes and the sink accepts
it. -/
def CaughtUp.Session.writes : Move → List CacheEvent
  | .takeEvent _ true =>
    if s.status = .running then
      match s.events with
      | ce :: _ => if (deserializePayload ce.payload).isSome then [ce] else []
      | [] => []
    else []
  | _ => []

/-- A call of `Replay` with its result. It emits the cached events that are written. -/
def replaying : Machine (Session × ReplayResult) Move CacheEvent where
  step s move :=
    let next := ((session req).step s.1 move).1
    let result := (s.1.writes move).foldl ReplayResult.applied s.2
    ((next, { result with caughtUp := next.status = .returned true }), s.1.writes move)

/-- What a call of `Replay` has done after some moves. -/
def replay (moves : List Move) : (Session × ReplayResult) × List CacheEvent :=
  (replaying req).run (.start, .zero) moves

/-! ## What has been written -/

/-- The channel holds the next events to come, and a reader in its loop has still to send the
others. -/
def CaughtUp.Session.Sends (events : List CacheEvent) : Prop :=
  ∃ unsent, events = s.events ++ unsent ∧ (s.phase.active → unsent = s.phase.remaining req)

/-- The written events are the start of those to be replayed; the result counts them and names the
last. -/
structure Progress (req : Request) (s : Session × ReplayResult) (writes : List CacheEvent) :
    Prop where
  events_eq : ∃ tail, req.events = writes ++ tail ∧ (s.1.status = .running → s.1.Sends req tail)
  replayed : Replayed writes s.1.written
  applied : s.2.eventsApplied = writes.length
  last : ∀ before ce, writes = before ++ [ce] →
    s.2.lastGTID = ce.txID ∧ s.2.lastEventSeq = ce.eventSeq

section Reader

variable {req : Request} {s s' : Session}

/-- A step that leaves what `Replay` does alone and sends the events to come in their order. -/
structure ReaderStep (req : Request) (s s' : Session) : Prop where
  status : s'.status = s.status
  written : s'.written = s.written
  sends : ∀ events, s.Sends req events → s'.Sends req events

lemma ReaderStep.refl (s : Session) : ReaderStep req s s := ⟨rfl, rfl, fun _ => id⟩

lemma readerStep_of_reads (hreads : Reads req s s') : ReaderStep req s s' := by
  cases hreads with
  | idle heq =>
    subst heq
    exact .refl s'
  | goesOn hstatus hwritten _ _ hactive hsame =>
    refine ⟨hstatus, hwritten, fun events h => ?_⟩
    obtain ⟨unsent, htail, hunsent⟩ := h
    exact ⟨s'.phase.remaining req, by rw [htail, hunsent hactive, hsame], fun _ => rfl⟩
  | leaves hstatus hwritten _ hevents hactive _ _ =>
    refine ⟨hstatus, hwritten, fun events h => ?_⟩
    obtain ⟨unsent, htail, -⟩ := h
    exact ⟨unsent, by rw [htail, hevents], fun hin => by simp [hactive] at hin⟩

end Reader

section Progress

variable {req : Request} {s s' : Session} {result : ReplayResult} {writes : List CacheEvent}

lemma Progress.reader (h : Progress req (s, result) writes) (hstep : ReaderStep req s s')
    (caughtUp : Bool) : Progress req (s', { result with caughtUp := caughtUp }) writes := by
  obtain ⟨tail, htail, hsends⟩ := h.events_eq
  refine ⟨⟨tail, htail, fun hrunning => ?_⟩, ?_, h.applied, h.last⟩
  · exact hstep.sends tail (hsends (hstep.status.symm.trans hrunning))
  · rw [hstep.written]
    exact h.replayed

lemma Progress.returned (h : Progress req (s, result) writes) (hwritten : s'.written = s.written)
    (hstatus : s'.status ≠ .running) (caughtUp : Bool) :
    Progress req (s', { result with caughtUp := caughtUp }) writes := by
  obtain ⟨tail, htail, -⟩ := h.events_eq
  refine ⟨⟨tail, htail, fun hrunning => absurd hrunning hstatus⟩, ?_, h.applied, h.last⟩
  rw [hwritten]
  exact h.replayed

/-- An event is taken from the channel and written: it is the next of those to be replayed. -/
lemma Progress.write (h : Progress req (s, result) writes) (hrunning : s.status = .running)
    {ce : CacheEvent} {events : List CacheEvent} (hevents : s.events = ce :: events)
    {ev : ChangeEvent} (hdecode : deserializePayload ce.payload = some ev)
    (upsert caughtUp : Bool) :
    Progress req
      ({ s with
          events := events
          written := s.written ++ [if upsert then markUpsert ev else ev] },
        { result.applied ce with caughtUp := caughtUp })
      (writes ++ [ce]) := by
  obtain ⟨tail, htail, hsends⟩ := h.events_eq
  obtain ⟨unsent, hunsent, hphase⟩ := hsends hrunning
  refine ⟨⟨events ++ unsent, ?_, fun _ => ⟨unsent, rfl, hphase⟩⟩, ?_, ?_, ?_⟩
  · rw [htail, hunsent, hevents]
    simp
  · refine rel_append h.replayed (.cons ⟨ev, hdecode, ?_⟩ .nil)
    rcases upsert with _ | _
    · exact .inl rfl
    · exact .inr rfl
  · rw [length_append, ← h.applied]
    rfl
  · intro before last heq
    obtain ⟨-, hlast⟩ := append_inj' heq rfl
    obtain rfl := singleton_inj.mp hlast
    exact ⟨rfl, rfl⟩

private lemma step_replaying {move : Move} {cached : List CacheEvent}
    (hnext : ((session req).step s move).1 = s') (hwrites : s.writes move = cached) :
    (replaying req).step (s, result) move =
      ((s', { cached.foldl ReplayResult.applied result with
        caughtUp := s'.status = .returned true }), cached) := by
  subst hnext hwrites
  rfl

lemma Progress.takeEvent (h : Progress req (s, result) writes) (upsert accepted : Bool) :
    Progress req ((replaying req).step (s, result) (.takeEvent upsert accepted)).1
      (writes ++ ((replaying req).step (s, result) (.takeEvent upsert accepted)).2) := by
  have hquiet : ∀ s', ((session req).step s (.takeEvent upsert accepted)).1 = s' →
      s.writes (.takeEvent upsert accepted) = [] →
      (ReaderStep req s s' ∨ s'.written = s.written ∧ s'.status ≠ .running) →
      Progress req ((replaying req).step (s, result) (.takeEvent upsert accepted)).1
        (writes ++ ((replaying req).step (s, result) (.takeEvent upsert accepted)).2) := by
    intro s' hnext hwrites hstep
    rw [step_replaying hnext hwrites, append_nil]
    rcases hstep with hstep | ⟨hwritten, hstatus⟩
    · exact h.reader hstep _
    · exact h.returned hwritten hstatus _
  by_cases hrunning : s.status = .running
  · rcases hevents : s.events with _ | ⟨ce, events⟩
    · -- The channel is empty: it is closed, or `Replay` waits.
      refine hquiet _ rfl (by rcases accepted <;> simp [Session.writes, hevents]) ?_
      dsimp only [session]
      rw [if_pos hrunning, Session.takeEvent, hevents]
      split
      · simp_all
      · exact .inr ⟨rfl, by simp⟩
      · exact .inl (.refl s)
    · rcases hdecode : deserializePayload ce.payload with _ | ev
      · refine hquiet { s with events := events, status := .returned false } ?_ ?_
          (.inr ⟨rfl, by simp⟩)
        · simp [session, hrunning, Session.takeEvent, hevents, hdecode]
        · rcases accepted <;> simp [Session.writes, hevents, hdecode]
      · rcases accepted with _ | _
        · refine hquiet { s with events := events, status := .returned false } ?_ rfl
            (.inr ⟨rfl, by simp⟩)
          simp [session, hrunning, Session.takeEvent, hevents, hdecode]
        · have hnext : ((session req).step s (.takeEvent upsert true)).1 =
              { s with
                events := events
                written := s.written ++ [if upsert then markUpsert ev else ev] } := by
            simp [session, hrunning, Session.takeEvent, hevents, hdecode]
          have hwrites : s.writes (.takeEvent upsert true) = [ce] := by
            simp [Session.writes, hrunning, hevents, hdecode]
          rw [step_replaying hnext hwrites]
          exact h.write hrunning hevents hdecode upsert _
  · refine hquiet s ?_ ?_ (.inl (.refl s))
    · simp [session, hrunning]
    · rcases accepted <;> simp [Session.writes, hrunning]

lemma Progress.step {s : Session × ReplayResult} (h : Progress req s writes) (move : Move) :
    Progress req ((replaying req).step s move).1 (writes ++ ((replaying req).step s move).2) := by
  obtain ⟨s, result⟩ := s
  rcases move with _ | ok | _ | ok | _ | _ | _ | _ | _ | ⟨upsert, accepted⟩
  case takeEvent => exact h.takeEvent upsert accepted
  -- The other moves write nothing.
  all_goals
    change Progress req _ (writes ++ [])
    rw [append_nil]
  case cancel => exact h.reader (show ReaderStep req s s.cancel from ⟨rfl, rfl, fun _ => id⟩) _
  case openFile => exact h.reader (readerStep_of_reads (reads_openFile s ok)) _
  case checkContext => exact h.reader (readerStep_of_reads (reads_checkContext s)) _
  case readRecord => exact h.reader (readerStep_of_reads (reads_readRecord s ok)) _
  case send => exact h.reader (readerStep_of_reads (reads_send s)) _
  case stopSending => exact h.reader (readerStep_of_reads (reads_stopSending s)) _
  case close => exact h.reader (readerStep_of_reads (reads_close s)) _
  case takeCancelled =>
    by_cases htaken : s.status = .running ∧ s.cancelled
    · refine h.returned ?_ ?_ _ <;> simp [session, htaken, Session.takeCancelled]
    · have hstay : ((session req).step s .takeCancelled).1 = s := by
        dsimp only [session, Session.takeCancelled]
        grind
      rw [step_replaying hstay rfl]
      exact h.reader (.refl s) _
  case takeError =>
    by_cases htaken : s.status = .running ∧ s.reported.isSome
    · refine h.returned ?_ ?_ _ <;> simp [session, htaken, Session.takeError]
    · have hstay : ((session req).step s .takeError).1 = s := by
        dsimp only [session, Session.takeError]
        grind
      rw [step_replaying hstay rfl]
      exact h.reader (.refl s) _

/-- Every call of `Replay` has written the start of what it was asked to, and its result names the
last event. -/
theorem Progress.run (req : Request) (moves : List Move) :
    Progress req (replay req moves).1 (replay req moves).2 := by
  refine (replaying req).run_induction (motive := Progress req) moves ?_ fun s writes move h =>
    h.step move
  refine ⟨⟨req.events, rfl, fun _ => ⟨req.events, rfl, fun _ => rfl⟩⟩, .nil, rfl, ?_⟩
  intro before ce heq
  simp at heq

end Progress

/-! ## Reading from a position -/

lemma eventsFrom_suffix (fromTxID : Bytes) (fromEventSeq : Int64) (events : List CacheEvent) :
    eventsFrom fromTxID fromEventSeq events <:+ events := by
  rw [eventsFrom]
  split
  · exact suffix_refl events
  · exact dropWhile_suffix _

/-- A scan for an element does not skip one that it looks for, nor what follows it. -/
private lemma suffix_dropWhile {α : Type} (p : α → Bool) (before after : List α) {a : α}
    (ha : p a = false) : a :: after <:+ (before ++ a :: after).dropWhile p := by
  induction before with
  | nil => rw [nil_append, dropWhile_cons_of_neg (by simp [ha])]
  | cons b before ih =>
    rw [cons_append, dropWhile_cons]
    split
    · exact ih
    · exact (suffix_append before _).trans (suffix_cons b _)

/-- Reading from the position of a cached event delivers it and all after it: the scan may start
earlier, never later. -/
theorem suffix_eventsFrom (before after : List CacheEvent) (ce : CacheEvent) :
    ce :: after <:+ eventsFrom ce.txID ce.eventSeq (before ++ ce :: after) := by
  rw [eventsFrom]
  split
  · exact suffix_append before _
  · exact suffix_dropWhile _ before after (by simp [startsAt])

/-- What is appended to a file does not change the events before it. -/
lemma readAll_prefix_append (file more : Bytes) :
    (readAll file).events <+: (readAll (file ++ more)).events := by
  obtain ⟨frames, rest, hlongest, hevents, -⟩ := readAll_longest file
  obtain ⟨frames', rest', hlongest', hevents', -⟩ := readAll_longest (file ++ more)
  -- The records of the shorter file are a sequence of records of the longer one.
  have hsplits : Frames.Splits WellFormed (file ++ more) frames (rest ++ more) :=
    ⟨by rw [hlongest.eq, append_assoc], hlongest.isFrame⟩
  rw [hevents, hevents']
  exact (hlongest'.longest _ _ hsplits).map Prod.snd

/-- A call of `Replay` reads a cache file from any position and is interrupted anywhere after at
least one write, and more is appended to the file. Reading again from its result then delivers a
suffix of the cached events that contains every event after the last one written. -/
theorem resume_without_loss (file more fromTxID : Bytes) (fromEventSeq : Int64) (moves : List Move)
    (hwritten : 0 < (replay ⟨some file, fromTxID, fromEventSeq⟩ moves).1.2.eventsApplied) :
    let req : Request := ⟨some file, fromTxID, fromEventSeq⟩
    let result := (replay req moves).1.2
    let written := (replay req moves).2
    let cached := (readAll (file ++ more)).events
    let again := (readFile (some (file ++ more)) result.lastGTID result.lastEventSeq).events
    ∃ skipped after, (readAll file).events = skipped ++ req.events ∧
      cached = skipped ++ written ++ after ∧ after <:+ again ∧ again <:+ cached := by
  intro req result written cached again
  have hprogress := Progress.run req moves
  obtain ⟨skipped, hskipped⟩ := eventsFrom_suffix fromTxID fromEventSeq (readAll file).events
  obtain ⟨tail, htail, -⟩ := hprogress.events_eq
  obtain ⟨later, hlater⟩ := readAll_prefix_append file more
  have hcached : cached = skipped ++ written ++ (tail ++ later) := by
    calc cached = skipped ++ req.events ++ later :=
          hlater.symm.trans (congrArg (· ++ later) hskipped.symm)
      _ = skipped ++ (written ++ tail) ++ later := by rw [htail]
      _ = skipped ++ written ++ (tail ++ later) := by simp only [append_assoc]
  refine ⟨skipped, tail ++ later, hskipped.symm, hcached, ?_, eventsFrom_suffix _ _ _⟩
  -- The last event written is named by the result.
  rcases eq_nil_or_concat written with hnil | ⟨before, ce, hlast⟩
  · rw [hprogress.applied] at hwritten
    exact absurd hwritten (by rw [show (replay req moves).2 = [] from hnil]; exact lt_irrefl 0)
  · rw [concat_eq_append] at hlast
    obtain ⟨hgtid, hseq⟩ := hprogress.last before ce hlast
    have hsplit : cached = (skipped ++ before) ++ ce :: (tail ++ later) := by
      rw [hcached, hlast]
      simp
    have hagain : again = eventsFrom ce.txID ce.eventSeq cached := by
      rw [← hgtid, ← hseq]
      rfl
    rw [hagain, hsplit]
    exact (suffix_cons ce _).trans (suffix_eventsFrom _ _ ce)

def twoRecords : Bytes := recordOf (numberedEvent 1) ++ recordOf (numberedEvent 2)

set_option maxRecDepth 100000 in
/-- A replay from the start of two events that is cancelled after the first one has been written:
reading again from its result delivers a suffix with the second. -/
theorem resume_twoRecords :
    ∃ skipped after,
      (readAll twoRecords).events = skipped ++ (readFile (some twoRecords) [] 0).events ∧
      (readAll twoRecords).events = skipped ++ [numberedEvent 1] ++ after ∧
      after <:+ (readFile (some twoRecords) (lit "gtid:7") 1).events := by
  have hreplay : (replay ⟨some twoRecords, [], 0⟩
      [.openFile true, .checkContext, .readRecord true, .send, .takeEvent true true, .cancel,
        .takeCancelled]).1.2 =
          { caughtUp := false, lastGTID := lit "gtid:7", lastEventSeq := 1,
            eventsApplied := 1 } := by
    decide
  have hwrites : (replay ⟨some twoRecords, [], 0⟩
      [.openFile true, .checkContext, .readRecord true, .send, .takeEvent true true, .cancel,
        .takeCancelled]).2 = [numberedEvent 1] := by
    decide
  obtain ⟨skipped, after, hskipped, hcached, hafter, -⟩ :=
    resume_without_loss twoRecords [] [] 0
      [.openFile true, .checkContext, .readRecord true, .send, .takeEvent true true, .cancel,
        .takeCancelled] (by rw [hreplay]; decide)
  exact ⟨skipped, after, hskipped, hcached, hafter⟩

end DataStream.Lifecycle
