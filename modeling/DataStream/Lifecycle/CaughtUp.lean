import DataStream.Cache.LocalBackend
import DataStream.Lifecycle.CatchingUpReplayer

/-!
# What a replay that is caught up has replayed

One call of `Replay` together with the goroutine of `LocalBackend.Read`, at the level of their
channels: the goroutine looks at the context before every record and while it waits to send,
reports an error on a channel of its own, and in any case closes the error channel first and the
event channel second. `Replay` waits on the context and on both channels and may take any of them
that is ready. The content of the cache file does not change meanwhile.

On an error and on a cancellation the event channel is closed just as at the end of the file, so
a `Replay` that happens to look there returns `CaughtUp = true`, against its own documentation.

* `replay_caughtUp_sound`: when a replay that is caught up has replayed everything.
-/

namespace DataStream.Lifecycle

open Event Cache List Option

namespace CaughtUp

/-- An error that the reader reports. -/
inductive ReaderError where
  | openFile
  | readFile
  /-- The content of the file is not a record. -/
  | record (err : ReadError)
  deriving DecidableEq, Repr

/-- Where the goroutine of `Read` is. -/
inductive Phase where
  | starting
  /-- At the top of the loop, before the look at the context. -/
  | looping (rest : Bytes) (emitting : Bool)
  /-- After the look at the context, before the next record. -/
  | reading (rest : Bytes) (emitting : Bool)
  | sending (ce : CacheEvent) (rest : Bytes)
  /-- The loop is left, and both channels are still open. -/
  | returning
  /-- The error channel is closed. -/
  | closing
  /-- Both channels are closed. -/
  | ended
  deriving DecidableEq, Repr

/-- How far the call of `Replay` is. -/
inductive Status where
  | running
  /-- It returned, with this value of `CaughtUp`. -/
  | returned (caughtUp : Bool)
  deriving DecidableEq, Repr

/-- A call of `Replay` and the goroutine that reads for it. -/
structure Session where
  phase : Phase
  events : List CacheEvent
  /-- The error that the reader has sent, until `Replay` takes it and returns. -/
  reported : Option ReaderError
  /-- Where the reader was when the context was cancelled. -/
  cancelledAt : Option Phase
  status : Status
  /-- The events that the sink has accepted. -/
  written : List ChangeEvent

/-- What `Replay` is called for: the cache file of the table and the start position. -/
structure Request where
  file : Option Bytes
  fromTxID : Bytes
  fromEventSeq : Int64

/-- One step of the reader, of `Replay` or of the outside. -/
inductive Move where
  | cancel
  | openFile (ok : Bool)
  | checkContext
  | readRecord (ok : Bool)
  | send
  /-- The reader stops waiting to send, because the context is cancelled. -/
  | stopSending
  /-- The reader closes the next of its channels. -/
  | close
  | takeCancelled
  | takeError
  /-- `Replay` takes from the event channel, within the upsert window or after it; the sink accepts
  or not. -/
  | takeEvent (upsert accepted : Bool)

namespace Session

/-- The start of a call. -/
def start : Session where
  phase := .starting
  events := []
  reported := none
  cancelledAt := none
  status := .running
  written := []

variable (s : Session)

def cancelled : Bool := s.cancelledAt.isSome

/-- Cancel the context; a second cancellation changes nothing. -/
def cancel : Session := { s with cancelledAt := some (s.cancelledAt.getD s.phase) }

def openFile (req : Request) (ok : Bool) : Session :=
  match s.phase, req.file with
  | .starting, none => { s with phase := .returning }
  | .starting, some content =>
    if ok then { s with phase := .looping content (req.fromTxID = []) }
    else { s with phase := .returning, reported := some .openFile }
  | _, _ => s

/-- The reader looks at the context before the next record. -/
def checkContext : Session :=
  match s.phase with
  | .looping rest emitting =>
    if s.cancelled then { s with phase := .returning }
    else { s with phase := .reading rest emitting }
  | _ => s

/-- The reader reads a record, and starts to emit at the start position. -/
def readRecord (req : Request) (ok : Bool) : Session :=
  match s.phase with
  | .reading rest emitting =>
    if ok then
      match Cache.readRecord rest with
      | .eof => { s with phase := .returning }
      | .error err => { s with phase := .returning, reported := some (.record err) }
      | .event ce rest' =>
        if emitting || startsAt req.fromTxID req.fromEventSeq ce then
          { s with phase := .sending ce rest' }
        else { s with phase := .looping rest' false }
    else { s with phase := .returning, reported := some .readFile }
  | _ => s

/-- The reader's event goes into the channel if there is room. -/
def send : Session :=
  match s.phase with
  | .sending ce rest =>
    if s.events.length < channelCapacity then
      { s with phase := .looping rest true, events := s.events ++ [ce] }
    else s
  | _ => s

/-- The reader gives up sending when the context is cancelled. -/
def stopSending : Session :=
  match s.phase with
  | .sending _ _ => if s.cancelled then { s with phase := .returning } else s
  | _ => s

/-- The deferred calls close the error channel and then the event channel. -/
def close : Session :=
  match s.phase with
  | .returning => { s with phase := .closing }
  | .closing => { s with phase := .ended }
  | _ => s

/-- The case of the select for the context. -/
def takeCancelled : Session := if s.cancelled then { s with status := .returned false } else s

/-- The case of the select for the error channel. An empty closed channel is passed over. -/
def takeError : Session := if s.reported.isSome then { s with status := .returned false } else s

/-- The case of the select for the event channel. -/
def takeEvent (upsert accepted : Bool) : Session :=
  match s.events, s.phase with
  | ce :: events, _ =>
    match deserializePayload ce.payload with
    | none => { s with events := events, status := .returned false }
    | some ev =>
      if accepted then
        { s with
          events := events
          written := s.written ++ [if upsert then markUpsert ev else ev] }
      else { s with events := events, status := .returned false }
  | [], .ended => { s with status := .returned true }
  | [], _ => s

end Session

open Session

variable (req : Request) (emitting : Bool)

/-- A call of `Replay` as a machine. A move that is not possible changes nothing. -/
def session : Machine Session Move Unit where
  step s move :=
    let next := match move with
      | .cancel => s.cancel
      | .openFile ok => s.openFile req ok
      | .checkContext => s.checkContext
      | .readRecord ok => s.readRecord req ok
      | .send => s.send
      | .stopSending => s.stopSending
      | .close => s.close
      | .takeCancelled => if s.status = .running then s.takeCancelled else s
      | .takeError => if s.status = .running then s.takeError else s
      | .takeEvent upsert accepted => if s.status = .running then s.takeEvent upsert accepted else s
    (next, [])

/-! ## What caught up should mean -/

/-- The events of a list were written in order, each as it was decoded or marked for upsert. -/
def Replayed (events : List CacheEvent) (written : List ChangeEvent) : Prop :=
  List.Forall₂ (fun ce ev => ∃ decoded, deserializePayload ce.payload = some decoded ∧
    (ev = decoded ∨ ev = markUpsert decoded)) events written

def Request.events : List CacheEvent := (readFile req.file req.fromTxID req.fromEventSeq).events

/-- The reader reported no error, the context was not cancelled before the reader had finished,
and every cached event from the start position on was written to the sink. -/
structure Complete (req : Request) (s : Session) : Prop where
  noError : s.reported = none
  notCancelled : ∀ phase, s.cancelledAt = some phase → phase = .ended
  replayed : Replayed req.events s.written

/-- A replay that returned `CaughtUp = true` is complete. -/
def Sound (s : Session) : Prop := s.status = .returned true → Complete req s

/-- When `Replay` takes the closed event channel, neither an error nor a cancellation is waiting as
well. -/
def Prompt (s : Session) : Move → Prop
  | .takeEvent _ _ =>
    s.status = .running → s.events = [] → s.phase = .ended → s.reported = none ∧ s.cancelled = false
  | _ => True

instance (s : Session) (move : Move) : Decidable (Prompt s move) := by
  unfold Prompt
  split <;> infer_instance

/-! ## What the reader has still to send -/

/-- Of the events to come, those that the reader emits. -/
def emitted (events : List CacheEvent) : List CacheEvent :=
  if emitting then events
  else events.dropWhile fun ce => !startsAt req.fromTxID req.fromEventSeq ce

/-- What an undisturbed reader has still to send. -/
def Phase.remaining : Phase → List CacheEvent
  | .starting => req.events
  | .looping rest emitting | .reading rest emitting => emitted req emitting (readAll rest).events
  | .sending ce rest => ce :: (readAll rest).events
  | .returning | .closing | .ended => []

def Phase.active : Phase → Bool
  | .returning | .closing | .ended => false
  | _ => true

lemma Phase.remaining_eq_nil {req : Request} {phase : Phase} (h : phase.active = false) :
    phase.remaining req = [] := by
  cases phase <;> first | rfl | cases h

lemma emitted_cons (ce : CacheEvent) (events : List CacheEvent) :
    emitted req emitting (ce :: events) =
      if emitting || startsAt req.fromTxID req.fromEventSeq ce then ce :: events
      else emitted req false events := by
  unfold emitted
  cases emitting with
  | true => rfl
  | false => cases hstarts : startsAt req.fromTxID req.fromEventSeq ce <;> simp [hstarts]

variable {req : Request}

lemma Request.events_some {content : Bytes} (h : req.file = some content) :
    req.events = emitted req (req.fromTxID = []) (readAll content).events := by
  rw [Request.events, h, readFile, eventsFrom, emitted]
  simp only [decide_eq_true_eq]

lemma emitted_readAll (req : Request) (emitting : Bool) (rest : Bytes) :
    emitted req emitting (readAll rest).events =
      match Cache.readRecord rest with
      | .eof | .error _ => []
      | .event ce rest' =>
        if emitting || startsAt req.fromTxID req.fromEventSeq ce then
          ce :: (readAll rest').events
        else emitted req false (readAll rest').events := by
  rw [readAll_eq]
  cases Cache.readRecord rest with
  | eof | error _ => cases emitting <;> rfl
  | event ce rest' => exact emitted_cons req emitting ce _

/-! ## The reader's steps -/

/-- What a step of the reader does, if anything: it leaves what `Replay` does alone. -/
inductive Reads (req : Request) (s s' : Session) : Prop
  | idle (heq : s' = s)
  /-- A reader in its loop goes on with the same events. -/
  | goesOn (hstatus : s'.status = s.status) (hwritten : s'.written = s.written)
      (hcancelledAt : s'.cancelledAt = s.cancelledAt) (hreported : s'.reported = s.reported)
      (hactive : s.phase.active = true)
      (hsame : s'.events ++ s'.phase.remaining req = s.events ++ s.phase.remaining req)
  /-- The reader is out of its loop. Unless it is disturbed, there is nothing more to send. -/
  | leaves (hstatus : s'.status = s.status) (hwritten : s'.written = s.written)
      (hcancelledAt : s'.cancelledAt = s.cancelledAt) (hevents : s'.events = s.events)
      (hactive : s'.phase.active = false) (hended : s.phase ≠ .ended)
      (hcause : s'.reported = none → s.cancelled = false →
        s.reported = none ∧ s.phase.remaining req = [])

section Reads

variable (s : Session)

lemma reads_openFile (ok : Bool) : Reads req s (s.openFile req ok) := by
  unfold openFile
  split
  · next hphase hfile =>
    refine .leaves rfl rfl rfl rfl rfl (by simp [hphase]) fun hnone _ => ⟨hnone, ?_⟩
    rw [hphase, Phase.remaining, Request.events, hfile]
    rfl
  · next content hphase hfile =>
    split
    · refine .goesOn rfl rfl rfl rfl (by rw [hphase]; rfl) ?_
      rw [hphase]
      exact congrArg (s.events ++ ·) (Request.events_some hfile).symm
    · exact .leaves rfl rfl rfl rfl rfl (by simp [hphase]) fun hnone _ => by cases hnone
  · exact .idle rfl

lemma reads_checkContext : Reads req s s.checkContext := by
  unfold checkContext
  split
  · next rest emitting hphase =>
    split
    · next hcancelled =>
      -- The reader is disturbed, and nothing is claimed any more.
      refine .leaves rfl rfl rfl rfl rfl (by simp [hphase]) fun _ hcancel => ?_
      rw [hcancel] at hcancelled
      cases hcancelled
    · exact .goesOn rfl rfl rfl rfl (by rw [hphase]; rfl) (by rw [hphase]; rfl)
  · exact .idle rfl

lemma reads_readRecord (ok : Bool) : Reads req s (s.readRecord req ok) := by
  unfold Session.readRecord
  split
  · next rest emitting hphase =>
    have hended : s.phase ≠ .ended := by simp [hphase]
    have hactive : s.phase.active = true := by
      rw [hphase]
      rfl
    have hremaining : s.phase.remaining req = emitted req emitting (readAll rest).events := by
      rw [hphase]
      rfl
    rw [emitted_readAll] at hremaining
    split
    · -- What is read is what was next, whether it is emitted or passed over.
      split
      · next hrec =>
        rw [hrec] at hremaining
        exact .leaves rfl rfl rfl rfl rfl hended fun hnone _ => ⟨hnone, hremaining⟩
      · exact .leaves rfl rfl rfl rfl rfl hended fun hnone _ => by cases hnone
      · next ce rest' hrec =>
        rw [hrec] at hremaining
        dsimp only at hremaining
        split
        · next hemits =>
          rw [if_pos hemits] at hremaining
          exact .goesOn rfl rfl rfl rfl hactive (congrArg (s.events ++ ·) hremaining.symm)
        · next hskips =>
          rw [if_neg hskips] at hremaining
          exact .goesOn rfl rfl rfl rfl hactive (congrArg (s.events ++ ·) hremaining.symm)
    · -- A failed read puts an error into the channel.
      exact .leaves rfl rfl rfl rfl rfl hended fun hnone _ => by cases hnone
  · exact .idle rfl

lemma reads_send : Reads req s s.send := by
  unfold send
  split
  · next ce rest hphase =>
    split
    · refine .goesOn rfl rfl rfl rfl (by rw [hphase]; rfl) ?_
      rw [hphase]
      exact append_assoc _ _ _
    · exact .idle rfl
  · exact .idle rfl

lemma reads_stopSending : Reads req s s.stopSending := by
  unfold stopSending
  split
  · next ce rest hphase =>
    split
    · next hcancelled =>
      refine .leaves rfl rfl rfl rfl rfl (by simp [hphase]) fun _ hcancel => ?_
      rw [hcancel] at hcancelled
      cases hcancelled
    · exact .idle rfl
  · exact .idle rfl

lemma reads_close : Reads req s s.close := by
  unfold close
  cases hphase : s.phase
  case returning | closing => exact .leaves rfl rfl rfl rfl rfl (by simp [hphase]) fun hnone _ =>
    ⟨hnone, by rw [hphase]; rfl⟩
  all_goals exact .idle rfl

end Reads

/-! ## The invariant -/

/-- While nothing disturbs the reader, the events of the cache are those that `Replay` has taken
and written, those in the channel and those still to be sent; and a replay that is caught up is
complete. -/
structure Invariant (req : Request) (s : Session) : Prop where
  accounts : s.reported = none → s.cancelled = false →
    ∃ taken, req.events = taken ++ (s.events ++ s.phase.remaining req) ∧
      (s.status = .running → Replayed taken s.written)
  complete : s.status = .returned true → s.phase = .ended ∧ Complete req s

/-- A step of the reader: the events in the channel and still to be sent stay the same unless the
reader is disturbed, and a reader that has ended does nothing. -/
lemma Invariant.reads {s s' : Session} (h : Invariant req s) (hreads : Reads req s s') :
    Invariant req s' := by
  obtain heq | ⟨hstatus, hwritten, hat, hended, hevents⟩ : s' = s ∨ s'.status = s.status ∧
      s'.written = s.written ∧ s'.cancelledAt = s.cancelledAt ∧ s.phase ≠ .ended ∧
      (s'.reported = none → s.cancelled = false → s.reported = none ∧
        s'.events ++ s'.phase.remaining req = s.events ++ s.phase.remaining req) := by
    cases hreads with
    | idle heq => exact .inl heq
    | goesOn hstatus hwritten hat hreported hactive hsame =>
      refine .inr ⟨hstatus, hwritten, hat, fun hended => ?_, fun hnone _ =>
        ⟨hreported ▸ hnone, hsame⟩⟩
      rw [hended] at hactive
      cases hactive
    | leaves hstatus hwritten hat hevents hactive hended hcause =>
      refine .inr ⟨hstatus, hwritten, hat, hended, fun hnone hcancel => ?_⟩
      obtain ⟨hreported, hremaining⟩ := hcause hnone hcancel
      exact ⟨hreported, by rw [hevents, hremaining, Phase.remaining_eq_nil hactive]⟩
  · exact heq ▸ h
  · refine ⟨fun hnone hcancel => ?_, fun hreturned => ?_⟩
    · rw [cancelled, hat] at hcancel
      obtain ⟨hreported, hsame⟩ := hevents hnone hcancel
      obtain ⟨taken, htaken, hreplayed⟩ := h.accounts hreported hcancel
      refine ⟨taken, by rw [htaken, hsame], fun hrunning => ?_⟩
      rw [hwritten]
      exact hreplayed (hstatus.symm.trans hrunning)
    · exact absurd (h.complete (hstatus.symm.trans hreturned)).1 hended

lemma Invariant.stopped {s s' : Session} (h : Invariant req s)
    (hstatus : s'.status = .returned false) (hreported : s'.reported = s.reported)
    (hcancelled : s'.cancelledAt = s.cancelledAt) (hphase : s'.phase = s.phase)
    (hevents : ∃ taken, s.events = taken ++ s'.events) : Invariant req s' where
  accounts hnone hcancel := by
    rw [cancelled, hcancelled] at hcancel
    obtain ⟨taken, htaken, -⟩ := h.accounts (hreported ▸ hnone) hcancel
    obtain ⟨more, hmore⟩ := hevents
    refine ⟨taken ++ more, ?_, fun hrunning => ?_⟩
    · rw [htaken, hmore, hphase]
      simp only [append_assoc]
    · rw [hstatus] at hrunning
      cases hrunning
  complete hreturned := by
    rw [hstatus] at hreturned
    cases hreturned

variable {s : Session}

section

variable (h : Invariant req s)
include h

lemma invariant_cancel : Invariant req s.cancel where
  accounts _ hcancel := by cases hcancel
  complete hreturned := by
    obtain ⟨hphase, hcomplete⟩ := h.complete hreturned
    refine ⟨hphase, hcomplete.noError, fun phase hat => ?_, hcomplete.replayed⟩
    -- The cancellation is the first one, after the reader has ended, or an earlier one.
    rw [cancel, some.injEq] at hat
    cases hcancelled : s.cancelledAt with
    | none =>
      rw [hcancelled, getD_none] at hat
      exact hat.symm.trans hphase
    | some first =>
      rw [hcancelled, getD_some] at hat
      exact hcomplete.notCancelled phase (hcancelled.trans (congrArg some hat))

/-- The case of the event channel: an event is written or ends the replay; the closed channel is
taken only when nothing disturbed the reader. -/
lemma invariant_takeEvent (hrunning : s.status = .running) (upsert accepted : Bool)
    (hprompt : Prompt s (.takeEvent upsert accepted)) :
    Invariant req (s.takeEvent upsert accepted) := by
  unfold takeEvent
  split
  · next ce events hevents =>
    split
    · exact h.stopped rfl rfl rfl rfl ⟨[ce], hevents⟩
    · next ev hdecode =>
      split
      · -- The sink accepts the event: it joins what has been taken and written.
        refine ⟨fun hnone hcancel => ?_, fun hreturned => ?_⟩
        · obtain ⟨taken, htaken, hreplayed⟩ := h.accounts hnone hcancel
          refine ⟨taken ++ [ce], ?_, fun _ => ?_⟩
          · rw [htaken, hevents]
            simp only [append_assoc, cons_append, nil_append]
          · refine rel_append (hreplayed hrunning) (.cons ⟨ev, hdecode, ?_⟩ .nil)
            cases upsert with
            | true => exact .inr rfl
            | false => exact .inl rfl
        · rw [hrunning] at hreturned
          cases hreturned
      · exact h.stopped rfl rfl rfl rfl ⟨[ce], hevents⟩
  · next hevents hphase =>
    -- The closed and drained channel is taken: by the condition nothing else was ready.
    obtain ⟨hnone, hcancel⟩ := hprompt hrunning hevents hphase
    obtain ⟨taken, htaken, hreplayed⟩ := h.accounts hnone hcancel
    refine ⟨fun _ _ => ⟨taken, htaken, fun hstatus => by cases hstatus⟩, fun _ => ⟨hphase, ?_⟩⟩
    rw [hevents, hphase, Phase.remaining, append_nil, append_nil] at htaken
    refine ⟨hnone, fun phase hat => ?_, htaken ▸ hreplayed hrunning⟩
    have hnever : s.cancelledAt = none := by
      rwa [cancelled, isSome_eq_false_iff, isNone_iff_eq_none] at hcancel
    rw [hnever] at hat
    cases hat
  · exact h

/-- One step that meets the condition preserves the invariant. -/
theorem Invariant.step (move : Move) (hprompt : Prompt s move) :
    Invariant req ((session req).step s move).1 := by
  cases move with
  | cancel => exact invariant_cancel h
  | openFile ok => exact h.reads (reads_openFile s ok)
  | checkContext => exact h.reads (reads_checkContext s)
  | readRecord ok => exact h.reads (reads_readRecord s ok)
  | send => exact h.reads (reads_send s)
  | stopSending => exact h.reads (reads_stopSending s)
  | close => exact h.reads (reads_close s)
  | takeCancelled =>
    dsimp only [session]
    split
    · unfold takeCancelled
      split
      · exact h.stopped rfl rfl rfl rfl ⟨[], rfl⟩
      · exact h
    · exact h
  | takeError =>
    dsimp only [session]
    split
    · unfold takeError
      split
      · exact h.stopped rfl rfl rfl rfl ⟨[], rfl⟩
      · exact h
    · exact h
  | takeEvent upsert accepted =>
    dsimp only [session]
    split
    · next hrunning => exact invariant_takeEvent h hrunning upsert accepted hprompt
    · exact h

end

end CaughtUp

open CaughtUp

/-- **Caught up means replayed.** In every run in which the closed event channel is taken only while
neither an error nor a cancellation is waiting, in every state reached: if `Replay` has returned
`CaughtUp = true`, the replay is complete. -/
theorem replay_caughtUp_sound (req : Request) (moves : List Move)
    (hprompt : (session req).Meets Prompt .start moves) :
    Sound req ((session req).run .start moves).1 := by
  have hinv : Invariant req ((session req).run .start moves).1 :=
    (session req).run_induction_of_meets (motive := fun s _ => Invariant req s) hprompt
      ⟨fun _ _ => ⟨[], rfl, fun _ => .nil⟩, by simp [Session.start]⟩
      fun s _ move hmove h => h.step move hmove
  exact fun hreturned => (hinv.complete hreturned).2

/-- Two cached events, to be replayed from the second one on. -/
def secondOfTwo : Request where
  file := some (recordOf (numberedEvent 1) ++ recordOf (numberedEvent 2))
  fromTxID := lit "gtid:7"
  fromEventSeq := 2

/-- The reader passes over the first event, sends the second and comes to the end of the file,
and `Replay` takes the event and then the closed channel. -/
def undisturbed : List Move :=
  [.openFile true, .checkContext, .readRecord true, .checkContext, .readRecord true, .send,
    .checkContext, .takeEvent true true, .readRecord true, .close, .takeError, .close,
    .takeEvent true true]

set_option maxRecDepth 100000 in
/-- An undisturbed replay is caught up and has written what it should. -/
theorem caughtUp_secondOfTwo :
    ((session secondOfTwo).run .start undisturbed).1.status = .returned true ∧
      Complete secondOfTwo ((session secondOfTwo).run .start undisturbed).1 := by
  have hreturned : ((session secondOfTwo).run .start undisturbed).1.status = .returned true := by
    decide
  exact ⟨hreturned, replay_caughtUp_sound secondOfTwo undisturbed (by decide) hreturned⟩

/-- A cache file whose second record is torn. -/
def tornFile : Request where
  file := some (recordOf (numberedEvent 1) ++ (recordOf (numberedEvent 2)).take 20)
  fromTxID := []
  fromEventSeq := 0

set_option maxRecDepth 100000 in
/-- The reader sends the first event, reports that the second record cannot be read and closes
both channels; `Replay` takes the event and then the closed event channel before the error. -/
theorem not_forall_caughtUp_sound :
    ¬ ∀ (req : Request) (moves : List Move), Sound req ((session req).run .start moves).1 := by
  intro h
  have hcomplete := h tornFile
    [.openFile true, .checkContext, .readRecord true, .send, .checkContext, .readRecord true,
      .close, .close, .takeEvent false true, .takeEvent false true] (by decide)
  exact absurd hcomplete.noError (by decide)

end DataStream.Lifecycle
