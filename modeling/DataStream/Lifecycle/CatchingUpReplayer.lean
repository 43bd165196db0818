import DataStream.Cache.Record
import DataStream.Event.ChangeEvent

/-!
# The replay of cached events

`CatchingUpReplayer.Replay` and the goroutine that `LocalBackend.Read` starts for it. The goroutine
opens the file of the table, reads record after record and puts the events into a channel of 64; at
the end of the file it closes the channel. The replay takes one event at a time from the channel
and writes it to the sink.

A file that is removed stays readable for a goroutine that has opened it, but what is cached later
goes to a new file. A record is written by a single call, so the reader sees it whole or not at all.
-/

namespace DataStream.Lifecycle

open Event Cache

/-- The goroutine that reads the cache file. -/
inductive Reader where
  | starting
  /-- The file of the table is open, and read up to an offset. -/
  | reading (offset : ℕ)
  /-- The open file was removed; these bytes of it are not yet read. -/
  | detached (rest : Bytes)
  /-- The end was reached and the channel is closed. -/
  | closed
  /-- An error was sent and the channel is closed. -/
  | failed (err : ReadError)
  deriving DecidableEq

/-- How far a replay is. -/
inductive ReplayStatus where
  | running
  | caughtUp
  | failed
  deriving DecidableEq, Repr

/-- A call of `Replay`. -/
structure Replay where
  reader : Reader
  queue : List CacheEvent
  /-- The event taken from the channel and not yet written. -/
  hand : Option ChangeEvent
  status : ReplayStatus

def channelCapacity : ℕ := 64

def deserializePayload (payload : Bytes) : Option ChangeEvent := ChangeEvent.unmarshal payload

def markUpsert (ev : ChangeEvent) : ChangeEvent :=
  { ev with metadata := ev.metadata.insert (lit "_write_mode") (lit "upsert") }

/-- The bytes that a reader has still to read, given the file of the table. -/
def Reader.rest (file : Option Bytes) : Reader → Bytes
  | .starting => file.getD []
  | .reading offset => (file.getD []).drop offset
  | .detached rest => rest
  | .closed | .failed _ => []

def Reader.isOpen : Reader → Bool
  | .reading _ | .detached _ => true
  | _ => false

/-- The reader will come to what is appended to the file of the table. -/
def Reader.follows : Reader → Bool
  | .starting | .reading _ => true
  | _ => false

/-- A reader after a number of bytes. -/
def Reader.advance (n : ℕ) : Reader → Reader
  | .reading offset => .reading (offset + n)
  | .detached rest => .detached (rest.drop n)
  | r => r

/-- A reader of a file that is removed. -/
def Reader.detach (file : Option Bytes) : Reader → Reader
  | .reading offset => .detached ((file.getD []).drop offset)
  | r => r

variable {file : Option Bytes} {reader : Reader}

/-- What is appended to the file is appended to what is unread, while the reader is before it. -/
lemma Reader.rest_append (bytes : Bytes) (hfollows : reader.follows = true)
    (hoffset : ∀ offset, reader = .reading offset → offset ≤ (file.getD []).length) :
    reader.rest (some (file.getD [] ++ bytes)) = reader.rest file ++ bytes := by
  cases reader with
  | starting => rfl
  | reading offset => exact List.drop_append_of_le_length (hoffset offset rfl)
  | _ => cases hfollows

lemma Reader.rest_advance (n : ℕ) (hopen : reader.isOpen = true) :
    (reader.advance n).rest file = (reader.rest file).drop n := by
  cases reader with
  | reading offset => exact List.drop_drop.symm
  | detached rest => rfl
  | _ => cases hopen

/-- The removal of a file leaves nothing to read, if nothing was left. -/
lemma Reader.rest_detach_eq_nil (h : reader.rest file = []) :
    (reader.detach file).rest none = [] := by
  cases reader with
  | starting => rfl
  | _ => exact h

namespace Replay

/-- `Replay` from the start of the cache. -/
def start : Replay := { reader := .starting, queue := [], hand := none, status := .running }

variable (file : Option Bytes) (r : Replay)

/-- The reader opens the file; without a file there are no events. -/
def openFile : Replay :=
  match r.reader, file with
  -- The goroutine returns without an error when the file does not exist.
  | .starting, none => { r with reader := .closed }
  | .starting, some _ => { r with reader := .reading 0 }
  | _, _ => r

/-- The reader reads a record and puts it into the channel, once there is room. -/
def read : Replay :=
  if r.reader.isOpen then
    let rest := r.reader.rest file
    match readRecord rest with
    | .eof => { r with reader := .closed }
    | .error err => { r with reader := .failed err }
    | .event ce rest' =>
      -- With a full channel the goroutine waits in its send; the record is read again later.
      if channelCapacity ≤ r.queue.length then r
      else
        { r with
          reader := r.reader.advance (rest.length - rest'.length)
          queue := r.queue ++ [ce] }
  else r

/-- What the reader can do: nothing, or with an open file, end, or put the next event into the
channel. -/
lemma read_cases :
    r.read file = r ∨ r.reader.isOpen = true ∧
      ((readRecord (r.reader.rest file) = .eof ∧ r.read file = { r with reader := .closed }) ∨
        (∃ err, readRecord (r.reader.rest file) = .error err) ∨
        ∃ ce rest', readRecord (r.reader.rest file) = .event ce rest' ∧
          r.read file =
            { r with
              reader := r.reader.advance ((r.reader.rest file).length - rest'.length)
              queue := r.queue ++ [ce] }) := by
  rw [read]
  split
  · rename_i hopen
    dsimp only
    cases readRecord (r.reader.rest file) with
    | eof => exact .inr ⟨hopen, .inl ⟨rfl, rfl⟩⟩
    | error err => exact .inr ⟨hopen, .inr (.inl ⟨err, rfl⟩)⟩
    | event ce rest' =>
      dsimp only
      split
      · exact .inl rfl
      · exact .inr ⟨hopen, .inr (.inr ⟨ce, rest', rfl, rfl⟩)⟩
  · exact .inl rfl

/-- The replay takes an event from the channel, within the upsert window or after it. It is caught
up when the channel is closed and empty. -/
def take (upsert : Bool) (r : Replay) : Replay :=
  if r.status ≠ .running ∨ r.hand.isSome then r
  else
    match r.queue, r.reader with
    | ce :: queue, _ =>
      match deserializePayload ce.payload with
      | none => { r with queue := queue, status := .failed }
      | some ev => { r with queue := queue, hand := some (if upsert then markUpsert ev else ev) }
    -- After an error both channels are ready, and the select may see the closed one first.
    | [], .closed | [], .failed _ => { r with status := .caughtUp }
    | [], _ => r

/-- What the replay can do with the channel: nothing, or when it is idle, take an event, fail at
one, or find it closed and empty. -/
lemma take_cases (upsert : Bool) (r : Replay) :
    r.take upsert = r ∨ r.status = .running ∧ r.hand = none ∧
      ((∃ ce queue, r.queue = ce :: queue ∧ deserializePayload ce.payload = none) ∨
        (∃ ce queue ev, r.queue = ce :: queue ∧ deserializePayload ce.payload = some ev ∧
          r.take upsert =
            { r with queue := queue, hand := some (if upsert then markUpsert ev else ev) }) ∨
        (r.queue = [] ∧ (r.reader = .closed ∨ ∃ err, r.reader = .failed err) ∧
          r.take upsert = { r with status := .caughtUp })) := by
  unfold take
  split
  · exact .inl rfl
  rename_i hidle
  rw [not_or, not_not, Bool.not_eq_true, Option.isSome_eq_false_iff, Option.isNone_iff_eq_none]
    at hidle
  split
  · rename_i ce queue hqueue
    split
    · exact .inr ⟨hidle.1, hidle.2, .inl ⟨ce, queue, hqueue, ‹_›⟩⟩
    · exact .inr ⟨hidle.1, hidle.2, .inr (.inl ⟨ce, queue, _, hqueue, ‹_›, rfl⟩)⟩
  · exact .inr ⟨hidle.1, hidle.2, .inr (.inr ⟨‹_›, .inl ‹_›, rfl⟩)⟩
  · exact .inr ⟨hidle.1, hidle.2, .inr (.inr ⟨‹_›, .inr ⟨_, ‹_›⟩, rfl⟩)⟩
  · exact .inl rfl

def takeError : Replay :=
  if r.status ≠ .running ∨ r.hand.isSome then r
  else
    match r.reader with
    | .failed _ => { r with status := .failed }
    | _ => r

end Replay

end DataStream.Lifecycle
