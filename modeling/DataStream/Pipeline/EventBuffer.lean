import DataStream.Foundations.Machine
import Mathlib.Logic.Function.Basic

/-!
# The memory and the batch buffer

`pipeline.MemoryBuffer` is a buffered channel and a flag; `BatchBuffer` has a `Get` that waits, and
`Flush`, on top of it. Any number of clients call them at the same time. One step is the send of a
`Put`, which holds the lock that `Close` waits for, one receive of a `Get` or of a `Flush`, or
`Close`. With a capacity of zero the channel holds nothing: a `Put` is accepted only if a `Get` of
the batch buffer is waiting, which then has the event in the same step. A `Get` returns when it has
what it asked for, and at any time before: the channel is empty or closed, its timer has fired, or
its context is done.

What `Flush` takes goes to `pending`, where no `Get` looks for it.

* `Queue.step`, `queue_run`: in every interleaving the buffer is a queue.
-/

namespace DataStream.Buffering

open List Function

variable {κ α : Type}

/-- A `BatchBuffer` on a `MemoryBuffer`, with the calls of `Get` on their way. -/
structure EventBuffer (κ α : Type) where
  capacity : ℕ
  /-- What is in the channel. -/
  events : List α
  closed : Bool
  pending : List α
  /-- For a client that is in `Get`: how many events it still asks for, and those that it has. -/
  gets : κ → Option (ℕ × List α)

inductive BufferMove (κ α : Type) where
  /-- `Put`; with `cancelled` its select takes the context. -/
  | put (e : α) (cancelled : Bool)
  /-- `Put`, while the channel is empty and the `Get` of a client waits for an event. -/
  | handOver (e : α) (client : κ)
  | get (client : κ) (batchSize : ℕ)
  | receive (client : κ)
  | getReturn (client : κ)
  /-- One receive of a `Flush`. -/
  | flush
  | close

inductive BufferEffect (κ α : Type) where
  | accepted (e : α)
  /-- An event was received by the `Get` of a client, or by a `Flush`. -/
  | received (client : Option κ) (e : α)
  | returned (client : κ) (es : List α)

namespace EventBuffer

/-- `NewBatchBuffer`. -/
def new (capacity : ℕ) : EventBuffer κ α := ⟨capacity, [], false, [], fun _ => none⟩

variable [DecidableEq κ]

def machine : Machine (EventBuffer κ α) (BufferMove κ α) (BufferEffect κ α) where
  step b
    | .put e cancelled =>
      if b.closed || cancelled || b.capacity ≤ b.events.length then (b, [])
      else ({ b with events := b.events ++ [e] }, [.accepted e])
    | .handOver e c =>
      match b.gets c, b.events, b.closed with
      | some (n + 1, es), [], false =>
        ({ b with gets := update b.gets c (some (n, es ++ [e])) },
          [.accepted e, .received (some c) e])
      | _, _, _ => (b, [])
    | .get c batchSize =>
      if (b.gets c).isSome then (b, [])
      else ({ b with gets := update b.gets c (some (batchSize, [])) }, [])
    | .receive c =>
      match b.gets c, b.events with
      | some (n + 1, es), e :: rest =>
        ({ b with events := rest, gets := update b.gets c (some (n, es ++ [e])) },
          [.received (some c) e])
      | _, _ => (b, [])
    | .getReturn c =>
      match b.gets c with
      | some (_, es) => ({ b with gets := update b.gets c none }, [.returned c es])
      | none => (b, [])
    | .flush =>
      match b.events with
      | e :: rest => ({ b with events := rest, pending := b.pending ++ [e] }, [.received none e])
      | [] => (b, [])
    | .close => ({ b with closed := true }, [])

end EventBuffer

open EventBuffer

/-- The events that were accepted, in the order of the sends. -/
def accepted (es : List (BufferEffect κ α)) : List α :=
  es.filterMap fun
    | .accepted e => some e
    | _ => none

def receives (es : List (BufferEffect κ α)) : List (Option κ × α) :=
  es.filterMap fun
    | .received c e => some (c, e)
    | _ => none

variable [DecidableEq κ]

/-- What a client, or the flushes, have received. -/
def receivedBy (c : Option κ) (es : List (BufferEffect κ α)) : List α :=
  ((receives es).filter fun r => r.1 = c).map Prod.snd

/-- What the `Get` calls of a client have returned, one after the other. -/
def returnedTo (c : κ) (es : List (BufferEffect κ α)) : List α :=
  es.flatMap fun
    | .returned c' es => if c' = c then es else []
    | _ => []

/-- The buffer is a queue, and its clients share what comes out of it. -/
structure Queue (b : EventBuffer κ α) (es : List (BufferEffect κ α)) : Prop where
  order : accepted es = (receives es).map Prod.snd ++ b.events
  room : b.events.length ≤ b.capacity
  gets : ∀ c, receivedBy (some c) es = returnedTo c es ++ ((b.gets c).map Prod.snd).getD []
  pending : receivedBy none es = b.pending

variable {b : EventBuffer κ α} {es : List (BufferEffect κ α)}

/-- A step without an effect that leaves the channel and what the clients have. -/
lemma Queue.silent (h : Queue b es) {b' : EventBuffer κ α} (hcapacity : b'.capacity = b.capacity)
    (hevents : b'.events = b.events) (hpending : b'.pending = b.pending)
    (hgets : ∀ c, ((b'.gets c).map Prod.snd).getD [] = ((b.gets c).map Prod.snd).getD []) :
    Queue b' (es ++ []) := by
  rw [append_nil]
  exact ⟨hevents ▸ h.order, hevents ▸ hcapacity ▸ h.room, fun c => hgets c ▸ h.gets c,
    hpending ▸ h.pending⟩

theorem Queue.step (h : Queue b es) (move : BufferMove κ α) :
    Queue (machine.step b move).1 (es ++ (machine.step b move).2) := by
  obtain ⟨horder, hroom, hgets, hpending⟩ := id h
  simp only [accepted, receives, receivedBy, returnedTo] at horder hgets hpending
  cases move with
  | put e cancelled =>
    simp only [machine]
    split
    · exact h.silent rfl rfl rfl fun _ => rfl
    · next hopen =>
      refine ⟨?_, ?_, fun c => ?_, ?_⟩
      · simp [accepted, receives, horder]
      · simp at hopen ⊢
        omega
      · simp [receivedBy, receives, returnedTo, hgets]
      · simp [receivedBy, receives, hpending]
  | handOver e c =>
    simp only [machine]
    split
    · next n got hget hevents _ =>
      rw [hevents] at horder
      refine ⟨?_, hroom, fun c' => ?_, ?_⟩
      · simp [accepted, receives, horder, hevents]
      · rcases eq_or_ne c' c with rfl | hc
        · simp [receivedBy, receives, returnedTo, hgets, hget]
        · simp [receivedBy, receives, returnedTo, hgets, hc, hc.symm]
      · simp [receivedBy, receives, hpending]
    · exact h.silent rfl rfl rfl fun _ => rfl
  | get c batchSize =>
    simp only [machine]
    split
    · exact h.silent rfl rfl rfl fun _ => rfl
    · next hidle =>
      refine h.silent rfl rfl rfl fun c' => ?_
      rcases eq_or_ne c' c with rfl | hc
      · simp [Option.not_isSome_iff_eq_none.mp hidle]
      · simp [hc]
  | receive c =>
    simp only [machine]
    split
    · next n got e rest hget hevents =>
      rw [hevents] at horder hroom
      refine ⟨?_, ?_, fun c' => ?_, ?_⟩
      · simp [accepted, receives, horder]
      · exact (Nat.le_succ _).trans hroom
      · rcases eq_or_ne c' c with rfl | hc
        · simp [receivedBy, receives, returnedTo, hgets, hget]
        · simp [receivedBy, receives, returnedTo, hgets, hc, hc.symm]
      · simp [receivedBy, receives, hpending]
    · exact h.silent rfl rfl rfl fun _ => rfl
  | getReturn c =>
    simp only [machine]
    split
    · next n got hget =>
      refine ⟨?_, hroom, fun c' => ?_, ?_⟩
      · simp [accepted, receives, horder]
      · rcases eq_or_ne c' c with rfl | hc
        · simp [receivedBy, receives, returnedTo, hgets, hget]
        · simp [receivedBy, receives, returnedTo, hgets, hc, hc.symm]
      · simp [receivedBy, receives, hpending]
    · exact h.silent rfl rfl rfl fun _ => rfl
  | flush =>
    simp only [machine]
    split
    · next e rest hevents =>
      rw [hevents] at horder hroom
      refine ⟨?_, ?_, fun c => ?_, ?_⟩
      · simp [accepted, receives, horder]
      · exact (Nat.le_succ _).trans hroom
      · simp [receivedBy, receives, returnedTo, hgets]
      · simp [receivedBy, receives, hpending]
    · exact h.silent rfl rfl rfl fun _ => rfl
  | close => exact h.silent rfl rfl rfl fun _ => rfl

/-- **The buffers are queues.** However the calls interleave, what was accepted is what was
received, in order, and what is in the channel; no event is received twice, and one that a `Flush`
has received is in `pending` and returned by no `Get`. -/
theorem queue_run (capacity : ℕ) (moves : List (BufferMove κ α)) :
    Queue (machine.run (new capacity) moves).1 (machine.run (new capacity) moves).2 :=
  machine.run_induction moves (motive := Queue) ⟨rfl, Nat.zero_le _, fun _ => rfl, rfl⟩
    fun _ _ move h => h.step move

end DataStream.Buffering
