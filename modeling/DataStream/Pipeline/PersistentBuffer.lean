import DataStream.Event.ChangeEvent
import DataStream.Foundations.GoMap
import DataStream.Foundations.Machine

/-!
# The persistent buffer

`pipeline.PersistentBuffer`: an in-memory queue of limited capacity beside a key-value store on
disk. `Put` writes the event to the store and then adds it to the queue, `Get` takes from the queue
only, and `Replay` puts what is in the store back into the queue. The keys start with a sequence
number that counts the puts of one opening.

The store keeps what was written, iterates in the byte order of the keys, and refuses a write at
will; a context that is done may cut a `Put` short after the write.

* `makeKey_lt`: keys are in the order of their sequence numbers;
* `replay_oneOpening`: `Replay` puts back what was written, also what was taken since.
-/

namespace DataStream.Buffering

open Event Bytes List ChangeEvent

/-! ## The program -/

/-- A value, and the number of the `Put` call that it comes from, which is not stored. -/
structure Numbered (α : Type) where
  number : ℕ
  value : α

/-- A buffer and the store under its path. -/
structure PersistentBuffer where
  /-- The content of the Badger database. -/
  db : GoMap (Numbered Bytes)
  capacity : ℕ
  /-- The channel of the `MemoryBuffer`. -/
  events : List (Numbered ChangeEvent)
  closed : Bool
  /-- The sequence number of the last `Put` of this opening. -/
  seq : ℕ
  /-- The number of `Put` calls so far. -/
  puts : ℕ

/-- A call on the buffer, or a new opening of its path. -/
inductive BufferCall where
  /-- `Put`. The time stamp goes into the key; `stored` says whether the store accepts the write,
  and `cancelled` whether the context was done when the event was added to the queue. -/
  | put (e : ChangeEvent) (stamp : Bytes) (stored cancelled : Bool)
  | get (batchSize : ℕ)
  | close
  | openBuffer (capacity : ℤ)
  | replay

inductive BufferReply where
  /-- A `Put`: whether the event was written to the store, and whether it returned nil. -/
  | put (e : Numbered ChangeEvent) (written ok : Bool)
  | got (es : List (Numbered ChangeEvent))
  /-- A `Replay`: how many events it put back, and whether it returned nil. -/
  | replayed (count : ℕ) (ok : Bool)

namespace PersistentBuffer

/-- Before the first opening. -/
def new : PersistentBuffer where
  db := []
  capacity := 0
  events := []
  closed := true
  seq := 0
  puts := 0

variable (b : PersistentBuffer) (e : Numbered ChangeEvent)

/-- `nextSeq`, a `uint64`. -/
def nextSeq : ℕ := (b.seq + 1) % 2 ^ 64

/-- `makeKey`: the key `%020d_%s_%s_%s`. -/
def makeKey (seq : ℕ) (stamp : Bytes) (e : ChangeEvent) : Bytes :=
  Time.padded 20 seq ++
    (lit "_" ++ stamp ++ lit "_" ++ e.table.database ++ lit "_" ++ e.table.table)

/-- The keys that the `Put` calls of one opening make, one after the other. -/
def keys (b : PersistentBuffer) : List (Bytes × ChangeEvent) → List Bytes
  | [] => []
  | (stamp, e) :: puts => makeKey b.nextSeq stamp e :: keys { b with seq := b.nextSeq } puts

/-- A key with a smaller sequence number is smaller, whatever follows, so keys of one opening are in
call order. -/
theorem makeKey_lt :
    (∀ s t : ℕ, s < t → t < 2 ^ 64 → ∀ (stamp stamp' : Bytes) (e e' : ChangeEvent),
      makeKey s stamp e < makeKey t stamp' e') ∧
    ∀ (b : PersistentBuffer) (puts : List (Bytes × ChangeEvent)),
      b.seq + puts.length < 2 ^ 64 → (b.keys puts).Pairwise (· < ·) := by
  have hlt : ∀ s t : ℕ, s < t → t < 2 ^ 64 → ∀ (stamp stamp' : Bytes) (e e' : ChangeEvent),
      makeKey s stamp e < makeKey t stamp' e' :=
    fun s t hst ht _ _ _ _ => Time.padded_append_lt hst (by omega) _ _
  refine ⟨hlt, fun b puts => ?_⟩
  rw [← isChain_iff_pairwise]
  induction puts generalizing b with
  | nil => exact fun _ => .nil
  | cons put puts ih =>
    intro h
    rw [length_cons] at h
    have hnext : b.nextSeq = b.seq + 1 := Nat.mod_eq_of_lt (by omega)
    have hrest : b.nextSeq + puts.length < 2 ^ 64 := by omega
    rcases puts with _ | ⟨put', puts⟩
    · exact .singleton _
    · rw [length_cons] at hrest
      have hnext' : PersistentBuffer.nextSeq { b with seq := b.nextSeq } = b.nextSeq + 1 :=
        Nat.mod_eq_of_lt (show b.nextSeq + 1 < 2 ^ 64 by omega)
      exact isChain_cons_cons.mpr ⟨hlt _ _ (by omega) (by omega) _ _ _ _, ih _ hrest⟩

theorem makeKey_lt_nine_ten :
    makeKey 9 [] zero < makeKey 10 [] zero ∧ (new.keys [([], zero), ([], zero)]).Pairwise (· < ·) :=
  ⟨makeKey_lt.1 9 10 (by decide) (by decide) [] [] zero zero, makeKey_lt.2 new _ (by decide)⟩

/-- The part of `Put` that writes to the store: the buffer, and whether the event was written. -/
def persist (stamp : Bytes) (stored : Bool) : PersistentBuffer × Bool :=
  -- The sequence number is used up, also if the event cannot be encoded or stored.
  let b' := { b with seq := b.nextSeq }
  match e.value.marshal with
  | none => (b', false)
  | some data =>
    if stored then
      ({ b' with db := b.db.insert (makeKey b.nextSeq stamp e.value) ⟨e.number, data⟩ }, true)
    else (b', false)

/-- `MemoryBuffer.Put`, and whether it returns nil. -/
def enqueue (cancelled : Bool) : PersistentBuffer × Bool :=
  if !cancelled && b.events.length < b.capacity then
    ({ b with events := b.events ++ [e] }, true)
  else (b, false)

def put (e : ChangeEvent) (stamp : Bytes) (stored cancelled : Bool) :
    PersistentBuffer × BufferReply :=
  let e : Numbered ChangeEvent := ⟨b.puts, e⟩
  let b := { b with puts := b.puts + 1 }
  if b.closed then (b, .put e false false)
  else
    let r := b.persist e stamp stored
    if r.2 then
      let r := r.1.enqueue e cancelled
      (r.1, .put e true r.2)
    else (r.1, .put e false false)

/-- The loop of `Replay` over the values of the store, with the number of events put back so far:
it ends at the first event that finds the queue full, and skips what it cannot decode. -/
def replayAll (capacity : ℕ) (events : List (Numbered ChangeEvent)) (count : ℕ) :
    List (Numbered Bytes) → List (Numbered ChangeEvent) × ℕ × Bool
  | [] => (events, count, true)
  | ⟨number, data⟩ :: rest =>
    match unmarshal data with
    | none => replayAll capacity events count rest
    | some e =>
      if events.length < capacity then
        replayAll capacity (events ++ [⟨number, e⟩]) (count + 1) rest
      else (events, count, false)

/-- `Replay`, with a context that is not done. -/
def replay : PersistentBuffer × BufferReply :=
  if b.closed then (b, .replayed 0 false)
  else
    let r := replayAll b.capacity b.events 0 (b.db.map Prod.snd)
    ({ b with events := r.1 }, .replayed r.2.1 r.2.2)

/-- The capacity of a buffer that is opened with the given one. -/
def room (capacity : ℤ) : ℕ := if capacity ≤ 0 then 10000 else capacity.toNat

/-- `NewPersistentBuffer`: the store is locked while it is open. -/
def openBuffer (capacity : ℤ) : PersistentBuffer :=
  if b.closed then
    { b with
      capacity := room capacity
      events := []
      closed := false
      seq := 0 }
  else b

def machine : Machine PersistentBuffer BufferCall BufferReply where
  step b
    | .put e stamp stored cancelled =>
      let r := b.put e stamp stored cancelled
      (r.1, [r.2])
    -- The queue of a closed buffer can still be drained.
    | .get batchSize =>
      ({ b with events := b.events.drop batchSize }, [.got (b.events.take batchSize)])
    | .close => ({ b with closed := true }, [])
    | .openBuffer capacity => (b.openBuffer capacity, [])
    | .replay => (b.replay.1, [b.replay.2])

end PersistentBuffer

/-! ## What a reopened buffer should put back -/

open PersistentBuffer

/-- The events whose `Put` returned nil. -/
def returnedNil (replies : List BufferReply) : List (Numbered ChangeEvent) :=
  replies.filterMap fun
    | .put e _ true => some e
    | _ => none

def written (replies : List BufferReply) : List (Numbered ChangeEvent) :=
  replies.filterMap fun
    | .put e true _ => some e
    | _ => none

/-- The numbers of the puts whose events a `Get` has returned. -/
def got (replies : List BufferReply) : List ℕ :=
  replies.flatMap fun
    | .got es => es.map Numbered.number
    | _ => []

/-- The buffer is closed, opened with a capacity, and replayed. -/
def reopen (capacity : ℤ) : List BufferCall := [.close, .openBuffer capacity, .replay]

/-- A reopened buffer puts back exactly the events whose `Put` returned nil and that no `Get` has
returned. -/
def Recovers (calls : List BufferCall) (capacity : ℤ) : Prop :=
  let r := machine.run .new calls
  (machine.run r.1 (reopen capacity)).1.events =
    (returnedNil r.2).filter fun e => e.number ∉ got r.2

def BufferCall.isPut : BufferCall → Bool
  | .put .. => true
  | _ => false

def BufferCall.isOpen : BufferCall → Bool
  | .openBuffer _ => true
  | _ => false

/-- All puts are made in one opening. -/
def OneOpening (calls : List BufferCall) : Prop :=
  ∃ before during after, calls = before ++ during ++ after ∧
    (∀ call ∈ before, call.isPut = false) ∧ (∀ call ∈ after, call.isPut = false) ∧
    ∀ call ∈ during, call.isOpen = false

def text (e : Numbered ChangeEvent) : Option (Numbered Bytes) := e.value.marshal.map (⟨e.number, ·⟩)

/-- The event of a text, if it has one. -/
def read (t : Numbered Bytes) : Option (Numbered ChangeEvent) :=
  (unmarshal t.value).map (⟨t.number, ·⟩)

/-- An event as `Replay` reads it, if it can. -/
def reread (e : Numbered ChangeEvent) : Option (Numbered ChangeEvent) := (text e).bind read

/-! ## What the store lists -/

lemma written_append (replies replies' : List BufferReply) :
    written (replies ++ replies') = written replies ++ written replies' :=
  filterMap_append

variable (b : PersistentBuffer)

lemma replay_frame :
    b.replay.1.db = b.db ∧ b.replay.1.seq = b.seq ∧ b.replay.1.puts = b.puts ∧
      written [b.replay.2] = [] := by
  unfold PersistentBuffer.replay
  split_ifs <;> exact ⟨rfl, rfl, rfl, rfl⟩

lemma step_of_not_put {call : BufferCall} (h : call.isPut = false) :
    (machine.step b call).1.db = b.db ∧ (machine.step b call).1.seq ≤ b.seq ∧
      (machine.step b call).1.puts = b.puts ∧ written (machine.step b call).2 = [] := by
  cases call with
  | put e stamp stored cancelled => exact nomatch h
  | get | close => exact ⟨rfl, le_rfl, rfl, rfl⟩
  | openBuffer capacity =>
    refine ⟨?_, ?_, ?_, rfl⟩ <;> simp only [machine, openBuffer] <;> split_ifs <;>
      first | rfl | exact le_rfl | exact Nat.zero_le _
  | replay =>
    obtain ⟨hdb, hseq, hputs, hwritten⟩ := replay_frame b
    exact ⟨hdb, hseq.le, hputs, hwritten⟩

lemma run_of_not_put {calls : List BufferCall} (h : ∀ call ∈ calls, call.isPut = false)
    (b : PersistentBuffer) :
    (machine.run b calls).1.db = b.db ∧ (machine.run b calls).1.seq ≤ b.seq ∧
      (machine.run b calls).1.puts = b.puts ∧ written (machine.run b calls).2 = [] := by
  induction calls generalizing b with
  | nil => exact ⟨rfl, le_rfl, rfl, rfl⟩
  | cons call calls ih =>
    obtain ⟨hcall, hcalls⟩ := forall_mem_cons.mp h
    obtain ⟨hdb, hseq, hputs, hwritten⟩ := step_of_not_put b hcall
    obtain ⟨hdb', hseq', hputs', hwritten'⟩ := ih hcalls (machine.step b call).1
    rw [Machine.run_cons]
    refine ⟨hdb'.trans hdb, hseq'.trans hseq, hputs'.trans hputs, ?_⟩
    rw [written_append, hwritten, hwritten']
    rfl

/-- The store lists the given events in order, under keys with the sequence numbers of this
opening. -/
structure Written (b : PersistentBuffer) (es : List (Numbered ChangeEvent)) : Prop where
  values : b.db.map Prod.snd = es.filterMap text
  keys : ∀ key ∈ b.db.map Prod.fst, ∃ n ≤ b.seq, ∃ rest, key = Time.padded 20 n ++ rest
  seq_le : b.seq ≤ b.puts

namespace Written

variable {b : PersistentBuffer} {es : List (Numbered ChangeEvent)}

section

variable (h : Written b es)
include h

lemma of_eq {b' : PersistentBuffer} (hdb : b'.db = b.db) (hseq : b'.seq = b.seq)
    (hputs : b.puts ≤ b'.puts) : Written b' es where
  values := hdb ▸ h.values
  keys := by
    rw [hdb, hseq]
    exact h.keys
  seq_le := hseq ▸ h.seq_le.trans hputs

lemma skip (hnext : b.nextSeq = b.seq + 1) (hseq : b.seq < b.puts) :
    Written { b with seq := b.nextSeq } es where
  values := h.values
  keys key hkey := by
    obtain ⟨n, hn, rest, hrest⟩ := h.keys key hkey
    exact ⟨n, hnext ▸ hn.trans (Nat.le_succ _), rest, hrest⟩
  seq_le := hnext ▸ hseq

/-- A write goes behind all that is there, because its sequence number is the largest. -/
lemma insert (hnext : b.nextSeq = b.seq + 1) (hseq : b.seq < b.puts) (hputs : b.puts < 2 ^ 64)
    {e : Numbered ChangeEvent} {data : Bytes} (hdata : e.value.marshal = some data)
    (stamp : Bytes) :
    Written { b with
      db := b.db.insert (makeKey b.nextSeq stamp e.value) ⟨e.number, data⟩
      seq := b.nextSeq } (es ++ [e]) := by
  have hlast : ∀ key ∈ b.db.map Prod.fst, key < makeKey b.nextSeq stamp e.value := by
    intro key hkey
    obtain ⟨n, hn, rest, rfl⟩ := h.keys key hkey
    exact Time.padded_append_lt (by omega) (by omega) _ _
  have htext : text e = some ⟨e.number, data⟩ := by rw [text, hdata, Option.map_some]
  have hskip := h.skip hnext hseq
  rw [GoMap.insert_of_forall_lt _ _ hlast]
  refine ⟨?_, ?_, hskip.seq_le⟩
  · simp [h.values, htext]
  · intro key hkey
    rw [map_append, mem_append] at hkey
    rcases hkey with hkey | hkey
    · exact hskip.keys key hkey
    · rw [map_singleton, mem_singleton] at hkey
      exact ⟨b.nextSeq, le_rfl, _, hkey⟩

lemma persist (hseq : b.seq < b.puts) (hputs : b.puts < 2 ^ 64) (e : Numbered ChangeEvent)
    (stamp : Bytes) (stored : Bool) :
    Written (b.persist e stamp stored).1
      (es ++ if (b.persist e stamp stored).2 then [e] else []) := by
  have hnext : b.nextSeq = b.seq + 1 := Nat.mod_eq_of_lt (by omega)
  unfold PersistentBuffer.persist
  cases hdata : e.value.marshal with
  | none =>
    simp only [Bool.false_eq_true, if_false, append_nil]
    exact h.skip hnext hseq
  | some data =>
    cases stored with
    | false =>
      simp only [Bool.false_eq_true, if_false, append_nil]
      exact h.skip hnext hseq
    | true => exact h.insert hnext hseq hputs hdata stamp

lemma enqueue (e : Numbered ChangeEvent) (cancelled : Bool) :
    Written (b.enqueue e cancelled).1 es := by
  unfold PersistentBuffer.enqueue
  split_ifs
  · exact h.of_eq rfl rfl le_rfl
  · exact h

lemma put (hputs : b.puts + 1 < 2 ^ 64) (e : ChangeEvent) (stamp : Bytes)
    (stored cancelled : Bool) :
    Written (b.put e stamp stored cancelled).1
      (es ++ written [(b.put e stamp stored cancelled).2]) := by
  have hcounted : Written { b with puts := b.puts + 1 } es := h.of_eq rfl rfl (Nat.le_succ _)
  have hpersist := hcounted.persist (Nat.lt_succ_of_le h.seq_le) hputs ⟨b.puts, e⟩ stamp stored
  unfold PersistentBuffer.put
  dsimp only
  split_ifs with hclosed hstored
  · simpa only [written, filterMap_cons, filterMap_nil, append_nil] using hcounted
  · rw [if_pos hstored] at hpersist
    exact hpersist.enqueue ⟨b.puts, e⟩ cancelled
  · rw [if_neg hstored] at hpersist
    exact hpersist

theorem step {call : BufferCall} (hputs : call.isPut = true → b.puts + 1 < 2 ^ 64)
    (hopen : call.isOpen = false) :
    Written (machine.step b call).1 (es ++ written (machine.step b call).2) := by
  cases call with
  | put e stamp stored cancelled => exact h.put (hputs rfl) e stamp stored cancelled
  | get batchSize =>
    have hget : Written { b with events := b.events.drop batchSize } es := h.of_eq rfl rfl le_rfl
    exact (append_nil es).symm ▸ hget
  | close =>
    have hclose : Written { b with closed := true } es := h.of_eq rfl rfl le_rfl
    exact (append_nil es).symm ▸ hclose
  | openBuffer capacity => exact nomatch hopen
  | replay =>
    obtain ⟨hdb, hseq, hputs, hwritten⟩ := replay_frame b
    rw [show (machine.step b .replay).2 = [b.replay.2] from rfl, hwritten, append_nil]
    exact h.of_eq hdb hseq hputs.ge

end

end Written

lemma puts_put (e : ChangeEvent) (stamp : Bytes) (stored cancelled : Bool) :
    (b.put e stamp stored cancelled).1.puts = b.puts + 1 := by
  have hpersist : ∀ (b : PersistentBuffer) (e : Numbered ChangeEvent),
      (b.persist e stamp stored).1.puts = b.puts := by
    intro b e
    unfold persist
    cases e.value.marshal with
    | none => rfl
    | some data => cases stored <;> rfl
  have henqueue : ∀ (b : PersistentBuffer) (e : Numbered ChangeEvent),
      (b.enqueue e cancelled).1.puts = b.puts := by
    intro b e
    unfold enqueue
    split_ifs <;> rfl
  unfold put
  dsimp only
  split_ifs
  · rfl
  · rw [henqueue, hpersist]
  · rw [hpersist]

lemma puts_step (call : BufferCall) :
    (machine.step b call).1.puts = b.puts + if call.isPut then 1 else 0 := by
  cases hput : call.isPut with
  | false => exact (step_of_not_put b hput).2.2.1
  | true =>
    cases call with
    | put e stamp stored cancelled => exact puts_put b e stamp stored cancelled
    | get | close | openBuffer | replay => exact nomatch hput

lemma Written.run {b : PersistentBuffer} {es : List (Numbered ChangeEvent)} (h : Written b es)
    {calls : List BufferCall} (hputs : b.puts + calls.countP BufferCall.isPut < 2 ^ 64)
    (hopen : ∀ call ∈ calls, call.isOpen = false) :
    Written (machine.run b calls).1 (es ++ written (machine.run b calls).2) := by
  induction calls generalizing b es with
  | nil => exact (append_nil es).symm ▸ h
  | cons call calls ih =>
    obtain ⟨hcall, hcalls⟩ := forall_mem_cons.mp hopen
    rw [countP_cons] at hputs
    have hstep := h.step (fun hput => by rw [if_pos hput] at hputs; omega) hcall
    rw [Machine.run_cons, written_append, ← append_assoc]
    exact ih hstep (by rw [puts_step]; omega) hcalls

/-! ## Replaying -/

lemma replayAll_eq {capacity : ℕ} {events : List (Numbered ChangeEvent)} (count : ℕ)
    (h : events.length ≤ capacity) (texts : List (Numbered Bytes)) :
    replayAll capacity events count texts =
      (events ++ (texts.filterMap read).take (capacity - events.length),
        count + min (texts.filterMap read).length (capacity - events.length),
        decide (events.length + (texts.filterMap read).length ≤ capacity)) := by
  -- On the texts that are left; the buffer and the count are those reached so far.
  induction texts generalizing events count with
  | nil => simp [replayAll, h]
  | cons t texts ih =>
    obtain ⟨number, data⟩ := t
    rw [replayAll]
    cases hdata : unmarshal data with
    | none =>
      -- A text that cannot be decoded is passed over and not counted.
      simp [read, hdata, ih count h]
    | some e =>
      have hread : read ⟨number, data⟩ = some ⟨number, e⟩ := by simp [read, hdata]
      rw [filterMap_cons_some hread]
      dsimp only
      split_ifs with hroom
      · rw [ih (count + 1) (by simpa using hroom)]
        obtain ⟨k, hk⟩ : ∃ k, capacity - events.length = k + 1 :=
          ⟨capacity - events.length - 1, by omega⟩
        have hk' : capacity - (events.length + 1) = k := by omega
        rw [length_append, length_singleton, hk, hk', take_succ_cons, length_cons, append_assoc]
        refine Prod.ext rfl (Prod.ext ?_ ?_)
        · show count + 1 + _ = count + _
          omega
        · show decide _ = decide _
          exact decide_eq_decide.mpr (by omega)
      · -- The buffer is full, so `Replay` stops here with an error.
        have hfull : capacity - events.length = 0 := by omega
        have hmore : ¬ events.length + ((texts.filterMap read).length + 1) ≤ capacity := by
          omega
        rw [hfull, take_zero, append_nil, Nat.min_zero, Nat.add_zero,
          length_cons, decide_eq_false hmore]

lemma run_reopen (capacity : ℤ) :
    (machine.run b (reopen capacity)).1.events =
        ((b.db.map Prod.snd).filterMap read).take (room capacity) ∧
      (machine.run b (reopen capacity)).2 =
        [.replayed (min ((b.db.map Prod.snd).filterMap read).length (room capacity))
          (decide (((b.db.map Prod.snd).filterMap read).length ≤ room capacity))] := by
  have hopened : ({ b with closed := true } : PersistentBuffer).openBuffer capacity =
      { b with capacity := room capacity, events := [], closed := false, seq := 0 } := rfl
  have hempty : ([] : List (Numbered ChangeEvent)).length ≤ room capacity := Nat.zero_le _
  have hreplay := replayAll_eq 0 hempty (b.db.map Prod.snd)
  simp only [nil_append, length_nil, Nat.sub_zero, Nat.zero_add] at hreplay
  simp only [reopen, Machine.run, machine, hopened, PersistentBuffer.replay, hreplay,
    Bool.false_eq_true, if_false, nil_append, append_nil, and_self]

/-- If all puts are made in one opening, `Replay` on a reopened buffer puts back all events that
were written, each once and in put order, as they read back; if they do not fit, the first ones,
with an error. -/
theorem replay_oneOpening {calls : List BufferCall} (hone : OneOpening calls)
    (hputs : calls.countP BufferCall.isPut < 2 ^ 64) (capacity : ℤ) :
    let r := machine.run .new calls
    let back := (written r.2).filterMap reread
    (machine.run r.1 (reopen capacity)).1.events = back.take (room capacity) ∧
      (machine.run r.1 (reopen capacity)).2 =
        [.replayed (min back.length (room capacity)) (decide (back.length ≤ room capacity))] := by
  obtain ⟨before, during, after, rfl, hbefore, hafter, hduring⟩ := hone
  -- Nothing is in the store when the opening with the puts begins.
  obtain ⟨hdb, hseq, hcount, hwritten⟩ := run_of_not_put hbefore .new
  have hstart : Written (machine.run .new before).1 [] := by
    refine ⟨by rw [hdb]; rfl, fun key hkey => ?_, hseq.trans (Nat.zero_le _)⟩
    rw [hdb] at hkey
    exact absurd hkey not_mem_nil
  have hfew : (machine.run .new before).1.puts + during.countP BufferCall.isPut < 2 ^ 64 := by
    rw [countP_append, countP_append] at hputs
    have hzero : PersistentBuffer.new.puts = 0 := rfl
    omega
  have hlisted := hstart.run hfew hduring
  -- Nothing is written after it.
  obtain ⟨hdb', -, -, hwritten'⟩ :=
    run_of_not_put hafter (machine.run (machine.run .new before).1 during).1
  have hvalues : (machine.run .new (before ++ during ++ after)).1.db.map Prod.snd =
      (written (machine.run .new (before ++ during ++ after)).2).filterMap text := by
    rw [Machine.run_append, Machine.run_append, written_append, written_append, hdb', hwritten,
      hwritten', append_nil, hlisted.values]
  intro r back
  have hback : (r.1.db.map Prod.snd).filterMap read = back := by
    rw [hvalues, filterMap_filterMap]
    rfl
  obtain ⟨hevents, hreply⟩ := run_reopen r.1 capacity
  rw [hback] at hevents hreply
  exact ⟨hevents, hreply⟩

/-! ## An event that was taken -/

def takenEvent : List BufferCall :=
  [.openBuffer 10, .put zero (lit "20260102030405") true false, .get 1]

lemma oneOpening_takenEvent : OneOpening takenEvent :=
  ⟨[.openBuffer 10], [.put zero (lit "20260102030405") true false, .get 1], [], rfl,
    by decide, by decide, by decide⟩

/-- The event is put back. -/
theorem replay_takenEvent :
    (machine.run (machine.run .new takenEvent).1 (reopen 10)).1.events =
        ((written (machine.run .new takenEvent).2).filterMap reread).take (room 10) ∧
      (machine.run (machine.run .new takenEvent).1 (reopen 10)).2 =
        [.replayed
          (min ((written (machine.run .new takenEvent).2).filterMap reread).length (room 10))
          (decide (((written (machine.run .new takenEvent).2).filterMap reread).length ≤
            room 10))] :=
  replay_oneOpening oneOpening_takenEvent (by decide) 10

set_option maxRecDepth 10000 in
/-- What a `Get` has returned is put back too. -/
theorem not_forall_recovers :
    ¬ ∀ (calls : List BufferCall) (capacity : ℤ), Recovers calls capacity := by
  intro hall
  have hlength := congrArg List.length (hall takenEvent 10)
  exact absurd hlength (by decide)

end DataStream.Buffering
