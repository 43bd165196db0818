import DataStream.Cache.Reader
import DataStream.Cache.Repair
import DataStream.Foundations.Machine
import DataStream.Source.TableLifecycle

/-!
# The local cache backend

`LocalBackend` keeps one append-only file per table under a base directory. The name of the file
is the table id with every character outside `[a-zA-Z0-9_]` replaced by an underscore, while the
open handles are kept under the table id itself. A handle opened for one id therefore refers to
the file that another id with the same file name also reads, cuts or removes; once the file is
removed from the directory, what is written through a handle that is still open is lost.

File operations are taken to succeed.

* `backend_refines_queue`: the calls on one table are those on an append-only queue;
* `read_unchanged_iff`: when the calls on one table leave the cache of another alone;
* `delivers_accepted_iff`: when the events accepted by `Write` are all delivered.
-/

namespace DataStream.Cache

open Bytes List Option Function CacheEvent

/-! ## The backend -/

/-- The bytes that `sanitizeRe` leaves alone: letters, digits and the underscore. -/
def isWordByte (b : UInt8) : Bool :=
  (97 ≤ b.toNat && b.toNat ≤ 122) || (65 ≤ b.toNat && b.toNat ≤ 90) ||
    (48 ≤ b.toNat && b.toNat ≤ 57) || b == 95

/-- One match of `sanitizeRe`: a rune outside the class, well-formed or not, becomes an
underscore. -/
def sanitizeRune : Utf8.Rune → UInt8
  | .valid [b] => if isWordByte b then b else 95
  | _ => 95

def sanitizeTableID (tableID : Bytes) : Bytes := (Utf8.runes tableID).map sanitizeRune

/-- `filePath`: the name of a table's file in the base directory. -/
def fileName (tableID : Bytes) : Bytes := sanitizeTableID tableID ++ lit ".binlog"

inductive Handle where
  /-- The file that stands in the directory under the name of the handle's table. -/
  | attached
  /-- A file that has been removed from the directory. -/
  | orphaned
  deriving DecidableEq, Repr

/-- The base directory and the table of open handles. -/
structure LocalBackend where
  /-- The content of the files in the base directory. -/
  files : Bytes → Option Bytes
  /-- The open handles, by table id. -/
  handles : Bytes → Option Handle

namespace LocalBackend

/-- `NewLocalBackend` on an empty directory. -/
def empty : LocalBackend := { files := fun _ => none, handles := fun _ => none }

variable (lb : LocalBackend) (tableID : Bytes)

def content : Option Bytes := lb.files (fileName tableID)

/-- Set or remove the file of a table id. -/
def setContent (content : Option Bytes) : LocalBackend :=
  { lb with files := update lb.files (fileName tableID) content }

/-- Set or drop the handle of a table id. -/
def setHandle (handle : Option Handle) : LocalBackend :=
  { lb with handles := update lb.handles tableID handle }

/-- `getFile`: the cached handle, or a new one that creates the file if there is none. -/
def getFile : LocalBackend :=
  match lb.handles tableID with
  | some _ => lb
  | none =>
    (lb.setContent tableID (some ((lb.content tableID).getD []))).setHandle tableID (some .attached)

/-- A write to the handle of a table, which appends. -/
def append (data : Bytes) : LocalBackend :=
  match lb.handles tableID with
  | some .attached => lb.setContent tableID ((lb.content tableID).map (· ++ data))
  -- The file is in no directory any more, and no one can open it.
  | _ => lb

/-- The loop of `WriteBatch`: it ends at the first event whose record cannot be built. -/
def writeAll (lb : LocalBackend) : List CacheEvent → LocalBackend × Outcome
  | [] => (lb, .ok)
  | ev :: events =>
    (encodeRecord ev.marshal).elim (lb, .panic) fun record =>
      (lb.append tableID record).writeAll events

def write (ev : CacheEvent) : LocalBackend × Outcome :=
  (encodeRecord ev.marshal).elim (lb.getFile tableID, .panic) fun record =>
    ((lb.getFile tableID).append tableID record, .ok)

def writeBatch (events : List CacheEvent) : LocalBackend × Outcome :=
  (lb.getFile tableID).writeAll tableID events

/-- `Delete`: close the handle and remove the file. A handle of another table id on it stays
open. -/
def delete : LocalBackend where
  files := update lb.files (fileName tableID) none
  handles := fun other =>
    if other = tableID then none
    else if fileName other = fileName tableID then (lb.handles other).map fun _ => .orphaned
    else lb.handles other

/-- `TruncateToLastComplete`: cut the file after the last record recognised; the handle is dropped
only if there is one. -/
def truncateToLastComplete : LocalBackend :=
  match lb.content tableID with
  | none => lb
  | some [] => lb
  | some (b :: file) =>
    let cut := lb.setContent tableID (some (Cache.truncateToLastComplete (b :: file)).2)
    if (scan (b :: file) (b :: file).length).isSome then cut.setHandle tableID none else cut

/-- `Close`, and a new backend on the same directory. -/
def closeAndReopen : LocalBackend := { lb with handles := fun _ => none }

/-- `Read`, drained. -/
def read (fromTxID : Bytes) (fromEventSeq : Int64) : ReadResult :=
  readFile (lb.content tableID) fromTxID fromEventSeq

end LocalBackend

open LocalBackend

/-! ## Calls on one table -/

inductive Call where
  | write (ev : CacheEvent)
  | writeBatch (events : List CacheEvent)
  | delete
  | truncateToLastComplete
  | closeAndReopen
  /-- `Read(ctx, tableID, "", 0)`, drained. -/
  | read

inductive Reply where
  /-- A write returned or panicked. -/
  | returned (outcome : Outcome)
  | delivered (result : ReadResult)
  deriving DecidableEq

def backend (tableID : Bytes) : Machine LocalBackend Call Reply where
  step lb
    | .write ev => ((lb.write tableID ev).1, [.returned (lb.write tableID ev).2])
    | .writeBatch events =>
      ((lb.writeBatch tableID events).1, [.returned (lb.writeBatch tableID events).2])
    | .delete => (lb.delete tableID, [])
    | .truncateToLastComplete => (lb.truncateToLastComplete tableID, [])
    | .closeAndReopen => (lb.closeAndReopen, [])
    | .read => (lb, [.delivered (lb.read tableID [] 0)])

/-- What the cache of a table is for: an append-only queue, read and emptied as a whole. -/
def queue : Machine (List CacheEvent) Call Reply where
  step q
    | .write ev => (q ++ [ev], [.returned .ok])
    | .writeBatch events => (q ++ events, [.returned .ok])
    | .delete => ([], [])
    | .truncateToLastComplete => (q, [])
    | .closeAndReopen => (q, [])
    | .read => (q, [.delivered ⟨q, none⟩])

/-! ## What a call on one table does to the file of another -/

namespace LocalBackend

variable {lb : LocalBackend} {tableID other : Bytes}

@[simp]
lemma content_setHandle (handle : Option Handle) :
    (lb.setHandle tableID handle).content other = lb.content other := rfl

@[simp]
lemma content_setContent (content : Option Bytes) :
    (lb.setContent tableID content).content tableID = content :=
  update_self _ _ _

section

variable (h : fileName other ≠ fileName tableID)
include h

lemma content_setContent_of_ne (content : Option Bytes) :
    (lb.setContent tableID content).content other = lb.content other :=
  update_of_ne h _ _

lemma content_getFile_of_ne : (lb.getFile tableID).content other = lb.content other := by
  unfold getFile
  split
  · rfl
  · rw [content_setHandle, content_setContent_of_ne h]

lemma content_append_of_ne (data : Bytes) :
    (lb.append tableID data).content other = lb.content other := by
  unfold append
  split
  · exact content_setContent_of_ne h _
  · rfl

lemma content_writeAll_of_ne (events : List CacheEvent) :
    (lb.writeAll tableID events).1.content other = lb.content other := by
  induction events generalizing lb with
  | nil => rfl
  | cons ev events ih =>
    rw [writeAll]
    cases encodeRecord ev.marshal with
    | none => rfl
    | some record => rw [elim_some, ih, content_append_of_ne h]

lemma content_write_of_ne (ev : CacheEvent) :
    (lb.write tableID ev).1.content other = lb.content other := by
  rw [write]
  cases encodeRecord ev.marshal with
  | none => exact content_getFile_of_ne h
  | some record => rw [elim_some, content_append_of_ne h, content_getFile_of_ne h]

lemma content_truncateToLastComplete_of_ne :
    (lb.truncateToLastComplete tableID).content other = lb.content other := by
  unfold truncateToLastComplete
  split
  · rfl
  · rfl
  · dsimp only
    split
    · rw [content_setHandle, content_setContent_of_ne h]
    · exact content_setContent_of_ne h _

lemma content_step_of_ne (call : Call) :
    ((backend tableID).step lb call).1.content other = lb.content other := by
  cases call with
  | write ev => exact content_write_of_ne h ev
  | writeBatch events => exact (content_writeAll_of_ne h events).trans (content_getFile_of_ne h)
  | delete => exact update_of_ne h _ _
  | truncateToLastComplete => exact content_truncateToLastComplete_of_ne h
  | closeAndReopen => rfl
  | read => rfl

lemma content_run_of_ne (calls : List Call) :
    ((backend tableID).run lb calls).1.content other = lb.content other := by
  induction calls generalizing lb with
  | nil => rfl
  | cons call calls ih => rw [Machine.run_cons, ih, content_step_of_ne h]

end

/-! ## The cache of one table as a queue -/

/-- The handle of a table is open on the file that stands in the directory. -/
structure OpenOn (lb : LocalBackend) (tableID content : Bytes) : Prop where
  handle : lb.handles tableID = some .attached
  content : lb.content tableID = some content

variable {content : Bytes} {q : List CacheEvent}

lemma OpenOn.append (h : lb.OpenOn tableID content) (data : Bytes) :
    (lb.append tableID data).OpenOn tableID (content ++ data) := by
  have happend : lb.append tableID data =
      lb.setContent tableID ((lb.content tableID).map (· ++ data)) := by
    unfold LocalBackend.append
    rw [h.handle]
  refine ⟨?_, ?_⟩
  · rw [happend]
    exact h.handle
  · rw [happend, content_setContent, h.content, map_some]

lemma OpenOn.writeAll {events : List CacheEvent} {content' : Bytes}
    (h : lb.OpenOn tableID content) (hwrite : writeEvents content events = some content') :
    (lb.writeAll tableID events).1.OpenOn tableID content' ∧
      (lb.writeAll tableID events).2 = .ok := by
  induction events generalizing lb content with
  | nil =>
    obtain rfl : content = content' := some.inj hwrite
    exact ⟨h, rfl⟩
  | cons ev events ih =>
    rw [writeEvents_cons, bind_eq_some_iff] at hwrite
    obtain ⟨record, hrecord, hrest⟩ := hwrite
    rw [writeAll, hrecord, elim_some]
    exact ih (h.append record) hrest

/-- The file of a table holds the records of a queue, in order, and an open handle of the table is
open on that file. -/
structure Stores (tableID : Bytes) (lb : LocalBackend) (q : List CacheEvent) : Prop where
  records : writeEvents [] q = some ((lb.content tableID).getD [])
  handle : ∀ handle, lb.handles tableID = some handle →
    handle = .attached ∧ (lb.content tableID).isSome

lemma OpenOn.stores (h : lb.OpenOn tableID content) (hwrite : writeEvents [] q = some content) :
    Stores tableID lb q := by
  refine ⟨by rw [h.content, getD_some, hwrite], fun handle hhandle => ?_⟩
  rw [h.handle, some.injEq] at hhandle
  exact ⟨hhandle.symm, by rw [h.content]; rfl⟩

lemma Stores.getFile (h : Stores tableID lb q) :
    (lb.getFile tableID).OpenOn tableID ((lb.content tableID).getD []) := by
  unfold LocalBackend.getFile
  cases hhandle : lb.handles tableID with
  | some handle =>
    obtain ⟨rfl, hfile⟩ := h.handle handle hhandle
    obtain ⟨content, hcontent⟩ := isSome_iff_exists.mp hfile
    exact ⟨hhandle, by rw [hcontent, getD_some]⟩
  | none => exact ⟨update_self _ _ _, by rw [content_setHandle, content_setContent]⟩

lemma Stores.writeBatch {events : List CacheEvent} (h : Stores tableID lb q)
    (hsize : ∀ e ∈ events, e.marshal.length ≤ maxRecordSize) :
    Stores tableID (lb.writeBatch tableID events).1 (q ++ events) ∧
      (lb.writeBatch tableID events).2 = .ok := by
  obtain ⟨content, hcontent⟩ := exists_writeEvents hsize ((lb.content tableID).getD [])
  obtain ⟨hopen, hok⟩ := h.getFile.writeAll hcontent
  refine ⟨hopen.stores ?_, hok⟩
  rw [writeEvents_append, h.records, bind_some, hcontent]

lemma write_eq_writeBatch (ev : CacheEvent) : lb.write tableID ev = lb.writeBatch tableID [ev] := by
  cases encodeRecord ev.marshal with
  | none => rfl
  | some record => rfl

lemma stores_nil (h : lb.content tableID = none) (hhandle : lb.handles tableID = none) :
    Stores tableID lb [] := by
  refine ⟨by rw [h]; rfl, fun handle hopen => ?_⟩
  rw [hhandle] at hopen
  cases hopen

end LocalBackend

/-- An event that the cache is made for: within the size limit, and decoding inverts its
encoding. -/
structure Writable (e : CacheEvent) : Prop where
  fits : e.marshal.length ≤ maxRecordSize
  decodes : unmarshalCacheEvent e.marshal = some e

lemma Writable.repaired_eq {e : CacheEvent} (h : Writable e) : e.repaired = e := by
  have hdecode := h.decodes
  rwa [unmarshalCacheEvent_marshal, some.injEq] at hdecode

/-- The calls of a queue: all but the repair, with events that the cache is made for. -/
def Call.Admissible : Call → Prop
  | .write ev => Writable ev
  | .writeBatch events => ∀ e ∈ events, Writable e
  | .truncateToLastComplete => False
  | .delete | .closeAndReopen | .read => True

/-- The backend stores a queue of events that the cache is made for. -/
structure Implements (tableID : Bytes) (lb : LocalBackend) (q : List CacheEvent) : Prop where
  stores : lb.Stores tableID q
  writable : ∀ e ∈ q, Writable e

variable {tableID : Bytes} {lb : LocalBackend} {q : List CacheEvent}

lemma Implements.read (h : Implements tableID lb q) : lb.read tableID [] 0 = ⟨q, none⟩ := by
  have hall := readAll_writeEvents h.stores.records fun e he => (h.writable e he).fits
  have hsame : q.map repaired = q :=
    (map_congr_left fun e he => (h.writable e he).repaired_eq).trans (List.map_id' q)
  rw [LocalBackend.read, readFile_nil, hall, hsame]

lemma Implements.step (call : Call) (hcall : call.Admissible) (h : Implements tableID lb q) :
    Implements tableID ((backend tableID).step lb call).1 (queue.step q call).1 ∧
      ((backend tableID).step lb call).2 = (queue.step q call).2 := by
  -- Both kinds of writes append a list of events.
  have hwrites : ∀ events, (∀ e ∈ events, Writable e) →
      Implements tableID (lb.writeBatch tableID events).1 (q ++ events) ∧
        (lb.writeBatch tableID events).2 = .ok := by
    intro events hevents
    obtain ⟨hstores, hok⟩ := h.stores.writeBatch fun e he => (hevents e he).fits
    refine ⟨⟨hstores, fun e he => ?_⟩, hok⟩
    exact (mem_append.mp he).elim (h.writable e) (hevents e)
  cases call with
  | write ev =>
    obtain ⟨himplements, hok⟩ := hwrites [ev] (forall_mem_singleton.mpr hcall)
    dsimp only [backend, queue]
    rw [write_eq_writeBatch, hok]
    exact ⟨himplements, rfl⟩
  | writeBatch events =>
    obtain ⟨himplements, hok⟩ := hwrites events hcall
    dsimp only [backend, queue]
    rw [hok]
    exact ⟨himplements, rfl⟩
  | delete =>
    refine ⟨⟨stores_nil (update_self _ _ _) (if_pos rfl), ?_⟩, rfl⟩
    exact fun e he => absurd he not_mem_nil
  | truncateToLastComplete => exact hcall.elim
  | closeAndReopen =>
    exact ⟨⟨⟨h.stores.records, fun handle hopen => by cases hopen⟩, h.writable⟩, rfl⟩
  | read =>
    refine ⟨h, ?_⟩
    dsimp only [backend, queue]
    rw [h.read]

/-- **The cache of one table is an append-only queue.** Start with a table without file and handle,
and make any calls of `Write`, `WriteBatch`, `Delete`, close-and-reopen and `Read` on it with events
within the size limit that decoding gives back. Every write succeeds, and every read delivers
exactly the events written since the last `Delete`, in order. -/
theorem backend_refines_queue (tableID : Bytes) (lb : LocalBackend)
    (hfile : lb.content tableID = none) (hhandle : lb.handles tableID = none)
    (calls : List Call) (hcalls : ∀ call ∈ calls, call.Admissible) :
    ((backend tableID).run lb calls).2 = (queue.run [] calls).2 := by
  have hstart : Implements tableID lb [] :=
    ⟨stores_nil hfile hhandle, fun _ he => absurd he not_mem_nil⟩
  have hstep := fun lb q call hcall (h : Implements tableID lb q) => h.step call hcall
  exact ((backend tableID).run_simulation hstep hcalls hstart).2

/-- The event of transaction `gtid:7` with a sequence number. -/
def numberedEvent (n : Int64) : CacheEvent :=
  { zero with txID := lit "gtid:7", eventSeq := n, payload := lit "\x7b\x7d" }

/-- Two events are written and read back after a reopening; a third one is written after the cache
was deleted, and read alone. -/
theorem backend_refines_queue_orders :
    ((backend (lit "shop.orders")).run .empty
      [.write (numberedEvent 1), .writeBatch [numberedEvent 2], .closeAndReopen, .read, .delete,
        .write (numberedEvent 3), .read]).2 =
      [.returned .ok, .returned .ok, .delivered ⟨[numberedEvent 1, numberedEvent 2], none⟩,
        .returned .ok, .delivered ⟨[numberedEvent 3], none⟩] := by
  -- Over the events and not their numbers: a quantifier over `Int64` enumerates the type.
  have hwritable : ∀ e ∈ [numberedEvent 1, numberedEvent 2, numberedEvent 3],
      e.marshal.length ≤ maxRecordSize ∧ unmarshalCacheEvent e.marshal = some e := by
    decide
  simp only [forall_mem_cons, not_mem_nil, false_imp_iff, implies_true, and_true] at hwritable
  obtain ⟨h₁, h₂, h₃⟩ := hwritable
  rw [backend_refines_queue (lit "shop.orders") .empty rfl rfl]
  · rfl
  · simp only [forall_mem_cons, Call.Admissible, not_mem_nil, false_imp_iff,
      implies_true, and_true, true_and]
    exact ⟨⟨h₁.1, h₁.2⟩, ⟨h₂.1, h₂.2⟩, ⟨h₃.1, h₃.2⟩⟩

/-! ## Caches of different tables -/

lemma fileName_eq_iff {t₁ t₂ : Bytes} :
    fileName t₁ = fileName t₂ ↔ sanitizeTableID t₁ = sanitizeTableID t₂ :=
  append_left_inj _

/-- **Caches of two tables, exactly.** Whatever the backend holds, no calls on the first table
change what a read of the second delivers, from any position, if and only if the two ids have
different file names. -/
theorem read_unchanged_iff (t₁ t₂ : Bytes) :
    (∀ (lb : LocalBackend) (calls : List Call) (fromTxID : Bytes) (fromEventSeq : Int64),
      ((backend t₁).run lb calls).1.read t₂ fromTxID fromEventSeq =
        lb.read t₂ fromTxID fromEventSeq) ↔
      sanitizeTableID t₁ ≠ sanitizeTableID t₂ := by
  constructor
  · -- A shared file name shows in an empty directory, with one event written.
    intro h hsame
    have hname : fileName t₂ = fileName t₁ := (fileName_eq_iff.mpr hsame).symm
    have hzero : Writable zero := ⟨by decide, by decide⟩
    have hempty : Implements t₁ .empty [] := ⟨stores_nil rfl rfl, fun _ he => absurd he not_mem_nil⟩
    have hwritten := (hempty.step (.write zero) hzero).1.read
    have hread := h .empty [.write zero] [] 0
    rw [Machine.run_singleton, LocalBackend.read, LocalBackend.content, hname] at hread
    have hevents := congrArg ReadResult.events (hwritten.symm.trans hread)
    cases hevents
  · intro hne lb calls fromTxID fromEventSeq
    have hname : fileName t₂ ≠ fileName t₁ := fun heq => hne (fileName_eq_iff.mp heq).symm
    rw [LocalBackend.read, LocalBackend.content_run_of_ne hname, LocalBackend.read]

/-- The table `order_items` of the database `shop`, and `items` of `shop_order`. -/
def orderItems : Source.TableID :=
  { database := lit "shop", schema := [], table := lit "order_items" }

@[inherit_doc orderItems]
def items : Source.TableID := { database := lit "shop_order", schema := [], table := lit "items" }

set_option maxRecDepth 100000 in
/-- Deleting the cache of one table removes the events of another with the same file name. -/
theorem not_forall_read_unchanged :
    ¬ ∀ (t₁ t₂ : Bytes), t₁ ≠ t₂ → ∀ (lb : LocalBackend) (calls : List Call) (fromTxID : Bytes)
        (fromEventSeq : Int64),
      ((backend t₁).run lb calls).1.read t₂ fromTxID fromEventSeq =
        lb.read t₂ fromTxID fromEventSeq := by
  intro h
  have hread := h orderItems.toBytes items.toBytes (by decide)
    ((backend items.toBytes).run .empty [.write (numberedEvent 1)]).1 [.delete] [] 0
  exact absurd hread (by decide)

/-! ## Accepted events -/

lemma LocalBackend.Stores.write (h : lb.Stores tableID q) {ev : CacheEvent}
    (hok : (lb.write tableID ev).2 = .ok) : (lb.write tableID ev).1.Stores tableID (q ++ [ev]) := by
  rw [LocalBackend.write] at hok ⊢
  cases hrecord : encodeRecord ev.marshal with
  | none =>
    rw [hrecord] at hok
    cases hok
  | some record =>
    refine (h.getFile.append record).stores ?_
    rw [writeEvents_append, h.records, bind_some, writeEvents_cons, hrecord]
    rfl

lemma stores_of_accepted {events : List CacheEvent} (h : lb.Stores tableID q)
    (haccepted : ∀ reply ∈ ((backend tableID).run lb (events.map .write)).2,
      reply = .returned .ok) :
    ((backend tableID).run lb (events.map .write)).1.Stores tableID (q ++ events) := by
  induction events generalizing lb q with
  | nil => rwa [append_nil]
  | cons ev events ih =>
    have hok : Reply.returned (lb.write tableID ev).2 = .returned .ok :=
      haccepted _ (mem_append_left _ (mem_singleton_self _))
    have hrest := ih (h.write (Reply.returned.inj hok)) fun reply hreply =>
      haccepted reply (mem_append_right _ hreply)
    rwa [append_assoc] at hrest

/-- **Accepted events, exactly.** Write any events to a table without file and handle, each `Write`
returning nil. A later `Read` delivers all of them (up to the repair of invalid UTF-8) if and only
if the encoding of each is at most `MaxRecordSize` bytes long. -/
theorem delivers_accepted_iff (tableID : Bytes) (lb : LocalBackend)
    (hfile : lb.content tableID = none) (hhandle : lb.handles tableID = none)
    (events : List CacheEvent)
    (haccepted : ∀ reply ∈ ((backend tableID).run lb (events.map .write)).2,
      reply = .returned .ok) :
    (((backend tableID).run lb (events.map .write)).1.read tableID [] 0).events =
        events.map repaired ↔
      ∀ e ∈ events, e.marshal.length ≤ maxRecordSize := by
  have hstores := stores_of_accepted (stores_nil hfile hhandle) haccepted
  rw [LocalBackend.read, readFile_nil]
  exact events_readAll_writeEvents_iff hstores.records

/-- Two small events are accepted and delivered. -/
theorem delivers_accepted_orders :
    (((backend (lit "shop.orders")).run .empty
      [.write (numberedEvent 1), .write (numberedEvent 2)]).1.read (lit "shop.orders") []
        0).events = [numberedEvent 1, numberedEvent 2] :=
  (delivers_accepted_iff (lit "shop.orders") .empty rfl rfl [numberedEvent 1, numberedEvent 2]
    (by decide)).mpr (by decide)

/-- An event with a payload of 48 MiB, which base64 turns into 64 MiB. -/
def largeEvent : CacheEvent := { zero with payload := List.replicate (48 * 1024 * 1024) 0 }

lemma length_marshal_payload {payload : Bytes} (h : payload ≠ []) :
    ({ zero with payload := payload } : CacheEvent).marshal.length =
      (Base64.encode payload).length + 61 := by
  have hjson : ({ zero with payload := payload } : CacheEvent).toJson =
      .obj [(lit "source_type", Json.jsonInt 0), (lit "event_seq", Json.jsonInt 0),
        (lit "payload", Json.jsonBytes payload), (lit "timestamp_ms", Json.jsonInt 0)] := by
    simp only [toJson, Json.memberOmitEmpty, h, decide_false]
    rfl
  have hzero : (Json.jsonInt 0).print = lit "0" := by decide
  have hlit : (lit "source_type").length = 11 ∧ (lit "event_seq").length = 9 ∧
      (lit "payload").length = 7 ∧ (lit "timestamp_ms").length = 12 ∧ (lit "0").length = 1 := by
    decide
  rw [marshal, Json.marshal, hjson]
  simp only [Json.print, Json.printMembers, hzero, Json.jsonBytes, length_cons,
    length_append, length_nil, hlit]
  omega

lemma length_marshal_largeEvent : largeEvent.marshal.length = maxRecordSize + 61 := by
  have hne : List.replicate (48 * 1024 * 1024) (0 : UInt8) ≠ [] := by
    rw [Ne, replicate_eq_nil_iff]
    omega
  rw [largeEvent, length_marshal_payload hne, Base64.length_encode, length_replicate, maxRecordSize]

lemma accepted_oversized (tableID : Bytes) (ev : CacheEvent)
    (hlarge : maxRecordSize < ev.marshal.length)
    (hlt : ev.marshal.length + recordOverhead < 2 ^ 32) :
    (empty.write tableID ev).2 = .ok ∧
      ((empty.write tableID ev).1.read tableID [] 0).events ≠ [ev].map repaired := by
  have hok : (empty.write tableID ev).2 = .ok := by
    rw [write, encodeRecord_of_lt hlt]
    rfl
  have hempty : empty.Stores tableID [] := stores_nil rfl rfl
  refine ⟨hok, fun hall => ?_⟩
  rw [LocalBackend.read, readFile_nil] at hall
  have hfits := (events_readAll_writeEvents_iff (hempty.write hok).records).mp hall ev
    (mem_singleton_self ev)
  omega

/-- An event whose encoding is 61 bytes beyond the limit is accepted and never delivered. -/
theorem not_forall_delivers_accepted :
    ¬ ∀ (tableID : Bytes) (lb : LocalBackend), lb.content tableID = none →
      lb.handles tableID = none → ∀ events : List CacheEvent,
      (∀ reply ∈ ((backend tableID).run lb (events.map .write)).2, reply = .returned .ok) →
      (((backend tableID).run lb (events.map .write)).1.read tableID [] 0).events =
        events.map repaired := by
  intro h
  obtain ⟨ev, hsize⟩ : ∃ ev : CacheEvent, ev.marshal.length = maxRecordSize + 61 :=
    ⟨largeEvent, length_marshal_largeEvent⟩
  obtain ⟨hok, hlost⟩ := accepted_oversized (lit "shop.orders") ev (by omega)
    (by rw [hsize, maxRecordSize, recordOverhead]; omega)
  apply hlost
  have hall := h (lit "shop.orders") .empty rfl rfl [ev] (by
    intro reply hreply
    rw [mem_singleton.mp hreply, hok])
  rwa [map_singleton, Machine.run_singleton] at hall

end DataStream.Cache
