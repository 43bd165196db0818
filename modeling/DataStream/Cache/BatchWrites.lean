import DataStream.Cache.Framing

/-!
# Batches that fail

The interface promises that all events of a batch land on disk or none do. `WriteBatch` appends one
record after the other and returns at the first failure; what has reached the file by then stays
there. Complete records of the failed batch are delivered by a later `Read`, and a record that was
cut short hides what is written after it: the reader takes the bytes of the next record for the
missing ones.

* `allOrNothing_iff`: when a failed batch leaves no trace in what is read later.
-/

namespace DataStream.Cache

open Bytes List Option

inductive SyncMode where
  | every
  | batch
  | none
  deriving DecidableEq, Repr

/-- How `marshalAndWrite` fares with an event. -/
inductive WriteOutcome where
  | ok
  | marshalFails
  /-- The file takes only the first bytes of the record. -/
  | writeFails (bytes : ℕ)
  deriving DecidableEq, Repr

inductive WriteError where
  | marshal
  | write
  | sync
  deriving DecidableEq, Repr

/-- `WriteBatch`, given how each event fares and whether the file can be synced: the file and the
error; `none` is a panic. -/
def writeBatch (mode : SyncMode) (syncs : Bool) :
    Bytes → List (CacheEvent × WriteOutcome) → Option (Bytes × Option WriteError)
  -- Except in mode none the file is synced after a batch.
  | file, [] => some (file, if mode ≠ .none ∧ !syncs then some .sync else none)
  | file, (_, .marshalFails) :: _ => some (file, some .marshal)
  | file, (ev, .writeFails bytes) :: _ =>
    (encodeRecord ev.marshal).map fun record => (file ++ record.take bytes, some .write)
  | file, (ev, .ok) :: batch =>
    (marshalAndWrite file ev).bind fun file => writeBatch mode syncs file batch

/-- After the same successful writes, both files deliver the same events from every position. -/
def SameReads (file file' : Bytes) : Prop :=
  ∀ later content content', writeEvents file later = some content →
    writeEvents file' later = some content' → ∀ fromTxID fromEventSeq,
      (readFile (some content') fromTxID fromEventSeq).events =
        (readFile (some content) fromTxID fromEventSeq).events

/-- No byte of the batch reaches the file: it is empty, or its first event fails before the first
byte. -/
def Untouched : List (CacheEvent × WriteOutcome) → Bool
  | [] => true
  | (_, .marshalFails) :: _ => true
  | (_, .writeFails bytes) :: _ => bytes = 0
  | (_, .ok) :: _ => false

/-! ## What a failed batch leaves -/

lemma length_of_encodeRecord {payload record : Bytes} (h : encodeRecord payload = some record) :
    recordOverhead ≤ record.length := by
  unfold encodeRecord at h
  dsimp only at h
  split at h
  · simp at h
  · rw [← some.inj h, length_frame]
    exact Nat.le_add_left _ _

variable {file : Bytes} {batch : List (CacheEvent × WriteOutcome)} {ev : CacheEvent}

variable {err : Option WriteError}

lemma exists_append_of_writeBatch {mode : SyncMode} {syncs : Bool} {file' : Bytes}
    (h : writeBatch mode syncs file batch = some (file', err)) :
    ∃ more, file' = file ++ more := by
  induction batch generalizing file with
  | nil =>
    rw [writeBatch, some.injEq, Prod.mk.injEq] at h
    exact ⟨[], by rw [append_nil, h.1]⟩
  | cons first batch ih =>
    obtain ⟨ev, _ | _ | bytes⟩ := first
    · rw [writeBatch, marshalAndWrite, Option.bind_map, bind_eq_some_iff] at h
      obtain ⟨record, -, hrest⟩ := h
      obtain ⟨more, rfl⟩ := ih hrest
      exact ⟨record ++ more, append_assoc _ _ _⟩
    · rw [writeBatch, some.injEq, Prod.mk.injEq] at h
      exact ⟨[], by rw [append_nil, h.1]⟩
    · rw [writeBatch, map_eq_some_iff] at h
      obtain ⟨record, -, hrest⟩ := h
      exact ⟨record.take bytes, (Prod.mk.inj hrest).1.symm⟩

/-- A batch leaves the file as it is exactly if no byte of it reaches the file. -/
theorem eq_nil_iff_of_writeBatch {mode : SyncMode} {syncs : Bool} {more : Bytes}
    (h : writeBatch mode syncs file batch = some (file ++ more, err)) :
    more = [] ↔ Untouched batch := by
  rcases batch with _ | ⟨⟨ev, _ | _ | bytes⟩, batch⟩
  · rw [writeBatch, some.injEq, Prod.mk.injEq, self_eq_append_right] at h
    simp [h.1, Untouched]
  · rw [writeBatch, marshalAndWrite, Option.bind_map, bind_eq_some_iff] at h
    obtain ⟨record, hrecord, hrest⟩ := h
    obtain ⟨rest, hmore⟩ := exists_append_of_writeBatch hrest
    rw [append_assoc, append_cancel_left_eq] at hmore
    have hlength := length_of_encodeRecord hrecord
    rw [recordOverhead] at hlength
    simp only [Untouched, Bool.false_eq_true, iff_false, hmore]
    intro hnil
    simp [(append_eq_nil_iff.mp hnil).1] at hlength
  · rw [writeBatch, some.injEq, Prod.mk.injEq, self_eq_append_right] at h
    simp [h.1, Untouched]
  · rw [writeBatch, map_eq_some_iff] at h
    obtain ⟨record, hrecord, hrest⟩ := h
    have hlength := length_of_encodeRecord hrecord
    rw [recordOverhead] at hlength
    rw [Prod.mk.injEq, append_cancel_left_eq] at hrest
    simp only [Untouched, decide_eq_true_eq, ← hrest.1, take_eq_nil_iff]
    constructor
    · rintro (hzero | hnil)
      · exact hzero
      · simp [hnil] at hlength
    · exact .inl

/-! ## Bytes in front of a record -/

/-- An event that is all defaults but for its number. -/
def bareEvent (eventSeq : Int64) : CacheEvent := { CacheEvent.zero with eventSeq := eventSeq }

def shortRecord : Bytes := (encodeRecord (bareEvent 1).marshal).getD []

/-- The record of the event with the number 10, one byte longer. -/
def longRecord : Bytes := (encodeRecord (bareEvent 10).marshal).getD []

lemma length_shortRecord : shortRecord.length = 60 := by decide

lemma length_longRecord : longRecord.length = 61 := by decide

set_option maxRecDepth 100000 in
/-- Where the two records have the same four bytes after their start, these are no valid length. -/
lemma shortRecord_ne_longRecord : ∀ j < 57, 0 < j →
    uint32 (shortRecord.drop j) = uint32 (longRecord.drop j) →
      maxRecordSize < uint32 (shortRecord.drop j) := by decide

lemma take_three_shortRecord : shortRecord.take 3 = [0, 0, 0] := by decide

private lemma uint32_append {a : Bytes} (h : 4 ≤ a.length) (b : Bytes) :
    uint32 (a ++ b) = uint32 a := by
  obtain ⟨b₀, b₁, b₂, b₃, rest, rfl⟩ : ∃ b₀ b₁ b₂ b₃ rest, a = b₀ :: b₁ :: b₂ :: b₃ :: rest := by
    rcases a with _ | ⟨b₀, _ | ⟨b₁, _ | ⟨b₂, _ | ⟨b₃, rest⟩⟩⟩⟩
    all_goals simp_all
  rfl

/-- What the fields of a record that the reader takes say about the stream. -/
structure Taken (s : Bytes) (ev : CacheEvent) (n : ℕ) : Prop where
  head : uint32 s = n
  fits : 12 + n ≤ s.length
  tail : uint32 (s.drop (8 + n)) = n
  limit : n ≤ maxRecordSize
  decodes : CacheEvent.unmarshalCacheEvent ((s.drop 8).take n) = some ev

lemma taken_of_readRecord {s rest : Bytes} (h : readRecord s = .event ev rest) :
    Taken s ev (uint32 s) := by
  obtain ⟨a, ⟨payload, ha, hsize, hdecode⟩, rfl⟩ := readRecord_eq_event_iff.mp h
  have hlength := ha.length_eq
  rw [ha.uint32_eq rest]
  refine ⟨ha.uint32_eq rest, by rw [length_append]; omega, ?_, hsize, ?_⟩
  · rw [ha.eq, drop_payload_frame]
    exact uint32_putUint32_append _ ha.lt _
  · rw [ha.eq, drop_eight_frame, take_left' rfl]
    exact hdecode

/-- One to three bytes in front of a small record: the length field begins with three zeros, so the
one that the reader sees is zero or far too large. -/
lemma not_taken_of_length_lt {torn : Bytes} (hpos : torn ≠ []) (hlt : torn.length < 4)
    (ev : CacheEvent) (n : ℕ) : ¬Taken (torn ++ shortRecord) ev n := by
  intro h
  have hfits := h.fits
  rw [length_append, length_shortRecord] at hfits
  obtain ⟨tail, htail⟩ : ∃ tail, shortRecord = [0, 0, 0] ++ tail :=
    ⟨shortRecord.drop 3, by rw [← take_three_shortRecord, take_append_drop]⟩
  -- The first byte of the torn record decides whether the field is zero.
  have hfield : n = 0 ∨ 256 ≤ n := by
    rw [← h.head, htail]
    rcases torn with _ | ⟨b₀, _ | ⟨b₁, _ | ⟨b₂, _ | ⟨b₃, rest⟩⟩⟩⟩
    · exact absurd rfl hpos
    case cons.cons.cons.cons =>
      simp at hlt
      omega
    all_goals
      simp only [cons_append, nil_append, uint32, UInt8.toNat_ofNat]
      omega
  rcases hfield with rfl | hlarge
  · -- An empty payload is no event.
    have hdecodes := h.decodes
    exact absurd (hdecodes.symm.trans (by decide : CacheEvent.unmarshalCacheEvent [] = none))
      (some_ne_none ev)
  · omega

/-- Whatever bytes stand in front of a record, one of two fixed events is not read back. -/
theorem not_taken_after_torn {torn : Bytes} (hpos : torn ≠ []) {n m : ℕ}
    (hshort : Taken (torn ++ shortRecord) (bareEvent 1) n)
    (hlong : Taken (torn ++ longRecord) (bareEvent 10) m) : False := by
  by_cases hlt : torn.length < 4
  · exact not_taken_of_length_lt hpos hlt _ _ hshort
  -- Both streams start with the same length field.
  have hhead : ∀ record, uint32 (torn ++ record) = uint32 torn := uint32_append (not_lt.mp hlt)
  obtain rfl : uint32 torn = n := (hhead _).symm.trans hshort.head
  obtain rfl : uint32 torn = m := (hhead _).symm.trans hlong.head
  set n := uint32 torn
  by_cases hcomplete : 8 + n ≤ torn.length
  · -- The payload is complete before the record starts, so both decode to one event.
    have hpayload : ∀ record, ((torn ++ record).drop 8).take n = (torn.drop 8).take n := by
      intro record
      rw [drop_append_of_le_length (by omega), take_append_of_le_length]
      rw [length_drop]
      omega
    have hsame : some (bareEvent 1) = some (bareEvent 10) := by
      rw [← hshort.decodes, ← hlong.decodes, hpayload, hpayload]
    exact absurd hsame (by decide)
  · -- The second length field lies in the record, where the two records differ.
    have hfits := hshort.fits
    have hdrop : ∀ record, (torn ++ record).drop (8 + n) = record.drop (8 + n - torn.length) :=
      fun record => by rw [drop_append, drop_eq_nil_of_le (by omega), nil_append]
    have htail := hshort.tail
    have htail' := hlong.tail
    rw [hdrop] at htail htail'
    rw [length_append, length_shortRecord] at hfits
    have hlimit := shortRecord_ne_longRecord (8 + n - torn.length) (by omega) (by omega)
      (htail.trans htail'.symm)
    rw [htail] at hlimit
    exact absurd hshort.limit (not_le.mpr hlimit)

/-! ## Reading after a failed batch -/

lemma events_readAll_oversized {events : List CacheEvent} {content : Bytes}
    (h : writeEvents [] events = some content)
    (hsize : ∃ e ∈ events, maxRecordSize < e.marshal.length) (s s' : Bytes) :
    (readAll (content ++ s)).events = (readAll (content ++ s')).events := by
  induction events generalizing content with
  | nil => simp at hsize
  | cons ev events ih =>
    obtain ⟨record, rest, hrecord, hrest, rfl⟩ := writeEvents_nil_cons h
    by_cases hev : ev.marshal.length ≤ maxRecordSize
    · have hlater : ∃ e ∈ events, maxRecordSize < e.marshal.length := by
        obtain ⟨e, he, hlarge⟩ := hsize
        rcases mem_cons.mp he with rfl | he
        · exact absurd hev (not_le.mpr hlarge)
        · exact ⟨e, he, hlarge⟩
      rw [append_assoc, append_assoc, readAll_encodeRecord hev hrecord,
        readAll_encodeRecord hev hrecord, ReadResult.cons, ReadResult.cons, ih hrest hlater]
    · obtain ⟨err, herr⟩ := readRecord_oversized (not_le.mp hev) hrecord (rest ++ s)
      obtain ⟨err', herr'⟩ := readRecord_oversized (not_le.mp hev) hrecord (rest ++ s')
      rw [append_assoc, append_assoc, readAll_eq, herr, readAll_eq, herr']

private lemma taken_of_events_eq {s : Bytes} (h : (readAll s).events = [ev]) :
    Taken s ev (uint32 s) := by
  rw [readAll_eq] at h
  rcases hrecord : readRecord s with _ | err | ⟨ev', rest⟩
  · simp [hrecord] at h
  · simp [hrecord] at h
  · simp only [hrecord, ReadResult.cons, List.cons.injEq] at h
    rw [← h.1]
    exact taken_of_readRecord hrecord

variable {before : List CacheEvent}

/-- If the bytes between two writes leave no trace, an event written after them is read at once. -/
private lemma taken_of_sameReads {more record : Bytes} (hfile : writeEvents [] before = some file)
    (hsize : ∀ e ∈ before, e.marshal.length ≤ maxRecordSize) (h : SameReads file (file ++ more))
    (hrecord : encodeRecord ev.marshal = some record) (hev : ev.marshal.length ≤ maxRecordSize) :
    Taken (more ++ record) ev.repaired (uint32 (more ++ record)) := by
  have hwrite : ∀ content, writeEvents content [ev] = some (content ++ record) := fun content => by
    rw [writeEvents_cons, hrecord]
    rfl
  have hsame := h [ev] _ _ (hwrite file) (hwrite (file ++ more)) [] 0
  rw [readFile_nil, readFile_nil, getD_some, getD_some, append_assoc,
    readAll_append hfile hsize, readAll_append hfile hsize,
    append_cancel_left_eq] at hsame
  refine taken_of_events_eq (hsame.trans ?_)
  have hread := readAll_encodeRecord hev hrecord []
  rw [append_nil] at hread
  rw [hread]
  rfl

set_option maxRecDepth 100000 in
private lemma encodeRecord_short : encodeRecord (bareEvent 1).marshal = some shortRecord := by
  decide

set_option maxRecDepth 100000 in
private lemma encodeRecord_long : encodeRecord (bareEvent 10).marshal = some longRecord := by
  decide

private lemma length_bareEvent : (bareEvent 1).marshal.length ≤ maxRecordSize ∧
    (bareEvent 10).marshal.length ≤ maxRecordSize := by decide

/-- Bytes that leave no trace are no bytes, unless the reading never comes to them. -/
lemma sameReads_append_iff (hfile : writeEvents [] before = some file) (more : Bytes) :
    SameReads file (file ++ more) ↔ more = [] ∨ ∃ e ∈ before, maxRecordSize < e.marshal.length := by
  constructor
  · intro h
    by_contra hnot
    rw [not_or] at hnot
    have hsize : ∀ e ∈ before, e.marshal.length ≤ maxRecordSize := fun e he =>
      not_lt.mp fun hlarge => hnot.2 ⟨e, he, hlarge⟩
    exact not_taken_after_torn hnot.1
      (taken_of_sameReads hfile hsize h encodeRecord_short length_bareEvent.1)
      (taken_of_sameReads hfile hsize h encodeRecord_long length_bareEvent.2)
  · intro h later content content' hcontent hcontent' fromTxID fromEventSeq
    rw [writeEvents_eq_map, map_eq_some_iff] at hcontent hcontent'
    obtain ⟨written, hwritten, rfl⟩ := hcontent
    obtain ⟨written', hwritten', rfl⟩ := hcontent'
    obtain rfl : written = written' := some.inj (hwritten.symm.trans hwritten')
    rcases h with rfl | hlarge
    · rw [append_nil]
    · simp only [readFile]
      rw [append_assoc, events_readAll_oversized hfile hlarge (more ++ written) written]

/-- **Atomicity of a failed batch.** A `WriteBatch` on a file of successful writes returns an error,
at whatever event and after however many bytes. Later reads are as if the batch had not been issued
exactly if no byte of it reached the file, or an earlier record is so large that no reading comes
past it. -/
theorem allOrNothing_iff (before : List CacheEvent) (file : Bytes)
    (hfile : writeEvents [] before = some file) (mode : SyncMode) (syncs : Bool)
    (batch : List (CacheEvent × WriteOutcome)) (file' : Bytes) (err : WriteError)
    (hbatch : writeBatch mode syncs file batch = some (file', some err)) :
    SameReads file file' ↔ Untouched batch ∨ ∃ e ∈ before, maxRecordSize < e.marshal.length := by
  obtain ⟨more, rfl⟩ := exists_append_of_writeBatch hbatch
  rw [sameReads_append_iff hfile, eq_nil_iff_of_writeBatch hbatch]

private lemma writeEvents_short : writeEvents [] [bareEvent 1] = some shortRecord := by
  rfl

/-- A batch whose second record is cut after five bytes. -/
def cutBatch : List (CacheEvent × WriteOutcome) :=
  [(bareEvent 10, .ok), (bareEvent 1, .writeFails 5), (bareEvent 10, .ok)]

private lemma writeBatch_cutBatch (file : Bytes) :
    writeBatch .batch true file cutBatch =
      some (file ++ longRecord ++ shortRecord.take 5, some .write) := by
  rw [cutBatch, writeBatch, marshalAndWrite, encodeRecord_long, map_some, bind_some,
    writeBatch, encodeRecord_short, map_some]

/-- After a first record, the batch leaves a trace: its first event is read. -/
theorem not_sameReads_cutBatch :
    ¬SameReads shortRecord (shortRecord ++ longRecord ++ shortRecord.take 5) := by
  rw [allOrNothing_iff [bareEvent 1] shortRecord writeEvents_short .batch true cutBatch _ .write
    (writeBatch_cutBatch shortRecord)]
  rintro (htouched | ⟨e, he, hlarge⟩)
  · exact absurd htouched (by decide)
  · rw [mem_singleton.mp he] at hlarge
    exact absurd length_bareEvent.1 (not_le.mpr hlarge)

/-- Not every failed batch is as if it had not been issued. -/
theorem not_forall_sameReads :
    ¬∀ (before : List CacheEvent) (file : Bytes), writeEvents [] before = some file →
      ∀ (mode : SyncMode) (syncs : Bool) (batch : List (CacheEvent × WriteOutcome)) (file' : Bytes)
        (err : WriteError), writeBatch mode syncs file batch = some (file', some err) →
          SameReads file file' := by
  intro h
  have hempty : writeEvents [] [] = some [] := rfl
  have hsame := h [] [] hempty .batch true cutBatch _ .write (writeBatch_cutBatch [])
  rw [append_assoc, sameReads_append_iff hempty] at hsame
  rcases hsame with hnil | ⟨e, he, -⟩
  · have hlength := congrArg List.length hnil
    rw [length_append, length_longRecord, length_nil] at hlength
    omega
  · exact absurd he not_mem_nil

end DataStream.Cache
