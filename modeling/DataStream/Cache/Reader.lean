import DataStream.Cache.Record

/-!
# Reading a whole cache file

The goroutine that `LocalBackend.Read` starts reads record after record until the end of the file
or the first error, and delivers the events from a start position on. This file models what it
delivers when it is not cancelled, on the bytes of the file.

* `readAll_encodeRecord`: the record of an event within the size limit is read back;
* `readRecord_oversized`: the record of an event beyond the limit ends the reading;
* `events_readAll_writeEvents_iff`: when the events written are all delivered.
-/

namespace DataStream.Cache

open Bytes List Option CacheEvent

/-- What a `Read` delivers: the events of its first channel and the error of its second. -/
structure ReadResult where
  /-- The events, in the order in which they are sent. -/
  events : List CacheEvent
  err : Option ReadError
  deriving DecidableEq, Repr

/-- The reader delivers one more event before the rest. -/
def ReadResult.cons (ev : CacheEvent) (r : ReadResult) : ReadResult :=
  { r with events := ev :: r.events }

/-- The reader's loop, with a bound on the number of its rounds. -/
def readGo : ℕ → Bytes → ReadResult
  | 0, _ => ⟨[], none⟩
  | fuel + 1, s =>
    match readRecord s with
    | .eof => ⟨[], none⟩
    | .error err => ⟨[], some err⟩
    | .event ev rest => (readGo fuel rest).cons ev

/-- All events of a file, up to its end or the first error. -/
def readAll (file : Bytes) : ReadResult := readGo (file.length + 1) file

variable (file : Option Bytes) (fromTxID : Bytes) (fromEventSeq : Int64)

/-- The reader's test for the first event that it emits. -/
def startsAt (ev : CacheEvent) : Bool := ev.txID = fromTxID && fromEventSeq ≤ ev.eventSeq

/-- The events from a start position on. An empty transaction id is the beginning. -/
def eventsFrom (events : List CacheEvent) : List CacheEvent :=
  if fromTxID = [] then events else events.dropWhile fun ev => !startsAt fromTxID fromEventSeq ev

/-- What `Read` delivers from a file, which may not exist. -/
def readFile : ReadResult :=
  match file with
  | none => ⟨[], none⟩
  | some content =>
    let r := readAll content
    { r with events := eventsFrom fromTxID fromEventSeq r.events }

lemma readFile_nil : readFile file [] fromEventSeq = readAll (file.getD []) := by
  cases file with
  | none => rfl
  | some content => simp [readFile, eventsFrom]

/-! ## The loop -/

variable {ev : CacheEvent} {events : List CacheEvent} {content : Bytes}

lemma length_of_readRecord {s rest : Bytes} (h : readRecord s = .event ev rest) :
    rest.length + recordOverhead ≤ s.length := by
  obtain ⟨a, ⟨payload, ha, -, -⟩, rfl⟩ := readRecord_eq_event_iff.mp h
  rw [length_append, ha.length_eq, recordOverhead]
  omega

lemma readGo_of_lt (s : Bytes) {fuel : ℕ} (h : s.length < fuel) : readGo fuel s = readAll s := by
  -- By strong induction on the length: a round leaves a shorter file for both bounds.
  induction hn : s.length using Nat.strong_induction_on generalizing s fuel with
  | _ n ih =>
    obtain ⟨fuel, rfl⟩ : ∃ k, fuel = k + 1 := ⟨fuel - 1, by omega⟩
    rw [readAll, readGo, readGo]
    cases hrec : readRecord s with
    | eof => rfl
    | error err => rfl
    | event ev rest =>
      have hlen := length_of_readRecord hrec
      rw [recordOverhead] at hlen
      dsimp only
      rw [ih rest.length (by omega) rest (by omega) rfl,
        ih rest.length (by omega) rest (by omega) rfl]

lemma readAll_eq (s : Bytes) :
    readAll s = match readRecord s with
      | .eof => ⟨[], none⟩
      | .error err => ⟨[], some err⟩
      | .event ev rest => (readAll rest).cons ev := by
  rw [readAll, readGo]
  cases hrec : readRecord s with
  | eof => rfl
  | error err => rfl
  | event ev rest =>
    have hlen := length_of_readRecord hrec
    rw [recordOverhead] at hlen
    dsimp only
    rw [readGo_of_lt rest (by omega)]

@[simp]
lemma readAll_nil : readAll [] = ⟨[], none⟩ := rfl

/-- The record of an event within the size limit is read back, whatever follows it. -/
theorem readAll_encodeRecord {record : Bytes} (hsize : ev.marshal.length ≤ maxRecordSize)
    (hrecord : encodeRecord ev.marshal = some record) (rest : Bytes) :
    readAll (record ++ rest) = (readAll rest).cons ev.repaired := by
  rw [readAll_eq, readRecord_encodeRecord hsize hrecord]

/-! ## Records beyond the size limit -/

private lemma readRecord_cut {len crc : ℕ} (hcut : len < ev.marshal.length) (hlen : len < 2 ^ 32)
    (rest : Bytes) :
    ∃ err, readRecord (frame len crc (ev.marshal.take len) ++ rest) = .error err := by
  set payload := ev.marshal.take len with hpayload
  have hlength : payload.length = len := by
    rw [hpayload, length_take]
    omega
  have hsize := length_frame len crc payload
  have hhead : uint32 (frame len crc payload ++ rest) = len := by
    exact uint32_putUint32_append _ hlen _
  have hbody : ((frame len crc payload ++ rest).drop 8).take len = payload := by
    rw [drop_eight_frame, take_left' hlength]
  have hdecode : unmarshalCacheEvent payload = none := unmarshalCacheEvent_take hcut
  unfold readRecord
  dsimp only
  rw [hhead, hbody, hdecode, if_neg (by rw [length_append, hsize, recordOverhead]; omega)]
  dsimp only
  -- Whichever of the checks fails first, the last resort is the decoder.
  repeat' split
  all_goals exact ⟨_, rfl⟩

/-- The record of an event beyond the size limit is never read: its length field is over the limit,
or has wrapped around and the payload is cut. -/
theorem readRecord_oversized {record : Bytes} (hsize : maxRecordSize < ev.marshal.length)
    (hrecord : encodeRecord ev.marshal = some record) (rest : Bytes) :
    ∃ err, readRecord (record ++ rest) = .error err := by
  by_cases hlt : ev.marshal.length + recordOverhead < 2 ^ 32
  · rw [encodeRecord_of_lt hlt, some.injEq] at hrecord
    subst hrecord
    have hlen : ev.marshal.length < 2 ^ 32 := lt_of_le_of_lt (Nat.le_add_right _ _) hlt
    have hhead : uint32 (frame ev.marshal.length
        (crc32 (putUint32 ev.marshal.length ++ ev.marshal)) ev.marshal ++ rest) =
          ev.marshal.length := by
      exact uint32_putUint32_append _ hlen _
    refine ⟨.tooLarge, ?_⟩
    unfold readRecord
    rw [hhead, if_neg (by rw [length_append, length_frame, recordOverhead]; omega), if_pos hsize]
  · unfold encodeRecord at hrecord
    dsimp only at hrecord
    split at hrecord
    · cases hrecord
    · next hfits =>
      rw [some.injEq] at hrecord
      subst hrecord
      exact readRecord_cut (by omega) (by omega) rest

/-! ## Files of written events -/

lemma writeEvents_cons (file : Bytes) (ev : CacheEvent) (events : List CacheEvent) :
    writeEvents file (ev :: events) =
      (encodeRecord ev.marshal).bind fun record => writeEvents (file ++ record) events := by
  rw [writeEvents, foldlM_cons, marshalAndWrite, bind_eq_bind, Option.bind_map]
  rfl

lemma writeEvents_eq_map (file : Bytes) (events : List CacheEvent) :
    writeEvents file events = (writeEvents [] events).map (file ++ ·) := by
  induction events generalizing file with
  | nil => simp [writeEvents]
  | cons ev events ih =>
    rw [writeEvents_cons, writeEvents_cons, Option.map_bind]
    refine congrArg _ (funext fun record => ?_)
    rw [Function.comp_apply, ih (file ++ record), ih ([] ++ record), Option.map_map]
    refine congrArg (Option.map · _) (funext fun rest => ?_)
    simp [append_assoc]

lemma writeEvents_append (file : Bytes) (before after : List CacheEvent) :
    writeEvents file (before ++ after) =
      (writeEvents file before).bind fun content => writeEvents content after := by
  rw [writeEvents, foldlM_append]
  rfl

lemma writeEvents_nil_cons (h : writeEvents [] (ev :: events) = some content) :
    ∃ record rest, encodeRecord ev.marshal = some record ∧ writeEvents [] events = some rest ∧
      content = record ++ rest := by
  rw [writeEvents_cons, bind_eq_some_iff] at h
  obtain ⟨record, hrecord, hrest⟩ := h
  rw [nil_append, writeEvents_eq_map, map_eq_some_iff] at hrest
  obtain ⟨rest, hrest, rfl⟩ := hrest
  exact ⟨record, rest, hrecord, hrest, rfl⟩

lemma exists_writeEvents (h : ∀ e ∈ events, e.marshal.length ≤ maxRecordSize) (file : Bytes) :
    ∃ content, writeEvents file events = some content := by
  induction events generalizing file with
  | nil => exact ⟨file, rfl⟩
  | cons ev events ih =>
    rw [forall_mem_cons] at h
    rw [writeEvents_cons, encodeRecord_of_lt (lt_of_le_maxRecordSize h.1), bind_some]
    exact ih h.2 _

/-- Events within the size limit are read back in order, with repaired texts, before what
follows. -/
lemma readAll_append (h : writeEvents [] events = some content)
    (hsize : ∀ e ∈ events, e.marshal.length ≤ maxRecordSize) (s : Bytes) :
    readAll (content ++ s) = ⟨events.map repaired ++ (readAll s).events, (readAll s).err⟩ := by
  induction events generalizing content with
  | nil =>
    obtain rfl : [] = content := some.inj h
    rfl
  | cons ev events ih =>
    rw [forall_mem_cons] at hsize
    obtain ⟨record, rest, hrecord, hrest, rfl⟩ := writeEvents_nil_cons h
    rw [append_assoc, readAll_encodeRecord hsize.1 hrecord, ih hrest hsize.2, ReadResult.cons,
      map_cons, cons_append]

lemma readAll_writeEvents (h : writeEvents [] events = some content)
    (hsize : ∀ e ∈ events, e.marshal.length ≤ maxRecordSize) :
    readAll content = ⟨events.map repaired, none⟩ := by
  simpa using readAll_append h hsize []

/-- The events written to a file from scratch are all delivered exactly if each is within the size
limit. -/
theorem events_readAll_writeEvents_iff (h : writeEvents [] events = some content) :
    (readAll content).events = events.map repaired ↔
      ∀ e ∈ events, e.marshal.length ≤ maxRecordSize := by
  refine ⟨fun hall => ?_, fun hsize => by rw [readAll_writeEvents h hsize]⟩
  -- By induction on the events, one record at a time.
  induction events generalizing content with
  | nil => simp
  | cons ev events ih =>
    obtain ⟨record, rest, hrecord, hrest, rfl⟩ := writeEvents_nil_cons h
    by_cases hsize : ev.marshal.length ≤ maxRecordSize
    · rw [readAll_encodeRecord hsize hrecord, ReadResult.cons, map_cons, List.cons.injEq] at hall
      exact forall_mem_cons.mpr ⟨hsize, ih hrest hall.2⟩
    · obtain ⟨err, herr⟩ := readRecord_oversized (not_le.mp hsize) hrecord rest
      rw [readAll_eq, herr, map_cons] at hall
      cases hall

end DataStream.Cache
