import DataStream.Cache.CacheEvent

/-!
# Records of a cache file

`LocalBackend` keeps the events of one table in one append-only file of records

    [4B len][4B CRC32][len bytes payload][4B len]

with the checksum over the first length field and the payload. This file models the writer
(`marshalAndWrite`) and one round of the reader's loop (`readRecord`) on the bytes of a file. A
round is split into the part that takes the payload out of its record (`readFrame`) and the decoding
of the payload. File operations are taken to succeed.

* `readBody_eq_payload_iff`: a payload is taken exactly from a record whose fields agree;
* `readRecord_eq_event_iff`: an event is read exactly from a well-formed record;
* `readRecord_encodeRecord`: what the writer wrote is read back, up to `maxRecordSize`.
-/

namespace DataStream.Cache

open Bytes List CacheEvent

/-- `MaxRecordSize`: 64 MB. -/
def maxRecordSize : ℕ := 64 * 1024 * 1024

/-- `recordOverhead`: the two length fields and the checksum. -/
def recordOverhead : ℕ := 12

/-- The layout of a record with the given length field, checksum and payload. -/
def frame (len crc : ℕ) (payload : Bytes) : Bytes :=
  putUint32 len ++ (putUint32 crc ++ (payload ++ putUint32 len))

/-- The bytes that `marshalAndWrite` builds for a payload. The length is truncated to 32 bits; when
the size of the record overflows them, slicing the buffer panics (`none`). -/
def encodeRecord (payload : Bytes) : Option Bytes :=
  let payloadLen := payload.length % 2 ^ 32
  if 2 ^ 32 ≤ payloadLen + recordOverhead then none
  else
    let crc := crc32 (putUint32 payloadLen ++ payload)
    some (frame payloadLen crc (payload.take payloadLen))

/-- `marshalAndWrite`: append the record of an event to a file. -/
def marshalAndWrite (file : Bytes) (ev : CacheEvent) : Option Bytes :=
  (encodeRecord ev.marshal).map (file ++ ·)

/-- The content of a file after `Write` or `WriteBatch` calls with the given events. -/
def writeEvents (file : Bytes) (events : List CacheEvent) : Option Bytes :=
  events.foldlM marshalAndWrite file

inductive ReadError where
  | tooLarge
  | readCRC
  | readPayload
  | readTail
  | tailMismatch
  | crcMismatch
  | unmarshal
  deriving DecidableEq, Repr

/-- One round of the reader's loop. -/
inductive ReadStep where
  /-- Fewer than four bytes are left: the reader stops without an error. -/
  | eof
  | error (err : ReadError)
  | event (ev : CacheEvent) (rest : Bytes)
  deriving DecidableEq, Repr

variable (s : Bytes)

/-- Read one record from the head of the remaining bytes of a file. -/
def readRecord : ReadStep :=
  if s.length < 4 then .eof
  else
    let payloadLen := uint32 s
    if maxRecordSize < payloadLen then .error .tooLarge
    else if s.length < 8 then .error .readCRC
    else if s.length < 8 + payloadLen then .error .readPayload
    else if s.length < 12 + payloadLen then .error .readTail
    else if uint32 (s.drop (8 + payloadLen)) ≠ payloadLen then .error .tailMismatch
    else
      let payload := (s.drop 8).take payloadLen
      if uint32 (s.drop 4) ≠ crc32 (s.take 4 ++ payload) then .error .crcMismatch
      else
        match unmarshalCacheEvent payload with
        | none => .error .unmarshal
        | some ev => .event ev (s.drop (12 + payloadLen))

/-- One round of a reader, before the payload is decoded. -/
inductive Round (ε : Type) where
  /-- The reader stops without an error. -/
  | eof
  | error (err : ε)
  | payload (bytes rest : Bytes)
  deriving DecidableEq, Repr

/-- The same round with other errors. -/
def Round.mapError {ε ε' : Type} (f : ε → ε') : Round ε → Round ε'
  | .eof => .eof
  | .error err => .error (f err)
  | .payload bytes rest => .payload bytes rest

/-- A round after the length field: the rest is read, then the length fields and the checksums are
compared. -/
def readBody : Round ReadError :=
  let payloadLen := uint32 s
  if s.length < 8 then .error .readCRC
  else if s.length < 8 + payloadLen then .error .readPayload
  else if s.length < 12 + payloadLen then .error .readTail
  else if uint32 (s.drop (8 + payloadLen)) ≠ payloadLen then .error .tailMismatch
  else
    let payload := (s.drop 8).take payloadLen
    if uint32 (s.drop 4) ≠ crc32 (s.take 4 ++ payload) then .error .crcMismatch
    else .payload payload (s.drop (12 + payloadLen))

/-- A round of `Read`, up to the decoding of the payload. -/
def readFrame : Round ReadError :=
  if s.length < 4 then .eof
  else if maxRecordSize < uint32 s then .error .tooLarge
  else readBody s

lemma readRecord_eq : readRecord s = match readFrame s with
      | .eof => .eof
      | .error err => .error err
      | .payload bytes rest =>
        match unmarshalCacheEvent bytes with
        | none => .error .unmarshal
        | some ev => .event ev rest := by
  unfold readRecord readFrame readBody
  dsimp only
  repeat' split
  all_goals simp_all

/-! ## The layout of a record -/

private lemma crcShift_lt {c : ℕ} (h : c < 2 ^ 32) : crcShift c < 2 ^ 32 := by
  unfold crcShift
  split
  · exact Nat.xor_lt_two_pow (by omega) (by norm_num)
  · omega

lemma crc32_lt (data : Bytes) : crc32 data < 2 ^ 32 := by
  have hfold : ∀ c, c < 2 ^ 32 → data.foldl crcByte c < 2 ^ 32 := by
    induction data with
    | nil => exact fun c hc => hc
    | cons b data ih =>
      intro c hc
      refine ih _ ?_
      have hb : b.toNat < 2 ^ 32 := b.toNat_lt.trans (by norm_num)
      exact crcShift_lt (crcShift_lt (crcShift_lt (crcShift_lt (crcShift_lt (crcShift_lt
        (crcShift_lt (crcShift_lt (Nat.xor_lt_two_pow hc hb))))))))
  exact Nat.xor_lt_two_pow (hfold _ (by norm_num)) (by norm_num)

section Frame

variable (len crc : ℕ) (payload rest : Bytes)

lemma length_frame : (frame len crc payload).length = payload.length + recordOverhead := by
  simp only [frame, length_append, length_putUint32, recordOverhead]
  ring

lemma take_four_frame : (frame len crc payload ++ rest).take 4 = putUint32 len := by
  rw [frame, append_assoc]
  exact take_left' rfl

lemma drop_four_frame :
    (frame len crc payload ++ rest).drop 4 =
      putUint32 crc ++ (payload ++ putUint32 len ++ rest) := by
  rw [frame, append_assoc, append_assoc]
  exact drop_left' rfl

lemma drop_eight_frame :
    (frame len crc payload ++ rest).drop 8 = payload ++ (putUint32 len ++ rest) := by
  rw [show 8 = 4 + 4 from rfl, ← drop_drop, drop_four_frame,
    drop_left' (length_putUint32 crc), append_assoc]

lemma drop_payload_frame :
    (frame len crc payload ++ rest).drop (8 + payload.length) = putUint32 len ++ rest := by
  rw [← drop_drop, drop_eight_frame, drop_left' rfl]

lemma drop_frame : (frame len crc payload ++ rest).drop (12 + payload.length) = rest := by
  rw [show 12 + payload.length = (8 + payload.length) + 4 by omega, ← drop_drop,
    drop_payload_frame, drop_left' (length_putUint32 len)]

end Frame

lemma encodeRecord_of_lt {payload : Bytes} (h : payload.length + recordOverhead < 2 ^ 32) :
    encodeRecord payload =
      some (frame payload.length (crc32 (putUint32 payload.length ++ payload)) payload) := by
  have hlen : payload.length % 2 ^ 32 = payload.length :=
    Nat.mod_eq_of_lt (lt_of_le_of_lt (Nat.le_add_right _ _) h)
  unfold encodeRecord
  rw [hlen, if_neg (not_le.mpr h), take_length]

lemma lt_of_le_maxRecordSize {n : ℕ} (h : n ≤ maxRecordSize) : n + recordOverhead < 2 ^ 32 := by
  have hmax : maxRecordSize + recordOverhead < 2 ^ 32 := by decide
  omega

/-! ## Well-formed records -/

/-- The bytes are a record of the payload: its length, the checksum, the payload and its length. -/
structure Framed (bytes payload : Bytes) : Prop where
  lt : payload.length < 2 ^ 32
  eq : bytes = frame payload.length (crc32 (putUint32 payload.length ++ payload)) payload

/-- The bytes are a record within the size limit of a payload that decodes to the event. -/
structure WellFormed (bytes : Bytes) (ev : CacheEvent) : Prop where
  framed : ∃ payload, Framed bytes payload ∧ payload.length ≤ maxRecordSize ∧
    unmarshalCacheEvent payload = some ev

variable {s a payload rest : Bytes} {ev : CacheEvent}

lemma Framed.uint32_eq (h : Framed a payload) (rest : Bytes) :
    uint32 (a ++ rest) = payload.length := by
  rw [h.eq, frame, append_assoc]
  exact uint32_putUint32_append _ h.lt _

lemma Framed.length_eq (h : Framed a payload) : a.length = payload.length + 12 := by
  rw [h.eq, length_frame, recordOverhead]

lemma Framed.readBody_append (h : Framed a payload) (rest : Bytes) :
    readBody (a ++ rest) = .payload payload rest := by
  have hlength : (a ++ rest).length = payload.length + 12 + rest.length := by
    rw [length_append, h.length_eq]
  have hhead := h.uint32_eq rest
  obtain ⟨hlt, rfl⟩ := h
  set crc := crc32 (putUint32 payload.length ++ payload) with hcrc
  -- What the reader finds at each of its reads.
  have hstored : uint32 ((frame payload.length crc payload ++ rest).drop 4) = crc := by
    exact uint32_putUint32_append _ (crc32_lt _) _
  have htail : uint32 ((frame payload.length crc payload ++ rest).drop (8 + payload.length)) =
      payload.length := by
    rw [drop_payload_frame]
    exact uint32_putUint32_append _ hlt _
  have hbody : ((frame payload.length crc payload ++ rest).drop 8).take payload.length =
      payload := by
    rw [drop_eight_frame, take_left' rfl]
  unfold readBody
  simp only [hhead, hstored, htail, hbody, take_four_frame, drop_frame, ← hcrc]
  rw [if_neg (by omega), if_neg (by omega), if_neg (by omega), if_neg (by simp), if_neg (by simp)]

/-- A stream of at least `12 + n` bytes, cut at the fields of a record with a payload of length
`n`. -/
private lemma cut_fields (s : Bytes) (n : ℕ) :
    s = s.take 4 ++ ((s.drop 4).take 4 ++ ((s.drop 8).take n ++ (s.drop (8 + n)).take 4)) ++
      s.drop (12 + n) := by
  have hend : (s.drop (8 + n)).take 4 ++ s.drop (12 + n) = s.drop (8 + n) := by
    rw [show 12 + n = (8 + n) + 4 by omega, ← drop_drop (i := 4), take_append_drop]
  have hpayload : (s.drop 8).take n ++ s.drop (8 + n) = s.drop 8 := by
    rw [← drop_drop, take_append_drop]
  have hcrc : (s.drop 4).take 4 ++ s.drop 8 = s.drop 4 := by
    rw [show 8 = 4 + 4 from rfl, ← drop_drop, take_append_drop]
  rw [append_assoc, append_assoc, append_assoc, hend, hpayload, hcrc, take_append_drop]

lemma framed_of_readBody (h : readBody s = .payload payload rest) :
    ∃ a, Framed a payload ∧ s = a ++ rest := by
  unfold readBody at h
  dsimp only at h
  split at h
  · simp at h
  split at h
  · simp at h
  split at h
  · simp at h
  split at h
  · simp at h
  split at h
  · simp at h
  next h8 hpay h12 htail hcrc =>
    rw [not_not] at htail hcrc
    obtain ⟨rfl, rfl⟩ := Round.payload.inj h
    set n := uint32 s with hn
    have hlen : ((s.drop 8).take n).length = n := by
      rw [length_take, length_drop]
      omega
    -- Each field is what the writer would put there.
    have hhead : putUint32 n = s.take 4 := putUint32_uint32 (by omega)
    have hstored : putUint32 (uint32 (s.drop 4)) = (s.drop 4).take 4 :=
      putUint32_uint32 (by rw [length_drop]; omega)
    have hend : putUint32 (uint32 (s.drop (8 + n))) = (s.drop (8 + n)).take 4 :=
      putUint32_uint32 (by rw [length_drop]; omega)
    refine ⟨_, ⟨?_, ?_⟩, cut_fields s n⟩
    · rw [hlen]
      exact uint32_lt s
    · rw [hlen, frame, hhead, ← hcrc, hstored, ← hend, htail, hhead]

/-- A payload is taken exactly from a record, whatever follows it. -/
theorem readBody_eq_payload_iff :
    readBody s = .payload payload rest ↔ ∃ a, Framed a payload ∧ s = a ++ rest := by
  refine ⟨framed_of_readBody, ?_⟩
  rintro ⟨a, ha, rfl⟩
  exact ha.readBody_append rest

lemma readBody_ne_eof (s : Bytes) : readBody s ≠ .eof := by
  unfold readBody
  dsimp only
  repeat' split
  all_goals simp

lemma readFrame_eq_eof_iff : readFrame s = .eof ↔ s.length < 4 := by
  unfold readFrame
  split
  · next hshort => simp [hshort]
  · next hlong =>
    split
    · simpa using hlong
    · simpa [readBody_ne_eof] using hlong

lemma readFrame_eq_payload_iff :
    readFrame s = .payload payload rest ↔
      ∃ a, (Framed a payload ∧ payload.length ≤ maxRecordSize) ∧ s = a ++ rest := by
  constructor
  · intro h
    unfold readFrame at h
    split at h
    · simp at h
    split at h
    · simp at h
    next hlimit =>
      obtain ⟨a, ha, rfl⟩ := readBody_eq_payload_iff.mp h
      rw [ha.uint32_eq] at hlimit
      exact ⟨a, ⟨ha, not_lt.mp hlimit⟩, rfl⟩
  · rintro ⟨a, ⟨ha, hsize⟩, rfl⟩
    have hlength := ha.length_eq
    rw [readFrame, if_neg (by rw [length_append]; omega), ha.uint32_eq,
      if_neg (not_lt.mpr hsize), ha.readBody_append]

/-- An event is read exactly from a well-formed record. -/
theorem readRecord_eq_event_iff :
    readRecord s = .event ev rest ↔ ∃ a, WellFormed a ev ∧ s = a ++ rest := by
  rw [readRecord_eq]
  constructor
  · intro h
    rcases hframe : readFrame s with _ | err | ⟨payload, rest'⟩
    · simp [hframe] at h
    · simp [hframe] at h
    · rcases hdecode : unmarshalCacheEvent payload with _ | ev'
      · simp [hframe, hdecode] at h
      · simp only [hframe, hdecode, ReadStep.event.injEq] at h
        obtain ⟨rfl, rfl⟩ := h
        obtain ⟨a, ⟨ha, hsize⟩, rfl⟩ := readFrame_eq_payload_iff.mp hframe
        exact ⟨a, ⟨payload, ha, hsize, hdecode⟩, rfl⟩
  · rintro ⟨a, ⟨payload, ha, hsize, hdecode⟩, rfl⟩
    rw [readFrame_eq_payload_iff.mpr ⟨a, ⟨ha, hsize⟩, rfl⟩]
    simp only [hdecode]

lemma readRecord_eq_eof_iff : readRecord s = .eof ↔ s.length < 4 := by
  rw [readRecord_eq, ← readFrame_eq_eof_iff]
  rcases readFrame s with _ | err | ⟨payload, rest⟩
  · simp
  · simp
  · rcases hdecode : unmarshalCacheEvent payload with _ | ev <;> simp [hdecode]

/-- The reader reads back the record of a payload of moderate size, whatever follows it. -/
theorem readRecord_encodeRecord {record : Bytes} (hsize : ev.marshal.length ≤ maxRecordSize)
    (hrecord : encodeRecord ev.marshal = some record) (rest : Bytes) :
    readRecord (record ++ rest) = .event ev.repaired rest := by
  have hlt := lt_of_le_maxRecordSize hsize
  rw [encodeRecord_of_lt hlt, Option.some.injEq] at hrecord
  have hframed : Framed record ev.marshal :=
    ⟨lt_of_le_of_lt (Nat.le_add_right _ _) hlt, hrecord.symm⟩
  have hdecode := unmarshalCacheEvent_marshal ev
  exact readRecord_eq_event_iff.mpr ⟨record, ⟨ev.marshal, hframed, hsize, hdecode⟩, rfl⟩

end DataStream.Cache
