import DataStream.Cache.Record

/-!
# Crash repair of a cache file

`TruncateToLastComplete` scans a cache file backwards for an offset at which a complete record
ends, cuts the file there and returns the position stored in that record. It recomputes the
checksum over the first `4 + len` bytes of the record, which are the length field, the stored
checksum and all but the last four bytes of the payload, while the writer takes it over the
length field and the payload. A complete record therefore passes the test only when two
different checksums happen to agree.

* `truncateToLastComplete_repairs_iff`: when the repair of a torn file is right.
-/

namespace DataStream.Cache

open Bytes Event List Option CacheEvent

/-! ## The repair -/

variable (file : Bytes) (n : ℕ)

/-- The test of one offset: the event of a complete record that ends there. -/
def recordEndingAt (fileSize : ℕ) : Option CacheEvent :=
  let payloadLen := uint32 (file.drop (fileSize - 4))
  if maxRecordSize < payloadLen then none
  else
    let recordSize := payloadLen + recordOverhead
    if fileSize < recordSize then none
    else
      let recordBuf := (file.drop (fileSize - recordSize)).take recordSize
      if uint32 recordBuf ≠ payloadLen then none
      -- The range of the checksum starts with the length field and the stored checksum.
      else if uint32 (recordBuf.drop 4) ≠ crc32 (recordBuf.take (4 + payloadLen)) then none
      else unmarshalCacheEvent ((recordBuf.drop 8).take payloadLen)

/-- The backward scan from an offset: the first offset that passes the test, and its event. -/
def scan (file : Bytes) : ℕ → Option (ℕ × CacheEvent)
  | 0 => none
  | fileSize + 1 =>
    if fileSize + 1 < recordOverhead then none
    else
      match recordEndingAt file (fileSize + 1) with
      | some ev => some (fileSize + 1, ev)
      | none => scan file fileSize

/-- `TruncateToLastComplete` on the content of a file: the position and the content it leaves. -/
def truncateToLastComplete : Option Position × Bytes :=
  match scan file file.length with
  | some (fileSize, ev) => (ev.getPosition, file.take fileSize)
  | none => (none, [])

/-! ## Where the scan stops -/

lemma recordEndingAt_eq_none_of_lt {fileSize : ℕ} (h : fileSize < recordOverhead) :
    recordEndingAt file fileSize = none := by
  unfold recordEndingAt
  dsimp only
  split
  · rfl
  · rw [if_pos (by omega)]

/-- The scan goes down from an offset, and stops at the first one that passes the test. -/
lemma scan_spec : match scan file n with
    | none => ∀ m ≤ n, recordEndingAt file m = none
    | some (m, ev) => m ≤ n ∧ recordEndingAt file m = some ev ∧
      ∀ k, m < k → k ≤ n → recordEndingAt file k = none := by
  induction n with
  | zero =>
    rintro m hm
    exact recordEndingAt_eq_none_of_lt file (by rw [Nat.le_zero.mp hm]; decide)
  | succ n ih =>
    rw [scan]
    split_ifs with hlt
    · exact fun m hm => recordEndingAt_eq_none_of_lt file (by omega)
    · cases hrec : recordEndingAt file (n + 1) with
      | some ev => exact ⟨le_rfl, hrec, fun k hk hk' => absurd hk' (by omega)⟩
      | none =>
        -- What holds from the offset below holds from this one.
        have hstep : ∀ k, (k ≤ n → recordEndingAt file k = none) → k ≤ n + 1 →
            recordEndingAt file k = none := by
          intro k hk hk'
          rcases Nat.le_succ_iff.mp hk' with hle | rfl
          · exact hk hle
          · exact hrec
        dsimp only
        split at ih
        · exact fun m hm => hstep m (ih m) hm
        · exact ⟨by omega, ih.2.1, fun k hk => hstep k (ih.2.2 k hk)⟩

lemma scan_eq_none_iff : scan file n = none ↔ ∀ m ≤ n, recordEndingAt file m = none := by
  have hspec := scan_spec file n
  rcases hscan : scan file n with _ | ⟨m, ev⟩ <;> rw [hscan] at hspec
  · exact iff_of_true rfl hspec
  · refine iff_of_false nofun fun hnone => ?_
    cases (hnone m hspec.1).symm.trans hspec.2.1

/-- The scan stops at the last offset that passes the test. -/
theorem scan_eq_some_iff (n m : ℕ) (ev : CacheEvent) :
    scan file n = some (m, ev) ↔ m ≤ n ∧ recordEndingAt file m = some ev ∧
      ∀ k, m < k → k ≤ n → recordEndingAt file k = none := by
  have hspec := scan_spec file n
  constructor
  · intro hscan
    rwa [hscan] at hspec
  · rintro ⟨hm, hev, hnone⟩
    rcases hscan : scan file n with _ | ⟨m', ev'⟩ <;> rw [hscan] at hspec
    · cases (hspec m hm).symm.trans hev
    · obtain ⟨hm', hev', hnone'⟩ := hspec
      -- Neither offset is above the other.
      rcases Nat.lt_trichotomy m m' with hlt | rfl | hlt
      · cases (hnone m' hlt hm').symm.trans hev'
      · rw [some.inj (hev.symm.trans hev')]
      · cases (hnone' m hlt hm).symm.trans hev

/-! ## When a complete record passes the test -/

/-- The test at the end of a record of the file: the length is within the limit, and the stored
checksum agrees with the one that the repair recomputes. -/
theorem recordEndingAt_frame (before after payload : Bytes) (crc : ℕ)
    (hlen : payload.length < 2 ^ 32) (hcrc : crc < 2 ^ 32) :
    recordEndingAt (before ++ frame payload.length crc payload ++ after)
        (before.length + (payload.length + recordOverhead)) =
      if payload.length ≤ maxRecordSize ∧
          crc = crc32 ((frame payload.length crc payload).take (4 + payload.length)) then
        unmarshalCacheEvent payload
      else none := by
  -- What each read of the test finds: the tail length first, then the buffer that it measures off,
  -- and in the buffer the header length, the stored checksum and the payload.
  set record := frame payload.length crc payload with hrecord
  have hsize : record.length = payload.length + recordOverhead := length_frame _ _ _
  have hstart : (before ++ record ++ after).drop before.length = record ++ after := by
    rw [append_assoc, drop_left' rfl]
  have htail : uint32 ((before ++ record ++ after).drop
      (before.length + (payload.length + recordOverhead) - 4)) = payload.length := by
    rw [show before.length + (payload.length + recordOverhead) - 4 =
        before.length + (8 + payload.length) by rw [recordOverhead]; omega,
      ← drop_drop, hstart, hrecord, drop_payload_frame]
    exact uint32_putUint32_append _ hlen _
  have hbuf : ((before ++ record ++ after).drop (before.length +
      (payload.length + recordOverhead) - (payload.length + recordOverhead))).take
        (payload.length + recordOverhead) = record := by
    rw [Nat.add_sub_cancel, hstart, take_left' hsize]
  have hheader : uint32 record = payload.length := by
    exact uint32_putUint32_append _ hlen _
  have hstored : uint32 (record.drop 4) = crc := by
    have := drop_four_frame payload.length crc payload []
    rw [append_nil] at this
    exact uint32_putUint32_append _ hcrc _
  have hbody : (record.drop 8).take payload.length = payload := by
    have := drop_eight_frame payload.length crc payload []
    rw [append_nil] at this
    rw [hrecord, this, take_left' rfl]
  unfold recordEndingAt
  simp only [htail, hbuf, hheader, hstored, hbody]
  by_cases hmax : maxRecordSize < payload.length
  · rw [if_pos hmax, if_neg fun h => absurd h.1 (not_le.mpr hmax)]
  · -- Of the tests only the one on the checksum can fail.
    rw [if_neg hmax, if_neg (by omega), if_neg (by simp)]
    by_cases hsum : crc = crc32 (record.take (4 + payload.length))
    · rw [if_neg (by simpa using hsum), if_pos ⟨not_lt.mp hmax, hsum⟩]
    · rw [if_pos hsum, if_neg fun h => hsum h.2]

variable (events : List CacheEvent) (e : CacheEvent)

/-- The two checksums of an event's record agree: the writer's, over the length field and the
payload, and the repair's, over the first `4 + len` bytes of the record. -/
def ChecksumsAgree : Prop :=
  let payload := e.marshal
  let crc := crc32 (putUint32 payload.length ++ payload)
  crc32 ((frame payload.length crc payload).take (4 + payload.length)) = crc
  deriving Decidable

/-- The test at the end of the record of an event yields the event, exactly when the payload is
within the limit and the two checksums agree. -/
lemma recordEndingAt_encodeRecord (before after : Bytes) {e : CacheEvent} {record : Bytes}
    (hrecord : encodeRecord e.marshal = some record) :
    recordEndingAt (before ++ record ++ after) (before.length + record.length) =
      if e.marshal.length ≤ maxRecordSize ∧ ChecksumsAgree e then some e.repaired else none := by
  by_cases hlt : e.marshal.length + recordOverhead < 2 ^ 32
  · rw [encodeRecord_of_lt hlt, some.injEq] at hrecord
    subst hrecord
    rw [length_frame, recordEndingAt_frame before after e.marshal _
      (lt_of_le_of_lt (Nat.le_add_right _ _) hlt) (crc32_lt _),
      unmarshalCacheEvent_marshal]
    refine if_congr (and_congr_right fun _ => ?_) rfl rfl
    exact eq_comm
  · -- The length field has wrapped around and the payload is cut, so it is no JSON text.
    have hmax : ¬ e.marshal.length ≤ maxRecordSize := fun h => hlt (lt_of_le_maxRecordSize h)
    rw [if_neg fun h => hmax h.1]
    unfold encodeRecord at hrecord
    dsimp only at hrecord
    split at hrecord
    · cases hrecord
    · next hfits =>
      rw [some.injEq] at hrecord
      subst hrecord
      set len := e.marshal.length % 2 ^ 32 with hlen
      have hcut : len < e.marshal.length := by
        omega
      have htake : (e.marshal.take len).length = len := by
        rw [length_take]
        omega
      have hframe := recordEndingAt_frame before after (e.marshal.take len)
        (crc32 (putUint32 len ++ e.marshal)) (by omega) (crc32_lt _)
      rw [htake] at hframe
      rw [length_frame, htake, hframe, unmarshalCacheEvent_take hcut]
      split <;> rfl

/-! ## When the repair of a torn file is right -/

/-- The stored position of an event carries its transaction id and sequence number. -/
def PositionMatches (pos : Option Position) : Prop :=
  ∃ p, pos = some p ∧ p.txID = e.txID ∧ p.seqNo = e.eventSeq

/-- The repair left exactly the complete records and returned the position of the last of them, or
nothing if there is none. -/
structure Repairs (events : List CacheEvent) (complete : Bytes)
    (result : Option Position × Bytes) : Prop where
  /-- The file holds the complete records, byte for byte. -/
  file : result.2 = complete
  /-- Without a complete record no position is returned. -/
  noPosition : events = [] → result.1 = none
  /-- The position is the one of the last complete record. -/
  position : ∀ e ∈ events.getLast?, PositionMatches e result.1

/-- When the repair of a torn file is right: no offset in the torn part passes the test, and the
last complete record, if any, is within the limit, has agreeing checksums and stores its own
position. -/
structure RepairCondition (events : List CacheEvent) (complete torn : Bytes) : Prop where
  torn : ∀ n, complete.length < n → n ≤ (complete ++ torn).length →
    recordEndingAt (complete ++ torn) n = none
  last : ∀ e ∈ events.getLast?, e.marshal.length ≤ maxRecordSize ∧ ChecksumsAgree e ∧
    PositionMatches e e.getPosition

lemma writeEvents_concat {events : List CacheEvent} {e : CacheEvent} {complete : Bytes}
    (h : writeEvents [] (events ++ [e]) = some complete) :
    ∃ before record, encodeRecord e.marshal = some record ∧ complete = before ++ record := by
  rw [writeEvents, foldlM_append, bind_eq_bind, bind_eq_some_iff] at h
  obtain ⟨before, -, hlast⟩ := h
  rw [foldlM_cons, bind_eq_bind, bind_eq_some_iff] at hlast
  obtain ⟨file, hwrite, hfile⟩ := hlast
  rw [marshalAndWrite, map_eq_some_iff] at hwrite
  obtain ⟨record, hrecord, rfl⟩ := hwrite
  exact ⟨before, record, hrecord, (some.inj hfile).symm⟩

lemma encodeRecord_ne_nil {payload record : Bytes} (h : encodeRecord payload = some record) :
    record ≠ [] := by
  unfold encodeRecord at h
  dsimp only at h
  split at h
  · cases h
  · rw [some.injEq] at h
    rw [← h, ← length_pos_iff, length_frame, recordOverhead]
    omega

private lemma repairs_nil_iff (torn : Bytes) :
    Repairs [] [] (truncateToLastComplete torn) ↔ RepairCondition [] [] torn := by
  have hcond : RepairCondition [] [] torn ↔ scan torn torn.length = none := by
    rw [scan_eq_none_iff]
    constructor
    · rintro ⟨htorn, -⟩ m hm
      rcases Nat.eq_zero_or_pos m with rfl | hpos
      · exact recordEndingAt_eq_none_of_lt torn (by decide)
      · simpa using htorn m hpos (by simpa using hm)
    · intro h
      exact ⟨fun n _ hn => by simpa using h n (by simpa using hn), by simp⟩
  rw [hcond, truncateToLastComplete]
  cases hscan : scan torn torn.length with
  | none => exact ⟨fun _ => rfl, fun _ => ⟨rfl, fun _ => rfl, by simp⟩⟩
  | some found =>
    obtain ⟨m, ev⟩ := found
    obtain ⟨hm, hev, -⟩ := (scan_eq_some_iff _ _ _ _).mp hscan
    refine ⟨fun h => ?_, fun h => by cases h⟩
    -- A record was found, so at least twelve bytes are left.
    have hle : recordOverhead ≤ m := by
      by_contra hlt
      rw [recordEndingAt_eq_none_of_lt torn (not_le.mp hlt)] at hev
      cases hev
    have hlen := congrArg List.length h.file
    rw [length_take, length_nil, recordOverhead.eq_1] at *
    omega

/-- With a complete record, the repair is right exactly when the scan stops at the end of the
last one, which stores its own position. -/
private lemma repairs_concat_iff (before record torn : Bytes)
    (hrecord : encodeRecord e.marshal = some record) :
    Repairs (events ++ [e]) (before ++ record) (truncateToLastComplete (before ++ record ++ torn)) ↔
      RepairCondition (events ++ [e]) (before ++ record) torn := by
  set complete := before ++ record with hcomplete
  have hne : complete ≠ [] := by simp [hcomplete, encodeRecord_ne_nil hrecord]
  have hlast : recordEndingAt (complete ++ torn) complete.length =
      if e.marshal.length ≤ maxRecordSize ∧ ChecksumsAgree e then some e.repaired else none := by
    rw [hcomplete, length_append]
    exact recordEndingAt_encodeRecord before torn hrecord
  constructor
  · intro h
    rw [truncateToLastComplete] at h
    cases hscan : scan (complete ++ torn) (complete ++ torn).length with
    | none =>
      rw [hscan] at h
      exact absurd h.file.symm hne
    | some found =>
      obtain ⟨m, ev⟩ := found
      rw [hscan] at h
      obtain ⟨hm, hev, hnone⟩ := (scan_eq_some_iff _ _ _ _).mp hscan
      -- The file was cut at the end of the complete records.
      obtain rfl : m = complete.length := by
        have := congrArg List.length h.file
        rw [length_take] at this
        omega
      rw [hlast] at hev
      split at hev
      · next hpass =>
        have hpos := h.position e (by simp)
        rw [← some.inj hev] at hpos
        refine ⟨fun n hn hn' => hnone n hn hn', ?_⟩
        rintro e' he'
        obtain rfl : e = e' := by simpa using he'
        exact ⟨hpass.1, hpass.2, hpos⟩
      · cases hev
  · -- The last complete record passes and nothing after it does, so the scan stops there.
    rintro ⟨htorn, hcond⟩
    obtain ⟨hsize, hsums, hpos⟩ := hcond e (by simp)
    rw [if_pos ⟨hsize, hsums⟩] at hlast
    have hscan : scan (complete ++ torn) (complete ++ torn).length =
        some (complete.length, e.repaired) := by
      rw [scan_eq_some_iff]
      exact ⟨by simp, hlast, fun k hk hk' => htorn k hk hk'⟩
    rw [truncateToLastComplete, hscan]
    refine ⟨take_left' rfl, fun h => by simp at h, ?_⟩
    rintro e' he'
    obtain rfl : e = e' := by simpa using he'
    exact hpos

/-- **Crash repair, exactly.** Take any written events and any bytes after their records, such as a
strict prefix of one more record. The repair leaves exactly the complete records and returns the
position of the last of them if and only if `RepairCondition` holds. -/
theorem truncateToLastComplete_repairs_iff (events : List CacheEvent) (complete : Bytes)
    (hwrite : writeEvents [] events = some complete) (torn : Bytes) :
    Repairs events complete (truncateToLastComplete (complete ++ torn)) ↔
      RepairCondition events complete torn := by
  rcases eq_nil_or_concat events with rfl | ⟨init, e, rfl⟩
  · obtain rfl : [] = complete := some.inj hwrite
    exact repairs_nil_iff _
  · rw [concat_eq_append] at *
    obtain ⟨before, last, hlast, rfl⟩ := writeEvents_concat hwrite
    exact repairs_concat_iff init e before last _ hlast

/-! ## Two files -/

/-- An event of transaction `gtid:7` with its position stored in it. -/
def sampleEvent (seqVal : Bytes) : CacheEvent :=
  setPosition
    { zero with sourceType := 1, txID := lit "gtid:7", eventSeq := 3, seqVal := seqVal }
    { Position.zero with
      commitTime := { unixSec := 1709171999, nsec := 0, offset := 0 }
      txID := lit "gtid:7"
      seqNo := 3 }

/-- A value of `seq_val` for which the two checksums agree. -/
def luckySeqVal : Bytes := lit "1010011011101000000000010011000100000010"

def recordOf : Bytes := (encodeRecord e.marshal).getD []

set_option maxRecDepth 100000 in
/-- A file whose one complete record has agreeing checksums, and five bytes more, is repaired. -/
theorem repairs_luckyRecord :
    Repairs [sampleEvent luckySeqVal] (recordOf (sampleEvent luckySeqVal))
      (truncateToLastComplete
        (recordOf (sampleEvent luckySeqVal) ++ (recordOf (sampleEvent [])).take 5)) := by
  refine (truncateToLastComplete_repairs_iff [sampleEvent luckySeqVal] _ (by decide)
    ((recordOf (sampleEvent [])).take 5)).mpr ⟨?_, ?_⟩
  · intro n hlt hle
    have hsize : (recordOf (sampleEvent luckySeqVal)).length = 228 ∧
        (recordOf (sampleEvent luckySeqVal) ++ (recordOf (sampleEvent [])).take 5).length =
          233 := by
      decide
    have hall : ∀ i : Fin 5, recordEndingAt (recordOf (sampleEvent luckySeqVal) ++
        (recordOf (sampleEvent [])).take 5) (229 + i) = none := by
      decide
    have := hall ⟨n - 229, by omega⟩
    rwa [show 229 + (n - 229) = n by omega] at this
  · rintro e he
    obtain rfl : sampleEvent luckySeqVal = e := by simpa using he
    refine ⟨by decide, by decide, ?_⟩
    refine ⟨(sampleEvent luckySeqVal).getPosition.getD Position.zero, ?_⟩
    decide

set_option maxRecDepth 100000 in
/-- A file with one complete record and nothing else: the repair empties it. -/
theorem not_forall_repairs :
    ¬ ∀ (events : List CacheEvent) (complete : Bytes), writeEvents [] events = some complete →
      ∀ (next : CacheEvent) (record : Bytes), encodeRecord next.marshal = some record →
      ∀ k < record.length,
        Repairs events complete (truncateToLastComplete (complete ++ record.take k)) := by
  intro h
  have hrepair := h [sampleEvent []] (recordOf (sampleEvent [])) (by decide)
    (sampleEvent []) (recordOf (sampleEvent [])) (by decide) 0 (by decide)
  have hresult : truncateToLastComplete (recordOf (sampleEvent []) ++
      (recordOf (sampleEvent [])).take 0) = (none, []) := by
    decide
  have hfile := hrepair.file
  exact absurd hfile (by decide)

end DataStream.Cache
