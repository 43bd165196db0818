import DataStream.Cache.Framing

/-!
# The decode command and the cache reader

`datastream-ctl binlog decode` reads a cache file with a decoder of its own, `readRecord`, and not
with `LocalBackend.Read`. Both are loops of rounds that take a payload out of its record and decode
it, so both are instances of one loop here.

The rounds differ in two places. A file that ends inside a length field is quietly at its end for
`Read`, which takes the leftover for a write that was cut off, while the command reports it. And the
command does not look whether a length is within `MaxRecordSize`.

* `decode_agrees`: where no record beyond the size limit is met, both find the same payloads.
-/

namespace DataStream.Cli

open Bytes Cache List

inductive DecodeError where
  /-- The file ends inside a length field (`io.ErrUnexpectedEOF`). -/
  | header
  | record (err : ReadError)
  deriving DecidableEq, Repr

def readRecord (s : Bytes) : Round DecodeError :=
  if s = [] then .eof
  else if s.length < 4 then .error .header
  else (readBody s).mapError .record

/-- What a loop of rounds has found when it stops. -/
structure Outcome (ε : Type) where
  /-- The payloads, in their order. The last one may be one that does not decode. -/
  payloads : List Bytes
  err : Option ε
  /-- The bytes of the file from the record on at which the loop stopped. -/
  left : Bytes
  deriving DecidableEq, Repr

/-- One more payload before the rest. -/
def Outcome.cons {ε : Type} (payload : Bytes) (o : Outcome ε) : Outcome ε :=
  { o with payloads := payload :: o.payloads }

section Loop

variable {ε : Type} (round : Bytes → Round ε) (decodes : Bytes → Bool) (undecodable : ε)

/-- Rounds until the first that takes no payload, or one that does not decode, within a bound. -/
def loopGo : ℕ → Bytes → Outcome ε
  | 0, s => ⟨[], none, s⟩
  | fuel + 1, s =>
    match round s with
    | .eof => ⟨[], none, s⟩
    | .error err => ⟨[], some err, s⟩
    | .payload payload rest =>
      if decodes payload then (loopGo fuel rest).cons payload
      else ⟨[payload], some undecodable, s⟩

/-- Rounds over a whole file. -/
def loop (file : Bytes) : Outcome ε := loopGo round decodes undecodable (file.length + 1) file

/-- Every payload takes bytes from the file. -/
def Shrinks : Prop := ∀ s payload rest, round s = .payload payload rest → rest.length < s.length

variable {round}

lemma Shrinks.loopGo_of_lt (h : Shrinks round) (s : Bytes) {fuel : ℕ} (hlt : s.length < fuel) :
    loopGo round decodes undecodable fuel s = loop round decodes undecodable s := by
  induction hn : s.length using Nat.strong_induction_on generalizing s fuel with
  | _ n ih =>
    obtain ⟨fuel, rfl⟩ : ∃ k, fuel = k + 1 := ⟨fuel - 1, by omega⟩
    rw [loop, loopGo, loopGo]
    rcases hround : round s with _ | err | ⟨payload, rest⟩
    · rfl
    · rfl
    · have hrest := h s payload rest hround
      dsimp only
      rw [ih rest.length (by omega) rest (by omega) rfl,
        ih rest.length (by omega) rest (by omega) rfl]

lemma Shrinks.loop_eq (h : Shrinks round) (s : Bytes) :
    loop round decodes undecodable s = match round s with
      | .eof => ⟨[], none, s⟩
      | .error err => ⟨[], some err, s⟩
      | .payload payload rest =>
        if decodes payload then (loop round decodes undecodable rest).cons payload
        else ⟨[payload], some undecodable, s⟩ := by
  rw [loop, loopGo]
  rcases hround : round s with _ | err | ⟨payload, rest⟩
  · rfl
  · rfl
  · dsimp only
    rw [h.loopGo_of_lt decodes undecodable rest (h s payload rest hround)]

end Loop

/-- The loop of `LocalBackend.Read` over a file, with the payloads that it decodes. -/
def read (decodes : Bytes → Bool) (file : Bytes) : Outcome ReadError :=
  loop readFrame decodes .unmarshal file

def decode (decodes : Bytes → Bool) (file : Bytes) : Outcome DecodeError :=
  loop readRecord decodes (.record .unmarshal) file

/-! ## The rounds -/

variable {s payload rest : Bytes}

lemma readRecord_eq_payload_iff :
    readRecord s = .payload payload rest ↔ ∃ a, Framed a payload ∧ s = a ++ rest := by
  rw [← readBody_eq_payload_iff, readRecord]
  have hbody : (readBody s).mapError DecodeError.record = .payload payload rest ↔
      readBody s = .payload payload rest := by
    rcases readBody s with _ | err | ⟨payload', rest'⟩ <;> simp [Round.mapError]
  split
  · next hnil => simp [hnil, readBody]
  split
  · next hshort => simp [readBody, show s.length < 8 by omega]
  · exact hbody

private lemma length_rest_lt (h : ∃ a, Framed a payload ∧ s = a ++ rest) :
    rest.length < s.length := by
  obtain ⟨a, ha, rfl⟩ := h
  rw [length_append, ha.length_eq]
  omega

lemma shrinks_readFrame : Shrinks readFrame := fun s payload rest h => by
  obtain ⟨a, ⟨ha, -⟩, hs⟩ := readFrame_eq_payload_iff.mp h
  exact length_rest_lt ⟨a, ha, hs⟩

lemma shrinks_readRecord : Shrinks readRecord := fun _ _ _ h =>
  length_rest_lt (readRecord_eq_payload_iff.mp h)

/-- `LocalBackend.Read` decodes what this loop finds, and ends with the same error. -/
theorem readAll_eq_read (file : Bytes) :
    readAll file =
      let o := read (fun payload => (CacheEvent.unmarshalCacheEvent payload).isSome) file
      ⟨o.payloads.filterMap CacheEvent.unmarshalCacheEvent, o.err⟩ := by
  induction hn : file.length using Nat.strong_induction_on generalizing file with
  | _ n ih =>
    rw [readAll_eq, readRecord_eq, read, shrinks_readFrame.loop_eq]
    rcases hround : readFrame file with _ | err | ⟨payload, rest⟩
    · rfl
    · rfl
    · have hrest := shrinks_readFrame _ _ _ hround
      rcases hdecode : CacheEvent.unmarshalCacheEvent payload with _ | ev
      · simp [hdecode]
      · simp only [hdecode, Option.isSome_some, if_true]
        rw [ih rest.length (by omega) rest rfl]
        simp [Outcome.cons, ReadResult.cons, hdecode, read]

/-! ## Agreement -/

/-- The bytes start with a record that is well formed but beyond the size limit. -/
def Oversized (s : Bytes) : Prop :=
  ∃ a payload rest, Framed a payload ∧ maxRecordSize < payload.length ∧ s = a ++ rest

/-- Where `Read` ends quietly, the command does so only if nothing is left over. -/
lemma decode_of_eof (decodes : Bytes → Bool) (h : readFrame s = .eof) :
    (decode decodes s).payloads = [] ∧ ((decode decodes s).err.isSome ↔ s ≠ []) := by
  have hshort := readFrame_eq_eof_iff.mp h
  rw [decode, shrinks_readRecord.loop_eq, readRecord]
  by_cases hnil : s = []
  · simp [hnil]
  · simp [hnil, hshort]

/-- Where `Read` stops with an error before a payload is taken, so does the command, unless `Read`
stops for the size of a record that is well formed otherwise. -/
lemma decode_of_error (decodes : Bytes → Bool) {err : ReadError} (h : readFrame s = .error err)
    (hsize : ¬Oversized s) :
    (decode decodes s).payloads = [] ∧ (decode decodes s).err.isSome := by
  have hlong : ¬s.length < 4 := fun hshort => by
    simp [readFrame_eq_eof_iff.mpr hshort] at h
  have hnil : s ≠ [] := fun hnil => hlong (by simp [hnil])
  rcases hbody : readBody s with _ | err' | ⟨payload, rest⟩
  · exact absurd hbody (readBody_ne_eof s)
  · rw [decode, shrinks_readRecord.loop_eq, readRecord, if_neg hnil, if_neg hlong, hbody]
    exact ⟨rfl, rfl⟩
  · -- The payload is one that `Read` refuses, so it is beyond the limit.
    obtain ⟨a, ha, rfl⟩ := readBody_eq_payload_iff.mp hbody
    refine absurd ⟨a, payload, rest, ha, ?_, rfl⟩ hsize
    by_contra hle
    have hframe : readFrame (a ++ rest) = .payload payload rest :=
      readFrame_eq_payload_iff.mpr ⟨a, ⟨ha, not_lt.mp hle⟩, rfl⟩
    simp [hframe] at h

/-- For every file in which `Read` does not stop at a record beyond the size limit, whichever
payloads decode, the command finds the same payloads; it ends with an error exactly when `Read` does
or the file ends inside a length field. -/
theorem decode_agrees (decodes : Bytes → Bool) (file : Bytes)
    (hsize : ¬Oversized (read decodes file).left) :
    (decode decodes file).payloads = (read decodes file).payloads ∧
      ((decode decodes file).err.isSome ↔
        (read decodes file).err.isSome ∨
          0 < (read decodes file).left.length ∧ (read decodes file).left.length < 4) := by
  -- By strong induction on the length, one round of both loops at a time.
  induction hn : file.length using Nat.strong_induction_on generalizing file with
  | _ n ih =>
    rw [read, shrinks_readFrame.loop_eq] at hsize ⊢
    rcases hround : readFrame file with _ | err | ⟨payload, rest⟩
    · obtain ⟨hpayloads, herr⟩ := decode_of_eof decodes hround
      have hshort := readFrame_eq_eof_iff.mp hround
      simp [hpayloads, herr, hshort, length_pos_iff]
    · rw [hround] at hsize
      obtain ⟨hpayloads, herr⟩ := decode_of_error decodes hround hsize
      simp [hpayloads, herr]
    · obtain ⟨a, ⟨ha, -⟩, hfile⟩ := readFrame_eq_payload_iff.mp hround
      have hrecord := readRecord_eq_payload_iff.mpr ⟨a, ha, hfile⟩
      have hrest := shrinks_readFrame _ _ _ hround
      rw [decode, shrinks_readRecord.loop_eq, hrecord]
      simp only [hround] at hsize ⊢
      by_cases hdecodes : decodes payload
      · simp only [hdecodes, if_true] at hsize ⊢
        obtain ⟨hpayloads, herr⟩ := ih rest.length (by omega) rest hsize rfl
        exact ⟨congrArg (payload :: ·) hpayloads, herr⟩
      · simp [hdecodes]

/-- A file with the record of an empty payload and one byte of a next length field. -/
def cutFile : Bytes := frame 0 (crc32 (putUint32 0)) [] ++ [7]

/-- Both find the payload of `cutFile`, and only the command reports the byte left over. -/
theorem decode_agrees_cutFile :
    (read (fun _ => true) cutFile).left = [7] ∧
      (decode (fun _ => true) cutFile).payloads = [[]] ∧
      (decode (fun _ => true) cutFile).err.isSome := by
  have hleft : (read (fun _ => true) cutFile).left = [7] := by decide
  have hsize : ¬Oversized (read (fun _ => true) cutFile).left := by
    rw [hleft]
    rintro ⟨a, payload, rest, ha, -, heq⟩
    have hlength := congrArg List.length heq
    rw [length_append, ha.length_eq, length_singleton] at hlength
    omega
  obtain ⟨hpayloads, herr⟩ := decode_agrees _ _ hsize
  refine ⟨hleft, ?_, ?_⟩
  · rw [hpayloads]
    decide
  · rw [herr, hleft]
    decide

/-- The command ends with an error on a file that `Read` finds to be at its end: one byte. -/
theorem not_forall_same_err :
    ¬∀ (decodes : Bytes → Bool) (file : Bytes),
      (decode decodes file).payloads = (read decodes file).payloads ∧
        ((decode decodes file).err.isSome ↔ (read decodes file).err.isSome) := by
  intro h
  have hone := (h (fun _ => true) [7]).2
  revert hone
  decide

end DataStream.Cli
