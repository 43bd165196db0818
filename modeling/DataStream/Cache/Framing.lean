import DataStream.Cache.Reader
import DataStream.Foundations.Frames

/-!
# What the reader accepts

A cache file can hold any bytes: records can be cut, damaged or foreign. A round of the reader takes
an event exactly from a well-formed record, so the rounds find the longest sequence of them.

* `readFile_longest`: what is read of a file, and when an error is reported.
-/

namespace DataStream.Cache

open Bytes

variable {s : Bytes}

/-! ## The longest sequence of records -/

def nextEvent (s : Bytes) : Option (CacheEvent × Bytes) :=
  match readRecord s with
  | .event ev rest => some (ev, rest)
  | _ => none

lemma isNext_nextEvent : Frames.IsNext WellFormed nextEvent := by
  intro s ev rest
  rw [← readRecord_eq_event_iff, nextEvent]
  split
  · next ev' rest' hrecord => simp [hrecord]
  · next hother => exact ⟨fun h => by simp at h, fun h => absurd h (hother ev rest)⟩

/-- A round without an event ends the reading, with an error exactly if four bytes are left. -/
lemma readAll_of_nextEvent_eq_none (h : nextEvent s = none) :
    (readAll s).events = [] ∧ ((readAll s).err.isSome ↔ 4 ≤ s.length) := by
  rw [readAll_eq]
  rcases hrecord : readRecord s with _ | err | ⟨ev, rest⟩
  · have hshort := readRecord_eq_eof_iff.mp hrecord
    simp [hshort]
  · have hlong : ¬s.length < 4 := fun hshort => by
      simp [readRecord_eq_eof_iff.mpr hshort] at hrecord
    simp [not_lt.mp hlong]
  · simp [nextEvent, hrecord] at h

lemma readAll_longest (s : Bytes) :
    ∃ frames rest, Frames.Longest WellFormed s frames rest ∧
      (readAll s).events = frames.map Prod.snd ∧ ((readAll s).err.isSome ↔ 4 ≤ rest.length) := by
  -- By strong induction on the length: a record leaves a shorter file.
  induction hn : s.length using Nat.strong_induction_on generalizing s with
  | _ n ih =>
    rcases hnext : nextEvent s with _ | ⟨ev, rest⟩
    · exact ⟨[], s, isNext_nextEvent.longest_nil hnext, readAll_of_nextEvent_eq_none hnext⟩
    · obtain ⟨a, ha, rfl⟩ := (isNext_nextEvent s ev rest).mp hnext
      have hrecord : readRecord (a ++ rest) = .event ev rest :=
        readRecord_eq_event_iff.mpr ⟨a, ha, rfl⟩
      have hlength := length_of_readRecord hrecord
      rw [recordOverhead] at hlength
      obtain ⟨frames, left, hlongest, hevents, herr⟩ := ih rest.length (by omega) rest rfl
      refine ⟨(a, ev) :: frames, left, isNext_nextEvent.longest_cons ha hlongest, ?_⟩
      rw [readAll_eq, hrecord]
      exact ⟨congrArg (ev :: ·) hevents, herr⟩

/-- For every content of a cache file, `Read("", 0)` delivers exactly the longest sequence of
well-formed records from the start, with an error exactly when at least four bytes follow it. -/
theorem readFile_longest (file : Bytes) :
    ∃ frames rest, Frames.Longest WellFormed file frames rest ∧
      (readFile (some file) [] 0).events = frames.map Prod.snd ∧
      ((readFile (some file) [] 0).err.isSome ↔ 4 ≤ rest.length) := by
  exact readAll_longest file

end DataStream.Cache
