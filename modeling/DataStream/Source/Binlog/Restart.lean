import DataStream.Source.Binlog.Syncer
import Mathlib.Data.Prod.Lex

/-!
# Restarting a binlog syncer

The places of a binlog are its files, in the order in which the server writes them, and the
positions in each file. A restart at a position of a file resumes with the first event that starts
at or after it. A restart without a file name resumes at the first file, which is how the server
treats an empty name.

* `Config.tracks`: a handler deals with all changes of its event, and sets only positions before
  every later event.
-/

namespace DataStream.Source.Binlog

open Event Delivery List

/-- The order of the binlog files: each has a number, and the empty name comes first. -/
structure FileOrder where
  index : Bytes → ℕ
  index_nil : index [] = 0

namespace FileOrder

variable (o : FileOrder)

/-- The place of a position. -/
def place (p : Position) : ℕ ×ₗ ℕ := toLex (o.index p.binlogFile, p.binlogPos.toNat)

/-- The place of a change: where its event starts. -/
def changePlace (x : Change) : ℕ ×ₗ ℕ := toLex (o.index x.file, x.startPos)

/-- The place at which an event ends. -/
def endPlace (a : Arrival) : ℕ ×ₗ ℕ := toLex (o.index a.file, a.header.logPos.toNat)

/-- The events of a binlog follow one another: none starts before an earlier one ends. -/
def Consecutive (log : List Arrival) : Prop :=
  log.Pairwise fun a b => o.endPlace a ≤ toLex (o.index b.file, b.startPos)

lemma place_zero_le (bound : ℕ ×ₗ ℕ) : o.place .zero ≤ bound := by
  have hzero : o.place .zero = toLex (0, 0) := by
    simp [place, Position.zero, o.index_nil]
  rw [hzero, Prod.Lex.le_iff]
  rcases Nat.eq_zero_or_pos (ofLex bound).1 with h | h
  · exact .inr ⟨h.symm, Nat.zero_le _⟩
  · exact .inl h

end FileOrder

/-- The events come from the file that the rotations announce. -/
def FollowsFile : Bytes → List Arrival → Prop
  | _, [] => True
  | file, a :: log =>
    match a.body with
    | .rotate nextLogName => FollowsFile nextLogName log
    | _ => a.file = file ∧ FollowsFile file log

/-- A binlog as the server sends it to a syncer. -/
def IsBinlog (o : FileOrder) (s : Syncer) (log : List Arrival) : Prop :=
  FollowsFile s.currentFile log ∧ o.Consecutive log

namespace Config

variable (cfg : Config) {s : Syncer} {a : Arrival} {log : List Arrival}

/-- Every action of a program sets or saves the position at the end of the event, or only changes
its transaction. -/
def KeepsTo (s : Syncer) (a : Arrival) : Action Position Change ChangeEvent → Prop
  | .setMark f => (∃ reading, ∀ m, f m = cfg.positionAfter s a.header reading) ∨
      ∃ txID, ∀ m : Option Position, f m = { m.getD .zero with txID := txID }
  | .save p => ∃ reading, p = cfg.positionAfter s a.header reading
  | .send _ _ | .skip _ => True

lemma keepsTo_deliver {ev : ChangeEvent} {i : ℕ} {reading : Time}
    (h : ev.position = cfg.positionAfter s a.header reading) :
    ∀ x ∈ deliver a ev i, cfg.KeepsTo s a x := by
  intro x hx
  rw [deliver, mem_pair] at hx
  rcases hx with rfl | rfl
  · exact .inl ⟨reading, fun _ => h⟩
  · trivial

lemma keepsTo_saveCurrentPosition {p : Position} {reading : Time}
    (h : p = cfg.positionAfter s a.header reading) :
    ∀ x ∈ cfg.saveCurrentPosition p, cfg.KeepsTo s a x := by
  intro x hx
  rw [saveCurrentPosition] at hx
  split at hx
  · rw [mem_singleton] at hx
    subst hx
    exact ⟨reading, h⟩
  · cases hx

lemma position_of_mem_buildChangeEvents {eventType : EventType} {info : TableInfo}
    {rows : List Row} {ev : ChangeEvent}
    (h : ev ∈ cfg.buildChangeEvents s a eventType info rows) :
    ∃ reading, ev.position = cfg.positionAfter s a.header reading := by
  simp only [buildChangeEvents, List.mem_map] at h
  obtain ⟨⟨⟨before, after⟩, i⟩, -, rfl⟩ := h
  exact ⟨_, rfl⟩

lemma keepsTo_handleQueryEvent (database query : Bytes) :
    ∀ x ∈ (cfg.handleQueryEvent s a database query).2, cfg.KeepsTo s a x := by
  intro x hx
  rw [handleQueryEvent] at hx
  split at hx
  · cases hx
  · rcases mem_append.mp hx with hx | hx
    · exact cfg.keepsTo_deliver rfl x hx
    · exact cfg.keepsTo_saveCurrentPosition rfl x hx

lemma keepsTo_handleRowsEvent (database table : Bytes) (rows : List Row) :
    ∀ x ∈ cfg.handleRowsEvent s a database table rows, cfg.KeepsTo s a x := by
  intro x hx
  simp only [handleRowsEvent] at hx
  split at hx
  · cases hx
  split at hx
  · obtain ⟨i, -, rfl⟩ := List.mem_map.mp hx
    trivial
  rcases mem_append.mp hx with hx | hx
  · obtain ⟨⟨ev, i⟩, hev, hx⟩ := mem_flatMap.mp hx
    obtain ⟨reading, hp⟩ := cfg.position_of_mem_buildChangeEvents (fst_mem_of_mem_zipIdx hev)
    exact cfg.keepsTo_deliver hp x hx
  · -- The saved position is that of the last event built.
    rcases hlast : (cfg.buildChangeEvents s a _ _ rows).getLast? with _ | last
    · rw [hlast] at hx
      cases hx
    · rw [hlast] at hx
      obtain ⟨reading, hp⟩ := cfg.position_of_mem_buildChangeEvents (mem_of_getLast? hlast)
      exact cfg.keepsTo_saveCurrentPosition hp x hx

lemma keepsTo_handleGTIDEvent (body : Body) :
    ∀ x ∈ cfg.handleGTIDEvent body, cfg.KeepsTo s a x := by
  intro x hx
  rw [handleGTIDEvent] at hx
  split at hx
  · cases hx
  · rename_i txID _
    obtain rfl := mem_singleton.mp hx
    exact .inr ⟨txID, fun _ => rfl⟩

lemma keepsTo_processEvent (s : Syncer) (a : Arrival) :
    ∀ x ∈ (cfg.processEvent s a).2, cfg.KeepsTo s a x := by
  rw [processEvent]
  cases a.body with
  | rotate nextLogName => simp
  | query schema query => exact cfg.keepsTo_handleQueryEvent schema query
  | rows schema table rows => exact cfg.keepsTo_handleRowsEvent schema table rows
  | xid =>
    intro x hx
    obtain rfl := mem_singleton.mp hx
    exact .inl ⟨_, fun _ => rfl⟩
  | gtid sid gno => exact cfg.keepsTo_handleGTIDEvent _
  | mariadbGTID domainID serverID sequenceNumber => exact cfg.keepsTo_handleGTIDEvent _
  | other => simp

variable (o : FileOrder)

/-- What is set and saved for an event lies at or before every event after it. -/
lemma below_of_keepsTo {x : Action Position Change ChangeEvent} {bound : ℕ ×ₗ ℕ}
    (hfile : a.file = s.currentFile) (hbound : o.endPlace a ≤ bound) (h : cfg.KeepsTo s a x) :
    x.Below o.place bound := by
  have hafter : ∀ reading, o.place (cfg.positionAfter s a.header reading) ≤ bound := by
    intro reading
    -- The event comes from the file that the syncer takes to be the current one.
    refine le_trans (le_of_eq ?_) hbound
    simp [FileOrder.place, FileOrder.endPlace, positionAfter, hfile]
  cases x with
  | setMark f =>
    intro m hm
    rcases h with ⟨reading, hf⟩ | ⟨txID, hf⟩
    · rw [hf]
      exact hafter reading
    · -- Writing a transaction does not move the position.
      rw [hf]
      cases m with
      | none => exact o.place_zero_le bound
      | some q => exact hm q rfl
  | save p =>
    obtain ⟨reading, rfl⟩ := h
    exact hafter reading
  | send y v => trivial
  | skip y => trivial

/-! ## The changes of an event -/

variable {x : Change}

lemma mem_items_of_mem {program : List (Action Position Change ChangeEvent)}
    {y : Action Position Change ChangeEvent} (hy : y ∈ program) (hx : y.item? = some x) :
    x ∈ items program :=
  mem_filterMap.mpr ⟨y, hy, hx⟩

lemma mem_items_handleQueryEvent {database query : Bytes} (hddl : isDDL query = true) :
    a.change 0 ∈ items (cfg.handleQueryEvent s a database query).2 := by
  refine mem_items_of_mem (y := .send _ (cfg.ddlEvent s a database query)) ?_ rfl
  simp [handleQueryEvent, hddl, deliver]

lemma mem_items_handleRowsEvent {database table : Bytes} {rows : List Row} {i : ℕ}
    (hcapture : cfg.shouldCapture database table = true)
    (hi : i < (rowsEventType a.header.eventType).elim rows.length
      fun eventType => (splitRows eventType rows).length) :
    a.change i ∈ items (cfg.handleRowsEvent s a database table rows) := by
  simp only [handleRowsEvent, hcapture]
  cases htype : rowsEventType a.header.eventType with
  | none =>
    -- The rows of a type that is not handled are left out one by one.
    rw [htype] at hi
    refine mem_items_of_mem (y := .skip (a.change i)) ?_ rfl
    simpa using ⟨i, hi, rfl⟩
  | some eventType =>
    rw [htype] at hi
    let events := cfg.buildChangeEvents s a eventType (tableSchema s a database table) rows
    have hlength : i < events.length := by simpa [events, buildChangeEvents] using hi
    refine mem_items_of_mem (y := .send (a.change i) events[i]) ?_ rfl
    refine mem_append_left _ (mem_flatMap.mpr ⟨(events[i], i), ?_, ?_⟩)
    · rw [mem_zipIdx_iff_getElem?, getElem?_eq_getElem hlength]
    · simp [deliver]

lemma mem_items_processEvent (s : Syncer) (h : x ∈ cfg.changes a) :
    x ∈ items (cfg.processEvent s a).2 := by
  rw [changes] at h
  rw [processEvent]
  cases hbody : a.body with
  | query schema query =>
    simp only [hbody] at h
    split at h
    · rename_i hddl
      obtain rfl := mem_singleton.mp h
      exact cfg.mem_items_handleQueryEvent hddl
    · cases h
  | rows schema table rows =>
    simp only [hbody] at h
    split at h
    · rename_i hcapture
      obtain ⟨i, hi, rfl⟩ := List.mem_map.mp h
      exact cfg.mem_items_handleRowsEvent hcapture (mem_range.mp hi)
    · cases h
  | rotate | xid | gtid | mariadbGTID | other => simp [hbody] at h

lemma changePlace_of_mem_changes (h : x ∈ cfg.changes a) :
    o.changePlace x = toLex (o.index a.file, a.startPos) := by
  have hx : ∃ i, x = a.change i := by
    rw [changes] at h
    split at h
    · split at h
      · exact ⟨0, mem_singleton.mp h⟩
      · cases h
    · split at h
      · obtain ⟨i, -, rfl⟩ := List.mem_map.mp h
        exact ⟨i, rfl⟩
      · cases h
    · cases h
  obtain ⟨i, rfl⟩ := hx
  rfl

/-! ## Every event of a binlog -/

lemma followsFile_processEvent (h : FollowsFile s.currentFile (a :: log)) :
    FollowsFile (cfg.processEvent s a).1.currentFile log := by
  rw [FollowsFile] at h
  rw [processEvent]
  cases hbody : a.body with
  | rotate nextLogName =>
    simp only [hbody] at h
    exact h
  | query schema query =>
    simp only [hbody] at h
    simp only [handleQueryEvent]
    split <;> exact h.2
  | rows | xid | gtid | mariadbGTID | other =>
    simp only [hbody] at h
    exact h.2

/-- For every event of a binlog, a handler deals with all of its changes, and sets and saves only
positions before every later event. -/
theorem tracks : Tracks o.place o.changePlace cfg.processEvent cfg.changes (IsBinlog o) where
  next := by
    rintro s a log ⟨hfile, horder⟩
    exact ⟨cfg.followsFile_processEvent hfile, horder.of_cons⟩
  items := by
    intro s a log _ x hx
    exact cfg.mem_items_processEvent s hx
  below := by
    rintro s a log ⟨hfile, horder⟩ b hb x hx y hy
    rw [cfg.changePlace_of_mem_changes o hx]
    have hle := rel_of_pairwise_cons horder hb
    rw [FollowsFile] at hfile
    cases hbody : a.body with
    | rotate nextLogName => simp [processEvent, hbody] at hy
    | query | rows | xid | gtid | mariadbGTID | other =>
      simp only [hbody] at hfile
      exact cfg.below_of_keepsTo o hfile.1 hle (cfg.keepsTo_processEvent s a y hy)

end Config

end DataStream.Source.Binlog
