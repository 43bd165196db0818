import DataStream.Event.BinlogOrder
import DataStream.Source.TableLifecycle

/-!
# The global restart position

`ComputeGlobalMinPosition` takes, from each table, the position that its state counts, and of these
the one with the earliest commit time. By the design it is the recovery safety point of the whole
task: whatever a table has still to be read from must not be before it. That is a matter of the
order of the log, and the commit times of a log repeat: of two positions with the same commit time
the one that is listed first is returned, and the store lists the tables in no particular order. A
pending table counts for nothing, also when it was restarted at a position.

* `losesNothing_iff`: when the position that is returned loses nothing.
-/

namespace DataStream.Source

open Event List Option

variable (minPos : Option Position) (tl : TableLifecycle)

/-- `effectivePosition`: the position that a table counts, by its state. -/
def effectivePosition : Option Position :=
  match tl.state with
  | .pending => none
  | .snapshotting | .error => tl.snapshotPosition
  | .catchingUp | .streaming | .paused =>
    match tl.streamPosition with
    | some pos => some pos
    | none => tl.snapshotPosition
  | .unset => none

/-- The smaller of the minimum so far and the position of the next table. -/
def minPosition : Option Position :=
  match effectivePosition tl, minPos with
  | none, _ => minPos
  | some pos, none => some pos
  | some pos, some m => if pos.commitTime.before m.commitTime then some pos else some m

def computeGlobalMinPosition (tables : List TableLifecycle) : Option Position :=
  tables.foldl minPosition none

/-- `GetGlobalMinPosition`, given what the store lists; `none` is an error of the store. -/
def getGlobalMinPosition (listed : Option (List TableLifecycle)) : Option Position :=
  match listed with
  | none => none
  | some tables => computeGlobalMinPosition tables

/-! ## What a table needs -/

/-- The position that a table has still to be read from: its stream position, or its snapshot
position when it has none. -/
def requiredPosition : Option Position :=
  tl.streamPosition.or tl.snapshotPosition

/-- The place in the log of a position in a file that is named by the base. -/
def binlogPlace (base : Bytes) (p : Position) : ℕ ×ₗ ℕ :=
  logPlace (Bytes.natValue (p.binlogFile.drop (base.length + 1))) p.binlogPos

/-- The position that is returned loses nothing: it is at or before the position that any table has
still to be read from, it is at one of them, and it does not depend on the order in which the tables
are listed. -/
structure LosesNothing (base : Bytes) (tables : List TableLifecycle) : Prop where
  covers : ∀ tl ∈ tables, ∀ q ∈ requiredPosition tl,
    ∃ p ∈ getGlobalMinPosition (some tables), binlogPlace base p ≤ binlogPlace base q
  isRequired : ∀ p ∈ getGlobalMinPosition (some tables),
    ∃ tl ∈ tables, ∃ q ∈ requiredPosition tl, binlogPlace base q = binlogPlace base p
  independent : ∀ tables', tables'.Perm tables →
    (getGlobalMinPosition (some tables')).map (binlogPlace base) =
      (getGlobalMinPosition (some tables)).map (binlogPlace base)

/-- The position from which a log has to be read is counted, and everything counted elsewhere has a
later commit time. -/
structure EarliestByTime (base : Bytes) (tables : List TableLifecycle) (r : Position) : Prop where
  counted : ∃ tl ∈ tables, effectivePosition tl = some r
  required : ∃ tl ∈ tables, ∃ q ∈ requiredPosition tl, binlogPlace base q = binlogPlace base r
  earliest : ∀ tl ∈ tables, ∀ q ∈ requiredPosition tl, binlogPlace base r ≤ binlogPlace base q
  later : ∀ tl ∈ tables, ∀ p ∈ effectivePosition tl, binlogPlace base p ≠ binlogPlace base r →
    r.commitTime.before p.commitTime

/-! ## The first of the earliest -/

lemma before_trans {t u v : Time} (h : t.before u = true) (h' : u.before v = true) :
    t.before v = true := by
  simp only [Time.before, Bool.or_eq_true, Bool.and_eq_true, decide_eq_true_eq] at h h' ⊢
  omega

lemma before_or_before {t v : Time} (h : t.before v = true) (u : Time) :
    t.before u = true ∨ u.before v = true := by
  simp only [Time.before, Bool.or_eq_true, Bool.and_eq_true, decide_eq_true_eq] at h ⊢
  omega

lemma before_irrefl (t : Time) : t.before t = false := by
  simp [Time.before]

/-- The position that is returned is counted and has the earliest commit time; without one, nothing
is counted. -/
def IsFirst (tables : List TableLifecycle) : Option Position → Prop
  | none => ∀ tl ∈ tables, effectivePosition tl = none
  | some p => (∃ tl ∈ tables, effectivePosition tl = some p) ∧
      ∀ tl ∈ tables, ∀ q ∈ effectivePosition tl, q.commitTime.before p.commitTime = false

variable {tables : List TableLifecycle}

lemma IsFirst.minPosition {minPos : Option Position}
    (h : IsFirst tables minPos) (tl : TableLifecycle) :
    IsFirst (tables ++ [tl]) (minPosition minPos tl) := by
  unfold Source.minPosition
  rcases hpos : effectivePosition tl with _ | pos
  · -- The table counts for nothing.
    rcases minPos with _ | m
    · exact forall_mem_append.mpr ⟨h, by simpa using hpos⟩
    · obtain ⟨⟨tl', htl', hm⟩, hfirst⟩ := h
      refine ⟨⟨tl', mem_append_left _ htl', hm⟩, forall_mem_append.mpr ⟨hfirst, ?_⟩⟩
      simp [hpos]
  have hcounted : ∃ tl' ∈ tables ++ [tl], effectivePosition tl' = some pos := ⟨tl, by simp, hpos⟩
  rcases minPos with _ | m
  · refine ⟨hcounted, forall_mem_append.mpr ⟨fun tl' htl' q hq => ?_, ?_⟩⟩
    · rw [h tl' htl'] at hq
      simp at hq
    · simp [hpos, before_irrefl]
  · obtain ⟨⟨tl', htl', hm⟩, hfirst⟩ := h
    dsimp only
    split
    · -- The new position is earlier than the minimum, so than everything before it.
      next hbefore =>
        refine ⟨hcounted, forall_mem_append.mpr ⟨fun tl' htl' q hq => ?_, ?_⟩⟩
        · by_contra hnot
          rw [Bool.not_eq_false] at hnot
          have hearlier := before_trans hnot hbefore
          rw [hfirst tl' htl' q hq] at hearlier
          simp at hearlier
        · simp [hpos, before_irrefl]
    · next hkeep =>
      refine ⟨⟨tl', mem_append_left _ htl', hm⟩, forall_mem_append.mpr ⟨hfirst, ?_⟩⟩
      simpa [hpos] using hkeep

theorem computeGlobalMinPosition_spec (tables : List TableLifecycle) :
    IsFirst tables (computeGlobalMinPosition tables) := by
  induction tables using List.reverseRecOn with
  | nil => exact forall_mem_nil _
  | append_singleton tables tl ih =>
    rw [computeGlobalMinPosition, foldl_append]
    exact ih.minPosition tl

variable {p r : Position} {base : Bytes}

/-- A position stays the minimum while nothing earlier is counted. -/
lemma foldl_minPosition_eq
    (h : ∀ tl ∈ tables, ∀ q ∈ effectivePosition tl, q.commitTime.before p.commitTime = false) :
    tables.foldl minPosition (some p) = some p := by
  induction tables with
  | nil => rfl
  | cons tl tables ih =>
    obtain ⟨htl, htables⟩ := forall_mem_cons.mp h
    have hstep : minPosition (some p) tl = some p := by
      unfold Source.minPosition
      rcases hpos : effectivePosition tl with _ | pos
      · rfl
      · simp [htl pos hpos]
    rw [foldl_cons, hstep, ih htables]

/-- Of the counted positions with the earliest commit time, the one that is listed first is
returned: each of them is for some order of the tables. -/
lemma exists_perm_of_isFirst (h : IsFirst tables (some p)) :
    ∃ tables', tables'.Perm tables ∧ computeGlobalMinPosition tables' = some p := by
  obtain ⟨⟨tl, htl, hp⟩, hfirst⟩ := h
  refine ⟨tl :: tables.erase tl, (perm_cons_erase htl).symm, ?_⟩
  have hstart : minPosition none tl = some p := by
    unfold Source.minPosition
    rw [hp]
  rw [computeGlobalMinPosition, foldl_cons, hstart]
  exact foldl_minPosition_eq fun tl' htl' => hfirst tl' (mem_of_mem_erase htl')

/-! ## When nothing is lost -/

lemma exists_required_of_effective {tl : TableLifecycle} (h : effectivePosition tl = some p) :
    ∃ q, requiredPosition tl = some q := by
  rw [← isSome_iff_exists, requiredPosition, isSome_or]
  unfold effectivePosition at h
  repeat' split at h
  all_goals simp_all

/-- The order of the tables does not change what is counted and what is required. -/
lemma EarliestByTime.perm {tables' : List TableLifecycle} (h : EarliestByTime base tables r)
    (hperm : tables'.Perm tables) : EarliestByTime base tables' r := by
  have hmem : ∀ tl, tl ∈ tables' ↔ tl ∈ tables := fun tl => hperm.mem_iff
  constructor
  · simpa only [hmem] using h.counted
  · simpa only [hmem] using h.required
  · simpa only [hmem] using h.earliest
  · simpa only [hmem] using h.later

/-- Under the condition the position returned is at the earliest place, in whatever order of the
tables. -/
lemma EarliestByTime.place_eq (h : EarliestByTime base tables r) :
    ∃ p, computeGlobalMinPosition tables = some p ∧ binlogPlace base p = binlogPlace base r := by
  have hspec := computeGlobalMinPosition_spec tables
  obtain ⟨tl, htl, hr⟩ := h.counted
  rcases hmin : computeGlobalMinPosition tables with _ | p
  · rw [hmin] at hspec
    exact absurd (hr.symm.trans (hspec tl htl)) (some_ne_none r)
  · rw [hmin] at hspec
    obtain ⟨⟨tl', htl', hp⟩, hfirst⟩ := hspec
    refine ⟨p, rfl, ?_⟩
    by_contra hne
    have hlater := h.later tl' htl' p hp hne
    rw [hfirst tl htl r hr] at hlater
    simp at hlater

/-- What is returned for some order of the tables has the earliest place for every order. -/
lemma LosesNothing.earliestByTime (h : LosesNothing base tables)
    (hr : computeGlobalMinPosition tables = some r) : EarliestByTime base tables r := by
  have hspec := computeGlobalMinPosition_spec tables
  rw [hr] at hspec
  refine ⟨hspec.1, h.isRequired r hr, fun tl htl q hq => ?_, fun tl htl p hp hne => ?_⟩
  · obtain ⟨p, hp, hle⟩ := h.covers tl htl q hq
    obtain rfl : r = p := some.inj (hr.symm.trans hp)
    exact hle
  · -- A counted position elsewhere with the same commit time would be returned for another order.
    by_contra hnot
    have hfirst : IsFirst tables (some p) := by
      refine ⟨⟨tl, htl, hp⟩, fun tl' htl' q hq => ?_⟩
      by_contra hearlier
      rw [Bool.not_eq_false] at hearlier
      rcases before_or_before hearlier r.commitTime with hbefore | hbefore
      · simp [hspec.2 tl' htl' q hq] at hbefore
      · simp [hnot] at hbefore
    obtain ⟨tables', hperm, hp'⟩ := exists_perm_of_isFirst hfirst
    have hsame := h.independent tables' hperm
    rw [getGlobalMinPosition, getGlobalMinPosition, hp', hr, map_some, map_some,
      some.injEq] at hsame
    exact hne hsame

/-- **The safety point.** For every list of tables whose binary log files are named by a base, the
position that `GetGlobalMinPosition` returns loses nothing exactly if no table has still to be read,
or the earliest position to read from is counted and everything counted elsewhere in the log has a
later commit time. -/
theorem losesNothing_iff (base : Bytes) (tables : List TableLifecycle) :
    LosesNothing base tables ↔
      (∀ tl ∈ tables, requiredPosition tl = none) ∨ ∃ r, EarliestByTime base tables r := by
  constructor
  · intro h
    rcases hmin : computeGlobalMinPosition tables with _ | r
    · left
      intro tl htl
      by_contra hsome
      obtain ⟨q, hq⟩ := ne_none_iff_exists'.mp hsome
      obtain ⟨p, hp, -⟩ := h.covers tl htl q hq
      exact absurd (hp.symm.trans hmin) (some_ne_none p)
    · exact .inr ⟨r, h.earliestByTime hmin⟩
  · rintro (hnone | ⟨r, hr⟩)
    · -- Nothing is required, so nothing is counted, in any order.
      have hempty : ∀ tables', tables'.Perm tables → computeGlobalMinPosition tables' = none := by
        intro tables' hperm
        have hspec := computeGlobalMinPosition_spec tables'
        rcases hmin : computeGlobalMinPosition tables' with _ | p
        · rfl
        · rw [hmin] at hspec
          obtain ⟨tl, htl, hp⟩ := hspec.1
          obtain ⟨q, hq⟩ := exists_required_of_effective hp
          rw [hnone tl (hperm.mem_iff.mp htl)] at hq
          simp at hq
      have hself := hempty tables (List.Perm.refl tables)
      refine ⟨fun tl htl q hq => ?_, fun p hp => ?_, fun tables' hperm => ?_⟩
      · rw [hnone tl htl] at hq
        simp at hq
      · rw [getGlobalMinPosition, hself] at hp
        simp at hp
      · rw [getGlobalMinPosition, getGlobalMinPosition, hself, hempty tables' hperm]
    · obtain ⟨p, hp, hplace⟩ := hr.place_eq
      refine ⟨fun tl htl q hq => ⟨p, hp, ?_⟩, fun p' hp' => ?_, fun tables' hperm => ?_⟩
      · rw [hplace]
        exact hr.earliest tl htl q hq
      · obtain rfl : p = p' := some.inj (hp.symm.trans hp')
        rw [hplace]
        exact hr.required
      · obtain ⟨p', hp', hplace'⟩ := (hr.perm hperm).place_eq
        rw [getGlobalMinPosition, getGlobalMinPosition, hp, hp', map_some, map_some,
          hplace, hplace']

/-- A streaming table at an offset of the first file, with the commit time of the zero position. -/
def streamingAt (offset : UInt32) : TableLifecycle :=
  { TableLifecycle.new with
    state := .streaming
    streamPosition := some (Position.zero.inFile (lit "mysql-bin") 1 offset) }

/-- Of two streaming tables whose last transactions were committed at the same time, the later one
in the log is listed first and its position is returned. -/
theorem not_forall_losesNothing :
    ¬∀ (base : Bytes) (tables : List TableLifecycle), LosesNothing base tables := by
  intro h
  obtain ⟨p, hp, hle⟩ := (h (lit "mysql-bin") [streamingAt 200, streamingAt 100]).covers
    (streamingAt 100) (by simp) (Position.zero.inFile (lit "mysql-bin") 1 100) rfl
  obtain rfl : Position.zero.inFile (lit "mysql-bin") 1 200 = p := some.inj hp
  revert hle
  decide

end DataStream.Source
