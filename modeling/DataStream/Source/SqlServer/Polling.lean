import DataStream.Foundations.Machine
import DataStream.Foundations.Watermark
import DataStream.Source.SqlServer.CDCReader

/-!
# Polling SQL Server change tables

`pollAll` of `sqlserver.Connector` reads every capture instance once. The readers move on
separately, each to the increment of the maximum it saw, but only one position is saved: the
largest maximum of the poll. After a restart every reader starts at the saved position.

The machine takes the reads of a poll one at a time, since every reader asks for the maximum
itself and Go iterates over the readers in any order; a restart may come between any two steps.

* `emitted_of_polled`: in every run that skips nothing, every row that a reader has passed was
  emitted.
-/

namespace DataStream.Source.SqlServer

open Event List Function

structure Connector where
  /-- The position of the reader of each capture instance. -/
  readers : Bytes → Option Bytes
  /-- `latestLSN`: the largest maximum of the poll so far. -/
  latestLSN : Bytes
  /-- The saved position: `ChangeLsn` of the connector. -/
  position : Option Bytes
  /-- What has been put on the events channel, with the capture instance it came from. -/
  events : List (Bytes × ChangeEvent)

def Connector.fresh : Connector :=
  { readers := fun _ => none, latestLSN := [], position := none, events := [] }

/-- What a reader is told in one poll. -/
structure Answer where
  /-- `sys.fn_cdc_get_max_lsn`. -/
  maxLSN : LSN
  now : Time
  /-- The definition with which `enrichDMLTableInfo` replaces the table of the events. -/
  tableInfo : Option TableInfo

inductive Input where
  /-- A reader is polled; without an answer one of its queries fails. -/
  | read (captureInstance : Bytes) (answer : Option Answer)
  | save
  | restart

/-- A reader has succeeded at a maximum. -/
structure Polled where
  captureInstance : Bytes
  maxLSN : LSN

/-- The inputs of one `pollAll` call, for the readers in the order in which they come. -/
def pollAll (answers : List (Bytes × Option Answer)) : List Input :=
  answers.map (fun (captureInstance, answer) => .read captureInstance answer) ++ [.save]

def enrichDMLTableInfo (tableInfo : Option TableInfo) (ev : ChangeEvent) : ChangeEvent :=
  match tableInfo with
  | some info => { ev with table := info }
  | none => ev

namespace Connector

variable (db : Database)

variable (c : Connector) (captureInstance : Bytes)

def read (answer : Answer) : Connector × List Polled :=
  match readChanges db captureInstance answer.now (c.readers captureInstance) answer.maxLSN with
  -- An error is reported, and the reader keeps its position for the next poll.
  | none => (c, [])
  | some (changes, lastLSN) =>
    let events := changes.map fun ev => (captureInstance, enrichDMLTableInfo answer.tableInfo ev)
    ({ c with
        events := c.events ++ events
        readers := update c.readers captureInstance (some (incrementLSN lastLSN))
        -- The texts are compared byte by byte.
        latestLSN := if c.latestLSN = [] ∨ c.latestLSN < lastLSN then lastLSN else c.latestLSN },
      [⟨captureInstance, answer.maxLSN⟩])

/-- The end of `pollAll`: save the position, if any reader succeeded. -/
def save : Connector :=
  if c.latestLSN = [] then c
  else { c with position := some c.latestLSN, latestLSN := [] }

/-- `initCDCReaders` after a restart: every reader starts at the saved position. -/
def restart : Connector := { c with readers := fun _ => c.position, latestLSN := [] }

def machine : Machine Connector Input Polled where
  step c
    | .read captureInstance (some answer) => c.read db captureInstance answer
    | .read _ none => (c, [])
    | .save => (c.save, [])
    | .restart => (c.restart, [])

def windowStart : ℕ := textValue (fromLSN db captureInstance (c.readers captureInstance))

/-- The change rows of a capture instance from its minimum on. -/
def changes : Set CDCRow :=
  { row | row ∈ db.rows captureInstance ∧ row.IsChange ∧
    (db.minLSN captureInstance).value ≤ row.lsn.value }

/-- The rows of a capture instance whose event has been put on the channel. -/
def emitted : Set CDCRow := { row | ∃ ev, (captureInstance, ev) ∈ c.events ∧ row.DescribedBy ev }

/-- A step skips no row: a window whose ends are equal has nothing left to emit, and a restart
does not move a reader over rows that it has not emitted. -/
def SkipsNothing : Input → Prop
  | .read captureInstance (some answer) =>
    fromLSN db captureInstance (c.readers captureInstance) = answer.maxLSN.hex →
      ∀ row ∈ changes db captureInstance, row.lsn = answer.maxLSN → row ∈ c.emitted captureInstance
  | .restart =>
    ∀ captureInstance, ∀ row ∈ changes db captureInstance,
      c.windowStart db captureInstance ≤ row.lsn.value →
      row.lsn.value < c.restart.windowStart db captureInstance →
      row ∈ c.emitted captureInstance
  | _ => True

/-- Every row before the next window of its reader, or up to a maximum at which it succeeded, has
been emitted. -/
structure Complete (c : Connector) (polls : List Polled) : Prop where
  behind : ∀ captureInstance, ∀ row ∈ changes db captureInstance,
    row.lsn.value < c.windowStart db captureInstance → row ∈ c.emitted captureInstance
  polled : ∀ poll ∈ polls,
    Covered (fun row : CDCRow => row.lsn.value) (changes db poll.captureInstance)
      (c.emitted poll.captureInstance) poll.maxLSN.value

variable {db} {c : Connector} {polls : List Polled} {captureInstance : Bytes}

lemma emitted_mono {c' : Connector} (h : ∀ e ∈ c.events, e ∈ c'.events)
    (captureInstance : Bytes) : c.emitted captureInstance ⊆ c'.emitted captureInstance := by
  rintro row ⟨ev, hmem, hdescribed⟩
  exact ⟨ev, h _ hmem, hdescribed⟩

lemma describedBy_enrich {row : CDCRow} {ev : ChangeEvent} (h : row.DescribedBy ev)
    (tableInfo : Option TableInfo) : row.DescribedBy (enrichDMLTableInfo tableInfo ev) := by
  cases tableInfo <;> exact h

lemma emitted_subset_read (db : Database) (c : Connector) (captureInstance : Bytes)
    (answer : Answer) (other : Bytes) :
    c.emitted other ⊆ (c.read db captureInstance answer).1.emitted other := by
  refine emitted_mono (fun e he => ?_) _
  unfold read
  split
  · exact he
  · exact mem_append_left _ he

lemma complete_fresh : Complete db Connector.fresh [] where
  behind := by
    rintro captureInstance row ⟨-, -, hmin⟩ hlt
    rw [windowStart, fresh, fromLSN, textValue_hex] at hlt
    exact absurd hmin (not_le.mpr hlt)
  polled := by simp

lemma covered_read (hc : Complete db c polls) {answer : Answer} {changed : List ChangeEvent}
    {lastLSN : Bytes} (hskip : SkipsNothing db c (.read captureInstance (some answer)))
    (hread : readChanges db captureInstance answer.now (c.readers captureInstance) answer.maxLSN =
      some (changed, lastLSN)) :
    Covered (fun row : CDCRow => row.lsn.value) (changes db captureInstance)
      ((c.read db captureInstance answer).1.emitted captureInstance) answer.maxLSN.value := by
  have hevents : (c.read db captureInstance answer).1.events = c.events ++ changed.map fun ev =>
      (captureInstance, enrichDMLTableInfo answer.tableInfo ev) := by
    rw [read, hread]
  have hmono := emitted_subset_read db c captureInstance answer captureInstance
  -- Rows before the window were emitted earlier; rows in it are read now, unless it is skipped.
  intro row hrow hle
  rcases lt_or_ge row.lsn.value (c.windowStart db captureInstance) with hlt | hge
  · exact hmono (hc.behind captureInstance row hrow hlt)
  by_cases hequal : fromLSN db captureInstance (c.readers captureInstance) = answer.maxLSN.hex
  · -- The window is skipped. The only rows in it are those at the maximum itself.
    have hvalue : row.lsn.value = answer.maxLSN.value := by
      rw [windowStart, hequal, textValue_hex] at hge
      exact le_antisymm hle hge
    have hlsn : row.lsn = answer.maxLSN :=
      Subtype.ext (Bytes.bigEndian_injective
        (row.lsn.property.trans answer.maxLSN.property.symm) hvalue)
    exact hmono (hskip hequal row hrow hlsn)
  · obtain ⟨ev, hmem, hdescribed⟩ := exists_mem_readChanges hread hequal hrow.1 hrow.2.1 hge hle
    refine ⟨_, ?_, describedBy_enrich hdescribed answer.tableInfo⟩
    rw [hevents]
    exact mem_append_right _ (List.mem_map_of_mem hmem)

lemma windowStart_le {lsn : LSN}
    (hreader : c.readers captureInstance = some (incrementLSN lsn.hex)) :
    c.windowStart db captureInstance ≤ lsn.value + 1 := by
  -- An empty text would be taken for "not read yet".
  have hne : incrementLSN lsn.hex ≠ [] := by
    rw [incrementLSN, LSN.decodeString_hex]
    refine Hex.encodeToString_ne_nil fun hnil => ?_
    have hlength := Bytes.length_increment lsn.val
    rw [hnil, lsn.property] at hlength
    cases hlength
  rw [windowStart, hreader, fromLSN]
  simp only [if_neg hne]
  rw [← textValue_hex]
  exact textValue_incrementLSN_le _

lemma complete_read (hc : Complete db c polls) {answer : Answer}
    (hskip : SkipsNothing db c (.read captureInstance (some answer))) :
    Complete db (c.read db captureInstance answer).1
      (polls ++ (c.read db captureInstance answer).2) := by
  cases hread : readChanges db captureInstance answer.now (c.readers captureInstance)
      answer.maxLSN with
  | none =>
    rw [read, hread, append_nil]
    exact hc
  | some result =>
    obtain ⟨changed, lastLSN⟩ := result
    have hcovered := covered_read hc hskip hread
    have hlast := upper_of_readChanges hread
    have hstate : c.read db captureInstance answer =
        ((c.read db captureInstance answer).1, [⟨captureInstance, answer.maxLSN⟩]) := by
      rw [read, hread]
    have hreaders : (c.read db captureInstance answer).1.readers =
        update c.readers captureInstance (some (incrementLSN lastLSN)) := by
      rw [read, hread]
    have hmono := emitted_subset_read db c captureInstance answer
    -- From here on only the readers, the emitted rows and the poll itself matter.
    generalize (c.read db captureInstance answer).1 = c' at *
    refine ⟨fun other row hrow hlt => ?_, fun poll hpoll => ?_⟩
    · by_cases hother : other = captureInstance
      · -- The next window starts at most one above the maximum.
        subst hother
        have hnext : c'.windowStart db other ≤ answer.maxLSN.value + 1 := by
          apply windowStart_le
          rw [hreaders, update_self, hlast]
        exact hcovered row hrow (Nat.lt_succ_iff.mp (lt_of_lt_of_le hlt hnext))
      · rw [windowStart, hreaders, update_of_ne hother] at hlt
        exact hmono other (hc.behind other row hrow hlt)
    · rw [hstate] at hpoll
      rcases mem_append.mp hpoll with hpoll | hpoll
      · exact (hc.polled poll hpoll).mono (hmono _) le_rfl
      · obtain rfl := mem_singleton.mp hpoll
        exact hcovered

lemma complete_restart (hc : Complete db c polls) (hskip : SkipsNothing db c .restart) :
    Complete db c.restart polls := by
  refine ⟨fun captureInstance row hrow hlt => ?_, hc.polled⟩
  rcases lt_or_ge row.lsn.value (c.windowStart db captureInstance) with hbehind | hahead
  · exact hc.behind captureInstance row hrow hbehind
  · exact hskip captureInstance row hrow hahead hlt

lemma complete_step (hc : Complete db c polls) {i : Input} (hskip : SkipsNothing db c i) :
    Complete db ((machine db).step c i).1 (polls ++ ((machine db).step c i).2) := by
  rcases i with ⟨captureInstance, _ | answer⟩ | _ | _
  · simpa [machine] using hc
  · exact complete_read hc hskip
  · -- Saving changes neither the windows nor the events.
    have hsame : Complete db c.save polls := by
      rw [save]
      split
      · exact hc
      · exact ⟨hc.behind, hc.polled⟩
    simpa [machine] using hsame
  · simpa [machine] using complete_restart hc hskip

/-- In a run that skips nothing, every change row between the minimum of its capture instance and a
maximum at which its reader succeeded has been emitted. -/
theorem emitted_of_polled {is : List Input}
    (hmeets : (machine db).Meets (SkipsNothing db) Connector.fresh is) {poll : Polled}
    (hpoll : poll ∈ ((machine db).run Connector.fresh is).2) {row : CDCRow}
    (hmem : row ∈ db.rows poll.captureInstance) (hchange : row.IsChange)
    (hmin : (db.minLSN poll.captureInstance).value ≤ row.lsn.value)
    (hmax : row.lsn.value ≤ poll.maxLSN.value) :
    ∃ ev, (poll.captureInstance, ev) ∈ ((machine db).run Connector.fresh is).1.events ∧
      row.DescribedBy ev := by
  have hcomplete := (machine db).run_induction_of_meets (motive := Complete db) hmeets
    complete_fresh fun c polls i hskip hc => complete_step hc hskip
  exact hcomplete.polled poll hpoll row ⟨hmem, hchange, hmin⟩ hmax

/-! ### A lost row -/

variable (b : UInt8)

def sampleLSN : LSN := ⟨[0, 0, 0, 0, 0, 0, 0, 0, 0, b], rfl⟩

def sampleInsert : CDCRow :=
  { lsn := sampleLSN b, operation := 2, values := [(lit "id", .int 7)] }

/-- A database with one insert, whose capture instances start at number one. -/
def sampleDatabase : Database :=
  { name := lit "shop", rows := fun _ => [sampleInsert b], minLSN := fun _ => sampleLSN 1 }

def samplePoll : List Input :=
  pollAll [(lit "dbo_orders", some { maxLSN := sampleLSN b, now := Time.zero, tableInfo := none })]

lemma meets_samplePoll :
    (machine (sampleDatabase 2)).Meets (SkipsNothing (sampleDatabase 2)) Connector.fresh
      (samplePoll 3) := by
  refine ⟨fun hequal => ?_, trivial, trivial⟩
  exact absurd hequal (by decide)

lemma polled_samplePoll : (⟨lit "dbo_orders", sampleLSN 3⟩ : Polled) ∈
    ((machine (sampleDatabase 2)).run Connector.fresh (samplePoll 3)).2 :=
  mem_singleton.mpr rfl

/-- The insert between the minimum and the polled maximum is on the channel. -/
theorem emitted_samplePoll :
    ∃ ev, (lit "dbo_orders", ev) ∈
        ((machine (sampleDatabase 2)).run Connector.fresh (samplePoll 3)).1.events ∧
      (sampleInsert 2).DescribedBy ev :=
  emitted_of_polled meets_samplePoll polled_samplePoll (mem_singleton.mpr rfl) (by decide)
    (by decide) (by decide)

/-- A row at the minimum is lost when the first poll finds the minimum as the maximum: the ends of
the window are equal, so nothing is read, and the next window starts above it. -/
theorem not_forall_polled_emitted :
    ¬∀ (db : Database) (is : List Input) (poll : Polled),
      poll ∈ ((machine db).run Connector.fresh is).2 →
      ∀ row ∈ db.rows poll.captureInstance, row.IsChange →
        (db.minLSN poll.captureInstance).value ≤ row.lsn.value →
        row.lsn.value ≤ poll.maxLSN.value →
        ∃ ev, (poll.captureInstance, ev) ∈ ((machine db).run Connector.fresh is).1.events ∧
          row.DescribedBy ev := by
  intro h
  obtain ⟨ev, hmem, -⟩ := h (sampleDatabase 1) (samplePoll 1) ⟨lit "dbo_orders", sampleLSN 1⟩
    (mem_singleton.mpr rfl) (sampleInsert 1) (mem_singleton.mpr rfl) (by decide)
    (by decide) (by decide)
  have hnone : ((machine (sampleDatabase 1)).run Connector.fresh (samplePoll 1)).1.events = [] :=
    rfl
  cases hmem

end Connector

end DataStream.Source.SqlServer
