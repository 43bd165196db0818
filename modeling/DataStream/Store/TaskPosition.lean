import DataStream.Event.Position

/-!
# The task position of the target store

The one row of the table `task_position`, with the position up to which events were flushed and the
current position. `SaveFlushedPosition` inserts the row, or updates its flushed position;
`SaveCurrentPosition` only updates. Before the first flushed position there is no row, so a current
position is dropped without an error, and the first flushed position also becomes the current one.

A MySQL connector saves with `SaveCurrentPosition` and, when it starts, resumes from the flushed
position if there is one.

* `faithful_restart_iff`: when the store and a restart give back what was saved last.
-/

namespace DataStream.Store

open Event List Option Position

/-! ## The program -/

/-- The row of `task_position`, with its two JSON texts. -/
structure PositionRow where
  flushedPosition : Bytes
  currentPosition : Bytes
  deriving DecidableEq

inductive PositionSave where
  | saveFlushedPosition (pos : Position)
  /-- From the position saver of the connector, or from elsewhere (the syncer saves positions of
  events). -/
  | saveCurrentPosition (pos : Position) (fromSaver : Bool)
  deriving DecidableEq

variable (row : Option PositionRow)

/-- The statements of the two saves. -/
def PositionSave.exec : PositionSave → Option (Option PositionRow)
  -- `INSERT … ON DUPLICATE KEY UPDATE flushed_position = ?`
  | .saveFlushedPosition pos => pos.marshal.map fun data =>
    match row with
    | none => some { flushedPosition := data, currentPosition := data }
    | some r => some { r with flushedPosition := data }
  -- `UPDATE … SET current_position = ? WHERE id = 1`
  | .saveCurrentPosition pos _ => pos.marshal.map fun data =>
    row.map fun r => { r with currentPosition := data }

/-- A sequence of saves on a database that accepts them. `none` is an error: a position that JSON
cannot express. -/
def saveAll : Option PositionRow → List PositionSave → Option (Option PositionRow)
  | row, [] => some row
  | row, save :: saves => (save.exec row).bind fun row => saveAll row saves

/-- `unmarshalPosition`; `none` is an error. -/
def unmarshalPosition? (data : Bytes) : Option (Option Position) :=
  if data = [] then some none else (unmarshal data).map some

/-- `LoadPositions`: the flushed and the current position; `none` is an error. -/
def loadPositions : Option PositionRow → Option (Option Position × Option Position)
  | none => some (none, none)
  | some row => do
      let flushed ← unmarshalPosition? row.flushedPosition
      let current ← unmarshalPosition? row.currentPosition
      return (flushed, current)

/-- What a connector knows before it looks at the store. -/
structure Restart where
  /-- What `Initialize` loads from the offset storage, if there is one. -/
  loaded : Option Position
  /-- `BinlogFile` and `BinlogPos` of the configuration. -/
  binlogFile : Bytes
  binlogPos : UInt32

def Restart.initializePosition (r : Restart) : Option Position :=
  if r.binlogFile = [] then r.loaded
  else some { zero with binlogFile := r.binlogFile, binlogPos := r.binlogPos }

/-- The position from which `Start` starts the syncer, after `recoverFromStore`. -/
def Restart.start (r : Restart) : Option Position :=
  match loadPositions row with
  | some (some flushed, _) => some flushed
  | _ => r.initializePosition

/-! ## What was saved last -/

namespace PositionSave

/-- The argument of a save of a flushed position. -/
def flushed? : PositionSave → Option Position
  | .saveFlushedPosition pos => some pos
  | .saveCurrentPosition _ _ => none

/-- The argument of a save of a current position. -/
def current? : PositionSave → Option Position
  | .saveFlushedPosition _ => none
  | .saveCurrentPosition pos _ => some pos

/-- The argument of a save of the position saver. -/
def saver? : PositionSave → Option Position
  | .saveCurrentPosition pos true => some pos
  | _ => none

end PositionSave

open PositionSave

/-- The argument of the last save of a kind. -/
def last (kind : PositionSave → Option Position) (saves : List PositionSave) : Option Position :=
  (saves.filterMap kind).getLast?

/-- The store gives back what was saved last of each kind, and a connector resumes from its last
saved position. -/
structure Faithful (saves : List PositionSave) (row : Option PositionRow) (restart : Restart) :
    Prop where
  loads : loadPositions row = some (last flushed? saves, last current? saves)
  resumes : ∀ pos, last saver? saves = some pos → restart.start row = some pos

/-- The position that a stored position is read as. -/
def reread (pos : Position) : Option Position := pos.marshal.bind unmarshal

/-- Nothing is saved; or something is flushed, and the last flushed position reads back and is also
the last one of the position saver, if that saves; and the last current position reads back and is
saved after the first flushed one, or is what that reads back as. -/
def Kept (saves : List PositionSave) : Prop :=
  saves = [] ∨
  ∃ before first after, saves = before ++ .saveFlushedPosition first :: after ∧
    last flushed? before = none ∧
    ∃ flushed current, last flushed? saves = some flushed ∧ reread flushed = some flushed ∧
      last current? saves = some current ∧
      (last current? after = some current ∧ reread current = some current ∨
        last current? after = none ∧ reread first = some current) ∧
      ∀ pos, last saver? saves = some pos → pos = flushed

/-! ## The last save of a kind -/

section Last

variable (kind : PositionSave → Option Position)

@[simp]
lemma last_append (saves saves' : List PositionSave) :
    last kind (saves ++ saves') = (last kind saves').or (last kind saves) := by
  rw [last, filterMap_append, getLast?_append]
  rfl

lemma last_singleton (save : PositionSave) : last kind [save] = kind save := by
  cases hkind : kind save <;> simp [last, hkind]

@[simp]
lemma last_cons (save : PositionSave) (saves : List PositionSave) :
    last kind (save :: saves) = (last kind saves).or (kind save) := by
  rw [← singleton_append, last_append, last_singleton]

end Last

variable {saves before after : List PositionSave} {row : Option PositionRow} {r : PositionRow}
  {flushed current first : Position}

lemma eq_nil_of_last_eq_none (hflushed : last flushed? saves = none)
    (hcurrent : last current? saves = none) : saves = [] := by
  cases saves with
  | nil => rfl
  | cons save saves => cases save <;> simp [flushed?, current?] at hflushed hcurrent

lemma exists_first_flushed {pos : Position} (h : last flushed? saves = some pos) :
    ∃ before first after, saves = before ++ .saveFlushedPosition first :: after ∧
      last flushed? before = none := by
  induction saves with
  | nil => exact nomatch h
  | cons save saves ih =>
    cases save with
    | saveFlushedPosition first => exact ⟨[], first, saves, rfl, rfl⟩
    | saveCurrentPosition current fromSaver =>
      have hrest : last flushed? saves = some pos := by simpa [flushed?] using h
      obtain ⟨before, first, after, rfl, hbefore⟩ := ih hrest
      exact ⟨_ :: before, first, after, rfl, by simpa [flushed?] using hbefore⟩

/-! ## The row after a sequence of saves -/

lemma saveAll_append (row : Option PositionRow) (saves saves' : List PositionSave) :
    saveAll row (saves ++ saves') = (saveAll row saves).bind fun row => saveAll row saves' := by
  induction saves generalizing row with
  | nil => rfl
  | cons save saves ih =>
    rw [cons_append, saveAll, saveAll, Option.bind_assoc]
    exact Option.bind_congr fun _ _ => ih _

lemma eq_none_of_saveAll (h : saveAll none saves = some row)
    (hflushed : last flushed? saves = none) : row = none := by
  induction saves with
  | nil => exact (some.inj h).symm
  | cons save saves ih =>
    cases save with
    | saveFlushedPosition pos => simp [flushed?] at hflushed
    | saveCurrentPosition pos fromSaver =>
      obtain ⟨next, hnext, h⟩ := bind_eq_some_iff.mp h
      obtain ⟨data, -, rfl⟩ := map_eq_some_iff.mp hnext
      exact ih h (by simpa [flushed?] using hflushed)

lemma exists_of_saveAll_some (h : saveAll (some r) saves = some row)
    (hflushed : flushed.marshal = some r.flushedPosition)
    (hcurrent : current.marshal = some r.currentPosition) :
    ∃ r', row = some r' ∧
      ((last flushed? saves).getD flushed).marshal = some r'.flushedPosition ∧
      ((last current? saves).getD current).marshal = some r'.currentPosition := by
  induction saves generalizing r flushed current with
  | nil => exact ⟨r, (some.inj h).symm, hflushed, hcurrent⟩
  | cons save saves ih =>
    obtain ⟨next, hnext, h⟩ := bind_eq_some_iff.mp h
    cases save with
    | saveFlushedPosition pos =>
      obtain ⟨data, hdata, rfl⟩ := map_eq_some_iff.mp hnext
      simpa [flushed?, current?] using ih h hdata hcurrent
    | saveCurrentPosition pos fromSaver =>
      obtain ⟨data, hdata, rfl⟩ := map_eq_some_iff.mp hnext
      simpa [flushed?, current?] using ih h hflushed hdata

/-- The row after a sequence with a flushed position: what was saved before is gone, and the first
flushed one stands in for the current position until one is saved. -/
theorem exists_of_saveAll
    (h : saveAll none (before ++ .saveFlushedPosition first :: after) = some row)
    (hbefore : last flushed? before = none) :
    ∃ r, row = some r ∧
      ((last flushed? after).getD first).marshal = some r.flushedPosition ∧
      ((last current? after).getD first).marshal = some r.currentPosition := by
  rw [saveAll_append] at h
  obtain ⟨empty, hempty, h⟩ := bind_eq_some_iff.mp h
  obtain rfl := eq_none_of_saveAll hempty hbefore
  obtain ⟨inserted, hinserted, h⟩ := bind_eq_some_iff.mp h
  obtain ⟨data, hdata, rfl⟩ := map_eq_some_iff.mp hinserted
  exact exists_of_saveAll_some h hdata hdata

/-! ## When the store is faithful -/

lemma loadPositions_eq_some_iff (hflushed : flushed.marshal = some r.flushedPosition)
    (hcurrent : current.marshal = some r.currentPosition) {f c : Option Position} :
    loadPositions (some r) = some (f, c) ↔
      ∃ flushed' current', f = some flushed' ∧ c = some current' ∧
        reread flushed = some flushed' ∧ reread current = some current' := by
  have hread : ∀ {pos : Position} {data : Bytes}, pos.marshal = some data →
      unmarshalPosition? data = (reread pos).map some := by
    intro pos data hdata
    rw [unmarshalPosition?, if_neg (marshal_ne_nil hdata), reread, hdata, bind_some]
  rw [loadPositions, hread hflushed, hread hcurrent]
  cases reread flushed <;> cases reread current <;> simp [eq_comm]

lemma start_of_loadPositions (restart : Restart) {current : Option Position}
    (h : loadPositions row = some (some flushed, current)) : restart.start row = some flushed := by
  rw [Restart.start, h]

lemma last_flushed_of_cut :
    last flushed? (before ++ .saveFlushedPosition first :: after) =
      some ((last flushed? after).getD first) := by
  cases hafter : last flushed? after <;> simp [flushed?, hafter]

lemma reread_current_iff
    (hcurrent : last current? (before ++ .saveFlushedPosition first :: after) = some current) :
    reread ((last current? after).getD first) = some current ↔
      last current? after = some current ∧ reread current = some current ∨
        last current? after = none ∧ reread first = some current := by
  rw [last_append, last_cons, current?, or_none] at hcurrent
  cases hafter : last current? after with
  | none => simp
  | some pos =>
    rw [hafter, some_or] at hcurrent
    obtain rfl := some.inj hcurrent
    simp

/-- After every sequence of saves without an error, store and restart give back what was saved last
exactly if the sequence keeps it. -/
theorem faithful_restart_iff {saves : List PositionSave} {row : Option PositionRow}
    (h : saveAll none saves = some row) (restart : Restart) :
    Faithful saves row restart ↔ Kept saves := by
  constructor
  · rintro ⟨hloads, hresumes⟩
    cases hlast : last flushed? saves with
    | none =>
      -- There is no row, so nothing else can have been saved.
      obtain rfl := eq_none_of_saveAll h hlast
      have hcurrent := congrArg Prod.snd (some.inj hloads)
      exact .inl (eq_nil_of_last_eq_none hlast hcurrent.symm)
    | some flushed =>
      obtain ⟨before, first, after, rfl, hbefore⟩ := exists_first_flushed hlast
      obtain ⟨r, rfl, hflushed, hcurrent⟩ := exists_of_saveAll h hbefore
      have hstart := start_of_loadPositions restart (hlast ▸ hloads)
      obtain ⟨flushed', current, hf, hc, hreadf, hreadc⟩ :=
        (loadPositions_eq_some_iff hflushed hcurrent).mp hloads
      obtain rfl : flushed = flushed' := some.inj (hlast.symm.trans hf)
      obtain rfl : (last flushed? after).getD first = flushed :=
        some.inj (last_flushed_of_cut.symm.trans hlast)
      refine .inr ⟨before, first, after, rfl, hbefore, _, current, hlast, hreadf, hc,
        (reread_current_iff hc).mp hreadc, fun pos hpos => ?_⟩
      exact some.inj ((hresumes pos hpos).symm.trans hstart)
  · rintro (rfl | ⟨before, first, after, rfl, hbefore, flushed, current, hlast, hreadf, hc, hreadc,
      hsaver⟩)
    · obtain rfl := some.inj h
      exact ⟨rfl, nofun⟩
    · obtain ⟨r, rfl, hflushed, hcurrent⟩ := exists_of_saveAll h hbefore
      obtain rfl : (last flushed? after).getD first = flushed :=
        some.inj (last_flushed_of_cut.symm.trans hlast)
      have hloads := (loadPositions_eq_some_iff hflushed hcurrent).mpr
        ⟨_, current, hlast, hc, hreadf, (reread_current_iff hc).mpr hreadc⟩
      refine ⟨hloads, fun pos hpos => ?_⟩
      obtain rfl := hsaver pos hpos
      exact start_of_loadPositions restart (hlast ▸ hloads)

/-! ## Saves of the position saver alone -/

def firstBinlog : Position := { zero with binlogFile := lit "mysql-bin.000001", binlogPos := 154 }

/-- A connector without an offset storage and a configured file. -/
def plainRestart : Restart := { loaded := none, binlogFile := [], binlogPos := 0 }

/-- A position that is flushed, and then saved by the position saver. -/
def flushedThenSaved : List PositionSave :=
  [.saveFlushedPosition firstBinlog, .saveCurrentPosition firstBinlog true]

theorem faithful_flushedThenSaved :
    ∃ row, saveAll none flushedThenSaved = some row ∧
      Faithful flushedThenSaved row plainRestart := by
  have hread : reread firstBinlog = some firstBinlog := by decide
  have hsaver : ∀ pos, last saver? flushedThenSaved = some pos → pos = firstBinlog :=
    fun pos hpos => (some.inj hpos).symm
  obtain ⟨row, hrow⟩ : ∃ row, saveAll none flushedThenSaved = some row :=
    isSome_iff_exists.mp (by decide)
  exact ⟨row, hrow, (faithful_restart_iff hrow plainRestart).mpr (.inr ⟨[], firstBinlog,
    [.saveCurrentPosition firstBinlog true], rfl, rfl, firstBinlog, firstBinlog, rfl, hread, rfl,
    .inl ⟨rfl, hread⟩, hsaver⟩)⟩

/-- What the position saver saves is lost as long as nothing is flushed. -/
theorem not_forall_faithful :
    ¬ ∀ (saves : List PositionSave) (row : Option PositionRow) (restart : Restart),
      saveAll none saves = some row → Faithful saves row restart := by
  intro hall
  have hsaved : saveAll none [.saveCurrentPosition firstBinlog true] = some none := by decide
  have hloads := (hall _ _ plainRestart hsaved).loads
  exact absurd hloads (by decide)

end DataStream.Store
