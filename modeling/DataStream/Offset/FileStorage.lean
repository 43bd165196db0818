import DataStream.Event.Position
import DataStream.Foundations.GoMap
import DataStream.Foundations.Machine

/-!
# Offsets in a file

`offset.FileStorage` as the MySQL connectors use it: each connector opens a storage of its own in
`Initialize`, which reads the file, saves its position in memory under its task ID, and writes all
positions that it has in memory over the file, periodically and when it stops.

Any number of connectors with the same path share the file. The task ID of a connector is the
`Type` of its configuration, and all positions are kept under the task ID, so connectors of one type
read each other's. JSON repairs the keys on the way to the file: what counts is the type as it reads
back.

* `loadsOwn_iff`: when every connector loads only what it saved itself.
-/

namespace DataStream.Offset.FileStorage

open Event Utf8 List Option

/-! ## The program -/

/-- What is used of the configuration of a connector (`source.Config` and `mysql.Config`). -/
structure Config where
  type : Bytes
  host : Bytes
  port : ℕ
  deriving DecidableEq

/-- The task ID that `Initialize` sets: "Use connector type as task ID if not specified". -/
def Config.taskID (cfg : Config) : Bytes := cfg.type

/-- A position, or its text, and the connector that saved it, which is not stored. -/
structure Saved (κ α : Type) where
  connector : κ
  value : α

variable {κ : Type}

/-- The positions in memory, by task ID. -/
abbrev Offsets (κ : Type) := GoMap (Saved κ Position)

/-- The members of the JSON object in the file, in order, with the keys as they are read. -/
abbrev File (κ : Type) := List (Bytes × Saved κ Bytes)

/-- What `flush` writes: `json.MarshalIndent` of the map, which repairs the keys (as in
`Json.unquote_quote`). It fails if some position has no JSON form. -/
def marshal (offset : Offsets κ) : Option (File κ) :=
  offset.mapM fun (key, pos) =>
    pos.value.marshal.map fun text => (toValid key, ⟨pos.connector, text⟩)

/-- `json.Unmarshal` of the file into a fresh map. -/
def unmarshal (file : File κ) : Option (Offsets κ) :=
  file.foldlM (fun offset (key, text) =>
    (Position.unmarshal text.value).map fun pos => offset.insert key ⟨text.connector, pos⟩) []

/-- The map of `NewFileStorage`. If there is no file, or `load` fails, it "starts fresh". -/
def newFileStorage (readable : Bool) (file : Option (File κ)) : Offsets κ :=
  if readable then (file.bind unmarshal).getD [] else []

structure Shared (κ : Type) where
  /-- `none` if the file does not exist. -/
  file : Option (File κ)
  /-- The storage of each connector, while it is open. -/
  storages : κ → Option (Offsets κ)

namespace Shared

/-- No file, and nothing is open. -/
def start : Shared κ := { file := none, storages := fun _ => none }

/-- The file after a connector wrote its map, or did not manage to. -/
def flush (s : Shared κ) (written : Bool) (offset : Offsets κ) : Option (File κ) :=
  if written then (marshal offset).or s.file else s.file

end Shared

/-- What happens next; `readable` and `written` say whether the file could be read or written. -/
inductive Move (κ : Type) where
  /-- `Initialize` opens the storage and loads the position. -/
  | initializeConnector (connector : κ) (readable : Bool)
  /-- `runPositionSaver`, `SetPosition` or `Stop` saves a position. -/
  | save (connector : κ) (pos : Position)
  | flush (connector : κ) (written : Bool)
  | close (connector : κ) (written : Bool)
  | crash (connector : κ)

/-- The answer of `Load` to a connector. -/
inductive Effect (κ : Type) where
  | loaded (connector : κ) (pos : Option (Saved κ Position))

section Program

variable [DecidableEq κ] (cfg : κ → Config)

def machine : Machine (Shared κ) (Move κ) (Effect κ) where
  step s
    | .initializeConnector i readable =>
      match s.storages i with
      | some _ => (s, [])
      | none =>
        let offset := newFileStorage readable s.file
        ({ s with storages := Function.update s.storages i (some offset) },
          [.loaded i (offset.get? (cfg i).taskID)])
    | .save i pos =>
      match s.storages i with
      | some offset =>
        let offset := offset.insert (cfg i).taskID ⟨i, pos⟩
        ({ s with storages := Function.update s.storages i (some offset) }, [])
      | none => (s, [])
    | .flush i written =>
      match s.storages i with
      | some offset => ({ s with file := s.flush written offset }, [])
      | none => (s, [])
    | .close i written =>
      match s.storages i with
      | some offset =>
        ({ file := s.flush written offset, storages := Function.update s.storages i none }, [])
      | none => (s, [])
    | .crash i => ({ s with storages := Function.update s.storages i none }, [])

/-! ## Whose position is loaded -/

/-- The position that a connector loads is one that it saved itself. -/
def Effect.Own : Effect κ → Prop
  | .loaded i pos => ∀ saved ∈ pos, saved.connector = i

/-- In every run, every connector loads only positions that it saved itself. -/
def LoadsOwn : Prop := ∀ moves : List (Move κ), ∀ e ∈ ((machine cfg).run .start moves).2, e.Own

end Program

lemma exists_of_mem_marshal {offset : Offsets κ} {file : File κ} (h : marshal offset = some file)
    {member : Bytes × Saved κ Bytes} (hmem : member ∈ file) :
    ∃ entry ∈ offset, member.1 = toValid entry.1 ∧ member.2.connector = entry.2.connector := by
  induction offset generalizing file with
  | nil =>
    obtain rfl : [] = file := some.inj h
    exact absurd hmem not_mem_nil
  | cons entry rest ih =>
    rw [marshal, mapM_cons] at h
    obtain ⟨first, hfirst, h⟩ := bind_eq_some_iff.mp h
    obtain ⟨others, hothers, h⟩ := bind_eq_some_iff.mp h
    obtain rfl : first :: others = file := some.inj h
    rcases mem_cons.mp hmem with rfl | hmem
    · obtain ⟨text, -, rfl⟩ := map_eq_some_iff.mp hfirst
      exact ⟨entry, mem_cons_self, rfl, rfl⟩
    · obtain ⟨entry', hentry', hmember⟩ := ih hothers hmem
      exact ⟨entry', mem_cons_of_mem _ hentry', hmember⟩

lemma exists_of_mem_unmarshal {file : File κ} {offset : Offsets κ}
    (h : unmarshal file = some offset) {entry : Bytes × Saved κ Position} (hmem : entry ∈ offset) :
    ∃ member ∈ file, entry.1 = member.1 ∧ entry.2.connector = member.2.connector := by
  -- The members are set one after the other in a map that holds those before them.
  suffices hfold : ∀ (file : File κ) (before offset : Offsets κ),
      file.foldlM (fun offset (key, text) => (Position.unmarshal text.value).map fun pos =>
        offset.insert key ⟨text.connector, pos⟩) before = some offset → entry ∈ offset →
      entry ∈ before ∨
        ∃ member ∈ file, entry.1 = member.1 ∧ entry.2.connector = member.2.connector from
    (hfold file [] offset h hmem).resolve_left not_mem_nil
  intro file
  induction file with
  | nil =>
    intro before offset h hmem
    obtain rfl : before = offset := some.inj h
    exact .inl hmem
  | cons member rest ih =>
    intro before offset h hmem
    obtain ⟨next, hnext, h⟩ := bind_eq_some_iff.mp h
    obtain ⟨pos, -, rfl⟩ := map_eq_some_iff.mp hnext
    rcases ih _ _ h hmem with hbefore | ⟨member', hmember', hentry⟩
    · rcases GoMap.mem_of_mem_insert hbefore with rfl | hbefore
      · exact .inr ⟨member, mem_cons_self, rfl, rfl⟩
      · exact .inl hbefore
    · exact .inr ⟨member', mem_cons_of_mem _ hmember', hentry⟩

section Marks

variable (cfg : κ → Config)

/-- Every position is kept under the type of the connector that saved it, as it reads back; in
memory the key may also be the type itself. -/
structure Marked (s : Shared κ) : Prop where
  file : ∀ file, s.file = some file → ∀ member ∈ file,
    member.1 = toValid (cfg member.2.connector).taskID
  storages : ∀ i offset, s.storages i = some offset → ∀ entry ∈ offset,
    toValid entry.1 = toValid (cfg entry.2.connector).taskID

variable {cfg}

lemma marked_start : Marked cfg (.start : Shared κ) where
  file := nofun
  storages := nofun

namespace Marked

variable {s : Shared κ}

lemma newFileStorage (h : Marked cfg s) (readable : Bool) :
    ∀ entry ∈ newFileStorage readable s.file, entry.1 = toValid (cfg entry.2.connector).taskID := by
  intro entry hentry
  rw [FileStorage.newFileStorage] at hentry
  split_ifs at hentry
  · cases hread : s.file.bind unmarshal with
    | none =>
      rw [hread] at hentry
      exact absurd hentry not_mem_nil
    | some offset =>
      obtain ⟨file, hfile, hoffset⟩ := bind_eq_some_iff.mp hread
      rw [hread] at hentry
      obtain ⟨member, hmember, hkey, hconnector⟩ := exists_of_mem_unmarshal hoffset hentry
      rw [hkey, hconnector]
      exact h.file file hfile member hmember
  · exact absurd hentry not_mem_nil

lemma flush (h : Marked cfg s) {i : κ} {offset : Offsets κ} (hoffset : s.storages i = some offset)
    (written : Bool) : ∀ file, s.flush written offset = some file → ∀ member ∈ file,
      member.1 = toValid (cfg member.2.connector).taskID := by
  intro file hfile member hmember
  rw [Shared.flush] at hfile
  split_ifs at hfile
  · rcases or_eq_some_iff.mp hfile with hmarshal | ⟨-, hold⟩
    · obtain ⟨entry, hentry, hkey, hconnector⟩ := exists_of_mem_marshal hmarshal hmember
      rw [hkey, hconnector]
      exact h.storages i offset hoffset entry hentry
    · exact h.file file hold member hmember
  · exact h.file file hfile member hmember

variable [DecidableEq κ]

lemma update (h : Marked cfg s) (i : κ) {storage : Option (Offsets κ)}
    (hstorage : ∀ offset, storage = some offset → ∀ entry ∈ offset,
      toValid entry.1 = toValid (cfg entry.2.connector).taskID) :
    Marked cfg { s with storages := Function.update s.storages i storage } where
  file := h.file
  storages i' offset hoffset := by
    by_cases hi : i' = i
    · subst hi
      exact hstorage offset (by simpa using hoffset)
    · exact h.storages i' offset (by simpa [hi] using hoffset)

lemma close (h : Marked cfg s) (i : κ) :
    Marked cfg { s with storages := Function.update s.storages i none } :=
  h.update i fun _ hnone => nomatch hnone

theorem step (h : Marked cfg s) (move : Move κ) : Marked cfg ((machine cfg).step s move).1 := by
  rcases move with ⟨i, readable⟩ | ⟨i, pos⟩ | ⟨i, written⟩ | ⟨i, written⟩ | i <;>
    simp only [machine]
  · cases hi : s.storages i with
    | some offset => exact h
    | none =>
      -- What was read has been through JSON once, and a second time changes nothing.
      refine h.update i ?_
      rintro _ ⟨⟩ entry hentry
      rw [h.newFileStorage readable entry hentry, toValid_toValid]
  · cases hi : s.storages i with
    | none => exact h
    | some offset =>
      refine h.update i ?_
      rintro _ ⟨⟩ entry hentry
      rcases GoMap.mem_of_mem_insert hentry with rfl | hentry
      · rfl
      · exact h.storages i offset hi entry hentry
  · cases hi : s.storages i with
    | none => exact h
    | some offset => exact ⟨h.flush hi written, h.storages⟩
  · cases hi : s.storages i with
    | none => exact h
    | some offset => exact ⟨h.flush hi written, (h.close i).storages⟩
  · exact h.close i

lemma loaded (h : Marked cfg s) {move : Move κ} {i : κ} {saved : Saved κ Position}
    (he : .loaded i (some saved) ∈ ((machine cfg).step s move).2) :
    toValid (cfg saved.connector).taskID = (cfg i).taskID := by
  rcases move with ⟨i', readable⟩ | ⟨i', pos⟩ | ⟨i', written⟩ | ⟨i', written⟩ | i' <;>
    simp only [machine] at he
  · cases hi : s.storages i' with
    | some offset => simp [hi] at he
    | none =>
      simp only [hi, mem_singleton, Effect.loaded.injEq] at he
      obtain ⟨rfl, hget⟩ := he
      exact (h.newFileStorage readable _ (GoMap.mem_of_get?_eq_some hget.symm)).symm
  all_goals cases hi : s.storages i' <;> simp [hi] at he

end Marked

end Marks

section Runs

variable [DecidableEq κ]

lemma taskID_of_loaded_mem_run (cfg : κ → Config) (moves : List (Move κ)) :
    ∀ i saved, .loaded i (some saved) ∈ ((machine cfg).run .start moves).2 →
      toValid (cfg saved.connector).taskID = (cfg i).taskID := by
  refine ((machine cfg).run_induction (motive := fun s es => Marked cfg s ∧
    ∀ i saved, .loaded i (some saved) ∈ es →
      toValid (cfg saved.connector).taskID = (cfg i).taskID) moves
    ⟨marked_start, fun _ _ hnil => absurd hnil not_mem_nil⟩ ?_).2
  rintro s es move ⟨hmarked, hes⟩
  refine ⟨hmarked.step move, fun i saved hmem => ?_⟩
  rcases mem_append.mp hmem with hmem | hmem
  · exact hes i saved hmem
  · exact hmarked.loaded hmem

/-- A connector is started, saves a position and stops. -/
def session (j : κ) (pos : Position) : List (Move κ) :=
  [.initializeConnector j true, .save j pos, .close j true]

lemma run_session (cfg : κ → Config) (j : κ) {pos : Position} {text : Bytes}
    (hmarshal : pos.marshal = some text) :
    ((machine cfg).run .start (session j pos)).1 =
      { file := some [(toValid (cfg j).taskID, ⟨j, text⟩)], storages := fun _ => none } := by
  have hfresh : newFileStorage true none = ([] : Offsets κ) := rfl
  simp [session, machine, Machine.run, Shared.start, Shared.flush, hfresh, GoMap.insert, marshal,
    hmarshal]

lemma loaded_mem_run_session {cfg : κ → Config} {i j : κ}
    (htype : toValid (cfg j).taskID = (cfg i).taskID) {pos : Position} {text : Bytes}
    (hmarshal : pos.marshal = some text) (hunmarshal : Position.unmarshal text = some pos) :
    .loaded i (some ⟨j, pos⟩) ∈
      ((machine cfg).run .start (session j pos ++ [.initializeConnector i true])).2 := by
  have hload : newFileStorage true (some [((cfg i).taskID, (⟨j, text⟩ : Saved κ Bytes))]) =
      [((cfg i).taskID, ⟨j, pos⟩)] := by
    simp [newFileStorage, unmarshal, hunmarshal, GoMap.insert]
  rw [Machine.run_concat, run_session cfg j hmarshal, htype]
  simp [machine, hload, GoMap.get?]

lemma exists_text_zero :
    ∃ text, Position.zero.marshal = some text ∧ Position.unmarshal text = some .zero :=
  bind_eq_some_iff.mp (by decide)

/-- The connectors on one file load only what they saved themselves, in all runs, exactly if no
type reads back from the file as the type of another connector. -/
theorem loadsOwn_iff (cfg : κ → Config) :
    LoadsOwn cfg ↔ ∀ i j, i ≠ j → toValid (cfg j).type ≠ (cfg i).type := by
  constructor
  · intro hown i j hij htype
    obtain ⟨text, hmarshal, hunmarshal⟩ := exists_text_zero
    have hloaded := hown _ _ (loaded_mem_run_session htype hmarshal hunmarshal)
    exact hij (hloaded _ rfl).symm
  · rintro htypes moves ⟨i, pos⟩ he saved hsaved
    obtain rfl : pos = some saved := hsaved
    by_contra hne
    exact htypes i saved.connector (Ne.symm hne) (taskID_of_loaded_mem_run cfg moves i saved he)

end Runs

/-! ## Two connectors of one type -/

/-- Two connectors of type `mysql`, for the servers `orders-db` and `users-db`. -/
def twoServers : Bool → Config
  | false => { type := lit "mysql", host := lit "orders-db", port := 3306 }
  | true => { type := lit "mysql", host := lit "users-db", port := 3306 }

/-- Two connectors with different configurations share their positions if they have one type. -/
theorem not_forall_loadsOwn : ¬ ∀ cfg : Bool → Config, cfg false ≠ cfg true → LoadsOwn cfg := by
  intro hall
  obtain ⟨text, hmarshal, hunmarshal⟩ := exists_text_zero
  have htype : toValid (twoServers false).taskID = (twoServers true).taskID := by decide
  have hloaded := hall twoServers (by decide) _ _
    (loaded_mem_run_session (i := true) (j := false) htype hmarshal hunmarshal)
  exact absurd (hloaded _ rfl) (by decide)

end DataStream.Offset.FileStorage
