import DataStream.Event.Position
import DataStream.Foundations.Machine
import Mathlib.Data.List.AList

/-!
# Offsets in etcd

`offset.EtcdStorage`: any number of instances on one prefix. Each keeps a copy of the positions that
it has seen, answers a `Load` from the copy if it can, writes a `Save` and a `Delete` through, and
periodically writes the whole copy back. Calls, flushes and the load at start-up are cut at their
etcd requests, which are atomic and succeed; the lock of an instance is held as the source holds it.

Nothing tells an instance what the others write. A copy goes stale, and is even written back, when
another instance saves or deletes the task, and also when a `Load` asked etcd before a `Save` and
stores the answer after it.

* `loads_latest`: when every `Load` returns what was last saved.
-/

namespace DataStream.Offset

open Event List Option Function AList Position

/-! ## The program -/

/-- The positions that an instance has seen. -/
abbrev Offsets := AList fun _ : Bytes => Position

/-- What etcd holds. -/
abbrev Etcd := AList fun _ : Bytes => Bytes

/-- A `Load` on its way that did not find the task in the copy. -/
inductive PendingLoad where
  | asking (taskID : Bytes)
  | answered (taskID : Bytes) (pos : Position)
  deriving DecidableEq, Repr

/-- Who holds the lock of an instance. -/
inductive Lock where
  | free
  | saving (taskID : Bytes) (pos : Position) (data : Bytes)
  | deleting (taskID : Bytes)
  /-- `flushAll`, with the entries that it has not written yet. It holds the lock for reading. -/
  | flushing (left : List (Bytes × Position))
  deriving DecidableEq

/-- How far `NewEtcdStorage` is with `loadAll`. -/
inductive Startup where
  | asking
  | answered (kvs : List (Bytes × Bytes))
  | done
  deriving DecidableEq

/-- An instance with the calls on their way in it. -/
structure EtcdStorage where
  offset : Offsets
  lock : Lock
  loads : List PendingLoad
  startup : Startup

structure Cluster where
  etcd : Etcd
  instances : List EtcdStorage

inductive Action where
  | getAll
  | storeAll
  /-- `Save` takes the lock and changes the copy. -/
  | save (taskID : Bytes) (pos : Position)
  /-- `Save` writes to etcd and returns. -/
  | put
  /-- `Delete` takes the lock and changes the copy. -/
  | delete (taskID : Bytes)
  /-- `Delete` deletes in etcd and returns. -/
  | remove
  /-- `Load` looks at the copy. -/
  | load (taskID : Bytes)
  /-- The `n`th pending `Load` asks etcd. -/
  | get (n : ℕ)
  /-- The `n`th pending `Load` stores the answer and returns. -/
  | store (n : ℕ)
  /-- A tick: `flushAll` takes the lock. -/
  | flush
  /-- `flushAll` writes the `n`th of the entries that are left. -/
  | flushPut (n : ℕ)

/-- A new instance is made, or one takes a step. -/
inductive Move where
  | create
  | act (i : ℕ) (action : Action)

/-- What the callers see. -/
inductive Effect where
  | saved (taskID : Bytes) (pos : Position)
  | saveFailed (taskID : Bytes)
  | deleted (taskID : Bytes)
  | loaded (taskID : Bytes) (pos : Option Position)
  | loadFailed (taskID : Bytes)
  deriving DecidableEq

section Program

variable (root : Bytes)

/-- The key of a task. -/
def key (taskID : Bytes) : Bytes := root ++ lit "/" ++ taskID

/-- The task of a key, as `loadAll` cuts it off. -/
def taskOf (key : Bytes) : Bytes := key.drop (root.length + 1)

/-- The copy that `loadAll` makes of an answer: what cannot be decoded is left out. -/
def loadAll (offset : Offsets) (kvs : List (Bytes × Bytes)) : Offsets :=
  kvs.foldl (fun offset kv =>
    match unmarshal kv.2 with
    | some pos => offset.insert (taskOf root kv.1) pos
    | none => offset) offset

/-- `NewEtcdStorage` before its `loadAll`. -/
def newEtcdStorage : EtcdStorage where
  offset := ∅
  lock := .free
  loads := []
  startup := .asking

namespace EtcdStorage

variable (st : EtcdStorage) (etcd : Etcd)

/-- No `Save` or `Delete` holds the lock. -/
def readable : Bool :=
  match st.lock with
  | .free | .flushing _ => true
  | .saving _ _ _ | .deleting _ => false

def startStep : Action → Option (EtcdStorage × Etcd × List Effect)
  | .getAll =>
    match st.startup with
    | .asking =>
      let kvs := (etcd.entries.filter fun kv => root.isPrefixOf kv.1).map fun kv => (kv.1, kv.2)
      some ({ st with startup := .answered kvs }, etcd, [])
    | _ => none
  | .storeAll =>
    match st.startup with
    | .answered kvs =>
      some ({ st with offset := loadAll root st.offset kvs, startup := .done }, etcd, [])
    | _ => none
  | _ => none

/-- The steps of the calls and of the flush of an instance; `none` if the step is not possible
now. -/
def callStep : Action → Option (EtcdStorage × Etcd × List Effect)
  | .save taskID pos =>
    if st.lock = .free then
      -- The copy is changed before the position is encoded.
      let offset := st.offset.insert taskID pos
      match pos.marshal with
      | some data => some ({ st with offset, lock := .saving taskID pos data }, etcd, [])
      | none => some ({ st with offset }, etcd, [.saveFailed taskID])
    else none
  | .put =>
    match st.lock with
    | .saving taskID pos data =>
      some ({ st with lock := .free }, etcd.insert (key root taskID) data, [.saved taskID pos])
    | _ => none
  | .delete taskID =>
    if st.lock = .free then
      some ({ st with offset := st.offset.erase taskID, lock := .deleting taskID }, etcd, [])
    else none
  | .remove =>
    match st.lock with
    | .deleting taskID =>
      some ({ st with lock := .free }, etcd.erase (key root taskID), [.deleted taskID])
    | _ => none
  | .load taskID =>
    if st.readable then
      match st.offset.lookup taskID with
      | some pos => some (st, etcd, [.loaded taskID (some pos)])
      | none => some ({ st with loads := st.loads ++ [.asking taskID] }, etcd, [])
    else none
  | .get n =>
    match st.loads[n]? with
    | some (.asking taskID) =>
      match etcd.lookup (key root taskID) with
      | none => some ({ st with loads := st.loads.eraseIdx n }, etcd, [.loaded taskID none])
      | some data =>
        match unmarshal data with
        | some pos => some ({ st with loads := st.loads.set n (.answered taskID pos) }, etcd, [])
        | none => some ({ st with loads := st.loads.eraseIdx n }, etcd, [.loadFailed taskID])
    | _ => none
  | .store n =>
    match st.loads[n]? with
    | some (.answered taskID pos) =>
      if st.lock = .free then
        some ({ st with offset := st.offset.insert taskID pos, loads := st.loads.eraseIdx n }, etcd,
          [.loaded taskID (some pos)])
      else none
    | _ => none
  | .flush =>
    if st.lock = .free ∧ st.offset.entries ≠ [] then
      let left := st.offset.entries.map fun entry => (entry.1, entry.2)
      some ({ st with lock := .flushing left }, etcd, [])
    else none
  | .flushPut n =>
    match st.lock with
    | .flushing left =>
      match left[n]? with
      | some (taskID, pos) =>
        let rest := left.eraseIdx n
        let etcd := match pos.marshal with
          | some data => etcd.insert (key root taskID) data
          | none => etcd
        some ({ st with lock := if rest = [] then .free else .flushing rest }, etcd, [])
      | none => none
    | _ => none
  | _ => none

def act (action : Action) : Option (EtcdStorage × Etcd × List Effect) :=
  match st.startup with
  | .done => st.callStep root etcd action
  | _ => st.startStep root etcd action

end EtcdStorage

/-- The instances on one prefix. -/
def cluster : Machine Cluster Move Effect where
  step s move :=
    match move with
    | .create => ({ s with instances := s.instances ++ [newEtcdStorage] }, [])
    | .act i action =>
      match s.instances[i]?.bind fun st => st.act root s.etcd action with
      | some (st, etcd, es) => ({ etcd, instances := s.instances.set i st }, es)
      | none => (s, [])

def Cluster.start : Cluster := { etcd := ∅, instances := [] }

end Program

/-! ## What a `Load` should return -/

variable (latest : Bytes → Option Position)

/-- How a completed call changes what is saved. -/
def Effect.update : Effect → Bytes → Option Position
  | .saved taskID pos => Function.update latest taskID (some pos)
  | .deleted taskID => Function.update latest taskID none
  | .saveFailed _ | .loaded _ _ | .loadFailed _ => latest

/-- A `Load` returns what is saved, and does not fail. -/
def Effect.Agrees : Effect → Prop
  | .loaded taskID pos => pos = latest taskID
  | .loadFailed _ => False
  | .saved _ _ | .saveFailed _ | .deleted _ => True

/-- Every `Load` returns the position of the latest completed `Save` of the task, nothing without
one or after a `Delete`. -/
def LoadsLatest : (Bytes → Option Position) → List Effect → Prop
  | _, [] => True
  | latest, e :: es => e.Agrees latest ∧ LoadsLatest (e.update latest) es

/-- What is saved after some effects. -/
def latestAfter (es : List Effect) : Bytes → Option Position := es.foldl Effect.update latest

lemma latestAfter_append (es es' : List Effect) :
    latestAfter latest (es ++ es') = latestAfter (latestAfter latest es) es' := foldl_append

lemma loadsLatest_append {latest : Bytes → Option Position} {es es' : List Effect} :
    LoadsLatest latest (es ++ es') ↔
      LoadsLatest latest es ∧ LoadsLatest (latestAfter latest es) es' := by
  induction es generalizing latest with
  | nil => simp [LoadsLatest, latestAfter]
  | cons e es ih =>
    rw [cons_append, LoadsLatest, LoadsLatest, ih, and_assoc]
    rfl

/-! ## When copies stay right -/

/-- JSON gives the position back. -/
def Survives (pos : Position) : Prop := pos.marshal.bind unmarshal = some pos

instance : DecidablePred Survives := fun pos =>
  inferInstanceAs (Decidable (pos.marshal.bind unmarshal = some pos))

section Condition

variable (root : Bytes)

/-- The `Load` has an answer of etcd about the task. -/
def PendingLoad.IsAnswer (taskID : Bytes) : PendingLoad → Prop
  | .answered taskID' _ => taskID' = taskID
  | .asking _ => False

instance (taskID : Bytes) : DecidablePred (PendingLoad.IsAnswer taskID)
  | .answered taskID' _ => inferInstanceAs (Decidable (taskID' = taskID))
  | .asking _ => isFalse id

/-- `loadAll` has an answer of etcd with the key. -/
def Startup.Mentions (key : Bytes) : Startup → Prop
  | .answered kvs => ∃ kv ∈ kvs, kv.1 = key
  | .asking | .done => False

instance (key : Bytes) : DecidablePred (Startup.Mentions key)
  | .answered kvs => inferInstanceAs (Decidable (∃ kv ∈ kvs, kv.1 = key))
  | .asking | .done => isFalse id

namespace EtcdStorage

variable (st : EtcdStorage)

/-- The task whose `Save` or `Delete` holds the lock. -/
def writes : Option Bytes :=
  match st.lock with
  | .saving taskID _ _ | .deleting taskID => some taskID
  | .free | .flushing _ => none

/-- An answer of etcd about the task is not stored yet. -/
def Awaits (taskID : Bytes) : Prop :=
  (∃ load ∈ st.loads, load.IsAnswer taskID) ∨ st.startup.Mentions (key root taskID)
  deriving Decidable

end EtcdStorage

/-- No instance but the `i`th has a copy of the position of a task, and none an answer that it has
not stored yet. -/
def Cluster.Alone (s : Cluster) (i : ℕ) (taskID : Bytes) : Prop :=
  ∀ q ∈ s.instances.zipIdx, (q.2 ≠ i → q.1.offset.lookup taskID = none) ∧ ¬ q.1.Awaits root taskID
  deriving Decidable

/-- Saved positions survive JSON, and a task is written to etcd only when no other copy of its
position is around. -/
def WritesAlone (s : Cluster) : Move → Prop
  | .act _ (.save _ pos) => Survives pos
  | .act i .put | .act i .remove =>
    ∀ st ∈ s.instances[i]?, ∀ taskID ∈ st.writes, s.Alone root i taskID
  | _ => True

instance (s : Cluster) : DecidablePred (WritesAlone root s)
  | .act _ (.save _ pos) => inferInstanceAs (Decidable (Survives pos))
  | .act i .put | .act i .remove =>
    inferInstanceAs
      (Decidable (∀ st ∈ s.instances[i]?, ∀ taskID ∈ st.writes, s.Alone root i taskID))
  | .create | .act _ .getAll | .act _ .storeAll | .act _ (.delete _) | .act _ (.load _)
  | .act _ (.get _) | .act _ (.store _) | .act _ .flush | .act _ (.flushPut _) => isTrue trivial

end Condition

/-! ## Coherence -/

/-- What etcd holds for a task is the encoding of what is saved. -/
inductive Stands : Option Bytes → Option Position → Prop where
  | absent : Stands none none
  | present {data : Bytes} {pos : Position} (hmarshal : pos.marshal = some data)
      (hunmarshal : unmarshal data = some pos) : Stands (some data) (some pos)

lemma Stands.eq_none {r : Option Position} (h : Stands none r) : r = none := by
  cases h
  rfl

lemma Stands.exists_pos {data : Bytes} {r : Option Position} (h : Stands (some data) r) :
    ∃ pos, r = some pos ∧ pos.marshal = some data ∧ unmarshal data = some pos := by
  cases h with
  | present hmarshal hunmarshal => exact ⟨_, rfl, hmarshal, hunmarshal⟩

variable {pos : Position}

lemma Stands.exists_data {o : Option Bytes} (h : Stands o (some pos)) :
    ∃ data, o = some data ∧ pos.marshal = some data := by
  cases h with
  | present hmarshal _ => exact ⟨_, rfl, hmarshal⟩

/-- The copy of an instance and the answers that it has not stored yet are what is saved. -/
structure Mirrors (root : Bytes) (etcd : Etcd) (latest : Bytes → Option Position)
    (st : EtcdStorage) : Prop where
  copied : ∀ taskID pos, st.offset.lookup taskID = some pos →
    latest taskID = some pos ∨ ∃ data, st.lock = .saving taskID pos data
  saving : ∀ taskID pos data, st.lock = .saving taskID pos data →
    st.offset.lookup taskID = some pos ∧ pos.marshal = some data ∧ unmarshal data = some pos
  deleting : ∀ taskID, st.lock = .deleting taskID → st.offset.lookup taskID = none
  flushing : ∀ left, st.lock = .flushing left →
    ∀ entry ∈ left, st.offset.lookup entry.1 = some entry.2
  answered : ∀ taskID pos, .answered taskID pos ∈ st.loads → latest taskID = some pos
  startup : ∀ kvs, st.startup = .answered kvs → ∀ kv ∈ kvs, etcd.lookup kv.1 = some kv.2
  /-- Nothing happens in an instance before it is made. -/
  starting : st.startup ≠ .done → st.offset = ∅ ∧ st.lock = .free

/-- Etcd holds what is saved, and every instance mirrors it. -/
structure Coherent (root : Bytes) (latest : Bytes → Option Position) (s : Cluster) : Prop where
  keys : ∀ k data, s.etcd.lookup k = some data → ∃ taskID, k = key root taskID
  stands : ∀ taskID, Stands (s.etcd.lookup (key root taskID)) (latest taskID)
  mirrors : ∀ st ∈ s.instances, Mirrors root s.etcd latest st

@[simp]
lemma taskOf_key (root taskID : Bytes) : taskOf root (key root taskID) = taskID :=
  drop_left' (by rw [length_append]; rfl)

namespace Mirrors

variable {root : Bytes} {etcd etcd' : Etcd} {latest latest' : Bytes → Option Position}
  {st : EtcdStorage} {taskID : Bytes}

section

variable (h : Mirrors root etcd latest st)
include h

lemma write (hetcd : ∀ k, k ≠ key root taskID → etcd'.lookup k = etcd.lookup k)
    (hlatest : ∀ t, t ≠ taskID → latest' t = latest t) (hawaits : ¬ st.Awaits root taskID)
    (hcopy : ∀ pos, st.offset.lookup taskID = some pos →
      latest' taskID = some pos ∨ ∃ data, st.lock = .saving taskID pos data) :
    Mirrors root etcd' latest' st where
  __ := h
  copied t pos hpos := by
    by_cases ht : t = taskID
    · subst ht
      exact hcopy pos hpos
    · rw [hlatest t ht]
      exact h.copied t pos hpos
  answered t pos hload := by
    have ht : t ≠ taskID := fun ht => hawaits (Or.inl ⟨_, hload, ht⟩)
    rw [hlatest t ht]
    exact h.answered t pos hload
  startup kvs hkvs kv hkv := by
    have hkey : kv.1 ≠ key root taskID := fun hkey => hawaits (Or.inr (hkvs ▸ ⟨kv, hkv, hkey⟩))
    rw [hetcd kv.1 hkey]
    exact h.startup kvs hkvs kv hkv

/-- The lock is released once the position of a `Save` is what is saved. -/
lemma release
    (hsaved : ∀ taskID pos data, st.lock = .saving taskID pos data → latest taskID = some pos) :
    Mirrors root etcd latest { st with lock := .free } where
  __ := h
  copied taskID pos hpos := by
    rcases h.copied taskID pos hpos with hlatest | ⟨data, hlock⟩
    · exact Or.inl hlatest
    · exact Or.inl (hsaved taskID pos data hlock)
  saving := nofun
  deleting := nofun
  flushing := nofun
  starting hne := ⟨(h.starting hne).1, rfl⟩

lemma withLoads {loads : List PendingLoad}
    (hloads : ∀ taskID pos, .answered taskID pos ∈ loads → latest taskID = some pos) :
    Mirrors root etcd latest { st with loads } :=
  { h with answered := hloads }

lemma insert (hlock : st.lock = .free) (hdone : st.startup = .done)
    (hpos : latest taskID = some pos) :
    Mirrors root etcd latest { st with offset := st.offset.insert taskID pos } where
  __ := h
  copied t p hp := by
    by_cases ht : t = taskID
    · subst ht
      rw [lookup_insert] at hp
      rw [← some.inj hp]
      exact Or.inl hpos
    · rw [lookup_insert_ne ht] at hp
      exact h.copied t p hp
  saving _ _ _ hsaving := by simp [hlock] at hsaving
  deleting _ hdeleting := by simp [hlock] at hdeleting
  flushing _ hflushing := by simp [hlock] at hflushing
  starting hne := absurd hdone hne

lemma save (hlock : st.lock = .free) (hdone : st.startup = .done) {data : Bytes}
    (hmarshal : pos.marshal = some data) (hunmarshal : unmarshal data = some pos) :
    Mirrors root etcd latest
      { st with offset := st.offset.insert taskID pos, lock := .saving taskID pos data } where
  __ := h
  copied t p hp := by
    by_cases ht : t = taskID
    · subst ht
      rw [lookup_insert] at hp
      obtain rfl := some.inj hp
      exact Or.inr ⟨data, rfl⟩
    · rw [lookup_insert_ne ht] at hp
      refine Or.inl ((h.copied t p hp).resolve_right ?_)
      simp [hlock]
  saving t p d hsaving := by
    cases hsaving
    exact ⟨lookup_insert _, hmarshal, hunmarshal⟩
  deleting := nofun
  flushing := nofun
  starting hne := absurd hdone hne

lemma delete (hlock : st.lock = .free) (hdone : st.startup = .done) (taskID : Bytes) :
    Mirrors root etcd latest
      { st with offset := st.offset.erase taskID, lock := .deleting taskID } where
  __ := h
  copied t p hp := by
    by_cases ht : t = taskID
    · subst ht
      rw [lookup_erase] at hp
      cases hp
    · rw [lookup_erase_ne ht] at hp
      refine Or.inl ((h.copied t p hp).resolve_right ?_)
      simp [hlock]
  saving := nofun
  deleting t hdeleting := by
    cases hdeleting
    exact lookup_erase _ _
  flushing := nofun
  starting hne := absurd hdone hne

lemma flush (hlock : ∀ t p d, st.lock ≠ .saving t p d) (hdone : st.startup = .done)
    {left : List (Bytes × Position)}
    (hleft : ∀ entry ∈ left, st.offset.lookup entry.1 = some entry.2) :
    Mirrors root etcd latest { st with lock := .flushing left } where
  __ := h
  copied t p hp := by
    refine Or.inl ((h.copied t p hp).resolve_right ?_)
    rintro ⟨d, hd⟩
    exact hlock t p d hd
  saving := nofun
  deleting := nofun
  flushing left' hflushing := by
    cases hflushing
    exact hleft
  starting hne := absurd hdone hne

end

end Mirrors

lemma lookup_loadAll {root : Bytes} {kvs : List (Bytes × Bytes)} {offset : Offsets}
    {taskID : Bytes} (h : (loadAll root offset kvs).lookup taskID = some pos) :
    (∃ kv ∈ kvs, taskOf root kv.1 = taskID ∧ unmarshal kv.2 = some pos) ∨
      offset.lookup taskID = some pos := by
  induction kvs generalizing offset with
  | nil => exact Or.inr h
  | cons kv kvs ih =>
    rw [loadAll, foldl_cons] at h
    rcases ih h with ⟨kv', hkv', hfrom⟩ | h
    · exact Or.inl ⟨kv', mem_cons_of_mem _ hkv', hfrom⟩
    · split at h
      · next p hp =>
        by_cases ht : taskID = taskOf root kv.1
        · subst ht
          rw [lookup_insert] at h
          exact Or.inl ⟨kv, mem_cons_self, rfl, hp.trans h⟩
        · rw [lookup_insert_ne ht] at h
          exact Or.inr h
      · exact Or.inr h

namespace Coherent

variable {root : Bytes} {latest : Bytes → Option Position} {s : Cluster} {st st' : EtcdStorage}
  {taskID data : Bytes} {n : ℕ} {next : EtcdStorage × Etcd × List Effect}

lemma latest_eq (h : Coherent root latest s) (hdata : s.etcd.lookup (key root taskID) = some data)
    (hpos : unmarshal data = some pos) : latest taskID = some pos := by
  have hstands := h.stands taskID
  rw [hdata] at hstands
  obtain ⟨p, hlatest, -, hunmarshal⟩ := hstands.exists_pos
  rw [hlatest, ← hunmarshal, hpos]

lemma set (h : Coherent root latest s) (i : ℕ) (hst : Mirrors root s.etcd latest st') :
    Coherent root latest { s with instances := s.instances.set i st' } where
  keys := h.keys
  stands := h.stands
  mirrors st hst' := by
    rcases mem_or_eq_of_mem_set hst' with hst' | rfl
    · exact h.mirrors st hst'
    · exact hst

lemma withEtcd (h : Coherent root latest s) {etcd : Etcd}
    (hetcd : ∀ k, etcd.lookup k = s.etcd.lookup k) : Coherent root latest { s with etcd } where
  keys k data hdata := h.keys k data ((hetcd k).symm.trans hdata)
  stands taskID := by
    rw [show ({ s with etcd } : Cluster).etcd = etcd from rfl, hetcd]
    exact h.stands taskID
  mirrors st hst :=
    { h.mirrors st hst with
      startup := fun kvs hkvs kv hkv =>
        (hetcd kv.1).trans ((h.mirrors st hst).startup kvs hkvs kv hkv) }

lemma write (h : Coherent root latest s) {i : ℕ} (hst : s.instances[i]? = some st)
    (halone : s.Alone root i taskID) {etcd : Etcd} {latest' : Bytes → Option Position}
    (hetcd : ∀ k, k ≠ key root taskID → etcd.lookup k = s.etcd.lookup k)
    (hlatest : ∀ t, t ≠ taskID → latest' t = latest t)
    (hstands : Stands (etcd.lookup (key root taskID)) (latest' taskID))
    (hcopy : ∀ pos, st.offset.lookup taskID = some pos → latest' taskID = some pos)
    (hsaved : ∀ t pos data, st.lock = .saving t pos data → latest' t = some pos) :
    Coherent root latest' { etcd, instances := s.instances.set i { st with lock := .free } } where
  keys k data hdata := by
    by_cases hk : k = key root taskID
    · exact ⟨taskID, hk⟩
    · exact h.keys k data ((hetcd k hk).symm.trans hdata)
  stands t := by
    by_cases ht : t = taskID
    · subst ht
      exact hstands
    · have hk : key root t ≠ key root taskID := fun hk => ht (append_cancel_left hk)
      rw [hlatest t ht, show ∀ l, (Cluster.mk etcd l).etcd = etcd from fun _ => rfl, hetcd _ hk]
      exact h.stands t
  mirrors st' hst' := by
    obtain ⟨j, hj⟩ := mem_iff_getElem?.mp hst'
    by_cases hji : i = j
    · -- The instance itself: its copy of the task, if it has one, is what is now saved.
      subst hji
      have hlength : i < s.instances.length := (List.getElem?_eq_some_iff.mp hst).1
      rw [getElem?_set_self hlength] at hj
      rw [← some.inj hj]
      have hself := halone (st, i) (mem_zipIdx_iff_getElem?.mpr hst)
      refine Mirrors.release ?_ hsaved
      exact (h.mirrors st (mem_of_getElem? hst)).write hetcd hlatest hself.2
        fun pos hpos => Or.inl (hcopy pos hpos)
    · -- Another instance has no copy of it.
      rw [getElem?_set_ne hji] at hj
      have hother := halone (st', j) (mem_zipIdx_iff_getElem?.mpr hj)
      have hnone := hother.1 (Ne.symm hji)
      refine (h.mirrors st' (mem_of_getElem? hj)).write hetcd hlatest hother.2 ?_
      intro pos hpos
      rw [hnone] at hpos
      cases hpos

/-- After a step of an instance that returns what is saved, the copies are those of etcd. -/
def Continues (root : Bytes) (latest : Bytes → Option Position) (s : Cluster) (i : ℕ)
    (next : EtcdStorage × Etcd × List Effect) : Prop :=
  LoadsLatest latest next.2.2 ∧ Coherent root (latestAfter latest next.2.2)
    { etcd := next.2.1, instances := s.instances.set i next.1 }

variable {i : ℕ} {es : List Effect} {action : Action}

section

variable (h : Coherent root latest s) (hst : s.instances[i]? = some st)
include h hst

lemma startStep (hstep : st.startStep root s.etcd action = some next) :
    Continues root latest s i next := by
  have hmirrors := h.mirrors st (mem_of_getElem? hst)
  cases action with
  | getAll =>
    simp only [EtcdStorage.startStep] at hstep
    split at hstep
    · next hasking =>
      cases hstep
      refine ⟨trivial, h.set i { hmirrors with startup := ?_, starting := ?_ }⟩
      · -- The answer is what etcd holds now.
        intro kvs hkvs kv hkv
        obtain rfl := Startup.answered.inj hkvs
        obtain ⟨entry, hentry, rfl⟩ := List.mem_map.mp hkv
        exact mem_lookup_iff.mpr (mem_of_mem_filter hentry)
      · exact fun _ => hmirrors.starting (by simp [hasking])
    · cases hstep
  | storeAll =>
    simp only [EtcdStorage.startStep] at hstep
    split at hstep
    · next kvs hanswered =>
      cases hstep
      obtain ⟨hempty, hfree⟩ := hmirrors.starting (by simp [hanswered])
      -- Nothing is in the copy yet, so all of it comes from the answer.
      have hcopy : ∀ taskID pos, (loadAll root st.offset kvs).lookup taskID = some pos →
          latest taskID = some pos := by
        intro taskID pos hpos
        rcases lookup_loadAll hpos with ⟨kv, hkv, htask, hunmarshal⟩ | hpos
        · have hdata := hmirrors.startup kvs hanswered kv hkv
          obtain ⟨t, ht⟩ := h.keys _ _ hdata
          rw [ht, taskOf_key] at htask
          subst htask
          rw [ht] at hdata
          exact h.latest_eq hdata hunmarshal
        · rw [hempty] at hpos
          cases hpos
      refine ⟨trivial, h.set i ⟨fun t p hp => Or.inl (hcopy t p hp), ?_, ?_, ?_,
        hmirrors.answered, ?_, fun hne => absurd rfl hne⟩⟩
      iterate 3 simp [hfree]
      exact nofun
    · cases hstep
  | _ => cases hstep

lemma put (hlock : st.lock = .saving taskID pos data) (halone : s.Alone root i taskID) :
    Continues root latest s i
      ({ st with lock := .free }, s.etcd.insert (key root taskID) data, [.saved taskID pos]) := by
  obtain ⟨hcopy, hmarshal, hunmarshal⟩ :=
    (h.mirrors st (mem_of_getElem? hst)).saving taskID pos data hlock
  refine ⟨⟨trivial, trivial⟩, ?_⟩
  rw [show latestAfter latest [.saved taskID pos] =
    Function.update latest taskID (some pos) from rfl]
  refine h.write hst halone (fun k hk => lookup_insert_ne hk)
    (fun t ht => update_of_ne ht _ _) ?_ ?_ ?_
  · rw [lookup_insert, update_self]
    exact .present hmarshal hunmarshal
  · -- The copy was changed when the call began.
    intro pos' hpos'
    rw [hcopy] at hpos'
    rw [update_self, hpos']
  · intro t p d hsaving
    rw [hlock] at hsaving
    obtain ⟨rfl, rfl, -⟩ := Lock.saving.inj hsaving
    exact update_self _ _ _

lemma remove (hlock : st.lock = .deleting taskID) (halone : s.Alone root i taskID) :
    Continues root latest s i
      ({ st with lock := .free }, s.etcd.erase (key root taskID), [.deleted taskID]) := by
  have hmirrors := h.mirrors st (mem_of_getElem? hst)
  refine ⟨⟨trivial, trivial⟩, ?_⟩
  rw [show latestAfter latest [.deleted taskID] = Function.update latest taskID none from rfl]
  refine h.write hst halone (fun k hk => lookup_erase_ne hk)
    (fun t ht => update_of_ne ht _ _) ?_ ?_ ?_
  · rw [lookup_erase, update_self]
    exact .absent
  · -- The copy was removed when the call began.
    intro pos' hpos'
    rw [hmirrors.deleting taskID hlock] at hpos'
    exact nomatch hpos'
  · exact fun t p d hsaving => nomatch hlock.symm.trans hsaving

lemma loadCopy (hreadable : st.readable = true) (hpos : st.offset.lookup taskID = some pos) :
    Continues root latest s i (st, s.etcd, [.loaded taskID (some pos)]) := by
  have hmirrors := h.mirrors st (mem_of_getElem? hst)
  have hlatest : latest taskID = some pos := by
    refine (hmirrors.copied taskID pos hpos).resolve_right ?_
    rintro ⟨data, hlock⟩
    rw [EtcdStorage.readable, hlock] at hreadable
    exact nomatch hreadable
  exact ⟨⟨hlatest.symm, trivial⟩, h.set i hmirrors⟩

lemma setLoads {loads : List PendingLoad}
    (hloads : ∀ t p, .answered t p ∈ loads → .answered t p ∈ st.loads ∨ latest t = some p)
    (hes : LoadsLatest latest es) (hlatest : latestAfter latest es = latest) :
    Continues root latest s i ({ st with loads }, s.etcd, es) := by
  have hmirrors := h.mirrors st (mem_of_getElem? hst)
  refine ⟨hes, ?_⟩
  rw [show latestAfter latest es = latest from hlatest]
  refine h.set i (hmirrors.withLoads fun t p hload => ?_)
  exact (hloads t p hload).elim (hmirrors.answered t p) id

lemma getMissing (n : ℕ) (hnone : s.etcd.lookup (key root taskID) = none) :
    Continues root latest s i
      ({ st with loads := st.loads.eraseIdx n }, s.etcd, [.loaded taskID none]) := by
  have hstands := h.stands taskID
  rw [hnone] at hstands
  exact h.setLoads hst (fun t p hload => .inl (mem_of_mem_eraseIdx hload))
    ⟨hstands.eq_none.symm, trivial⟩ rfl

lemma getData (n : ℕ) (hdata : s.etcd.lookup (key root taskID) = some data)
    (hpos : unmarshal data = some pos) :
    Continues root latest s i
      ({ st with loads := st.loads.set n (.answered taskID pos) }, s.etcd, []) := by
  refine h.setLoads hst (fun t p hload => ?_) trivial rfl
  refine (mem_or_eq_of_mem_set hload).imp_right fun heq => ?_
  obtain ⟨rfl, rfl⟩ := PendingLoad.answered.inj heq
  exact h.latest_eq hdata hpos

lemma flushPut (hdone : st.startup = .done) {left : List (Bytes × Position)}
    (hlock : st.lock = .flushing left) (hentry : left[n]? = some (taskID, pos)) :
    ∃ data, pos.marshal = some data ∧ Continues root latest s i
      ({ st with lock := if left.eraseIdx n = [] then .free else .flushing (left.eraseIdx n) },
        s.etcd.insert (key root taskID) data, []) := by
  have hmirrors := h.mirrors st (mem_of_getElem? hst)
  have hleft := hmirrors.flushing left hlock
  have hsaving : ∀ t p d, st.lock ≠ .saving t p d := by simp [hlock]
  have hlatest : latest taskID = some pos := by
    have hcopy := hleft _ (mem_of_getElem? hentry)
    refine (hmirrors.copied taskID pos hcopy).resolve_right ?_
    rintro ⟨data, hsaved⟩
    exact hsaving _ _ _ hsaved
  have hstands := h.stands taskID
  rw [hlatest] at hstands
  obtain ⟨data, hdata, hmarshal⟩ := hstands.exists_data
  have hetcd : ∀ k, (s.etcd.insert (key root taskID) data).lookup k = s.etcd.lookup k := by
    intro k
    by_cases hk : k = key root taskID
    · rw [hk, lookup_insert, hdata]
    · exact lookup_insert_ne hk
  have hst' : Mirrors root s.etcd latest
      { st with lock := if left.eraseIdx n = [] then .free else .flushing (left.eraseIdx n) } := by
    split_ifs
    · exact hmirrors.release fun t p d hsaved => absurd hsaved (hsaving t p d)
    · exact hmirrors.flush hsaving hdone fun entry hentry =>
        hleft entry (mem_of_mem_eraseIdx hentry)
  exact ⟨data, hmarshal, trivial, (h.set i hst').withEtcd hetcd⟩

lemma getStep (hstep : st.callStep root s.etcd (.get n) = some next) :
    Continues root latest s i next := by
  simp only [EtcdStorage.callStep] at hstep
  split at hstep
  · next taskID hload =>
    split at hstep
    · next hnone =>
      obtain rfl := some.inj hstep
      exact h.getMissing hst n hnone
    · next data hdata =>
      split at hstep
      · next pos hpos =>
        obtain rfl := some.inj hstep
        exact h.getData hst n hdata hpos
      · -- What etcd holds can be decoded.
        next hfails =>
          have hstands := h.stands taskID
          rw [hdata] at hstands
          obtain ⟨p, -, -, hunmarshal⟩ := hstands.exists_pos
          simp [hunmarshal] at hfails
  · exact nomatch hstep

lemma storeStep (hdone : st.startup = .done)
    (hstep : st.callStep root s.etcd (.store n) = some next) : Continues root latest s i next := by
  have hmirrors := h.mirrors st (mem_of_getElem? hst)
  simp only [EtcdStorage.callStep] at hstep
  split at hstep
  · next taskID pos hload =>
    rw [ite_none_right_eq_some] at hstep
    obtain ⟨hlock, hstep⟩ := hstep
    obtain rfl := some.inj hstep
    have hlatest := hmirrors.answered taskID pos (mem_of_getElem? hload)
    refine ⟨⟨hlatest.symm, trivial⟩, h.set i ?_⟩
    exact (hmirrors.insert hlock hdone hlatest).withLoads fun t p hload =>
      hmirrors.answered t p (mem_of_mem_eraseIdx hload)
  · exact nomatch hstep

lemma callStep (hdone : st.startup = .done) (halone : WritesAlone root s (.act i action))
    (hstep : st.callStep root s.etcd action = some next) : Continues root latest s i next := by
  have hmirrors := h.mirrors st (mem_of_getElem? hst)
  cases action with
  | getAll | storeAll => exact nomatch hstep
  | save taskID pos =>
    have hsurvives : Survives pos := halone
    rw [EtcdStorage.callStep, ite_none_right_eq_some] at hstep
    obtain ⟨hlock, hstep⟩ := hstep
    obtain ⟨data, hmarshal, hunmarshal⟩ := bind_eq_some_iff.mp hsurvives
    simp only [hmarshal] at hstep
    obtain rfl := some.inj hstep
    exact ⟨trivial, h.set i (hmirrors.save hlock hdone hmarshal hunmarshal)⟩
  | put =>
    simp only [EtcdStorage.callStep] at hstep
    split at hstep
    · next taskID pos data hlock =>
      obtain rfl := some.inj hstep
      exact h.put hst hlock (halone st hst taskID (by rw [EtcdStorage.writes, hlock]; rfl))
    · exact nomatch hstep
  | delete taskID =>
    rw [EtcdStorage.callStep, ite_none_right_eq_some] at hstep
    obtain ⟨hlock, hstep⟩ := hstep
    obtain rfl := some.inj hstep
    exact ⟨trivial, h.set i (hmirrors.delete hlock hdone taskID)⟩
  | remove =>
    simp only [EtcdStorage.callStep] at hstep
    split at hstep
    · next taskID hlock =>
      obtain rfl := some.inj hstep
      exact h.remove hst hlock (halone st hst taskID (by rw [EtcdStorage.writes, hlock]; rfl))
    · exact nomatch hstep
  | load taskID =>
    rw [EtcdStorage.callStep, ite_none_right_eq_some] at hstep
    obtain ⟨hreadable, hstep⟩ := hstep
    split at hstep
    · next pos hpos =>
      obtain rfl := some.inj hstep
      exact h.loadCopy hst hreadable hpos
    · obtain rfl := some.inj hstep
      refine h.setLoads hst (fun t p hload => ?_) trivial rfl
      exact .inl (by simpa using hload)
  | get n => exact h.getStep hst hstep
  | store n => exact h.storeStep hst hdone hstep
  | flush =>
    rw [EtcdStorage.callStep, ite_none_right_eq_some] at hstep
    obtain ⟨⟨hlock, -⟩, hstep⟩ := hstep
    obtain rfl := some.inj hstep
    refine ⟨trivial, h.set i (hmirrors.flush (by simp [hlock]) hdone ?_)⟩
    intro entry hentry
    obtain ⟨e, he, rfl⟩ := List.mem_map.mp hentry
    exact mem_lookup_iff.mpr he
  | flushPut n =>
    simp only [EtcdStorage.callStep] at hstep
    split at hstep
    · next left hlock =>
      split at hstep
      · next taskID pos hentry =>
        obtain ⟨data, hmarshal, hcontinues⟩ := h.flushPut hst hdone hlock hentry
        simp only [hmarshal] at hstep
        obtain rfl := some.inj hstep
        exact hcontinues
      · exact nomatch hstep
    · exact nomatch hstep

omit hst in
/-- One step: every `Load` that returns in it returns what is saved. -/
theorem step {move : Move} (halone : WritesAlone root s move) :
    LoadsLatest latest ((cluster root).step s move).2 ∧
      Coherent root (latestAfter latest ((cluster root).step s move).2)
        ((cluster root).step s move).1 := by
  cases move with
  | create =>
    refine ⟨trivial, h.keys, h.stands, ?_⟩
    intro st hst
    rcases mem_append.mp hst with hst | hst
    · exact h.mirrors st hst
    · rw [mem_singleton.mp hst]
      constructor <;> simp [newEtcdStorage]
  | act i action =>
    cases hact : s.instances[i]?.bind fun st => st.act root s.etcd action with
    | none =>
      simp only [cluster, hact]
      exact ⟨trivial, h⟩
    | some next =>
      simp only [cluster, hact]
      obtain ⟨st, hst, hstep⟩ := bind_eq_some_iff.mp hact
      rw [EtcdStorage.act] at hstep
      split at hstep
      · next hdone => exact h.callStep hst hdone halone hstep
      · exact h.startStep hst hstep

end

end Coherent

/-- **A `Load` returns the position last saved**, for any number of instances on one prefix and
every interleaving in which saved positions survive JSON and a task is written to etcd only when no
other instance has a copy of its position and none an answer about it that it has not stored yet. -/
theorem loads_latest (root : Bytes) (moves : List Move)
    (hmoves : (cluster root).Meets (WritesAlone root) .start moves) :
    LoadsLatest (fun _ => none) ((cluster root).run .start moves).2 := by
  have hstart : Coherent root (fun _ => none) .start := by
    refine ⟨?_, fun _ => .absent, ?_⟩
    · intro k data hdata
      cases hdata
    · intro st hst
      cases hst
  have hrun := (cluster root).run_induction_of_meets
    (motive := fun s es => LoadsLatest (fun _ => none) es ∧
      Coherent root (latestAfter (fun _ => none) es) s) hmoves ⟨trivial, hstart⟩ ?_
  · exact hrun.1
  · intro s es move halone ⟨hloads, hcoherent⟩
    obtain ⟨hstep, hnext⟩ := hcoherent.step halone
    rw [latestAfter_append, loadsLatest_append]
    exact ⟨⟨hloads, hstep⟩, hnext⟩

def binlogAt (pos : UInt32) : Position :=
  { zero with binlogFile := lit "binlog.000007", binlogPos := pos }

def startUp (i : ℕ) : List Move := [.create, .act i .getAll, .act i .storeAll]

def saveMoves (i : ℕ) (taskID : Bytes) (pos : Position) : List Move :=
  [.act i (.save taskID pos), .act i .put]

/-- One instance saves a position and flushes; a second one starts up, answers from its copy and
saves another task, which the first one reads from etcd. -/
def sharedOffsets : List Move :=
  startUp 0 ++ saveMoves 0 (lit "orders") (binlogAt 4) ++
    [.act 0 .flush, .act 0 (.flushPut 0)] ++ startUp 1 ++ [.act 1 (.load (lit "orders"))] ++
    saveMoves 1 (lit "users") (binlogAt 8) ++
    [.act 0 (.load (lit "users")), .act 0 (.get 0), .act 0 (.store 0)]

theorem loads_latest_sharedOffsets :
    ((cluster (lit "/offsets")).run .start sharedOffsets).2 =
        [.saved (lit "orders") (binlogAt 4), .loaded (lit "orders") (some (binlogAt 4)),
          .saved (lit "users") (binlogAt 8), .loaded (lit "users") (some (binlogAt 8))] ∧
      LoadsLatest (fun _ => none) ((cluster (lit "/offsets")).run .start sharedOffsets).2 :=
  ⟨by decide, loads_latest (lit "/offsets") sharedOffsets (by decide)⟩

/-- One instance saves, a second one starts up, the first one saves again, and the second one
answers from its copy. -/
theorem not_forall_loads_latest :
    ¬ ∀ (root : Bytes) (moves : List Move),
      LoadsLatest (fun _ => none) ((cluster root).run .start moves).2 := by
  intro h
  have hrun : ((cluster (lit "/offsets")).run .start
      (startUp 0 ++ saveMoves 0 (lit "orders") (binlogAt 4) ++ startUp 1 ++
        saveMoves 0 (lit "orders") (binlogAt 8) ++ [.act 1 (.load (lit "orders"))])).2 =
      [.saved (lit "orders") (binlogAt 4), .saved (lit "orders") (binlogAt 8),
        .loaded (lit "orders") (some (binlogAt 4))] := by
    decide
  have hloads := h (lit "/offsets") (startUp 0 ++ saveMoves 0 (lit "orders") (binlogAt 4) ++
    startUp 1 ++ saveMoves 0 (lit "orders") (binlogAt 8) ++ [.act 1 (.load (lit "orders"))])
  rw [hrun] at hloads
  obtain ⟨-, -, hstale, -⟩ := hloads
  have hpos : binlogAt 4 = binlogAt 8 := by
    simpa only [Effect.Agrees, Effect.update, update_self, some.injEq] using hstale
  exact absurd hpos (by decide)

end DataStream.Offset
