import DataStream.Offset.EtcdStorage

/-!
# The load at start-up

`loadAll` asks etcd for the keys that begin with the prefix, and takes what is left of a key after
the prefix and one more byte for a task ID. A key can begin with the prefix and not be that of a
task: it can be the prefix itself, or go on with another byte than a slash.

* `loadsExactly_iff`: for which contents of etcd the load is exact.
-/

namespace DataStream.Offset

open Event List Option AList Position

variable (root : Bytes)

/-- `loadAll` with its slice, which panics (`none`) if the key is not longer than the prefix. -/
def loadAllOrPanic (offset : Offsets) (kvs : List (Bytes × Bytes)) : Option Offsets :=
  kvs.foldlM (fun offset kv =>
    match unmarshal kv.2 with
    | some pos =>
      if root.length < kv.1.length then some (offset.insert (taskOf root kv.1) pos) else none
    | none => some offset) offset

/-- The answer of etcd to `loadAll`: the keys that begin with the prefix, in byte order. -/
def answer (etcd : Etcd) : List (Bytes × Bytes) :=
  ((etcd.entries.filter fun kv => root.isPrefixOf kv.1).map fun kv => (kv.1, kv.2)).mergeSort
    fun a b => a.1 ≤ b.1

/-- The position that is stored under a key. -/
def position (etcd : Etcd) (k : Bytes) : Option Position := (etcd.lookup k).bind unmarshal

/-- The load returns, and the copy has exactly the positions under the keys of tasks. -/
def LoadsExactly (etcd : Etcd) : Prop :=
  ∃ offset, loadAllOrPanic root ∅ (answer root etcd) = some offset ∧
    ∀ taskID, offset.lookup taskID = position etcd (key root taskID)

/-- Of the keys that are the prefix, one byte and a task, this byte makes the last one with a
position. -/
def IsLast (etcd : Etcd) (taskID : Bytes) (b : UInt8) (pos : Position) : Prop :=
  position etcd (root ++ b :: taskID) = some pos ∧
    ∀ b', b < b' → position etcd (root ++ b' :: taskID) = none

variable {root} {etcd : Etcd} {kvs : List (Bytes × Bytes)} {offset : Offsets}

lemma mem_answer {kv : Bytes × Bytes} :
    kv ∈ answer root etcd ↔ root <+: kv.1 ∧ etcd.lookup kv.1 = some kv.2 := by
  rw [answer, mem_mergeSort, List.mem_map]
  constructor
  · rintro ⟨entry, hentry, rfl⟩
    obtain ⟨hentry, hbegins⟩ := mem_filter.mp hentry
    exact ⟨by simpa using hbegins, mem_lookup_iff.mpr hentry⟩
  · rintro ⟨hbegins, hlookup⟩
    exact ⟨⟨kv.1, kv.2⟩, mem_filter.mpr ⟨mem_lookup_iff.mp hlookup, by simpa using hbegins⟩, rfl⟩

lemma pairwise_answer : (answer root etcd).Pairwise fun a b => a.1 < b.1 := by
  have hle : (answer root etcd).Pairwise fun a b => decide (a.1 ≤ b.1) = true :=
    pairwise_mergeSort (fun a b c => by simpa using List.le_trans)
      (fun a b => by simpa using List.le_total a.1 b.1) _
  have hne : (answer root etcd).Pairwise fun a b => a.1 ≠ b.1 := by
    refine ((mergeSort_perm _ _).pairwise_iff fun h => h.symm).mpr ?_
    refine pairwise_map.mpr (Pairwise.filter _ ?_)
    exact pairwise_map.mp etcd.nodupKeys
  refine (hle.and hne).imp fun h => ?_
  exact Std.lt_of_le_of_ne (by simpa using h.1) h.2

/-- The load panics exactly at a key that is not longer than the prefix and has a position. -/
lemma loadAllOrPanic_eq_some_iff {offset' : Offsets} :
    loadAllOrPanic root offset kvs = some offset' ↔
      (∀ kv ∈ kvs, (unmarshal kv.2).isSome → root.length < kv.1.length) ∧
        loadAll root offset kvs = offset' := by
  induction kvs generalizing offset with
  | nil => simp [loadAllOrPanic, loadAll]
  | cons kv kvs ih =>
    rw [loadAllOrPanic, foldlM_cons, loadAll, foldl_cons, forall_mem_cons]
    cases unmarshal kv.2 with
    | none => simpa [loadAllOrPanic, loadAll] using ih
    | some pos =>
      by_cases hlength : root.length < kv.1.length
      · simpa [loadAllOrPanic, loadAll, hlength] using ih
      · simp [hlength]

/-- The copy has the position of the last key that is loaded as the task. -/
lemma lookup_loadAll_iff (hsorted : kvs.Pairwise fun a b => a.1 < b.1) {taskID : Bytes}
    {pos : Position} :
    (loadAll root ∅ kvs).lookup taskID = some pos ↔
      ∃ kv ∈ kvs, taskOf root kv.1 = taskID ∧ unmarshal kv.2 = some pos ∧
        ∀ kv' ∈ kvs, kv.1 < kv'.1 → taskOf root kv'.1 = taskID → unmarshal kv'.2 = none := by
  induction kvs using reverseRecOn with
  | nil => simp [loadAll]
  | append_singleton kvs last ih =>
    obtain ⟨hkvs, -, hlast⟩ := pairwise_append.mp hsorted
    have hlast : ∀ kv ∈ kvs, kv.1 < last.1 := fun kv hkv => hlast kv hkv last (mem_singleton_self _)
    specialize ih hkvs
    simp only [loadAll, foldl_concat, mem_append, mem_singleton] at ih ⊢
    by_cases hcounts : taskOf root last.1 = taskID ∧ (unmarshal last.2).isSome
    · -- The last key is the one.
      obtain ⟨rfl, hsome⟩ := hcounts
      obtain ⟨p, hp⟩ := isSome_iff_exists.mp hsome
      rw [hp, lookup_insert]
      constructor
      · rintro ⟨rfl⟩
        refine ⟨last, .inr rfl, rfl, hp, ?_⟩
        rintro kv' (hkv' | rfl) hlt -
        · exact absurd hlt (List.lt_asymm (hlast kv' hkv'))
        · exact absurd hlt (List.lt_irrefl _)
      · rintro ⟨kv, hkv | rfl, -, hpos, hnone⟩
        · rw [hnone last (.inr rfl) (hlast kv hkv) rfl] at hp
          cases hp
        · exact hp.symm.trans hpos
    · have hsame : lookup taskID (match unmarshal last.2 with
          | some pos => AList.insert (taskOf root last.1) pos (loadAll root ∅ kvs)
          | none => loadAll root ∅ kvs) = lookup taskID (loadAll root ∅ kvs) := by
        split
        · next p hp => exact lookup_insert_ne fun heq => hcounts ⟨heq.symm, by simp [hp]⟩
        · rfl
      refine (iff_of_eq (congrArg (· = some pos) hsame)).trans (ih.trans ?_)
      constructor
      · rintro ⟨kv, hkv, htask, hpos, hnone⟩
        refine ⟨kv, .inl hkv, htask, hpos, ?_⟩
        rintro kv' (hkv' | rfl) hlt htask'
        · exact hnone kv' hkv' hlt htask'
        · exact not_isSome_iff_eq_none.mp fun hsome => hcounts ⟨htask', hsome⟩
      · rintro ⟨kv, hkv | rfl, htask, hpos, hnone⟩
        · exact ⟨kv, hkv, htask, hpos, fun kv' hkv' => hnone kv' (.inl hkv')⟩
        · exact absurd ⟨htask, by simp [hpos]⟩ hcounts

lemma isSome_lookup_loadAll {taskID : Bytes}
    (h : (offset.lookup taskID).isSome ∨
      ∃ kv ∈ kvs, taskOf root kv.1 = taskID ∧ (unmarshal kv.2).isSome) :
    ((loadAll root offset kvs).lookup taskID).isSome := by
  induction kvs generalizing offset with
  | nil => simpa [loadAll] using h
  | cons kv kvs ih =>
    rw [loadAll, foldl_cons]
    refine ih ?_
    by_cases htask : taskID = taskOf root kv.1
    · subst htask
      cases hpos : unmarshal kv.2 with
      | none => simpa [hpos] using h
      | some pos => simp
    · have hother : ∀ pos, (offset.insert (taskOf root kv.1) pos).lookup taskID =
          offset.lookup taskID := fun _ => lookup_insert_ne htask
      cases hpos : unmarshal kv.2 <;> simpa [hpos, hother, Ne.symm htask] using h

lemma append_cons_lt_iff {b b' : UInt8} {taskID : Bytes} :
    root ++ b :: taskID < root ++ b' :: taskID ↔ b < b' := by
  induction root with
  | nil => simp [cons_lt_cons_iff]
  | cons c root ih => simpa [cons_lt_cons_iff] using ih

lemma taskOf_append_cons (b : UInt8) (taskID : Bytes) :
    taskOf root (root ++ b :: taskID) = taskID := by
  simp [taskOf, drop_append]

/-- Without a position under the prefix itself, the load gives a task the position of the last of
its keys. -/
lemma lookup_loadAll_answer_iff (hroot : position etcd root = none) {taskID : Bytes}
    {pos : Position} :
    (loadAll root ∅ (answer root etcd)).lookup taskID = some pos ↔
      ∃ b, IsLast root etcd taskID b pos := by
  rw [lookup_loadAll_iff pairwise_answer]
  constructor
  · rintro ⟨⟨k, data⟩, hkv, rfl, hpos, hnone⟩
    obtain ⟨⟨rest, rfl⟩, hlookup⟩ := mem_answer.mp hkv
    have hposition : position etcd (root ++ rest) = some pos :=
      bind_eq_some_iff.mpr ⟨_, hlookup, hpos⟩
    cases rest with
    | nil => simp [hroot] at hposition
    | cons b taskID =>
      rw [taskOf_append_cons] at hnone ⊢
      refine ⟨b, hposition, fun b' hlt => bind_eq_none_iff.mpr fun data' hdata' => ?_⟩
      exact hnone (_, data') (mem_answer.mpr ⟨prefix_append _ _, hdata'⟩)
        (append_cons_lt_iff.mpr hlt) (taskOf_append_cons b' taskID)
  · rintro ⟨b, hposition, hnone⟩
    obtain ⟨data, hdata, hpos⟩ := bind_eq_some_iff.mp hposition
    refine ⟨(_, data), mem_answer.mpr ⟨prefix_append _ _, hdata⟩, taskOf_append_cons b taskID,
      hpos, ?_⟩
    rintro ⟨k, data'⟩ hkv' hlt htask
    obtain ⟨⟨rest, rfl⟩, hlookup⟩ := mem_answer.mp hkv'
    cases rest with
    | nil =>
      rw [append_nil] at hlookup
      exact bind_eq_none_iff.mp hroot data' hlookup
    | cons b' taskID' =>
      obtain rfl := (taskOf_append_cons b' taskID').symm.trans htask
      exact bind_eq_none_iff.mp (hnone b' (append_cons_lt_iff.mp hlt)) data' hlookup

lemma LoadsExactly.position_root (h : LoadsExactly root etcd) : position etcd root = none := by
  obtain ⟨offset, hload, -⟩ := h
  refine bind_eq_none_iff.mpr fun data hdata => not_isSome_iff_eq_none.mp fun hsome => ?_
  have hlength := (loadAllOrPanic_eq_some_iff.mp hload).1 (root, data)
    (mem_answer.mpr ⟨prefix_rfl, hdata⟩) hsome
  exact lt_irrefl _ hlength

lemma LoadsExactly.position_key (h : LoadsExactly root etcd) {taskID : Bytes} {b : UInt8}
    {pos : Position} (hlast : IsLast root etcd taskID b pos) :
    position etcd (key root taskID) = some pos := by
  have hroot := h.position_root
  obtain ⟨offset, hload, hlookup⟩ := h
  obtain ⟨-, rfl⟩ := loadAllOrPanic_eq_some_iff.mp hload
  rw [← hlookup, lookup_loadAll_answer_iff hroot]
  exact ⟨b, hlast⟩

/-- **When the load is exact.** For every content of etcd: the load is exact if and only if nothing
that can be decoded is stored under the prefix itself, and of the keys that are the prefix, one
byte and a task, the last one with a position has the position of the key with a slash. -/
theorem loadsExactly_iff (root : Bytes) (etcd : Etcd) :
    LoadsExactly root etcd ↔ position etcd root = none ∧ ∀ taskID b pos,
      IsLast root etcd taskID b pos → position etcd (key root taskID) = some pos := by
  refine ⟨fun h => ⟨h.position_root, fun _ _ _ hlast => h.position_key hlast⟩, ?_⟩
  rintro ⟨hroot, hlast⟩
  refine ⟨_, loadAllOrPanic_eq_some_iff.mpr ⟨?_, rfl⟩, fun taskID => ?_⟩
  · rintro ⟨k, data⟩ hkv hsome
    obtain ⟨⟨rest, rfl⟩, hlookup⟩ := mem_answer.mp hkv
    cases rest with
    | nil =>
      rw [append_nil] at hlookup
      simp [bind_eq_none_iff.mp hroot data hlookup] at hsome
    | cons b taskID => simp
  · have hloaded : ∀ pos, (loadAll root ∅ (answer root etcd)).lookup taskID = some pos →
        position etcd (key root taskID) = some pos := by
      intro pos hpos
      obtain ⟨b, hb⟩ := (lookup_loadAll_answer_iff hroot).mp hpos
      exact hlast taskID b pos hb
    -- A task with a position is loaded, with this or another one.
    refine Option.ext fun pos => ⟨hloaded pos, fun hstored => ?_⟩
    obtain ⟨data, hdata, hpos⟩ := bind_eq_some_iff.mp hstored
    have hmem : (key root taskID, data) ∈ answer root etcd :=
      mem_answer.mpr ⟨by simp [key], hdata⟩
    obtain ⟨pos', hpos'⟩ := isSome_iff_exists.mp
      (isSome_lookup_loadAll (.inr ⟨_, hmem, taskOf_key root taskID, by rw [hpos]; rfl⟩))
    rw [hpos', ← hloaded pos' hpos', hstored]

/-- With the prefix `/offsets`, the key `/offsets` makes the load panic, and `/offsets2/orders` is
loaded as the task `/orders`. -/
theorem not_loadsExactly_neighbours :
    ∃ data, ¬LoadsExactly (lit "/offsets") (singleton (lit "/offsets") data) ∧
      ¬LoadsExactly (lit "/offsets") (singleton (lit "/offsets2/orders") data) := by
  obtain ⟨data, -, hpos⟩ := bind_eq_some_iff.mp (show Survives zero by decide)
  have hself : ∀ k, position (singleton k data) k = some zero := fun k =>
    bind_eq_some_iff.mpr ⟨data, mem_lookup_iff.mpr (List.mem_singleton.mpr rfl), hpos⟩
  have hother : ∀ k k' : Bytes, k' ≠ k → position (singleton k data) k' = none := fun k k' hne =>
    bind_eq_none_iff.mpr fun data' hdata' =>
      absurd (congrArg Sigma.fst (List.mem_singleton.mp (mem_lookup_iff.mp hdata'))) hne
  refine ⟨data, fun h => ?_, fun h => ?_⟩
  · cases h.position_root.symm.trans (hself _)
  · have hlast : IsLast (lit "/offsets") (singleton (lit "/offsets2/orders") data) (lit "/orders")
        0x32 zero := by
      refine ⟨hself _, fun b' hlt => hother _ _ fun heq => ?_⟩
      have hb : b' = 0x32 := some.inj (congrArg (fun k : Bytes => k[8]?) heq)
      exact UInt8.lt_irrefl _ (hb ▸ hlt)
    have hkey := h.position_key hlast
    rw [hother _ _ (by decide)] at hkey
    cases hkey

end DataStream.Offset
