import DataStream.Foundations.Lockstep
import Mathlib.Data.Set.Function
import Mathlib.Data.Set.Insert
import Mathlib.Logic.Function.Basic

/-!
# Mirroring a set of rows in a keyed store

A store keeps documents under ids. Each change of a set of rows is turned into one write on its own:
an insert and an update write the document of the new row under the id of the new row, a delete
removes what stands under the id of the old row. The store mirrors the rows if it has exactly one
document for each row, under the id of the row.

* `Mirrors.write_iff`: one change keeps the mirror exactly if it is `Faithful`;
* `forall_mirrors_iff`: the same for every change of a history.
-/

namespace DataStream

open Function List

/-- A change of a set of rows. -/
inductive Change (R : Type) where
  | insert (row : R)
  | update (old row : R)
  | delete (old : R)

namespace Change

variable {R : Type}

def apply (rows : Set R) : Change R → Set R
  | .insert row => Insert.insert row rows
  | .update old row => Insert.insert row (rows \ {old})
  | .delete old => rows \ {old}

/-- A change that a set of rows can make. -/
def Valid (rows : Set R) : Change R → Prop
  | .insert row => row ∉ rows
  | .update old row => old ∈ rows ∧ (row = old ∨ row ∉ rows)
  | .delete old => old ∈ rows

end Change

/-- How a store keeps rows: `doc` is the document of a row, if it has one; `onInsert` and `onUpdate`
say what a write leaves under the id of the row, given what stood there before. -/
structure Layout (R K D : Type) where
  id : R → K
  doc : R → Option D
  onInsert : Option D → R → D
  onUpdate : Option D → R → D

namespace Layout

variable {R K D : Type} (L : Layout R K D)

/-- The store has exactly one document for each row. -/
structure Mirrors (store : K → Option D) (rows : Set R) : Prop where
  injOn : Set.InjOn L.id rows
  holds : ∀ r ∈ rows, ∃ d, L.doc r = some d ∧ store (L.id r) = some d
  alive : ∀ k, store k ≠ none → ∃ r ∈ rows, L.id r = k

/-- The write of the change leaves the document of the new row and nothing else behind. -/
def Faithful (rows : Set R) : Change R → Prop
  | .insert row => (∀ r ∈ rows, L.id r ≠ L.id row) ∧ L.doc row = some (L.onInsert none row)
  | .update old row => L.id row = L.id old ∧ L.doc row = some (L.onUpdate (L.doc old) row)
  | .delete _ => True

variable {L} {store : K → Option D} {rows : Set R}

namespace Mirrors

lemma eq_none (h : L.Mirrors store rows) {k : K} (hk : ∀ r ∈ rows, L.id r ≠ k) :
    store k = none := by
  by_contra hne
  obtain ⟨r, hr, rfl⟩ := h.alive k hne
  exact hk r hr rfl

lemma eq_doc (h : L.Mirrors store rows) {r : R} (hr : r ∈ rows) : store (L.id r) = L.doc r := by
  obtain ⟨d, hdoc, hstore⟩ := h.holds r hr
  rw [hstore, hdoc]

lemma id_ne (h : L.Mirrors store rows) {r r' : R} (hr : r ∈ rows) (hr' : r' ∈ rows \ {r}) :
    L.id r' ≠ L.id r := fun heq => hr'.2 (h.injOn hr'.1 hr heq)

end Mirrors

section Writes

variable [DecidableEq K]

def write (L : Layout R K D) (store : K → Option D) : Change R → K → Option D
  | .insert row => update store (L.id row) (some (L.onInsert (store (L.id row)) row))
  | .update _ row => update store (L.id row) (some (L.onUpdate (store (L.id row)) row))
  | .delete old => update store (L.id old) none

namespace Mirrors

lemma put (h : L.Mirrors store rows) {others : Set R} (hsub : others ⊆ rows) {row : R} {d : D}
    (hdoc : L.doc row = some d) (hid : ∀ r ∈ others, L.id r ≠ L.id row)
    (hgone : ∀ r ∈ rows, r ∉ others → L.id r = L.id row) :
    L.Mirrors (update store (L.id row) (some d)) (Insert.insert row others) where
  injOn := by
    rintro r (rfl | hr) r' (rfl | hr') heq
    · rfl
    · exact absurd heq.symm (hid r' hr')
    · exact absurd heq (hid r hr)
    · exact h.injOn (hsub hr) (hsub hr') heq
  holds := by
    rintro r (rfl | hr)
    · exact ⟨d, hdoc, update_self _ _ _⟩
    · rw [update_of_ne (hid r hr)]
      exact h.holds r (hsub hr)
  alive k hk := by
    by_cases hkid : k = L.id row
    · exact ⟨row, Set.mem_insert _ _, hkid.symm⟩
    · -- A row with another id than the new one is not among those that are gone.
      rw [update_of_ne hkid] at hk
      obtain ⟨r, hr, rfl⟩ := h.alive k hk
      have hmem : r ∈ others := by
        by_contra hnot
        exact hkid (hgone r hr hnot)
      exact ⟨r, Set.mem_insert_of_mem _ hmem, rfl⟩

/-- **One change.** A mirror stays one exactly if the change is faithful. -/
theorem write_iff (h : L.Mirrors store rows) {c : Change R} (hvalid : c.Valid rows) :
    L.Mirrors (L.write store c) (c.apply rows) ↔ L.Faithful rows c := by
  rcases c with row | ⟨old, row⟩ | old
  · constructor
    · intro h'
      have hid : ∀ r ∈ rows, L.id r ≠ L.id row := by
        intro r hr heq
        have hrow := h'.injOn (Set.mem_insert_of_mem _ hr) (Set.mem_insert _ _) heq
        exact hvalid (hrow ▸ hr)
      refine ⟨hid, ?_⟩
      rw [← h'.eq_doc (Set.mem_insert _ _)]
      simp only [write, update_self, h.eq_none hid]
    · rintro ⟨hid, hdoc⟩
      have hput := h.put subset_rfl hdoc hid fun r hr hnot => absurd hr hnot
      simpa only [write, Change.apply, h.eq_none hid] using hput
  · obtain ⟨hold, -⟩ := hvalid
    constructor
    · intro h'
      -- If the row moved to another id, its document would be left under the old one.
      have hid : L.id row = L.id old := by
        by_contra hne
        have hleft : L.write store (.update old row) (L.id old) ≠ none := by
          obtain ⟨d, -, hstore⟩ := h.holds old hold
          rw [write, update_of_ne (Ne.symm hne), hstore]
          exact Option.some_ne_none d
        obtain ⟨r, hr, heq⟩ := h'.alive _ hleft
        rcases hr with rfl | hr
        · exact hne heq
        · exact h.id_ne hold hr heq
      refine ⟨hid, ?_⟩
      rw [← h'.eq_doc (Set.mem_insert _ _)]
      simp only [write, update_self, hid, h.eq_doc hold]
    · rintro ⟨hid, hdoc⟩
      have hsub : rows \ {old} ⊆ rows := Set.sdiff_subset
      have hgone : ∀ r ∈ rows, r ∉ rows \ {old} → L.id r = L.id row := by
        intro r hr hnot
        have heq : r = old := by
          by_contra hne
          exact hnot ⟨hr, hne⟩
        rw [heq, hid]
      have hput := h.put hsub hdoc (fun r hr => hid ▸ h.id_ne hold hr) hgone
      simpa only [write, Change.apply, hid, h.eq_doc hold] using hput
  · refine ⟨fun _ => trivial, fun _ => ⟨h.injOn.mono Set.sdiff_subset, ?_, ?_⟩⟩
    · intro r hr
      rw [write, update_of_ne (h.id_ne hvalid hr)]
      exact h.holds r hr.1
    · intro k hk
      have hkid : k ≠ L.id old := by
        rintro rfl
        exact hk (update_self _ _ _)
      rw [write, update_of_ne hkid] at hk
      obtain ⟨r, hr, rfl⟩ := h.alive k hk
      refine ⟨r, ⟨hr, ?_⟩, rfl⟩
      rintro rfl
      exact hkid rfl

end Mirrors

/-- **Whole histories.** The store mirrors the rows after every change of a history exactly if every
change is faithful. -/
theorem forall_mirrors_iff (h : L.Mirrors store rows) {history : List (Change R)}
    (hvalid : Along Change.apply Change.Valid rows history) :
    (∀ past, past <+: history →
      L.Mirrors (past.foldl L.write store) (past.foldl Change.apply rows)) ↔
      Along Change.apply L.Faithful rows history := by
  induction history generalizing store rows with
  | nil =>
    refine ⟨fun _ => trivial, fun _ past hpast => ?_⟩
    rw [prefix_nil.mp hpast]
    exact h
  | cons c history ih =>
    obtain ⟨hc, hrest⟩ := hvalid
    rw [forall_past_cons]
    constructor
    · rintro ⟨-, hall⟩
      have hfirst : L.Mirrors (L.write store c) (c.apply rows) := hall [] nil_prefix
      exact ⟨(h.write_iff hc).mp hfirst, (ih hfirst hrest).mp hall⟩
    · rintro ⟨hfaithful, hfaithfuls⟩
      exact ⟨h, (ih ((h.write_iff hc).mpr hfaithful) hrest).mpr hfaithfuls⟩

end Writes

end Layout

end DataStream
