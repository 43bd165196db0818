import Mathlib.Data.List.Induction
import Mathlib.Data.List.Nodup
import Mathlib.Tactic.Common

/-!
# Edits of a list without duplicates

A batch of edits takes items away from a list, renames items and adds new ones at the end. All edits
name their items as they are before the batch. A follower that applies the edits one after the
other, each to the first item of the name, comes to the same list, unless it renames an item to the
name of an item that it has yet to rename.

* `foldl_erase_append`: removals one after the other;
* `foldl_replace_append`: renamings one after the other.
-/

namespace DataStream.ListEdits

open List

variable {α : Type*}

/-! ## Removals -/

variable {items : List α} {changes : List (α × α)}

/-- Removals one after the other take away exactly the named items, also where a new item has the
name. -/
theorem foldl_erase_append [BEq α] [LawfulBEq α] {drops : List α} (added : List α)
    (hitems : items.Nodup) (hdrops : drops.Nodup) (hmem : ∀ d ∈ drops, d ∈ items) :
    drops.foldl List.erase (items ++ added) = items.filter (fun x => x ∉ drops) ++ added := by
  induction drops generalizing items with
  | nil => simp
  | cons d drops ih =>
    obtain ⟨hd, hnodup⟩ := nodup_cons.mp hdrops
    have hrest : ∀ d' ∈ drops, d' ∈ items.erase d := by
      intro d' hd'
      have hne : d' ≠ d := fun heq => hd (heq ▸ hd')
      exact (mem_erase_of_ne hne).mpr (hmem d' (mem_cons_of_mem _ hd'))
    rw [foldl_cons, erase_append_left _ (hmem d mem_cons_self),
      ih (hitems.erase d) hnodup hrest, hitems.erase_eq_filter, List.filter_filter]
    refine congrArg (· ++ added) (filter_congr fun x _ => ?_)
    simp [bne, Bool.and_comm, ← beq_iff_eq]

/-! ## Renamings -/

variable [DecidableEq α]

/-- The name of an item after a batch of renamings, given as old and new names. -/
def renamed (changes : List (α × α)) (item : α) : α :=
  ((changes.find? fun change => change.1 = item).map Prod.snd).getD item

lemma renamed_of_forall_ne {item : α} (h : ∀ change ∈ changes, change.1 ≠ item) :
    renamed changes item = item := by
  have hfind : changes.find? (fun change => change.1 = item) = none :=
    find?_eq_none.mpr fun change hchange => by simpa using h change hchange
  rw [renamed, hfind]
  rfl

lemma renamed_concat {old : α} (new item : α) (h : ∀ change ∈ changes, change.1 ≠ old) :
    renamed (changes ++ [(old, new)]) item = if item = old then new else renamed changes item := by
  have hfind : old = item → changes.find? (fun change => change.1 = item) = none := by
    rintro rfl
    exact find?_eq_none.mpr fun change hchange => by simpa using h change hchange
  rw [renamed, renamed, find?_append, find?_singleton]
  by_cases heq : old = item
  · simp [hfind heq, heq]
  · simp [heq, Ne.symm heq]

lemma renamed_eq_or (changes : List (α × α)) (item : α) :
    (renamed changes item = item ∧ ∀ change ∈ changes, change.1 ≠ item) ∨
      ∃ change ∈ changes, change.1 = item ∧ change.2 = renamed changes item := by
  rcases hfind : changes.find? fun change => change.1 = item with _ | change
  · have hne : ∀ change ∈ changes, change.1 ≠ item := fun change hchange => by
      simpa using find?_eq_none.mp hfind change hchange
    exact .inl ⟨renamed_of_forall_ne hne, hne⟩
  · refine .inr ⟨change, mem_of_find?_eq_some hfind, by simpa using find?_some hfind, ?_⟩
    rw [renamed, hfind]
    rfl

variable [BEq α] [LawfulBEq α]

/-- Replacing the first occurrence of a name renames the only item that has it. -/
lemma replace_map_append {old : α} (f : α → α) (new : α) (added : List α) (hitems : items.Nodup)
    (hmem : old ∈ items) (hf : ∀ x ∈ items, f x = old ↔ x = old) :
    (items.map f ++ added).replace old new =
      items.map (fun x => if x = old then new else f x) ++ added := by
  induction items with
  | nil => exact absurd hmem not_mem_nil
  | cons x items ih =>
    obtain ⟨hx, hnodup⟩ := nodup_cons.mp hitems
    rw [map_cons, cons_append, replace_cons]
    by_cases heq : x = old
    · have hrest : ∀ y ∈ items, (if y = old then new else f y) = f y :=
        fun y hy => if_neg fun (hold : y = old) => hx (heq.trans hold.symm ▸ hy)
      have hfirst : f x = old := (hf x mem_cons_self).mpr heq
      rw [map_cons, map_congr_left hrest, if_pos heq]
      simp [hfirst]
    · have hfirst : f x ≠ old := fun h => heq ((hf x mem_cons_self).mp h)
      have hin : old ∈ items := (mem_cons.mp hmem).resolve_left (Ne.symm heq)
      have hrest := ih hnodup hin fun y hy => hf y (mem_cons_of_mem _ hy)
      have hbeq : (old == f x) = false := beq_false_of_ne (Ne.symm hfirst)
      rw [hbeq, map_cons, if_neg heq, cons_append, hrest]

/-- Renamings one after the other rename each item, if none gets the name of an item that is renamed
later. -/
theorem foldl_replace_append (added : List α) (hitems : items.Nodup)
    (hchanges : (changes.map Prod.fst).Nodup) (hmem : ∀ change ∈ changes, change.1 ∈ items)
    (hlater : changes.Pairwise fun change later => change.2 ≠ later.1) :
    changes.foldl (fun names change => names.replace change.1 change.2) (items ++ added) =
      items.map (renamed changes) ++ added := by
  induction changes using List.reverseRecOn with
  | nil =>
    have hid : items.map (renamed []) = items := by
      simpa using map_congr_left (g := id) fun x _ => renamed_of_forall_ne (by simp)
    rw [hid, foldl_nil]
  | append_singleton changes change ih =>
    obtain ⟨old, new⟩ := change
    rw [map_append, nodup_append] at hchanges
    obtain ⟨hnodup, -, hdisjoint⟩ := hchanges
    obtain ⟨hpairs, -, hlast⟩ := pairwise_append.mp hlater
    have hold : ∀ change ∈ changes, change.1 ≠ old := fun change hchange =>
      hdisjoint _ (List.mem_map_of_mem hchange) old (by simp)
    rw [foldl_append, ih hnodup (fun c hc => hmem c (mem_append_left _ hc)) hpairs]
    -- Only the item itself has the old name at this point.
    have hunique : ∀ x ∈ items, renamed changes x = old ↔ x = old := by
      intro x _
      constructor
      · intro heq
        rcases renamed_eq_or changes x with ⟨hself, -⟩ | ⟨change, hchange, -, hnew⟩
        · exact hself.symm.trans heq
        · exact absurd (hnew.trans heq) (hlast change hchange (old, new) (by simp))
      · rintro rfl
        exact renamed_of_forall_ne hold
    have hreplace := replace_map_append (renamed changes) new added hitems
      (hmem (old, new) (by simp)) hunique
    rw [foldl_cons, foldl_nil, hreplace]
    congr 1
    exact map_congr_left fun x _ => (renamed_concat new x hold).symm

end DataStream.ListEdits
