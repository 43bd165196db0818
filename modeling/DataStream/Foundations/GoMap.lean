import DataStream.Foundations.Json.Any

/-!
# Maps as entries in key order

A Go map with string keys is kept as its entries in key order. What a loop over a map or a map built
in a loop comes to does not depend on the order in which the entries are visited.

* `insert_comm`, `insertAll_perm`: values of different keys may be set in any order;
* `insertAll_insertAll`: values that are all set again do not count;
* `insertAll_nil_perm`, `Ordered.insertAll_nil`: a map has the entries that it was made of, and is
  made of its own entries.
-/

namespace DataStream.GoMap

open List Option

variable {α : Type}

variable (m : GoMap α) (entry : Bytes × α) (entries : List (Bytes × α))

/-- Set the values of several keys, one after the other. -/
def insertAll : GoMap α := entries.foldl (fun m entry => m.insert entry.1 entry.2) m

/-- The value that is set last stays. -/
lemma insert_insert_self (key : Bytes) (v w : α) :
    (m.insert key v).insert key w = m.insert key w := by
  induction m with
  | nil => simp [insert]
  | cons entry rest ih =>
    obtain ⟨k, u⟩ := entry
    rcases Std.lt_trichotomy key k with hlt | rfl | hgt
    · have hne : key ≠ k := fun heq => List.lt_irrefl k (heq ▸ hlt)
      simp [insert, hne, hlt]
    · simp [insert]
    · have hne : key ≠ k := fun heq => List.lt_irrefl k (heq ▸ hgt)
      have hnlt : ¬ key < k := List.lt_asymm hgt
      simp [insert, hne, hnlt, ih]

/-- The values of two keys may be set in any order. -/
theorem insert_comm {a b : Bytes} (hab : a ≠ b) (v w : α) :
    (m.insert a v).insert b w = (m.insert b w).insert a v := by
  induction m with
  | nil =>
    rcases Std.lt_trichotomy a b with hlt | heq | hgt
    · simp [insert, hab, Ne.symm hab, hlt, List.lt_asymm hlt]
    · exact absurd heq hab
    · simp [insert, hab, Ne.symm hab, hgt, List.lt_asymm hgt]
  | cons entry rest ih =>
    -- Where each of the two keys stands to the first key of the map, and they to each other.
    obtain ⟨k, u⟩ := entry
    have hne : ∀ {x y : Bytes}, x < y → x ≠ y := fun hlt heq => List.lt_irrefl _ (heq ▸ hlt)
    rcases Std.lt_trichotomy a k with ha | ha | ha <;>
      rcases Std.lt_trichotomy b k with hb | hb | hb
    · rcases Std.lt_trichotomy a b with hlt | heq | hgt
      · simp [insert, hab, Ne.symm hab, ha, hb, hne ha, hne hb, hlt, List.lt_asymm hlt]
      · exact absurd heq hab
      · simp [insert, hab, Ne.symm hab, ha, hb, hne ha, hne hb, hgt, List.lt_asymm hgt]
    · subst hb
      simp [insert, Ne.symm hab, ha, hne ha, List.le_of_lt ha]
    · have hlt := List.lt_trans ha hb
      simp [insert, Ne.symm hab, ha, hne ha, (hne hb).symm, List.lt_asymm hb, List.lt_asymm hlt]
    · subst ha
      simp [insert, hab, hb, hne hb, List.le_of_lt hb]
    · exact absurd (ha.trans hb.symm) hab
    · subst ha
      simp [insert, Ne.symm hab, List.lt_asymm hb]
    · have hlt := List.lt_trans hb ha
      simp [insert, hab, hb, hne hb, (hne ha).symm, List.lt_asymm ha, List.lt_asymm hlt]
    · subst hb
      simp [insert, hab, List.lt_asymm ha]
    · simp [insert, (hne ha).symm, (hne hb).symm, List.lt_asymm ha, List.lt_asymm hb, ih]

lemma insertAll_cons :
    m.insertAll (entry :: entries) = (m.insert entry.1 entry.2).insertAll entries := rfl

variable {key : Bytes} {entries entries' : List (Bytes × α)} {m : GoMap α} {v : α}

/-- A value that is set again later does not count. -/
lemma insertAll_insert_of_mem (m : GoMap α) (v : α) (h : key ∈ entries.map Prod.fst) :
    (m.insert key v).insertAll entries = m.insertAll entries := by
  induction entries generalizing m with
  | nil => exact absurd h not_mem_nil
  | cons entry entries ih =>
    rw [insertAll_cons, insertAll_cons]
    by_cases hkey : key = entry.1
    · rw [hkey, insert_insert_self]
    · rw [insert_comm _ hkey]
      exact ih _ ((mem_cons.mp h).resolve_left hkey)

/-- Values that are all set again do not count. -/
theorem insertAll_insertAll (m : GoMap α) (h : entries.map Prod.fst ⊆ entries'.map Prod.fst) :
    (m.insertAll entries).insertAll entries' = m.insertAll entries' := by
  induction entries generalizing m with
  | nil => rfl
  | cons entry entries ih =>
    obtain ⟨hentry, hrest⟩ := cons_subset.mp h
    rw [insertAll_cons, ih _ hrest, insertAll_insert_of_mem _ _ hentry]

/-- The order in which the entries of a map are visited does not matter. -/
theorem insertAll_perm (m : GoMap α) (hperm : entries.Perm entries')
    (hnodup : (entries.map Prod.fst).Nodup) : m.insertAll entries = m.insertAll entries' := by
  induction hperm generalizing m with
  | nil => rfl
  | cons entry _ ih => exact ih _ (nodup_cons.mp hnodup).2
  | swap a b entries =>
    have hne : b.1 ≠ a.1 := by
      rintro heq
      simp [heq] at hnodup
    rw [insertAll_cons, insertAll_cons, insertAll_cons, insertAll_cons, insert_comm _ hne]
  | trans hperm _ ih ih' =>
    rw [ih _ hnodup]
    exact ih' _ ((hperm.map Prod.fst).nodup_iff.mp hnodup)

/-- A new key adds an entry. -/
lemma insert_perm (m : GoMap α) (v : α) (h : key ∉ m.map Prod.fst) :
    (m.insert key v).Perm ((key, v) :: m) := by
  induction m with
  | nil => exact List.Perm.refl _
  | cons entry rest ih =>
    obtain ⟨hne, hrest⟩ := not_or.mp fun hor => h (mem_cons.mpr hor)
    rw [insert, if_neg hne]
    split_ifs
    · exact List.Perm.refl _
    · exact ((ih hrest).cons _).trans (List.Perm.swap _ _ _)

/-- The entries of a map are those that it was made of. -/
theorem insertAll_nil_perm (h : (entries.map Prod.fst).Nodup) :
    (insertAll [] entries).Perm entries := by
  have hgeneral : ∀ (entries : List (Bytes × α)) (m : GoMap α),
      ((m ++ entries).map Prod.fst).Nodup → (m.insertAll entries).Perm (m ++ entries) := by
    intro entries
    induction entries with
    | nil =>
      intro m _
      rw [append_nil]
      exact List.Perm.refl m
    | cons entry entries ih =>
      intro m hnodup
      have hmiddle : ((entry :: m ++ entries).map Prod.fst).Nodup :=
        ((perm_middle.map Prod.fst).nodup_iff).mp hnodup
      have hkey : entry.1 ∉ m.map Prod.fst := by
        intro hmem
        exact (nodup_cons.mp hmiddle).1 (by simpa using Or.inl hmem)
      have hperm := m.insert_perm entry.2 hkey
      have hnodup' : ((m.insert entry.1 entry.2 ++ entries).map Prod.fst).Nodup :=
        (((hperm.append_right entries).map Prod.fst).nodup_iff).mpr hmiddle
      exact (ih _ hnodup').trans ((hperm.append_right entries).trans perm_middle.symm)
  exact hgeneral entries [] h

/-- Entries may be put into a map first. -/
lemma insertAll_insertAll_nil (m : GoMap α) (h : (entries.map Prod.fst).Nodup) :
    m.insertAll (insertAll [] entries) = m.insertAll entries :=
  (m.insertAll_perm (insertAll_nil_perm h).symm h).symm

lemma get?_insert_self (m : GoMap α) (key : Bytes) (v : α) :
    (m.insert key v).get? key = some v := by
  induction m with
  | nil => simp [insert, get?]
  | cons entry rest ih =>
    rw [insert]
    split_ifs with hkey
    iterate 2 simp [get?]
    simpa [get?, Ne.symm hkey] using ih

lemma get?_insert_of_ne (m : GoMap α) {other : Bytes} (h : other ≠ key) (v : α) :
    (m.insert key v).get? other = m.get? other := by
  induction m with
  | nil => simp [insert, get?, Ne.symm h]
  | cons entry rest ih =>
    obtain ⟨k, u⟩ := entry
    rw [insert]
    split_ifs with hkey
    · simp [get?, ← hkey, Ne.symm h]
    · simp [get?, Ne.symm h]
    · by_cases hk : k = other
      · simp [get?, hk]
      · simpa [get?, hk] using ih

/-- What is not found has no entry. -/
lemma get?_eq_none_iff : m.get? key = none ↔ key ∉ m.map Prod.fst := by
  simp only [get?, map_eq_none_iff, find?_eq_none, decide_eq_true_eq, List.mem_map,
    not_exists, not_and]

/-- What is found is an entry, where keys are not repeated. -/
lemma get?_eq_some_iff (hnodup : (m.map Prod.fst).Nodup) : m.get? key = some v ↔ (key, v) ∈ m := by
  induction m with
  | nil => simp [get?]
  | cons entry rest ih =>
    obtain ⟨k, u⟩ := entry
    obtain ⟨hk, hrest⟩ := nodup_cons.mp hnodup
    by_cases hkey : k = key
    · subst hkey
      have hnot : (k, v) ∉ rest := fun hmem => hk (List.mem_map.mpr ⟨_, hmem, rfl⟩)
      simp [get?, hnot, eq_comm]
    · have hget : get? ((k, u) :: rest) key = get? rest key := by simp [get?, hkey]
      rw [hget, ih hrest]
      simp [Ne.symm hkey]

lemma get?_insertAll_nil (h : (entries.map Prod.fst).Nodup) (key : Bytes) :
    (insertAll [] entries).get? key = get? entries key := by
  have hperm := insertAll_nil_perm h
  ext v
  rw [get?_eq_some_iff ((hperm.map Prod.fst).nodup_iff.mpr h), hperm.mem_iff, get?_eq_some_iff h]

/-- The keys after a value is set. -/
lemma mem_keys_insert {k : Bytes} :
    k ∈ (m.insert key v).map Prod.fst ↔ k = key ∨ k ∈ m.map Prod.fst := by
  rw [← not_iff_not, not_or, ← get?_eq_none_iff, ← get?_eq_none_iff]
  by_cases h : k = key
  · simp [h, get?_insert_self]
  · simp [h, get?_insert_of_ne]

/-- The entries after a value is set. -/
lemma mem_of_mem_insert {entry : Bytes × α} (h : entry ∈ m.insert key v) :
    entry = (key, v) ∨ entry ∈ m := by
  induction m with
  | nil => exact .inl (mem_singleton.mp h)
  | cons old rest ih =>
    rw [insert] at h
    split_ifs at h with hkey hlt
    · exact (mem_cons.mp h).imp_right (mem_cons_of_mem _)
    · exact mem_cons.mp h
    · rcases mem_cons.mp h with rfl | h
      · exact .inr mem_cons_self
      · exact (ih h).imp_right (mem_cons_of_mem _)

lemma mem_of_get?_eq_some (h : m.get? key = some v) : (key, v) ∈ m := by
  obtain ⟨entry, hfind, rfl⟩ := map_eq_some_iff.mp h
  have hkey : entry.1 = key := by simpa using find?_some hfind
  subst hkey
  exact mem_of_find?_eq_some hfind

/-- The entries are in key order, with one value for each key. -/
def Ordered (m : GoMap α) : Prop := (m.map Prod.fst).Pairwise (· < ·)
  deriving Decidable

lemma Ordered.nodup (h : m.Ordered) : (m.map Prod.fst).Nodup := by
  refine List.Pairwise.imp ?_ h
  intro a b hlt heq
  exact List.lt_irrefl b (heq ▸ hlt)

/-- A key behind all others goes to the end. -/
lemma insert_of_forall_lt (m : GoMap α) (v : α) (h : ∀ k ∈ m.map Prod.fst, k < key) :
    m.insert key v = m ++ [(key, v)] := by
  induction m with
  | nil => rfl
  | cons entry rest ih =>
    obtain ⟨k, u⟩ := entry
    obtain ⟨hk, hrest⟩ := forall_mem_cons.mp h
    have hne : key ≠ k := fun heq => List.lt_irrefl k (heq ▸ hk)
    rw [insert, if_neg hne, if_neg (List.lt_asymm hk), ih hrest]
    rfl

/-- Setting the entries of a map one after the other gives the map. -/
theorem Ordered.insertAll_nil (h : m.Ordered) : insertAll [] m = m := by
  have hgeneral : ∀ (entries : List (Bytes × α)) (m : GoMap α), Ordered (m ++ entries) →
      m.insertAll entries = m ++ entries := by
    intro entries
    induction entries with
    | nil =>
      intro m _
      rw [append_nil]
      rfl
    | cons entry entries ih =>
      intro m hm
      have hlast : ∀ k ∈ m.map Prod.fst, k < entry.1 := by
        rw [Ordered, map_append, pairwise_append] at hm
        exact fun k hk => hm.2.2 k hk _ mem_cons_self
      rw [insertAll_cons, insert_of_forall_lt _ _ hlast]
      have hassoc : m ++ entry :: entries = m ++ [(entry.1, entry.2)] ++ entries := by simp
      rw [hassoc] at hm ⊢
      exact ih _ hm
  exact hgeneral m [] h

/-- Entries may be mapped before or after they are set. -/
lemma insertAll_map {β : Type} (f : Bytes → α → β) (m : GoMap α) (entries : List (Bytes × α)) :
    insertAll (m.map fun entry => (entry.1, f entry.1 entry.2))
        (entries.map fun entry => (entry.1, f entry.1 entry.2)) =
      (m.insertAll entries).map fun entry => (entry.1, f entry.1 entry.2) := by
  have hinsert : ∀ (m : GoMap α) (key : Bytes) (v : α),
      insert (m.map fun entry => (entry.1, f entry.1 entry.2)) key (f key v) =
        (m.insert key v).map fun entry => (entry.1, f entry.1 entry.2) := by
    intro m key v
    induction m with
    | nil => rfl
    | cons entry rest ih =>
      rw [map_cons, insert, insert, ih]
      split_ifs <;> rfl
  induction entries generalizing m with
  | nil => rfl
  | cons entry entries ih => rw [map_cons, insertAll_cons, insertAll_cons, hinsert, ih]

end DataStream.GoMap
