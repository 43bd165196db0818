import DataStream.Foundations.Lockstep

/-!
# Running the end of a history twice

A history of puts, updates and removals is run on keyed rows, and then the last part of it is run
once more on the result. A put overwrites what stands under its key, an update of a row that is not
there does nothing, and an update that moves a row onto a key that is taken fails.

The second run starts with the rows of the end. Keys that it has not touched yet have the rows of
the end; a row that moves to another key may meet the row that will be there in the end.

* `Between.exec`: what the second run keeps with respect to the first one;
* `redelivery_iff`: the second run ends with the same rows exactly if every row is met as often as
  it has to be.
-/

namespace DataStream.Redelivery

open List Option Function

variable {K R : Type}

inductive Op (K R : Type) where
  | put (k : K) (row : R)
  /-- The row of the key `k` becomes a row of the key `k'`. -/
  | update (k k' : K) (row : R)
  | remove (k : K)

open Op

/-- Rows by their keys. -/
abbrev Rows (K R : Type) := K → Option R

def Op.keys : Op K R → List K
  | .put k _ => [k]
  | .update k k' _ => [k, k']
  | .remove k => [k]

section Runs

variable [DecidableEq K]

/-- What an operation does in a history in which it is valid. -/
def Op.apply (s : Rows K R) : Op K R → Rows K R
  | .put k row => Function.update s k (some row)
  | .update k k' row => Function.update (Function.update s k none) k' (some row)
  | .remove k => Function.update s k none

/-- What an operation does to any rows; `none` is an error. -/
def Op.exec (s : Rows K R) (op : Op K R) : Option (Rows K R) :=
  match op with
  | .put _ _ | .remove _ => some (op.apply s)
  | .update k k' _ =>
    if (s k).isNone then some s
    else if k' ≠ k ∧ (s k').isSome then none
    else some (op.apply s)

/-- An operation that a history can have at some rows. -/
def Op.Valid (s : Rows K R) : Op K R → Prop
  | .put k _ => s k = none
  | .update k k' _ => s k ≠ none ∧ (k' = k ∨ s k' = none)
  | .remove k => s k ≠ none

/-- A row of the end stands under a key that was not touched yet. -/
def Stands (last : Rows K R) (touched : List K) (k : K) : Prop := last k ≠ none ∧ k ∉ touched

/-- Follow the row of a key through the operations, with whether it was met already: it must not
be met where a row of the end stands if it was met before, and it must have been met in the end,
unless it is removed. -/
def Trail (last : Rows K R) : List K → Prop → K → List (Op K R) → Prop
  | _, present, _, [] => present
  | touched, present, k, op :: rest =>
    match op with
    | .put _ _ => Trail last (op.keys ++ touched) present k rest
    | .update old new _ =>
      if old = k ∧ new ≠ k then
        ¬ (present ∧ Stands last touched new) ∧
          Trail last (op.keys ++ touched) (present ∨ Stands last touched new) new rest
      else Trail last (op.keys ++ touched) present k rest
    | .remove old => old = k ∨ Trail last (op.keys ++ touched) present k rest

/-- Every row that is put is met where it is put, and nowhere else. -/
def PutTrails (last : Rows K R) : List K → List (Op K R) → Prop
  | _, [] => True
  | touched, op :: rest =>
    (match op with
      | .put k _ => Trail last (op.keys ++ touched) True k rest
      | _ => True) ∧ PutTrails last (op.keys ++ touched) rest

/-- Every row is met as often as it has to be: the rows of the beginning, which are there in the
second run if the end has a row of their key, and the rows that are put. -/
def Harmless (first last : Rows K R) (ops : List (Op K R)) : Prop :=
  (∀ k, first k ≠ none → Trail last [] (last k ≠ none) k ops) ∧ PutTrails last [] ops

/-! ## The two runs side by side -/

/-- The rows `r` of the second run, where the first one had `s` and ends with `last`. -/
structure Between (last : Rows K R) (touched : List K) (s r : Rows K R) : Prop where
  /-- Under keys that were not touched stand the rows of the end. -/
  untouched : ∀ k, k ∉ touched → r k = last k
  /-- Under a touched key stands a row only if one did in the first run. -/
  touched : ∀ k, k ∈ touched → r k ≠ none → s k ≠ none
  /-- Each row is one of the first run or one of the end. -/
  rows : ∀ k row, r k = some row → s k = some row ∨ last k = some row

variable {last : Rows K R} {touched : List K} {s r r' : Rows K R} {op : Op K R} {k : K} {row : R}
  {ops : List (Op K R)}

lemma Between.stands_iff (h : Between last touched s r) (hk : s k = none) :
    r k ≠ none ↔ Stands last touched k := by
  by_cases hmem : k ∈ touched
  · have hfree : ¬ r k ≠ none := fun hne => h.touched k hmem hne hk
    exact iff_of_false hfree fun hstands => hstands.2 hmem
  · rw [h.untouched k hmem, Stands, and_iff_left hmem]

lemma exec_update_eq_some {k' : K} (he : (update k k' row).exec r = some r') :
    (r k = none ∧ r' = r) ∨
      (r k ≠ none ∧ (k' = k ∨ r k' = none) ∧ r' = (update k k' row).apply r) := by
  rw [exec] at he
  split_ifs at he with hnone hmeet
  · exact .inl ⟨isNone_iff_eq_none.mp hnone, (some.inj he).symm⟩
  · refine .inr ⟨fun heq => hnone (isNone_iff_eq_none.mpr heq), ?_, (some.inj he).symm⟩
    by_cases hk : k' = k
    · exact .inl hk
    · refine .inr (not_isSome_iff_eq_none.mp fun hsome => hmeet ⟨hk, hsome⟩)

lemma apply_update {k' x : K} :
    (update k k' row).apply s x = if x = k' then some row else if x = k then none else s x := by
  simp only [apply, update_apply]

lemma Op.apply_of_not_mem (hk : k ∉ op.keys) : op.apply s k = s k := by
  rcases op with ⟨k₀, row⟩ | ⟨old, new, row⟩ | k₀
  · exact update_of_ne (ne_of_not_mem_cons hk) _ _
  · rw [apply_update, if_neg fun heq => hk (by simp [keys, heq]),
      if_neg fun heq => hk (by simp [keys, heq])]
  · exact update_of_ne (ne_of_not_mem_cons hk) _ _

lemma Op.exec_of_not_mem (he : op.exec r = some r') (hk : k ∉ op.keys) : r' k = r k := by
  rcases op with ⟨k₀, row⟩ | ⟨old, new, row⟩ | k₀
  · rw [← some.inj he, apply_of_not_mem hk]
  · rcases exec_update_eq_some he with ⟨-, rfl⟩ | ⟨-, -, rfl⟩
    · rfl
    · exact apply_of_not_mem hk
  · rw [← some.inj he, apply_of_not_mem hk]

/-- **One operation.** The second run stays beside the first one. -/
theorem Between.exec (h : Between last touched s r) (hvalid : op.Valid s)
    (he : op.exec r = some r') : Between last (op.keys ++ touched) (op.apply s) r' := by
  -- What there is to show is about the keys of the operation; elsewhere nothing changes.
  have hkeys : ∀ x ∈ op.keys, ∀ row, r' x = some row →
      op.apply s x = some row ∨ (op.apply s x ≠ none ∧ last x = some row) := by
    intro x hx row hrow
    rcases op with ⟨k, row'⟩ | ⟨old, new, row'⟩ | k
    · obtain rfl := some.inj he
      obtain rfl := mem_singleton.mp hx
      rw [apply, update_self] at hrow ⊢
      exact .inl hrow
    · rcases exec_update_eq_some he with ⟨hnone, rfl⟩ | ⟨-, -, rfl⟩
      · -- The row was not there, so what stands under the new key is a row of the end.
        have hxold : x ≠ old := by
          rintro rfl
          rw [hnone] at hrow
          cases hrow
        obtain rfl : x = new := by simpa [Op.keys, hxold] using hx
        have hfree : s x = none := hvalid.2.resolve_left hxold
        have hlast : last x = some row := (h.rows x row hrow).resolve_left (by simp [hfree])
        rw [apply_update, if_pos rfl]
        exact .inr ⟨some_ne_none _, hlast⟩
      · rw [apply_update] at hrow ⊢
        split_ifs at hrow ⊢ with hnew hold
        · exact .inl hrow
        · simp [Op.keys, hnew, hold] at hx
    · obtain rfl := some.inj he
      obtain rfl := mem_singleton.mp hx
      rw [apply, update_self] at hrow
      cases hrow
  refine ⟨?_, ?_, ?_⟩
  · intro x hx
    obtain ⟨hop, hx⟩ := not_or.mp fun hor => hx (mem_append.mpr hor)
    rw [exec_of_not_mem he hop]
    exact h.untouched x hx
  · intro x hx hne
    by_cases hop : x ∈ op.keys
    · obtain ⟨row, hrow⟩ := ne_none_iff_exists'.mp hne
      rcases hkeys x hop row hrow with hs | ⟨hs, -⟩
      · simp [hs]
      · exact hs
    · rw [exec_of_not_mem he hop] at hne
      rw [apply_of_not_mem hop]
      exact h.touched x ((mem_append.mp hx).resolve_left hop) hne
  · intro x row hrow
    by_cases hop : x ∈ op.keys
    · exact (hkeys x hop row hrow).imp id And.right
    · rw [exec_of_not_mem he hop] at hrow
      rw [apply_of_not_mem hop]
      exact h.rows x row hrow

/-! ## Trails -/

/-- All trails from some point on, at which the second run has the rows `r`. -/
def Trails (last : Rows K R) (touched : List K) (s r : Rows K R) (ops : List (Op K R)) : Prop :=
  (∀ k, s k ≠ none → Trail last touched (r k ≠ none) k ops) ∧ PutTrails last touched ops

lemma Between.not_trails (h : Between last touched s r) (hvalid : op.Valid s)
    (he : op.exec r = none) (ops : List (Op K R)) : ¬ Trails last touched s r (op :: ops) := by
  rcases op with ⟨k, row⟩ | ⟨old, new, row⟩ | k
  · cases he
  · rw [Op.exec] at he
    split_ifs at he with hnone hmeet
    obtain ⟨hne, hsome⟩ := hmeet
    intro htrails
    have htrail := htrails.1 old hvalid.1
    rw [Trail, if_pos ⟨rfl, hne⟩] at htrail
    have hfree : s new = none := hvalid.2.resolve_left hne
    exact htrail.1 ⟨fun heq => hnone (isNone_iff_eq_none.mpr heq),
      (h.stands_iff hfree).mp (isSome_iff_ne_none.mp hsome)⟩
  · cases he

lemma trail_congr {present present' : Prop} (hpresent : present ↔ present') :
    Trail last touched present k ops ↔ Trail last touched present' k ops := by
  rw [propext hpresent]

lemma trails_put_iff (hfree : s k = none) (ops : List (Op K R)) :
    Trails last touched s r (.put k row :: ops) ↔
      Trails last ((put k row).keys ++ touched) ((put k row).apply s)
        ((put k row).apply r) ops := by
  simp only [Trails, Trail, PutTrails]
  rw [← and_assoc, and_congr_left_iff]
  intro _
  constructor
  · rintro ⟨hrows, hput⟩ x hx
    by_cases hxk : x = k
    · subst hxk
      exact (trail_congr (by simp [apply])).mpr hput
    · rw [apply, update_of_ne hxk] at hx ⊢
      exact hrows x hx
  · intro hrows
    refine ⟨fun x hx => ?_, ?_⟩
    · have hxk : x ≠ k := fun heq => hx (heq ▸ hfree)
      have htrail := hrows x (by rwa [apply, update_of_ne hxk])
      rwa [apply, update_of_ne hxk] at htrail
    · exact (trail_congr (by simp [apply])).mp (hrows k (by simp [apply]))

lemma trails_remove_iff (ops : List (Op K R)) :
    Trails last touched s r (.remove k :: ops) ↔
      Trails last ((remove k : Op K R).keys ++ touched) ((remove k).apply s)
        ((remove k).apply r) ops := by
  simp only [Trails, Trail, PutTrails, true_and]
  rw [and_congr_left_iff]
  intro _
  refine forall_congr' fun x => ?_
  by_cases hxk : x = k
  · subst hxk
    simp [apply]
  · rw [apply, update_of_ne hxk, apply, update_of_ne hxk, or_iff_right (Ne.symm hxk)]

lemma trails_update_self_iff (hrow : s k ≠ none) (he : (update k k row).exec r = some r')
    (ops : List (Op K R)) :
    Trails last touched s r (.update k k row :: ops) ↔
      Trails last ((update k k row).keys ++ touched) ((update k k row).apply s) r' ops := by
  simp only [Trails, Trail, PutTrails, true_and]
  rw [and_congr_left_iff]
  intro _
  have hkeys : ∀ x, ((update k k row).apply s x ≠ none ↔ s x ≠ none) ∧
      (r' x ≠ none ↔ r x ≠ none) := by
    intro x
    by_cases hx : x = k
    · subst hx
      refine ⟨iff_of_true (by simp [apply_update]) hrow, ?_⟩
      rcases exec_update_eq_some he with ⟨-, rfl⟩ | ⟨hne, -, rfl⟩
      · rfl
      · exact iff_of_true (by simp [apply_update]) hne
    · have hnot : x ∉ (update k k row).keys := by simp [Op.keys, hx]
      rw [apply_of_not_mem hnot, exec_of_not_mem he hnot]
      exact ⟨Iff.rfl, Iff.rfl⟩
  refine forall_congr' fun x => ?_
  rw [if_neg fun hboth => hboth.2 hboth.1, (hkeys x).1]
  exact imp_congr_right fun _ => (trail_congr (hkeys x).2).symm

/-- The trail of a row that moves goes on under the new key. -/
lemma Between.trails_update_iff (h : Between last touched s r) {old new : K} (hmove : new ≠ old)
    (hvalid : (update old new row).Valid s) (he : (update old new row).exec r = some r')
    (ops : List (Op K R)) :
    Trails last touched s r (.update old new row :: ops) ↔
      Trails last ((update old new row).keys ++ touched) ((update old new row).apply s) r' ops := by
  simp only [Trails, Trail, PutTrails, true_and]
  rw [and_congr_left_iff]
  intro _
  have hfree : s new = none := hvalid.2.resolve_left hmove
  -- The row is met for the first time if a row of the end stands under the new key.
  have hmeets : ¬ (r old ≠ none ∧ Stands last touched new) ∧
      (r' new ≠ none ↔ r old ≠ none ∨ Stands last touched new) := by
    rw [← h.stands_iff hfree]
    rcases exec_update_eq_some he with ⟨hnone, rfl⟩ | ⟨hne, hor, rfl⟩
    · exact ⟨fun hboth => hboth.1 hnone, by simp [hnone]⟩
    · have hnone : r new = none := hor.resolve_left hmove
      exact ⟨fun hboth => hboth.2 hnone, iff_of_true (by simp [apply_update]) (.inl hne)⟩
  have hother : ∀ x, x ≠ old → x ≠ new → (update old new row).apply s x = s x ∧ r' x = r x := by
    intro x hold hnew
    have hnot : x ∉ (update old new row).keys := by simp [Op.keys, hold, hnew]
    exact ⟨apply_of_not_mem hnot, exec_of_not_mem he hnot⟩
  constructor
  · intro hrows x hx
    by_cases hxnew : x = new
    · subst hxnew
      have htrail := hrows old hvalid.1
      rw [if_pos ⟨rfl, hmove⟩] at htrail
      exact (trail_congr hmeets.2).mpr htrail.2
    · have hxold : x ≠ old := by
        rintro rfl
        rw [apply_update, if_neg (Ne.symm hmove), if_pos rfl] at hx
        exact hx rfl
      obtain ⟨hs, hr⟩ := hother x hxold hxnew
      have htrail := hrows x (hs ▸ hx)
      rw [if_neg fun hboth => hxold hboth.1.symm] at htrail
      rwa [hr]
  · intro hrows x hx
    by_cases hxold : x = old
    · subst hxold
      rw [if_pos ⟨rfl, hmove⟩]
      exact ⟨hmeets.1, (trail_congr hmeets.2).mp (hrows new (by simp [apply_update]))⟩
    · have hxnew : x ≠ new := fun heq => hx (heq ▸ hfree)
      obtain ⟨hs, hr⟩ := hother x hxold hxnew
      rw [if_neg fun hboth => hxold hboth.1.symm, ← hr]
      exact hrows x (by rwa [hs])

lemma Between.trails_cons_iff (h : Between last touched s r) (hvalid : op.Valid s)
    (he : op.exec r = some r') (ops : List (Op K R)) :
    Trails last touched s r (op :: ops) ↔ Trails last (op.keys ++ touched) (op.apply s) r' ops := by
  rcases op with ⟨k, row⟩ | ⟨old, new, row⟩ | k
  · obtain rfl := some.inj he
    exact trails_put_iff hvalid ops
  · by_cases hmove : new = old
    · subst hmove
      exact trails_update_self_iff hvalid.1 he ops
    · exact h.trails_update_iff hmove hvalid he ops
  · obtain rfl := some.inj he
    exact trails_remove_iff ops

/-- **The second run.** From any point on, the second run ends with the rows of the end, without an
error, exactly if the rows are met as often as they have to be. -/
lemma Between.foldlM_exec_iff (h : Between last touched s r)
    (hvalid : Along apply Valid s ops) (hlast : ops.foldl apply s = last) :
    ops.foldlM Op.exec r = some last ↔ Trails last touched s r ops := by
  induction ops generalizing touched s r with
  | nil =>
    obtain rfl : s = last := hlast
    simp only [Trails, Trail, PutTrails, and_true, foldlM_nil]
    change some r = some s ↔ _
    rw [some.injEq]
    constructor
    · rintro rfl k hk
      exact hk
    · -- What is there is right, and nothing is missing.
      intro hall
      ext1 k
      rcases hr : r k with _ | row
      · by_contra hne
        exact hall k (Ne.symm hne) hr
      · rcases h.rows k row hr with hs | hs <;> exact hs.symm
  | cons op ops ih =>
    rw [foldlM_cons]
    rcases he : op.exec r with _ | r'
    · exact iff_of_false (fun heq => by cases heq) (h.not_trails hvalid.1 he ops)
    · rw [h.trails_cons_iff hvalid.1 he ops]
      exact ih (h.exec hvalid.1 he) hvalid.2 hlast

/-- **Redelivery.** The operations `ops` at the end of a history lead from the rows `first` to the
rows `last`. Running them again on `last` gives `last`, without an error, exactly if every row is
met as often as it has to be. -/
theorem redelivery_iff {first : Rows K R} (hvalid : Along Op.apply Op.Valid first ops) :
    ops.foldlM Op.exec (ops.foldl Op.apply first) = some (ops.foldl Op.apply first) ↔
      Harmless first (ops.foldl Op.apply first) ops := by
  have hbetween : Between (ops.foldl Op.apply first) [] first (ops.foldl Op.apply first) :=
    ⟨fun _ _ => rfl, fun _ hk => absurd hk not_mem_nil, fun _ _ hrow => .inr hrow⟩
  exact hbetween.foldlM_exec_iff hvalid rfl

end Runs

end DataStream.Redelivery
