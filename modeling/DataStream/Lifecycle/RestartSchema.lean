import DataStream.Cache.LocalBackend
import DataStream.Lifecycle.SnapshotScheduler

/-!
# Restarting the tables of a database

`RestartSchema` goes through the tables of a database, in the order in which the map of the store
happens to be ranged over, and does with each of them what `RestartTable` does; streaming tables are
left out unless the restart is forced. Both remove the cache file of a restarted table. The names of
the files are not unique among the tables of a task, so the cache of a table in another database can
go with it.

The calls of the store and of the cache succeed.

* `restartsItsTables_iff`: when the restart of a database is that of its tables only.
-/

namespace DataStream.Lifecycle

open Event Source Cache List Function LocalBackend

/-- The store of a task and the cache of its tables. -/
structure CachedStore where
  store : LifecycleStore
  cache : LocalBackend

namespace CachedStore

variable (task : TaskEntry) (newPos : Option Position) (force : Bool)

/-- `RestartTable`, with the removal of the cache file; the error that is returned, if any. -/
def restartTable (s : CachedStore) (id : TableID) : CachedStore × Option Bytes :=
  match SnapshotScheduler.restartTable task s.store id newPos force with
  | .error msg => (s, some msg)
  | .ok store => ({ store := store, cache := s.cache.delete id.toBytes }, none)

/-- What `RestartSchema` leaves and returns. -/
structure SchemaRestart where
  state : CachedStore
  restarted : List TableID
  err : Option Bytes

/-- The loop of `RestartSchema` over the tables that the store has listed. -/
def restartSchema (s : CachedStore) : List TableID → SchemaRestart
  | [] => { state := s, restarted := [], err := none }
  | id :: listed =>
    match s.store id with
    -- The loop runs over records of the store.
    | none => s.restartSchema listed
    | some lc =>
      if !force && lc.state = .streaming then s.restartSchema listed
      else
        let lc := if lc.state ≠ .error then lc.setError (lit "restart requested") else lc
        match lc.resetToPending newPos with
        | .error err =>
          { state := s, restarted := []
            err := some (lit "reset table " ++ id.toBytes ++ lit " to pending: " ++ err.message) }
        | .ok lc =>
          let rest := restartSchema
            { store := update s.store id (some lc)
              cache := s.cache.delete id.toBytes } listed
          { rest with restarted := id :: rest.restarted }

/-- A table is restarted unless it is streaming and the restart is not forced. -/
def restartable (store : LifecycleStore) (id : TableID) : Bool :=
  match store id with
  | none => false
  | some lc => force || lc.state ≠ .streaming

end CachedStore

/-- What `ListBySchema` can return: the tables of a database, each once, in some order. -/
structure SchemaListing (store : LifecycleStore) (schema : Bytes) where
  ids : List TableID
  nodup : ids.Nodup
  mem_iff : ∀ id, id ∈ ids ↔ (store id).isSome ∧ id.database = schema

/-- `RestartSchema` is the restart of its tables: it leaves what `RestartTable` on each of them
leaves, in whatever order, returns the tables restarted, and changes neither record nor cache of a
table of another database. -/
structure RestartsItsTables (task : TaskEntry) (newPos : Option Position) (force : Bool)
    (s : CachedStore) {schema : Bytes} (listing : SchemaListing s.store schema) : Prop where
  state_eq : ∀ order : List TableID, order.Perm listing.ids →
    (s.restartSchema newPos force listing.ids).state =
      order.foldl (fun s id => (s.restartTable task newPos force id).1) s
  restarted_eq : (s.restartSchema newPos force listing.ids).restarted =
    listing.ids.filter fun id => (s.restartTable task newPos force id).2 = none
  err_eq : (s.restartSchema newPos force listing.ids).err = none
  others : ∀ id, (s.store id).isSome → id.database ≠ schema →
    (s.restartSchema newPos force listing.ids).state.store id = s.store id ∧
    (s.restartSchema newPos force listing.ids).state.cache.content id.toBytes =
      s.cache.content id.toBytes

namespace CachedStore

variable (task : TaskEntry) (newPos : Option Position) (force : Bool)

/-! ## One table -/

def resetRecord (lc : TableLifecycle) : TableLifecycle :=
  { lc with
    state := .pending
    previousState := .error
    snapshotPosition := newPos
    lastError := []
    retryCount := lc.retryCount + 1 }

/-- A restart can reset a table in every state, and all its effects but these are undone. -/
lemma resetToPending_setError (lc : TableLifecycle) (msg : Bytes) :
    (if lc.state ≠ .error then lc.setError msg else lc).resetToPending newPos =
      .ok (resetRecord newPos lc) := by
  by_cases h : lc.state = .error
  · simp [h, TableLifecycle.resetToPending, resetRecord]
  · simp [h, TableLifecycle.resetToPending, TableLifecycle.setError, resetRecord]

/-- The state after a table was reset and its cache removed. -/
def reset (s : CachedStore) (id : TableID) : CachedStore where
  store := update s.store id ((s.store id).map (resetRecord newPos))
  cache := s.cache.delete id.toBytes

variable {id : TableID} {order : List TableID}

lemma restartable_of_some {store : LifecycleStore} {lc : TableLifecycle}
    (h : store id = some lc) :
    restartable force store id = !(!force && decide (lc.state = .streaming)) := by
  simp [restartable, h]

lemma restartable_iff (store : LifecycleStore) (id : TableID) :
    restartable force store id ↔
      ∃ lc, store id = some lc ∧ (force ∨ lc.state ≠ .streaming) := by
  unfold restartable
  rcases store id with _ | lc <;> simp

variable (s : CachedStore)

/-- `RestartTable` resets a table that can be restarted, and changes nothing otherwise. -/
lemma restartTable_eq (id : TableID) :
    (s.restartTable task newPos force id).1 =
        (if restartable force s.store id then s.reset newPos id else s) ∧
      ((s.restartTable task newPos force id).2 = none ↔ restartable force s.store id) := by
  unfold restartTable SnapshotScheduler.restartTable
  rcases hid : s.store id with _ | lc
  · simp [restartable, hid]
  · rw [restartable_of_some force hid]
    by_cases hconflict : (!force && decide (lc.state = .streaming)) = true
    · simp only [hconflict, if_true]
      simp
    · simp only [hconflict, resetToPending_setError]
      simp [reset, hid]

/-- The step of a sequence of restarts. -/
def restarts (s : CachedStore) (id : TableID) : CachedStore :=
  if restartable force s.store id then s.reset newPos id else s

/-- A restart of one table does not decide whether another one can be restarted. -/
lemma restartable_restarts_of_ne {other : TableID} (h : other ≠ id) :
    restartable force (s.restarts newPos force id).store other =
      restartable force s.store other := by
  unfold restarts
  split
  · simp [restartable, reset, update_of_ne h]
  · rfl

/-! ## The order of the restarts -/

lemma delete_comm (lb : LocalBackend) (a b : Bytes) :
    (lb.delete a).delete b = (lb.delete b).delete a := by
  unfold delete
  congr 1
  · funext name
    by_cases ha : name = fileName a <;> by_cases hb : name = fileName b <;>
      simp [update_apply, ha, hb]
  · -- An open handle is dropped or orphaned by the two together, whichever comes first.
    funext other
    rcases hhandle : lb.handles other with _ | handle <;> dsimp only <;> rw [hhandle] <;>
      split_ifs <;> rfl

lemma reset_comm {a b : TableID} (h : a ≠ b) :
    (s.reset newPos a).reset newPos b = (s.reset newPos b).reset newPos a := by
  unfold reset
  congr 1
  · simp only [update_of_ne h, update_of_ne h.symm]
    exact update_comm h _ _ _
  · exact delete_comm s.cache a.toBytes b.toBytes

/-- The restarts of two tables can be exchanged. -/
lemma restarts_comm (a b : TableID) :
    (s.restarts newPos force a).restarts newPos force b =
      (s.restarts newPos force b).restarts newPos force a := by
  by_cases h : a = b
  · rw [h]
  · have ha : restartable force (s.restarts newPos force b).store a = restartable force s.store a :=
      restartable_restarts_of_ne newPos force s h
    have hb : restartable force (s.restarts newPos force a).store b = restartable force s.store b :=
      restartable_restarts_of_ne newPos force s (Ne.symm h)
    conv_lhs => rw [restarts, hb]
    conv_rhs => rw [restarts, ha]
    unfold restarts
    split <;> split <;> simp only [reset_comm newPos s h]

/-! ## The loop -/

lemma restartSchema_cons (id : TableID) (listed : List TableID) :
    s.restartSchema newPos force (id :: listed) =
      let rest := (s.restarts newPos force id).restartSchema newPos force listed
      { rest with
        restarted := if restartable force s.store id then id :: rest.restarted
          else rest.restarted } := by
  rw [restartSchema, restarts]
  rcases hid : s.store id with _ | lc
  · simp [restartable, hid]
  · rw [restartable_of_some force hid]
    by_cases hconflict : (!force && decide (lc.state = .streaming)) = true
    · simp only [hconflict, if_true]
      simp
    · simp only [hconflict, resetToPending_setError]
      simp [reset, hid]

/-- The loop is a sequence of restarts, and ends without an error. -/
theorem restartSchema_state (listed : List TableID) :
    (s.restartSchema newPos force listed).state = listed.foldl (restarts newPos force) s ∧
      (s.restartSchema newPos force listed).err = none := by
  induction listed generalizing s with
  | nil => exact ⟨rfl, rfl⟩
  | cons id listed ih =>
    rw [restartSchema_cons, foldl_cons]
    exact ih (s.restarts newPos force id)

lemma restartSchema_restarted {listed : List TableID} (h : listed.Nodup) :
    (s.restartSchema newPos force listed).restarted =
      listed.filter (restartable force s.store) := by
  induction listed generalizing s with
  | nil => rfl
  | cons id listed ih =>
    obtain ⟨hid, hlisted⟩ := nodup_cons.mp h
    -- The tables still to come are as they were before this round.
    have hrest : listed.filter (restartable force (s.restarts newPos force id).store) =
        listed.filter (restartable force s.store) :=
      filter_congr fun other hother =>
        restartable_restarts_of_ne newPos force s fun heq => hid (heq ▸ hother)
    rw [restartSchema_cons, filter_cons]
    dsimp only
    rw [ih (s.restarts newPos force id) hlisted, hrest]

/-! ## What the restarts leave of other tables -/

lemma store_foldl_of_not_mem (h : id ∉ order) :
    (order.foldl (restarts newPos force) s).store id = s.store id := by
  induction order generalizing s with
  | nil => rfl
  | cons first order ih =>
    rw [mem_cons, not_or] at h
    rw [foldl_cons, ih _ h.2, restarts]
    split
    · exact update_of_ne h.1 _ _
    · rfl

lemma content_restarts (id : TableID) (tableID : Bytes) :
    (s.restarts newPos force id).cache.content tableID =
      if restartable force s.store id ∧ fileName id.toBytes = fileName tableID then none
      else s.cache.content tableID := by
  unfold restarts
  by_cases hrestart : restartable force s.store id
  · by_cases hname : fileName id.toBytes = fileName tableID
    · simp [hrestart, hname, reset, content, delete]
    · simp [hrestart, hname, reset, content, delete, update_of_ne (Ne.symm hname)]
  · simp [hrestart]

/-- A cache file is gone exactly if a table with this file name was restarted. -/
lemma content_foldl (hnodup : order.Nodup) (tableID : Bytes) :
    (order.foldl (restarts newPos force) s).cache.content tableID =
      if ∃ id ∈ order, restartable force s.store id ∧ fileName id.toBytes = fileName tableID
      then none else s.cache.content tableID := by
  induction order generalizing s with
  | nil => simp
  | cons first order ih =>
    obtain ⟨hfirst, horder⟩ := nodup_cons.mp hnodup
    have hlater : (∃ id ∈ order, restartable force (s.restarts newPos force first).store id ∧
          fileName id.toBytes = fileName tableID) ↔
        ∃ id ∈ order, restartable force s.store id ∧
          fileName id.toBytes = fileName tableID := by
      refine exists_congr fun id => and_congr_right fun hid => ?_
      have hne : id ≠ first := fun heq => hfirst (heq ▸ hid)
      rw [restartable_restarts_of_ne newPos force s hne]
    rw [foldl_cons, ih _ horder, content_restarts]
    simp only [hlater, exists_mem_cons_iff]
    by_cases hhere : restartable force s.store first ∧ fileName first.toBytes = fileName tableID
    · simp [hhere]
    · simp [hhere]

end CachedStore

open CachedStore in
/-- **Restarting a database.** For every store, cache, position, force flag and order of the tables,
`RestartSchema` is the restart of its tables exactly if no table of another database that has a
cache file shares its file name with a restarted table. -/
theorem restartsItsTables_iff (task : TaskEntry) (newPos : Option Position) (force : Bool)
    (s : CachedStore) {schema : Bytes} (listing : SchemaListing s.store schema) :
    RestartsItsTables task newPos force s listing ↔
      ∀ id lc, s.store id = some lc → id.database = schema → (force ∨ lc.state ≠ .streaming) →
        ∀ other, (s.store other).isSome → other.database ≠ schema →
          (s.cache.content other.toBytes).isSome →
            fileName id.toBytes ≠ fileName other.toBytes := by
  have hsteps : (fun s id => (CachedStore.restartTable task newPos force s id).1) =
      restarts newPos force := by
    funext s id
    exact (restartTable_eq task newPos force s id).1
  have hstate := restartSchema_state newPos force s listing.ids
  have hrestarted := restartSchema_restarted newPos force s listing.nodup
  constructor
  · intro h id lc hid hschema hforce other hother hdatabase hcache hname
    have hcontent := (h.others other hother hdatabase).2
    rw [hstate.1, content_foldl newPos force s listing.nodup, if_pos] at hcontent
    · rw [← hcontent] at hcache
      simp at hcache
    · exact ⟨id, (listing.mem_iff id).mpr ⟨by rw [hid]; rfl, hschema⟩,
        (restartable_iff force s.store id).mpr ⟨lc, hid, hforce⟩, hname⟩
  · intro h
    refine ⟨fun order horder => ?_, ?_, hstate.2, fun other hother hdatabase => ⟨?_, ?_⟩⟩
    · rw [hsteps, hstate.1]
      exact horder.symm.foldl_eq' (fun a _ b _ s => restarts_comm newPos force s a b) s
    · rw [hrestarted]
      refine filter_congr fun id _ => ?_
      rw [Bool.eq_iff_iff, decide_eq_true_eq]
      exact (restartTable_eq task newPos force s id).2.symm
    · rw [hstate.1]
      exact store_foldl_of_not_mem newPos force s fun hmem =>
        hdatabase ((listing.mem_iff other).mp hmem).2
    · rw [hstate.1, content_foldl newPos force s listing.nodup]
      split
      · -- A restarted table has the same file name, so there is no cache to lose.
        next hshared =>
          obtain ⟨id, hid, hrestart, hname⟩ := hshared
          obtain ⟨lc, hlc, hforce⟩ := (restartable_iff force s.store id).mp hrestart
          rcases hcontent : s.cache.content other.toBytes with _ | content
          · rfl
          · exact absurd hname (h id lc hlc ((listing.mem_iff id).mp hid).2 hforce other hother
              hdatabase (by rw [hcontent]; rfl))
      · rfl

def orderItemsTable : TableID := ⟨lit "shop", [], lit "order_items"⟩

/-- A table of the database `shop_order`, whose cache file has the same name. -/
def itemsTable : TableID := ⟨lit "shop_order", [], lit "items"⟩

/-- Both tables are registered, and the second one has a cache file. -/
def sharedFile : CachedStore where
  store := fun id => if id = orderItemsTable ∨ id = itemsTable then some .new else none
  cache := { empty with
    files := update empty.files (fileName itemsTable.toBytes) (some []) }

def shopListing : SchemaListing sharedFile.store (lit "shop") where
  ids := [orderItemsTable]
  nodup := nodup_singleton _
  mem_iff id := by
    have hitems : itemsTable.database ≠ lit "shop" := by decide
    rw [mem_singleton]
    simp only [sharedFile]
    by_cases horder : id = orderItemsTable
    · simp [horder, orderItemsTable]
    · by_cases hid : id = itemsTable
      · simp [hid, hitems, show itemsTable ≠ orderItemsTable by decide]
      · simp [horder, hid]

/-- The restart of `shop` removes the cache file of a table in `shop_order`. -/
theorem not_forall_restartsItsTables :
    ¬∀ (task : TaskEntry) (newPos : Option Position) (force : Bool) (s : CachedStore)
      (schema : Bytes) (listing : SchemaListing s.store schema),
      RestartsItsTables task newPos force s listing := by
  intro h
  obtain ⟨-, hcontent⟩ := (h ⟨lit "\"shop\"", true⟩ none false sharedFile _ shopListing).others
    itemsTable (by decide)
    (by decide)
  revert hcontent
  decide

end DataStream.Lifecycle
