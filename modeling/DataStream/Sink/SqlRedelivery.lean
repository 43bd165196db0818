import DataStream.Foundations.Redelivery
import DataStream.Sink.SqlReplica

/-!
# Writing the end of a history twice

A source that restarts from an earlier position delivers the end of its history once more. With an
idempotent insert strategy (`replace` or `upsert`) an insert overwrites the row of its key, an
update or delete of a row that is not there does nothing. But an update that changes the key of a
row fails if the row is there and its new key is taken, and moves nothing if the row is not there.

* `redelivers_iff`: when the second delivery succeeds and leaves the table as it was.
-/

namespace DataStream.Sink

open Bytes Event Sql Redelivery List Option Function Table

/-! ## Tables as rows by their keys -/

namespace SourceTable

variable (src : SourceTable)

/-- The rows of the table by their keys. -/
def view (rows : List (Row GoValue)) : Rows (List GoValue) (Row GoValue) :=
  fun k => rows.find? fun r => keyOf src.key r = k

/-- An event as an operation on rows with keys. -/
def opOf (e : ChangeEvent) : Op (List GoValue) (Row GoValue) :=
  match e.type with
  | .insert => .put (keyOf src.key (rowOf e.after)) (rowOf e.after)
  | .update => .update (keyOf src.key (rowOf e.before)) (keyOf src.key (rowOf e.after))
      (rowOf e.after)
  | _ => .remove (keyOf src.key (rowOf e.before))

/-- An event of the table with full images and keys that are not null. -/
def Sound (e : ChangeEvent) : Prop :=
  e.table = src.info ∧
    match e.type with
    | .insert => src.FullImage e.after ∧ src.KeyNotNull e.after
    | .update => src.FullImage e.before ∧ src.FullImage e.after ∧ src.KeyNotNull e.before ∧
        src.KeyNotNull e.after
    | .delete => src.FullImage e.before ∧ src.KeyNotNull e.before
    | _ => False

variable {src} {rows rows' : List (Row GoValue)} {e : ChangeEvent} {k : List GoValue}

lemma view_eq_none_iff : src.view rows k = none ↔ ∀ r ∈ rows, keyOf src.key r ≠ k := by
  simp [view, find?_eq_none]

lemma Holds.view_eq_some_iff (hrows : src.Holds rows) {r : Row GoValue} :
    src.view rows k = some r ↔ r ∈ rows ∧ keyOf src.key r = k := by
  constructor
  · intro h
    exact ⟨mem_of_find?_eq_some h, by simpa using find?_some h⟩
  · rintro ⟨hr, rfl⟩
    rcases hview : src.view rows (keyOf src.key r) with _ | r'
    · exact absurd rfl (view_eq_none_iff.mp hview r hr)
    · have hkey : keyOf src.key r' = keyOf src.key r := by simpa using find?_some hview
      have hr' : r' ∈ rows := mem_of_find?_eq_some hview
      rw [hrows.valid.eq_of_keyOf_eq hr' hr hkey]

lemma Holds.perm_iff_view_eq (hrows : src.Holds rows) (hrows' : src.Holds rows') :
    rows'.Perm rows ↔ src.view rows' = src.view rows := by
  have hnodup : rows.Nodup := hrows.valid.1.of_map _
  have hnodup' : rows'.Nodup := hrows'.valid.1.of_map _
  rw [perm_ext_iff_of_nodup hnodup' hnodup]
  constructor
  · intro hmem
    ext k r
    rw [hrows'.view_eq_some_iff, hrows.view_eq_some_iff, hmem]
  · intro hview r
    have hsome := Eq.congr_left (z := some r) (congrFun hview (keyOf src.key r))
    rw [hrows'.view_eq_some_iff, hrows.view_eq_some_iff] at hsome
    simpa using hsome

lemma Holds.view_put (hrows : src.Holds rows) (hrows' : src.Holds rows') {row : Row GoValue}
    (hmem : ∀ r, r ∈ rows' ↔ r = row ∨ (r ∈ rows ∧ keyOf src.key r ≠ keyOf src.key row)) :
    src.view rows' = update (src.view rows) (keyOf src.key row) (some row) := by
  ext k r
  rw [hrows'.view_eq_some_iff, hmem]
  by_cases hk : k = keyOf src.key row
  · subst hk
    rw [update_self, some.injEq]
    constructor
    · rintro ⟨rfl | ⟨-, hne⟩, heq⟩
      · rfl
      · exact absurd heq hne
    · rintro rfl
      exact ⟨.inl rfl, rfl⟩
  · rw [update_of_ne hk, hrows.view_eq_some_iff]
    constructor
    · rintro ⟨rfl | ⟨hr, -⟩, heq⟩
      · exact absurd heq.symm hk
      · exact ⟨hr, heq⟩
    · rintro ⟨hr, rfl⟩
      exact ⟨.inr ⟨hr, hk⟩, rfl⟩

lemma view_removeKey (k : List GoValue) :
    src.view (removeKey src.key k rows) = update (src.view rows) k none := by
  ext1 k'
  by_cases hk : k' = k
  · subst hk
    rw [update_self, view_eq_none_iff]
    intro r hr
    simpa using (mem_filter.mp hr).2
  · rw [update_of_ne hk, view, view, removeKey, find?_filter]
    congr 1
    funext r
    by_cases hr : keyOf src.key r = k' <;> simp [hr, hk]

lemma Holds.removeKey (hrows : src.Holds rows) (k : List GoValue) :
    src.Holds (removeKey src.key k rows) :=
  ⟨hrows.valid.filter _, fun r hr => hrows.columns r (mem_of_mem_filter hr)⟩

lemma replaceKey_of_view_eq_none (hk : src.view rows k = none) (row : Row GoValue) :
    replaceKey src.key k row rows = rows := by
  have hid : ∀ r ∈ rows, (if keyOf src.key r = k then row else r) = r :=
    fun r hr => if_neg (view_eq_none_iff.mp hk r hr)
  rw [replaceKey, map_congr_left hid, List.map_id']

lemma Holds.view_replaceKey (hrows : src.Holds rows) {row : Row GoValue}
    (hrows' : src.Holds (replaceKey src.key k row rows)) (hk : src.view rows k ≠ none)
    (hnew : keyOf src.key row = k ∨ src.view rows (keyOf src.key row) = none) :
    src.view (replaceKey src.key k row rows) =
      (Op.update k (keyOf src.key row) row).apply (src.view rows) := by
  have hmem : ∀ r, r ∈ replaceKey src.key k row rows ↔
      r = row ∨ (r ∈ Sql.removeKey src.key k rows ∧ keyOf src.key r ≠ keyOf src.key row) := by
    intro r
    obtain ⟨old, hold⟩ := ne_none_iff_exists'.mp hk
    obtain ⟨hold, hkey⟩ := hrows.view_eq_some_iff.mp hold
    -- A row that stays does not have the new key either.
    have hother : ∀ r ∈ rows, keyOf src.key r ≠ k → keyOf src.key r ≠ keyOf src.key row := by
      intro r hr hk'
      rcases hnew with rfl | hfree
      · exact hk'
      · exact view_eq_none_iff.mp hfree r hr
    rw [mem_replaceKey_iff ⟨old, hold, hkey⟩, Sql.removeKey, mem_filter, decide_eq_true_eq]
    exact or_congr_right (and_iff_left_of_imp fun hand => hother r hand.1 hand.2).symm
  rw [(hrows.removeKey k).view_put hrows' hmem, view_removeKey, Op.apply]

/-! ## Valid changes -/

lemma ValidChange.opOf_valid (hvalid : src.ValidChange rows e) :
    (src.opOf e).Valid (src.view rows) := by
  have hthere : ∀ {r : Row GoValue}, r ∈ rows → src.view rows (keyOf src.key r) ≠ none := by
    intro r hr hnone
    exact view_eq_none_iff.mp hnone r hr rfl
  have hchange := hvalid.2
  rcases htype : e.type <;> simp only [htype] at hchange <;> simp only [opOf, htype, Op.Valid]
  · exact view_eq_none_iff.mpr hchange.2.2
  · obtain ⟨-, -, hmem, -, hnew⟩ := hchange
    exact ⟨hthere hmem, hnew.imp_right view_eq_none_iff.mpr⟩
  · exact hthere hchange.2

lemma ValidChange.view_change (hvalid : src.ValidChange rows e) (hrows : src.Holds rows) :
    src.view (src.change rows e) = (src.opOf e).apply (src.view rows) := by
  have hrows' := hrows.change hvalid
  have hop := hvalid.opOf_valid
  have hchange := hvalid.2
  rcases htype : e.type <;> simp only [htype] at hchange <;>
    simp only [opOf, htype, Op.Valid] at hop <;>
    simp only [change, htype] at hrows' <;> simp only [opOf, change, htype]
  · refine hrows.view_put hrows' fun r => ?_
    rw [mem_append, mem_singleton, or_comm, and_iff_left_of_imp (view_eq_none_iff.mp hop r)]
  · exact hrows.view_replaceKey hrows' hop.1 hop.2
  · exact view_removeKey _

lemma ValidChange.sound (hvalid : src.ValidChange rows e) (hrows : src.Holds rows) :
    src.Sound e := by
  refine ⟨hvalid.1, ?_⟩
  have hchange := hvalid.2
  rcases htype : e.type <;> simp only [htype] at hchange
  · exact ⟨hchange.1, hchange.2.1⟩
  · obtain ⟨hbefore, hafter, hmem, hnull, -⟩ := hchange
    exact ⟨hbefore, hafter, hrows.valid.2 _ hmem, hnull⟩
  · exact ⟨hchange.1, hrows.valid.2 _ hchange.2⟩

end SourceTable

open SourceTable

/-! ## What the sinks do to any rows -/

namespace SqlSink

/-- The insert strategies that overwrite the row of a key. -/
def Idempotent : SqlSink → Prop
  | mysql cfg => cfg.insertStrategy = lit "replace" ∨ cfg.insertStrategy = lit "upsert"
  | postgres cfg => cfg.insertStrategy = lit "upsert"
  | _ => False

variable {sink : SqlSink} {src : SourceTable} {rows : List (Row GoValue)} {e : ChangeEvent}
  {order : List Bytes → List Bytes}

lemma assign_selfSets_eq (hrows : src.Holds rows) (hfull : src.FullImage e.after)
    {columns : List Bytes} (hcolumns : ∀ col ∈ src.columns, col ∉ src.key → col ∈ columns)
    {r : Row GoValue} (hr : r ∈ rows) (hkey : keyOf src.key r = keyOf src.key (rowOf e.after)) :
    assign ((selfSets columns).map Prod.fst) ((selfSets columns).map fun set => rowOf e.after set.2)
      r = rowOf e.after := by
  have hvalues : ((selfSets columns).map fun set => rowOf e.after set.2) =
      columns.map (rowOf e.after) := by simp [selfSets, comp_def]
  ext col
  rw [map_fst_selfSets, hvalues, assign_map]
  split_ifs with hcol
  · rfl
  · by_cases hmem : col ∈ src.columns
    · -- A column that is not assigned is one of the key.
      have hkeycol : col ∈ src.key := by
        by_contra hnot
        exact hcol (hcolumns col hmem hnot)
      exact keyOf_eq_iff.mp hkey col hkeycol
    · rw [hrows.columns r hr col hmem, hfull.rowOf_eq_nil hmem]

lemma Idempotent.overwrites (hsink : sink.Idempotent) (hrows : src.Holds rows)
    (htable : e.table = src.info) (hfull : src.FullImage e.after) (horder : IsOrder order) :
    (src.table rows).Overwrites sink.replaces (sink.onConflict e (e.after.columnNames order))
      (rowOf e.after) := by
  have hreplace : lit "upsert" ≠ lit "replace" := by decide
  rcases sink with cfg | cfg | cfg | cfg
  · simp only [onConflict, Mysql.onConflict, replaces]
    rcases hsink with hsink | hsink
    · simp only [hsink, if_neg (Ne.symm hreplace), decide_true]
      trivial
    · simp only [hsink, if_true, hreplace, decide_false]
      intro r hr hkey
      exact assign_selfSets_eq hrows hfull (fun col hcol _ => hfull.mem_columnNames horder hcol) hr
        hkey
  · have hsink' : cfg.insertStrategy = lit "upsert" := hsink
    have hne : e.table.primaryKeyColumns.isEmpty = false := by
      rw [htable]
      simpa using src.key_ne_nil
    have hcolumns : ∀ col ∈ src.columns, col ∉ src.key →
        col ∈ Postgres.updateColumns e (e.after.columnNames order) := by
      intro col hcol hnot
      rw [Postgres.updateColumns, mem_filter, htable]
      exact ⟨hfull.mem_columnNames horder hcol, by simpa using hnot⟩
    simp only [onConflict, Postgres.onConflict, replaces, hsink', hne, if_true, Bool.false_eq_true,
      if_false]
    split_ifs with hempty
    · -- All columns are in the key, so the row that is there is the new one.
      intro r hr hkey
      rw [← assign_selfSets_eq hrows hfull hcolumns hr hkey, List.isEmpty_iff.mp hempty]
      rfl
    · intro r hr hkey
      exact assign_selfSets_eq hrows hfull hcolumns hr hkey
  · exact hsink.elim
  · exact hsink.elim

section Delivery

variable {db : Database GoValue} (hsink : sink.Idempotent)
  (htarget : Unquoted sink.dialect (sink.target src.info))
  (hcolumns : Unquoted sink.dialect src.columns)

/-- Writing an event to a table with some rows leaves one with other rows; `none` is an error. -/
def LeavesRows (sink : SqlSink) (src : SourceTable) (db : Database GoValue)
    (order : List Bytes → List Bytes) (e : ChangeEvent) :
    Option (Rows (List GoValue) (Row GoValue)) → Prop
  | none => sink.deliverEvent db order e = none
  | some view => ∃ rows, src.Holds rows ∧ src.view rows = view ∧
      sink.deliverEvent db order e = some (update db (sink.target src.info) (some (src.table rows)))

include htarget hcolumns

lemma leaves_update (hrows : src.Holds rows) (horder : IsOrder order)
    (hdb : db (sink.target src.info) = some (src.table rows)) (htable : e.table = src.info)
    (htype : e.type = .update) (hbefore : src.FullImage e.before) (hafter : src.FullImage e.after)
    (hnull : src.KeyNotNull e.after) :
    sink.LeavesRows src db order e ((src.opOf e).exec (src.view rows)) := by
  have hwrite :=
    (runs_update htarget hcolumns hdb htable hrows horder htype hbefore hafter).deliverEvent_eq
  have hthere : ∀ {k : List GoValue}, src.view rows k ≠ none → ∃ r ∈ rows, keyOf src.key r = k := by
    intro k hk
    obtain ⟨r, hr⟩ := ne_none_iff_exists'.mp hk
    exact ⟨r, hrows.view_eq_some_iff.mp hr⟩
  have hop : src.opOf e = .update (keyOf src.key (rowOf e.before)) (keyOf src.key (rowOf e.after))
      (rowOf e.after) := by simp only [opOf, htype]
  rw [hop, Op.exec]
  set old := keyOf src.key (rowOf e.before)
  split_ifs with hnone hmeet
  · -- There is no such row, and nothing is changed.
    refine ⟨rows, hrows, rfl, ?_⟩
    rw [hwrite, replaceKey_of_view_eq_none (isNone_iff_eq_none.mp hnone),
      withRows_of_valid hrows.valid]
    rfl
  · -- The new key is that of another row.
    obtain ⟨hne, hsome⟩ := hmeet
    have hinvalid : ¬ Valid GoValue.nil
        { src.table rows with rows := replaceKey src.key old (rowOf e.after) rows } :=
      not_valid_replace (t := src.table rows)
      (hthere fun heq => hnone (isNone_iff_eq_none.mpr heq))
      (hthere (isSome_iff_ne_none.mp hsome)) hne
    change sink.deliverEvent db order e = none
    rw [hwrite, withRows, if_neg hinvalid]
    rfl
  · have hk : src.view rows old ≠ none := fun heq => hnone (isNone_iff_eq_none.mpr heq)
    have hnew : keyOf src.key (rowOf e.after) = old ∨
        src.view rows (keyOf src.key (rowOf e.after)) = none := by
      by_cases hsame : keyOf src.key (rowOf e.after) = old
      · exact .inl hsame
      · exact .inr (not_isSome_iff_eq_none.mp fun hsome => hmeet ⟨hsame, hsome⟩)
    have hholds : src.Holds (replaceKey src.key old (rowOf e.after) rows) := by
      refine ⟨hrows.valid.replace hnull (hnew.imp_right view_eq_none_iff.mp), ?_⟩
      intro r hr col hcol
      obtain ⟨r', hr', rfl⟩ := List.mem_map.mp hr
      split_ifs
      · exact hafter.rowOf_eq_nil hcol
      · exact hrows.columns r' hr' col hcol
    refine ⟨_, hholds, hrows.view_replaceKey hholds hk hnew, ?_⟩
    rw [hwrite, withRows_of_valid (t := src.table rows) hholds.valid]
    rfl

include hsink

/-- What a sink with an idempotent strategy does for an event, on any rows. -/
theorem deliverEvent_exec (hrows : src.Holds rows) (horder : IsOrder order)
    (hdb : db (sink.target src.info) = some (src.table rows)) (hsound : src.Sound e)
    (hcopy : e.type = .insert → sink.TakesInsert src.columns.length) :
    sink.LeavesRows src db order e ((src.opOf e).exec (src.view rows)) := by
  obtain ⟨htable, hevent⟩ := hsound
  rcases htype : e.type <;> simp only [htype] at hevent
  · obtain ⟨hfull, hnull⟩ := hevent
    have hwrite := (runs_insert htarget hcolumns hdb htable horder (hcopy htype) htype
      hfull).deliverEvent_eq
    have hsuits : (src.table rows).Suits sink.replaces
        (sink.onConflict e (e.after.columnNames order)) :=
      suits_onConflict (by rw [htable]; rfl) (hfull.fits_columnNames horder rows)
    obtain ⟨rows', hinsert, hvalid, hmem⟩ := insertRow_of_overwrites hrows.valid hsuits
      (hsink.overwrites hrows htable hfull horder) hnull
    have hholds : src.Holds rows' := by
      refine ⟨hvalid, fun r hr col hcol => ?_⟩
      rcases (hmem r).mp hr with rfl | ⟨hr, -⟩
      · exact hfull.rowOf_eq_nil hcol
      · exact hrows.columns r hr col hcol
    simp only [opOf, htype, Op.exec, Op.apply]
    refine ⟨rows', hholds, hrows.view_put hholds hmem, ?_⟩
    rw [hwrite, hinsert]
    rfl
  · obtain ⟨hbefore, hafter, -, hnull⟩ := hevent
    exact leaves_update htarget hcolumns hrows horder hdb htable htype hbefore hafter hnull
  · obtain ⟨hbefore, -⟩ := hevent
    have hruns : sink.Runs db order e _ _ :=
      runs_delete htarget hcolumns hdb htable hrows htype hbefore
    simp only [opOf, htype, Op.exec, Op.apply]
    exact ⟨_, hrows.removeKey _, view_removeKey _, hruns.deliverEvent_eq⟩

lemma deliver_exec_iff {events : List ((List Bytes → List Bytes) × ChangeEvent)}
    (horders : ∀ p ∈ events, IsOrder p.1) (hsound : ∀ p ∈ events, src.Sound p.2)
    (hcopy : ∀ p ∈ events, p.2.type = .insert → sink.TakesInsert src.columns.length)
    (hrows : src.Holds rows) (hdb : db (sink.target src.info) = some (src.table rows))
    (last : Rows (List GoValue) (Row GoValue)) :
    ((events.map Prod.snd).map src.opOf).foldlM Op.exec (src.view rows) = some last ↔
      ∃ db' rows', sink.deliver db events = some db' ∧ src.Holds rows' ∧
        db' (sink.target src.info) = some (src.table rows') ∧ src.view rows' = last := by
  induction events generalizing rows db with
  | nil =>
    constructor
    · intro h
      exact ⟨db, rows, rfl, hrows, hdb, some.inj h⟩
    · rintro ⟨db', rows', hdeliver, hrows', hdb', rfl⟩
      obtain rfl := some.inj hdeliver
      have htables := some.inj (hdb.symm.trans hdb')
      have heq : rows = rows' := congrArg Table.rows htables
      rw [heq]
      rfl
  | cons p events ih =>
    have hstep := deliverEvent_exec hsink htarget hcolumns hrows (horders p mem_cons_self) hdb
      (hsound p mem_cons_self) (hcopy p mem_cons_self)
    rw [map_cons, map_cons, foldlM_cons, deliver, foldlM_cons]
    rcases hexec : (src.opOf p.2).exec (src.view rows) with _ | view
    · rw [hexec] at hstep
      refine iff_of_false (fun heq => by cases heq) ?_
      rintro ⟨db', rows', hdeliver, -⟩
      have herror : sink.deliverEvent db p.1 p.2 = none := hstep
      rw [herror] at hdeliver
      cases hdeliver
    · rw [hexec] at hstep
      obtain ⟨rows₁, hrows₁, rfl, hwrite⟩ := hstep
      rw [hwrite]
      exact ih (fun p' hp' => horders p' (mem_cons_of_mem _ hp'))
        (fun p' hp' => hsound p' (mem_cons_of_mem _ hp'))
        (fun p' hp' => hcopy p' (mem_cons_of_mem _ hp')) hrows₁ (update_self _ _ _)

end Delivery

/-! ## Histories -/

/-- The history is written, then the events of its end again, each with the iteration order of its
maps. Nothing fails, and the second delivery leaves the rows of the target as they are. -/
def Redelivers (sink : SqlSink) (src : SourceTable) (db : Database GoValue)
    (history again : List ((List Bytes → List Bytes) × ChangeEvent)) : Prop :=
  ∃ db₁ db₂ rows₁ rows₂, sink.deliver db history = some db₁ ∧
    db₁ (sink.target src.info) = some (src.table rows₁) ∧ sink.deliver db₁ again = some db₂ ∧
    db₂ (sink.target src.info) = some (src.table rows₂) ∧ rows₂.Perm rows₁

end SqlSink

namespace SourceTable

variable {src : SourceTable} {rows : List (Row GoValue)}

/-- The rows that live while the events are written for the second time are met as often as they
have to be; `rows` are those of the source before the events. -/
def Harmless (src : SourceTable) (rows : List (Row GoValue)) (events : List ChangeEvent) : Prop :=
  Redelivery.Harmless (src.view rows) (src.view (src.changes rows events)) (events.map src.opOf)

lemma ValidHistory.operations {events : List ChangeEvent} (hvalid : src.ValidHistory rows events)
    (hrows : src.Holds rows) :
    Along Op.apply Op.Valid (src.view rows) (events.map src.opOf) ∧
      (events.map src.opOf).foldl Op.apply (src.view rows) = src.view (src.changes rows events) ∧
      src.Holds (src.changes rows events) ∧ ∀ e ∈ events, src.Sound e := by
  induction events generalizing rows with
  | nil => exact ⟨trivial, rfl, hrows, by simp⟩
  | cons e events ih =>
    obtain ⟨hchange, hrest⟩ := hvalid
    obtain ⟨hops, hview, hholds, hsound⟩ := ih hrest (hrows.change hchange)
    rw [hchange.view_change hrows] at hops hview
    exact ⟨⟨hchange.opOf_valid, hops⟩, hview, hholds,
      forall_mem_cons.mpr ⟨hchange.sound hrows, hsound⟩⟩

lemma Holds.of_perm {rows' : List (Row GoValue)} (hrows : src.Holds rows)
    (hperm : rows'.Perm rows) : src.Holds rows' :=
  ⟨⟨((hperm.map _).nodup_iff).mpr hrows.valid.1, fun r hr => hrows.valid.2 r (hperm.mem_iff.mp hr)⟩,
    fun r hr => hrows.columns r (hperm.mem_iff.mp hr)⟩

end SourceTable

namespace SqlSink

lemma deliver_eq_none_of_overflow {sink : SqlSink} {src : SourceTable}
    (hcopy : ¬ sink.TakesInsert src.columns.length)
    {events : List ((List Bytes → List Bytes) × ChangeEvent)} (horders : ∀ p ∈ events, IsOrder p.1)
    {p : (List Bytes → List Bytes) × ChangeEvent} (hp : p ∈ events) (htype : p.2.type = .insert)
    (hfull : src.FullImage p.2.after) (db : Database GoValue) : sink.deliver db events = none := by
  induction events generalizing db with
  | nil => exact absurd hp not_mem_nil
  | cons p' events ih =>
    rw [deliver, foldlM_cons]
    rcases mem_cons.mp hp with rfl | hp
    · have hlength := (hfull.columnNames_perm (horders p mem_cons_self)).length_eq
      have hrequest : sink.request p.1 p.2 = .overflow :=
        (request_insert htype).trans (executeInsert_overflow (hlength ▸ hcopy))
      rw [deliverEvent, hrequest]
      rfl
    · rcases sink.deliverEvent db p'.1 p'.2 with _ | db'
      · rfl
      · exact ih (fun q hq => horders q (mem_cons_of_mem _ hq)) hp db'

/-- **Redelivery.** A sink with an idempotent insert strategy writes a valid history, and then the
end of it again. This raises no error and leaves the table as it was exactly if the end of the
history is harmless, and its inserts do not enter the recursion of `executeCopyInsert`. -/
theorem redelivers_iff (sink : SqlSink) (hsink : sink.Idempotent) (src : SourceTable)
    (htarget : Unquoted sink.dialect (sink.target src.info))
    (hcolumns : Unquoted sink.dialect src.columns) (rows : List (Row GoValue))
    (hrows : src.Holds rows) (past suffix : List ChangeEvent)
    (hvalid : src.ValidHistory rows (past ++ suffix))
    (history again : List ((List Bytes → List Bytes) × ChangeEvent))
    (hhistory : history.map Prod.snd = past ++ suffix) (hagain : again.map Prod.snd = suffix)
    (horders : ∀ p ∈ history ++ again, IsOrder p.1) (db : Database GoValue)
    (hdb : db (sink.target src.info) = some (src.table rows)) :
    sink.Redelivers src db history again ↔
      (∀ e ∈ past ++ suffix, e.type = .insert → sink.TakesInsert src.columns.length) ∧
        src.Harmless (src.changes rows past) suffix := by
  obtain ⟨horders, horders'⟩ := forall_mem_append.mp horders
  obtain ⟨hpast, hsuffix⟩ := hvalid.append
  obtain ⟨-, -, hrows₀, -⟩ := hpast.operations hrows
  obtain ⟨hops, hview, hrows₁, hsound⟩ := hsuffix.operations hrows₀
  by_cases hcopy : ∀ e ∈ past ++ suffix, e.type = .insert → sink.TakesInsert src.columns.length
  · rw [and_iff_right hcopy]
    -- The first delivery leaves the rows of the source.
    obtain ⟨-, db₁, hdeliver, hdb₁⟩ := deliver_history htarget hcolumns
      (fun p hp => hcopy p.2 (hhistory ▸ List.mem_map_of_mem hp)) horders hrows
      (hhistory ▸ hvalid) hdb
    have hchanges : src.changes rows (history.map Prod.snd) =
        src.changes (src.changes rows past) suffix := by
      rw [hhistory]
      exact foldl_append
    rw [hchanges] at hdb₁
    -- The second one does what its operations do to the rows by their keys.
    have hagain' : ∀ p ∈ again, p.2 ∈ suffix := fun p hp => hagain ▸ List.mem_map_of_mem hp
    have hexec := deliver_exec_iff hsink htarget hcolumns horders'
      (fun p hp => hsound _ (hagain' p hp))
      (fun p hp => hcopy p.2 (mem_append_right _ (hagain' p hp))) hrows₁ hdb₁
      (src.view (src.changes (src.changes rows past) suffix))
    rw [hagain, ← hview, redelivery_iff hops, hview] at hexec
    rw [SourceTable.Harmless, hexec]
    constructor
    · rintro ⟨db₁', db₂, rows₁, rows₂, hdeliver', hdb₁', hdeliver₂, hdb₂, hperm⟩
      obtain rfl := some.inj (hdeliver.symm.trans hdeliver')
      obtain rfl : rows₁ = src.changes (src.changes rows past) suffix :=
        congrArg Table.rows (some.inj (hdb₁'.symm.trans hdb₁))
      have hrows₂ := hrows₁.of_perm hperm
      exact ⟨db₂, rows₂, hdeliver₂, hrows₂, hdb₂, (hrows₁.perm_iff_view_eq hrows₂).mp hperm⟩
    · rintro ⟨db₂, rows₂, hdeliver₂, hrows₂, hdb₂, heq⟩
      exact ⟨db₁, db₂, _, rows₂, hdeliver, hdb₁, hdeliver₂, hdb₂,
        (hrows₁.perm_iff_view_eq hrows₂).mpr heq⟩
  · -- An insert that does not return: already the first delivery fails.
    refine iff_of_false ?_ fun h => hcopy h.1
    rintro ⟨db₁, -, -, -, hdeliver, -⟩
    push Not at hcopy
    obtain ⟨e, he, htype, hcopy⟩ := hcopy
    obtain ⟨p, hp, rfl⟩ := List.mem_map.mp (hhistory ▸ he)
    have hfull : src.FullImage p.2.after := by
      have hevent := ((hvalid.operations hrows).2.2.2 _ he).2
      rw [htype] at hevent
      exact hevent.1
    rw [deliver_eq_none_of_overflow hcopy horders hp htype hfull] at hdeliver
    cases hdeliver

def emptyUsers : Database GoValue := fun _ => some (usersSource.table [])

/-- An insert and a change of name can be written again. -/
theorem redelivers_renameHistory :
    upsertSink.Redelivers usersSource emptyUsers renameHistory renameHistory := by
  have horders : ∀ p ∈ renameHistory ++ renameHistory, IsOrder p.1 :=
    forall_mem_append.mpr ⟨isOrder_of_mem_pair, isOrder_of_mem_pair⟩
  -- The row is met where it is inserted; the change of name leaves it under its key.
  have htrail : ∀ (last : Rows (List GoValue) (Row GoValue)) touched k row,
      Trail last touched True k [Op.update k k row] := by
    intro last touched k row
    simp [Trail]
  refine (redelivers_iff upsertSink rfl usersSource (by decide) (by decide) []
    usersSource.holds_nil [] (renameHistory.map Prod.snd) renameHistory_valid renameHistory
    renameHistory rfl rfl horders _ rfl).mpr ⟨fun _ _ _ hcopy => ?_, fun k hk => absurd rfl hk, ?_⟩
  · exact Bool.false_ne_true hcopy.1
  · exact ⟨htrail _ _ _ _, trivial, trivial⟩

/-- A change of key cannot be written again after the insert of its row: both rows are there. -/
theorem not_forall_redelivers :
    ¬ ∀ (sink : SqlSink), sink.Idempotent → ∀ (src : SourceTable),
      Unquoted sink.dialect (sink.target src.info) → Unquoted sink.dialect src.columns →
      ∀ rows, src.Holds rows → ∀ past suffix, src.ValidHistory rows (past ++ suffix) →
      ∀ history again : List ((List Bytes → List Bytes) × ChangeEvent),
        history.map Prod.snd = past ++ suffix → again.map Prod.snd = suffix →
        (∀ p ∈ history ++ again, IsOrder p.1) →
        ∀ db : Database GoValue, db (sink.target src.info) = some (src.table rows) →
          sink.Redelivers src db history again := by
  intro hall
  have hcolumns : Unquoted upsertSink.dialect usersSource.columns := by decide
  have htarget : Unquoted upsertSink.dialect (upsertSink.target usersSource.info) := by
    decide
  have hcopy : ∀ p ∈ usersHistory, p.2.type = .insert →
      upsertSink.TakesInsert usersSource.columns.length :=
    fun _ _ _ hcopy => Bool.false_ne_true hcopy.1
  obtain ⟨db₁, db₂, rows₁, rows₂, hdeliver, hdb₁, hdeliver₂, hdb₂, hperm⟩ :=
    hall upsertSink rfl usersSource htarget hcolumns [] usersSource.holds_nil [] _
      usersHistory_valid usersHistory usersHistory rfl rfl
      (forall_mem_append.mpr ⟨isOrder_of_mem_pair, isOrder_of_mem_pair⟩) emptyUsers rfl
  obtain ⟨-, -, hrows, hsound⟩ := usersHistory_valid.operations usersSource.holds_nil
  -- After the first delivery the only row is that of user 2.
  have hempty : emptyUsers (upsertSink.target usersSource.info) = some (usersSource.table []) := rfl
  obtain ⟨-, db', hdeliver', hdb'⟩ := deliver_history htarget hcolumns hcopy isOrder_of_mem_pair
    usersSource.holds_nil usersHistory_valid hempty
  obtain rfl := some.inj (hdeliver.symm.trans hdeliver')
  obtain rfl : rows₁ = usersSource.changes [] (usersHistory.map Prod.snd) :=
    congrArg rows (some.inj (hdb₁.symm.trans hdb'))
  -- The second one inserts user 1 again, whose key then cannot become that of user 2.
  have hsink : upsertSink.Idempotent := rfl
  have horders : ∀ p ∈ usersHistory, IsOrder p.1 := isOrder_of_mem_pair
  have hexec := (deliver_exec_iff hsink htarget hcolumns horders
    (fun p hp => hsound p.2 (List.mem_map_of_mem hp)) hcopy hrows hdb₁ (usersSource.view rows₂)).mpr
    ⟨db₂, rows₂, hdeliver₂, hrows.of_perm hperm, hdb₂, rfl⟩
  have herror : (((usersHistory.map Prod.snd).map usersSource.opOf).foldlM Op.exec
      (usersSource.view (usersSource.changes [] (usersHistory.map Prod.snd)))).isNone = true := by
    decide
  rw [hexec] at herror
  cases herror

end SqlSink

end DataStream.Sink
