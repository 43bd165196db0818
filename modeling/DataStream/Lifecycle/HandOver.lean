import DataStream.Lifecycle.CatchingUpReplayer
import DataStream.Lifecycle.FailedDDL
import DataStream.Lifecycle.SnapshotScheduler

/-!
# The hand-over from snapshot to streaming

Four activities share the lifecycle record and the cache file of a table: `Route` calls, made one
after another, that cache an event or write it to the sink; `OnSnapshotComplete`; a `Replay` with
its reading goroutine; and `OnCaughtUp`. The machine interleaves them: a `Route` call first decides
by the state of the table, and does its write in a later step.

* `handOver_delivers`: in orderly runs the sink gets all events in source order, each once.
-/

namespace DataStream.Lifecycle

open Event Source Cache List Option

/-- A write that a `Route` call has decided on. -/
inductive Write where
  | sink (ev : ChangeEvent)
  | cache (ce : CacheEvent)

structure HandOver where
  consumer : Consumer
  /-- The writes of the `Route` call at hand that are still to be done. -/
  inflight : List Write
  file : Option Bytes
  replay : Option Replay
  /-- `OnCaughtUp` has saved the new state and not yet removed the file. -/
  deleting : Bool
  sink : List ChangeEvent
  offered : List ChangeEvent

inductive HandOverInput where
  /-- `Route` is called and decides, with these answers of the services. -/
  | offer (env : Env) (ev : ChangeEvent)
  /-- The `Route` call at hand does its next write. -/
  | perform
  | snapshotComplete
  | startReplay
  | openFile
  | read
  /-- The replay takes an event, within the upsert window or after it. -/
  | take (upsert : Bool)
  | takeError
  | write
  | caughtUp
  | deleteCache

namespace HandOver

variable (cfg : Config) (task : TaskEntry) (id : TableID) (s : HandOver)

/-- The writes of a `Route` call that concern a table. -/
def writes (effects : List Effect) : List Write :=
  effects.filterMap fun
    | .sinkWrite ev => some (.sink ev)
    | .cacheWrite tableID _ ce => if tableID = id.toBytes then some (.cache ce) else none
    | _ => none

/-- Do a write. A record that is too large for its length field panics. -/
def doWrite : Write → HandOver
  | .sink ev => { s with sink := s.sink ++ [ev] }
  | .cache ce => { s with file := (marshalAndWrite (s.file.getD []) ce).or s.file }

/-- Replace the lifecycle records, if a scheduler call has succeeded. -/
def setLifecycle (result : Except Bytes LifecycleStore) : HandOver :=
  match result with
  | .ok store => { s with consumer := { s.consumer with lifecycle := store } }
  | .error _ => s

/-- One step. -/
def next : HandOverInput → HandOver
  | .offer env ev =>
    -- Calls are made one after another: the last one has to be done with its write.
    if s.inflight.isEmpty then
      let r := route cfg env s.consumer ev
      { s with
        consumer := r.state
        inflight := writes id r.effects
        offered := s.offered ++ [ev] }
    else s
  | .perform =>
    match s.inflight with
    | [] => s
    | w :: ws => { s.doWrite w with inflight := ws }
  | .snapshotComplete =>
    s.setLifecycle (SnapshotScheduler.onSnapshotComplete task s.consumer.lifecycle id)
  | .startReplay => { s with replay := some .start }
  | .openFile => { s with replay := s.replay.map (Replay.openFile s.file) }
  | .read => { s with replay := s.replay.map (Replay.read s.file) }
  | .take upsert => { s with replay := s.replay.map (Replay.take upsert) }
  | .takeError => { s with replay := s.replay.map Replay.takeError }
  | .write =>
    match s.replay with
    | some r =>
      { s with
        sink := s.sink ++ r.hand.toList
        replay := some { r with hand := none } }
    | none => s
  | .caughtUp =>
    match SnapshotScheduler.onCaughtUp task s.consumer.lifecycle id with
    | .ok store => { s with consumer := { s.consumer with lifecycle := store }, deleting := true }
    | .error _ => s
  | .deleteCache =>
    if s.deleting then
      -- A reader that has the file open keeps the bytes; a new cache write makes a new file.
      { s with
        file := none
        replay := s.replay.map fun r => { r with reader := r.reader.detach s.file }
        deleting := false }
    else s

def machine : Machine HandOver HandOverInput Empty where
  step s i := (s.next cfg task id i, [])

/-- The table has just entered `snapshotting`, and nothing was offered yet. -/
def begin (consumer : Consumer) : HandOver where
  consumer := consumer
  inflight := []
  file := none
  replay := none
  deleting := false
  sink := []
  offered := []

end HandOver

open HandOver

/-! ## What is to be delivered -/

/-- An event in the sink is the offered one, or its copy from the cache, perhaps marked for
upsert. -/
def DeliveredAs (ev ev' : ChangeEvent) : Prop :=
  ev' = ev ∨ ∃ copy, deserializePayload (ev.marshal.getD []) = some copy ∧
    (ev' = copy ∨ ev' = markUpsert copy)

namespace HandOver

variable (cfg : Config) (id : TableID) (s : HandOver)

/-- No `Route` call is at hand, and `Replay` has returned with everything replayed. -/
def Finished : Prop := s.inflight = [] ∧ ∃ r, s.replay = some r ∧ r.status = .caughtUp

/-- The sink has the first of the offered events, in order, each once; all of them when the calls
have returned. -/
def Delivers : Prop :=
  (∃ sent rest, s.offered = sent ++ rest ∧ List.Forall₂ DeliveredAs sent s.sink) ∧
    (s.Finished → List.Forall₂ DeliveredAs s.offered s.sink)

/-- The event that the replay has taken and not yet written. -/
def hand : Option ChangeEvent := s.replay.bind Replay.hand

def queue : List CacheEvent := s.replay.elim [] Replay.queue

def unread : Bytes := s.replay.elim (s.file.getD []) fun r => r.reader.rest s.file

/-! ## Orderly runs -/

/-- The cached copy of an event can be read back. -/
def Cacheable (ev : ChangeEvent) : Prop :=
  (eventToCacheEvent ev cfg.sourceType).marshal.length ≤ maxRecordSize ∧
    (deserializePayload (ev.marshal.getD [])).isSome

/-- A DDL event that is applied: it is handled, has a statement, the parser accepts it and the store
answers every call. -/
@[mk_iff]
structure Applied (cfg : Config) (s : Consumer) (env : Env) (ev : ChangeEvent) : Prop where
  handling : cfg.hasDDLHandling = true
  store : cfg.hasDDLStore = true
  statement : ddlText ev ≠ []
  answers : StoreSucceeds env
  accepted : ∃ info, env.applyDDL (s.tables.get ev.table.database ev.table.table) (ddlText ev) =
    .result info

/-- A DML event of the table that is admitted: no statement is recorded, and the state is one in
which events are cached or written. -/
structure Admitted (cfg : Config) (id : TableID) (s : Consumer) (ev : ChangeEvent) : Prop where
  table : (⟨ev.table.database, ev.table.schema, ev.table.table⟩ : TableID) = id
  unblocked : s.ddlStates ev.table.database ev.table.table = none
  state : ∃ lc, s.lifecycle id = some lc ∧
    (lc.state = .snapshotting ∧ Cacheable cfg ev ∨ lc.state = .catchingUp ∨ lc.state = .streaming)

/-- What an orderly step requires. An event goes to the sink directly only when no cached event is
still to be replayed, and to the cache only while the reader will still come to it. The cache is
replayed once, and removed only when it is read to its end. -/
def Orderly : HandOverInput → Prop
  | .offer env ev =>
    env.sinkWrite = none ∧ env.cacheWrite = none ∧
      if ev.isDDL then Applied cfg s.consumer env ev else Admitted cfg id s.consumer ev
  | .perform =>
    match s.inflight with
    -- Nothing taken, nothing in the channel, nothing unread: no event is overtaken.
    | .sink _ :: _ => s.hand = none ∧ s.queue = [] ∧ s.unread = []
    | .cache _ :: _ => ∀ r ∈ s.replay, r.reader.follows = true
    | [] => True
  | .startReplay => s.replay = none
  | .deleteCache => s.deleting = true → s.unread = []
  | _ => True

/-! ## Where the offered events are -/

section Cached

variable {cfg : Config} {ev : ChangeEvent}

def record (cfg : Config) (ev : ChangeEvent) : Bytes :=
  (encodeRecord (eventToCacheEvent ev cfg.sourceType).marshal).getD []

/-- The cached copy of an event, as it is read back. -/
def cached (cfg : Config) (ev : ChangeEvent) : CacheEvent :=
  (eventToCacheEvent ev cfg.sourceType).repaired

lemma encodeRecord_eq_record (h : Cacheable cfg ev) :
    encodeRecord (eventToCacheEvent ev cfg.sourceType).marshal = some (record cfg ev) := by
  rw [record, encodeRecord_of_lt (lt_of_le_maxRecordSize h.1), getD_some]

lemma readRecord_record (h : Cacheable cfg ev) (rest : Bytes) :
    readRecord (record cfg ev ++ rest) = .event (cached cfg ev) rest :=
  readRecord_encodeRecord h.1 (encodeRecord_eq_record h) rest

lemma record_ne_nil (h : Cacheable cfg ev) : record cfg ev ≠ [] := by
  intro hnil
  have hread := readRecord_record h []
  rw [hnil] at hread
  cases hread

/-- Only the strings of a cache event are repaired, not its payload. -/
lemma payload_cached : (cached cfg ev).payload = ev.marshal.getD [] := by
  simp only [cached, CacheEvent.repaired, eventToCacheEvent, CacheEvent.payload_setPosition]

lemma eq_nil_of_flatten_record {evs : List ChangeEvent} (hc : ∀ ev ∈ evs, Cacheable cfg ev)
    (h : (evs.map (record cfg)).flatten = []) : evs = [] := by
  cases evs with
  | nil => rfl
  | cons ev evs =>
    rw [map_cons, flatten_cons, append_eq_nil_iff] at h
    exact absurd h.1 (record_ne_nil (hc ev mem_cons_self))

end Cached

/-- The offered events by the place they have reached. -/
structure Ledger where
  /-- Written to the sink. -/
  sent : List ChangeEvent
  /-- Taken from the channel by the replay. -/
  held : List ChangeEvent
  /-- In the channel. -/
  queued : List ChangeEvent
  /-- In the cache file, behind the reader. -/
  unread : List ChangeEvent
  /-- Decided on by the `Route` call at hand. -/
  flying : List ChangeEvent

/-- The write that a `Route` call has decided on for an event. -/
inductive Decided (cfg : Config) (ev : ChangeEvent) : List Write → Prop
  | sink : Decided cfg ev [.sink ev]
  | cache (h : Cacheable cfg ev) : Decided cfg ev [.cache (eventToCacheEvent ev cfg.sourceType)]

/-- The writes at hand are those of the events that are flying, of which there is at most one. -/
inductive Flying (cfg : Config) : List ChangeEvent → List Write → Prop
  | none : Flying cfg [] []
  | one {ev : ChangeEvent} {ws : List Write} (h : Decided cfg ev ws) : Flying cfg [ev] ws

/-- A replay in which nothing went wrong. -/
structure Healthy (file : Option Bytes) (r : Replay) : Prop where
  sound : ∀ err, r.reader ≠ .failed err
  offset : ∀ offset, r.reader = .reading offset → offset ≤ (file.getD []).length
  /-- A replay that has returned has left nothing behind. -/
  done : r.status = .caughtUp → r.reader = .closed ∧ r.queue = [] ∧ r.hand = none

lemma Healthy.advance {file : Option Bytes} {r : Replay} (h : Healthy file r) {n : ℕ}
    (hn : n ≤ (r.reader.rest file).length) (hrunning : r.status ≠ .caughtUp)
    (queue : List CacheEvent) :
    Healthy file { r with reader := r.reader.advance n, queue } := by
  refine ⟨?_, ?_, fun hdone => absurd hdone hrunning⟩
  · intro err herr
    cases hreader : r.reader with
    | failed err' => exact h.sound err' hreader
    | _ =>
      rw [hreader] at herr
      cases herr
  · intro offset' hadvance
    cases hreader : r.reader with
    | reading offset =>
      rw [hreader] at hadvance hn
      cases hadvance
      have hle := h.offset offset hreader
      simp only [Reader.rest, length_drop] at hn
      omega
    | _ =>
      rw [hreader] at hadvance
      cases hadvance

lemma Healthy.detach {file : Option Bytes} {r : Replay} (h : Healthy file r) :
    Healthy none { r with reader := r.reader.detach file } := by
  refine ⟨fun err herr => ?_, fun offset hoffset => ?_, fun hdone => ?_⟩
  · cases hreader : r.reader with
    | failed err' => exact h.sound err' hreader
    | _ => simp [hreader, Reader.detach] at herr
  · cases hreader : r.reader with
    | _ => simp [hreader, Reader.detach] at hoffset
  · obtain ⟨hclosed, hdone⟩ := h.done hdone
    exact ⟨by simp only [hclosed, Reader.detach], hdone⟩

/-- A ledger accounts for every offered event, in order. -/
structure Ledger.Accounts (cfg : Config) (l : Ledger) (s : HandOver) : Prop where
  offered : s.offered = l.sent ++ l.held ++ l.queued ++ l.unread ++ l.flying
  sent : List.Forall₂ DeliveredAs l.sent s.sink
  held : List.Forall₂ DeliveredAs l.held s.hand.toList
  queued : s.queue = l.queued.map (cached cfg)
  unread : s.unread = (l.unread.map (record cfg)).flatten
  cacheable : ∀ ev ∈ l.queued ++ l.unread, Cacheable cfg ev
  flying : Flying cfg l.flying s.inflight
  healthy : ∀ r ∈ s.replay, Healthy s.file r

/-! ## What one step does to the ledger -/

section Route

variable {cfg : Config} {id : TableID} {s : Consumer} {env : Env} {ev : ChangeEvent}

lemma writes_applied (hsink : env.sinkWrite = none) (h : Applied cfg s env ev) :
    writes id (handleDDL cfg env s ev).effects = [.sink ev] := by
  obtain ⟨info, hinfo⟩ := h.accepted
  simp only [handleDDL, h.handling, h.store, h.statement, h.answers.saveApplying, attemptDDL, hinfo,
    hsink, finishDDL, h.answers.saveSchemaHistory, h.answers.deleteDDLState]
  rfl

lemma decided_admitted (h : Admitted cfg id s ev) :
    Decided cfg ev (writes id (routeDML cfg env s ev).effects) := by
  obtain ⟨lc, hlc, hstate⟩ := h.state
  simp only [routeDML, h.table, hlc]
  rcases hstate with ⟨hstate, hcacheable⟩ | hstate | hstate <;> rw [hstate]
  · simpa [writes] using Decided.cache hcacheable
  · exact .sink
  · exact .sink

lemma decided_route {s : HandOver} (h : s.Orderly cfg id (.offer env ev)) :
    Decided cfg ev (writes id (route cfg env s.consumer ev).effects) := by
  obtain ⟨hsink, -, hroute⟩ := h
  rw [route]
  split
  · rename_i hddl
    rw [if_pos hddl] at hroute
    rw [writes_applied hsink hroute]
    exact .sink
  · rename_i hddl
    rw [if_neg hddl] at hroute
    rw [checkDDLState_of_unblocked (by rw [blockingRow, hroute.unblocked, ite_self])]
    exact decided_admitted hroute

end Route

namespace Ledger.Accounts

variable {cfg : Config} {task : TaskEntry} {id : TableID} {l : Ledger} {s : HandOver}

section

variable (h : l.Accounts cfg s)
include h

lemma unread_eq_nil (hunread : s.unread = []) : l.unread = [] := by
  rw [h.unread] at hunread
  exact eq_nil_of_flatten_record (fun ev hev => h.cacheable ev (mem_append_right _ hev)) hunread

lemma queued_eq_nil (hqueue : s.queue = []) : l.queued = [] := by
  rw [h.queued, map_eq_nil_iff] at hqueue
  exact hqueue

lemma held_eq_nil (hhand : s.hand = none) : l.held = [] := by
  have hheld := h.held
  rw [hhand] at hheld
  exact forall₂_nil_right_iff.mp hheld

lemma flying_eq_nil (hidle : s.inflight = []) : l.flying = [] := by
  have hflying := h.flying
  rw [hidle] at hflying
  generalize l.flying = evs at hflying
  rcases hflying with _ | ⟨⟨⟩⟩
  rfl

variable {ev : ChangeEvent}

/-- A `Route` call that finds no other at hand lets its event fly. -/
lemma offer (hidle : s.inflight = []) {ws : List Write} (hdecided : Decided cfg ev ws)
    (c : Consumer) :
    Accounts cfg { l with flying := [ev] }
      { s with consumer := c, inflight := ws, offered := s.offered ++ [ev] } :=
  { h with
    offered := by rw [h.offered, h.flying_eq_nil hidle, append_nil]
    flying := .one hdecided }

/-- A direct write is in order when nothing is waiting to be replayed. -/
lemma sinkWrite (hflying : l.flying = [ev]) (hhand : s.hand = none) (hqueue : s.queue = [])
    (hunread : s.unread = []) :
    Accounts cfg { l with sent := l.sent ++ [ev], flying := [] }
      { s with sink := s.sink ++ [ev], inflight := [] } :=
  { h with
    offered := by
      rw [h.offered, h.held_eq_nil hhand, h.queued_eq_nil hqueue, h.unread_eq_nil hunread, hflying]
      simp only [append_nil]
    sent := rel_append h.sent (.cons (.inl rfl) .nil)
    flying := .none }

/-- An event is cached behind all that is unread, while the reader will still come to it. -/
lemma cacheWrite (hflying : l.flying = [ev]) (hcacheable : Cacheable cfg ev)
    (hfollows : ∀ r ∈ s.replay, r.reader.follows = true) :
    Accounts cfg { l with unread := l.unread ++ [ev], flying := [] }
      { s with file := some (s.file.getD [] ++ record cfg ev), inflight := [] } where
  offered := by
    rw [h.offered, hflying]
    simp only [append_assoc, append_nil]
  sent := h.sent
  held := h.held
  queued := h.queued
  unread := by
    have hunread : HandOver.unread
        { s with file := some (s.file.getD [] ++ record cfg ev), inflight := [] } =
        s.unread ++ record cfg ev := by
      cases hreplay : s.replay with
      | none => simp [HandOver.unread, hreplay]
      | some r =>
        simp only [HandOver.unread, hreplay, elim_some]
        exact Reader.rest_append _ (hfollows r hreplay) (h.healthy r hreplay).offset
    rw [hunread, h.unread]
    simp
  cacheable ev' hev' := by
    rw [← append_assoc, mem_append, mem_singleton] at hev'
    rcases hev' with hev' | rfl
    · exact h.cacheable ev' hev'
    · exact hcacheable
  flying := .none
  healthy r hr :=
    { h.healthy r hr with
      offset := fun offset hoffset => by
        have hle := (h.healthy r hr).offset offset hoffset
        rw [getD_some, length_append]
        exact Nat.le_add_right_of_le hle }

lemma perform (ho : s.Orderly cfg id .perform) :
    ∃ l' : Ledger, l'.Accounts cfg (s.next cfg task id .perform) := by
  -- At most one write is at hand: that of the one event which is flying.
  have hflying := h.flying
  generalize hevs : l.flying = evs at hflying
  generalize hws : s.inflight = ws at hflying
  simp only [Orderly, hws] at ho
  simp only [next, hws]
  rcases hflying with _ | ⟨_ | hcacheable⟩
  · exact ⟨l, h⟩
  · exact ⟨_, h.sinkWrite hevs ho.1 ho.2.1 ho.2.2⟩
  · have hfile := encodeRecord_eq_record hcacheable
    simp only [doWrite, marshalAndWrite, hfile, map_some, some_or]
    exact ⟨_, h.cacheWrite hevs hcacheable ho⟩

/-! ### Steps of the replay -/

variable {r r' : Replay}

/-- A step of the replay moves events on and keeps their order. -/
lemma moveOn (held queued unread : List ChangeEvent)
    (horder : held ++ queued ++ unread = l.held ++ l.queued ++ l.unread)
    (hheld : List.Forall₂ DeliveredAs held r'.hand.toList)
    (hqueued : r'.queue = queued.map (cached cfg))
    (hunread : r'.reader.rest s.file = (unread.map (record cfg)).flatten)
    (hcacheable : ∀ ev ∈ queued ++ unread, Cacheable cfg ev) (hhealthy : Healthy s.file r') :
    ∃ l' : Ledger, l'.Accounts cfg { s with replay := some r' } := by
  refine ⟨{ l with held, queued, unread }, ?_, h.sent, hheld, hqueued, hunread, hcacheable,
    h.flying, ?_⟩
  · calc s.offered = l.sent ++ (l.held ++ l.queued ++ l.unread) ++ l.flying := by
          rw [h.offered]
          simp only [append_assoc]
      _ = l.sent ++ (held ++ queued ++ unread) ++ l.flying := by rw [horder]
      _ = l.sent ++ held ++ queued ++ unread ++ l.flying := by simp only [append_assoc]
  · rintro _ ⟨⟩
    exact hhealthy

section

variable (hreplay : s.replay = some r)
include hreplay

lemma replayed : List.Forall₂ DeliveredAs l.held r.hand.toList ∧
    r.queue = l.queued.map (cached cfg) ∧
    r.reader.rest s.file = (l.unread.map (record cfg)).flatten := by
  simpa [HandOver.hand, HandOver.queue, HandOver.unread, hreplay] using
    And.intro h.held (And.intro h.queued h.unread)

lemma stay (hhand : r'.hand = r.hand) (hqueue : r'.queue = r.queue)
    (hrest : r'.reader.rest s.file = r.reader.rest s.file) (hhealthy : Healthy s.file r') :
    ∃ l' : Ledger, l'.Accounts cfg { s with replay := some r' } :=
  h.moveOn _ _ _ rfl (hhand ▸ (h.replayed hreplay).1) (hqueue.trans (h.replayed hreplay).2.1)
    (hrest.trans (h.replayed hreplay).2.2) h.cacheable hhealthy

lemma openFile : ∃ l' : Ledger, l'.Accounts cfg { s with replay := some (r.openFile s.file) } := by
  have hhealthy := h.healthy r hreplay
  unfold Replay.openFile
  split
  · rename_i hstarting hfile
    refine h.stay hreplay rfl rfl ?_ ⟨nofun, nofun, fun hdone => ⟨rfl, (hhealthy.done hdone).2⟩⟩
    rw [hstarting, hfile]
    rfl
  · rename_i file hstarting hfile
    refine h.stay hreplay rfl rfl ?_ ⟨nofun, ?_, fun hdone => ?_⟩
    · rw [hstarting]
      exact drop_zero
    · rintro _ ⟨⟩
      exact Nat.zero_le _
    · -- A replay that has returned is past the opening of the file.
      have hclosed := (hhealthy.done hdone).1
      rw [hstarting] at hclosed
      cases hclosed
  · exact h.stay hreplay rfl rfl rfl hhealthy

lemma read : ∃ l' : Ledger, l'.Accounts cfg { s with replay := some (r.read s.file) } := by
  have hhealthy := h.healthy r hreplay
  rcases r.read_cases s.file with hsame | ⟨hopen, hread⟩
  · rw [hsame]
    exact h.stay hreplay rfl rfl rfl hhealthy
  -- A replay that has returned has closed its reader.
  have hrunning : r.status ≠ .caughtUp := by
    intro hdone
    rw [(hhealthy.done hdone).1] at hopen
    cases hopen
  obtain ⟨hheld, hqueue, hrest⟩ := h.replayed hreplay
  -- The unread bytes are the records of the unread events, so the reader finds a record or the end.
  cases hunread : l.unread with
  | nil =>
    have heof : readRecord (r.reader.rest s.file) = .eof := by
      rw [hrest, hunread]
      rfl
    simp only [heof, true_and, reduceCtorEq, exists_false, false_and, or_false] at hread
    rw [hread]
    refine h.stay hreplay rfl rfl ?_ ⟨nofun, nofun, fun hdone => absurd hdone hrunning⟩
    rw [hrest, hunread]
    rfl
  | cons ev evs =>
    have hcacheable : ∀ ev' ∈ l.queued ++ ev :: evs, Cacheable cfg ev' := hunread ▸ h.cacheable
    rw [hunread, map_cons, flatten_cons] at hrest
    have hevent : readRecord (r.reader.rest s.file) =
        .event (cached cfg ev) (evs.map (record cfg)).flatten := by
      rw [hrest]
      exact readRecord_record (hcacheable ev (mem_append_right _ mem_cons_self)) _
    simp only [hevent, reduceCtorEq, false_and, exists_false, false_or,
      ReadStep.event.injEq] at hread
    obtain ⟨_, _, ⟨rfl, rfl⟩, hread⟩ := hread
    rw [hread]
    refine h.moveOn l.held (l.queued ++ [ev]) evs ?_ hheld ?_ ?_ ?_ (hhealthy.advance ?_ hrunning _)
    · rw [hunread]
      simp only [append_assoc, cons_append, nil_append]
    · rw [hqueue, map_append]
      rfl
    · rw [Reader.rest_advance _ hopen, hrest]
      simp
    · rw [append_assoc]
      exact hcacheable
    · exact Nat.sub_le _ _

lemma take (upsert : Bool) :
    ∃ l' : Ledger, l'.Accounts cfg { s with replay := some (r.take upsert) } := by
  have hhealthy := h.healthy r hreplay
  obtain ⟨-, hqueue, hunread⟩ := h.replayed hreplay
  rcases r.take_cases upsert with hsame | ⟨hrunning, hhand, htake⟩
  · rw [hsame]
    exact h.stay hreplay rfl rfl rfl hhealthy
  cases hqueued : l.queued with
  | nil =>
    rw [hqueued, map_nil] at hqueue
    simp only [hqueue, reduceCtorEq, false_and, exists_false, false_or, true_and] at htake
    obtain ⟨hclosed, htake⟩ := htake
    have hclosed := hclosed.resolve_right fun ⟨err, herr⟩ => hhealthy.sound err herr
    rw [htake]
    exact h.stay hreplay rfl hqueue.symm rfl
      ⟨hhealthy.sound, hhealthy.offset, fun _ => ⟨hclosed, rfl, hhand⟩⟩
  | cons ev evs =>
    have hcacheable : ∀ ev' ∈ ev :: evs ++ l.unread, Cacheable cfg ev' := hqueued ▸ h.cacheable
    -- The payload of a cached event decodes, so the replay does not fail at it.
    obtain ⟨copy, hcopy⟩ := isSome_iff_exists.mp (hcacheable ev mem_cons_self).2
    rw [hqueued, map_cons] at hqueue
    simp only [hqueue, List.cons.injEq, reduceCtorEq, false_and, or_false] at htake
    rcases htake with ⟨_, _, ⟨rfl, rfl⟩, hnone⟩ | ⟨_, _, copy', ⟨rfl, rfl⟩, hcopy', htake⟩
    · rw [payload_cached, hcopy] at hnone
      cases hnone
    rw [payload_cached, hcopy, some.injEq] at hcopy'
    subst hcopy'
    rw [htake]
    refine h.moveOn [ev] evs l.unread ?_ ?_ rfl hunread ?_
      ⟨hhealthy.sound, hhealthy.offset, fun hdone => ?_⟩
    · have hheld : l.held = [] := by
        apply h.held_eq_nil
        rw [hand, hreplay, bind_some, hhand]
      rw [hheld, hqueued]
      rfl
    · refine .cons (.inr ⟨copy, hcopy, ?_⟩) .nil
      cases upsert with
      | false => exact .inl rfl
      | true => exact .inr rfl
    · intro ev' hev'
      exact hcacheable ev' (mem_cons_of_mem ev hev')
    · rw [hrunning] at hdone
      cases hdone

lemma takeError : ∃ l' : Ledger, l'.Accounts cfg { s with replay := some r.takeError } := by
  have hhealthy := h.healthy r hreplay
  unfold Replay.takeError
  split
  · exact h.stay hreplay rfl rfl rfl hhealthy
  · split
    · exact absurd ‹_› (hhealthy.sound _)
    · exact h.stay hreplay rfl rfl rfl hhealthy

lemma write :
    Accounts cfg { l with sent := l.sent ++ l.held, held := [] }
      { s with sink := s.sink ++ r.hand.toList, replay := some { r with hand := none } } where
  offered := by
    rw [h.offered]
    simp only [append_nil]
  sent := rel_append h.sent (h.replayed hreplay).1
  held := .nil
  queued := ((h.replayed hreplay).2.1 :)
  unread := ((h.replayed hreplay).2.2 :)
  cacheable := h.cacheable
  flying := h.flying
  healthy := by
    rintro _ ⟨⟩
    have hhealthy := h.healthy r hreplay
    exact ⟨hhealthy.sound, hhealthy.offset, fun hdone =>
      ⟨(hhealthy.done hdone).1, (hhealthy.done hdone).2.1, rfl⟩⟩

end

lemma startReplay (hreplay : s.replay = none) :
    l.Accounts cfg { s with replay := some .start } := by
  have hheld := h.held
  have hqueued := h.queued
  have hunread := h.unread
  simp only [HandOver.hand, HandOver.queue, HandOver.unread, hreplay] at hheld hqueued hunread
  refine { h with held := hheld, queued := hqueued, unread := hunread, healthy := ?_ }
  rintro _ ⟨⟩
  exact ⟨nofun, nofun, nofun⟩

/-- The removal of a cache that is read to its end loses nothing. -/
lemma deleteCache (hunread : s.unread = []) :
    l.Accounts cfg
      { s with
        file := none
        replay := s.replay.map fun r => { r with reader := r.reader.detach s.file }
        deleting := false } := by
  -- A reader that has not opened the file yet would find none, and has nothing to find.
  have hnil := h.unread.symm.trans hunread
  cases hreplay : s.replay with
  | none =>
    have hheld := h.held
    have hqueued := h.queued
    simp only [hand, queue, hreplay] at hheld hqueued
    refine { h with held := hheld, queued := hqueued, unread := ?_, healthy := by simp }
    rw [hnil]
    rfl
  | some r =>
    obtain ⟨hheld, hqueued, -⟩ := h.replayed hreplay
    rw [HandOver.unread, hreplay, elim_some] at hunread
    refine { h with held := hheld, queued := hqueued, unread := ?_, healthy := ?_ }
    · rw [hnil]
      exact Reader.rest_detach_eq_nil hunread
    · simpa using (h.healthy r hreplay).detach

lemma onReplay {f : Replay → Replay}
    (hf : ∀ r, s.replay = some r → ∃ l' : Ledger, l'.Accounts cfg { s with replay := some (f r) }) :
    ∃ l' : Ledger, l'.Accounts cfg { s with replay := s.replay.map f } := by
  cases hreplay : s.replay with
  | none => exact ⟨l, by rwa [map_none, ← hreplay]⟩
  | some r => exact hf r hreplay

lemma step {i : HandOverInput} (ho : s.Orderly cfg id i) :
    ∃ l' : Ledger, l'.Accounts cfg (s.next cfg task id i) := by
  -- The two scheduler calls touch only the lifecycle records, which the ledger does not read.
  cases i with
  | offer env ev =>
    rw [next]
    split
    · rename_i hidle
      exact ⟨_, h.offer (List.isEmpty_iff.mp hidle) (decided_route ho) _⟩
    · exact ⟨l, h⟩
  | perform => exact h.perform ho
  | snapshotComplete =>
    rw [next]
    unfold setLifecycle
    split
    · exact ⟨l, { h with }⟩
    · exact ⟨l, h⟩
  | startReplay => exact ⟨l, h.startReplay ho⟩
  | openFile => exact h.onReplay fun r hreplay => h.openFile hreplay
  | read => exact h.onReplay fun r hreplay => h.read hreplay
  | take upsert => exact h.onReplay fun r hreplay => h.take hreplay upsert
  | takeError => exact h.onReplay fun r hreplay => h.takeError hreplay
  | write =>
    rw [next]
    split
    · rename_i r hreplay
      exact ⟨_, h.write hreplay⟩
    · exact ⟨l, h⟩
  | caughtUp =>
    rw [next]
    split
    · exact ⟨l, { h with }⟩
    · exact ⟨l, h⟩
  | deleteCache =>
    rw [next]
    split
    · rename_i hdeleting
      exact ⟨l, h.deleteCache (ho hdeleting)⟩
    · exact ⟨l, h⟩

lemma offered_eq_sent (hfinished : s.Finished) : s.offered = l.sent := by
  obtain ⟨hidle, r, hreplay, hdone⟩ := hfinished
  obtain ⟨hclosed, hqueue, hhand⟩ := (h.healthy r hreplay).done hdone
  have hheld : l.held = [] := h.held_eq_nil (by rw [hand, hreplay, bind_some, hhand])
  have hqueued : l.queued = [] := h.queued_eq_nil (by rw [queue, hreplay, elim_some, hqueue])
  have hunread : l.unread = [] :=
    h.unread_eq_nil (by rw [HandOver.unread, hreplay, elim_some, hclosed, Reader.rest])
  rw [h.offered, hheld, hqueued, hunread, h.flying_eq_nil hidle]
  simp only [append_nil]

lemma delivers : s.Delivers := by
  refine ⟨⟨l.sent, l.held ++ l.queued ++ l.unread ++ l.flying, ?_, h.sent⟩, fun hfinished => ?_⟩
  · rw [h.offered]
    simp only [append_assoc]
  · rw [h.offered_eq_sent hfinished]
    exact h.sent

end

end Ledger.Accounts

lemma accounts_begin (cfg : Config) (consumer : Consumer) :
    Ledger.Accounts cfg ⟨[], [], [], [], []⟩ (begin consumer) where
  offered := rfl
  sent := .nil
  held := .nil
  queued := rfl
  unread := rfl
  cacheable _ hev := absurd hev not_mem_nil
  flying := .none
  healthy r hr := absurd hr (not_mem_none r)

end HandOver

/-- In every orderly run the sink has the offered events in order, each once, and all when `Route`
and `Replay` have returned. -/
theorem handOver_delivers (cfg : Config) (task : TaskEntry) (id : TableID) (consumer : Consumer)
    {is : List HandOverInput}
    (horderly : (machine cfg task id).Meets (Orderly cfg id) (.begin consumer) is) :
    ((machine cfg task id).run (.begin consumer) is).1.Delivers := by
  have haccounts : ∃ l : Ledger,
      l.Accounts cfg ((machine cfg task id).run (.begin consumer) is).1 :=
    (machine cfg task id).run_induction_of_meets
      (motive := fun s _ => ∃ l : Ledger, l.Accounts cfg s) horderly
      ⟨_, accounts_begin cfg consumer⟩ fun s _ i ho ⟨_, h⟩ => h.step ho
  obtain ⟨l, h⟩ := haccounts
  exact h.delivers

/-! ## A calm and a hasty hand-over -/

section Decidable

variable (cfg : Config) (id : TableID) (s : Consumer) (env : Env) (ev : ChangeEvent)

instance decidableStoreSucceeds : Decidable (StoreSucceeds env) :=
  decidable_of_iff _ (storeSucceeds_iff env).symm

instance ParserAnswer.decidableAccepted : ∀ a : ParserAnswer, Decidable (∃ info, a = .result info)
  | .result info => isTrue ⟨info, rfl⟩
  | .error _ | .nilResult => isFalse nofun

instance HandOver.decidableApplied : Decidable (Applied cfg s env ev) :=
  decidable_of_iff _ (applied_iff cfg s env ev).symm

instance HandOver.decidableCacheable : Decidable (Cacheable cfg ev) :=
  inferInstanceAs (Decidable (_ ∧ _))

instance HandOver.decidableAdmitted : Decidable (Admitted cfg id s ev) :=
  decidable_of_iff ((⟨ev.table.database, ev.table.schema, ev.table.table⟩ : TableID) = id ∧
      s.ddlStates ev.table.database ev.table.table = none ∧
      ∃ lc ∈ s.lifecycle id, (lc.state = .snapshotting ∧ Cacheable cfg ev ∨
        lc.state = .catchingUp ∨ lc.state = .streaming))
    ⟨fun ⟨h₁, h₂, h₃⟩ => ⟨h₁, h₂, h₃⟩, fun ⟨h₁, h₂, h₃⟩ => ⟨h₁, h₂, h₃⟩⟩

instance HandOver.decidableOrderly (s : HandOver) : ∀ i, Decidable (s.Orderly cfg id i)
  | .offer _ _ => inferInstanceAs (Decidable (_ ∧ _ ∧ ite _ _ _))
  | .perform =>
    match h : s.inflight with
    | [] => isTrue (by simp only [Orderly, h])
    | .sink _ :: _ => decidable_of_iff (s.hand = none ∧ s.queue = [] ∧ s.unread = [])
        (by simp only [Orderly, h])
    | .cache _ :: _ => decidable_of_iff (∀ r ∈ s.replay, r.reader.follows = true)
        (by simp only [Orderly, h])
  | .startReplay => inferInstanceAs (Decidable (s.replay = none))
  | .deleteCache => inferInstanceAs (Decidable (s.deleting = true → s.unread = []))
  | .snapshotComplete | .openFile | .read | .take _ | .takeError | .write | .caughtUp =>
    isTrue trivial

end Decidable

section Sample

def ordersID : TableID := ddlTableID (lit "shop") (lit "orders")

/-- An insert into the table with a sequence number. -/
def numberedInsert (seqNo : Int64) : ChangeEvent :=
  { ordersInsert with position := { Position.zero with seqNo } }

/-- A consumer while the snapshot of the table is taken. -/
def ordersSnapshotting : Consumer :=
  { ordersStreaming with
    lifecycle := Function.update ordersStreaming.lifecycle ordersID
      (some { TableLifecycle.new with state := .snapshotting }) }

/-- Services that all answer, with a parser that accepts every statement. -/
def accepting : Env := answering (.result (some ordersTable))

/-- The replay of a single cached event, up to the end of the file. -/
def replayOne : List HandOverInput :=
  [.startReplay, .openFile, .read, .take true, .write, .read, .take false]

/-- The first insert is cached. The second and a DDL statement are routed after the hand-over. -/
def calmRun : List HandOverInput :=
  [.offer accepting (numberedInsert 1), .perform, .snapshotComplete] ++ replayOne ++
    [.caughtUp, .deleteCache, .offer accepting (numberedInsert 2), .perform,
      .offer accepting ordersDDL, .perform]

/-- The second insert is routed when the snapshot is complete, before the first is replayed. -/
def hastyRun : List HandOverInput :=
  [.offer accepting (numberedInsert 1), .perform, .snapshotComplete,
    .offer accepting (numberedInsert 2), .perform] ++ replayOne ++ [.caughtUp, .deleteCache]

set_option maxRecDepth 100000 in
theorem handOver_delivers_calmRun :
    ((machine fullConfig ⟨lit "\"shop\"", true⟩ ordersID).run
      (.begin ordersSnapshotting) calmRun).1.Delivers :=
  handOver_delivers fullConfig _ ordersID ordersSnapshotting (by decide +kernel)

lemma DeliveredAs.seqNo {ev ev' : ChangeEvent} (h : DeliveredAs ev ev') :
    ev'.position.seqNo = ev.position.seqNo ∨
      (deserializePayload (ev.marshal.getD [])).map (·.position.seqNo) =
        some ev'.position.seqNo := by
  rcases h with rfl | ⟨copy, hcopy, rfl | rfl⟩
  · exact .inl rfl
  all_goals
    rw [hcopy]
    exact .inr rfl

/-- An event of a table is offered, and both kinds of writes succeed. -/
def HandOverInput.Faultless (id : TableID) : HandOverInput → Prop
  | .offer env ev =>
    env.sinkWrite = none ∧ env.cacheWrite = none ∧
      (⟨ev.table.database, ev.table.schema, ev.table.table⟩ : TableID) = id
  | _ => True

set_option maxRecDepth 100000 in
/-- In the hasty run the second insert overtakes the first. -/
theorem not_forall_handOver_delivers :
    ¬∀ (cfg : Config) (task : TaskEntry) (id : TableID) (consumer : Consumer)
      (is : List HandOverInput),
      (consumer.lifecycle id).map TableLifecycle.state = some .snapshotting →
      (∀ i ∈ is, i.Faultless id) →
      ((machine cfg task id).run (.begin consumer) is).1.Delivers := by
  intro h
  have hfaultless : ∀ i ∈ hastyRun, i.Faultless ordersID := by
    simp only [hastyRun, replayOne, cons_append, nil_append, forall_mem_cons]
    simp [HandOverInput.Faultless]
    exact ⟨⟨rfl, rfl, rfl⟩, rfl, rfl, rfl⟩
  obtain ⟨-, hdelivers⟩ := h fullConfig ⟨lit "\"shop\"", true⟩ ordersID
    ordersSnapshotting hastyRun
    (by decide +kernel) hfaultless
  set s := ((machine fullConfig ⟨lit "\"shop\"", true⟩ ordersID).run
    (.begin ordersSnapshotting) hastyRun).1
  have hreturned : s.inflight.isEmpty = true ∧ s.replay.map Replay.status = some .caughtUp := by
    decide +kernel
  have hfinished : s.Finished := ⟨List.isEmpty_iff.mp hreturned.1, map_eq_some_iff.mp hreturned.2⟩
  have horder := (hdelivers hfinished).imp fun _ _ => DeliveredAs.seqNo
  exact absurd horder (by decide +kernel)

end Sample

end DataStream.Lifecycle
