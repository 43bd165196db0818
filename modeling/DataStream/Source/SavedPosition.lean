import DataStream.Source.Binlog.Restart
import DataStream.Source.MariaDB.BinlogSyncer
import DataStream.Source.MongoDB.Connector
import DataStream.Source.MySQL.BinlogSyncer

/-!
# Saved positions and delivery

For the MySQL, MariaDB and MongoDB sources: is every change that was not put on the events channel
read again after a restart at the exposed or saved position? The position of an event is set before
the event is sent, and stays set when the send fails, so it is not in general.

* `restart_rereads_unsent`: every such change is read again after a careful run.
-/

namespace DataStream.Source

open Event Delivery List

/-! ## The MongoDB change stream -/

namespace MongoDB

variable (cfg : Config) (index : Bytes → ℕ)

/-- The order of the change stream, by the resume tokens. -/
def IsStream (log : List Element) : Prop :=
  log.Pairwise fun e e' => index e.resumeToken < index e'.resumeToken

/-- A stream resumed after the token of a position continues with the next element. -/
def resumePlace (p : Position) : ℕ := index p.resumeToken + 1

/-- The connector deals with every element, and exposes only the positions of elements it has
read. -/
lemma Config.tracks :
    Tracks (resumePlace index) index cfg.handleElement changes (fun _ => IsStream index) where
  next := by
    intro _ e log horder
    exact horder.of_cons
  items := by
    intro _ e log _ x hx
    obtain rfl := mem_singleton.mp hx
    rw [handleElement]
    split <;> simp [items, Action.item?]
  below := by
    intro _ e log horder e' he' x hx y hy
    obtain rfl := mem_singleton.mp hx
    have hlt : index e.resumeToken + 1 ≤ index e'.resumeToken := rel_of_pairwise_cons horder he'
    -- The element is skipped, or its token is the mark, may be saved, and its event is sent.
    rw [handleElement] at hy
    split at hy
    · obtain rfl := mem_singleton.mp hy
      trivial
    · simp only [mem_append, mem_singleton] at hy
      rcases hy with (rfl | hy) | rfl
      · exact fun _ _ => hlt
      · split at hy
        · obtain rfl := mem_singleton.mp hy
          exact hlt
        · cases hy
      · trivial

/-- In every run over every stream, a restart at an exposed position reads every change that was
not sent. -/
def Config.NeverAhead : Prop :=
  ∀ (index : Bytes → ℕ) (log : List Element), IsStream index log → ∀ is : List Input,
    Recoverable (resumePlace index) index changes log
      ((machine cfg.handleElement).run (.start () log none) is).1

end MongoDB

/-- A binlog sent to a syncer that was started at a position, or without one. -/
structure Binlog.StartedAt (o : Binlog.FileOrder) (s : Binlog.Syncer) (log : List Binlog.Arrival)
    (start : Option Position) : Prop where
  isBinlog : Binlog.IsBinlog o s log
  /-- The server sends nothing that starts before the position asked for. -/
  behind : ∀ p ∈ start, ∀ a ∈ log, o.place p ≤ toLex (o.index a.file, a.startPos)

open Binlog

/-- In every run over every binlog, a restart at an exposed position reads every change that was
not sent. -/
def Binlog.Config.NeverAhead (cfg : Config) : Prop :=
  ∀ (o : FileOrder) (s : Syncer) (log : List Arrival) (start : Option Position),
    StartedAt o s log start → ∀ is : List Input,
      Recoverable o.place o.changePlace cfg.changes log
        ((machine cfg.processEvent).run (.start s log start) is).1

lemma Binlog.Config.recoverable (cfg : Config) {o : FileOrder} {s : Syncer}
    {log : List Arrival} {start : Option Position} (hstart : StartedAt o s log start)
    {is : List Input}
    (hmeets : (machine cfg.processEvent).Meets (Careful o.place o.changePlace)
      (.start s log start) is) :
    Recoverable o.place o.changePlace cfg.changes log
      ((machine cfg.processEvent).run (.start s log start) is).1 := by
  refine recoverable_run (cfg.tracks o) hstart.isBinlog ?_ hmeets
  intro a ha x hx p hp
  rw [cfg.changePlace_of_mem_changes o hx]
  exact hstart.behind p hp a ha

/-! ## All three sources -/

/-- In every run of one of the sources whose steps are all careful, a restart at an exposed or saved
position reads every change that is neither sent nor about to be sent. -/
theorem restart_rereads_unsent (shouldCapture : Bytes → Bytes → Bool)
    (parser : Option DDL.DDLParser) (hasStore : Bool) (zone : ℤ → ℤ) (is : List Input) :
    (∀ cfg ∈ [MySQL.newBinlogSyncer shouldCapture parser hasStore zone,
        MariaDB.newBinlogSyncer shouldCapture parser hasStore zone],
      ∀ o s log start, StartedAt o s log start →
        (machine cfg.processEvent).Meets (Careful o.place o.changePlace) (.start s log start) is →
        Recoverable o.place o.changePlace cfg.changes log
          ((machine cfg.processEvent).run (.start s log start) is).1) ∧
    ∀ index log, MongoDB.IsStream index log →
      let cfg : MongoDB.Config := { hasStore := hasStore, zone := zone }
      (machine cfg.handleElement).Meets (Careful (MongoDB.resumePlace index) index)
        (.start () log none) is →
      Recoverable (MongoDB.resumePlace index) index MongoDB.changes log
        ((machine cfg.handleElement).run (.start () log none) is).1 := by
  refine ⟨fun cfg _ o s log start hstart hmeets => cfg.recoverable hstart hmeets, ?_⟩
  intro index log hstream cfg hmeets
  exact recoverable_run (cfg.tracks index) hstream (by simp) hmeets

/-! ## A send that times out -/

namespace SavedPosition

/-- The files of a server with a single binlog. -/
def oneFile : FileOrder where
  index file := if file = [] then 0 else 1
  index_nil := rfl

/-- A binlog event of the only file. -/
def arrival (kind : RowsKind) (startPos : ℕ) (logPos : UInt32) (body : Body) : Arrival where
  header := { eventType := kind, logPos := logPos, timestamp := 1700000000 }
  body := body
  file := lit "binlog.000001"
  startPos := startPos
  now _ := .zero
  cached := none

def twoInserts : List Arrival :=
  [arrival .writeRowsV2 150 200
      (.rows (lit "shop") (lit "orders") [[.string (lit "a")], [.string (lit "b")]]),
    arrival .other 200 231 .xid]

def started : Syncer where
  currentFile := lit "binlog.000001"
  schema := { tables := none, history := [] }

/-- The second row times out, the commit is handled, and the position is exposed. -/
def lateTick : List Input :=
  [.next, .act true, .act true, .act true, .act false, .next, .act true, .tick]

/-- A transaction with one row before the two rows. -/
def threeInserts : List Arrival :=
  arrival .writeRowsV2 100 120 (.rows (lit "shop") (lit "orders") [[.string (lit "z")]]) ::
    arrival .other 120 150 .xid :: twoInserts

/-- The first transaction is sent, its position is saved and exposed, and a row of the second times
out. -/
def tickThenTimeout : List Input :=
  [.next, .act true, .act true, .act true, .next, .act true, .tick, .next, .act true, .act true,
    .act true, .act false]

/-- The insert of a document, with its resume token. -/
def documentInsert (token : Bytes) : MongoDB.Element where
  resumeToken := token
  document := some
    { operationType := lit "insert"
      database := lit "shop"
      collection := lit "orders"
      fullDocument := .decoded []
      fullDocumentBefore := .absent
      documentKey := .absent
      clusterTime := (1700000000, 1) }

/-- The number of a token in the stream. -/
def tokenIndex (token : Bytes) : ℕ := if token = lit "t1" then 1 else 2

lemma isStream_twoDocuments :
    MongoDB.IsStream tokenIndex [documentInsert (lit "t1"), documentInsert (lit "t2")] := by
  unfold MongoDB.IsStream
  decide

lemma startedAt_threeInserts : StartedAt oneFile started threeInserts none where
  isBinlog := by
    refine ⟨?_, ?_⟩
    · simp [threeInserts, twoInserts, arrival, started, FollowsFile]
    · rw [FileOrder.Consecutive]
      decide
  behind := by simp

lemma startedAt_twoInserts : StartedAt oneFile started twoInserts none where
  isBinlog := by
    refine ⟨?_, ?_⟩
    · simp [twoInserts, arrival, started, FollowsFile]
    · rw [FileOrder.Consecutive]
      decide
  behind := by simp

end SavedPosition

open SavedPosition in
/-- A timeout in the middle of a rows event, the commit of the transaction and a tick of the saver
leave the binlog sources with a position behind a row that was not sent; a timeout alone does so for
MongoDB. -/
theorem not_neverAhead :
    (¬ (MySQL.newBinlogSyncer (fun _ _ => true) none false fun _ => 0).NeverAhead) ∧
    (¬ (MariaDB.newBinlogSyncer (fun _ _ => true) none false fun _ => 0).NeverAhead) ∧
    ¬ ({ hasStore := false, zone := fun _ => 0 } : MongoDB.Config).NeverAhead := by
  let missing : Binlog.Change := ⟨lit "binlog.000001", 150, 1⟩
  refine ⟨fun h => ?_, fun h => ?_, fun h => ?_⟩
  iterate 2
    refine not_recoverable missing ?_ ?_ ?_ ?_ (h oneFile started twoInserts none
      startedAt_twoInserts lateTick) <;> decide
  · refine not_recoverable (lit "t1") ?_ ?_ ?_ ?_ (h tokenIndex _ isStream_twoDocuments
      [.next, .act true, .act false, .tick]) <;> decide

open SavedPosition in
/-- A position is exposed, and then a row of MySQL and a document of MongoDB time out: they are read
again. -/
theorem restart_rereads_unsent_tickThenTimeout :
    let cfg := MySQL.newBinlogSyncer (fun _ _ => true) none true fun _ => 0
    let st := ((machine cfg.processEvent).run (.start started threeInserts none) tickThenTimeout).1
    let mongo : MongoDB.Config := { hasStore := false, zone := fun _ => 0 }
    let documents := [documentInsert (lit "t1"), documentInsert (lit "t2")]
    let st' := ((machine mongo.handleElement).run (.start () documents none)
      [.next, .act true, .act true, .tick, .next, .act true, .act false]).1
    (st.exposed.length = 2 ∧ st.passed = [⟨lit "binlog.000001", 150, 1⟩] ∧
        Recoverable oneFile.place oneFile.changePlace cfg.changes threeInserts st) ∧
      st'.exposed.length = 1 ∧ st'.passed = [lit "t2"] ∧
        Recoverable (MongoDB.resumePlace tokenIndex) tokenIndex MongoDB.changes documents st' := by
  refine ⟨⟨by decide, by decide, ?_⟩, by decide, by decide, ?_⟩
  · exact (restart_rereads_unsent (fun _ _ => true) none true (fun _ => 0) tickThenTimeout).1 _
      mem_cons_self oneFile started threeInserts none startedAt_threeInserts (by decide)
  · exact (restart_rereads_unsent (fun _ _ => true) none false (fun _ => 0) _).2 tokenIndex _
      isStream_twoDocuments (by decide)

end DataStream.Source
