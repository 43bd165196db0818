import DataStream.Foundations.Watermark
import DataStream.Source.Postgres.PGOutputHandler

/-!
# The PostgreSQL connector

The run loop of `postgres.Connector`: it receives replication messages, keeps the position that it
reports to the server, and sends standby status messages when a timer fires or the server asks.
The server discards the log up to the flush position of a status.

The position is raised when a message is received, before it is decoded and handled, and it is
raised to the end of the server's log by every keepalive.

* `acknowledgesOnlyDelivered_iff`: when a run acknowledges only delivered changes.
-/

namespace DataStream.Source.Postgres

open Event Schema List

/-- The payload of a `CopyData` message of the replication protocol. -/
inductive CopyData where
  /-- A piece of the log: its start, and an encoded logical replication message. -/
  | xLogData (walStart : UInt64) (walData : Bytes)
  | keepalive (serverWALEnd : UInt64) (replyRequested : Bool)
  | malformed
  | other
  | empty

/-- The state of the run loop. -/
structure Connector where
  handler : Handler
  /-- The position reported to the server. -/
  currentLSN : UInt64
  crashed : Bool

/-- What the run loop does that can be seen from outside. -/
inductive Effect where
  /-- An event is put on the events channel while the log data starting here is handled. -/
  | emit (walStart : UInt64) (ev : ChangeEvent)
  /-- A standby status is sent; the position is its write, flush and apply position. -/
  | status (lsn : UInt64)

inductive Input where
  | message (env : Env) (msg : CopyData)
  /-- The status timer fires. -/
  | tick

namespace Connector

variable (parse : Bytes → Option Message) (cfg : Config)

variable (env : Env) (c : Connector)

/-- `sendStandbyStatus`, on an open connection. -/
def sendStandbyStatus : List Effect := [.status c.currentLSN]

/-- `HandleMessage` on a message of the log data that starts at `walStart`. Its error is only
reported. -/
def handle (walStart : UInt64) (msg : Message) : Connector × List Effect :=
  let r := c.handler.handleMessage cfg env c.currentLSN msg
  ({ c with handler := r.state, crashed := decide (r.outcome = .panic) },
    r.sent.map (.emit walStart))

/-- `receiveMessage`, and the handling of the message it returns. -/
def receiveMessage : CopyData → Connector × List Effect
  | .xLogData walStart walData =>
    -- The position is raised first, whatever becomes of the message.
    let c := { c with currentLSN := walStart + UInt64.ofNat walData.length }
    match parse walData with
    | none => (c, [])
    | some msg => handle cfg env c walStart msg
  | .keepalive serverWALEnd replyRequested =>
    let c := { c with currentLSN := max c.currentLSN serverWALEnd }
    (c, if replyRequested then c.sendStandbyStatus else [])
  | .malformed | .other => (c, [])
  | .empty => ({ c with crashed := true }, [])

/-- The run loop as a machine. `parse` decodes logical replication messages. -/
def machine : Machine Connector Input Effect where
  step c i :=
    if c.crashed then (c, [])
    else match i with
      | .message env msg => c.receiveMessage parse cfg env msg
      | .tick => (c, c.sendStandbyStatus)

end Connector

/-! ## What the server may discard -/

/-- A change of a published table, at its place in the log. -/
structure PublishedChange where
  lsn : UInt64
  schema : Bytes
  table : Bytes

def PublishedChange.place (change : PublishedChange) : ℕ := change.lsn.toNat

def captured (cfg : Config) (published : Set PublishedChange) : Set PublishedChange :=
  { change ∈ published | cfg.shouldCapture change.schema change.table = true }

/-- The changes whose event is put on the channel in a trace. -/
def delivered (es : List Effect) : Set PublishedChange :=
  { change | ∃ ev, .emit change.lsn ev ∈ es }

/-- Every captured change at or below the flush position of a status has been delivered before the
status is sent. -/
def AcknowledgesOnlyDelivered (cfg : Config) (published : Set PublishedChange)
    (es : List Effect) : Prop :=
  ∀ before lsn after, es = before ++ .status lsn :: after →
    Covered PublishedChange.place (captured cfg published) (delivered before) lsn.toNat

/-- No status is sent in this turn while the reported position has reached a captured change. -/
def QuietTurn (cfg : Config) (published : Set PublishedChange) (c : Connector) : Input → Prop
  | .tick => c.crashed = false → ∀ change ∈ captured cfg published, c.currentLSN < change.lsn
  | .message _ (.keepalive serverWALEnd true) =>
    c.crashed = false →
      ∀ change ∈ captured cfg published, max c.currentLSN serverWALEnd < change.lsn
  | .message _ _ => True

namespace Connector

variable {parse : Bytes → Option Message} {cfg : Config} {published : Set PublishedChange}

/-- A turn of a connector without a context emits nothing but a status, and the context does not
come back. -/
lemma step_of_ctx_eq_false {c : Connector} (hctx : c.handler.ctx = false) (i : Input) :
    ((machine parse cfg).step c i).1.handler.ctx = false ∧
      ∀ e ∈ ((machine parse cfg).step c i).2, ∃ lsn, e = .status lsn := by
  rw [machine]
  dsimp only
  split
  · exact ⟨hctx, by simp⟩
  · cases i with
    | tick => exact ⟨hctx, by simp [sendStandbyStatus]⟩
    | message env msg =>
      cases msg with
      | xLogData walStart walData =>
        dsimp only [receiveMessage]
        split
        · exact ⟨hctx, by simp⟩
        · -- Without a context the handler does not send.
          rename_i msg _
          obtain ⟨hsent, hctx', -⟩ := Handler.handleMessage_of_ctx_eq_false cfg env
            (walStart + UInt64.ofNat walData.length) hctx msg
          refine ⟨hctx', ?_⟩
          rw [handle, hsent]
          simp
      | keepalive serverWALEnd replyRequested =>
        refine ⟨hctx, ?_⟩
        cases replyRequested <;> simp [receiveMessage, sendStandbyStatus]
      | malformed | other | empty => exact ⟨hctx, by simp [receiveMessage]⟩

/-- A connector whose handler has no context never puts an event on the channel. -/
theorem emit_notMem_run {c : Connector} (hctx : c.handler.ctx = false) (is : List Input)
    (walStart : UInt64) (ev : ChangeEvent) :
    .emit walStart ev ∉ ((machine parse cfg).run c is).2 := by
  refine ((machine parse cfg).run_induction
    (motive := fun c es => c.handler.ctx = false ∧ .emit walStart ev ∉ es) is
    ⟨hctx, not_mem_nil⟩ ?_).2
  rintro c es i ⟨hctx, hes⟩
  obtain ⟨hctx', hstatus⟩ := step_of_ctx_eq_false hctx i
  refine ⟨hctx', ?_⟩
  rw [mem_append]
  rintro (hmem | hmem)
  · exact hes hmem
  · obtain ⟨lsn, hlsn⟩ := hstatus _ hmem
    cases hlsn

lemma quietTurn_iff (c : Connector) (i : Input) :
    QuietTurn cfg published c i ↔ ∀ e ∈ ((machine parse cfg).step c i).2, ∀ lsn, e = .status lsn →
      ∀ change ∈ captured cfg published, lsn < change.lsn := by
  -- After a panic there are no turns any more.
  cases hcrashed : c.crashed with
  | true =>
    have hstep : (machine parse cfg).step c i = (c, []) := by simp [machine, hcrashed]
    rw [hstep]
    rcases i with ⟨env, msg⟩ | _
    · rcases msg with _ | ⟨_, _ | _⟩ | _ | _ | _ <;> simp [QuietTurn, hcrashed]
    · simp [QuietTurn, hcrashed]
  | false =>
    rcases i with ⟨env, msg⟩ | _
    · have hstep : (machine parse cfg).step c (.message env msg) =
          c.receiveMessage parse cfg env msg := by
        simp [machine, hcrashed]
      rw [hstep]
      rcases msg with ⟨walStart, walData⟩ | ⟨serverWALEnd, _ | _⟩ | _ | _ | _
      · -- Handling log data sends no status.
        have hnone : ∀ e ∈ (c.receiveMessage parse cfg env (.xLogData walStart walData)).2,
            ∀ lsn, e ≠ .status lsn := by
          rw [receiveMessage]
          cases parse walData with
          | none => simp
          | some msg => simp [handle]
        simp only [QuietTurn, true_iff]
        intro e he lsn hlsn
        exact absurd hlsn (hnone e he lsn)
      all_goals simp [QuietTurn, receiveMessage, sendStandbyStatus, hcrashed]
    · simp [machine, QuietTurn, sendStandbyStatus, hcrashed]

/-- A trace without deliveries acknowledges only delivered changes exactly if no status has reached
a captured change. -/
lemma acknowledgesOnlyDelivered_iff_of_emit_notMem {es : List Effect}
    (hes : ∀ walStart ev, .emit walStart ev ∉ es) :
    AcknowledgesOnlyDelivered cfg published es ↔ ∀ e ∈ es, ∀ lsn, e = .status lsn →
      ∀ change ∈ captured cfg published, lsn < change.lsn := by
  have hdelivered : ∀ before lsn after, es = before ++ .status lsn :: after →
      delivered before = ∅ := by
    rintro before lsn after rfl
    ext change
    simp only [delivered, Set.mem_ofPred_eq, Set.mem_empty_iff_false, iff_false, not_exists]
    intro ev hmem
    exact hes change.lsn ev (mem_append_left _ hmem)
  constructor
  · rintro h e he lsn rfl change hchange
    obtain ⟨before, after, hsplit⟩ := append_of_mem he
    have hcovered := h before lsn after hsplit
    rw [hdelivered before lsn after hsplit, covered_empty_iff] at hcovered
    exact UInt64.lt_iff_toNat_lt.mpr (hcovered change hchange)
  · intro h before lsn after hsplit
    rw [hdelivered before lsn after hsplit, covered_empty_iff]
    intro change hchange
    have hmem : .status lsn ∈ es := by
      rw [hsplit]
      simp
    exact UInt64.lt_iff_toNat_lt.mp (h _ hmem lsn rfl change hchange)

/-- A connector that was started acknowledges only delivered changes exactly in the runs in which
no status is sent while the reported position has reached a captured change. -/
theorem acknowledgesOnlyDelivered_iff (parse : Bytes → Option Message) (cfg : Config)
    (published : Set PublishedChange) (tables : Option Tables)
    (schemaCache : Bytes → Option TableInfo) (position : Option Position) (startLSN : UInt64)
    (is : List Input) :
    let c : Connector :=
      { handler := newPGOutputHandler tables schemaCache position, currentLSN := startLSN
        crashed := false }
    AcknowledgesOnlyDelivered cfg published ((machine parse cfg).run c is).2 ↔
      (machine parse cfg).Meets (QuietTurn cfg published) c is := by
  intro c
  have hctx : c.handler.ctx = false := rfl
  rw [acknowledgesOnlyDelivered_iff_of_emit_notMem (emit_notMem_run hctx is),
    Machine.forall_mem_run_iff]
  exact Machine.meets_congr _ fun c i => (quietTurn_iff c i).symm

/-- A keepalive that carries the end of the server's log past a change not yet sent, and asks for
a reply, is answered with a status that acknowledges the change. -/
theorem not_forall_acknowledgesOnlyDelivered :
    ¬∀ (parse : Bytes → Option Message) (cfg : Config) (published : Set PublishedChange)
      (tables : Option Tables) (schemaCache : Bytes → Option TableInfo)
      (position : Option Position) (startLSN : UInt64) (is : List Input),
      AcknowledgesOnlyDelivered cfg published ((machine parse cfg).run
        { handler := newPGOutputHandler tables schemaCache position, currentLSN := startLSN
          crashed := false } is).2 := by
  intro h
  let env : Env := { now := Time.zero, select := fun _ => .sent, applyDDL := fun _ _ => none }
  let change : PublishedChange := { lsn := 150, schema := lit "public", table := lit "orders" }
  have hcovered := h (fun _ => none) { database := lit "shop", schemas := [], tables := [] }
    {change} none (fun _ => none) none 100 [.message env (.keepalive 200 true)] [] 200 [] rfl
    change ⟨rfl, rfl⟩ (by decide)
  obtain ⟨ev, hmem⟩ := hcovered
  cases hmem

end Connector

end DataStream.Source.Postgres
