import DataStream.Parser.Postgres.Parser
import DataStream.Source.Postgres.PGOutputHandler

/-!
# The relation of a row event

The handler keeps relation messages twice: by relation identifier, where the latest message wins,
and as a table definition under the bare table name, in `Tables`. Row events take their table from
`Tables`. There a relation message whose table name is known goes through `ApplyDDL` with a text
that is only a comment, and `ApplyDDL` passes the old definition on; the schema of the table is
neither part of the name nor compared.

* `carriesCurrentRelation_iff`: when row events carry the current relation.
-/

namespace DataStream.Source.Postgres

open Event Schema DDL List Option Function DDL.Postgres Tables

/-! ## Runs of the handler -/

/-- A message, and what the handler reads besides it. -/
structure Turn where
  now : Time
  select : ℕ → SelectCase
  currentLSN : UInt64
  msg : Message

/-- The new definition that the registered parser gives, if there is a parser. -/
def newDefinition (parser : Option Runtime) (old : Option TableInfo) (ddl : Bytes) :
    Option TableInfo :=
  parser.bind fun rt => (rt.applyDDL old ddl).bind DDLResult.newTableInfo

def Turn.env (parser : Option Runtime) (turn : Turn) : Env where
  now := turn.now
  select := turn.select
  applyDDL := newDefinition parser

namespace Handler

variable (cfg : Config) (parser : Option Runtime) (h : Handler)

def take (turn : Turn) : HandlerResult :=
  h.handleMessage cfg (turn.env parser) turn.currentLSN turn.msg

/-- The handler after some messages. -/
def after (turns : List Turn) : Handler :=
  turns.foldl (fun h turn => (h.take cfg parser turn).state) h

/-- `HandleMessage` returns from the messages of some turns. -/
def Returns (turns : List Turn) : Prop :=
  h.NeverPanics cfg (turns.map fun turn => (turn.env parser, turn.currentLSN, turn.msg))

end Handler

open Handler

/-- A handler that has seen no message. The context is an argument here: `NewPGOutputHandler` leaves
it out, and then the first event that is made ends the run. -/
def startHandler (ctx : Bool) (tables : Option Tables) (schemaCache : Bytes → Option TableInfo)
    (position : Option Position) : Handler :=
  { newPGOutputHandler tables schemaCache position with ctx }

/-! ## Relation messages -/

def Message.relation? : Message → Option RelationMessage
  | .relation msg => some msg
  | _ => none

variable {msg : Message} {rows : RelationMessage → Option (RowData × RowData)}

lemma eq_relation_of_relation? {relation : RelationMessage} (h : msg.relation? = some relation) :
    msg = .relation relation := by
  rcases msg with _ | _ | msg | _ | _ | _ | _ | _
  case relation => exact congrArg Message.relation (some.inj h)
  all_goals cases h

/-- The relation messages of a run, in order. -/
def announced (turns : List Turn) : List RelationMessage :=
  turns.filterMap fun turn => turn.msg.relation?

variable (start : Option TableInfo) (messages : List RelationMessage)

def latestRelation (relationID : UInt32) : Option RelationMessage :=
  messages.reverse.find? fun msg => msg.relationID = relationID

/-- What becomes of the definition under the name of a relation message: a new name is taken from
the message; a known one is kept if there is a parser, and otherwise replaced if columns or key
differ. -/
def keepDefinition (database : Bytes) (hasParser : Bool) (known : Option TableInfo)
    (msg : RelationMessage) : Option TableInfo :=
  let info := buildTableInfo database msg
  match known with
  | none => some info
  | some old => some (if hasParser || tableSchemasEqual old info then old else info)

/-- The definition under a table name, after relation messages. -/
def keptDefinition (database : Bytes) (hasParser : Bool) (start : Option TableInfo)
    (messages : List RelationMessage) (name : Bytes) : Option TableInfo :=
  (messages.filter fun msg => msg.relationName = name).foldl (keepDefinition database hasParser)
    start

@[simp]
lemma announced_append_singleton (turns : List Turn) (turn : Turn) :
    announced (turns ++ [turn]) = announced turns ++ turn.msg.relation?.toList := by
  rw [announced, filterMap_append, announced]
  rcases hmsg : turn.msg.relation? with _ | msg <;> simp [hmsg]

lemma latestRelation_append_singleton (msg : RelationMessage) (relationID : UInt32) :
    latestRelation (messages ++ [msg]) relationID =
      if msg.relationID = relationID then some msg else latestRelation messages relationID := by
  by_cases hid : msg.relationID = relationID <;> simp [hid, latestRelation]

variable (database : Bytes)

lemma keptDefinition_append_singleton (hasParser : Bool) (start : Option TableInfo)
    (messages : List RelationMessage) (msg : RelationMessage) (name : Bytes) :
    keptDefinition database hasParser start (messages ++ [msg]) name =
      if msg.relationName = name then
        keepDefinition database hasParser (keptDefinition database hasParser start messages name)
          msg
      else keptDefinition database hasParser start messages name := by
  rw [keptDefinition, filter_append, foldl_append, keptDefinition]
  by_cases hname : msg.relationName = name <;> simp [hname]

/-- With a parser the first definition of a name is kept forever. -/
theorem keptDefinition_parsed (name : Bytes) :
    keptDefinition database true start messages name =
      start.or ((messages.find? fun msg => msg.relationName = name).map
        (buildTableInfo database)) := by
  -- Once there is a definition, no message changes it.
  have hfixed : ∀ (info : TableInfo) (messages : List RelationMessage),
      messages.foldl (keepDefinition database true) (some info) = some info := by
    intro info messages
    induction messages with
    | nil => rfl
    | cons msg messages ih => exact ih
  rw [keptDefinition, ← head?_filter]
  rcases start with _ | info
  · generalize messages.filter (fun msg => msg.relationName = name) = named
    rcases named with _ | ⟨msg, rest⟩
    · rfl
    · exact hfixed _ rest
  · exact hfixed info _

/-! ## What a message does to the state -/

def changeText (oldTable : Option TableInfo) (msg : RelationMessage) : Bytes :=
  lit "-- " ++ (if oldTable.isNone then lit "CREATE" else lit "ALTER") ++
    lit " TABLE detected via relation message: " ++ msg.namespaceName ++ lit "." ++ msg.relationName

/-- No line break in the names of a relation message. -/
def RelationMessage.OneLine (msg : RelationMessage) : Prop :=
  (0x0A ∉ msg.namespaceName ∧ 0x0D ∉ msg.namespaceName) ∧
    0x0A ∉ msg.relationName ∧ 0x0D ∉ msg.relationName
  deriving Decidable

lemma lineComment_changeText (oldTable : Option TableInfo) {msg : RelationMessage}
    (h : msg.OneLine) : LineComment (changeText oldTable msg) := by
  obtain ⟨⟨hns, hns'⟩, hname, hname'⟩ := h
  refine ⟨?_, ?_, ?_⟩ <;> rw [changeText]
  · simp only [append_assoc]
    exact List.IsPrefix.trans (by decide) (prefix_append (lit "-- ") _)
  all_goals
    generalize oldTable.isNone = new
    simp only [mem_append, hns, hns', hname, hname', or_false]
    revert new
    decide

lemma newDefinition_changeText {parser : Option Runtime}
    (hparser : ∀ rt ∈ parser, rt.CommentsUnknown) {msg : RelationMessage} (hmsg : msg.OneLine)
    (oldTable : Option TableInfo) :
    newDefinition parser oldTable (changeText oldTable msg) =
      if parser.isSome then oldTable else none := by
  rcases parser with _ | rt
  · rfl
  · exact Runtime.applyDDL_of_unknown
      (hparser rt rfl _ (lineComment_changeText oldTable hmsg)) oldTable

namespace Handler

variable {cfg : Config} {parser : Option Runtime} {h : Handler}

/-- The sending select changes no state, and puts at most its event on the channel. -/
lemma sendEvent_spec (h : Handler) (choice : SelectCase) (ev : ChangeEvent) :
    let result := h.sendEvent choice ev
    result.state = h ∧ result.made = [ev] ∧ result.sent ⊆ [ev] := by
  rcases hctx : h.ctx with _ | _
  · simp [sendEvent, hctx]
  · rcases choice with _ | _ | _ <;> simp [sendEvent, hctx]

lemma handleRelation_state (cfg : Config) (h : Handler) (env : Env) (currentLSN : UInt64)
    (msg : RelationMessage) :
    let result := (handleRelation cfg env currentLSN h msg).state
    result.ctx = h.ctx ∧
    result.relations = update h.relations msg.relationID (some msg) ∧
    result.tables = h.tables.map fun tables =>
      let info := buildTableInfo cfg.database msg
      let old := tables.get cfg.database msg.relationName
      if old.any (tableSchemasEqual · info) then tables
      else tables.put ((env.applyDDL old (changeText old msg)).getD info) := by
  rcases htables : h.tables with _ | tables
  · simp [handleRelation, htables]
  · rcases hold : tables.get cfg.database msg.relationName with _ | old
    · simp [handleRelation, htables, hold, applySchemaChange, changeText]
    · by_cases heq : tableSchemasEqual old (buildTableInfo cfg.database msg) = true
      · simp [handleRelation, htables, hold, heq]
      · simp [handleRelation, htables, hold, heq, applySchemaChange, changeText]

lemma handleTruncate_state (cfg : Config) (h : Handler) (env : Env) (currentLSN : UInt64) (n : ℕ)
    (relationIDs : List UInt32) :
    (handleTruncate cfg env currentLSN h n relationIDs).state = h := by
  induction relationIDs generalizing n with
  | nil => rfl
  | cons relationID relationIDs ih =>
    rw [handleTruncate]
    split
    · exact ih n
    · dsimp only
      split_ifs
      · exact ih n
      · exact ih (n + 1)
      · exact (sendEvent_spec ..).1

lemma handleMessage_state (cfg : Config) (h : Handler) (hmsg : msg.relation? = none) (env : Env)
    (currentLSN : UInt64) :
    let result := (handleMessage cfg env currentLSN h msg).state
    result.ctx = h.ctx ∧ result.relations = h.relations ∧ result.tables = h.tables := by
  have hrow : ∀ relationID type rows,
      (handleRow cfg env currentLSN h relationID type rows).state = h := by
    intro relationID type rows
    rw [handleRow]
    repeat' split
    case h_2 => exact (sendEvent_spec ..).1
    all_goals rfl
  rcases msg with _ | _ | msg | _ | _ | _ | relationIDs | _
  case relation => cases hmsg
  case insert => simp only [handleMessage, handleInsert, hrow, and_self]
  case update => simp only [handleMessage, handleUpdate, hrow, and_self]
  case delete => simp only [handleMessage, handleDelete, hrow, and_self]
  case truncate => simp only [handleMessage, handleTruncate_state, and_self]
  all_goals exact ⟨rfl, rfl, rfl⟩

/-- In definitions that are stored under their own names, a relation message stores the definition
that is kept. -/
lemma definitions_eq (hparser : ∀ rt ∈ parser, rt.CommentsUnknown) {msg : RelationMessage}
    (hmsg : msg.OneLine) {tables : Tables} (hkeyed : tables.WellKeyed) :
    let info := buildTableInfo cfg.database msg
    let old := tables.get cfg.database msg.relationName
    ∃ kept, keepDefinition cfg.database parser.isSome old msg = some kept ∧
      tableKey kept.database kept.table = tableKey cfg.database msg.relationName ∧
      (if old.any (tableSchemasEqual · info) then tables
        else tables.put ((newDefinition parser old (changeText old msg)).getD info)) =
      tables.put kept := by
  intro info old
  have hdefinition := newDefinition_changeText hparser hmsg old
  rw [hdefinition]
  rcases hold : old with _ | known
  · -- A new name: the parser has nothing to pass on.
    refine ⟨info, rfl, rfl, ?_⟩
    rw [ite_self]
    rfl
  · by_cases heq : tableSchemasEqual known info = true
    · refine ⟨known, by simp [keepDefinition, info, heq], hkeyed _ _ hold, ?_⟩
      rw [any_some, if_pos heq, hkeyed.put_of_get hold]
    · rw [any_some, if_neg heq]
      rcases hsome : parser.isSome with _ | _
      · exact ⟨info, by simp [keepDefinition, info, heq], rfl, rfl⟩
      · exact ⟨known, by simp [keepDefinition], hkeyed _ _ hold, rfl⟩

/-- The relations by identifier and the definitions by name, as the relation messages leave them. -/
structure Follows (cfg : Config) (hasParser ctx : Bool) (tables : Option Tables)
    (messages : List RelationMessage) (h : Handler) : Prop where
  ctx_eq : h.ctx = ctx
  relations_eq : h.relations = latestRelation messages
  wellKeyed : ∀ t ∈ h.tables, WellKeyed t
  tables_eq : h.tables.map (fun t => t.get cfg.database) =
    tables.map fun t name => keptDefinition cfg.database hasParser (t.get cfg.database name)
      messages name

/-- One message: what the handler keeps follows the relation messages. -/
lemma Follows.take {ctx : Bool} {tables : Option Tables} {messages : List RelationMessage}
    (h' : h.Follows cfg parser.isSome ctx tables messages)
    (hparser : ∀ rt ∈ parser, rt.CommentsUnknown) (turn : Turn)
    (hmsg : ∀ msg ∈ turn.msg.relation?, msg.OneLine) :
    (h.take cfg parser turn).state.Follows cfg parser.isSome ctx tables
      (messages ++ turn.msg.relation?.toList) := by
  rcases hrelation : turn.msg.relation? with _ | msg
  · -- No relation message.
    obtain ⟨hctx, hrelations, htables⟩ := handleMessage_state cfg h hrelation
      (turn.env parser) turn.currentLSN
    rw [toList_none, append_nil]
    refine ⟨hctx.trans h'.ctx_eq, hrelations.trans h'.relations_eq, ?_, ?_⟩ <;>
      rw [Handler.take, htables]
    · exact h'.wellKeyed
    · exact h'.tables_eq
  · obtain ⟨hctx, hrelations, htables⟩ :=
      handleRelation_state cfg h (turn.env parser) turn.currentLSN msg
    have hstate : (h.take cfg parser turn).state =
        (handleRelation cfg (turn.env parser) turn.currentLSN h msg).state := by
      rw [Handler.take, eq_relation_of_relation? hrelation]
      rfl
    rw [toList_some, hstate]
    refine ⟨hctx.trans h'.ctx_eq, ?_, ?_, ?_⟩
    · rw [hrelations, h'.relations_eq]
      ext1 relationID
      rw [latestRelation_append_singleton, update_apply]
      exact if_congr eq_comm rfl rfl
    · rw [htables]
      intro t ht
      obtain ⟨t₀, ht₀, rfl⟩ := map_eq_some_iff.mp ht
      obtain ⟨kept, -, -, heq⟩ := definitions_eq hparser (hmsg msg hrelation) (h'.wellKeyed t₀ ht₀)
      exact heq ▸ (h'.wellKeyed t₀ ht₀).put kept
    · have hmap := h'.tables_eq
      rcases hsome : h.tables with _ | t
      · -- A connector without definitions stays without.
        rw [hsome, map_none, eq_comm, map_eq_none_iff] at hmap
        rw [htables, hsome, hmap]
        rfl
      · rw [hsome] at hmap
        obtain ⟨start, hstart, hget⟩ := map_eq_some_iff.mp hmap.symm
        obtain ⟨kept, hkept, hkey, heq⟩ := definitions_eq hparser (hmsg msg hrelation)
          (h'.wellKeyed t hsome)
        have hget' : ∀ name, keptDefinition cfg.database parser.isSome
            (start.get cfg.database name) messages name = t.get cfg.database name :=
          fun name => congrFun hget name
        rw [htables, hsome, hstart, map_some, map_some, map_some]
        refine congrArg some (funext fun name => ?_)
        refine (congrArg (fun t : Tables => t.get cfg.database name) heq).trans ?_
        rw [t.get_put_of_key hkey, keptDefinition_append_singleton, hget' name]
        refine if_ctx_congr Iff.rfl (fun hname => ?_) fun _ => rfl
        rw [← hname]
        exact hkept.symm

/-- The handler after a run whose table names have no line breaks. -/
theorem after_state (hparser : ∀ rt ∈ parser, rt.CommentsUnknown) (ctx : Bool)
    {tables : Option Tables} (hkeyed : ∀ t ∈ tables, WellKeyed t)
    (schemaCache : Bytes → Option TableInfo) (position : Option Position) {turns : List Turn}
    (hlines : ∀ msg ∈ announced turns, msg.OneLine) :
    ((startHandler ctx tables schemaCache position).after cfg parser turns).Follows cfg
      parser.isSome ctx tables (announced turns) := by
  induction turns using List.reverseRecOn with
  | nil =>
    refine ⟨rfl, rfl, hkeyed, ?_⟩
    rcases tables with _ | t <;> rfl
  | append_singleton turns turn ih =>
    rw [announced_append_singleton] at hlines ⊢
    rw [after, foldl_append]
    refine (ih fun msg hmsg => hlines msg (mem_append_left _ hmsg)).take hparser turn ?_
    exact fun msg hmsg => hlines msg (mem_append_right _ (mem_toList.mpr hmsg))

end Handler

/-! ## Events -/

/-- The identifier, the event type and the images of a message about a row. -/
def Message.rowChange : Message →
    Option (UInt32 × EventType × (RelationMessage → Option (RowData × RowData)))
  | .insert relationID tuple => some (relationID, .insert, fun relation =>
    (buildRowData relation tuple).map fun after => (noRow, after))
  | .update relationID oldTuple newTuple => some (relationID, .update, fun relation =>
    (optionalRow relation oldTuple).bind fun before =>
      (optionalRow relation newTuple).map fun after => (before, after))
  | .delete relationID oldTuple => some (relationID, .delete, fun relation =>
    (optionalRow relation oldTuple).map fun before => (before, noRow))
  | _ => none

/-- The identifiers that a message is about. -/
def Message.relationIDs : Message → List UInt32
  | .insert relationID _ | .update relationID _ _ | .delete relationID _ => [relationID]
  | .truncate relationIDs => relationIDs
  | _ => []

namespace Handler

variable {cfg : Config} {env : Env} {currentLSN : UInt64} {h : Handler} {ev : ChangeEvent}
  {rows : RelationMessage → Option (RowData × RowData)} {msg : RelationMessage}

lemma mem_handleRow_made_iff {relationID : UInt32} {type : EventType} :
    ev ∈ (handleRow cfg env currentLSN h relationID type rows).made ↔
      ∃ relation images, h.relations relationID = some relation ∧
        cfg.shouldCapture relation.namespaceName relation.relationName = true ∧
        rows relation = some images ∧
        ev = { baseEvent cfg env currentLSN relationID type (h.getTableInfo cfg relation) with
          before := images.1, after := images.2 } := by
  rw [handleRow]
  rcases hrelation : h.relations relationID with _ | relation
  · simp
  · rcases hcapture : cfg.shouldCapture relation.namespaceName relation.relationName with _ | _
    · simp [hcapture]
    · rcases hrows : rows relation with _ | ⟨before, after⟩
      · simp [hcapture, hrows]
      · simp [hcapture, hrows, (sendEvent_spec ..).2.1]

lemma exists_of_mem_handleTruncate {n : ℕ} {relationIDs : List UInt32}
    (hev : ev ∈ (handleTruncate cfg env currentLSN h n relationIDs).made) :
    ∃ relationID ∈ relationIDs, ∃ relation, h.relations relationID = some relation ∧
      cfg.shouldCapture relation.namespaceName relation.relationName = true ∧
      ev = baseEvent cfg env currentLSN relationID .truncate
        (buildTableInfo cfg.database relation) := by
  induction relationIDs generalizing n with
  | nil => cases hev
  | cons relationID relationIDs ih =>
    -- The event is that of the first identifier, or it comes from a later one.
    rw [exists_mem_cons_iff]
    rw [handleTruncate] at hev
    rcases hrelation : h.relations relationID with _ | relation
    · rw [hrelation] at hev
      exact .inr (ih hev)
    · rw [hrelation] at hev
      dsimp only at hev
      by_cases hcapture : cfg.shouldCapture relation.namespaceName relation.relationName = true
      · rw [if_neg (by simp [hcapture])] at hev
        split_ifs at hev
        · rcases mem_cons.mp hev with rfl | hev
          · exact .inl ⟨relation, rfl, hcapture, rfl⟩
          · exact .inr (ih hev)
        · rw [(sendEvent_spec ..).2.1] at hev
          exact .inl ⟨relation, rfl, hcapture, mem_singleton.mp hev⟩
      · rw [if_pos (by simp [hcapture])] at hev
        exact .inr (ih hev)

lemma sent_subset_made (msg : Message) :
    (handleMessage cfg env currentLSN h msg).sent ⊆
      (handleMessage cfg env currentLSN h msg).made := by
  have hsend : ∀ h choice ev, (sendEvent h choice ev).sent ⊆ (sendEvent h choice ev).made := by
    intro h choice ev
    rw [(sendEvent_spec h choice ev).2.1]
    exact (sendEvent_spec h choice ev).2.2
  have hrow : ∀ relationID type rows, (handleRow cfg env currentLSN h relationID type rows).sent ⊆
      (handleRow cfg env currentLSN h relationID type rows).made := by
    intro relationID type rows
    rw [handleRow]
    repeat' split
    case h_2 => exact hsend ..
    all_goals exact nil_subset _
  have htruncate : ∀ n relationIDs, (handleTruncate cfg env currentLSN h n relationIDs).sent ⊆
      (handleTruncate cfg env currentLSN h n relationIDs).made := by
    intro n relationIDs
    induction relationIDs generalizing n with
    | nil => exact nil_subset _
    | cons relationID relationIDs ih =>
      rw [handleTruncate]
      split
      · exact ih n
      · dsimp only
        split_ifs
        · exact ih n
        · exact append_subset.mpr ⟨fun ev hev =>
            mem_cons.mpr (.inl (mem_singleton.mp ((sendEvent_spec ..).2.2 hev))),
            subset_cons_of_subset _ (ih _)⟩
        · exact hsend ..
  rcases msg with _ | _ | msg | _ | _ | _ | relationIDs | _
  case relation =>
    change (handleRelation cfg env currentLSN h msg).sent ⊆ _
    simp only [handleMessage, handleRelation, applySchemaChange]
    repeat' split
    all_goals first | exact nil_subset _ | exact hsend ..
  case insert | update | delete => exact hrow ..
  case truncate => exact htruncate 0 relationIDs
  all_goals exact nil_subset _

lemma rowChange_spec {msg : Message} {relationID : UInt32} {type : EventType}
    (hmsg : msg.rowChange = some (relationID, type, rows)) :
    msg.relationIDs = [relationID] ∧ type ∈ [EventType.insert, .update, .delete, .truncate] ∧
      ∀ cfg env currentLSN h, handleMessage cfg env currentLSN h msg =
        handleRow cfg env currentLSN h relationID type rows := by
  rcases msg with _ | _ | _ | _ | _ | _ | _ | _
  case insert | update | delete => cases hmsg; exact ⟨rfl, by decide, fun _ _ _ _ => rfl⟩
  all_goals cases hmsg

/-- The events of a relation message are DDL events that name its relation, with a comment for the
statement. -/
lemma eq_of_mem_handleRelation (hev : ev ∈ (handleRelation cfg env currentLSN h msg).made) :
    ev.type = .ddl ∧ ev.table.database = cfg.database ∧ ev.table.table = msg.relationName ∧
      ∃ old : Option TableInfo, ev.metadata =
        [(lit "ddl", changeText old msg), (lit "ddlDatabase", cfg.database),
          (lit "ddlStatement", changeText old msg), (lit "ddlTable", msg.relationName),
          (lit "ddlType", if old.isNone then lit "CREATE" else lit "ALTER")] := by
  -- Only a detected change of the schema makes an event.
  obtain ⟨h', tables, old, info, hmade⟩ : ∃ h' tables old info,
      ev ∈ (applySchemaChange cfg env currentLSN h' tables old info msg).made := by
    rw [handleRelation] at hev
    split at hev
    · exact absurd hev not_mem_nil
    · split at hev
      · exact ⟨_, _, _, _, hev⟩
      · split_ifs at hev
        · exact absurd hev not_mem_nil
        · exact ⟨_, _, _, _, hev⟩
  rw [applySchemaChange, (sendEvent_spec ..).2.1] at hmade
  rw [mem_singleton.mp hmade]
  exact ⟨rfl, rfl, rfl, old, rfl⟩

end Handler

/-! ## The current relation -/

/-- A definition has the schema, the name and the columns of a relation message. -/
def ShapedAs (info : TableInfo) (relation : RelationMessage) : Prop :=
  info.schema = relation.namespaceName ∧ info.table = relation.relationName ∧
    info.columns.map ColumnInfo.name = relation.columns.map RelationColumn.name
  deriving Decidable

lemma shapedAs_buildTableInfo (relation : RelationMessage) :
    ShapedAs (buildTableInfo database relation) relation := by
  refine ⟨rfl, rfl, ?_⟩
  simp [buildTableInfo, comp_def]

/-- Every insert, update, delete and truncate event that is made in a run, up to the first panic,
has the shape of the latest relation message before it for the identifier of the event. -/
def CarriesCurrentRelation (cfg : Config) (parser : Option Runtime) (h : Handler)
    (turns : List Turn) : Prop :=
  ∀ past turn rest, turns = past ++ turn :: rest → h.Returns cfg parser past →
    ∀ ev ∈ ((h.after cfg parser past).take cfg parser turn).made,
      ev.type ∈ [EventType.insert, .update, .delete, .truncate] →
      ∃ relationID ∈ turn.msg.relationIDs,
        ev.id = generateEventID (lit "postgres") [] turn.now relationID.toNat ∧
        ∃ relation, latestRelation (announced past) relationID = some relation ∧
          ShapedAs ev.table relation

/-- If the message of a turn makes a row event, then the definition that is kept under the name of
its table has the shape of the latest relation message for its identifier. -/
def KeepsCurrentShape (cfg : Config) (hasParser : Bool) (tables : Option Tables) (past : List Turn)
    (turn : Turn) : Prop :=
  ∀ relationID type rows relation start info,
    turn.msg.rowChange = some (relationID, type, rows) →
    latestRelation (announced past) relationID = some relation →
    cfg.shouldCapture relation.namespaceName relation.relationName = true →
    (rows relation).isSome → tables = some start →
    keptDefinition cfg.database hasParser (start.get cfg.database relation.relationName)
      (announced past) relation.relationName = some info →
    ShapedAs info relation

section Current

variable {cfg : Config} {parser : Option Runtime} {ctx : Bool}
  {tables : Option Tables} {past : List Turn} {h : Handler}
  (hfollows : h.Follows cfg parser.isSome ctx tables (announced past))

include hfollows

/-- The table of a row event has the shape of its relation exactly if the definition that is kept
has it. -/
lemma shapedAs_getTableInfo_iff (relation : RelationMessage) :
    ShapedAs (h.getTableInfo cfg relation) relation ↔ ∀ start info, tables = some start →
      keptDefinition cfg.database parser.isSome (start.get cfg.database relation.relationName)
        (announced past) relation.relationName = some info → ShapedAs info relation := by
  have hmap := hfollows.tables_eq
  rw [getTableInfo]
  rcases tables with _ | start
  · -- Without definitions the table is that of the relation message.
    rw [map_none, map_eq_none_iff] at hmap
    rw [hmap]
    exact iff_of_true (shapedAs_buildTableInfo _ _) fun _ _ hsome => nomatch hsome
  · obtain ⟨t, ht, hget⟩ := map_eq_some_iff.mp hmap
    have hget' : t.get cfg.database relation.relationName = keptDefinition cfg.database
        parser.isSome (start.get cfg.database relation.relationName) (announced past)
        relation.relationName := congrFun hget relation.relationName
    rw [ht, bind_some, hget']
    constructor
    · intro hshaped start' info hstart hkept
      rw [← some.inj hstart] at hkept
      rwa [hkept] at hshaped
    · intro hall
      rcases hkept : keptDefinition cfg.database parser.isSome
        (start.get cfg.database relation.relationName) (announced past) relation.relationName
        with _ | info
      · exact shapedAs_buildTableInfo _ _
      · exact hall start info rfl hkept

lemma turn_carries_iff (turn : Turn) :
    (∀ ev ∈ (h.take cfg parser turn).made,
      ev.type ∈ [EventType.insert, .update, .delete, .truncate] →
      ∃ relationID ∈ turn.msg.relationIDs,
        ev.id = generateEventID (lit "postgres") [] turn.now relationID.toNat ∧
        ∃ relation, latestRelation (announced past) relationID = some relation ∧
          ShapedAs ev.table relation) ↔
      KeepsCurrentShape cfg parser.isSome tables past turn := by
  rcases hrow : turn.msg.rowChange with _ | ⟨relationID, type, rows⟩
  · -- Not about a row: only a truncate message has events, and they are built from the relation.
    refine iff_of_true ?_ fun relationID type rows relation start info hmsg => ?_
    · intro ev hev htype
      rw [Handler.take] at hev
      rcases hmsg : turn.msg with _ | _ | msg | _ | _ | _ | relationIDs | _ <;>
        rw [hmsg] at hev hrow
      case relation =>
        rw [(eq_of_mem_handleRelation hev).1] at htype
        exact absurd htype (by decide)
      case truncate =>
        obtain ⟨relationID, hmem, relation, hrelation, -, rfl⟩ := exists_of_mem_handleTruncate hev
        rw [hfollows.relations_eq] at hrelation
        exact ⟨relationID, hmem, rfl, relation, hrelation, shapedAs_buildTableInfo _ _⟩
      case insert | update | delete => cases hrow
      all_goals cases hev
    · rw [hrow] at hmsg
      cases hmsg
  · obtain ⟨hids, htype, hhandled⟩ := rowChange_spec hrow
    rw [Handler.take, hhandled, hids]
    constructor
    · intro hcarries relationID' type' rows' relation start info hrow' hlatest hcapture himages
        hstart hkept
      rw [hrow] at hrow'
      cases hrow'
      obtain ⟨images, himages⟩ := isSome_iff_exists.mp himages
      have hrelation : h.relations relationID = some relation := by
        rw [hfollows.relations_eq, hlatest]
      -- All conditions for the event to be made are met.
      obtain ⟨id, hid, -, relation', hlatest', hshaped⟩ := hcarries _
        (mem_handleRow_made_iff.mpr ⟨relation, images, hrelation, hcapture, himages, rfl⟩) htype
      rw [mem_singleton.mp hid, hlatest] at hlatest'
      cases hlatest'
      exact (shapedAs_getTableInfo_iff hfollows relation).mp hshaped start info hstart hkept
    · rintro hkeeps ev hev -
      obtain ⟨relation, images, hrelation, hcapture, himages, rfl⟩ :=
        mem_handleRow_made_iff.mp hev
      rw [hfollows.relations_eq] at hrelation
      refine ⟨relationID, mem_singleton_self _, rfl, relation, hrelation, ?_⟩
      refine (shapedAs_getTableInfo_iff hfollows relation).mpr fun start info hstart hkept => ?_
      exact hkeeps relationID type rows relation start info hrow hrelation hcapture
        (himages ▸ rfl) hstart hkept

end Current

/-- Row events carry the current relation exactly if every turn keeps the current shape. -/
theorem carriesCurrentRelation_iff (cfg : Config) (parser : Option Runtime)
    (hparser : ∀ rt ∈ parser, rt.CommentsUnknown) (ctx : Bool) (tables : Option Tables)
    (hkeyed : ∀ t ∈ tables, WellKeyed t) (schemaCache : Bytes → Option TableInfo)
    (position : Option Position) (turns : List Turn)
    (hlines : ∀ msg ∈ announced turns, msg.OneLine) :
    CarriesCurrentRelation cfg parser (startHandler ctx tables schemaCache position) turns ↔
      ∀ past turn rest, turns = past ++ turn :: rest →
        (startHandler ctx tables schemaCache position).Returns cfg parser past →
        KeepsCurrentShape cfg parser.isSome tables past turn := by
  refine forall₅_congr fun past turn rest hsplit _ => ?_
  have hpast : ∀ msg ∈ announced past, msg.OneLine := by
    intro msg hmsg
    refine hlines msg ?_
    rw [hsplit, announced, filterMap_append]
    exact mem_append_left _ hmsg
  exact turn_carries_iff (after_state hparser ctx hkeyed schemaCache position hpast) turn

/-- A parser that finds no statement in any text. -/
def silentParser : Runtime := { visit := fun _ => [], toUpper := id }

lemma silentParser_commentsUnknown : ∀ rt ∈ some silentParser, rt.CommentsUnknown := by
  intro rt hrt text _
  rw [← mem_some_iff.mp hrt]
  exact Runtime.unknown_of_visit_eq_nil rfl

def textColumn (name : String) : RelationColumn := { flags := 0, name := lit name, dataType := 25 }

/-- A table `users` of some schema, with the column `id`. -/
def usersRelation (relationID : UInt32) (schema : String) : RelationMessage where
  relationID := relationID
  namespaceName := lit schema
  relationName := lit "users"
  columns := [textColumn "id"]

def Turn.sending (msg : Message) : Turn :=
  { now := Time.zero, select := fun _ => .sent, currentLSN := 0, msg }

/-- The connector of a database `shop` that captures everything. -/
def captureAll : Config := { database := lit "shop", schemas := [], tables := [] }

/-- The definitions of a connector that has the table `public.users`. -/
def usersTables : Tables :=
  Tables.empty.put (buildTableInfo captureAll.database (usersRelation 7 "public"))

/-- A table `users` is announced and a row is inserted into it. -/
def insertRun (relationID : UInt32) (schema : String) : List Turn :=
  [.sending (.relation (usersRelation relationID schema)),
    .sending (.insert relationID (some [{ dataType := .text, data := lit "1" }]))]

lemma wellKeyed_usersTables : ∀ t ∈ some usersTables, WellKeyed t := by
  intro t ht
  rw [← mem_some_iff.mp ht]
  exact wellKeyed_empty.put _

/-- An insert into the table that the connector knows carries its schema and its columns. -/
theorem carriesCurrentRelation_insertRun :
    CarriesCurrentRelation captureAll (some silentParser)
      (newPGOutputHandler (some usersTables) (fun _ => none) none) (insertRun 7 "public") := by
  have hlines : ∀ msg ∈ announced (insertRun 7 "public"), msg.OneLine := by
    intro msg hmsg
    rw [show msg = usersRelation 7 "public" from mem_singleton.mp hmsg]
    decide
  refine (carriesCurrentRelation_iff captureAll (some silentParser) silentParser_commentsUnknown
    false (some usersTables) wellKeyed_usersTables _ none (insertRun 7 "public") hlines).mpr ?_
  rintro past turn rest hsplit - relationID type rows relation start info hrow hlatest - - hstart
    hkept
  rcases past with _ | ⟨first, _ | ⟨second, past⟩⟩
  · -- The first message is not about a row.
    rw [← (List.cons.inj hsplit).1] at hrow
    cases hrow
  · have hfirst := (List.cons.inj hsplit).1
    rw [← hfirst, latestRelation] at hlatest
    have hrelation : relation = usersRelation 7 "public" :=
      mem_singleton.mp (mem_of_find?_eq_some hlatest)
    rw [← some.inj hstart, ← hfirst, hrelation, isSome_some, keptDefinition_parsed] at hkept
    rw [← some.inj hkept, hrelation]
    exact shapedAs_buildTableInfo _ _
  · exact absurd (List.cons.inj (List.cons.inj hsplit).2).2 (by simp)

/-- An insert into a table of another schema carries the schema of the known table of the same
name. -/
theorem not_forall_carriesCurrentRelation :
    ¬∀ (cfg : Config) (parser : Option Runtime),
      (∀ rt ∈ parser, rt.CommentsUnknown) → ∀ (tables : Option Tables),
      (∀ t ∈ tables, WellKeyed t) → ∀ (schemaCache : Bytes → Option TableInfo)
      (position : Option Position) (turns : List Turn),
      CarriesCurrentRelation cfg parser (newPGOutputHandler tables schemaCache position) turns := by
  intro hall
  let past : List Turn := [.sending (.relation (usersRelation 8 "archive"))]
  -- The relation message makes no event: the definitions have a table with these columns.
  have hreturns : (newPGOutputHandler (some usersTables) (fun _ => none) none).Returns captureAll
      (some silentParser) past := ⟨nofun, trivial⟩
  have hcarries := hall captureAll (some silentParser) silentParser_commentsUnknown
    (some usersTables) wellKeyed_usersTables (fun _ => none) none (insertRun 8 "archive") past _ []
    rfl hreturns
  have hlines : ∀ msg ∈ announced past, msg.OneLine := by
    intro msg hmsg
    rw [show msg = usersRelation 8 "archive" from mem_singleton.mp hmsg]
    decide
  have hkeeps := (turn_carries_iff (after_state silentParser_commentsUnknown false
    wellKeyed_usersTables _ none hlines) _).mp hcarries 8 .insert _ (usersRelation 8 "archive")
    usersTables (buildTableInfo captureAll.database (usersRelation 7 "public")) rfl rfl rfl rfl rfl
    rfl
  revert hkeeps
  decide

end DataStream.Source.Postgres
