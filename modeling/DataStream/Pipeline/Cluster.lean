import DataStream.Foundations.Balance
import DataStream.Pipeline.TaskManager

/-!
# Rebalancing a cluster

`pipeline.ClusterManager`: a rebalance round of the cluster leader lists the nodes and the tasks,
collects the tasks to assign and assigns them one by one to a node with the fewest tasks of this
round. A task that is assigned to the leader's own node is acquired and its callback is called. The
coordinator is a parameter of each round: what it lists and answers.

A round collects the tasks for which `IsLeader` answers true, which are those that the node leads
itself, and not the ones without a leader. The limit of a node is off by one: a node is picked while
it has at most `MaxTasksPerNode` tasks, and then gets one more.

* `balanced_iff`: when a round stays balanced and below the limit;
* `picksOrphans_iff`: when the rounds pick the orphaned tasks.
-/

namespace DataStream.Cluster

open Balance Tasks List Option

/-! ## The program -/

def maxTasksPerNode : ℕ := 10

/-- `NodeExpiryThreshold`, in nanoseconds. -/
def nodeExpiryThreshold : ℤ := 30 * 1000000000

/-- `NodeInfo`, as far as a round reads it. -/
structure NodeInfo where
  id : Bytes
  /-- In nanoseconds. -/
  lastSeen : ℤ
  deriving DecidableEq, Repr

/-- A task as the coordinator lists it. -/
structure TaskRecord where
  id : Bytes
  status : TaskStatus
  deriving DecidableEq, Repr

/-- `pickLeastLoaded`, for an iteration order of the alive nodes; the empty string is no node. -/
def pickLeastLoaded (order : List Bytes) (taskCount : Bytes → ℕ) : Bytes :=
  (scan taskCount ([], maxTasksPerNode + 1) order).1

/-- An item that was assigned: its node, and the counts after this step. -/
structure Placement (α : Type) where
  item : α
  node : Bytes
  count : Bytes → ℕ

/-- The steps of a round, the counts at its end and the items that are left. -/
structure Assignment (α : Type) where
  steps : List (Placement α)
  count : Bytes → ℕ
  left : List (α × List Bytes)

/-- The last loop of `rebalanceCluster`. Each item comes with the iteration order of the map when
its node is picked. -/
def assign {α : Type} (count : Bytes → ℕ) : List (α × List Bytes) → Assignment α
  | [] => { steps := [], count, left := [] }
  | (item, order) :: offers =>
    let target := pickLeastLoaded order count
    if target = [] then { steps := [], count, left := (item, order) :: offers }
    else
      let rest := assign (place count target) offers
      { rest with steps := { item, node := target, count := place count target } :: rest.steps }

def TaskRecord.eligible (t : TaskRecord) : Bool := t.status = .running || t.status = .created

/-- The leader of each task, as the coordinator keeps it. -/
abbrev Leaders := Bytes → Option Bytes

/-- What a call of `rebalanceCluster` reads besides the leaders. -/
structure Round where
  now : ℤ
  nodes : List NodeInfo
  tasks : List TaskRecord
  /-- `IsLeader` returns an error. -/
  isLeaderFails : Bytes → Bool
  /-- The campaign for a task ends with an error or with its context. -/
  campaignFails : Bytes → Bool
  /-- The iteration order of the alive nodes in the `n`th pick. -/
  order : ℕ → List Bytes → List Bytes
  order_perm : ∀ n nodes, (order n nodes).Perm nodes

namespace Round

variable (r : Round) (nodeID : Bytes) (leader : Leaders)

/-- The alive nodes. -/
def alive : List Bytes :=
  ((r.nodes.filter fun node => r.now - node.lastSeen ≤ nodeExpiryThreshold).map NodeInfo.id).dedup

/-- `IsLeader`, with an error taken as false. -/
def isLeader (taskID : Bytes) : Bool := !r.isLeaderFails taskID && leader taskID = some nodeID

/-- `unassignedTasks`. -/
def offered : List TaskRecord :=
  if r.alive = [] then [] else r.tasks.filter fun t => t.eligible && r.isLeader nodeID leader t.id

/-- The offered tasks with the iteration orders of their picks. -/
def offers : List (TaskRecord × List Bytes) :=
  (r.offered nodeID leader).zipIdx.map fun p => (p.1, r.order p.2 r.alive)

/-- `AcquireLeadership`: the leaders afterwards and the answer. A campaign of the leader itself ends
at once; one against another leader waits until its context is done. -/
def acquireLeadership (taskID : Bytes) : Leaders × Bool :=
  if r.campaignFails taskID then (leader, false)
  else
    match leader taskID with
    | none => (Function.update leader taskID (some nodeID), true)
    | some other => (leader, other = nodeID)

end Round

/-- A node and the leaders of the tasks. -/
structure ClusterManager where
  leader : Leaders
  localTasks : List Bytes

/-- What is called. -/
inductive Effect where
  | assigned (taskID : Bytes)
  /-- The node is no longer the leader of a task. -/
  | lost (taskID : Bytes)
  deriving DecidableEq, Repr

namespace ClusterManager

variable (m : ClusterManager) (nodeID : Bytes)

def acquireTask (r : Round) (task : TaskRecord) : ClusterManager × List Effect :=
  match r.acquireLeadership nodeID m.leader task.id with
  | (leader, true) =>
    ({ leader, localTasks := task.id :: m.localTasks.filter (· ≠ task.id) }, [.assigned task.id])
  | (leader, false) => ({ m with leader }, [])

/-- `rebalanceCluster`, by its assignment steps. -/
def rebalanceCluster (r : Round) : ClusterManager × List Effect :=
  Machine.run { step := fun m (step : Placement TaskRecord) =>
      if step.node = nodeID then m.acquireTask nodeID r step.item else (m, []) } m
    (assign (fun _ => 0) (r.offers nodeID m.leader)).steps

end ClusterManager

/-- A step of a node. -/
inductive Step where
  /-- The node runs a round as the cluster leader. -/
  | round (r : Round)
  /-- A task gets another leader or none; `seen` says whether `WatchLeadership` learns of it. -/
  | elect (taskID : Bytes) (leader : Option Bytes) (seen : Bool)

/-- A node with the leaders of the tasks. `WatchLeadership` forgets a task that the node does not
lead. -/
def machine (nodeID : Bytes) : Machine ClusterManager Step Effect where
  step m
    | .round r => m.rebalanceCluster nodeID r
    | .elect taskID leader seen =>
      ({ leader := Function.update m.leader taskID leader
         localTasks :=
           if seen ∧ leader ≠ some nodeID then m.localTasks.filter (· ≠ taskID)
           else m.localTasks },
        if m.leader taskID = some nodeID ∧ leader ≠ some nodeID then [.lost taskID] else [])

/-! ## Balance and limit of a round -/

section Balance

variable {α : Type} {alive : List Bytes} {count : Bytes → ℕ} {offers : List (α × List Bytes)}

/-- The items are offered with iteration orders of the alive nodes. -/
def Iterates (alive : List Bytes) (offers : List (α × List Bytes)) : Prop :=
  ∀ offer ∈ offers, offer.2.Perm alive

/-- After each step the counts of any two alive nodes differ by at most one and none is above the
limit, and items are left only if every alive node is at the limit. -/
structure Fair (alive : List Bytes) (a : Assignment α) : Prop where
  balanced : ∀ step ∈ a.steps, Balanced alive.toFinset step.count
  bounded : ∀ step ∈ a.steps, ∀ node ∈ alive, step.count node ≤ maxTasksPerNode
  stops : a.left ≠ [] → ∀ node ∈ alive, a.count node = maxTasksPerNode

lemma pickLeastLoaded_cases (count : Bytes → ℕ) {order : List Bytes} (horder : order.Perm alive) :
    pickLeastLoaded order count = [] ∧ (∀ node ∈ alive, maxTasksPerNode + 1 ≤ count node) ∨
      pickLeastLoaded order count ∈ alive ∧
        count (pickLeastLoaded order count) ≤ maxTasksPerNode ∧
        ∀ node ∈ alive, count (pickLeastLoaded order count) ≤ count node := by
  rcases scan_cases count ([], maxTasksPerNode + 1) order with
    ⟨hkept, hall⟩ | ⟨node, hnode, hfound, hlt, hleast⟩
  · refine .inl ⟨congrArg Prod.fst hkept, fun node hnode => hall node (horder.mem_iff.mpr hnode)⟩
  · have hpick : pickLeastLoaded order count = node := congrArg Prod.fst hfound
    rw [hpick]
    exact .inr ⟨horder.mem_iff.mp hnode, Nat.lt_succ_iff.mp hlt,
      fun other hother => hleast other (horder.mem_iff.mpr hother)⟩

/-- What a round makes of its items: each is assigned to an alive node or left, the counts grow by
one for each step up to those of the last one, and items are left where nothing is picked. -/
structure Assigns (alive : List Bytes) (count : Bytes → ℕ) (offers : List (α × List Bytes))
    (a : Assignment α) : Prop where
  node_mem : ∀ step ∈ a.steps, step.node ∈ alive
  sum_count : ∑ node ∈ alive.toFinset, a.count node =
    ∑ node ∈ alive.toFinset, count node + a.steps.length
  length : a.steps.length + a.left.length = offers.length
  count_eq : a.count = count ∨ ∃ step ∈ a.steps, step.count = a.count
  pick_of_left : a.left ≠ [] → ∃ order, order.Perm alive ∧ pickLeastLoaded order a.count = []

lemma assigns_assign (count : Bytes → ℕ) (hoffers : Iterates alive offers) :
    Assigns alive count offers (assign count offers) := by
  induction offers generalizing count with
  | nil => exact ⟨forall_mem_nil _, rfl, rfl, .inl rfl, fun hleft => absurd rfl hleft⟩
  | cons offer offers ih =>
    obtain ⟨item, order⟩ := offer
    obtain ⟨horder, hoffers⟩ := forall_mem_cons.mp hoffers
    by_cases hpick : pickLeastLoaded order count = []
    · simp only [assign, if_pos hpick]
      exact ⟨forall_mem_nil _, rfl, by simp, .inl rfl, fun _ => ⟨order, horder, hpick⟩⟩
    · have hmem : pickLeastLoaded order count ∈ alive :=
        ((pickLeastLoaded_cases count horder).resolve_left fun h => hpick h.1).1
      have hrest := ih (place count (pickLeastLoaded order count)) hoffers
      have hsum := hrest.sum_count
      have hlength := hrest.length
      rw [sum_place _ (List.mem_toFinset.mpr hmem)] at hsum
      simp only [assign, if_neg hpick]
      refine ⟨forall_mem_cons.mpr ⟨hmem, hrest.node_mem⟩, ?_, ?_, .inr ?_, hrest.pick_of_left⟩
      · rw [hsum, length_cons]
        omega
      · simp only [length_cons]
        omega
      · rcases hrest.count_eq with hcount | ⟨step, hstep, hcount⟩
        · exact ⟨_, mem_cons_self, hcount.symm⟩
        · exact ⟨step, mem_cons_of_mem _ hstep, hcount⟩

lemma fair_assign (hnodup : alive.Nodup) (hempty : [] ∉ alive) (halive : alive ≠ [])
    (hoffers : Iterates alive offers) (hbalanced : Balanced alive.toFinset count)
    (hroom : ∑ node ∈ alive.toFinset, count node + offers.length ≤ maxTasksPerNode * alive.length) :
    Fair alive (assign count offers) ∧ (assign count offers).left = [] := by
  induction offers generalizing count with
  | nil => exact ⟨⟨forall_mem_nil _, forall_mem_nil _, fun h => absurd rfl h⟩, rfl⟩
  | cons offer offers ih =>
    obtain ⟨item, order⟩ := offer
    obtain ⟨horder, hoffers⟩ := forall_mem_cons.mp hoffers
    replace horder : order.Perm alive := horder
    have hcard : alive.toFinset.card = alive.length := toFinset_card_of_nodup hnodup
    -- There is room for this item, so not every node is above the limit.
    have hle : ∀ node ∈ alive, count node ≤ maxTasksPerNode := by
      intro node hnode
      refine hbalanced.le_of_sum_le ?_ (List.mem_toFinset.mpr hnode)
      rw [hcard]
      omega
    obtain ⟨hmem, -, hleast⟩ := (pickLeastLoaded_cases count horder).resolve_left <| by
      rintro ⟨-, hall⟩
      obtain ⟨node, hnode⟩ := exists_mem_of_ne_nil _ halive
      have hnode₁ := hall node hnode
      have hnode₂ := hle node hnode
      omega
    have hpick : pickLeastLoaded order count ≠ [] := fun h => hempty (h ▸ hmem)
    have hnext : Balanced alive.toFinset (place count (pickLeastLoaded order count)) :=
      hbalanced.place fun node hnode => hleast node (List.mem_toFinset.mp hnode)
    have hsum := sum_place count (List.mem_toFinset.mpr hmem)
    rw [length_cons] at hroom
    obtain ⟨hfair, hleft⟩ := ih hoffers hnext (by omega)
    simp only [assign, if_neg hpick]
    refine ⟨⟨forall_mem_cons.mpr ⟨hnext, hfair.balanced⟩,
      forall_mem_cons.mpr ⟨fun node hnode => ?_, hfair.bounded⟩, fun h => absurd hleft h⟩, hleft⟩
    refine hnext.le_of_sum_le ?_ (List.mem_toFinset.mpr hnode)
    rw [hcard, hsum]
    omega

lemma pickLeastLoaded_empty_cons (order : List Bytes) :
    pickLeastLoaded ([] :: order) (fun _ => 0) = [] := by
  have hstep : scan (fun _ => 0) (([] : Bytes), maxTasksPerNode + 1) ([] :: order) =
      scan (fun _ => 0) ([], 0) order := rfl
  rw [pickLeastLoaded, hstep]
  rcases scan_cases (fun _ => 0) (([] : Bytes), 0) order with ⟨hkept, -⟩ | ⟨_, -, -, hlt, -⟩
  · rw [hkept]
  · exact absurd hlt (Nat.lt_irrefl 0)

lemma Fair.length_le (hnodup : alive.Nodup) (hempty : [] ∉ alive) (halive : alive ≠ [])
    (hoffers : Iterates alive offers) (h : Fair alive (assign (fun _ => 0) offers)) :
    offers.length ≤ maxTasksPerNode * alive.length := by
  have hassigns := assigns_assign (fun _ => 0) hoffers
  have hle : ∀ node ∈ alive, (assign (fun _ => 0) offers).count node ≤ maxTasksPerNode := by
    rcases hassigns.count_eq with hcount | ⟨step, hstep, hcount⟩
    · rw [hcount]
      exact fun _ _ => Nat.zero_le _
    · rw [← hcount]
      exact h.bounded step hstep
  have hsteps : (assign (fun _ => 0) offers).steps.length ≤ maxTasksPerNode * alive.length := by
    have hsum := hassigns.sum_count
    rw [Finset.sum_const_zero, Nat.zero_add] at hsum
    rw [← hsum, ← toFinset_card_of_nodup hnodup, mul_comm]
    exact Finset.sum_le_card_nsmul _ _ _ fun node hnode => hle node (List.mem_toFinset.mp hnode)
  -- No item is left: at the limit a node is still picked.
  have hleft : (assign (fun _ => 0) offers).left = [] := by
    by_contra hleft
    obtain ⟨order, horder, hpick⟩ := hassigns.pick_of_left hleft
    rcases pickLeastLoaded_cases (assign (fun _ => 0) offers).count horder with
      ⟨-, hall⟩ | ⟨hmem, -, -⟩
    · obtain ⟨node, hnode⟩ := exists_mem_of_ne_nil _ halive
      have habove := hall node hnode
      rw [h.stops hleft node hnode] at habove
      omega
    · exact hempty (hpick ▸ hmem)
  have hlength := hassigns.length
  rw [hleft, length_nil] at hlength
  omega

end Balance

/-- **A round is balanced and bounded**, whatever the iteration orders, exactly if there is nothing
to assign, or every alive node has a name and the tasks do not exceed the limit of all of them
together. -/
theorem balanced_iff {alive : List Bytes} (hnodup : alive.Nodup) (tasks : List TaskRecord) :
    (∀ offers : List (TaskRecord × List Bytes), offers.map Prod.fst = tasks →
      Iterates alive offers → Fair alive (assign (fun _ => 0) offers)) ↔
      tasks = [] ∨ alive = [] ∨ [] ∉ alive ∧ tasks.length ≤ maxTasksPerNode * alive.length := by
  constructor
  · intro hfair
    rcases tasks with _ | ⟨task, tasks⟩
    · exact .inl rfl
    rcases eq_or_ne alive [] with hnone | halive
    · exact .inr (.inl hnone)
    have hoffers : ∀ order, order.Perm alive →
        Fair alive (assign (fun _ => 0) ((task :: tasks).map fun t => (t, order))) := by
      intro order horder
      refine hfair _ ?_ ?_
      · rw [List.map_map]
        exact List.map_id _
      · intro offer hoffer
        obtain ⟨t, -, rfl⟩ := List.mem_map.mp hoffer
        exact horder
    have hempty : [] ∉ alive := by
      intro hmem
      -- The node without a name comes first, and the round ends before its first step.
      have hstops := hoffers ([] :: alive.erase []) (perm_cons_erase hmem).symm
      simp only [map_cons, assign, pickLeastLoaded_empty_cons, if_true] at hstops
      exact nomatch hstops.stops (cons_ne_nil _ _) [] hmem
    refine .inr (.inr ⟨hempty, ?_⟩)
    have hlength := (hoffers alive (List.Perm.refl alive)).length_le hnodup hempty halive <| by
      intro offer hoffer
      obtain ⟨t, -, rfl⟩ := List.mem_map.mp hoffer
      exact List.Perm.refl alive
    rwa [length_map] at hlength
  · rintro (rfl | rfl | ⟨hempty, hroom⟩) offers hitems hiterates
    · rw [map_eq_nil_iff] at hitems
      rw [hitems]
      exact ⟨forall_mem_nil _, forall_mem_nil _, fun h => absurd rfl h⟩
    · exact ⟨fun _ _ _ h => by simp at h, fun _ _ => forall_mem_nil _, fun _ => forall_mem_nil _⟩
    · rcases eq_or_ne alive [] with rfl | halive
      · exact ⟨fun _ _ _ h => by simp at h, fun _ _ => forall_mem_nil _, fun _ => forall_mem_nil _⟩
      · refine (fair_assign hnodup hempty halive hiterates (fun _ _ _ _ => Nat.zero_le _) ?_).1
        rwa [Finset.sum_const_zero, Nat.zero_add, ← length_map Prod.fst, hitems]

/-- A running task. -/
def runningTask (id : Bytes) : TaskRecord := { id, status := .running }

/-- Three tasks for two nodes, with the iteration orders of their picks. -/
def threeOffers : List (TaskRecord × List Bytes) :=
  [(runningTask (lit "a"), [lit "n1", lit "n2"]), (runningTask (lit "b"), [lit "n2", lit "n1"]),
    (runningTask (lit "c"), [lit "n1", lit "n2"])]

lemma iterates_threeOffers : Iterates [lit "n1", lit "n2"] threeOffers := by
  intro offer hoffer
  simp only [threeOffers, mem_cons, not_mem_nil, or_false] at hoffer
  rcases hoffer with rfl | rfl | rfl
  · exact List.Perm.refl _
  · exact List.Perm.swap _ _ _
  · exact List.Perm.refl _

theorem fair_threeOffers : [lit "n1", lit "n2"].Nodup ∧
    Fair [lit "n1", lit "n2"] (assign (fun _ => 0) threeOffers) :=
  have hnodup : [lit "n1", lit "n2"].Nodup := by decide
  ⟨hnodup, (balanced_iff hnodup ([lit "a", lit "b", lit "c"].map runningTask)).mpr
    (.inr (.inr (by decide))) threeOffers rfl iterates_threeOffers⟩

/-- Eleven tasks for one node: it gets all of them. -/
theorem not_forall_balanced :
    ¬∀ (alive : List Bytes) (offers : List (TaskRecord × List Bytes)), alive.Nodup →
      Iterates alive offers → Fair alive (assign (fun _ => 0) offers) := by
  intro hall
  have hfair := hall [lit "n1"] (List.replicate 11 (runningTask (lit "a"), [lit "n1"]))
    (nodup_singleton _) fun offer hoffer => by rw [eq_of_mem_replicate hoffer]
  have hlength := hfair.length_le (nodup_singleton _) (by decide) (cons_ne_nil _ _)
    fun offer hoffer => by rw [eq_of_mem_replicate hoffer]
  exact absurd hlength (by decide)

/-! ## Orphaned tasks -/

section Orphans

variable {nodeID : Bytes} {leader : Leaders} {r : Round}

/-- The round offers exactly the running or created tasks that no live node leads. -/
def OffersOrphans (nodeID : Bytes) (leader : Leaders) (r : Round) : Prop :=
  ∀ t, t ∈ r.offered nodeID leader ↔
    t ∈ r.tasks ∧ t.eligible ∧ ∀ node ∈ r.alive, leader t.id ≠ some node

/-- Every running or created task has a leader: a live node for which `IsLeader` does not answer
true, or the node of the round itself while it counts as dead and another is alive. -/
def LedElsewhere (nodeID : Bytes) (leader : Leaders) (r : Round) : Prop :=
  ∀ t ∈ r.tasks, t.eligible →
    (∃ node ∈ r.alive, leader t.id = some node ∧ (node ≠ nodeID ∨ r.isLeaderFails t.id = true)) ∨
      leader t.id = some nodeID ∧ nodeID ∉ r.alive ∧ r.alive ≠ [] ∧ r.isLeaderFails t.id = false

lemma mem_offered_iff {t : TaskRecord} :
    t ∈ r.offered nodeID leader ↔
      t ∈ r.tasks ∧ t.eligible ∧
        r.alive ≠ [] ∧ r.isLeaderFails t.id = false ∧ leader t.id = some nodeID := by
  by_cases halive : r.alive = []
  · simp [Round.offered, halive]
  · simp [Round.offered, halive, Round.isLeader]

/-- A round offers a task that the node leads itself, so it offers the orphaned ones only if the
node counts as dead. -/
lemma offersOrphans_iff : OffersOrphans nodeID leader r ↔ LedElsewhere nodeID leader r := by
  simp only [OffersOrphans, LedElsewhere, mem_offered_iff]
  refine forall_congr' fun t => ?_
  rw [and_congr_right_iff, imp_congr_right]
  intro _
  rw [and_congr_right_iff, imp_congr_right]
  intro _
  constructor
  · intro hiff
    by_cases horphan : ∀ node ∈ r.alive, leader t.id ≠ some node
    · -- It is orphaned, so it is offered, which needs the node itself as its leader.
      obtain ⟨halive, hasked, hleads⟩ := hiff.mpr horphan
      exact .inr ⟨hleads, fun hmem => horphan nodeID hmem hleads, halive, hasked⟩
    · -- A live node leads the task, and it is not offered.
      push Not at horphan
      obtain ⟨node, hnode, hleads⟩ := horphan
      refine .inl ⟨node, hnode, hleads, ?_⟩
      by_contra hself
      push Not at hself
      obtain ⟨rfl, hasked⟩ := hself
      exact hiff.mp ⟨ne_nil_of_mem hnode, Bool.eq_false_of_not_eq_true hasked, hleads⟩ node hnode
        hleads
  · rintro (⟨node, hnode, hleads, hother⟩ | ⟨hleads, hdead, halive, hasked⟩)
    · constructor
      · rintro ⟨-, hasked, hself⟩
        obtain rfl := some.inj (hleads.symm.trans hself)
        rcases hother with hne | hfails
        · exact absurd rfl hne
        · exact absurd (hasked.symm.trans hfails) Bool.false_ne_true
      · exact fun horphan => absurd hleads (horphan node hnode)
    · -- The dead leader is the node itself.
      refine iff_of_true ⟨halive, hasked, hleads⟩ fun node hnode hnodeLeads => ?_
      obtain rfl := some.inj (hleads.symm.trans hnodeLeads)
      exact hdead hnode

lemma rebalanceCluster_of_ledElsewhere {m : ClusterManager}
    (h : LedElsewhere nodeID m.leader r) : m.rebalanceCluster nodeID r = (m, []) := by
  refine Machine.run_eq_self _ fun step hstep => ?_
  have hiterates : Iterates r.alive (r.offers nodeID m.leader) := by
    intro offer hoffer
    obtain ⟨p, -, rfl⟩ := List.mem_map.mp hoffer
    exact r.order_perm _ _
  -- A task is offered, so the node leads it and counts as dead.
  obtain ⟨t, ht⟩ : ∃ t, t ∈ r.offered nodeID m.leader := by
    by_contra hnone
    push Not at hnone
    have hoffers : r.offers nodeID m.leader = [] := by
      rw [Round.offers, eq_nil_iff_forall_not_mem.mpr hnone]
      rfl
    rw [hoffers] at hstep
    exact nomatch hstep
  obtain ⟨htask, heligible, -, hasked, hleads⟩ := mem_offered_iff.mp ht
  have hdead : nodeID ∉ r.alive := by
    rcases h t htask heligible with ⟨node, -, hnodeLeads, hne | hfails⟩ | ⟨-, hdead, -, -⟩
    · exact absurd (some.inj (hnodeLeads.symm.trans hleads)) hne
    · exact absurd (hasked.symm.trans hfails) Bool.false_ne_true
    · exact hdead
  have hother : step.node ≠ nodeID := fun hself =>
    hdead (hself ▸ (assigns_assign _ hiterates).node_mem step hstep)
  exact if_neg hother

end Orphans

/-- Between two calls of `onTaskAssigned` for a task its leadership is lost. -/
def OncePerTenure (effects : List Effect) : Prop :=
  ∀ taskID before between after,
    effects = before ++ .assigned taskID :: between ++ .assigned taskID :: after →
      .lost taskID ∈ between

/-- The condition on a step: a round meets it if it is one of `P`. -/
def OnRounds (P : Leaders → Round → Prop) (m : ClusterManager) : Step → Prop
  | .round r => P m.leader r
  | .elect _ _ _ => True

/-- **The rounds of a node pick the orphaned tasks**, with at most one callback per task between two
losses of its leadership, exactly if in every round all tasks are led elsewhere. -/
theorem picksOrphans_iff (nodeID : Bytes) (m : ClusterManager) (steps : List Step) :
    (machine nodeID).Meets (OnRounds (OffersOrphans nodeID)) m steps ∧
        OncePerTenure ((machine nodeID).run m steps).2 ↔
      (machine nodeID).Meets (OnRounds (LedElsewhere nodeID)) m steps := by
  have hrounds : ∀ m step, OnRounds (OffersOrphans nodeID) m step ↔
      OnRounds (LedElsewhere nodeID) m step := by
    rintro m (r | ⟨taskID, leader, seen⟩)
    · exact offersOrphans_iff
    · exact Iff.rfl
  rw [(machine nodeID).meets_congr hrounds, and_iff_left_iff_imp]
  intro hmeets
  -- Such rounds call nothing, so there is no call at all.
  have hlost : ∀ e ∈ ((machine nodeID).run m steps).2, ∀ taskID, e ≠ .assigned taskID := by
    rw [Machine.forall_mem_run_iff]
    refine (machine nodeID).meets_imp (fun m step hstep => ?_) hmeets
    rcases step with r | ⟨taskID, leader, seen⟩
    · change ∀ e ∈ (m.rebalanceCluster nodeID r).2, _
      rw [rebalanceCluster_of_ledElsewhere hstep]
      exact forall_mem_nil _
    · intro e he taskID' heq
      dsimp only [machine] at he
      split_ifs at he with hlosing
      · rw [mem_singleton.mp he] at heq
        exact nomatch heq
      · exact nomatch he
  intro taskID before between after heffects
  have hmem : .assigned taskID ∈ ((machine nodeID).run m steps).2 := by
    rw [heffects]
    simp
  exact absurd rfl (hlost _ hmem taskID)

/-- A round of the only node, with one running task. -/
def soleRound : Round where
  now := 0
  nodes := [{ id := lit "n1", lastSeen := 0 }]
  tasks := [runningTask (lit "a")]
  isLeaderFails _ := false
  campaignFails _ := false
  order _ nodes := nodes
  order_perm _ _ := List.Perm.refl _

/-- A task without a leader is not offered, and one that the node leads is assigned to it in every
round. -/
theorem not_forall_picksOrphans :
    (¬∀ (nodeID : Bytes) (leader : Leaders) (r : Round), OffersOrphans nodeID leader r) ∧
      ¬∀ (nodeID : Bytes) (m : ClusterManager) (steps : List Step),
        OncePerTenure ((machine nodeID).run m steps).2 := by
  constructor
  · intro hall
    have hoffered := (hall (lit "n1") (fun _ => none) soleRound (runningTask (lit "a"))).mpr
      ⟨mem_singleton.mpr rfl, rfl, fun _ _ heq => nomatch heq⟩
    exact nomatch (mem_offered_iff.mp hoffered).2.2.2.2
  · intro hall
    have htwice : ((machine (lit "n1")).run { leader := fun _ => some (lit "n1"), localTasks := [] }
        [.round soleRound, .round soleRound]).2 =
        [.assigned (lit "a"), .assigned (lit "a")] := by
      decide
    exact nomatch hall _ _ _ (lit "a") [] [] [] htwice

end DataStream.Cluster
