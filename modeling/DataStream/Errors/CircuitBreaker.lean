import Mathlib.Algebra.Order.Ring.Int
import Mathlib.Data.List.Induction
import Mathlib.Tactic.Tauto

/-!
# The circuit breaker

`errors.CircuitBreaker`: closed, it admits every request and counts the failures since the last
success; open, it admits none until the last failure is long enough ago; half-open, it admits one
probe at a time and closes after enough successes. Its methods run under one lock, and a result that
is recorded does not say which request it belongs to.

* `trips_and_rests`: when the breaker is closed, leaves the open state and closes;
* `probesOne_iff`: for which configurations and clients at most one probe is unanswered.
-/

namespace DataStream.Errors

open List Function

/-- `CircuitState`. -/
inductive CircuitState where
  | closed
  | opened
  | halfOpen
  deriving DecidableEq

/-- `CircuitBreakerConfig`; durations and times are in nanoseconds. -/
structure CircuitBreakerConfig where
  /-- The failures after which it opens. -/
  failureThreshold : ℤ
  /-- The successes after which it closes. -/
  successThreshold : ℤ
  /-- How long it stays open. -/
  resetTimeout : ℤ

/-- `CircuitBreaker`, without its lock. -/
structure CircuitBreaker where
  state : CircuitState
  /-- The failures counted while it is closed. -/
  failures : ℕ
  /-- The successes since it became half-open. -/
  successes : ℕ
  /-- The time of the last failure. -/
  lastFailure : ℤ
  /-- A probe was admitted and has no result yet. -/
  probeInFlight : Bool

/-- The methods. -/
inductive Call where
  | allow
  | recordSuccess
  | recordFailure
  deriving DecidableEq

/-- `time.Since`, which saturates at the ends of 64 bits. -/
def since (now t : ℤ) : ℤ := max (-2 ^ 63) (min (2 ^ 63 - 1) (now - t))

variable (cfg : CircuitBreakerConfig) (cb : CircuitBreaker) (now : ℤ) (calls : List (Call × ℤ))

namespace CircuitBreaker

/-- `Allow`, and whether the request is admitted. -/
def allow : CircuitBreaker × Bool :=
  match cb.state with
  | .closed => (cb, true)
  | .opened =>
    if since now cb.lastFailure > cfg.resetTimeout then
      ({ cb with state := .halfOpen, probeInFlight := true, successes := 0 }, true)
    else (cb, false)
  | .halfOpen => if cb.probeInFlight then (cb, false) else ({ cb with probeInFlight := true }, true)

/-- `RecordSuccess`; `NewCircuitBreaker` has replaced a threshold below one. -/
def recordSuccess : CircuitBreaker :=
  let cb := { cb with failures := 0, probeInFlight := false }
  if cb.state = .halfOpen then
    if cb.successes + 1 ≥ max 1 cfg.successThreshold then
      { cb with state := .closed, successes := 0 }
    else { cb with successes := cb.successes + 1 }
  else cb

/-- `RecordFailure`. -/
def recordFailure : CircuitBreaker :=
  let cb := { cb with failures := cb.failures + 1, lastFailure := now, probeInFlight := false }
  match cb.state with
  | .halfOpen => { cb with state := .opened, failures := 0, successes := 0 }
  | .closed => if cb.failures ≥ cfg.failureThreshold then { cb with state := .opened } else cb
  | .opened => cb

/-- A call at a time. -/
def step (call : Call × ℤ) : CircuitBreaker :=
  match call.1 with
  | .allow => (cb.allow cfg call.2).1
  | .recordSuccess => cb.recordSuccess cfg
  | .recordFailure => cb.recordFailure cfg call.2

/-- `NewCircuitBreaker`. -/
def new : CircuitBreaker := ⟨.closed, 0, 0, 0, false⟩

/-- The breaker after some calls. -/
def reached : CircuitBreaker := calls.foldl (step cfg) new

end CircuitBreaker

open CircuitBreaker

/-! ## The states -/

/-- The failures since the last success. -/
def failuresSince : ℕ :=
  (calls.reverse.takeWhile fun call => call.1 ≠ .recordSuccess).countP fun call =>
    call.1 = .recordFailure

/-- The time of the last failure. -/
def lastFailureTime : Option ℤ :=
  (calls.reverse.find? fun call => call.1 = .recordFailure).map Prod.snd

/-- Since the breaker became half-open, no failure and some successes have been recorded. -/
def HalfOpenWith (successes : ℕ) : Prop :=
  ∃ before during, calls = before ++ during ∧ (reached cfg before).state = .opened ∧
    (reached cfg (before ++ during.take 1)).state = .halfOpen ∧
    (∀ call ∈ during, call.1 ≠ .recordFailure) ∧
    (during.countP fun call => call.1 = .recordSuccess) = successes

/-- What the fields of the breaker say about the calls so far. -/
def Counts : Prop :=
  match cb.state with
  | .closed => cb.failures = failuresSince calls ∧ cb.failures < max 1 cfg.failureThreshold
  | .opened => lastFailureTime calls = some cb.lastFailure
  | .halfOpen => HalfOpenWith cfg calls cb.successes

variable {cfg calls}

lemma HalfOpenWith.concat {successes : ℕ} (h : HalfOpenWith cfg calls successes) (call : Call × ℤ)
    (hcall : call.1 ≠ .recordFailure) :
    HalfOpenWith cfg (calls ++ [call])
      (successes + if call.1 = .recordSuccess then 1 else 0) := by
  obtain ⟨before, during, rfl, hopened, hhalf, hno, rfl⟩ := h
  refine ⟨before, during ++ [call], by simp, hopened, ?_, ?_, ?_⟩
  · rcases during with _ | ⟨first, during⟩
    · simp [hopened] at hhalf
    · exact hhalf
  · simpa [or_imp, forall_and, hcall] using hno
  · simp [countP_append, countP_cons]

@[simp]
lemma failuresSince_concat (call : Call × ℤ) : failuresSince (calls ++ [call]) =
    match call.1 with
    | .allow => failuresSince calls
    | .recordSuccess => 0
    | .recordFailure => failuresSince calls + 1 := by
  obtain ⟨c, t⟩ := call
  cases c <;> simp [failuresSince]

@[simp]
lemma lastFailureTime_concat (call : Call × ℤ) : lastFailureTime (calls ++ [call]) =
    if call.1 = .recordFailure then some call.2 else lastFailureTime calls := by
  obtain ⟨c, t⟩ := call
  cases c <;> simp [lastFailureTime]

variable (cfg calls)

lemma reached_concat (call : Call × ℤ) :
    reached cfg (calls ++ [call]) = (reached cfg calls).step cfg call := by
  simp [reached]

/-- The fields of a breaker tell about the calls, whatever these are. -/
lemma counts_reached : Counts cfg (reached cfg calls) calls := by
  induction calls using List.reverseRecOn with
  | nil => exact ⟨rfl, by simp [reached, new]⟩
  | append_singleton calls call ih =>
    have hconcat := reached_concat cfg calls call
    obtain ⟨c, t⟩ := call
    rw [hconcat]
    rcases hstate : (reached cfg calls).state with _ | _ | _ <;>
      simp only [Counts, hstate] at ih <;> cases c
    · simpa [step, allow, Counts, hstate] using ih
    · simp [step, recordSuccess, Counts, hstate]
    · simp only [step, recordFailure, hstate]
      split_ifs with hthreshold
      · simp [Counts]
      · refine ⟨by simpa using ih.1, ?_⟩
        push_cast at *
        omega
    · simp only [step, allow, hstate]
      split_ifs with htimeout
      · refine ⟨calls, [(.allow, t)], rfl, hstate, ?_, by simp, rfl⟩
        show (reached cfg (calls ++ [_])).state = _
        rw [hconcat]
        simp [step, allow, hstate, htimeout]
      · simpa [Counts, hstate] using ih
    · simpa [step, recordSuccess, Counts, hstate] using ih
    · simp [step, recordFailure, Counts, hstate]
    · have hnext := ih.concat (.allow, t) nofun
      simp only [step, allow, hstate]
      split_ifs <;> simpa [Counts, hstate] using hnext
    · have hnext := ih.concat (.recordSuccess, t) nofun
      simp only [step, recordSuccess, hstate, if_true]
      split_ifs
      · simp [Counts]
      · simpa [Counts] using hnext
    · simp [step, recordFailure, Counts, hstate]

/-- While the breaker is closed the failures since the last success are below the threshold, it
leaves the open state only in an `Allow` long enough after the last failure, and it closes only with
the last of enough successes without a failure since it became half-open. -/
theorem trips_and_rests (call : Call × ℤ)
    (htimes : (calls ++ [call]).Pairwise fun a b => a.2 ≤ b.2) :
    ((reached cfg calls).state = .closed → failuresSince calls < max 1 cfg.failureThreshold) ∧
    ((reached cfg calls).state = .opened → (reached cfg (calls ++ [call])).state ≠ .opened →
      call.1 = .allow ∧ ∃ t, lastFailureTime calls = some t ∧ call.2 - t > cfg.resetTimeout) ∧
    ((reached cfg calls).state ≠ .closed → (reached cfg (calls ++ [call])).state = .closed →
      call.1 = .recordSuccess ∧ ∃ successes, HalfOpenWith cfg calls successes ∧
        (successes : ℤ) + 1 ≥ max 1 cfg.successThreshold) := by
  have hcounts := counts_reached cfg calls
  rw [reached_concat]
  obtain ⟨c, now⟩ := call
  rcases hstate : (reached cfg calls).state with _ | _ | _ <;>
    simp only [Counts, hstate] at hcounts
  · exact ⟨fun _ => hcounts.1 ▸ hcounts.2, nofun, fun h => absurd rfl h⟩
  · have hstep : ((reached cfg calls).step cfg (c, now)).state =
        if c = .allow ∧ since now (reached cfg calls).lastFailure > cfg.resetTimeout then .halfOpen
        else .opened := by
      cases c <;> simp only [step, allow, recordSuccess, recordFailure, hstate] <;> grind
    rw [hstep]
    refine ⟨nofun, fun _ hleaves => ?_, fun _ hcloses => ?_⟩
    · split_ifs at hleaves with hallow
      · refine ⟨hallow.1, _, hcounts, ?_⟩
        obtain ⟨failure, hfailure, hlast⟩ := Option.map_eq_some_iff.mp hcounts
        have hle : failure.2 ≤ now :=
          (pairwise_append.mp htimes).2.2 failure
            (mem_reverse.mp (mem_of_find?_eq_some hfailure)) _ mem_cons_self
        -- The duration does not saturate below what has passed.
        have hsince := hallow.2
        rw [since] at hsince
        show now - _ > _
        omega
      · exact absurd rfl hleaves
    · split_ifs at hcloses
  · refine ⟨nofun, nofun, fun _ hcloses => ?_⟩
    cases c with
    | recordSuccess =>
      refine ⟨rfl, _, hcounts, ?_⟩
      by_contra hfew
      simp only [step, recordSuccess, hstate, if_true, if_neg hfew] at hcloses
      cases hcloses
    | allow =>
      simp only [step, allow, hstate] at hcloses
      split_ifs at hcloses
      simp [hstate] at hcloses
    | recordFailure => simp [step, recordFailure, hstate] at hcloses

/-- A breaker that opened at 5 admits a request at 16. -/
theorem trips_and_rests_opened :
    ∃ t, lastFailureTime [(.recordFailure, 5)] = some t ∧ 16 - t > 10 :=
  ((trips_and_rests ⟨1, 1, 10⟩ [(.recordFailure, 5)] (.allow, 16) (by decide)).2.1 rfl
    (by decide)).2

/-! ## Concurrent clients -/

/-- The breaker and, for each client with an unanswered request, whether it was admitted since the
breaker became half-open. -/
structure Clients (κ : Type) where
  breaker : CircuitBreaker
  /-- The unanswered request of a client. -/
  pending : κ → Option Bool

variable {κ : Type} [DecidableEq κ] {s : Clients κ}

/-- A client makes a call: `Allow` while it has no request, then one of the others. -/
def move (s : Clients κ) (m : κ × Call × ℤ) : Clients κ :=
  match m.2.1, s.pending m.1 with
  | .allow, none =>
    match s.breaker.allow cfg m.2.2 with
    | (cb, false) => ⟨cb, s.pending⟩
    | (cb, true) =>
      -- When the breaker becomes half-open, the requests so far are from before.
      let pending := if s.breaker.state = .opened then fun i => (s.pending i).map fun _ => false
        else s.pending
      ⟨cb, update pending m.1 (some (cb.state = .halfOpen))⟩
  | .recordSuccess, some _ => ⟨s.breaker.recordSuccess cfg, update s.pending m.1 none⟩
  | .recordFailure, some _ => ⟨s.breaker.recordFailure cfg m.2.2, update s.pending m.1 none⟩
  | _, _ => s

/-- A new breaker, and no requests. -/
def start : Clients κ := ⟨.new, fun _ => none⟩

/-- While the breaker is half-open, at most one request admitted since is unanswered. -/
def OneProbe (s : Clients κ) : Prop :=
  s.breaker.state = .halfOpen → ∀ i j, s.pending i = some true → s.pending j = some true → i = j

/-- At most one probe is unanswered, however the calls of the clients interleave. -/
def ProbesOne (κ : Type) [DecidableEq κ] : Prop :=
  ∀ moves : List (κ × Call × ℤ), (moves.Pairwise fun m m' => m.2.2 ≤ m'.2.2) →
    OneProbe (moves.foldl (move cfg) start)

/-- The probe of a half-open breaker is in flight, and its result decides. -/
def Guarded (s : Clients κ) : Prop :=
  s.breaker.state = .halfOpen →
    cfg.successThreshold ≤ 1 ∧ s.breaker.probeInFlight = true ∧ OneProbe s

variable {cfg}

/-- A breaker stays guarded where one success closes it, or where it never becomes half-open. -/
lemma Guarded.step (hcfg : cfg.successThreshold ≤ 1 ∨ 2 ^ 63 - 1 ≤ cfg.resetTimeout)
    (h : Guarded cfg s) (m : κ × Call × ℤ) : Guarded cfg (move cfg s m) := by
  unfold move
  split
  · rcases hstate : s.breaker.state with _ | _ | _
    · simp [allow, hstate, Guarded]
    · by_cases htimeout : since m.2.2 s.breaker.lastFailure > cfg.resetTimeout
      · simp only [allow, hstate, if_pos htimeout]
        refine fun _ => ⟨?_, rfl, fun _ i j hi hj => ?_⟩
        · rw [since] at htimeout
          omega
        · simp [update_apply] at hi hj
          exact hi.trans hj.symm
      · simp [allow, hstate, htimeout, Guarded]
    · simpa [allow, hstate, (h hstate).2.1] using h
  · by_cases hstate : s.breaker.state = .halfOpen
    · have hcloses : cfg.successThreshold ≤ s.breaker.successes + 1 := by
        have := (h hstate).1
        omega
      simp [Guarded, recordSuccess, hstate, hcloses]
    · simp [Guarded, recordSuccess, hstate]
  · have hdown : (s.breaker.recordFailure cfg m.2.2).state ≠ .halfOpen := by
      rcases hstate : s.breaker.state with _ | _ | _ <;> simp only [recordFailure, hstate] <;> grind
    exact fun hhalf => absurd hhalf hdown
  · exact h

/-- One client fails until the breaker opens; the requests of the others stay. -/
lemma exists_opened (j : κ) (hclosed : s.breaker.state = .closed) (hj : s.pending j = none) :
    ∃ (moves : List (κ × Call × ℤ)) (cb : CircuitBreaker), (∀ m ∈ moves, m.2.2 = 0) ∧
      moves.foldl (move cfg) s = ⟨cb, s.pending⟩ ∧ cb.state = .opened ∧ cb.lastFailure = 0 := by
  -- With each round, the failures that are left to the threshold become fewer.
  induction hn : (cfg.failureThreshold - s.breaker.failures).toNat using Nat.strong_induction_on
    generalizing s with
  | _ n ih =>
    have hround : [(j, .allow, 0), (j, .recordFailure, 0)].foldl (move cfg) s =
        ⟨s.breaker.recordFailure cfg 0, s.pending⟩ := by
      simp [move, allow, hclosed, hj]
    by_cases hopens : (s.breaker.failures : ℤ) + 1 ≥ cfg.failureThreshold
    · refine ⟨_, _, ?_, hround, ?_, ?_⟩ <;> simp [recordFailure, hclosed, hopens]
    · have hstill : (s.breaker.recordFailure cfg 0).state = .closed := by
        simp [recordFailure, hclosed, hopens]
      have hcount : (s.breaker.recordFailure cfg 0).failures = s.breaker.failures + 1 := by
        simp [recordFailure, hclosed, hopens]
      obtain ⟨moves, cb, hzero, hmoves, hopened⟩ :=
        ih _ (by rw [← hn, hcount]; omega) (s := ⟨s.breaker.recordFailure cfg 0, s.pending⟩)
          hstill hj rfl
      refine ⟨[(j, .allow, 0), (j, .recordFailure, 0)] ++ moves, cb, ?_, ?_, hopened⟩
      · simpa using hzero
      · rw [foldl_append, hround, hmoves]

/-- At most one probe is unanswered exactly if one success closes the breaker, there is only one
client, or the breaker stays open. Otherwise the late success of a request from before it opened
clears the flag of the probe. -/
theorem probesOne_iff (cfg : CircuitBreakerConfig) (κ : Type) [DecidableEq κ] : ProbesOne cfg κ ↔
    cfg.successThreshold ≤ 1 ∨ Subsingleton κ ∨ 2 ^ 63 - 1 ≤ cfg.resetTimeout := by
  constructor
  · intro h
    by_contra! hcfg
    obtain ⟨hsuccesses, ⟨i, j, hij⟩, hreset⟩ := hcfg
    obtain ⟨moves, cb, hzero, hmoves, hopened, hlast⟩ :=
      exists_opened (s := move cfg start (i, .allow, 0)) j rfl
        (by simp [move, start, allow, new, hij.symm])
    have htimes : moves.Pairwise fun m m' => m.2.2 ≤ m'.2.2 :=
      pairwise_of_forall_mem_list fun m hm m' hm' => by rw [hzero m hm, hzero m' hm']
    let late := max 0 (cfg.resetTimeout + 1)
    have hlate : 0 ≤ late := le_max_left ..
    have htimeout : since late cb.lastFailure > cfg.resetTimeout := by
      rw [since, hlast]
      omega
    -- The second client probes, and the late success of the first does not close the breaker.
    have hprobes := h ((i, .allow, 0) :: (moves ++ [(j, .allow, late), (i, .recordSuccess, late),
      (i, .allow, late)])) (by simp +contextual [pairwise_append, or_imp, hzero, hlate, htimes])
    rw [foldl_cons, foldl_append, hmoves] at hprobes
    simp only [move, start, allow, new, foldl_cons, foldl_nil] at hprobes
    simp [recordSuccess, hopened, htimeout, hij, hij.symm, hsuccesses.not_ge, OneProbe] at hprobes
    exact hij (hprobes i j (by simp) (by simp [hij.symm]))
  · intro hcfg moves _
    by_cases hone : Subsingleton κ
    · exact fun _ i j _ _ => Subsingleton.elim i j
    · have hguarded : Guarded cfg (moves.foldl (move cfg) start) :=
        foldlRecOn moves (motive := Guarded cfg) _ nofun fun s h m _ => h.step (by tauto) m
      exact fun hhalf => (hguarded hhalf).2.2 hhalf

theorem not_probesOne_late_success : ¬ProbesOne ⟨1, 2, 10⟩ Bool := by
  intro h
  have := h [(false, .allow, 0), (true, .allow, 0), (true, .recordFailure, 0), (true, .allow, 11),
    (false, .recordSuccess, 11), (false, .allow, 11)] (by decide) rfl false true rfl rfl
  cases this

end DataStream.Errors
