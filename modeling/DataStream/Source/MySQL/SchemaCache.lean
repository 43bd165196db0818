import DataStream.Foundations.Machine
import Mathlib.Logic.Function.Basic

/-!
# The schema cache of the MySQL connector

`TableSchemaCache`: a `Get` that does not find its table asks the server without a lock and stores
the answer. Any number of calls interleave; a schema comes with the time at which it was read.

* `invalidate_iff`: when an `Invalidate` takes effect.
-/

namespace DataStream.Source.MySQL.SchemaCache

open List Function

variable {κ ν α : Type}

/-- A schema, and when the server gave it or `Update` was called with it. -/
structure Schema (α : Type) where
  value : α
  read : ℕ

/-- Where a `Get` or a `Refresh` is; a `Get` has a time at which it started. -/
inductive Phase (ν α : Type) where
  | querying (key : ν) (started : Option ℕ)
  | storing (key : ν) (started : Option ℕ) (schema : Schema α)

/-- The cache by the keys `database.table`, and the calls of the clients. -/
structure Cache (κ ν α : Type) where
  schemas : ν → Option (Schema α)
  calls : κ → Option (Phase ν α)
  now : ℕ

inductive Move (κ ν α : Type) where
  | get (client : κ) (key : ν)
  | refresh (client : κ) (key : ν)
  /-- `querySchema` answers; `none` is an error. -/
  | query (client : κ) (answer : Option α)
  | store (client : κ)
  | updateSchema (key : ν) (value : α)
  | invalidate (key : ν)
  | invalidateAll

/-- A `Get` that started at a time returns a schema. -/
structure Returned (ν α : Type) where
  key : ν
  started : ℕ
  schema : Schema α

def new : Cache κ ν α := ⟨fun _ => none, fun _ => none, 0⟩

variable [DecidableEq κ] [DecidableEq ν]

/-- What a move does, apart from the time that it takes. -/
def act (s : Cache κ ν α) : Move κ ν α → Cache κ ν α × List (Returned ν α)
  | .get c key =>
    match s.calls c, s.schemas key with
    | some _, _ => (s, [])
    | none, some schema => (s, [⟨key, s.now, schema⟩])
    | none, none => ({ s with calls := update s.calls c (some (.querying key (some s.now))) }, [])
  | .refresh c key =>
    match s.calls c with
    | some _ => (s, [])
    | none => ({ s with calls := update s.calls c (some (.querying key none)) }, [])
  | .query c answer =>
    match s.calls c with
    | some (.querying key started) =>
      let phase := answer.map fun value => .storing key started ⟨value, s.now⟩
      ({ s with calls := update s.calls c phase }, [])
    | _ => (s, [])
  | .store c =>
    match s.calls c with
    | some (.storing key started schema) =>
      ({ s with schemas := update s.schemas key (some schema), calls := update s.calls c none },
        (started.map fun t => ⟨key, t, schema⟩).toList)
    | _ => (s, [])
  | .updateSchema key value =>
    ({ s with schemas := update s.schemas key (some ⟨value, s.now⟩) }, [])
  | .invalidate key => ({ s with schemas := update s.schemas key none }, [])
  | .invalidateAll => ({ s with schemas := fun _ => none }, [])

def machine : Machine (Cache κ ν α) (Move κ ν α) (Returned ν α) where
  step s move := ({ (act s move).1 with now := s.now + 1 }, (act s move).2)

/-- Every schema of a table in the cache and on the way to it has a property. -/
structure Holds (P : ν → ℕ → Prop) (s : Cache κ ν α) : Prop where
  cached : ∀ key schema, s.schemas key = some schema → P key schema.read
  coming : ∀ c key started schema, s.calls c = some (.storing key started schema) →
    P key schema.read

variable {s : Cache κ ν α} {P : ν → ℕ → Prop}

omit [DecidableEq κ] in
lemma Holds.setSchema (h : Holds P s) (key : ν) (schema : Option (Schema α))
    (hschema : ∀ x, schema = some x → P key x.read) :
    Holds P { s with schemas := update s.schemas key schema } := by
  refine ⟨fun key' x hx => ?_, h.coming⟩
  rcases eq_or_ne key' key with rfl | hne
  · exact hschema x (by simpa using hx)
  · exact h.cached key' x (by simpa [hne] using hx)

omit [DecidableEq ν] in
lemma Holds.setCall (h : Holds P s) (c : κ) (phase : Option (Phase ν α))
    (hphase : ∀ key t x, phase = some (.storing key t x) → P key x.read) :
    Holds P { s with calls := update s.calls c phase } := by
  refine ⟨h.cached, fun c' key t x hx => ?_⟩
  rcases eq_or_ne c' c with rfl | hne
  · exact hphase key t x (by simpa using hx)
  · exact h.coming c' key t x (by simpa [hne] using hx)

/-- What holds now holds after a move, of the cache and of what a `Get` returns in it. -/
lemma Holds.act (h : Holds P s) (hnow : ∀ key, P key s.now) (move : Move κ ν α) :
    Holds P (act s move).1 ∧ ∀ r ∈ (act s move).2, P r.key r.schema.read := by
  cases move <;> simp only [SchemaCache.act]
  case get c key =>
    split
    · exact ⟨h, by simp⟩
    · next schema _ hschema => exact ⟨h, by simpa using h.cached key schema hschema⟩
    · exact ⟨h.setCall c _ (by simp), by simp⟩
  case refresh c key =>
    split
    · exact ⟨h, by simp⟩
    · exact ⟨h.setCall c _ (by simp), by simp⟩
  case query c answer =>
    split
    · refine ⟨h.setCall c _ fun key t x hx => ?_, by simp⟩
      obtain ⟨value, -, hvalue⟩ := Option.map_eq_some_iff.mp hx
      cases hvalue
      exact hnow _
    · exact ⟨h, by simp⟩
  case store c =>
    split
    · next key started schema hcall =>
      have hschema := h.coming c key started schema hcall
      refine ⟨(h.setSchema key _ fun x hx => ?_).setCall c none (by simp), ?_⟩
      · rwa [← Option.some.inj hx]
      · cases started <;> simp [hschema]
    · exact ⟨h, by simp⟩
  case updateSchema key value =>
    refine ⟨h.setSchema key _ fun x hx => ?_, by simp⟩
    rw [← Option.some.inj hx]
    exact hnow key
  case invalidate key => exact ⟨h.setSchema key none (by simp), by simp⟩
  case invalidateAll => exact ⟨⟨by simp, h.coming⟩, by simp⟩

lemma read_lt_run (before : List (Move κ ν α)) :
    Holds (fun _ read => read < (machine.run new before).1.now)
      (machine.run (new : Cache κ ν α) before).1 := by
  refine machine.run_induction before (motive := fun s _ => Holds (fun _ read => read < s.now) s)
    ⟨nofun, nofun⟩ fun s _ move h => ?_
  have hnext : Holds (fun _ read => read < s.now + 1) s :=
    ⟨fun key schema hs => (h.cached key schema hs).trans s.now.lt_succ_self,
      fun c key started schema hc => (h.coming c key started schema hc).trans s.now.lt_succ_self⟩
  obtain ⟨hcached, hcoming⟩ := (hnext.act (fun _ => s.now.lt_succ_self) move).1
  exact ⟨hcached, hcoming⟩

/-- **When an `Invalidate` takes effect.** Whatever has happened before, every `Get` of the table
that starts after the call returns a schema that was read after it, exactly if no call has an answer
about the table in its hands when it is made. -/
theorem invalidate_iff (before : List (Move κ ν α)) (key : ν) :
    (∀ after, ∀ r ∈ (machine.run (machine.step (machine.run new before).1 (.invalidate key)).1
        after).2, r.key = key → (machine.run (new : Cache κ ν α) before).1.now ≤ r.started →
          (machine.run (new : Cache κ ν α) before).1.now ≤ r.schema.read) ↔
      ∀ c started schema, (machine.run (new : Cache κ ν α) before).1.calls c ≠
        some (.storing key started schema) := by
  have hread := read_lt_run (κ := κ) (α := α) before
  generalize (machine.run (new : Cache κ ν α) before).1 = s at hread ⊢
  constructor
  · -- The answer is stored, and the next `Get` finds it.
    intro h c started schema hcall
    have hget := h [.store c, .get c key] ⟨key, s.now + 2, schema⟩
      (by cases started <;> simp [Machine.run, machine, act, hcall]) rfl (by simp)
    exact absurd (hread.coming c key started schema hcall) hget.not_gt
  · intro hnone after
    have hrun := machine.run_induction after (s := (machine.step s (.invalidate key)).1)
      (motive := fun s' es => s.now ≤ s'.now ∧
        Holds (fun key' read => key' = key → s.now ≤ read) s' ∧
          ∀ r ∈ es, r.key = key → s.now ≤ r.schema.read) ?_ ?_
    · exact fun r hr hkey _ => hrun.2.2 r hr hkey
    · refine ⟨s.now.le_succ, ⟨fun key' schema hschema hkey => ?_, ?_⟩, by simp⟩
      · simp [machine, act, hkey] at hschema
      · rintro c _ started schema hcall rfl
        exact absurd hcall (hnone c started schema)
    · rintro s' es move ⟨hle, hholds, hes⟩
      obtain ⟨⟨hcached, hcoming⟩, hreturned⟩ := hholds.act (fun _ _ => hle) move
      refine ⟨hle.trans s'.now.le_succ, ⟨hcached, hcoming⟩, fun r hr => ?_⟩
      exact (mem_append.mp hr).elim (hes r) (hreturned r)

end DataStream.Source.MySQL.SchemaCache
