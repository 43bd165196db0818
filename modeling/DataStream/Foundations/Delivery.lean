import DataStream.Foundations.Machine

/-!
# Sending a log and exposing a position in it

A source reads the events of a log one after the other. For each event it runs a short program: it
moves a mark, sends the items of the event, and saves positions. Another activity exposes the mark
at any time in between. Who restarts at an exposed position reads again the items placed at or
after it.

Sends can fail. A failed send ends the program of its event, and with it every item of the event
that was still to be sent; the source then goes on with the next event. An item is passed over if
it belongs to an event that was read and will not be sent any more.

* `recoverable_run`: in every careful run a restart at an exposed position reads every item that was
  not sent.
-/

namespace DataStream.Delivery

open List Option

variable {S E P X V α : Type} [LinearOrder α]

/-- A step of the program for one event, with positions `P`, items `X` and values `V` sent for
them. -/
inductive Action (P X V : Type) where
  | setMark (f : Option P → P)
  /-- Save a position; the call may fail. -/
  | save (p : P)
  /-- Send the value of an item; the send may fail. -/
  | send (x : X) (v : V)
  | skip (x : X)

namespace Action

/-- The item an action deals with. -/
def item? : Action P X V → Option X
  | .send x _ | .skip x => some x
  | .setMark _ | .save _ => none

/-- An action keeps to positions up to a bound: what it saves, and the mark it sets if the mark
before did. -/
def Below (place : P → α) (bound : α) : Action P X V → Prop
  | .setMark f => ∀ m : Option P, (∀ q ∈ m, place q ≤ bound) → place (f m) ≤ bound
  | .save p => place p ≤ bound
  | .send _ _ | .skip _ => True

end Action

def items (program : List (Action P X V)) : List X := program.filterMap Action.item?

/-- A source that has read part of its log. -/
structure State (S E P X V : Type) where
  source : S
  /-- The events not yet read. -/
  rest : List E
  /-- What is left to do for the event read last. -/
  program : List (Action P X V)
  mark : Option P
  /-- Every position that was exposed or saved. -/
  exposed : List P
  /-- The items that were sent, in order. -/
  delivered : List (X × V)
  /-- The items that will not be sent any more. -/
  passed : List X

/-- A source at the start of its log. -/
def State.start (source : S) (log : List E) (mark : Option P) : State S E P X V where
  source := source
  rest := log
  program := []
  mark := mark
  exposed := []
  delivered := []
  passed := []

inductive Input where
  /-- The source reads its next event, if it is done with the last one. -/
  | next
  /-- The source runs the next action of its program, which succeeds or fails. -/
  | act (succeeds : Bool)
  /-- The mark is exposed. -/
  | tick
  deriving DecidableEq, Repr

/-- Run one action. -/
def perform (st : State S E P X V) (succeeds : Bool) : State S E P X V :=
  match st.program with
  | [] => st
  | .setMark f :: program => { st with program := program, mark := some (f st.mark) }
  | .save p :: program =>
    { st with program := program, exposed := st.exposed ++ (if succeeds then [p] else []) }
  | .send x v :: program =>
    if succeeds then { st with program := program, delivered := st.delivered ++ [(x, v)] }
    else { st with program := [], passed := st.passed ++ x :: items program }
  | .skip x :: program => { st with program := program, passed := st.passed ++ [x] }

/-- Read the next event. -/
def read (handle : S → E → S × List (Action P X V)) (st : State S E P X V) : State S E P X V :=
  match st.program, st.rest with
  | [], e :: rest =>
    { st with source := (handle st.source e).1, rest := rest, program := (handle st.source e).2 }
  | _, _ => st

/-- The source as a machine, given what it does for an event. -/
def machine (handle : S → E → S × List (Action P X V)) : Machine (State S E P X V) Input Empty where
  step st
    | .next => (read handle st, [])
    | .act succeeds => (perform st succeeds, [])
    | .tick => ({ st with exposed := st.exposed ++ st.mark.toList }, [])

section Recovery

variable (place : P → α) (itemPlace : X → α)

/-- Every item of the log that is neither sent nor about to be sent lies at or after every exposed
position. -/
def Recoverable (changes : E → List X) (log : List E) (st : State S E P X V) : Prop :=
  ∀ e ∈ log, ∀ x ∈ changes e, (∃ v, (x, v) ∈ st.delivered) ∨ x ∈ items st.program ∨
    ∀ p ∈ st.exposed, place p ≤ itemPlace x

/-- A step is careful if it exposes no position behind which an item was passed over, and passes
over none behind which a position was exposed. -/
def Careful (st : State S E P X V) : Input → Prop
  | .next => True
  | .tick => ∀ p ∈ st.mark, ∀ x ∈ st.passed, place p ≤ itemPlace x
  | .act succeeds =>
    match st.program with
    | .save p :: _ => succeeds = true → ∀ x ∈ st.passed, place p ≤ itemPlace x
    | .send x v :: program =>
      succeeds = false → ∀ y ∈ items (.send x v :: program), ∀ p ∈ st.exposed, place p ≤ itemPlace y
    | .skip x :: _ => ∀ p ∈ st.exposed, place p ≤ itemPlace x
    | _ => True

instance decidableCareful (st : State S E P X V) : ∀ i, Decidable (Careful place itemPlace st i)
  | .next => isTrue trivial
  | .tick => inferInstanceAs (Decidable (∀ p ∈ st.mark, ∀ x ∈ st.passed, place p ≤ itemPlace x))
  | .act succeeds =>
    match h : st.program with
    | [] => isTrue (by simp [Careful, h])
    | .setMark _ :: _ => isTrue (by simp [Careful, h])
    | .save p :: _ =>
      decidable_of_iff (succeeds = true → ∀ x ∈ st.passed, place p ≤ itemPlace x)
        (by simp [Careful, h])
    | .send x v :: program =>
      decidable_of_iff (succeeds = false → ∀ y ∈ items (.send x v :: program),
        ∀ p ∈ st.exposed, place p ≤ itemPlace y) (by simp [Careful, h])
    | .skip x :: _ =>
      decidable_of_iff (∀ p ∈ st.exposed, place p ≤ itemPlace x) (by simp [Careful, h])

/-- What a source does for the events of its log: every item of an event is in its program, and
the positions of the program lie at or before every later item. The source state and the events
still to come are related by `ok`. -/
structure Tracks (handle : S → E → S × List (Action P X V)) (changes : E → List X)
    (ok : S → List E → Prop) : Prop where
  next : ∀ s e rest, ok s (e :: rest) → ok (handle s e).1 rest
  items : ∀ s e rest, ok s (e :: rest) → ∀ x ∈ changes e, x ∈ items (handle s e).2
  below : ∀ s e rest, ok s (e :: rest) → ∀ e' ∈ rest, ∀ x ∈ changes e',
    ∀ a ∈ (handle s e).2, a.Below place (itemPlace x)

/-- The invariant of a careful run. -/
structure Sound (changes : E → List X) (ok : S → List E → Prop) (log : List E)
    (st : State S E P X V) : Prop where
  /-- Every item of an event that was read is accounted for. -/
  accounted : ∃ done, log = done ++ st.rest ∧ ∀ e ∈ done, ∀ x ∈ changes e,
    (∃ v, (x, v) ∈ st.delivered) ∨ x ∈ items st.program ∨ x ∈ st.passed
  source : ok st.source st.rest
  /-- The items of unread events lie at or after every position in use. -/
  ahead : ∀ e ∈ st.rest, ∀ x ∈ changes e, (∀ p ∈ st.mark, place p ≤ itemPlace x) ∧
    (∀ p ∈ st.exposed, place p ≤ itemPlace x) ∧ ∀ a ∈ st.program, a.Below place (itemPlace x)
  passed : ∀ x ∈ st.passed, ∀ p ∈ st.exposed, place p ≤ itemPlace x

variable {place itemPlace} {handle : S → E → S × List (Action P X V)} {changes : E → List X}
  {ok : S → List E → Prop} {log : List E} {st : State S E P X V}

lemma Sound.recoverable (h : Sound place itemPlace changes ok log st) :
    Recoverable place itemPlace changes log st := by
  intro e he x hx
  obtain ⟨done, rfl, hdone⟩ := h.accounted
  rcases mem_append.mp he with he | he
  · rcases hdone e he x hx with hsent | hpending | hpassed
    · exact .inl hsent
    · exact .inr (.inl hpending)
    · exact .inr (.inr (h.passed x hpassed))
  · exact .inr (.inr (h.ahead e he x hx).2.1)

lemma not_recoverable (x : X) (hx : ∃ e ∈ log, x ∈ changes e)
    (hsent : x ∉ st.delivered.map Prod.fst) (hpending : x ∉ items st.program)
    (hexposed : ∃ p ∈ st.exposed, ¬ place p ≤ itemPlace x) :
    ¬ Recoverable place itemPlace changes log st := by
  intro h
  obtain ⟨e, he, hx⟩ := hx
  obtain ⟨p, hp, hlt⟩ := hexposed
  rcases h e he x hx with ⟨v, hv⟩ | hitem | hle
  · exact hsent (List.mem_map_of_mem hv)
  · exact hpending hitem
  · exact hlt (hle p hp)

/-! ## One step -/

section

variable (h : Sound place itemPlace changes ok log st)
include h

lemma Sound.read_step (htracks : Tracks place itemPlace handle changes ok) :
    Sound place itemPlace changes ok log (read handle st) := by
  unfold Delivery.read
  split
  · rename_i e rest hprogram hrest
    obtain ⟨done, hlog, hdone⟩ := h.accounted
    have hsource := hrest ▸ h.source
    refine ⟨⟨done ++ [e], by simp [hlog, hrest], ?_⟩, htracks.next _ e rest hsource, ?_, h.passed⟩
    · intro e' he' x hx
      rcases mem_append.mp he' with he' | he'
      · -- An earlier event: its program has ended.
        rcases hdone e' he' x hx with hsent | hpending | hpassed
        · exact .inl hsent
        · simp [hprogram, items] at hpending
        · exact .inr (.inr hpassed)
      · obtain rfl := mem_singleton.mp he'
        exact .inr (.inl (htracks.items _ e' rest hsource x hx))
    · intro e' he' x hx
      obtain ⟨hmark, hexposed, -⟩ := h.ahead e' (hrest ▸ mem_cons_of_mem e he') x hx
      exact ⟨hmark, hexposed, htracks.below _ e rest hsource e' he' x hx⟩
  · exact h

variable {program : List (Action P X V)}

/-- Some of the program is done: its items are sent, or passed over with nothing exposed behind
them. -/
lemma Sound.advance {delivered : List (X × V)} {passed : List X}
    (hprogram : ∀ a ∈ program, a ∈ st.program)
    (haccounted : ∀ x, ((∃ v, (x, v) ∈ st.delivered) ∨ x ∈ items st.program ∨ x ∈ st.passed) →
      (∃ v, (x, v) ∈ delivered) ∨ x ∈ items program ∨ x ∈ passed)
    (hpassed : ∀ x ∈ passed, ∀ p ∈ st.exposed, place p ≤ itemPlace x) :
    Sound place itemPlace changes ok log { st with program, delivered, passed } := by
  obtain ⟨done, hlog, hdone⟩ := h.accounted
  refine ⟨⟨done, hlog, fun e he x hx => haccounted x (hdone e he x hx)⟩, h.source, ?_, hpassed⟩
  intro e he x hx
  obtain ⟨hmark, hexposed, hbelow⟩ := h.ahead e he x hx
  exact ⟨hmark, hexposed, fun a ha => hbelow a (hprogram a ha)⟩

lemma Sound.setMark {f : Option P → P} (hprogram : st.program = .setMark f :: program) :
    Sound place itemPlace changes ok log { st with program, mark := some (f st.mark) } := by
  have haccounted := h.accounted
  have hahead := h.ahead
  rw [hprogram] at haccounted hahead
  refine ⟨haccounted, h.source, fun e he x hx => ?_, h.passed⟩
  obtain ⟨hmark, hexposed, hbelow⟩ := hahead e he x hx
  refine ⟨?_, hexposed, fun a ha => hbelow a (mem_cons_of_mem _ ha)⟩
  rintro p ⟨⟩
  exact hbelow _ mem_cons_self _ hmark

lemma Sound.save {p : P} (hprogram : st.program = .save p :: program) {saved : List P}
    (hsaved : ∀ q ∈ saved, q = p ∧ ∀ x ∈ st.passed, place p ≤ itemPlace x) :
    Sound place itemPlace changes ok log { st with program, exposed := st.exposed ++ saved } := by
  have haccounted := h.accounted
  have hahead := h.ahead
  rw [hprogram] at haccounted hahead
  refine ⟨haccounted, h.source, fun e he x hx => ?_, fun x hx q hq => ?_⟩
  · obtain ⟨hmark, hexposed, hbelow⟩ := hahead e he x hx
    refine ⟨hmark, fun q hq => ?_, fun a ha => hbelow a (mem_cons_of_mem _ ha)⟩
    rcases mem_append.mp hq with hq | hq
    · exact hexposed q hq
    · obtain ⟨rfl, -⟩ := hsaved q hq
      exact hbelow _ mem_cons_self
  · rcases mem_append.mp hq with hq | hq
    · exact h.passed x hx q hq
    · obtain ⟨rfl, hcareful⟩ := hsaved q hq
      exact hcareful x hx

lemma Sound.perform_step {succeeds : Bool}
    (hcareful : Careful place itemPlace st (.act succeeds)) :
    Sound place itemPlace changes ok log (perform st succeeds) := by
  unfold perform
  unfold Careful at hcareful
  split
  case h_1 => exact h
  case h_2 f program hprogram => exact h.setMark hprogram
  case h_3 p program hprogram =>
    rw [hprogram] at hcareful
    refine h.save hprogram fun q hq => ?_
    cases succeeds with
    | true => exact ⟨mem_singleton.mp hq, hcareful rfl⟩
    | false => cases hq
  case h_4 y v program hprogram =>
    rw [hprogram] at hcareful
    have hmem : ∀ a ∈ program, a ∈ st.program := fun a ha => hprogram ▸ mem_cons_of_mem _ ha
    cases succeeds with
    | true =>
      refine h.advance hmem (fun x hx => ?_) h.passed
      rw [hprogram] at hx
      rcases hx with ⟨w, hw⟩ | hpending | hx
      · exact .inl ⟨w, mem_append_left _ hw⟩
      · rcases mem_cons.mp hpending with rfl | hpending
        · exact .inl ⟨v, mem_append_right _ mem_cons_self⟩
        · exact .inr (.inl hpending)
      · exact .inr (.inr hx)
    | false =>
      -- The rest of the program is dropped, and all its items are passed over.
      refine h.advance (fun a ha => absurd ha not_mem_nil) (fun x hx => ?_) fun x hx => ?_
      · rw [hprogram] at hx
        rcases hx with hsent | hpending | hx
        · exact .inl hsent
        · exact .inr (.inr (mem_append_right _ hpending))
        · exact .inr (.inr (mem_append_left _ hx))
      · rcases mem_append.mp hx with hx | hx
        · exact h.passed x hx
        · exact hcareful rfl x hx
  case h_5 y program hprogram =>
    rw [hprogram] at hcareful
    have hmem : ∀ a ∈ program, a ∈ st.program := fun a ha => hprogram ▸ mem_cons_of_mem _ ha
    refine h.advance hmem (fun x hx => ?_) fun x hx => ?_
    · rw [hprogram] at hx
      rcases hx with hsent | hpending | hx
      · exact .inl hsent
      · rcases mem_cons.mp hpending with rfl | hpending
        · exact .inr (.inr (mem_append_right _ mem_cons_self))
        · exact .inr (.inl hpending)
      · exact .inr (.inr (mem_append_left _ hx))
    · rcases mem_append.mp hx with hx | hx
      · exact h.passed x hx
      · obtain rfl := mem_singleton.mp hx
        exact hcareful

lemma Sound.tick_step (hcareful : Careful place itemPlace st .tick) :
    Sound place itemPlace changes ok log { st with exposed := st.exposed ++ st.mark.toList } := by
  refine ⟨h.accounted, h.source, fun e he x hx => ?_, fun x hx p hp => ?_⟩
  · obtain ⟨hmark, hexposed, hbelow⟩ := h.ahead e he x hx
    refine ⟨hmark, fun p hp => ?_, hbelow⟩
    rcases mem_append.mp hp with hp | hp
    · exact hexposed p hp
    · exact hmark p (mem_toList.mp hp)
  · rcases mem_append.mp hp with hp | hp
    · exact h.passed x hx p hp
    · exact hcareful p (mem_toList.mp hp) x hx

end

/-! ## Whole runs -/

/-- From the start of its log, a source whose steps are all careful can be restarted in every state
it reaches. -/
theorem recoverable_run (htracks : Tracks place itemPlace handle changes ok) {source : S}
    {mark : Option P} (hsource : ok source log)
    (hmark : ∀ e ∈ log, ∀ x ∈ changes e, ∀ p ∈ mark, place p ≤ itemPlace x) {is : List Input}
    (hmeets : (machine handle).Meets (Careful place itemPlace) (.start source log mark) is) :
    Recoverable place itemPlace changes log
      ((machine handle).run (.start source log mark) is).1 := by
  suffices Sound place itemPlace changes ok log
      ((machine handle).run (.start source log mark) is).1 from this.recoverable
  refine (machine handle).run_induction_of_meets
    (motive := fun st _ => Sound place itemPlace changes ok log st) hmeets ?_ ?_
  · refine ⟨⟨[], rfl, by simp⟩, hsource, fun e he x hx => ⟨hmark e he x hx, ?_, ?_⟩, ?_⟩ <;>
      simp [State.start]
  · intro st _ i hcareful h
    cases i with
    | next => exact h.read_step htracks
    | act succeeds => exact h.perform_step hcareful
    | tick => exact h.tick_step hcareful

end Recovery

end DataStream.Delivery
