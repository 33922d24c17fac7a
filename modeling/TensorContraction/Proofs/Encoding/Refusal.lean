import TensorContraction.Proofs.Encoding.Record

/-!
# Elements that are refused

Which elements a draft refuses, and for what reason, told from the events alone: an element
that is no part, or a part out of its place; otherwise one whose attributes cannot be read;
otherwise one that repeats a part (`TensorContraction.Encoding.Refuses`). What matters of the
earlier events is which elements have begun and which of them are open.

A draft that has followed the events knows both
(`TensorContraction.Encoding.Draft.Follows`). So a sequence of events leads to a draft if and
only if none of its elements is refused, and otherwise fails as the first of them that is
(`TensorContraction.Encoding.draft_eq_error_iff`).
-/

namespace TensorContraction

namespace Encoding

open Markup

/-! ### Earlier events -/

/-- The element that begins with an event, if one does. -/
def startOf? : Event → Option Element
  | .start e => some e
  | .stop => none

/-- The elements that have begun, in order. -/
def started (events : List Event) : List Element :=
  events.filterMap startOf?

/-- The elements that are open after an event, the innermost one first. -/
def openAfter (es : List Element) : Event → List Element
  | .start e => e :: es
  | .stop => es.tail

/-- The elements that are open after some events, the innermost one first. -/
def openElements (events : List Event) : List Element :=
  events.foldl openAfter []

/-- The part that the innermost element holds, if an element is open. -/
def enclosing? (events : List Event) : Option Part :=
  (openElements events).head?.bind fun e => Part.ofTag? e.tag

section

variable (events : List Event) (event : Event)

theorem started_concat :
    started (events ++ [event]) = started events ++ (startOf? event).toList := by
  rw [started, List.filterMap_append, started]
  cases event <;> rfl

theorem openElements_concat :
    openElements (events ++ [event]) = openAfter (openElements events) event := by
  rw [openElements, List.foldl_append]
  rfl

end

/-! ### Reasons -/

/-- Reads the attributes of an element that holds a part. The problem itself has none that
matter. -/
def readAttributes (e : Element) : Part → Except DecodeError Unit
  | .problem => .ok ()
  | .tensorC | .tensorA | .tensorB => (readTensor e).map fun _ => ()
  | .operation => (readOperation e).map fun _ => ()
  | .assignmentA | .assignmentB => (readAssignment e).map fun _ => ()
  | .profile => (readProfile e).map fun _ => ()

/-- **An element is refused** after some events, for the first of these reasons that there
is. -/
inductive Refuses (before : List Event) (e : Element) : DecodeError → Prop
  /-- No part has the tag. -/
  | unexpected (htag : ∀ part : Part, e.tag ≠ part.tag) : Refuses before e (.unexpected e.tag)
  /-- The part is not directly inside the one that encloses it. -/
  | misplaced {part : Part} (htag : e.tag = part.tag)
    (hplace : enclosing? before ≠ part.parent?) :
    Refuses before e (.misplaced part (enclosing? before))
  /-- The attributes of the part cannot be read. -/
  | unreadable {part : Part} (htag : e.tag = part.tag)
    (hplace : enclosing? before = part.parent?) {err : DecodeError}
    (hread : readAttributes e part = .error err) : Refuses before e err
  /-- The part has occurred before. -/
  | repeated {part : Part} (htag : e.tag = part.tag)
    (hplace : enclosing? before = part.parent?) (hread : readAttributes e part = .ok ())
    (hagain : e.tag ∈ (started before).map Element.tag) : Refuses before e (.repeated part)

/-- No element that begins with one of the events is refused. -/
def Accepts (events : List Event) : Prop :=
  ∀ before e after, events = before ++ .start e :: after → ∀ err, ¬Refuses before e err

/-! ### Drafts that fail -/

theorem Draft.fill_eq_error_iff {α : Type} {part : Part} {place : Option α} {x : α}
    {err : DecodeError} :
    fill part place x = .error err ↔ place.isSome = true ∧ err = .repeated part := by
  cases place with
  | none => simp [fill]
  | some y => simp [fill, eq_comm]

theorem ReadsInto.isSome_eq {α : Type} {read : Element → Except DecodeError α}
    {e? : Option Element} {place : Option α} (h : ReadsInto read e? place) :
    place.isSome = e?.isSome := by
  cases e? with
  | none =>
    obtain rfl : place = none := h
    rfl
  | some e =>
    obtain ⟨x, -, rfl⟩ := h
    rfl

/-- **A place is not filled** if and only if the element cannot be read, or the place is
taken. -/
theorem ReadsInto.fill_eq_error_iff {α : Type} {read : Element → Except DecodeError α}
    {e? : Option Element} {place : Option α} (h : ReadsInto read e? place) {part : Part}
    {e : Element} {put : Option α → Draft} {err : DecodeError} :
    (do let x ← read e
        let filled ← Draft.fill part place x
        return put filled) = .error err ↔
      ((read e).map fun _ => ()) = .error err ∨
        ((read e).map fun _ => ()) = .ok () ∧ e?.isSome = true ∧ err = .repeated part := by
  rw [bind_eq_error_iff]
  cases read e with
  | error err' => simp [Except.map]
  | ok x => simp [Except.map, bind_eq_error_iff, Draft.fill_eq_error_iff, h.isSome_eq, pure,
      Except.pure]

namespace Draft

variable {d d' : Draft} {e : Element} {part : Part} {err : DecodeError}

/-- An element is no part, or a part out of its place. -/
theorem partOf_eq_error_iff :
    d.partOf e = .error err ↔ (∀ part : Part, e.tag ≠ part.tag) ∧ err = .unexpected e.tag ∨
      ∃ part : Part, e.tag = part.tag ∧ d.path.head? ≠ part.parent? ∧
        err = .misplaced part d.path.head? := by
  rw [partOf]
  cases hpart : Part.ofTag? e.tag with
  | none =>
    have htag : ∀ part : Part, e.tag ≠ part.tag := by
      intro part h
      rw [Part.ofTag?_eq_some_iff.2 h] at hpart
      cases hpart
    simp [htag, eq_comm]
  | some found =>
    have htag : ∀ part : Part, e.tag = part.tag ↔ found = part := by
      intro part
      rw [← Part.ofTag?_eq_some_iff, hpart, Option.some.injEq]
    simp only [htag, ne_eq, forall_eq', false_and, false_or, exists_eq_left']
    split
    · next hplace => simp [hplace]
    · next hplace => simp [hplace, eq_comm]

/-- **A part is not read** if and only if its attributes are not, or there is such a part
already. -/
theorem readPart_eq_error_iff {e? : Option Element} (hplace : d.Holds part e?) :
    d.readPart e part = .error err ↔ readAttributes e part = .error err ∨
      readAttributes e part = .ok () ∧ e?.isSome = true ∧ err = .repeated part := by
  cases part
  case problem =>
    have hbegun : d.begun = e?.isSome := hplace
    simp only [readPart, readAttributes, hbegun, reduceCtorEq, true_and, false_or]
    cases e? with
    | none => simp
    | some e' => simp [eq_comm]
  all_goals exact ReadsInto.fill_eq_error_iff hplace

/-! ### Drafts that follow -/

/-- **A draft follows events**: it records the elements that have begun, and its path is that
of the open ones. -/
structure Follows (d : Draft) (events : List Event) : Prop where
  /-- The elements that have begun are recorded. -/
  records : d.Records (started events)
  /-- The elements that are open hold the parts on the path. -/
  path : (openElements events).map (fun e => Part.ofTag? e.tag) = d.path.map some

theorem follows_blank : Follows .blank [] where
  records := records_blank
  path := rfl

namespace Follows

variable {before : List Event}

theorem enclosing?_eq (h : d.Follows before) : enclosing? before = d.path.head? := by
  have hhead := congrArg List.head? h.path
  rw [List.head?_map, List.head?_map] at hhead
  rw [enclosing?]
  cases hopen : (openElements before).head? <;> cases hpath : d.path.head? <;>
    simp_all

/-- **One event** on. -/
theorem step (h : d.Follows before) {event : Event} (hstep : d.step event = .ok d') :
    d'.Follows (before ++ [event]) := by
  cases event with
  | stop =>
    obtain rfl := Except.ok.inj hstep
    refine ⟨?_, ?_⟩
    · rw [started_concat, startOf?, Option.toList_none, List.append_nil]
      exact h.records.withPath _
    · rw [openElements_concat, openAfter, List.map_tail, h.path, List.map_tail]
  | start e =>
    obtain ⟨part, filled, hpart, -, hread, rfl⟩ := step_start_eq_ok_iff.1 hstep
    obtain ⟨hpath, hrecords⟩ :=
      (h.records.readPart_eq_ok_iff (Part.ofTag?_eq_some_iff.1 hpart)).1 hread
    refine ⟨?_, ?_⟩
    · rw [started_concat, startOf?, Option.toList_some]
      exact hrecords.withPath _
    · rw [openElements_concat, openAfter, List.map_cons, hpart, h.path, List.map_cons, hpath]

/-- **Events** on. -/
theorem drafts (h : d.Follows before) {events : List Event} (hdrafts : Drafts d events d') :
    d'.Follows (before ++ events) := by
  induction events generalizing d before with
  | nil =>
    obtain rfl := Drafts.nil_iff.1 hdrafts
    rwa [List.append_nil]
  | cons event events ih =>
    obtain ⟨next, hstep, hrest⟩ := Drafts.cons_iff.1 hdrafts
    rw [← List.singleton_append, ← List.append_assoc]
    exact ih (h.step hstep) hrest

/-- **An element is not taken** if and only if it is refused. -/
theorem step_start_eq_error_iff (h : d.Follows before) :
    d.step (.start e) = .error err ↔ Refuses before e err := by
  have hagain : ∀ part : Part, e.tag = part.tag →
      ((holder? (started before) part).isSome = true ↔
        e.tag ∈ (started before).map Element.tag) := by
    intro part htag
    rw [isSome_holder?_iff, htag]
  rw [Draft.step, bind_eq_error_iff]
  constructor
  · rintro (hpart | ⟨part, hpart, hrest⟩)
    · obtain ⟨htag, rfl⟩ | ⟨part, htag, hplace, rfl⟩ := partOf_eq_error_iff.1 hpart
      · exact .unexpected htag
      · rw [← h.enclosing?_eq] at hplace ⊢
        exact .misplaced htag hplace
    · obtain ⟨hfound, hplace⟩ := partOf_eq_ok_iff.1 hpart
      have htag := Part.ofTag?_eq_some_iff.1 hfound
      rw [← h.enclosing?_eq] at hplace
      obtain hfails | ⟨-, -, ⟨⟩⟩ := bind_eq_error_iff.1 hrest
      obtain hread | ⟨hread, hsome, rfl⟩ :=
        (readPart_eq_error_iff (h.records.holds part)).1 hfails
      · exact .unreadable htag hplace hread
      · exact .repeated htag hplace hread ((hagain part htag).1 hsome)
  · have hok : ∀ part : Part, e.tag = part.tag → enclosing? before = part.parent? →
        d.partOf e = .ok part := by
      intro part htag hplace
      rw [h.enclosing?_eq] at hplace
      exact partOf_eq_ok_iff.2 ⟨Part.ofTag?_eq_some_iff.2 htag, hplace⟩
    rintro (htag | ⟨htag, hplace⟩ | ⟨htag, hplace, hread⟩ | ⟨htag, hplace, hread, hsome⟩)
    · exact .inl (partOf_eq_error_iff.2 (.inl ⟨htag, rfl⟩))
    · rw [h.enclosing?_eq] at hplace ⊢
      exact .inl (partOf_eq_error_iff.2 (.inr ⟨_, htag, hplace, rfl⟩))
    · refine .inr ⟨_, hok _ htag hplace, bind_eq_error_iff.2 (.inl ?_)⟩
      exact (readPart_eq_error_iff (h.records.holds _)).2 (.inl hread)
    · refine .inr ⟨_, hok _ htag hplace, bind_eq_error_iff.2 (.inl ?_)⟩
      exact (readPart_eq_error_iff (h.records.holds _)).2
        (.inr ⟨hread, (hagain _ htag).2 hsome, rfl⟩)

end Follows

end Draft

/-! ### Sequences of events -/

theorem Drafts.follows {events : List Event} {d : Draft} (h : Drafts .blank events d) :
    d.Follows events :=
  Draft.follows_blank.drafts h

/-- A sequence of events fails as one of its elements is refused, after events that lead to a
draft. -/
theorem exists_refuses_of_draft_eq_error {events : List Event} {err : DecodeError}
    (h : draft events = .error err) :
    ∃ before e after, events = before ++ .start e :: after ∧ (∃ d, Drafts .blank before d) ∧
      Refuses before e err := by
  obtain ⟨before, event, after, d, rfl, hdrafts, hstep⟩ := foldlM_eq_error_iff.1 h
  cases event with
  | stop => cases hstep
  | start e =>
    have hrefuses := (Drafts.follows hdrafts).step_start_eq_error_iff.1 hstep
    exact ⟨before, e, after, rfl, ⟨d, hdrafts⟩, hrefuses⟩

/-- **Events lead to a draft** if and only if no element is refused. -/
theorem exists_drafts_iff_accepts {events : List Event} :
    (∃ d, Drafts .blank events d) ↔ Accepts events := by
  constructor
  · rintro ⟨d, hdrafts⟩ before e after rfl err hrefuses
    obtain ⟨next, hbefore, hrest⟩ := Drafts.append_iff.1 hdrafts
    obtain ⟨_, hstep, -⟩ := Drafts.cons_iff.1 hrest
    rw [hbefore.follows.step_start_eq_error_iff.2 hrefuses] at hstep
    cases hstep
  · intro haccepts
    cases hdraft : draft events with
    | ok d => exact ⟨d, hdraft⟩
    | error err =>
      obtain ⟨before, e, after, hevents, -, hrefuses⟩ := exists_refuses_of_draft_eq_error hdraft
      exact absurd hrefuses (haccepts before e after hevents err)

/-- **Events fail as the first element** that is refused. -/
theorem draft_eq_error_iff {events : List Event} {err : DecodeError} :
    draft events = .error err ↔ ∃ before e after, events = before ++ .start e :: after ∧
      Accepts before ∧ Refuses before e err := by
  constructor
  · intro h
    simp only [← exists_drafts_iff_accepts]
    exact exists_refuses_of_draft_eq_error h
  · rintro ⟨before, e, after, rfl, haccepts, hrefuses⟩
    obtain ⟨d, hdrafts⟩ := exists_drafts_iff_accepts.2 haccepts
    exact foldlM_eq_error_iff.2 ⟨before, .start e, after, d, rfl, hdrafts,
      hdrafts.follows.step_start_eq_error_iff.2 hrefuses⟩

end Encoding

end TensorContraction
