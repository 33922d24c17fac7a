import TensorContraction.Proofs.Markup.Report
import TensorContraction.Proofs.Markup.Step

/-!
# Readers walk through trees

A reader knows which elements are open, and a closing tag ends the innermost one. So the
events that it reports are a walk through trees of elements, at any place of a text and
whatever the text holds besides elements; and the events of a complete document are those
of trees (`TensorContraction.Markup.exists_trees_of_isComplete`).

What a character does to the open elements is one of four things
(`TensorContraction.Markup.Nesting`): nothing, with no event or with those
of an element that holds nothing; one more is open, or one less. Everything else is
composition, over the characters of a text and over the texts that are taken in.

A document is complete only if there was an element in it. A reader knows that by its stage,
which becomes that of the content where an element begins and nowhere else. So there is a tree
at least, and what is reported of a text can be relied on
(`TensorContraction.Markup.isReliable_report`).
-/

namespace TensorContraction

namespace Markup

/-! ### One character -/

/-- **What a piece of a text does** to the elements that are open around it, and the
events that go with it. -/
inductive Nesting (scopes : List Scope) : (next : List Scope) → List Event → Prop
  /-- No element begins or ends. -/
  | same : Nesting scopes scopes []
  /-- An element begins and ends. -/
  | leaf (e : Element) : Nesting scopes scopes [.start e, .stop]
  /-- An element begins. -/
  | inner (e : Element) (scope : Scope) : Nesting scopes (scope :: scopes) [.start e]
  /-- The innermost element ends. -/
  | outer (scope : Scope) (next : List Scope) (h : scopes = scope :: next) :
    Nesting scopes next [.stop]

/-- An event that goes with the open elements keeps a walk one. -/
theorem Nesting.walk {scopes next : List Scope} {es es' : List Event}
    (h : Nesting scopes next es') (hwalk : Walk scopes.length es) :
    Walk next.length (es ++ es') := by
  cases h with
  | same => rwa [List.append_nil]
  | leaf e => exact hwalk.tree (ElementTree.leaf e)
  | inner e scope => exact hwalk.start e
  | outer scope next h =>
    subst h
    exact hwalk.stop

/-- **What a character does** to the open elements is what its events say. -/
theorem Reader.Effect.nesting {r : Reader} {a : Advance} (h : r.Effect a) :
    Nesting r.scopes a.reader.scopes a.events := by
  cases h with
  | move place => exact .same
  | pass => exact .same
  | head charset => exact .same
  | declare place entities => exact .same
  | typed => exact .same
  | takeIn place text => exact .same
  | leaf e => exact .leaf e
  | inner e scope => exact .inner e scope
  | outer scope scopes h => exact .outer scope scopes h

/-! ### Texts -/

/-- Where a document may end, there has been an element, and none is open. -/
theorem Reader.of_isComplete {r : Reader} (h : r.isComplete = true) :
    r.stage = .content ∧ r.scopes = [] := by
  simp only [isComplete, Bool.and_eq_true, beq_iff_eq, List.isEmpty_iff] at h
  exact h.1

/-- Any walk that the reader was in goes on. -/
theorem isCourse_walk : IsCourse fun r events next =>
    ∀ es, Walk r.scopes.length es → Walk next.scopes.length (es ++ events) where
  nil r es hwalk := by rwa [List.append_nil]
  append hfirst hrest es hwalk := by
    rw [← List.append_assoc]
    exact hrest _ (hfirst es hwalk)
  advance heffect es hwalk := heffect.nesting.walk hwalk

/-- **The events of a complete document** are those of trees that stand side by side. -/
theorem exists_trees_of_isComplete {text : String} (h : (read text).isComplete = true) :
    ∃ ts, (read text).events = ElementTree.eventsOf ts := by
  obtain ⟨r, hrest, hr⟩ := Option.any_eq_true _ _ |>.1 h
  obtain ⟨charset, hwalks⟩ := isCourse_walk.read hrest
  -- the reader at the end has nothing open, so the walk is one through trees
  have hwalk := hwalks [] .nil
  rw [(Reader.of_isComplete hr).2, List.nil_append] at hwalk
  exact hwalk.exists_trees

/-! ### The first element -/

/-- Ahead of the content, markup that is no element leads past the outset at most. -/
theorem Reader.stage_of_stage_pass {r : Reader} (h : r.pass.stage = .content) :
    r.stage = .content := by
  rw [pass] at h
  split at h
  · cases h
  · exact h

/-- **A character** comes to the content with an event or not at all. -/
theorem Reader.Effect.announces {r : Reader} {a : Advance} (h : r.Effect a)
    (hnone : a.events = []) (hcontent : a.reader.stage = .content) : r.stage = .content := by
  cases h with
  | move place => exact hcontent
  | pass => exact stage_of_stage_pass hcontent
  | head charset => exact stage_of_stage_pass hcontent
  | declare place entities => exact hcontent
  | typed => cases hcontent
  | takeIn place text => exact hcontent
  | leaf e => cases hnone
  | inner e scope => cases hnone
  | outer scope scopes hscopes => cases hnone

/-- A text comes to the content with an event or not at all. -/
theorem isCourse_announces : IsCourse fun r events next =>
    events = [] → next.stage = .content → r.stage = .content where
  nil _ _ hcontent := hcontent
  append hfirst hrest hnone hcontent := by
    obtain ⟨hnone, hnone'⟩ := List.append_eq_nil_iff.1 hnone
    exact hfirst hnone (hrest hnone' hcontent)
  advance heffect := heffect.announces

/-- **The events of a complete document** are those of trees, of which there is one at
least. -/
theorem exists_cons_of_isComplete {text : String} (h : (read text).isComplete = true) :
    ∃ t ts, (read text).events = ElementTree.eventsOf (t :: ts) := by
  obtain ⟨ts, hevents⟩ := exists_trees_of_isComplete h
  obtain ⟨final, hrest, hfinal⟩ := Option.any_eq_true _ _ |>.1 h
  obtain ⟨charset, hannounced⟩ := isCourse_announces.read hrest
  cases ts with
  | nil =>
    -- without an event, the reader would still be at the outset
    cases hannounced hevents (Reader.of_isComplete hfinal).1
  | cons t ts => exact ⟨t, ts, hevents⟩

/-- **The reports of a text can be relied on.** -/
theorem isReliable_report : IsReliable report where
  append := events_report_append
  trees := exists_cons_of_isComplete

end Markup

end TensorContraction
