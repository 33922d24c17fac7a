import TensorContraction.Markup.Reader

/-!
# Trees of elements

The events of a text are those of a walk through trees of elements: an element begins,
what it holds is walked through, the element ends. This file has the trees
(`TensorContraction.Markup.ElementTree`) and their events, and says which sequences of events are
the beginning of such a walk.

**Walks that are under way.** While elements are open, a walk is not that of trees, and it
is not enough to count what is open: `TensorContraction.Markup.Walk` is the sequence of
the trees that are complete, and of the elements around them that are not. Every event of
a reader keeps a sequence of events a walk, and a walk with nothing open is one through
trees (`TensorContraction.Markup.Walk.exists_trees`).
-/

namespace TensorContraction

namespace Markup

/-! ### Trees -/

/-- An element with what it holds, in order. -/
inductive ElementTree
  | node (element : Element) (children : List ElementTree)

namespace ElementTree

/-- The element at the root of a tree. -/
def element : ElementTree → Element
  | node e _ => e

/-- An element that holds nothing. -/
def leaf (e : Element) : ElementTree :=
  node e []

/-- **Induction on trees** that stand side by side: the first of them, what it holds, and
the other ones. -/
@[elab_as_elim]
theorem forestInduction {motive : List ElementTree → Prop} (nil : motive [])
    (cons : ∀ e kids ts, motive kids → motive ts → motive (node e kids :: ts)) :
    ∀ ts, motive ts
  | [] => nil
  | node e kids :: ts =>
    cons e kids ts (forestInduction nil cons kids) (forestInduction nil cons ts)

/-! ### Events and elements -/

mutual

/-- The events of a tree. -/
def events : ElementTree → List Event
  | node e kids => .start e :: (eventsOf kids ++ [.stop])

/-- The events of trees that stand side by side. -/
def eventsOf : List ElementTree → List Event
  | [] => []
  | t :: ts => events t ++ eventsOf ts

end

mutual

/-- The elements of a tree, in the order in which they begin. -/
def elements : ElementTree → List Element
  | node e kids => e :: elementsOf kids

/-- The elements of trees that stand side by side. -/
def elementsOf : List ElementTree → List Element
  | [] => []
  | t :: ts => elements t ++ elementsOf ts

end

theorem eventsOf_cons (e : Element) (kids ts : List ElementTree) :
    eventsOf (node e kids :: ts) = .start e :: (eventsOf kids ++ .stop :: eventsOf ts) := by
  rw [eventsOf, events, List.cons_append, List.append_assoc, List.singleton_append]

theorem eventsOf_append (ts ts' : List ElementTree) :
    eventsOf (ts ++ ts') = eventsOf ts ++ eventsOf ts' := by
  induction ts with
  | nil => rfl
  | cons t ts ih => rw [List.cons_append, eventsOf, eventsOf, ih, List.append_assoc]

theorem eventsOf_singleton (t : ElementTree) : eventsOf [t] = t.events := by
  rw [eventsOf, eventsOf, List.append_nil]

theorem elementsOf_cons (e : Element) (kids ts : List ElementTree) :
    elementsOf (node e kids :: ts) = e :: (elementsOf kids ++ elementsOf ts) := by
  rw [elementsOf, elements, List.cons_append]

theorem elementsOf_singleton (t : ElementTree) : elementsOf [t] = t.elements := by
  rw [elementsOf, elementsOf, List.append_nil]

/-- The elements of trees are those of one tree after the other. -/
theorem elementsOf_eq_flatMap (ts : List ElementTree) : elementsOf ts = ts.flatMap elements := by
  induction ts with
  | nil => rfl
  | cons t ts ih => rw [elementsOf, List.flatMap_cons, ih]

end ElementTree

/-! ### Walks -/

open ElementTree

/-- **A walk** through trees, at a place where `depth` elements have not ended. -/
inductive Walk : (depth : Nat) → List Event → Prop
  /-- Complete trees, with nothing open. -/
  | trees (ts : List ElementTree) : Walk 0 (eventsOf ts)
  /-- A walk after which an element begins that does not end, and complete trees in it. -/
  | inside {depth : Nat} {es : List Event} (h : Walk depth es) (e : Element)
    (ts : List ElementTree) :
    Walk (depth + 1) (es ++ .start e :: eventsOf ts)

namespace Walk

variable {depth : Nat} {es : List Event}

/-- A walk with nothing open is one through trees. -/
theorem exists_trees (h : Walk 0 es) : ∃ ts, es = eventsOf ts := by
  cases h with
  | trees ts => exact ⟨ts, rfl⟩

theorem nil : Walk 0 [] :=
  trees []

/-- A walk goes on through a tree. -/
theorem tree (h : Walk depth es) (t : ElementTree) : Walk depth (es ++ t.events) := by
  cases h with
  | trees ts =>
    rw [← eventsOf_singleton, ← eventsOf_append]
    exact trees _
  | inside h e ts =>
    -- the tree joins those that stand in the innermost element
    rw [List.append_assoc, List.cons_append, ← eventsOf_singleton, ← eventsOf_append]
    exact h.inside e _

/-- A walk goes on into an element. -/
theorem start (h : Walk depth es) (e : Element) : Walk (depth + 1) (es ++ [.start e]) :=
  h.inside e []

/-- **A walk goes on out of an element**, which is a tree from then on. -/
theorem stop (h : Walk (depth + 1) es) : Walk depth (es ++ [.stop]) := by
  cases h with
  | inside h e ts =>
    -- the innermost element and what it holds are one more tree of the walk around it
    have hevents : .start e :: eventsOf ts ++ [.stop] = (node e ts).events := by
      rw [events, List.cons_append]
    rw [List.append_assoc, hevents]
    exact h.tree _

end Walk

end Markup

end TensorContraction
