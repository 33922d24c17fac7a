import TensorContraction.Proofs.Encoding.Refusal

/-!
# The path of a draft

What is open after some events is told by how they fall into trees
(`TensorContraction.Encoding.IsOpenPath`): complete trees, the beginning of the first element
that does not end, and so on inside of it. There is one such path after the beginning of
trees, and a stack that every event pushes to or pops from holds it
(`TensorContraction.Encoding.isOpenPath_iff`).

A draft has the tags of these elements on its path
(`TensorContraction.Encoding.Draft.Follows.opened_eq`). Since a part is taken only inside the
one that encloses it, there are nine paths (`TensorContraction.Encoding.tagPaths`).
-/

namespace TensorContraction

namespace Encoding

open Markup Markup.ElementTree

/-! ### Open elements -/

/-- **The path of the open elements** after some events, the outermost one first: the events
are those of complete trees, and then those of an element that has begun, with the other open
elements inside. -/
inductive IsOpenPath : (path : List Element) → List Event → Prop
  /-- Nothing is open behind complete trees. -/
  | outside (ts : List ElementTree) : IsOpenPath [] (eventsOf ts)
  /-- An element has begun behind complete trees, and the path goes on inside. -/
  | inside (ts : List ElementTree) (e : Element) {path : List Element} {es : List Event}
    (h : IsOpenPath path es) : IsOpenPath (e :: path) (eventsOf ts ++ .start e :: es)

/-- Complete trees leave the open elements as they were. -/
theorem foldl_openAfter_eventsOf (ts : List ElementTree) (stack : List Element) :
    (eventsOf ts).foldl openAfter stack = stack := by
  induction ts using forestInduction generalizing stack with
  | nil => rfl
  | cons e kids ts ihKids ih =>
    rw [eventsOf_cons, List.foldl_cons, List.foldl_append, List.foldl_cons, ihKids, ih]
    rfl

namespace IsOpenPath

variable {path : List Element} {es : List Event}

/-- More trees may come first. -/
theorem after (h : IsOpenPath path es) (ts : List ElementTree) :
    IsOpenPath path (eventsOf ts ++ es) := by
  cases h with
  | outside ts' =>
    rw [← eventsOf_append]
    exact .outside _
  | inside ts' e h =>
    rw [← List.append_assoc, ← eventsOf_append]
    exact .inside _ e h

/-- **Open elements** by the path: they are put on a stack, one after the other. -/
theorem foldl_openAfter (h : IsOpenPath path es) (stack : List Element) :
    es.foldl openAfter stack = path.reverse ++ stack := by
  induction h generalizing stack with
  | outside ts => exact foldl_openAfter_eventsOf ts stack
  | inside ts e h ih =>
    rw [List.foldl_append, foldl_openAfter_eventsOf, List.foldl_cons, ih, List.reverse_cons,
      List.append_assoc, List.singleton_append]
    rfl

/-- **There is one path** of open elements at most. -/
theorem eq_reverse (h : IsOpenPath path es) :
    path = (openElements es).reverse := by
  rw [openElements, h.foldl_openAfter, List.append_nil, List.reverse_reverse]

end IsOpenPath

/-- **The beginning of trees has a path** of open elements. -/
theorem exists_isOpenPath {ts : List ElementTree} {es : List Event} (h : es <+: eventsOf ts) :
    ∃ path, IsOpenPath path es := by
  induction ts using forestInduction generalizing es with
  | nil =>
    rw [eventsOf, List.prefix_nil] at h
    exact ⟨[], h ▸ .outside []⟩
  | cons e kids ts ihKids ih =>
    have hinside : ∀ inner, inner <+: eventsOf kids →
        ∃ path, IsOpenPath path (.start e :: inner) := by
      intro inner hinner
      obtain ⟨path, hpath⟩ := ihKids hinner
      exact ⟨e :: path, .inside [] e hpath⟩
    rw [eventsOf_cons, List.prefix_cons_iff] at h
    obtain rfl | ⟨inner, rfl, rest, hrest⟩ := h
    · exact ⟨[], .outside []⟩
    · obtain ⟨more, hkids, -⟩ | ⟨more, rfl, hmore⟩ := List.append_eq_append_iff.1 hrest
      · exact hinside inner ⟨more, hkids.symm⟩
      · cases more with
        | nil =>
          rw [List.append_nil]
          exact hinside _ List.prefix_rfl
        | cons event more =>
          -- the first element has ended, and is one more tree ahead of what is left
          obtain ⟨rfl, hts⟩ := List.cons.inj hmore
          obtain ⟨path, hpath⟩ := ih ⟨rest, hts.symm⟩
          refine ⟨path, ?_⟩
          have hfirst := hpath.after [node e kids]
          rwa [eventsOf_singleton, events, List.cons_append, List.append_assoc,
            List.singleton_append] at hfirst

/-- The path of the open elements of trees is the one that is kept on the stack. -/
theorem isOpenPath_iff {ts : List ElementTree} {es : List Event} (h : es <+: eventsOf ts)
    {path : List Element} : IsOpenPath path es ↔ path = (openElements es).reverse := by
  refine ⟨IsOpenPath.eq_reverse, ?_⟩
  rintro rfl
  obtain ⟨path, hpath⟩ := exists_isOpenPath h
  rwa [← hpath.eq_reverse]

/-- **Inside a tree**, some element is open wherever another one begins. -/
theorem openElements_ne_nil {t : ElementTree} {before : List Event} {e : Element}
    (hbefore : before ≠ []) (h : before ++ [.start e] <+: t.events) : openElements before ≠ [] := by
  obtain ⟨root, kids⟩ := t
  cases before with
  | nil => exact absurd rfl hbefore
  | cons event inner =>
    rw [events, List.cons_append, List.cons_prefix_cons, List.prefix_concat_iff] at h
    obtain ⟨rfl, hlast | hinner⟩ := h
    · -- the last event of the tree is that it ends
      cases (List.append_inj' hlast rfl).2
    · obtain ⟨path, hpath⟩ := exists_isOpenPath ((List.prefix_append _ _).trans hinner)
      have hopen : openElements (.start root :: inner) = path.reverse ++ [root] :=
        hpath.foldl_openAfter [root]
      rw [hopen]
      exact List.append_ne_nil_of_right_ne_nil _ (List.cons_ne_nil _ _)

/-! ### The path of a draft -/

/-- **A path of parts**, the innermost one first: each part is directly inside the one that
encloses it. -/
def IsNested : List Part → Prop
  | [] => True
  | part :: path => path.head? = part.parent? ∧ IsNested path

/-- The parts around a part, the innermost one first. -/
def Part.around : Part → List Part
  | .problem => []
  | .tensorC | .tensorA | .tensorB | .operation | .profile => [.problem]
  | .assignmentA | .assignmentB => [.operation, .problem]

/-- The paths of tags: nothing is open, the problem is, and a part in it may be; and in the
operation, an assignment. -/
def tagPaths : List (List String) :=
  [[], ["P"], ["P", "TC"], ["P", "TA"], ["P", "TB"], ["P", "O"], ["P", "DP"], ["P", "O", "IA"],
    ["P", "O", "IB"]]

namespace Draft

/-- The tags of the open parts, the outermost one first. -/
def opened (d : Draft) : List String :=
  (d.path.map Part.tag).reverse

variable {d d' : Draft} {es : List Event}

/-- What is done to a draft once a place is filled may be done later. -/
theorem map_fill {α : Type} {read : Except DecodeError α} {part : Part} {place : Option α}
    {put put' : Option α → Draft} {f : Draft → Draft}
    (hput : ∀ filled, put' filled = f (put filled)) :
    (do let x ← read
        let filled ← fill part place x
        return put' filled) =
      (do let x ← read
          let filled ← fill part place x
          return put filled).map f := by
  cases read with
  | error err => rfl
  | ok x =>
    cases place with
    | none => exact congrArg Except.ok (hput (some x))
    | some y => rfl

/-- What is read into a draft does not depend on its path, which stays as it is. -/
theorem readPart_withPath (d : Draft) (path : List Part) (e : Element) (part : Part) :
    { d with path := path }.readPart e part =
      (d.readPart e part).map fun filled => { filled with path := path } := by
  cases part
  case problem =>
    simp only [readPart]
    split <;> rfl
  all_goals exact map_fill fun _ => rfl

theorem path_readPart {e : Element} {part : Part} (h : d.readPart e part = .ok d') :
    d'.path = d.path := by
  have hsame : d.readPart e part =
      (d.readPart e part).map fun filled => { filled with path := d.path } :=
    readPart_withPath d d.path e part
  rw [h] at hsame
  rw [Except.ok.inj hsame]

/-- A step keeps parts nested. -/
theorem isNested_step (h : IsNested d.path) {event : Event} (hstep : d.step event = .ok d') :
    IsNested d'.path := by
  cases event with
  | stop =>
    obtain rfl := Except.ok.inj hstep
    cases hpath : d.path with
    | nil => exact trivial
    | cons part path =>
      rw [hpath] at h
      exact h.2
  | start e =>
    obtain ⟨part, filled, -, hplace, hread, rfl⟩ := step_start_eq_ok_iff.1 hstep
    have hpath : filled.path = d.path := path_readPart hread
    exact ⟨hpath ▸ hplace, hpath ▸ h⟩

/-- **Steps** keep parts nested. -/
theorem isNested_drafts (h : IsNested d.path) (hdrafts : Drafts d es d') : IsNested d'.path := by
  induction es generalizing d with
  | nil =>
    obtain rfl := Drafts.nil_iff.1 hdrafts
    exact h
  | cons event es ih =>
    obtain ⟨next, hstep, hrest⟩ := Drafts.cons_iff.1 hdrafts
    exact ih (isNested_step h hstep) hrest

end Draft

/-- **A nested path is told by its innermost part.** -/
theorem IsNested.eq_around {part : Part} {path : List Part} (h : IsNested (part :: path)) :
    path = part.around := by
  induction path generalizing part with
  | nil =>
    obtain ⟨hplace, -⟩ := h
    cases part <;> first | rfl | cases hplace
  | cons outer path ih =>
    obtain ⟨hplace, hpath⟩ := h
    rw [ih hpath]
    cases part <;> cases hplace <;> rfl

/-- **There are nine paths**: nothing is open, or one of the eight parts and those around it. -/
theorem IsNested.mem_tagPaths {path : List Part} (h : IsNested path) :
    (path.map Part.tag).reverse ∈ tagPaths := by
  cases path with
  | nil => decide
  | cons part path =>
    rw [h.eq_around]
    cases part <;> decide

/-- **The path of a draft** has the tags of the open elements. -/
theorem Draft.Follows.opened_eq {d : Draft} {es : List Event} (h : d.Follows es) :
    d.opened = (openElements es).reverse.map Element.tag := by
  have htags : List.Forall₂ (fun e part => Element.tag e = Part.tag part) (openElements es)
      d.path := by
    have hparts := h.path
    rw [← List.forall₂_eq_eq_eq, List.forall₂_map_left_iff, List.forall₂_map_right_iff] at hparts
    exact hparts.imp fun _ _ hpart => Part.ofTag?_eq_some_iff.1 hpart
  have hmaps : (openElements es).map Element.tag = d.path.map Part.tag := by
    rwa [← List.forall₂_eq_eq_eq, List.forall₂_map_left_iff, List.forall₂_map_right_iff]
  rw [opened, ← hmaps, List.map_reverse]

end Encoding

end TensorContraction
