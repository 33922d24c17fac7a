import TensorContraction.Proofs.Encoding.OpenPath

/-!
# Reading by tags

A draft finds the part that an element holds once, and goes by the part from then on. A
reader may go by the tag instead: it keeps the tags of the open elements, compares the
innermost one with the tag that has to enclose an element, and looks at the tag of the
element a second time for what to read (`TensorContraction.Encoding.decodeByTag`). In both
places it has to say what it does with a tag that no part has. In the second one there is
nothing that it could do, and it has no result.

It never comes to that: reading by tags always has a result, the one of reading by parts
(`TensorContraction.Encoding.yields_decodeByTag`).
-/

namespace TensorContraction

namespace Encoding

open Markup

/-! ### The reader -/

/-- What a reader that goes by tags has read. -/
structure TagDraft where
  /-- The tags of the open elements, the outermost one first. -/
  opened : List String
  /-- The parts that have been read. -/
  parts : Draft

/-- The tag that has to enclose an element, by the tag of the element. -/
def expectedTag (tag : String) : Except DecodeError (Option String) :=
  match tag with
  | "P" => .ok none
  | "TC" | "TA" | "TB" | "O" | "DP" => .ok (some "P")
  | "IA" | "IB" => .ok (some "O")
  | other => .error (.malformed ("unexpected element <" ++ other ++ ">"))

/-- How a place is called, by the tag of the element that encloses it. -/
def describeTag : Option String → String
  | some tag => "<" ++ tag ++ ">"
  | none => "the document root"

/-- Checks the tag that encloses an element. -/
def checkPlace (tag : String) (found : Option String) : Except DecodeError Unit := do
  let expected ← expectedTag tag
  if found = expected then .ok ()
  else .error (.malformed ("<" ++ tag ++ "> found under " ++ describeTag found ++ ", expected " ++
    describeTag expected))

/-- Reads what an element holds, by the tag of the element. For a tag that no part has, there
is no result. -/
def readByTag (d : Draft) (e : Element) : ExceptT DecodeError Option Draft :=
  match e.tag with
  | "P" => .mk (some (d.readPart e .problem))
  | "TC" => .mk (some (d.readPart e .tensorC))
  | "TA" => .mk (some (d.readPart e .tensorA))
  | "TB" => .mk (some (d.readPart e .tensorB))
  | "O" => .mk (some (d.readPart e .operation))
  | "IA" => .mk (some (d.readPart e .assignmentA))
  | "IB" => .mk (some (d.readPart e .assignmentB))
  | "DP" => .mk (some (d.readPart e .profile))
  | _ => .mk none

/-- What has been read after an event. -/
def TagDraft.step (s : TagDraft) : Event → ExceptT DecodeError Option TagDraft
  | .stop => pure { s with opened := s.opened.dropLast }
  | .start e => do
    let () ← .mk (some (checkPlace e.tag s.opened.getLast?))
    let parts ← readByTag s.parts e
    return ⟨s.opened ++ [e.tag], parts⟩

/-- **Reads a problem by tags**: the tag of an element is looked at for the place of the
element, and once more for what it holds. -/
def decodeByTag (report : String → Report) (text : String) :
    ExceptT DecodeError Option Problem := do
  let reported := report text
  let s ← reported.events.foldlM TagDraft.step ⟨[], .blank⟩
  .mk (some (if reported.isComplete then s.parts.finish else .error .notWellFormed))

/-! ### Both readers -/

/-- A draft as a reader by tags has it: the path is that of the tags. -/
def Draft.byTag (d : Draft) : TagDraft :=
  ⟨d.opened, { d with path := [] }⟩

theorem expectedTag_tag (part : Part) :
    expectedTag part.tag = .ok (part.parent?.map Part.tag) := by
  cases part <;> rfl

theorem expectedTag_of_ofTag?_eq_none {tag : String} (h : Part.ofTag? tag = none) :
    expectedTag tag = .error (.unexpected tag) := by
  unfold expectedTag
  split
  case h_9 => rfl
  all_goals exact absurd h (by decide)

theorem describeTag_map (place : Option Part) :
    describeTag (place.map Part.tag) = DecodeError.describePlace place := by
  cases place <;> rfl

/-- **The place of an element** is checked by tags as it is by parts. -/
theorem checkPlace_eq (d : Draft) (e : Element) :
    checkPlace e.tag d.opened.getLast? = (d.partOf e).map fun _ => () := by
  have hlast : d.opened.getLast? = d.path.head?.map Part.tag := by
    rw [Draft.opened, List.getLast?_reverse, List.head?_map]
  rw [checkPlace, hlast, Draft.partOf]
  cases hpart : Part.ofTag? e.tag with
  | none =>
    rw [expectedTag_of_ofTag?_eq_none hpart]
    rfl
  | some part =>
    have hsame : d.path.head?.map Part.tag = part.parent?.map Part.tag ↔
        d.path.head? = part.parent? :=
      (Option.map_injective fun _ _ => Part.tag_inj).eq_iff
    rw [Part.ofTag?_eq_some_iff.1 hpart, expectedTag_tag]
    simp only [bind, Except.bind, hsame, describeTag_map]
    split <;> rfl

theorem yields_readByTag (d : Draft) {e : Element} {part : Part} (htag : e.tag = part.tag) :
    Yields (readByTag d e) (d.readPart e part) := by
  rw [readByTag, htag]
  cases part <;> rfl

/-- **An element that is taken**, as a reader by tags has it. -/
theorem map_byTag_step_start {d : Draft} {e : Element} {part : Part}
    (hpart : d.partOf e = .ok part) :
    (d.step (.start e)).map Draft.byTag =
      (d.byTag.parts.readPart e part).map fun parts => ⟨d.byTag.opened ++ [e.tag], parts⟩ := by
  have htag := Part.ofTag?_eq_some_iff.1 (Draft.partOf_eq_ok_iff.1 hpart).1
  have hread := Draft.readPart_withPath d [] e part
  rw [Draft.step, hpart, Draft.byTag, hread]
  cases hfilled : d.readPart e part with
  | error err =>
    simp only [bind, Except.bind, hfilled]
    rfl
  | ok filled =>
    have hopened : { filled with path := part :: filled.path }.opened = d.opened ++ [e.tag] := by
      rw [Draft.opened, Draft.opened, Draft.path_readPart hfilled, htag, List.map_cons,
        List.reverse_cons]
    simp only [bind, Except.bind, hfilled]
    exact congrArg (fun opened => Except.ok (TagDraft.mk opened _)) hopened

/-- **A step by tags has a result**, which is that of the step by parts. -/
theorem yields_step (d : Draft) (event : Event) :
    Yields (d.byTag.step event) ((d.step event).map Draft.byTag) := by
  cases event with
  | stop =>
    have hopened : d.opened.dropLast = { d with path := d.path.tail }.opened := by
      rw [Draft.opened, Draft.opened, List.dropLast_reverse, List.map_tail]
    exact congrArg (fun opened => some (Except.ok (TagDraft.mk opened _))) hopened
  | start e =>
    have hplace : checkPlace e.tag d.byTag.opened.getLast? = (d.partOf e).map fun _ => () :=
      checkPlace_eq d e
    rw [TagDraft.step, hplace]
    cases hpart : d.partOf e with
    | error err =>
      rw [Draft.step, hpart]
      rfl
    | ok part =>
      have htag := Part.ofTag?_eq_some_iff.1 (Draft.partOf_eq_ok_iff.1 hpart).1
      rw [map_byTag_step_start hpart]
      exact (yields_readByTag d.byTag.parts htag).map _

/-- **Steps by tags have a result.** -/
theorem yields_drafts (d : Draft) (es : List Event) :
    Yields (es.foldlM TagDraft.step d.byTag) ((es.foldlM Draft.step d).map Draft.byTag) := by
  induction es generalizing d with
  | nil => exact .pure _
  | cons event es ih =>
    rw [List.foldlM_cons, List.foldlM_cons]
    have hstep := yields_step d event
    cases hnext : d.step event with
    | error err =>
      rw [hnext] at hstep
      exact hstep.bind_error
    | ok next =>
      rw [hnext] at hstep
      exact hstep.bind_ok (ih next)

/-- **Reading by tags has a result**: the second look at a tag always finds a part, since the
first one did. -/
theorem yields_decodeByTag (report : String → Report) (text : String) :
    Yields (decodeByTag report text) (decodeWith report text) := by
  have hdrafts := yields_drafts .blank (report text).events
  rw [decodeByTag, decodeWith, draft]
  cases hdraft : (report text).events.foldlM Draft.step .blank with
  | error err =>
    rw [hdraft] at hdrafts
    exact hdrafts.bind_error
  | ok d =>
    rw [hdraft] at hdrafts
    exact hdrafts.bind_ok rfl

end Encoding

end TensorContraction
