import TensorContraction.Proofs.Encoding.DraftStep
import TensorContraction.Proofs.Lookup
import TensorContraction.Proofs.Markup.Tree

/-!
# What a draft records

A draft has a place for every part, to be filled once, and a path of open parts. This file
says what it holds after the beginning of a walk through trees of elements: for every part
what was read from the element with the tag of the part, if there was one, no tag having
occurred twice (`TensorContraction.Encoding.Draft.Records`).

That is an invariant that determines the draft up to its path. So a walk through whole
trees is characterized without any draft: the elements are parts in their places, and they
are recorded together with the earlier ones
(`TensorContraction.Encoding.Draft.Records.drafts_eventsOf_iff`).
-/

namespace TensorContraction

namespace Encoding

open Markup Markup.ElementTree

/-! ### Tags -/

/-- The part that an element holds is told by the tag. -/
theorem Part.ofTag?_eq_some_iff {tag : String} {part : Part} :
    Part.ofTag? tag = some part ↔ tag = part.tag := by
  constructor
  · intro h
    exact (beq_iff_eq.1 (List.find?_some (p := fun part : Part => part.tag == tag) h)).symm
  · rintro rfl
    exact Part.ofTag?_tag part

theorem Part.tag_inj {part part' : Part} (h : part.tag = part'.tag) : part = part' := by
  have hpart := Part.ofTag?_tag part
  rw [h, Part.ofTag?_tag] at hpart
  exact (Option.some.inj hpart).symm

/-- The element that holds a part, the first one if there are several. -/
def holder? (es : List Element) (part : Part) : Option Element :=
  es.find? fun e => e.tag == part.tag

section

variable {es es' : List Element} {e : Element} {part : Part}

theorem holder?_append (es es' : List Element) (part : Part) :
    holder? (es ++ es') part = (holder? es part).or (holder? es' part) :=
  List.find?_append

theorem tag_of_holder? (h : holder? es part = some e) : e.tag = part.tag :=
  beq_iff_eq.1 (List.find?_some (p := fun e : Element => e.tag == part.tag) h)

theorem mem_of_holder? (h : holder? es part = some e) : e ∈ es :=
  List.mem_of_find?_eq_some h

theorem holder?_eq_none_iff : holder? es part = none ↔ part.tag ∉ es.map Element.tag := by
  rw [holder?, List.find?_eq_none]
  simp only [beq_iff_eq, List.mem_map, not_exists, not_and]

theorem isSome_holder?_iff :
    (holder? es part).isSome = true ↔ part.tag ∈ es.map Element.tag := by
  rw [← not_iff_not, Option.not_isSome_iff_eq_none, holder?_eq_none_iff]

/-- Among elements with different tags, an element holds the part that its tag names. -/
theorem holder?_eq_some_iff (hes : (es.map Element.tag).Nodup) :
    holder? es part = some e ↔ e ∈ es ∧ e.tag = part.tag :=
  find?_key_eq_some_iff Element.tag hes

theorem holder?_singleton_self (htag : e.tag = part.tag) : holder? [e] part = some e := by
  rw [holder?, List.find?_cons, htag, beq_self_eq_true]

theorem holder?_singleton_of_ne {other : Part} (htag : e.tag = part.tag) (hne : other ≠ part) :
    holder? [e] other = none := by
  refine holder?_eq_none_iff.2 fun h => hne (Part.tag_inj ?_)
  rw [← htag, ← List.mem_singleton.1 h]

end

/-! ### Places -/

/-- A place of a draft holds what was read from an element, if there was one. -/
def ReadsInto {α : Type} (read : Element → Except DecodeError α) (e? : Option Element)
    (place : Option α) : Prop :=
  match e? with
  | none => place = none
  | some e => ∃ x, read e = .ok x ∧ place = some x

namespace ReadsInto

variable {α : Type} {read : Element → Except DecodeError α} {e? : Option Element}
  {place place' : Option α}

theorem unique (h : ReadsInto read e? place) (h' : ReadsInto read e? place') : place = place' := by
  cases e? with
  | none => exact h.trans h'.symm
  | some e =>
    obtain ⟨x, hx, rfl⟩ := h
    obtain ⟨x', hx', rfl⟩ := h'
    rw [hx] at hx'
    exact congrArg some (Except.ok.inj hx')

/-- What was read from the elements up to some point. -/
theorem before {later? : Option Element} (h : ReadsInto read (e?.or later?) place) :
    ∃ place', ReadsInto read e? place' := by
  cases e? with
  | none => exact ⟨none, rfl⟩
  | some e => exact ⟨place, h⟩

/-- **A place is filled** if and only if it was empty and the element can be read. -/
theorem fill_eq_ok_iff (h : ReadsInto read e? place) {part : Part} {e : Element}
    {put : Option α → Draft} {d' : Draft} :
    (do let x ← read e
        let filled ← Draft.fill part place x
        return put filled) = .ok d' ↔
      e? = none ∧ ∃ filled, ReadsInto read (some e) filled ∧ put filled = d' := by
  rw [bind_eq_ok_iff]
  constructor
  · rintro ⟨x, hx, hfill⟩
    obtain ⟨filled, hfilled, hput⟩ := bind_eq_ok_iff.1 hfill
    cases e? with
    | none =>
      obtain rfl : place = none := h
      obtain rfl : some x = filled := Except.ok.inj hfilled
      exact ⟨rfl, some x, ⟨x, hx, rfl⟩, Except.ok.inj hput⟩
    | some e' =>
      obtain ⟨x', -, rfl⟩ := h
      cases hfilled
  · rintro ⟨rfl, filled, ⟨x, hx, rfl⟩, rfl⟩
    obtain rfl : place = none := h
    exact ⟨x, hx, rfl⟩

end ReadsInto

namespace Draft

/-- **The place for a part** holds what was read from an element, if there was one. -/
def Holds (d : Draft) : Part → Option Element → Prop
  | .problem, e? => d.begun = e?.isSome
  | .tensorC, e? => ReadsInto readTensor e? d.c
  | .tensorA, e? => ReadsInto readTensor e? d.a
  | .tensorB, e? => ReadsInto readTensor e? d.b
  | .operation, e? => ReadsInto readOperation e? d.operation
  | .assignmentA, e? => ReadsInto readAssignment e? d.idsA
  | .assignmentB, e? => ReadsInto readAssignment e? d.idsB
  | .profile, e? => ReadsInto readProfile e? d.profile

/-- **A draft records elements**: no two of them have the same tag, and each part was read
from the element that holds it. -/
structure Records (d : Draft) (es : List Element) : Prop where
  /-- No tag occurs twice. -/
  nodup : (es.map Element.tag).Nodup
  /-- The places hold what was read. -/
  holds : ∀ part, d.Holds part (holder? es part)

variable {d d' : Draft} {es es' : List Element} {e : Element} {part : Part}

/-- Nothing has been read into a blank draft. -/
theorem records_blank : Records .blank [] where
  nodup := List.nodup_nil
  holds part := by cases part <;> rfl

/-- The path does not matter. -/
theorem Records.withPath (h : d.Records es) (path : List Part) :
    Records { d with path := path } es where
  nodup := h.nodup
  holds part := by
    have hpart := h.holds part
    cases part <;> exact hpart

/-- **What is recorded determines the draft**, up to its path. -/
theorem Records.unique (h : d.Records es) (h' : d'.Records es) (hpath : d.path = d'.path) :
    d = d' := by
  have hbegun : d.begun = d'.begun := (h.holds .problem).trans (h'.holds .problem).symm
  have hc := (h.holds .tensorC).unique (h'.holds .tensorC)
  have ha := (h.holds .tensorA).unique (h'.holds .tensorA)
  have hb := (h.holds .tensorB).unique (h'.holds .tensorB)
  have hoperation := (h.holds .operation).unique (h'.holds .operation)
  have hidsA := (h.holds .assignmentA).unique (h'.holds .assignmentA)
  have hidsB := (h.holds .assignmentB).unique (h'.holds .assignmentB)
  have hprofile := (h.holds .profile).unique (h'.holds .profile)
  cases d
  cases d'
  simp only at hpath hbegun hc ha hb hoperation hidsA hidsB hprofile
  subst hpath hbegun hc ha hb hoperation hidsA hidsB hprofile
  rfl

/-- **The draft at an earlier point**, at any place. -/
theorem Records.before (h : d.Records (es ++ es')) (path : List Part) :
    ∃ earlier : Draft, earlier.path = path ∧ earlier.Records es := by
  have hholds : ∀ part, d.Holds part ((holder? es part).or (holder? es' part)) := fun part =>
    holder?_append es es' part ▸ h.holds part
  obtain ⟨c, hc⟩ := (hholds .tensorC).before
  obtain ⟨a, ha⟩ := (hholds .tensorA).before
  obtain ⟨b, hb⟩ := (hholds .tensorB).before
  obtain ⟨operation, hoperation⟩ := (hholds .operation).before
  obtain ⟨idsA, hidsA⟩ := (hholds .assignmentA).before
  obtain ⟨idsB, hidsB⟩ := (hholds .assignmentB).before
  obtain ⟨profile, hprofile⟩ := (hholds .profile).before
  refine ⟨⟨path, (holder? es .problem).isSome, c, a, b, operation, idsA, idsB, profile⟩, rfl, ?_,
    fun part => ?_⟩
  · have hnodup := h.nodup
    rw [List.map_append] at hnodup
    exact hnodup.of_append_left
  · cases part with
    | problem => rfl
    | tensorC => exact hc
    | tensorA => exact ha
    | tensorB => exact hb
    | operation => exact hoperation
    | assignmentA => exact hidsA
    | assignmentB => exact hidsB
    | profile => exact hprofile

/-! ### Elements -/

/-- **What reading a part does**: its place was empty, and holds what was read; the other
places are as they were. -/
theorem readPart_spec {e? : Option Element} (hplace : d.Holds part e?)
    (h : d.readPart e part = .ok d') :
    e? = none ∧ d'.path = d.path ∧ d'.Holds part (some e) ∧
      ∀ other, other ≠ part → ∀ e?, d.Holds other e? → d'.Holds other e? := by
  -- the problem itself has no value to be read; the other seven parts are alike
  cases part
  case problem =>
    obtain ⟨hbegun, hfilled⟩ := guard_eq_ok_iff.1 h
    obtain rfl := Except.ok.inj hfilled
    refine ⟨?_, rfl, rfl, fun other hne e? hother => ?_⟩
    · rw [hplace] at hbegun
      exact Option.not_isSome_iff_eq_none.1 hbegun
    · cases other <;> first | exact absurd rfl hne | exact hother
  all_goals
    obtain ⟨hnone, filled, hfilled, rfl⟩ := (ReadsInto.fill_eq_ok_iff hplace).1 h
    refine ⟨hnone, rfl, hfilled, fun other hne e? hother => ?_⟩
    cases other <;> first | exact absurd rfl hne | exact hother

/-- A part can be read into an empty place if the element can be read. -/
theorem exists_readPart {e? : Option Element} (hplace : d.Holds part e?) (hnone : e? = none)
    (h : d'.Holds part (some e)) : ∃ filled, d.readPart e part = .ok filled := by
  cases part
  case problem =>
    have hbegun : ¬d.begun = true := by
      rw [hplace, hnone]
      exact Bool.false_ne_true
    exact ⟨_, guard_eq_ok_iff.2 ⟨hbegun, rfl⟩⟩
  all_goals
    obtain ⟨x, hx, -⟩ := h
    exact ⟨_, (ReadsInto.fill_eq_ok_iff hplace).2 ⟨hnone, some x, ⟨x, hx, rfl⟩, rfl⟩⟩

/-- **A part is read** if and only if it can be recorded with the earlier elements. -/
theorem Records.readPart_eq_ok_iff (h : d.Records es) (htag : e.tag = part.tag) :
    d.readPart e part = .ok d' ↔ d'.path = d.path ∧ d'.Records (es ++ [e]) := by
  have hforward : ∀ {d'}, d.readPart e part = .ok d' →
      d'.path = d.path ∧ d'.Records (es ++ [e]) := by
    intro d' hread
    obtain ⟨hnone, hpath, hpart, hothers⟩ := readPart_spec (h.holds part) hread
    refine ⟨hpath, ?_, fun other => ?_⟩
    -- the place was empty, so no earlier element has the tag
    · rw [List.map_append, List.nodup_append]
      refine ⟨h.nodup, List.nodup_singleton _, ?_⟩
      rintro tag htags tag' htag' rfl
      rw [List.map_singleton, List.mem_singleton] at htag'
      rw [htag', htag] at htags
      exact holder?_eq_none_iff.1 hnone htags
    · rw [holder?_append]
      by_cases hother : other = part
      · rw [hother, hnone, Option.none_or, holder?_singleton_self htag]
        exact hpart
      · rw [holder?_singleton_of_ne htag hother, Option.or_none]
        exact hothers other hother _ (h.holds other)
  refine ⟨hforward, ?_⟩
  rintro ⟨hpath, hrecords⟩
  -- the draft that is claimed and the one that is read record the same
  have hnone : holder? es part = none := by
    refine holder?_eq_none_iff.2 fun htags => ?_
    have hnodup := hrecords.nodup
    rw [List.map_append, List.nodup_append] at hnodup
    exact hnodup.2.2 _ htags e.tag (List.mem_singleton_self _) htag.symm
  have hpart := hrecords.holds part
  rw [holder?_append, hnone, Option.none_or, holder?_singleton_self htag] at hpart
  obtain ⟨filled, hread⟩ := exists_readPart (h.holds part) hnone hpart
  obtain ⟨hpath', hrecords'⟩ := hforward hread
  rw [hread, hrecords'.unique hrecords (hpath'.trans hpath.symm)]

end Draft

/-! ### Trees -/

mutual

/-- **A tree in its place**: every element is a part, directly inside the part that
encloses it. -/
def IsPlaced : ElementTree → (place : Option Part) → Prop
  | .node e kids, place =>
    ∃ part : Part, e.tag = part.tag ∧ part.parent? = place ∧ ArePlaced kids (some part)

/-- Trees that are in their place, side by side. -/
def ArePlaced : List ElementTree → (place : Option Part) → Prop
  | [], _ => True
  | t :: ts, place => IsPlaced t place ∧ ArePlaced ts place

end

theorem arePlaced_cons_iff {t : ElementTree} {ts : List ElementTree} {place : Option Part} :
    ArePlaced (t :: ts) place ↔ IsPlaced t place ∧ ArePlaced ts place := by
  rw [ArePlaced]

theorem isPlaced_node_iff {e : Element} {kids : List ElementTree} {place : Option Part} :
    IsPlaced (.node e kids) place ↔
      ∃ part : Part, e.tag = part.tag ∧ part.parent? = place ∧ ArePlaced kids (some part) := by
  rw [IsPlaced]

theorem arePlaced_iff {ts : List ElementTree} {place : Option Part} :
    ArePlaced ts place ↔ ∀ t ∈ ts, IsPlaced t place := by
  induction ts with
  | nil => simp [ArePlaced]
  | cons t ts ih => rw [arePlaced_cons_iff, ih, List.forall_mem_cons]

/-- **A walk through trees** leads from a draft to another if and only if the trees are in
their place, and the other draft records their elements as well and is at the same place
again. -/
theorem Draft.Records.drafts_eventsOf_iff {ts : List ElementTree} {d : Draft} {es : List Element}
    (h : d.Records es) {d' : Draft} :
    Drafts d (eventsOf ts) d' ↔
      ArePlaced ts d.path.head? ∧ d'.path = d.path ∧ d'.Records (es ++ elementsOf ts) := by
  induction ts using forestInduction generalizing d es d' with
  | nil =>
    rw [eventsOf, Drafts.nil_iff, ArePlaced, true_and, elementsOf, List.append_nil]
    constructor
    · rintro rfl
      exact ⟨rfl, h⟩
    · rintro ⟨hpath, hrecords⟩
      exact h.unique hrecords hpath.symm
  | cons e kids ts ihKids ih =>
    have helements : es ++ elementsOf (.node e kids :: ts) =
        es ++ [e] ++ elementsOf kids ++ elementsOf ts := by
      rw [elementsOf_cons, List.append_assoc, List.append_assoc, List.singleton_append]
    rw [eventsOf_cons, Drafts.cons_iff, arePlaced_cons_iff, isPlaced_node_iff, helements]
    constructor
    -- the root is read, what it holds is walked through, and its end restores the path
    · rintro ⟨started, hstart, hrest⟩
      obtain ⟨part, filled, hpart, hplace, hread, rfl⟩ := Draft.step_start_eq_ok_iff.1 hstart
      have htag := Part.ofTag?_eq_some_iff.1 hpart
      obtain ⟨hpath, hfilled⟩ := (h.readPart_eq_ok_iff htag).1 hread
      obtain ⟨inner, hinner, hrest⟩ := Drafts.append_iff.1 hrest
      obtain ⟨outer, houter, hrest⟩ := Drafts.cons_iff.1 hrest
      obtain rfl := Except.ok.inj houter
      obtain ⟨hkids, hpathInner, hrecordsInner⟩ := (ihKids (hfilled.withPath _)).1 hinner
      obtain ⟨hts, hpath', hrecords⟩ := (ih (hrecordsInner.withPath _)).1 hrest
      have htail : inner.path.tail = d.path := by rw [hpathInner, List.tail_cons, hpath]
      rw [htail] at hts hpath'
      exact ⟨⟨⟨part, htag, hplace.symm, hkids⟩, hts⟩, hpath', hrecords⟩
    -- the drafts on the way are those that record the elements up to there
    · rintro ⟨⟨⟨part, htag, hplace, hkids⟩, hts⟩, hpath', hrecords⟩
      obtain ⟨inner, hpathInner, hrecordsInner⟩ := hrecords.before (part :: d.path)
      obtain ⟨filled, hpath, hfilled⟩ := hrecordsInner.before d.path
      have hread := (h.readPart_eq_ok_iff htag).2 ⟨hpath, hfilled⟩
      refine ⟨_, Draft.step_start_eq_ok_iff.2 ⟨part, filled, Part.ofTag?_eq_some_iff.2 htag,
        hplace.symm, hread, rfl⟩, ?_⟩
      refine Drafts.append_iff.2 ⟨inner, (ihKids (hfilled.withPath _)).2 ⟨hkids, ?_,
        hrecordsInner⟩, .stop ?_⟩
      · rw [hpathInner, hpath]
      · have htail : inner.path.tail = d.path := by rw [hpathInner, List.tail_cons]
        rw [htail]
        exact (ih (hrecordsInner.withPath _)).2 ⟨hts, hpath', hrecords⟩

end Encoding

end TensorContraction
