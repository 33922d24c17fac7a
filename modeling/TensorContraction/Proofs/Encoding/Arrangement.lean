import Mathlib.Data.List.Perm.Basic
import TensorContraction.Proofs.Encoding.Record

/-!
# Arrangements of parts

A draft only knows that every element is in its place, that no tag occurs twice and that
no part is missing. This file says what such trees look like: there is one, and it is an
arrangement of the eight parts in the form in which a problem is written, up to the order
of elements side by side (`TensorContraction.Encoding.exists_isArrangement_iff`).

That the parts inside a part are exactly those that belong there is a matter of depth. An
element that stands anywhere below a place is at the root there, or belongs deeper
(`TensorContraction.Encoding.exists_root_or_deeper`); so a part that belongs directly
inside another one is found there, if it is found at all.
-/

namespace TensorContraction

namespace Encoding

open Markup Markup.ElementTree

/-! ### Arrangements -/

/-- **An arrangement of parts**, given the elements that hold them: the problem encloses
the tensors, the operation and the devices in any order, the operation encloses the
assignments in any order, and nothing else encloses anything. -/
def IsArrangement (e : Part → Element) (t : ElementTree) : Prop :=
  (∀ part, (e part).tag = part.tag) ∧
    ∃ kids inner, t = .node (e .problem) kids ∧
      kids.Perm [leaf (e .tensorC), leaf (e .tensorA), leaf (e .tensorB),
        .node (e .operation) inner, leaf (e .profile)] ∧
      inner.Perm [leaf (e .assignmentA), leaf (e .assignmentB)]

/-! ### Depth -/

/-- How many parts enclose a part. -/
def Part.depth : Part → Nat
  | .problem => 0
  | .tensorC | .tensorA | .tensorB | .operation | .profile => 1
  | .assignmentA | .assignmentB => 2

/-- How many parts enclose what is directly inside a place. -/
def depthIn : Option Part → Nat
  | none => 0
  | some part => part.depth + 1

theorem Part.depth_eq {part : Part} {place : Option Part} (h : part.parent? = place) :
    part.depth = depthIn place := by
  subst h
  cases part <;> rfl

/-- **An element below a place** is the root of a tree there, or belongs deeper. -/
theorem exists_root_or_deeper {ts : List ElementTree} {place : Option Part} (h : ArePlaced ts place)
    {e : Element} {part : Part} (he : e ∈ elementsOf ts) (htag : e.tag = part.tag) :
    (∃ kids, .node e kids ∈ ts) ∨ depthIn place < part.depth := by
  induction ts using forestInduction generalizing place with
  | nil => cases he
  | cons root kids ts ihKids ih =>
    obtain ⟨hroot, hts⟩ := arePlaced_cons_iff.1 h
    obtain ⟨rootPart, hrootTag, hplace, hkids⟩ := isPlaced_node_iff.1 hroot
    rw [elementsOf_cons, List.mem_cons, List.mem_append] at he
    rcases he with rfl | he | he
    · exact .inl ⟨kids, List.mem_cons_self⟩
    -- inside the first tree, where its part is enclosed by one more than the trees are
    · have hdepth := Part.depth_eq hplace
      rcases ihKids hkids he with ⟨inner, hmem⟩ | hdeeper
      · obtain ⟨part', htag', hparent, -⟩ := isPlaced_node_iff.1 (arePlaced_iff.1 hkids _ hmem)
        obtain rfl := Part.tag_inj (htag.symm.trans htag')
        have hdepth' := Part.depth_eq hparent
        rw [depthIn] at hdepth'
        exact .inr (by omega)
      · rw [depthIn] at hdeeper
        exact .inr (by omega)
    -- beside the first tree
    · rcases ih hts he with ⟨inner, hmem⟩ | hdeeper
      · exact .inl ⟨inner, List.mem_cons_of_mem _ hmem⟩
      · exact .inr hdeeper

/-- A part that belongs to a place is at the root there. -/
theorem exists_root {ts : List ElementTree} {place : Option Part} (h : ArePlaced ts place)
    {e : Element} {part : Part} (he : e ∈ elementsOf ts) (htag : e.tag = part.tag)
    (hparent : part.parent? = place) : ∃ kids, .node e kids ∈ ts := by
  rcases exists_root_or_deeper h he htag with hroot | hdeeper
  · exact hroot
  · rw [Part.depth_eq hparent] at hdeeper
    exact absurd hdeeper (Nat.lt_irrefl _)

/-- Nothing belongs inside a part other than the problem and the operation. -/
theorem eq_nil_of_arePlaced {ts : List ElementTree} {part : Part} (h : ArePlaced ts (some part))
    (hpart : part ≠ .problem) (hpart' : part ≠ .operation) : ts = [] := by
  cases ts with
  | nil => rfl
  | cons t ts =>
    obtain ⟨e, kids⟩ := t
    obtain ⟨inner, -, hparent, -⟩ := isPlaced_node_iff.1 (arePlaced_cons_iff.1 h).1
    cases inner <;> cases hparent <;> contradiction

/-! ### The parts inside a part -/

/-- The roots of trees are among their elements. -/
theorem map_element_sublist (ts : List ElementTree) :
    (ts.map ElementTree.element).Sublist (elementsOf ts) := by
  induction ts with
  | nil => exact List.Sublist.slnil
  | cons t ts ih =>
    obtain ⟨e, kids⟩ := t
    rw [List.map_cons, elementsOf_cons]
    exact (ih.trans (List.sublist_append_right _ _)).cons_cons e

/-- **The trees in a place**, if no tag occurs twice and the parts that belong there are
not missing: one tree for each part. -/
theorem exists_perm (parts : List Part) {ts : List ElementTree} {place : Option Part}
    (h : ArePlaced ts place) (hnodup : ((elementsOf ts).map Element.tag).Nodup)
    (hparts : parts.Nodup)
    (hmem : ∀ part, part ∈ parts ↔ part.parent? = place) {e : Part → Element}
    (he : ∀ part ∈ parts, e part ∈ elementsOf ts) (htag : ∀ part, (e part).tag = part.tag) :
    ∃ inside : Part → List ElementTree,
      ts.Perm (parts.map fun part => .node (e part) (inside part)) ∧
        ∀ part ∈ parts, ArePlaced (inside part) (some part) := by
  have hroots : ∀ part, ∃ kids, part ∈ parts → .node (e part) kids ∈ ts := by
    intro part
    by_cases hpart : part ∈ parts
    · obtain ⟨kids, hkids⟩ := exists_root h (he part hpart) (htag part) ((hmem part).1 hpart)
      exact ⟨kids, fun _ => hkids⟩
    · exact ⟨[], fun hpart' => absurd hpart' hpart⟩
  choose inside hinside using hroots
  -- the roots have different tags, so that a tree is known by the tag of its root
  have htags : ((ts.map ElementTree.element).map Element.tag).Nodup :=
    hnodup.sublist ((map_element_sublist ts).map _)
  have hrootTag : ∀ {t t' : ElementTree}, t ∈ ts → t' ∈ ts →
      t.element.tag = t'.element.tag → t = t' := by
    intro t t' ht ht' heq
    rw [List.map_map] at htags
    exact List.inj_on_of_nodup_map htags ht ht' heq
  refine ⟨inside, (List.perm_ext_iff_of_nodup htags.of_map.of_map ?_).2 fun t => ⟨fun ht => ?_,
    fun ht => ?_⟩, fun part hpart => ?_⟩
  · refine hparts.map fun part part' heq => Part.tag_inj ?_
    rw [← htag part, ← htag part', (ElementTree.node.inj heq).1]
  · obtain ⟨root, kids⟩ := t
    obtain ⟨part, htagRoot, hparent, -⟩ := isPlaced_node_iff.1 (arePlaced_iff.1 h _ ht)
    have hpart := (hmem part).2 hparent
    rw [hrootTag ht (hinside part hpart) (htagRoot.trans (htag part).symm)]
    exact List.mem_map_of_mem hpart
  · obtain ⟨part, hpart, rfl⟩ := List.mem_map.1 ht
    exact hinside part hpart
  · obtain ⟨part', htag', -, hkids⟩ := isPlaced_node_iff.1
      (arePlaced_iff.1 h _ (hinside part hpart))
    rwa [← Part.tag_inj ((htag part).symm.trans htag')] at hkids

/-! ### From places to arrangements -/

theorem elements_sublist_of_mem {t : ElementTree} {ts : List ElementTree} (h : t ∈ ts) :
    t.elements.Sublist (elementsOf ts) := by
  rw [elementsOf_eq_flatMap, List.flatMap_def]
  exact List.sublist_flatten_of_mem (List.mem_map_of_mem h)

section

variable {e : Part → Element} (htag : ∀ part, (e part).tag = part.tag)
include htag

/-- Parts are held by different elements. -/
theorem part_eq_of_holder_eq {part part' : Part} (h : e part = e part') : part = part' :=
  Part.tag_inj (by rw [← htag part, ← htag part', h])

/-- The element of a part that is not the root of a tree is inside. -/
theorem mem_inside {part root : Part} {kids : List ElementTree}
    (h : e part ∈ (ElementTree.node (e root) kids).elements) (hne : part ≠ root) :
    e part ∈ elementsOf kids := by
  rw [elements, List.mem_cons] at h
  exact h.resolve_left fun heq => hne (part_eq_of_holder_eq htag heq)

/-- **The operation** encloses the assignments, if they are not missing. -/
theorem inner_perm {inner : List ElementTree} (h : ArePlaced inner (some .operation))
    (hnodup : ((elementsOf inner).map Element.tag).Nodup)
    (hA : e .assignmentA ∈ elementsOf inner) (hB : e .assignmentB ∈ elementsOf inner) :
    inner.Perm [leaf (e .assignmentA), leaf (e .assignmentB)] := by
  obtain ⟨inside, hperm, hinside⟩ := exists_perm [.assignmentA, .assignmentB] h hnodup
    (by decide) (fun part => by cases part <;> decide) (e := e) (by simp [hA, hB]) htag
  have hinsideA := eq_nil_of_arePlaced (hinside .assignmentA (by decide)) (by decide) (by decide)
  have hinsideB := eq_nil_of_arePlaced (hinside .assignmentB (by decide)) (by decide) (by decide)
  rwa [List.map_cons, List.map_singleton, hinsideA, hinsideB] at hperm

/-- **The problem** encloses the other parts, if they are not missing. -/
theorem kids_perm {kids : List ElementTree} (h : ArePlaced kids (some .problem))
    (hnodup : ((elementsOf kids).map Element.tag).Nodup)
    (he : ∀ part, part ≠ .problem → e part ∈ elementsOf kids) :
    ∃ inner, kids.Perm [leaf (e .tensorC), leaf (e .tensorA), leaf (e .tensorB),
        .node (e .operation) inner, leaf (e .profile)] ∧
      inner.Perm [leaf (e .assignmentA), leaf (e .assignmentB)] := by
  obtain ⟨inside, hperm, hinside⟩ := exists_perm
    [.tensorC, .tensorA, .tensorB, .operation, .profile] h hnodup
    (by decide) (fun part => by cases part <;> decide) (e := e)
    (fun part hpart => he part fun heq => by subst heq; revert hpart; decide) htag
  have hnil : ∀ part ∈ [Part.tensorC, .tensorA, .tensorB, .operation, .profile],
      part ≠ .operation → inside part = [] := fun part hpart hne =>
    eq_nil_of_arePlaced (hinside part hpart) (fun heq => by subst heq; revert hpart; decide) hne
  -- an assignment is not among the roots here, and only the operation has something inside
  have hassignment : ∀ part, part.parent? = some .operation →
      e part ∈ elementsOf (inside .operation) := by
    intro part hparent
    have hmem := he part fun heq => by subst heq; cases hparent
    rw [elementsOf_eq_flatMap, (hperm.flatMap_right _).mem_iff, List.mem_flatMap] at hmem
    obtain ⟨t, ht, hmem⟩ := hmem
    obtain ⟨root, hroot, rfl⟩ := List.mem_map.1 ht
    have hne : part ≠ root := by
      rintro rfl
      revert hroot
      cases part <;> cases hparent <;> decide
    have hmem := mem_inside htag hmem hne
    by_cases hoperation : root = .operation
    · rwa [hoperation] at hmem
    · rw [hnil root hroot hoperation] at hmem
      cases hmem
  have hoperation : .node (e .operation) (inside .operation) ∈ kids :=
    hperm.mem_iff.2 (List.mem_map_of_mem (f := fun part => ElementTree.node (e part) (inside part))
      (by decide))
  have hsublist : (elementsOf (inside .operation)).Sublist (elementsOf kids) :=
    (List.sublist_cons_self _ _).trans (elements_sublist_of_mem hoperation)
  refine ⟨inside .operation, ?_, inner_perm htag (hinside .operation (by decide))
    (hnodup.sublist (hsublist.map _)) (hassignment .assignmentA rfl) (hassignment .assignmentB rfl)⟩
  have hC := hnil .tensorC (by decide) (by decide)
  have hA := hnil .tensorA (by decide) (by decide)
  have hB := hnil .tensorB (by decide) (by decide)
  have hprofile := hnil .profile (by decide) (by decide)
  rwa [List.map_cons, List.map_cons, List.map_cons, List.map_cons, List.map_singleton, hC, hA, hB,
    hprofile] at hperm

end

/-! ### Arrangements and places -/

namespace IsArrangement

variable {e : Part → Element} {t : ElementTree} (h : IsArrangement e t)
include h

/-- Every element of an arrangement is in its place. -/
theorem isPlaced : IsPlaced t none := by
  obtain ⟨htag, kids, inner, rfl, hkids, hinner⟩ := h
  have hleaf : ∀ part place, part.parent? = place → IsPlaced (leaf (e part)) place :=
    fun part place hparent => isPlaced_node_iff.2 ⟨part, htag part, hparent, trivial⟩
  refine isPlaced_node_iff.2 ⟨.problem, htag _, rfl, arePlaced_iff.2 fun kid hkid => ?_⟩
  have hkid := hkids.mem_iff.1 hkid
  simp only [List.mem_cons, List.not_mem_nil, or_false] at hkid
  rcases hkid with rfl | rfl | rfl | rfl | rfl
  · exact hleaf .tensorC _ rfl
  · exact hleaf .tensorA _ rfl
  · exact hleaf .tensorB _ rfl
  · refine isPlaced_node_iff.2 ⟨.operation, htag _, rfl, arePlaced_iff.2 fun kid hkid => ?_⟩
    have hkid := hinner.mem_iff.1 hkid
    simp only [List.mem_cons, List.not_mem_nil, or_false] at hkid
    rcases hkid with rfl | rfl
    · exact hleaf .assignmentA _ rfl
    · exact hleaf .assignmentB _ rfl
  · exact hleaf .profile _ rfl

/-- **The elements of an arrangement** are those that hold the parts. -/
theorem elements_perm : t.elements.Perm (Part.all.map e) := by
  obtain ⟨htag, kids, inner, rfl, hkids, hinner⟩ := h
  have hinner := hinner.flatMap_right elements
  have hkids := hkids.flatMap_right elements
  rw [← elementsOf_eq_flatMap, ← elementsOf_eq_flatMap] at hinner hkids
  have hoperation : (ElementTree.node (e .operation) inner).elements.Perm
      [e .operation, e .assignmentA, e .assignmentB] := hinner.cons _
  -- the elements of the five trees are all others, in the order of `Part.all`
  refine (hkids.trans ?_).cons (e .problem)
  exact (((hoperation.append_right [e .profile]).cons _).cons _).cons _

/-- No tag occurs twice. -/
theorem nodup : (t.elements.map Element.tag).Nodup := by
  have htags : (Part.all.map e).map Element.tag = Part.all.map Part.tag := by
    rw [List.map_map]
    exact List.map_congr_left fun part _ => h.1 part
  rw [(h.elements_perm.map _).nodup_iff, htags]
  decide

/-- No part is missing. -/
theorem holder? (part : Part) : holder? t.elements part = some (e part) := by
  refine (holder?_eq_some_iff h.nodup).2 ⟨h.elements_perm.mem_iff.2 ?_, h.1 part⟩
  exact List.mem_map_of_mem (by cases part <;> decide)

end IsArrangement

/-- **Arrangements of parts** are what is in its place, without tags that occur twice and
without missing parts. -/
theorem exists_isArrangement_iff {ts : List ElementTree} {e : Part → Element} :
    (∃ t, ts = [t] ∧ IsArrangement e t) ↔
      ArePlaced ts none ∧ ((elementsOf ts).map Element.tag).Nodup ∧
        ∀ part, holder? (elementsOf ts) part = some (e part) := by
  constructor
  · rintro ⟨t, rfl, h⟩
    rw [elementsOf_singleton]
    exact ⟨arePlaced_cons_iff.2 ⟨h.isPlaced, trivial⟩, h.nodup, h.holder?⟩
  · rintro ⟨hplaced, hnodup, he⟩
    have htag : ∀ part, (e part).tag = part.tag := fun part => tag_of_holder? (he part)
    have hmem : ∀ part, e part ∈ elementsOf ts := fun part => mem_of_holder? (he part)
    obtain ⟨inside, hperm, hinside⟩ := exists_perm [.problem] hplaced hnodup
      (by decide) (fun part => by cases part <;> decide) (fun part _ => hmem part) htag
    rw [List.map_singleton, List.perm_singleton] at hperm
    subst hperm
    rw [elementsOf_singleton] at hnodup hmem
    have hkids : ∀ part, part ≠ .problem → e part ∈ elementsOf (inside .problem) :=
      fun part hne => mem_inside htag (hmem part) hne
    obtain ⟨inner, hkids, hinner⟩ := kids_perm htag (hinside .problem (by decide))
      (hnodup.sublist ((List.sublist_cons_self _ _).map _)) hkids
    exact ⟨_, rfl, htag, inside .problem, inner, rfl, hkids, hinner⟩

end Encoding

end TensorContraction
