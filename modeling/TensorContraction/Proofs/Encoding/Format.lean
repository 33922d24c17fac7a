import TensorContraction.Proofs.Encoding.Arrangement
import TensorContraction.Proofs.Markup.Report

/-!
# The format

Which texts encode a problem, and which one. A reader of problems looks at one event at a
time, and a problem comes out at the end; seen from the outside, it accepts a complete
document if and only if its elements are an arrangement of the parts of a problem that can
be read, and state a problem with the recorded counts
(`TensorContraction.Encoding.decodeWith_eq_ok_iff_isArrangement`).

What the elements state does not depend on where they stand: it is enough that no tag occurs
twice and no part is missing (`TensorContraction.Encoding.States`). This is the form in which
the draft knows it.
-/

namespace TensorContraction

namespace Encoding

open Markup Markup.ElementTree

/-! ### What is read from elements -/

/-- **What elements say** that hold the parts: a description, and the recorded counts. -/
structure Reads (e : Part → Element) (d : Description) (counts : Counts) : Prop where
  /-- The output is read. -/
  c : readTensor (e .tensorC) = .ok d.c
  /-- The left operand is read. -/
  a : readTensor (e .tensorA) = .ok d.a
  /-- The right operand is read. -/
  b : readTensor (e .tensorB) = .ok d.b
  /-- The operation is read, with the counts. -/
  operation : readOperation (e .operation) = .ok (d.operation, counts)
  /-- The assignment of the left operand is read. -/
  idsA : readAssignment (e .assignmentA) = .ok d.idsA
  /-- The assignment of the right operand is read. -/
  idsB : readAssignment (e .assignmentB) = .ok d.idsB
  /-- The profile is read. -/
  profile : readProfile (e .profile) = .ok d.profile

theorem require_eq_ok_iff {α : Type} {part : Part} {x? : Option α} {x : α} :
    Draft.require part x? = .ok x ↔ x? = some x := by
  cases x? with
  | none => simp [Draft.require]
  | some y => simp [Draft.require]

/-- **A draft describes a problem** if and only if no part is missing. -/
theorem description_eq_ok_iff {d : Draft} {description : Description} {counts : Counts} :
    d.description = .ok (description, counts) ↔
      d.begun = true ∧ d.c = some description.c ∧ d.a = some description.a ∧
        d.b = some description.b ∧ d.operation = some (description.operation, counts) ∧
        d.idsA = some description.idsA ∧ d.idsB = some description.idsB ∧
        d.profile = some description.profile := by
  have hbegun : ∀ u, (if d.begun then some () else none) = some u ↔ d.begun = true := by
    intro u
    cases d.begun <;> simp
  obtain ⟨c, a, b, idsA, idsB, operation, profile⟩ := description
  rw [Draft.description]
  simp only [bind_eq_ok_iff, require_eq_ok_iff, hbegun]
  constructor
  · rintro ⟨-, hproblem, c, hc, a, ha, b, hb, ⟨operation, counts⟩, hoperation, idsA, hidsA, idsB,
      hidsB, profile, hprofile, h⟩
    cases h
    exact ⟨hproblem, hc, ha, hb, hoperation, hidsA, hidsB, hprofile⟩
  · rintro ⟨hproblem, hc, ha, hb, hoperation, hidsA, hidsB, hprofile⟩
    exact ⟨(), hproblem, c, hc, a, ha, b, hb, (operation, counts), hoperation, idsA, hidsA, idsB,
      hidsB, profile, hprofile, rfl⟩

/-- A place that holds something was filled. -/
theorem ReadsInto.exists_of_some {α : Type} {read : Element → Except DecodeError α}
    {e? : Option Element} {place : Option α} {x : α} (h : ReadsInto read e? place)
    (hplace : place = some x) : ∃ e, e? = some e ∧ read e = .ok x := by
  subst hplace
  cases e? with
  | none => cases h
  | some e =>
    obtain ⟨x', hx, heq⟩ := h
    exact ⟨e, rfl, hx.trans (congrArg Except.ok (Option.some.inj heq).symm)⟩

/-- A place that holds something says what was read from a given element. -/
theorem ReadsInto.read_eq_ok {α : Type} {read : Element → Except DecodeError α}
    {e? : Option Element} {place : Option α} {e : Element} {x : α} (h : ReadsInto read e? place)
    (he : e? = some e) (hplace : place = some x) : read e = .ok x := by
  obtain ⟨e', he', hread⟩ := h.exists_of_some hplace
  rwa [Option.some.inj (he'.symm.trans he)] at hread

/-- A place that was filled holds what was read. -/
theorem ReadsInto.of_eq_some {α : Type} {read : Element → Except DecodeError α}
    {e? : Option Element} {e : Element} {x : α} (he : e? = some e) (hread : read e = .ok x) :
    ReadsInto read e? (some x) := by
  subst he
  exact ⟨x, hread, rfl⟩

/-- **What recorded elements say** is what the draft describes. -/
theorem Draft.Records.description_eq_ok_iff {d : Draft} {es : List Element} (h : d.Records es)
    {description : Description} {counts : Counts} :
    d.description = .ok (description, counts) ↔
      ∃ e, (∀ part, holder? es part = some (e part)) ∧ Reads e description counts := by
  rw [Encoding.description_eq_ok_iff]
  constructor
  · rintro ⟨hproblem, hc, ha, hb, hoperation, hidsA, hidsB, hprofile⟩
    -- every place is filled, so every part is held by an element
    have hexists : ∀ part, ∃ e, holder? es part = some e := by
      intro part
      cases part with
      | problem => exact Option.isSome_iff_exists.1 ((h.holds .problem).symm.trans hproblem)
      | tensorC => exact ((h.holds .tensorC).exists_of_some hc).imp fun _ he => he.1
      | tensorA => exact ((h.holds .tensorA).exists_of_some ha).imp fun _ he => he.1
      | tensorB => exact ((h.holds .tensorB).exists_of_some hb).imp fun _ he => he.1
      | operation => exact ((h.holds .operation).exists_of_some hoperation).imp fun _ he => he.1
      | assignmentA => exact ((h.holds .assignmentA).exists_of_some hidsA).imp fun _ he => he.1
      | assignmentB => exact ((h.holds .assignmentB).exists_of_some hidsB).imp fun _ he => he.1
      | profile => exact ((h.holds .profile).exists_of_some hprofile).imp fun _ he => he.1
    choose e he using hexists
    exact ⟨e, he, (h.holds .tensorC).read_eq_ok (he _) hc, (h.holds .tensorA).read_eq_ok (he _) ha,
      (h.holds .tensorB).read_eq_ok (he _) hb,
      (h.holds .operation).read_eq_ok (he _) hoperation,
      (h.holds .assignmentA).read_eq_ok (he _) hidsA,
      (h.holds .assignmentB).read_eq_ok (he _) hidsB,
      (h.holds .profile).read_eq_ok (he _) hprofile⟩
  · rintro ⟨e, he, hreads⟩
    have hproblem : d.begun = true := by
      rw [h.holds .problem, he]
      rfl
    exact ⟨hproblem, (h.holds .tensorC).unique (.of_eq_some (he _) hreads.c),
      (h.holds .tensorA).unique (.of_eq_some (he _) hreads.a),
      (h.holds .tensorB).unique (.of_eq_some (he _) hreads.b),
      (h.holds .operation).unique (.of_eq_some (he _) hreads.operation),
      (h.holds .assignmentA).unique (.of_eq_some (he _) hreads.idsA),
      (h.holds .assignmentB).unique (.of_eq_some (he _) hreads.idsB),
      (h.holds .profile).unique (.of_eq_some (he _) hreads.profile)⟩

/-- **Elements that can be read** have a draft that records them. -/
theorem Reads.exists_records {e : Part → Element} {description : Description} {counts : Counts}
    (h : Reads e description counts) {es : List Element} (hes : (es.map Element.tag).Nodup)
    (he : ∀ part, holder? es part = some (e part)) : ∃ d : Draft, d.path = [] ∧ d.Records es := by
  refine ⟨⟨[], true, some description.c, some description.a, some description.b,
    some (description.operation, counts), some description.idsA, some description.idsB,
    some description.profile⟩, rfl, hes, fun part => ?_⟩
  cases part with
  | problem =>
    rw [he]
    rfl
  | tensorC => exact .of_eq_some (he _) h.c
  | tensorA => exact .of_eq_some (he _) h.a
  | tensorB => exact .of_eq_some (he _) h.b
  | operation => exact .of_eq_some (he _) h.operation
  | assignmentA => exact .of_eq_some (he _) h.idsA
  | assignmentB => exact .of_eq_some (he _) h.idsB
  | profile => exact .of_eq_some (he _) h.profile

/-! ### Texts -/

/-- **Elements that state a problem**: each part is held by exactly one of them, and what is
read describes the problem and counts its indices. -/
structure States (es : List Element) (p : Problem) : Prop where
  /-- No tag occurs twice. -/
  nodup : (es.map Element.tag).Nodup
  /-- No part is missing, and all of them can be read. -/
  reads : ∃ e description counts, (∀ part, holder? es part = some (e part)) ∧
    Reads e description counts ∧ Problem.ofDescription description = .ok p ∧
      counts.free.toNat = p.free.length ∧ counts.batch.toNat = p.batch.length ∧
        counts.summation.toNat = p.summation.length

/-- **A walk through trees fills a draft** that can be finished if and only if the trees
are in their places and their elements state a problem. -/
theorem exists_drafts_eventsOf_iff {ts : List ElementTree} {p : Problem} :
    (∃ d, Drafts .blank (eventsOf ts) d ∧ d.finish = .ok p) ↔
      ArePlaced ts none ∧ States (elementsOf ts) p := by
  constructor
  · rintro ⟨d, hdrafts, hfinish⟩
    obtain ⟨hplaced, -, hrecords⟩ := Draft.records_blank.drafts_eventsOf_iff.1 hdrafts
    obtain ⟨description, counts, hdescription, hproblem⟩ := Draft.finish_eq_ok_iff.1 hfinish
    obtain ⟨e, he, hreads⟩ := hrecords.description_eq_ok_iff.1 hdescription
    exact ⟨hplaced, hrecords.nodup, e, description, counts, he, hreads, hproblem⟩
  · rintro ⟨hplaced, hnodup, e, description, counts, he, hreads, hproblem⟩
    obtain ⟨d, hpath, hrecords⟩ := hreads.exists_records hnodup he
    refine ⟨d, Draft.records_blank.drafts_eventsOf_iff.2 ⟨hplaced, hpath, hrecords⟩,
      Draft.finish_eq_ok_iff.2 ⟨description, counts, ?_, hproblem⟩⟩
    exact hrecords.description_eq_ok_iff.2 ⟨e, he, hreads⟩

section

variable {report : String → Report} {text : String} {p : Problem}

/-- What a complete document with the events of given trees decodes to. -/
theorem decodeWith_eq_ok_iff_states {ts : List ElementTree}
    (hcomplete : (report text).isComplete = true) (hevents : (report text).events = eventsOf ts) :
    decodeWith report text = .ok p ↔ ArePlaced ts none ∧ States (elementsOf ts) p := by
  rw [decodeWith_eq_ok_iff, hevents, ← exists_drafts_eventsOf_iff]
  simp only [hcomplete, true_and]

/-- **The format**: a text decodes if and only if it is a complete document whose elements
are an arrangement of the parts, and they state a problem with the recorded counts. -/
theorem decodeWith_eq_ok_iff_isArrangement (hreport : IsReliable report) :
    decodeWith report text = .ok p ↔
      (report text).isComplete = true ∧ ∃ t e description counts,
        (report text).events = t.events ∧ IsArrangement e t ∧ Reads e description counts ∧
          Problem.ofDescription description = .ok p ∧
          counts.free.toNat = p.free.length ∧ counts.batch.toNat = p.batch.length ∧
            counts.summation.toNat = p.summation.length := by
  constructor
  · intro h
    have hcomplete : (report text).isComplete = true := by
      obtain ⟨d, -, hcomplete, -⟩ := decodeWith_eq_ok_iff.1 h
      exact hcomplete
    obtain ⟨t, ts, hevents⟩ := hreport.trees hcomplete
    obtain ⟨hplaced, hnodup, e, description, counts, he, hreads, hproblem⟩ :=
      (decodeWith_eq_ok_iff_states hcomplete hevents).1 h
    obtain ⟨root, hroot, harrangement⟩ := exists_isArrangement_iff.2 ⟨hplaced, hnodup, he⟩
    rw [hroot, eventsOf_singleton] at hevents
    exact ⟨hcomplete, root, e, description, counts, hevents, harrangement, hreads, hproblem⟩
  · rintro ⟨hcomplete, t, e, description, counts, hevents, harrangement, hreads, hproblem⟩
    obtain ⟨hplaced, hnodup, he⟩ := exists_isArrangement_iff.1 ⟨t, rfl, harrangement⟩
    rw [← eventsOf_singleton] at hevents
    exact (decodeWith_eq_ok_iff_states hcomplete hevents).2
      ⟨hplaced, hnodup, e, description, counts, he, hreads, hproblem⟩

end

end Encoding

end TensorContraction
