import TensorContraction.Encoding.Draft
import TensorContraction.Proofs.Outcome

/-!
# Steps of a draft

What a draft does on an event, as equivalences with success: an element is taken if and
only if it is a part, in its place, and can be read and filled in
(`TensorContraction.Encoding.Draft.step_start_eq_ok_iff`). The draft that a sequence of
events leads to is composed from its steps
(`TensorContraction.Encoding.Drafts`).
-/

namespace TensorContraction

namespace Encoding

open Markup

namespace Draft

/-- An element is a part in its place. -/
theorem partOf_eq_ok_iff {d : Draft} {e : Element} {part : Part} :
    d.partOf e = .ok part ↔ Part.ofTag? e.tag = some part ∧ d.path.head? = part.parent? := by
  rw [partOf]
  cases Part.ofTag? e.tag with
  | none => simp
  | some found =>
    by_cases hplace : d.path.head? = found.parent?
    · simp only [if_pos hplace, Except.ok.injEq, Option.some.injEq]
      exact ⟨fun h => ⟨h, h ▸ hplace⟩, fun h => h.1⟩
    · simp only [if_neg hplace, Option.some.injEq, reduceCtorEq, false_iff]
      rintro ⟨rfl, h⟩
      exact hplace h

/-- **An element is taken** if and only if it is a part in its place that can be read. -/
theorem step_start_eq_ok_iff {d d' : Draft} {e : Element} :
    d.step (.start e) = .ok d' ↔
      ∃ part filled, Part.ofTag? e.tag = some part ∧ d.path.head? = part.parent? ∧
        d.readPart e part = .ok filled ∧ d' = { filled with path := part :: filled.path } := by
  rw [step, bind_eq_ok_iff]
  constructor
  · rintro ⟨part, hpart, h⟩
    obtain ⟨filled, hread, heq⟩ := bind_eq_ok_iff.1 h
    obtain ⟨htag, hplace⟩ := partOf_eq_ok_iff.1 hpart
    exact ⟨part, filled, htag, hplace, hread, (Except.ok.inj heq).symm⟩
  · rintro ⟨part, filled, htag, hplace, hread, rfl⟩
    exact ⟨part, partOf_eq_ok_iff.2 ⟨htag, hplace⟩, bind_eq_ok_iff.2 ⟨filled, hread, rfl⟩⟩

end Draft

/-! ### Sequences of events -/

/-- The events lead from one draft to another. -/
def Drafts (d : Draft) (events : List Event) (d' : Draft) : Prop :=
  events.foldlM Draft.step d = .ok d'

namespace Drafts

variable {d d' : Draft} {es es' : List Event}

theorem nil_iff : Drafts d [] d' ↔ d = d' :=
  ⟨fun h => Except.ok.inj h, fun h => h ▸ rfl⟩

theorem cons_iff {event : Event} :
    Drafts d (event :: es) d' ↔ ∃ next, d.step event = .ok next ∧ Drafts next es d' := by
  rw [Drafts, List.foldlM_cons, bind_eq_ok_iff]
  rfl

theorem append_iff :
    Drafts d (es ++ es') d' ↔ ∃ next, Drafts d es next ∧ Drafts next es' d' := by
  rw [Drafts, List.foldlM_append, bind_eq_ok_iff]
  rfl

/-- One part after another: an element is taken, and then the other events. -/
theorem start {e : Element} (part : Part) {filled : Draft} (htag : e.tag = part.tag)
    (hplace : d.path.head? = part.parent?) (hread : d.readPart e part = .ok filled)
    (hrest : Drafts { filled with path := part :: filled.path } es d') :
    Drafts d (.start e :: es) d' := by
  refine cons_iff.2 ⟨_, Draft.step_start_eq_ok_iff.2 ⟨part, filled, ?_, hplace, hread, rfl⟩, hrest⟩
  rw [htag, Part.ofTag?_tag]

/-- The innermost part ends, and then the other events. -/
theorem stop (hrest : Drafts { d with path := d.path.tail } es d') : Drafts d (.stop :: es) d' :=
  cons_iff.2 ⟨_, rfl, hrest⟩

end Drafts

/-! ### The end of a text -/

namespace Draft

theorem checkCount_eq_ok_iff {name : String} {recorded actual : Nat} :
    checkCount name recorded actual = .ok () ↔ recorded = actual := by
  rw [checkCount]
  split
  · next h => exact ⟨fun _ => h, fun _ => rfl⟩
  · next h => simp only [reduceCtorEq, h]

/-- The recorded counts are accepted if and only if they are the actual ones. -/
theorem checkCounts_eq_ok_iff {p : Problem} {counts : Counts} :
    checkCounts p counts = .ok () ↔
      counts.free.toNat = p.free.length ∧ counts.batch.toNat = p.batch.length ∧
        counts.summation.toNat = p.summation.length := by
  rw [checkCounts, bind_eq_ok_iff]
  constructor
  · rintro ⟨_, hfree, h⟩
    obtain ⟨_, hbatch, hsummation⟩ := bind_eq_ok_iff.1 h
    exact ⟨checkCount_eq_ok_iff.1 hfree, checkCount_eq_ok_iff.1 hbatch,
      checkCount_eq_ok_iff.1 hsummation⟩
  · rintro ⟨hfree, hbatch, hsummation⟩
    exact ⟨(), checkCount_eq_ok_iff.2 hfree, bind_eq_ok_iff.2
      ⟨(), checkCount_eq_ok_iff.2 hbatch, checkCount_eq_ok_iff.2 hsummation⟩⟩

/-- **A draft is finished** if and only if it describes a problem with the recorded
counts. -/
theorem finish_eq_ok_iff {d : Draft} {p : Problem} :
    d.finish = .ok p ↔ ∃ description counts, d.description = .ok (description, counts) ∧
      Problem.ofDescription description = .ok p ∧ counts.free.toNat = p.free.length ∧
        counts.batch.toNat = p.batch.length ∧ counts.summation.toNat = p.summation.length := by
  rw [finish, bind_eq_ok_iff]
  constructor
  · rintro ⟨⟨description, counts⟩, hdescription, h⟩
    cases hproblem : Problem.ofDescription description with
    | error e => simp only [hproblem, reduceCtorEq] at h
    | ok q =>
      simp only [hproblem] at h
      obtain ⟨_, hcounts, hq⟩ := bind_eq_ok_iff.1 h
      obtain rfl : q = p := Except.ok.inj hq
      exact ⟨description, counts, hdescription, hproblem, checkCounts_eq_ok_iff.1 hcounts⟩
  · rintro ⟨description, counts, hdescription, hproblem, hcounts⟩
    refine ⟨(description, counts), hdescription, ?_⟩
    simp only [hproblem]
    exact bind_eq_ok_iff.2 ⟨(), checkCounts_eq_ok_iff.2 hcounts, rfl⟩

end Draft

/-- **A text decodes** if and only if its events fill a draft, it is a complete document,
and the draft can be finished. -/
theorem decodeWith_eq_ok_iff {report : String → Report} {text : String} {p : Problem} :
    decodeWith report text = .ok p ↔ ∃ d, Drafts .blank (report text).events d ∧
      (report text).isComplete = true ∧ d.finish = .ok p := by
  rw [decodeWith, bind_eq_ok_iff]
  refine exists_congr fun d => and_congr_right fun _ => ?_
  split
  · next h => simp [h]
  · next h => simp [h]

end Encoding

end TensorContraction
