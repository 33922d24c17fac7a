import TensorContraction.Proofs.Encoding.Format
import TensorContraction.Proofs.Encoding.Refusal
import TensorContraction.Proofs.Markup.Nesting

/-!
# Which failure is reported

A text can fail in many ways at once: elements out of place next to ones that repeat others
or cannot be read, a missing part and a count that is off, and all of it ahead of something
that is not well-formed. One error is reported, and this file says which
(`TensorContraction.Encoding.Answers`).

* The elements come first, in the order in which they begin: the first one that is refused
  decides. The reader stops there. What comes after the tag of that element does not matter,
  not even for whether the text is well-formed.
* If no element is refused, the text has to be a complete document.
* Only then do the parts matter as a whole: the first one that is missing; why the parts
  describe no problem; the first count that is off.

The problem itself is never missing. A complete document has a first element, and the
problem is the only part that may be one
(`TensorContraction.Encoding.Accepts.problem_mem_tags`).
-/

namespace TensorContraction

namespace Encoding

open Markup

/-! ### Missing parts -/

namespace Draft

variable {d : Draft} {es : List Element} {err : DecodeError}

/-- Whether the place for a part has been filled. -/
def has (d : Draft) : Part → Bool
  | .problem => d.begun
  | .tensorC => d.c.isSome
  | .tensorA => d.a.isSome
  | .tensorB => d.b.isSome
  | .operation => d.operation.isSome
  | .assignmentA => d.idsA.isSome
  | .assignmentB => d.idsB.isSome
  | .profile => d.profile.isSome

/-- The places for some parts are not all filled, which is an error that tells the first one
that is not. -/
def Lacks (d : Draft) (parts : List Part) (err : DecodeError) : Prop :=
  ∃ part, parts.find? (fun part => !d.has part) = some part ∧ err = .missingElement part.tag

/-- **A part is required**, and then others. -/
theorem require_bind_eq_error_iff {part : Part} {parts : List Part} {α β : Type} {x? : Option α}
    (hx : d.has part = x?.isSome) {f : α → Except DecodeError β}
    (hf : ∀ x, f x = .error err ↔ d.Lacks parts err) :
    (require part x? >>= f) = .error err ↔ d.Lacks (part :: parts) err := by
  rw [Lacks, List.find?_cons, hx]
  cases x? with
  | none => simp [require, bind, Except.bind, eq_comm]
  | some x => exact hf x

/-- **A draft does not describe a problem** if and only if it lacks a part. -/
theorem description_eq_error_iff : d.description = .error err ↔ d.Lacks Part.all err := by
  have hbegun : d.has .problem = (if d.begun then some () else none).isSome := by
    cases hd : d.begun <;> simp [has, hd]
  refine require_bind_eq_error_iff hbegun fun _ => require_bind_eq_error_iff rfl fun c =>
    require_bind_eq_error_iff rfl fun a => require_bind_eq_error_iff rfl fun b =>
    require_bind_eq_error_iff rfl fun ⟨operation, counts⟩ =>
    require_bind_eq_error_iff rfl fun idsA => require_bind_eq_error_iff rfl fun idsB =>
    require_bind_eq_error_iff rfl fun profile => ?_
  constructor
  · rintro ⟨⟩
  · rintro ⟨part, ⟨⟩, -⟩

theorem Records.has_iff (h : d.Records es) {part : Part} :
    d.has part = true ↔ part.tag ∈ es.map Element.tag := by
  have hhas : d.has part = (holder? es part).isSome := by
    have hpart := h.holds part
    cases part
    case problem => exact hpart
    all_goals exact ReadsInto.isSome_eq hpart
  rw [hhas, isSome_holder?_iff]

end Draft

/-- The parts inside the problem, in the order in which missing ones are reported. -/
def innerParts : List Part :=
  [.tensorC, .tensorA, .tensorB, .operation, .assignmentA, .assignmentB, .profile]

/-- The first part inside the problem that no element holds. -/
def missing? (es : List Element) : Option Part :=
  innerParts.find? fun part => part.tag ∉ es.map Element.tag

/-- **What is missing** of a problem that has begun. -/
theorem Draft.Records.lacks_iff {d : Draft} {es : List Element} (h : d.Records es)
    (hproblem : Part.problem.tag ∈ es.map Element.tag) {err : DecodeError} :
    d.Lacks Part.all err ↔ ∃ part, missing? es = some part ∧ err = .missingElement part.tag := by
  have hhas : (fun part => !d.has part) = fun part : Part =>
      decide (part.tag ∉ es.map Element.tag) := by
    funext part
    rw [Bool.eq_iff_iff, Bool.not_eq_true', ← Bool.not_eq_true, h.has_iff, decide_eq_true_eq]
  have hall : Part.all = .problem :: innerParts := rfl
  rw [Lacks, hhas, hall, List.find?_cons_of_neg (by simpa using hproblem), missing?]

/-! ### Counts -/

/-- A count by name, as it is recorded and as it is. -/
structure RecordedCount where
  /-- The name under which the count is recorded. -/
  name : String
  /-- The count as it is recorded. -/
  recorded : Nat
  /-- The count as it is. -/
  actual : Nat

/-- The counts of a problem, in the order in which they are checked. -/
def recordedCounts (p : Problem) (counts : Counts) : List RecordedCount :=
  [⟨"nF", counts.free.toNat, p.free.length⟩, ⟨"nB", counts.batch.toNat, p.batch.length⟩,
    ⟨"nS", counts.summation.toNat, p.summation.length⟩]

/-- The first count that is off. -/
def mismatch? (p : Problem) (counts : Counts) : Option RecordedCount :=
  (recordedCounts p counts).find? fun count => count.recorded ≠ count.actual

theorem checkCounts_eq (p : Problem) (counts : Counts) :
    Draft.checkCounts p counts =
      match mismatch? p counts with
      | some count => .error (.countMismatch count.name count.recorded count.actual)
      | none => .ok () := by
  by_cases hfree : counts.free.toNat = p.free.length <;>
    by_cases hbatch : counts.batch.toNat = p.batch.length <;>
      by_cases hsummation : counts.summation.toNat = p.summation.length <;>
        simp [Draft.checkCounts, Draft.checkCount, mismatch?, recordedCounts, hfree, hbatch,
          hsummation, bind, Except.bind]

/-- **What a description leads to**: a problem, if it describes one and no count is off. -/
theorem Draft.finish_eq {d : Draft} {description : Description} {counts : Counts}
    (h : d.description = .ok (description, counts)) :
    d.finish =
      match Problem.ofDescription description with
      | .error error => .error (.problem error)
      | .ok p =>
        match mismatch? p counts with
        | some count => .error (.countMismatch count.name count.recorded count.actual)
        | none => .ok p := by
  rw [finish, h]
  cases hproblem : Problem.ofDescription description with
  | error error => simp [bind, Except.bind, hproblem]
  | ok p =>
    cases hcount : mismatch? p counts <;>
      simp [bind, Except.bind, pure, Except.pure, hproblem, checkCounts_eq, hcount]

/-! ### Elements that are accepted -/

/-- **What elements come to**, if none of them is refused and the first one holds the
problem. -/
inductive Concludes (es : List Element) : Except DecodeError Problem → Prop
  /-- A part is missing. -/
  | missing {part : Part} (hmissing : missing? es = some part) :
    Concludes es (.error (.missingElement part.tag))
  /-- What the parts say describes no problem. -/
  | problem {e : Part → Element} {description : Description} {counts : Counts}
    (hholders : ∀ part, holder? es part = some (e part)) (hreads : Reads e description counts)
    {error : ProblemError} (hproblem : Problem.ofDescription description = .error error) :
    Concludes es (.error (.problem error))
  /-- A count of the problem is off. -/
  | mismatch {e : Part → Element} {description : Description} {counts : Counts}
    (hholders : ∀ part, holder? es part = some (e part)) (hreads : Reads e description counts)
    {p : Problem} (hproblem : Problem.ofDescription description = .ok p) {count : RecordedCount}
    (hcount : mismatch? p counts = some count) :
    Concludes es (.error (.countMismatch count.name count.recorded count.actual))
  /-- Nothing is wrong. -/
  | success {e : Part → Element} {description : Description} {counts : Counts}
    (hholders : ∀ part, holder? es part = some (e part)) (hreads : Reads e description counts)
    {p : Problem} (hproblem : Problem.ofDescription description = .ok p)
    (hcount : mismatch? p counts = none) : Concludes es (.ok p)

/-- **A draft is finished** with what the recorded elements come to. -/
theorem Draft.Records.finish_eq_iff {d : Draft} {es : List Element} (h : d.Records es)
    (hproblem : Part.problem.tag ∈ es.map Element.tag) {result : Except DecodeError Problem} :
    d.finish = result ↔ Concludes es result := by
  constructor
  · rintro rfl
    cases hdescription : d.description with
    | error err =>
      obtain ⟨part, hmissing, rfl⟩ :=
        (h.lacks_iff hproblem).1 (description_eq_error_iff.1 hdescription)
      rw [finish, hdescription]
      exact .missing hmissing
    | ok described =>
      obtain ⟨description, counts⟩ := described
      obtain ⟨e, hholders, hreads⟩ := h.description_eq_ok_iff.1 hdescription
      rw [finish_eq hdescription]
      cases hproblem : Problem.ofDescription description with
      | error error => exact .problem hholders hreads hproblem
      | ok p =>
        cases hcount : mismatch? p counts with
        | some count =>
          simp only [hcount]
          exact .mismatch hholders hreads hproblem hcount
        | none =>
          simp only [hcount]
          exact .success hholders hreads hproblem hcount
  · intro hresult
    cases hresult with
    | missing hmissing =>
      have hdescription := description_eq_error_iff.2 ((h.lacks_iff hproblem).2 ⟨_, hmissing, rfl⟩)
      rw [finish, hdescription]
      rfl
    | problem hholders hreads hproblem =>
      rw [finish_eq (h.description_eq_ok_iff.2 ⟨_, hholders, hreads⟩), hproblem]
    | mismatch hholders hreads hproblem hcount =>
      rw [finish_eq (h.description_eq_ok_iff.2 ⟨_, hholders, hreads⟩), hproblem]
      simp only [hcount]
    | success hholders hreads hproblem hcount =>
      rw [finish_eq (h.description_eq_ok_iff.2 ⟨_, hholders, hreads⟩), hproblem]
      simp only [hcount]

/-! ### Texts -/

/-- **The first element** that is accepted holds the problem. -/
theorem Accepts.problem_mem_tags {e : Element} {after : List Event}
    (h : Accepts (.start e :: after)) :
    Part.problem.tag ∈ (started (.start e :: after)).map Element.tag := by
  have hfirst := h [] e after rfl
  have henclosing : enclosing? [] = none := rfl
  have hpart : ∃ part : Part, e.tag = part.tag := by
    by_contra hno
    exact hfirst _ (.unexpected fun part htag => hno ⟨part, htag⟩)
  obtain ⟨part, htag⟩ := hpart
  -- nothing is open yet, and every part but the problem has to be inside another
  have hparent : part.parent? = none := by
    by_contra hsome
    exact hfirst _ (.misplaced htag fun h => hsome (h.symm.trans henclosing))
  obtain rfl : part = .problem := by
    cases part <;> first | rfl | cases hparent
  have hstarted : started (.start e :: after) = e :: started after := rfl
  rw [hstarted, List.map_cons, htag]
  exact List.mem_cons_self

/-- **How a text is answered**: for the first element that is refused, if there is one; for
not being a complete document, if it is none; or for what its elements come to. -/
inductive Answers (reported : Report) : Except DecodeError Problem → Prop
  /-- An element is refused, and none before it. -/
  | refused {before after : List Event} {e : Element} {err : DecodeError}
    (hevents : reported.events = before ++ .start e :: after) (hbefore : Accepts before)
    (hrefuses : Refuses before e err) : Answers reported (.error err)
  /-- The text is not well-formed. -/
  | notWellFormed (haccepts : Accepts reported.events) (hcomplete : reported.isComplete = false) :
    Answers reported (.error .notWellFormed)
  /-- The text is a complete document. -/
  | concluded (haccepts : Accepts reported.events) (hcomplete : reported.isComplete = true)
    {result : Except DecodeError Problem} (hresult : Concludes (started reported.events) result) :
    Answers reported result

section

variable {report : String → Report} (hreport : IsReliable report) {text : String}
include hreport

/-- The events of a complete document lead to a draft that is finished with what the elements
come to. -/
theorem finish_eq_iff_concludes {d : Draft} (hdrafts : Drafts .blank (report text).events d)
    (hcomplete : (report text).isComplete = true) {result : Except DecodeError Problem} :
    d.finish = result ↔ Concludes (started (report text).events) result := by
  have haccepts := exists_drafts_iff_accepts.1 ⟨d, hdrafts⟩
  obtain ⟨e, after, hevents⟩ := hreport.exists_start hcomplete
  have hfollows := hdrafts.follows
  rw [hevents] at haccepts hfollows ⊢
  exact hfollows.records.finish_eq_iff haccepts.problem_mem_tags

/-- A text is answered. -/
theorem answers_decodeWith (text : String) : Answers (report text) (decodeWith report text) := by
  rw [decodeWith]
  cases hdraft : draft (report text).events with
  | error err =>
    obtain ⟨before, e, after, hevents, hbefore, hrefuses⟩ := draft_eq_error_iff.1 hdraft
    exact .refused hevents hbefore hrefuses
  | ok d =>
    have haccepts := exists_drafts_iff_accepts.1 ⟨d, hdraft⟩
    cases hcomplete : (report text).isComplete with
    | false => exact .notWellFormed haccepts hcomplete
    | true =>
      exact .concluded haccepts hcomplete
        ((finish_eq_iff_concludes hreport hdraft hcomplete).1 rfl)

/-- An answer is what the text decodes to. -/
theorem Answers.decodeWith_eq {result : Except DecodeError Problem}
    (h : Answers (report text) result) : decodeWith report text = result := by
  rw [decodeWith]
  cases h with
  | refused hevents hbefore hrefuses =>
    rw [draft_eq_error_iff.2 ⟨_, _, _, hevents, hbefore, hrefuses⟩]
    rfl
  | notWellFormed haccepts hcomplete =>
    obtain ⟨d, hdraft⟩ := exists_drafts_iff_accepts.2 haccepts
    rw [show draft (report text).events = .ok d from hdraft, hcomplete]
    rfl
  | concluded haccepts hcomplete hresult =>
    obtain ⟨d, hdraft⟩ := exists_drafts_iff_accepts.2 haccepts
    rw [show draft (report text).events = .ok d from hdraft, hcomplete]
    exact (finish_eq_iff_concludes hreport hdraft hcomplete).2 hresult

end

/-- **The first failure is reported**: a text decodes to its one answer. If that is for an
element that is refused, then it is found where the tag of the element ends, and every text
that is the same up to there decodes to it. This is so whoever reports the events, as long as
the reports can be relied on. -/
theorem decode_eq_iff_answers {report : String → Report} (hreport : IsReliable report)
    (text : String) :
    (∀ result, decodeWith report text = result ↔ Answers (report text) result) ∧
      ∀ before e after err, (report text).events = before ++ .start e :: after →
        Accepts before → Refuses before e err →
          ∃ s rest, text = s ++ rest ∧ EndsReporting report s (before ++ [.start e]) ∧
            ∀ rest', decodeWith report (s ++ rest') = .error err := by
  refine ⟨fun result => ⟨?_, Answers.decodeWith_eq hreport⟩, ?_⟩
  · rintro rfl
    exact answers_decodeWith hreport text
  · intro before e after err hevents hbefore hrefuses
    have hreported : before ++ [.start e] <+: (report text).events := by
      rw [hevents]
      exact ⟨after, (List.append_cons before (.start e) after).symm⟩
    obtain ⟨s, rest, htext, hends⟩ := exists_endsReporting hreported
    refine ⟨s, rest, htext, hends, fun rest' => ?_⟩
    obtain ⟨after', hafter⟩ := hends.reports_append hreport rest'
    rw [← List.append_cons] at hafter
    exact Answers.decodeWith_eq hreport (.refused hafter.symm hbefore hrefuses)

/-- The beginning of a problem that has an assignment where the operation should be. -/
def strayAssignment : String :=
  "<P><IA/>"

theorem report_strayAssignment :
    report strayAssignment = ⟨[.start ⟨"P", []⟩, .start ⟨"IA", []⟩, .stop], false⟩ := by
  decide +kernel

/-- The assignment is out of place, whether or not the text goes on to be well-formed. -/
theorem decode_strayAssignment :
    decode strayAssignment = .error (.misplaced .assignmentA (some .problem)) ∧
      ∀ rest, decode (strayAssignment ++ rest) =
        .error (.misplaced .assignmentA (some .problem)) := by
  have hbefore : Accepts [.start ⟨"P", []⟩] := exists_drafts_iff_accepts.1 ⟨_, rfl⟩
  have hrefuses : Refuses [.start ⟨"P", []⟩] ⟨"IA", []⟩
      (.misplaced .assignmentA (some .problem)) := .misplaced rfl (by decide)
  have hevents := congrArg Report.events report_strayAssignment
  obtain ⟨hanswers, hlater⟩ := decode_eq_iff_answers isReliable_report strayAssignment
  refine ⟨(hanswers _).2 (.refused hevents hbefore hrefuses), fun rest => ?_⟩
  obtain ⟨s, rest', htext, -, hdecode⟩ := hlater _ _ _ _ hevents hbefore hrefuses
  rw [htext, String.append_assoc]
  exact hdecode _

end Encoding

end TensorContraction
