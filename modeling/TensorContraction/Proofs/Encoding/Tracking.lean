import TensorContraction.Proofs.Encoding.ByTag
import TensorContraction.Proofs.Encoding.FirstFailure

/-!
# Failures that are never reported

The path of a draft is that of the open elements
(`TensorContraction.Encoding.Draft.Follows.opened_eq`), and because of that three failures are
never reported.

* The problem is never missing: a text that is read to its end has a first element, and that
  is a problem or refused.
* In a document with one root, nothing is outside of the root once it has begun. A second
  problem is out of its place there, so it never comes to be found repeated. With more roots
  it does (`TensorContraction.Encoding.decode_twoProblems`).
* A reader that goes by tags never finds a tag without a part where it looks at the tag for
  the second time (`TensorContraction.Encoding.yields_decodeByTag`).

An element that is in its place may still be refused, for its attributes. Such an error tells
of the attributes (`TensorContraction.Encoding.AttributeError`), so it is none of these.
-/

namespace TensorContraction

namespace Encoding

open Markup Markup.ElementTree

/-! ### Elements that cannot be read -/

/-- **What can be wrong with the attributes of an element**, always told under its tag. -/
inductive AttributeError (e : Element) : DecodeError → Prop
  /-- An attribute is missing. -/
  | missing (name : String) : AttributeError e (.missingAttribute e.tag name)
  /-- A value cannot be read. -/
  | invalid (name value : String) : AttributeError e (.invalidValue e.tag name value)
  /-- A list does not have its declared length. -/
  | length (declared actual : Nat) : AttributeError e (.lengthMismatch e.tag declared actual)

/-- A computation that fails for the attributes of an element if it fails. -/
def ReadsFrom {α : Type} (e : Element) (x : Except DecodeError α) : Prop :=
  ∀ err, x = .error err → AttributeError e err

namespace ReadsFrom

variable {α β : Type} {e : Element}

theorem ok (x : α) : ReadsFrom e (.ok x) :=
  nofun

theorem bind {x : Except DecodeError α} {f : α → Except DecodeError β} (hx : ReadsFrom e x)
    (hf : ∀ y, ReadsFrom e (f y)) : ReadsFrom e (x >>= f) := by
  intro err herr
  obtain herr | ⟨y, -, herr⟩ := bind_eq_error_iff.1 herr
  · exact hx err herr
  · exact hf y err herr

theorem map {x : Except DecodeError α} (hx : ReadsFrom e x) (f : α → β) :
    ReadsFrom e (x.map f) := by
  intro err herr
  cases x with
  | error err' => exact hx err (Except.error.inj herr ▸ rfl)
  | ok y => cases herr

theorem valueOf (e : Element) (name : String) : ReadsFrom e (Encoding.valueOf e name) := by
  intro err herr
  rw [Encoding.valueOf] at herr
  split at herr
  · cases herr
  · obtain rfl := Except.error.inj herr
    exact .missing name

theorem parsed (read? : String → Option α) (e : Element) (name : String) :
    ReadsFrom e (Encoding.parsed read? e name) := by
  intro err herr
  rw [Encoding.parsed] at herr
  split at herr
  · next error hvalue =>
    obtain rfl := Except.error.inj herr
    exact valueOf e name _ hvalue
  · split at herr
    · cases herr
    · obtain rfl := Except.error.inj herr
      exact .invalid name _

theorem checkEntryCounts (e : Element) (declared : Nat) (stems : List String) :
    ReadsFrom e (Encoding.checkEntryCounts e declared stems) := by
  induction stems with
  | nil => exact ok ()
  | cons stem stems ih =>
    intro err herr
    rw [Encoding.checkEntryCounts] at herr
    split at herr
    · exact ih err herr
    · obtain rfl := Except.error.inj herr
      exact .length _ _

theorem entriesFrom {entry : Nat → Except DecodeError α} (hentry : ∀ k, ReadsFrom e (entry k))
    (count k : Nat) : ReadsFrom e (Encoding.entriesFrom entry count k) := by
  induction count generalizing k with
  | zero => exact ok []
  | succ count ih => exact (hentry k).bind fun _ => (ih (k + 1)).bind fun _ => ok _

theorem readList (stems : List String) {entry : Nat → Except DecodeError α}
    (hentry : ∀ k, ReadsFrom e (entry k)) : ReadsFrom e (Encoding.readList e stems entry) :=
  ((parsed _ e "n").bind fun _ => (checkEntryCounts e _ stems).bind fun _ => ok _).bind
    fun _ => entriesFrom hentry _ 0

end ReadsFrom

/-- **An element that cannot be read** fails for its attributes, whatever part it holds. -/
theorem readsFrom_readAttributes (e : Element) (part : Part) :
    ReadsFrom e (readAttributes e part) := by
  have htensor : ReadsFrom e (readTensor e) :=
    (ReadsFrom.parsed _ e "t").bind fun _ => (ReadsFrom.readList _ fun _ =>
      (ReadsFrom.parsed _ e _).bind fun _ => (ReadsFrom.parsed _ e _).bind fun _ => .ok _).bind
        fun _ => .ok _
  have hoperation : ReadsFrom e (readOperation e) :=
    (ReadsFrom.parsed _ e "t").bind fun _ => (ReadsFrom.parsed _ e "o").bind fun _ =>
      (ReadsFrom.parsed _ e "a").bind fun _ => (ReadsFrom.parsed _ e "b").bind fun _ =>
      (ReadsFrom.parsed _ e "nF").bind fun _ => (ReadsFrom.parsed _ e "nB").bind fun _ =>
      (ReadsFrom.parsed _ e "nS").bind fun _ => .ok _
  have hassignment : ReadsFrom e (readAssignment e) :=
    ReadsFrom.readList _ fun _ => ReadsFrom.parsed _ e _
  have hprofile : ReadsFrom e (readProfile e) :=
    (ReadsFrom.readList _ fun _ => (ReadsFrom.valueOf e _).bind fun _ =>
      (ReadsFrom.parsed _ e _).bind fun _ => (ReadsFrom.parsed _ e _).bind fun _ =>
      (ReadsFrom.parsed _ e _).bind fun _ => .ok _).bind fun _ => .ok _
  cases part with
  | problem => exact .ok ()
  | tensorC | tensorA | tensorB => exact htensor.map _
  | operation => exact hoperation.map _
  | assignmentA | assignmentB => exact hassignment.map _
  | profile => exact hprofile.map _

/-! ### Failures that are not reported -/

namespace DecodeError

/-- Messages that begin differently are different. -/
theorem malformed_ne {message message' : String}
    (h : message.toList.head? ≠ message'.toList.head?) : malformed message ≠ malformed message' :=
  fun heq => h (congrArg (fun message => message.toList.head?) (malformed.inj heq))

theorem unexpected_ne_repeated (tag : String) (part : Part) : unexpected tag ≠ repeated part :=
  malformed_ne (by simp [String.toList_append])

theorem misplaced_ne_repeated (part' : Part) (found : Option Part) (part : Part) :
    misplaced part' found ≠ repeated part :=
  malformed_ne (by simp [String.toList_append])

/-- A repeated part is told by its tag. -/
theorem repeated_inj {part part' : Part} (h : repeated part = repeated part') :
    part = part' := by
  have htext := congrArg String.toList (malformed.inj h)
  simp only [String.toList_append, List.append_assoc, List.append_cancel_left_eq,
    List.append_cancel_right_eq, String.toList_inj] at htext
  exact Part.tag_inj htext

end DecodeError

namespace Refuses

variable {before : List Event} {e : Element} {err : DecodeError}

/-- An element that is refused is one out of place, or one that cannot be read. -/
theorem malformed_or_attributeError (h : Refuses before e err) :
    (∃ message, err = .malformed message) ∨ AttributeError e err := by
  cases h with
  | unexpected => exact .inl ⟨_, rfl⟩
  | misplaced => exact .inl ⟨_, rfl⟩
  | unreadable htag hplace hread => exact .inr (readsFrom_readAttributes e _ err hread)
  | repeated => exact .inl ⟨_, rfl⟩

/-- **A part is said to be repeated** only if it is, and in its place. -/
theorem of_repeated {part : Part} (h : Refuses before e (.repeated part)) :
    e.tag = part.tag ∧ enclosing? before = part.parent? ∧
      e.tag ∈ (started before).map Element.tag := by
  generalize herr : DecodeError.repeated part = err at h
  cases h with
  | unexpected => exact absurd herr.symm (DecodeError.unexpected_ne_repeated _ part)
  | misplaced => exact absurd herr.symm (DecodeError.misplaced_ne_repeated _ _ part)
  | unreadable htag hplace hread =>
    subst herr
    cases readsFrom_readAttributes e _ _ hread
  | repeated htag hplace hread hagain =>
    obtain rfl := DecodeError.repeated_inj herr
    exact ⟨htag, hplace, hagain⟩

end Refuses

section

variable {report : String → Report} (hreport : IsReliable report) {text : String}
include hreport

/-- **The problem is never missing**: a text that is read to its end has an element, and the
first one is a problem or refused. -/
theorem decodeWith_ne_missing_problem (text : String) :
    decodeWith report text ≠ .error (.missingElement Part.problem.tag) := by
  intro h
  have hanswers := answers_decodeWith hreport text
  rw [h] at hanswers
  cases hanswers with
  | refused hevents hbefore hrefuses =>
    obtain ⟨message, hmessage⟩ | hattribute := hrefuses.malformed_or_attributeError
    · cases hmessage
    · cases hattribute
  | concluded haccepts hcomplete hresult =>
    generalize hmissing : DecodeError.missingElement Part.problem.tag = err at hresult
    cases hresult with
    | missing hfirst =>
      obtain rfl := Part.tag_inj (DecodeError.missingElement.inj hmissing)
      exact absurd (List.mem_of_find?_eq_some hfirst) (by decide)
    | problem => cases hmissing
    | mismatch => cases hmissing

/-- A text that is malformed has an element that is refused for it. -/
theorem exists_refuses_of_decodeWith_eq_malformed {message : String}
    (h : decodeWith report text = .error (.malformed message)) :
    ∃ before e after, (report text).events = before ++ .start e :: after ∧ Accepts before ∧
      Refuses before e (.malformed message) := by
  have hanswers := answers_decodeWith hreport text
  rw [h] at hanswers
  cases hanswers with
  | refused hevents hbefore hrefuses => exact ⟨_, _, _, hevents, hbefore, hrefuses⟩
  | concluded haccepts hcomplete hresult => cases hresult

end

/-- **Inside of a single root**, an element that follows others is inside some part. -/
theorem exists_enclosing?_eq_some {t : ElementTree} {before after : List Event} {e : Element}
    (hroot : before ++ .start e :: after <+: t.events) (hbefore : Accepts before)
    (hstarted : (started before).map Element.tag ≠ []) : ∃ part, enclosing? before = some part := by
  obtain ⟨d, hdrafts⟩ := exists_drafts_iff_accepts.2 hbefore
  have hne : before ≠ [] := by
    rintro rfl
    exact hstarted rfl
  have hprefix : before ++ [.start e] <+: t.events :=
    List.IsPrefix.trans ⟨after, (List.append_cons _ _ _).symm⟩ hroot
  have hopen := openElements_ne_nil hne hprefix
  have hpath := hdrafts.follows.path
  rw [hdrafts.follows.enclosing?_eq]
  cases hparts : d.path with
  | nil =>
    rw [hparts, List.map_nil, List.map_eq_nil_iff] at hpath
    exact absurd hpath hopen
  | cons part path => exact ⟨part, rfl⟩

section

variable {report : String → Report} (hreport : IsReliable report) {text : String}
  {t : ElementTree} (hroot : (report text).events <+: t.events)
include hreport hroot

/-- **A second problem** in a document with a single root is out of its place. -/
theorem decodeWith_second_problem {before after : List Event} {e : Element}
    (hevents : (report text).events = before ++ .start e :: after) (hbefore : Accepts before)
    (hfirst : Part.problem.tag ∈ (started before).map Element.tag)
    (htag : e.tag = Part.problem.tag) :
    ∃ part, enclosing? before = some part ∧
      decodeWith report text = .error (.misplaced .problem (some part)) := by
  obtain ⟨part, hpart⟩ :=
    exists_enclosing?_eq_some (hevents ▸ hroot) hbefore (List.ne_nil_of_mem hfirst)
  have hplace : enclosing? before ≠ Part.problem.parent? := by
    rw [hpart]
    exact nofun
  refine ⟨part, hpart, ?_⟩
  rw [← hpart]
  exact Answers.decodeWith_eq hreport (.refused hevents hbefore (.misplaced htag hplace))

/-- **In a document with a single root**, the problem is never found repeated. -/
theorem decodeWith_ne_repeated_problem :
    decodeWith report text ≠ .error (.repeated .problem) := by
  intro h
  obtain ⟨before, e, after, hevents, hbefore, hrefuses⟩ :=
    exists_refuses_of_decodeWith_eq_malformed hreport h
  obtain ⟨-, hplace, hagain⟩ := hrefuses.of_repeated
  obtain ⟨part, hpart⟩ :=
    exists_enclosing?_eq_some (hevents ▸ hroot) hbefore (List.ne_nil_of_mem hagain)
  rw [hpart] at hplace
  cases hplace

end

/-- Two problems, one after the other. -/
def twoProblems : String :=
  "<P/><P/>"

theorem report_twoProblems :
    report twoProblems = ⟨[.start ⟨"P", []⟩, .stop, .start ⟨"P", []⟩, .stop], true⟩ := by
  decide +kernel

/-- With more than one root, the second problem is in its place, and found repeated. -/
theorem decode_twoProblems :
    decode twoProblems = .error (.malformed "more than one <P> element") := by
  have hbefore : Accepts [.start ⟨"P", []⟩, .stop] := exists_drafts_iff_accepts.1 ⟨_, rfl⟩
  have hrefuses : Refuses [.start ⟨"P", []⟩, .stop] ⟨"P", []⟩ (.repeated .problem) :=
    .repeated rfl rfl rfl (by decide)
  exact Answers.decodeWith_eq isReliable_report
    (.refused (congrArg Report.events report_twoProblems) hbefore hrefuses)

/-! ### Open parts -/

/-- **The open parts are tracked exactly**, and three failures are not reported because of
that, as long as the reports of the events can be relied on. A text does not lack the problem,
and reading it by tags always has a result. If it is a document with a single root, or the
beginning of one, then a draft that has been reached somewhere in it has the path of the open
elements, one of the nine, whichever way it is read; the problem is not found repeated; and a
second problem is out of its place. -/
theorem decode_tracks_open {report : String → Report} (hreport : IsReliable report)
    (text : String) :
    decodeWith report text ≠ .error (.missingElement "P") ∧
      Yields (decodeByTag report text) (decodeWith report text) ∧
      ∀ t : ElementTree, (report text).events <+: t.events →
        (∀ before d, before <+: (report text).events → Drafts .blank before d →
          d.opened ∈ tagPaths ∧
            Yields (before.foldlM TagDraft.step ⟨[], .blank⟩) (.ok d.byTag) ∧
            ∃ path, d.opened = path.map Element.tag ∧
              ∀ other, IsOpenPath other before ↔ other = path) ∧
        decodeWith report text ≠ .error (.malformed "more than one <P> element") ∧
        ∀ before e after, (report text).events = before ++ .start e :: after → Accepts before →
          "P" ∈ (started before).map Element.tag → e.tag = "P" →
            ∃ part, enclosing? before = some part ∧
              decodeWith report text = .error (.misplaced .problem (some part)) := by
  refine ⟨decodeWith_ne_missing_problem hreport text, yields_decodeByTag report text,
    fun t hroot => ⟨fun before d hbefore hdrafts => ⟨?_, ?_, ?_⟩,
      decodeWith_ne_repeated_problem hreport hroot, ?_⟩⟩
  · have hblank : IsNested Draft.blank.path := trivial
    exact (Draft.isNested_drafts hblank hdrafts).mem_tagPaths
  · have hbyTag := yields_drafts .blank before
    rwa [show before.foldlM Draft.step .blank = .ok d from hdrafts] at hbyTag
  · have htree : before <+: eventsOf [t] := by
      rw [eventsOf_singleton]
      exact hbefore.trans hroot
    exact ⟨_, hdrafts.follows.opened_eq, fun _ => isOpenPath_iff htree⟩
  · intro before e after hevents haccepts hfirst htag
    exact decodeWith_second_problem hreport hroot hevents haccepts hfirst htag

/-- A problem inside of a problem. -/
def nestedProblem : String :=
  "<P><P/></P>"

theorem report_nestedProblem :
    report nestedProblem =
      ⟨[.start ⟨"P", []⟩, .start ⟨"P", []⟩, .stop, .stop], true⟩ := by
  decide +kernel

/-- The inner problem is out of its place. -/
theorem decode_nestedProblem :
    (report nestedProblem).events <+: (ElementTree.node ⟨"P", []⟩ [.leaf ⟨"P", []⟩]).events ∧
      Accepts [.start ⟨"P", []⟩] ∧
      (∃ path, ["P"] = path.map Element.tag ∧
        ∀ other, IsOpenPath other [.start ⟨"P", []⟩] ↔ other = path) ∧
      decode nestedProblem = .error (.misplaced .problem (some .problem)) := by
  have hevents := congrArg Report.events report_nestedProblem
  have hroot : (report nestedProblem).events <+:
      (ElementTree.node ⟨"P", []⟩ [.leaf ⟨"P", []⟩]).events := by
    rw [hevents]
    exact List.prefix_rfl
  have hdrafts : Drafts .blank [.start ⟨"P", []⟩] { Draft.blank with
      path := [.problem]
      begun := true } := rfl
  have haccepts := exists_drafts_iff_accepts.1 ⟨_, hdrafts⟩
  obtain ⟨-, -, htracked⟩ := decode_tracks_open isReliable_report nestedProblem
  obtain ⟨hopen, -, hsecond⟩ := htracked _ hroot
  obtain ⟨part, hpart, hdecode⟩ := hsecond _ _ _ hevents haccepts (by decide) rfl
  obtain rfl := Option.some.inj hpart
  have hbefore : [.start ⟨"P", []⟩] <+: (report nestedProblem).events := by
    rw [hevents]
    exact List.prefix_append _ _
  exact ⟨hroot, haccepts, (hopen _ _ hbefore hdrafts).2.2, hdecode⟩

end Encoding

end TensorContraction
