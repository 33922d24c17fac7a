import TensorContraction.Markup.Reading
import TensorContraction.Proofs.Markup.Tree
import Mathlib.Data.List.Infix
import Mathlib.Data.Nat.Find

/-!
# Where events are reported

Whoever does without the text of a document and goes by what is reported of it depends on
what reports it in two ways (`TensorContraction.Markup.IsReliable`). A report is not taken
back, so that a text that goes on reports at least what it did; and the events of a complete
document are those of trees.

It follows that there is a **place** in a text where events have been reported, and that it
depends on nothing behind it: the end of the shortest part of the beginning that reports them
(`TensorContraction.Markup.EndsReporting`).

The reports of `TensorContraction.Markup.report` are not taken back, since the reader looks at
every character once (`TensorContraction.Markup.events_report_append`).
-/

namespace TensorContraction

namespace Markup

open ElementTree

/-! ### Texts that go on -/

theorem Reading.events_prefix_andThen (first : Reading) (go : Reader → Reading) :
    first.events <+: (first.andThen go).events := by
  rw [Reading.andThen]
  cases first.rest with
  | none => exact List.prefix_rfl
  | some r => exact List.prefix_append _ _

/-- A text that goes on is read from the same outset: a byte order mark is there at once or
not at all. -/
theorem exists_read_append {s : String} (hs : s ≠ "") :
    ∃ r l, ∀ t, read (s ++ t) = run r (l ++ t.toList) := by
  cases hlist : s.toList with
  | nil => exact absurd (String.toList_eq_nil_iff.1 hlist) hs
  | cons c rest =>
    by_cases hmark : c = '\uFEFF'
    · refine ⟨.initial .utf8, rest, fun t => ?_⟩
      rw [read, String.toList_append, hlist, hmark]
      rfl
    · refine ⟨.initial .unclaimed, c :: rest, fun t => ?_⟩
      rw [read, String.toList_append, hlist, List.cons_append]
      split
      · next heq => exact absurd (List.cons.inj heq).1 hmark
      · rfl

/-- **A text that goes on** reports what it did, and maybe more. -/
theorem events_report_append (s t : String) : (report s).events <+: (report (s ++ t)).events := by
  by_cases hs : s = ""
  · subst hs
    exact List.nil_prefix
  · obtain ⟨r, l, hread⟩ := exists_read_append hs
    have hread' := hread ""
    rw [String.append_empty, String.toList_empty, List.append_nil] at hread'
    rw [report, report, hread, hread', run_append]
    exact Reading.events_prefix_andThen _ _

/-! ### Reports that can be relied on -/

/-- **Reports that can be relied on**, whoever makes them. -/
structure IsReliable (report : String → Report) : Prop where
  /-- What has been reported stays, however the text goes on. -/
  append (s t : String) : (report s).events <+: (report (s ++ t)).events
  /-- What is reported of a complete document are trees that stand side by side, one at
  least. -/
  trees {text : String} (h : (report text).isComplete = true) :
    ∃ t ts, (report text).events = eventsOf (t :: ts)

/-- A complete document begins with an element. -/
theorem IsReliable.exists_start {report : String → Report} (hreport : IsReliable report)
    {text : String} (h : (report text).isComplete = true) :
    ∃ e after, (report text).events = .start e :: after := by
  obtain ⟨⟨e, kids⟩, ts, hevents⟩ := hreport.trees h
  exact ⟨e, _, hevents.trans (eventsOf_cons e kids ts)⟩

/-! ### The place of a report -/

/-- **A text that ends with a report**: the events are reported in it, and not in any shorter
part of its beginning. -/
structure EndsReporting (report : String → Report) (s : String) (events : List Event) :
    Prop where
  /-- The events are reported. -/
  reports : events <+: (report s).events
  /-- They are not reported earlier. -/
  shortest : ∀ s' t, s = s' ++ t → events <+: (report s').events → t = ""

/-- What a text reports is reported at some place in it. -/
theorem exists_endsReporting {report : String → Report} {text : String} {events : List Event}
    (h : events <+: (report text).events) :
    ∃ s rest, text = s ++ rest ∧ EndsReporting report s events := by
  classical
  have hexists : ∃ n, events <+: (report (String.ofList (text.toList.take n))).events := by
    refine ⟨text.toList.length, ?_⟩
    rwa [List.take_length, String.ofList_toList]
  let n := Nat.find hexists
  refine ⟨String.ofList (text.toList.take n), String.ofList (text.toList.drop n), ?_,
    Nat.find_spec hexists, fun s' t hs hreports => ?_⟩
  · rw [← String.ofList_append, List.take_append_drop, String.ofList_toList]
  · -- a part of the beginning is one of those that were tried
    have htake : text.toList.take n = s'.toList ++ t.toList := by
      rw [← String.toList_append, ← hs, String.toList_ofList]
    have hlength := congrArg List.length htake
    rw [List.length_take, List.length_append] at hlength
    have hle : s'.toList.length ≤ n := by omega
    have hs' : text.toList.take s'.toList.length = s'.toList := by
      rw [← Nat.min_eq_left hle, ← List.take_take, htake, List.take_left]
    have hge : n ≤ s'.toList.length := by
      refine Nat.find_min' hexists ?_
      rwa [hs', String.ofList_toList]
    have ht : t.toList.length = 0 := by omega
    exact String.toList_eq_nil_iff.1 (List.length_eq_zero_iff.1 ht)

/-- **What comes later changes nothing**: the events are reported, however the text goes
on. -/
theorem EndsReporting.reports_append {report : String → Report} (hreport : IsReliable report)
    {s : String} {events : List Event} (h : EndsReporting report s events) (t : String) :
    events <+: (report (s ++ t)).events :=
  h.reports.trans (hreport.append s t)

end Markup

end TensorContraction
