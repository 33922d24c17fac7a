import TensorContraction.Proofs.Markup.PlainElement
import TensorContraction.Proofs.Markup.Tree

/-!
# Plain documents

A tree of elements is written in lines: an element that holds nothing is one line, and any
other one is an opening and a closing line around the lines of what it holds, which are
indented by one blank more (`TensorContraction.Markup.ElementTree.lines`). If all of its
elements are plain, then the text is a complete document with the events of the tree, and
whoever reports the events of texts should say so
(`TensorContraction.Markup.ReadsPlain`).

The reports of `TensorContraction.Markup.report` do
(`TensorContraction.Markup.readsPlain_report`). A reader between the tags of plain elements
knows nothing but the elements that enclose it (`TensorContraction.Markup.between`), and it
is back there after each line. Only the first line is read from another state, the outset.
-/

namespace TensorContraction

namespace Markup

/-! ### Trees as they are written -/

namespace ElementTree

mutual

/-- The lines of a tree, with its root at the given level. -/
def lines (level : Nat) : ElementTree → List Line
  | node e kids =>
    if kids.isEmpty then [⟨level, e.leaf⟩]
    else ⟨level, e.openingTag⟩ :: (linesOf (level + 1) kids ++ [⟨level, e.closingTag⟩])

/-- The lines of trees that stand side by side. -/
def linesOf (level : Nat) : List ElementTree → List Line
  | [] => []
  | t :: ts => lines level t ++ linesOf level ts

end

end ElementTree

open ElementTree

/-- **Reports of plain documents**: the text of a tree of plain elements, at any indentation,
is reported to be a complete document with the events of the tree. -/
def ReadsPlain (report : String → Report) : Prop :=
  ∀ t : ElementTree, (∀ e ∈ t.elements, e.IsPlain) → ∀ base,
    report (renderLines base (t.lines 0)) = ⟨t.events, true⟩

/-! ### Readers between tags -/

/-- A reader between the elements of a text that has declared nothing, inside the given
elements. -/
def between (enclosing : List Element) : Reader :=
  ⟨.text 0, .content, enclosing.map fun e => ⟨e.tag.toList, []⟩, .empty, .unclaimed⟩

theorem bindings_between (enclosing : List Element) : (between enclosing).bindings = [] := by
  cases enclosing <;> rfl

theorem inside_between (e : Element) (enclosing : List Element) :
    (between enclosing).inside e = between (e :: enclosing) := by
  simp only [Reader.inside, bindings_between]
  rfl

/-- A reader ahead of the first element of a text. -/
def ahead (stage : Stage) : Reader :=
  ⟨.text 0, stage, [], .empty, .unclaimed⟩

/-- **The passage over the first line** of a text. The indentation takes the reader past the
outset, unless there is none. -/
theorem passes_firstLine {text : String} {es : List Event} {enclosing : List Element}
    (htext : ∀ stage, Passes (ahead stage) text.toList es (between enclosing))
    (base level : Nat) :
    Passes (.initial .unclaimed) (Line.render base ⟨level, text⟩).toList es
      (between enclosing) := by
  have hblank : ∀ stage, (ahead stage).advance ' ' =
      some (ahead (if stage = .outset then .prologue else stage)).silently := by
    intro stage
    cases stage <;> rfl
  have hblanks : ∀ (blanks : Nat) (stage : Stage), ∃ stage',
      Passes (ahead stage) (List.replicate blanks ' ') [] (ahead stage') := by
    intro blanks
    induction blanks with
    | zero => exact fun stage => ⟨stage, .nil _⟩
    | succ blanks ih =>
      intro stage
      obtain ⟨stage', hrest⟩ := ih (if stage = .outset then .prologue else stage)
      exact ⟨stage', .skip rfl (hblank stage) hrest⟩
  obtain ⟨stage, hindent⟩ := hblanks (base + level) .outset
  have hend : Passes (between enclosing) ['\n'] [] (between enclosing) :=
    passes_white rfl rfl fun c hc => Or.inr (List.mem_singleton.1 hc)
  have hline : Passes (.initial .unclaimed)
      (List.replicate (base + level) ' ' ++ text.toList ++ ['\n']) ([] ++ es ++ [])
      (between enclosing) :=
    (hindent.append (htext stage)).append hend
  simpa [Line.render, indent] using hline

/-! ### Trees -/

theorem toList_renderLines (base : Nat) (lines : List Line) :
    (renderLines base lines).toList = lines.flatMap fun line => (line.render base).toList := by
  rw [renderLines, String.toList_join, List.flatMap_map]

/-- **The passage over a tree**, given those over its lines. The first line is where the text
may begin, so it is left open from where it is read. -/
theorem passes_lines {r : Reader} {e : Element} {kids : List ElementTree}
    {enclosing : List Element} {base level : Nat} (he : e.IsPlain)
    (hleaf : Passes r (Line.render base ⟨level, e.leaf⟩).toList [.start e, .stop]
      (between enclosing))
    (hopening : Passes r (Line.render base ⟨level, e.openingTag⟩).toList [.start e]
      (between (e :: enclosing)))
    (hkids : Passes (between (e :: enclosing))
      (renderLines base (linesOf (level + 1) kids)).toList (eventsOf kids)
      (between (e :: enclosing))) :
    Passes r (renderLines base ((node e kids).lines level)).toList (node e kids).events
      (between enclosing) := by
  cases kids with
  | nil =>
    rw [toList_renderLines]
    simpa [lines, events, eventsOf] using hleaf
  | cons t ts =>
    have hclosing : Passes (between (e :: enclosing))
        (Line.render base ⟨level, e.closingTag⟩).toList [.stop] (between enclosing) := by
      refine passes_line rfl rfl rfl rfl ?_ base level
      rw [← inside_between]
      exact he.passes_closingTag (r := between enclosing) rfl
    have hall := hopening.append (hkids.append hclosing)
    rw [toList_renderLines] at hall ⊢
    simpa [lines, events] using hall

/-- **The passage over trees** in content. -/
theorem passes_linesOf (base : Nat) (ts : List ElementTree) (enclosing : List Element)
    (level : Nat) (hts : ∀ e ∈ elementsOf ts, e.IsPlain) :
    Passes (between enclosing) (renderLines base (linesOf level ts)).toList (eventsOf ts)
      (between enclosing) := by
  induction ts using forestInduction generalizing enclosing level with
  | nil => exact .nil _
  | cons e kids ts ihKids ih =>
    rw [elementsOf_cons, List.forall_mem_cons, List.forall_mem_append] at hts
    obtain ⟨he, hkids, hts⟩ := hts
    have hleaf : Passes (between enclosing) e.leaf.toList [.start e, .stop] (between enclosing) :=
      he.passes_leaf (r := between enclosing) rfl 0
    have hopening : Passes (between enclosing) e.openingTag.toList [.start e]
        (between (e :: enclosing)) := by
      rw [← inside_between]
      exact he.passes_openingTag (r := between enclosing) rfl 0
    have htree := passes_lines he (passes_line rfl rfl rfl rfl hleaf base level)
      (passes_line rfl rfl rfl rfl hopening base level)
      (ihKids (e :: enclosing) (level + 1) hkids)
    have hall := htree.append (ih enclosing level hts)
    rw [toList_renderLines, toList_renderLines] at hall
    rw [toList_renderLines]
    simpa [linesOf, eventsOf] using hall

/-- The passage over a document. -/
theorem passes_document {t : ElementTree} (ht : ∀ e ∈ t.elements, e.IsPlain) (base : Nat) :
    Passes (.initial .unclaimed) (renderLines base (t.lines 0)).toList t.events
      (between []) := by
  obtain ⟨e, kids⟩ := t
  obtain ⟨he, hkids⟩ := List.forall_mem_cons.1 ht
  have hleaf : ∀ stage, Passes (ahead stage) e.leaf.toList [.start e, .stop] (between []) :=
    fun stage => he.passes_leaf (r := ahead stage) rfl 0
  have hopening : ∀ stage, Passes (ahead stage) e.openingTag.toList [.start e] (between [e]) :=
    fun stage => he.passes_openingTag (r := ahead stage) rfl 0
  exact passes_lines he (passes_firstLine hleaf base 0) (passes_firstLine hopening base 0)
    (passes_linesOf base kids [e] 1 hkids)

/-- The text of a tree begins with a blank or with markup. -/
theorem toList_document (t : ElementTree) (base : Nat) :
    ∃ c rest, (renderLines base (t.lines 0)).toList = c :: rest ∧ (c = ' ' ∨ c = '<') := by
  obtain ⟨e, kids⟩ := t
  obtain ⟨rest, hrest⟩ : ∃ rest, (renderLines base ((node e kids).lines 0)).toList =
      List.replicate base ' ' ++ '<' :: rest := by
    rw [toList_renderLines]
    cases kids with
    | nil => exact ⟨_, by simp [lines, Line.render, indent, Element.leaf]; rfl⟩
    | cons t ts => exact ⟨_, by simp [lines, Line.render, indent, Element.openingTag]; rfl⟩
  cases base with
  | zero => exact ⟨_, _, hrest, Or.inr rfl⟩
  | succ base => exact ⟨_, _, hrest, Or.inl rfl⟩

/-- **Plain documents are read.** -/
theorem readsPlain_report : ReadsPlain report := by
  intro t ht base
  obtain ⟨c, rest, htext, hc⟩ := toList_document t base
  have hmark : c ≠ '\uFEFF' := by rcases hc with rfl | rfl <;> decide
  exact report_eq_of_passes htext hmark (passes_document ht base)

end Markup

end TensorContraction
