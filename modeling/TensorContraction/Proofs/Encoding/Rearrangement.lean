import TensorContraction.Problem.Order
import TensorContraction.Proofs.Encoding.Format
import TensorContraction.Proofs.Lookup
import TensorContraction.Proofs.Markup.Document
import TensorContraction.Proofs.Markup.Nesting

/-!
# Rearranged texts

The format leaves the order of elements side by side open, and attributes are looked up by
name. So a text may be rearranged, and still decodes to the same problem
(`TensorContraction.Encoding.decodeWith_eq_ok_iff_of_rearranged`).

**What order is left.** Attributes are known by their local names, and a tag may have two
with the same local name, if their labels differ. Then the later one counts. So it is not
any permutation of the attributes that changes nothing, but one that keeps the attributes
with one name in order (`TensorContraction.Markup.Element.Rearranges`): the reading of a
part depends on the list of values for each name, and on how many names there are. The last
section has a tag where the difference shows.
-/

namespace TensorContraction

namespace Markup

/-! ### Rearranged elements -/

namespace Element

/-- The values of the attributes with a local name, in order. -/
def valuesOf (e : Element) (name : String) : List String :=
  (e.attributes.filter fun attr => attr.1 == name).map Prod.snd

/-- The same element with its attributes in any order. -/
structure Permutes (e e' : Element) : Prop where
  /-- The tags are the same. -/
  tag : e.tag = e'.tag
  /-- The attributes are the same, in some order. -/
  attributes : e.attributes.Perm e'.attributes

/-- **The same element with its attributes rearranged**: those with one local name stay in
order. -/
structure Rearranges (e e' : Element) : Prop extends e.Permutes e' where
  /-- The values for one name are the same, in the same order. -/
  values : ∀ name, e.valuesOf name = e'.valuesOf name

namespace Rearranges

variable {e e' e'' : Element}

theorem refl (e : Element) : e.Rearranges e :=
  ⟨⟨rfl, .refl _⟩, fun _ => rfl⟩

theorem symm (h : e.Rearranges e') : e'.Rearranges e :=
  ⟨⟨h.tag.symm, h.attributes.symm⟩, fun name => (h.values name).symm⟩

theorem trans (h : e.Rearranges e') (h' : e'.Rearranges e'') : e.Rearranges e'' :=
  ⟨⟨h.tag.trans h'.tag, h.attributes.trans h'.attributes⟩,
    fun name => (h.values name).trans (h'.values name)⟩

/-- An attribute whose name no other one has may stand first as well as last. -/
theorem of_concat (tag : String) (attr : String × String) (attrs : List (String × String))
    (h : ∀ other ∈ attrs, other.1 ≠ attr.1) :
    Element.Rearranges ⟨tag, attrs ++ [attr]⟩ ⟨tag, attr :: attrs⟩ := by
  refine ⟨⟨rfl, List.perm_append_singleton attr attrs⟩, fun name => ?_⟩
  have hfilter : ((attrs ++ [attr]).filter fun other => other.1 == name) =
      (attr :: attrs).filter fun other => other.1 == name := by
    rw [List.filter_append, List.filter_cons, List.filter_cons, List.filter_nil]
    by_cases hname : (attr.1 == name) = true
    -- no other attribute has this name
    · have hnil : (attrs.filter fun other => other.1 == name) = [] := by
        refine List.filter_eq_nil_iff.2 fun other hother heq => ?_
        exact h other hother ((beq_iff_eq.1 heq).trans (beq_iff_eq.1 hname).symm)
      rw [if_pos hname, hnil, if_pos hname, List.nil_append]
    · rw [if_neg hname, if_neg hname, List.append_nil]
  exact congrArg (List.map Prod.snd) hfilter

end Rearranges

end Element

/-! ### Rearranged trees -/

/-- **Trees rearranged**: those that stand side by side in any order, at all levels, and
each element replaced by one that is related to it. -/
inductive Rearranged (R : Element → Element → Prop) : List ElementTree → List ElementTree → Prop
  /-- No trees. -/
  | nil : Rearranged R [] []
  /-- The first tree, what it holds, and the other ones. -/
  | cons {e e' : Element} {kids kids' ts ts' : List ElementTree} (he : R e e')
    (hkids : Rearranged R kids kids') (hts : Rearranged R ts ts') :
    Rearranged R (.node e kids :: ts) (.node e' kids' :: ts')
  /-- Two neighbours change places. -/
  | swap (t t' : ElementTree) (ts : List ElementTree) : Rearranged R (t :: t' :: ts) (t' :: t :: ts)
  /-- One rearrangement after another. -/
  | trans {ts ts' ts'' : List ElementTree} (h : Rearranged R ts ts') (h' : Rearranged R ts' ts'') :
    Rearranged R ts ts''

namespace Rearranged

variable {R : Element → Element → Prop} {ts ts' : List ElementTree}

theorem refl (hR : ∀ e, R e e) (ts : List ElementTree) : Rearranged R ts ts := by
  induction ts using ElementTree.forestInduction with
  | nil => exact .nil
  | cons e kids ts ihKids ih => exact .cons (hR e) ihKids ih

theorem symm (hR : ∀ e e', R e e' → R e' e) (h : Rearranged R ts ts') : Rearranged R ts' ts := by
  induction h with
  | nil => exact .nil
  | cons he _ _ ihKids ih => exact .cons (hR _ _ he) ihKids ih
  | swap t t' ts => exact .swap t' t ts
  | trans _ _ ih ih' => exact ih'.trans ih

open ElementTree

/-- The elements have the same tags, in some order. -/
theorem map_tag_perm (hR : ∀ e e', R e e' → e.tag = e'.tag) (h : Rearranged R ts ts') :
    ((elementsOf ts).map Element.tag).Perm ((elementsOf ts').map Element.tag) := by
  induction h with
  | nil => exact .refl _
  | cons he _ _ ihKids ih =>
    rw [elementsOf_cons, elementsOf_cons, List.map_cons, List.map_cons, hR _ _ he, List.map_append,
      List.map_append]
    exact (ihKids.append ih).cons _
  | swap t t' ts =>
    rw [elementsOf, elementsOf, elementsOf, elementsOf, ← List.append_assoc, ← List.append_assoc]
    exact (List.perm_append_comm.append_right _).map _
  | trans _ _ ih ih' => exact ih.trans ih'

/-- Every element is there again, as one that is related to it. -/
theorem exists_mem (hrefl : ∀ e, R e e) (htrans : ∀ e e' e'', R e e' → R e' e'' → R e e'')
    (h : Rearranged R ts ts') {e : Element} (he : e ∈ elementsOf ts) :
    ∃ e' ∈ elementsOf ts', R e e' := by
  induction h generalizing e with
  | nil => cases he
  | @cons root root' kids kids' ts ts' hroot _ _ ihKids ih =>
    rw [elementsOf_cons, List.mem_cons, List.mem_append] at he
    rw [elementsOf_cons]
    rcases he with rfl | he | he
    · exact ⟨root', List.mem_cons_self, hroot⟩
    · obtain ⟨e', he', hR⟩ := ihKids he
      exact ⟨e', List.mem_cons_of_mem _ (List.mem_append_left _ he'), hR⟩
    · obtain ⟨e', he', hR⟩ := ih he
      exact ⟨e', List.mem_cons_of_mem _ (List.mem_append_right _ he'), hR⟩
  | swap t t' ts =>
    refine ⟨e, ?_, hrefl e⟩
    rw [elementsOf, elementsOf, List.mem_append, List.mem_append] at he ⊢
    exact or_left_comm.1 he
  | trans _ _ ih ih' =>
    obtain ⟨e', he', hR⟩ := ih he
    obtain ⟨e'', he'', hR'⟩ := ih' he'
    exact ⟨e'', he'', htrans _ _ _ hR hR'⟩

end Rearranged

end Markup

namespace Encoding

open Markup Markup.ElementTree

/-! ### Reading rearranged elements -/

/-- If a tag has several attributes with the same local name, the last one counts. -/
theorem value?_eq_getLast? (e : Element) (name : String) :
    e.value? name = (e.valuesOf name).getLast? := by
  rw [Element.value?, lookup_eq_head?, List.filter_reverse, List.map_reverse, List.head?_reverse]
  rfl

/-- How many names look like entries does not depend on their order. -/
theorem entryCount_eq_of_perm {e e' : Element} (h : e.attributes.Perm e'.attributes)
    (stem : String) : entryCount e stem = entryCount e' stem := by
  have hperm : e.names.Perm e'.names := by
    -- the names are the same, and each is listed once
    refine (List.perm_ext_iff_of_nodup (nodup_eraseDups _) (nodup_eraseDups _)).2 fun name => ?_
    rw [List.mem_eraseDups, List.mem_eraseDups, (h.map Prod.fst).mem_iff]
  exact hperm.countP_eq _

/-- **Elements that read alike**: the readers of parts look at nothing else. -/
structure ReadsLike (e e' : Element) : Prop where
  /-- The tags are the same. -/
  tag : e.tag = e'.tag
  /-- The same attributes count, with the same values. -/
  value? : ∀ name, e.value? name = e'.value? name
  /-- There are as many entries. -/
  entryCount : ∀ stem, entryCount e stem = entryCount e' stem

theorem readsLike_of_rearranges {e e' : Element} (h : e.Rearranges e') : ReadsLike e e' where
  tag := h.tag
  value? name := by rw [value?_eq_getLast?, value?_eq_getLast?, h.values]
  entryCount := entryCount_eq_of_perm h.attributes

namespace ReadsLike

variable {e e' : Element} (h : ReadsLike e e')
include h

theorem valueOf_eq : valueOf e = valueOf e' := by
  funext name
  rw [valueOf, valueOf, h.value?, h.tag]

theorem parsed_eq {α : Type} (read? : String → Option α) : parsed read? e = parsed read? e' := by
  funext name
  rw [parsed, parsed, h.valueOf_eq, h.tag]

theorem checkEntryCounts_eq (declared : Nat) (stems : List String) :
    checkEntryCounts e declared stems = checkEntryCounts e' declared stems := by
  induction stems with
  | nil => rfl
  | cons stem stems ih => rw [checkEntryCounts, checkEntryCounts, h.entryCount, h.tag, ih]

/-- **Lists** are read alike, if their entries are. -/
theorem readList_eq {α : Type} (stems : List String) {entry entry' : Nat → Except DecodeError α}
    (hentry : entry = entry') : readList e stems entry = readList e' stems entry' := by
  have hdeclared : declaredLength e stems = declaredLength e' stems := by
    simp only [declaredLength, word, h.parsed_eq, h.checkEntryCounts_eq]
  rw [readList, readList, hdeclared, hentry]

theorem readTensor_eq : readTensor e = readTensor e' := by
  have hdimension : dimensionAt e = dimensionAt e' := by
    funext k
    simp only [dimensionAt, word, h.parsed_eq]
  rw [readTensor, readTensor, dataType, dataType, h.parsed_eq, h.readList_eq _ hdimension]

theorem readOperation_eq : readOperation e = readOperation e' := by
  simp only [readOperation, operationType, dataType, word, h.parsed_eq]

theorem readAssignment_eq : readAssignment e = readAssignment e' := by
  refine h.readList_eq _ (funext fun k => ?_)
  rw [word, word, h.parsed_eq]

theorem readProfile_eq : readProfile e = readProfile e' := by
  have hdevice : deviceAt e = deviceAt e' := by
    funext k
    simp only [deviceAt, halfWord, h.valueOf_eq, h.parsed_eq]
  rw [readProfile, readProfile, h.readList_eq _ hdevice]

end ReadsLike

/-- Elements that read alike say the same. -/
theorem Reads.congr {e e' : Part → Element} (he : ∀ part, ReadsLike (e part) (e' part))
    {description : Description} {counts : Counts} (h : Reads e description counts) :
    Reads e' description counts where
  c := (he _).readTensor_eq.symm.trans h.c
  a := (he _).readTensor_eq.symm.trans h.a
  b := (he _).readTensor_eq.symm.trans h.b
  operation := (he _).readOperation_eq.symm.trans h.operation
  idsA := (he _).readAssignment_eq.symm.trans h.idsA
  idsB := (he _).readAssignment_eq.symm.trans h.idsB
  profile := (he _).readProfile_eq.symm.trans h.profile

/-! ### Reading rearranged texts -/

section

variable {ts ts' : List ElementTree}

/-- Rearranged trees are in their places, if they were before. -/
theorem ArePlaced.rearranged {R : Element → Element → Prop}
    (hR : ∀ e e', R e e' → e.tag = e'.tag) (h : Rearranged R ts ts') {place : Option Part}
    (hplaced : ArePlaced ts place) : ArePlaced ts' place := by
  induction h generalizing place with
  | nil => trivial
  | cons he _ _ ihKids ih =>
    obtain ⟨hroot, hts⟩ := arePlaced_cons_iff.1 hplaced
    obtain ⟨part, htag, hparent, hkids⟩ := isPlaced_node_iff.1 hroot
    exact arePlaced_cons_iff.2 ⟨isPlaced_node_iff.2
      ⟨part, (hR _ _ he).symm.trans htag, hparent, ihKids hkids⟩, ih hts⟩
  | swap t t' ts =>
    obtain ⟨ht, hrest⟩ := arePlaced_cons_iff.1 hplaced
    obtain ⟨ht', hts⟩ := arePlaced_cons_iff.1 hrest
    exact arePlaced_cons_iff.2 ⟨ht', arePlaced_cons_iff.2 ⟨ht, hts⟩⟩
  | trans _ _ ih ih' => exact ih' (ih hplaced)

/-- Rearranged elements state the same problem. -/
theorem States.rearranged (h : Rearranged Element.Rearranges ts ts') {p : Problem}
    (hstates : States (elementsOf ts) p) : States (elementsOf ts') p := by
  obtain ⟨hnodup, e, description, counts, he, hreads, hproblem⟩ := hstates
  have hnodup' := (h.map_tag_perm (fun _ _ he => he.tag)).nodup_iff.1 hnodup
  -- what held a part is still there, and still the only one with its tag
  have hexists : ∀ part, ∃ e' ∈ elementsOf ts', (e part).Rearranges e' := by
    intro part
    refine h.exists_mem Element.Rearranges.refl ?_ (mem_of_holder? (he part))
    intro e e' e'' he he'
    exact he.trans he'
  choose e' hmem hrearranges using hexists
  refine ⟨hnodup', e', description, counts, ?_, hreads.congr ?_, hproblem⟩
  · intro part
    refine (holder?_eq_some_iff hnodup').2 ⟨hmem part, ?_⟩
    rw [← (hrearranges part).tag, tag_of_holder? (he part)]
  · intro part
    exact readsLike_of_rearranges (hrearranges part)

/-- **Rearranged texts** decode to the same problem. -/
theorem decodeWith_eq_ok_iff_of_rearranged {report : String → Report} {text text' : String}
    (hcomplete : (report text).isComplete = true) (hcomplete' : (report text').isComplete = true)
    (hevents : (report text).events = eventsOf ts)
    (hevents' : (report text').events = eventsOf ts')
    (h : Rearranged Element.Rearranges ts ts') {p : Problem} :
    decodeWith report text = .ok p ↔ decodeWith report text' = .ok p := by
  have hsymm : Rearranged Element.Rearranges ts' ts := h.symm fun _ _ he => he.symm
  rw [decodeWith_eq_ok_iff_states hcomplete hevents,
    decodeWith_eq_ok_iff_states hcomplete' hevents']
  constructor
  · rintro ⟨hplaced, hstates⟩
    exact ⟨hplaced.rearranged (fun _ _ he => he.tag) h, hstates.rearranged h⟩
  · rintro ⟨hplaced, hstates⟩
    exact ⟨hplaced.rearranged (fun _ _ he => he.tag) hsymm, hstates.rearranged hsymm⟩

end

/-! ### The format, in any order -/

/-- **The format**: a text decodes if and only if it is a complete document whose elements
are an arrangement of the parts, and they state a problem with the recorded counts. It
decodes to the same problem if elements side by side, and attributes with different local
names, stand in another order. Whether a text is a complete document, and which events are
in it, is for the reports to say. -/
theorem decode_format {report : String → Report} (hreport : IsReliable report) :
    (∀ (text : String) (p : Problem), decodeWith report text = .ok p ↔
      (report text).isComplete = true ∧ ∃ t e description counts,
        (report text).events = t.events ∧ IsArrangement e t ∧ Reads e description counts ∧
          Problem.ofDescription description = .ok p ∧
          counts.free.toNat = p.free.length ∧ counts.batch.toNat = p.batch.length ∧
            counts.summation.toNat = p.summation.length) ∧
      ∀ (text text' : String) (ts ts' : List ElementTree) (p : Problem),
        (report text).isComplete = true → (report text').isComplete = true →
          (report text).events = eventsOf ts → (report text').events = eventsOf ts' →
            Rearranged Element.Rearranges ts ts' →
              (decodeWith report text = .ok p ↔ decodeWith report text' = .ok p) := by
  constructor
  · intro text p
    exact decodeWith_eq_ok_iff_isArrangement hreport
  · intro text text' ts ts' p hcomplete hcomplete' hevents hevents' h
    exact decodeWith_eq_ok_iff_of_rearranged hcomplete hcomplete' hevents hevents' h

/-! ### A tag with two attributes of one name

The smallest problem is one of scalars. In the texts that follow, the tag of its output
has two attributes with the local name `t`, one of them with a label. -/

/-- A product of scalars, on no device. -/
def scalarProduct (ty : DataType) : Problem where
  c := ⟨ty, []⟩
  a := ⟨.single, []⟩
  b := ⟨.single, []⟩
  idsA := []
  idsB := []
  operation := .gemm .single
  profile := ⟨[]⟩
  classification := .empty
  length_idsA := rfl
  length_idsB := rfl
  classify_eq := rfl

/-- What stands after the output and the left operand. -/
def scalarRest : String :=
  "<TB t=\"0\" n=\"0\"/><O t=\"0\" o=\"0\" a=\"0\" b=\"0\" nF=\"0\" nB=\"0\" nS=\"0\">" ++
    "<IA n=\"0\"/><IB n=\"0\"/></O><DP n=\"0\"/></P>"

/-- The attribute with a label comes first. -/
def labelledFirst : String :=
  "<P><TC xmlns:x=\"u\" x:t=\"1\" t=\"0\" n=\"0\"/><TA t=\"0\" n=\"0\"/>"

/-- The attribute with a label comes last. -/
def labelledLast : String :=
  "<P><TC xmlns:x=\"u\" t=\"0\" x:t=\"1\" n=\"0\"/><TA t=\"0\" n=\"0\"/>"

/-- The attribute with a label comes first, and the operand before the output. -/
def operandFirst : String :=
  "<P><TA n=\"0\" t=\"0\"/><TC n=\"0\" x:t=\"1\" t=\"0\" xmlns:x=\"u\"/>"

/-- The trees after the output and the left operand. -/
def scalarRestTrees : List ElementTree :=
  [leaf ⟨"TB", [("t", "0"), ("n", "0")]⟩,
    .node ⟨"O", [("t", "0"), ("o", "0"), ("a", "0"), ("b", "0"), ("nF", "0"), ("nB", "0"),
      ("nS", "0")]⟩ [leaf ⟨"IA", [("n", "0")]⟩, leaf ⟨"IB", [("n", "0")]⟩],
    leaf ⟨"DP", [("n", "0")]⟩]

/-- The tree of a product of scalars, with two elements at the beginning. -/
def scalarTree (e e' : Element) : ElementTree :=
  .node ⟨"P", []⟩ (leaf e :: leaf e' :: scalarRestTrees)

/-- What is reported of a text that goes on with the rest. -/
theorem report_scalarRest {head : String} {e e' : Element}
    (hhead : head.toList.head? = some '<')
    (h : Passes (.initial .unclaimed) head.toList
      [.start ⟨"P", []⟩, .start e, .stop, .start e', .stop] (between [⟨"P", []⟩])) :
    report (head ++ scalarRest) = ⟨eventsOf [scalarTree e e'], true⟩ := by
  have hrest : Passes (between [⟨"P", []⟩]) scalarRest.toList
      (eventsOf scalarRestTrees ++ [.stop]) (between []) := by
    unfold Passes
    decide +kernel
  obtain ⟨rest, htext⟩ := List.head?_eq_some_iff.1 hhead
  have hall := h.append hrest
  rw [← String.toList_append] at hall
  exact report_eq_of_passes (String.toList_append.trans (congrArg (· ++ _) htext)) (by decide) hall

theorem report_labelledFirst : report (labelledFirst ++ scalarRest) =
    ⟨eventsOf [scalarTree ⟨"TC", [("t", "1"), ("t", "0"), ("n", "0")]⟩
      ⟨"TA", [("t", "0"), ("n", "0")]⟩], true⟩ := by
  refine report_scalarRest (by decide +kernel) ?_
  unfold Passes
  decide +kernel

theorem report_labelledLast : report (labelledLast ++ scalarRest) =
    ⟨eventsOf [scalarTree ⟨"TC", [("t", "0"), ("t", "1"), ("n", "0")]⟩
      ⟨"TA", [("t", "0"), ("n", "0")]⟩], true⟩ := by
  refine report_scalarRest (by decide +kernel) ?_
  unfold Passes
  decide +kernel

theorem report_operandFirst : report (operandFirst ++ scalarRest) =
    ⟨eventsOf [scalarTree ⟨"TA", [("n", "0"), ("t", "0")]⟩
      ⟨"TC", [("n", "0"), ("t", "1"), ("t", "0")]⟩], true⟩ := by
  refine report_scalarRest (by decide +kernel) ?_
  unfold Passes
  decide +kernel

/-- A text decodes to a product of scalars, if its events do. -/
theorem decode_of_scalarTree {text : String} {e e' : Element} {p : Problem}
    (hreport : report text = ⟨eventsOf [scalarTree e e'], true⟩)
    (hevents : ∃ d, Drafts .blank (eventsOf [scalarTree e e']) d ∧ d.finish = .ok p) :
    decode text = .ok p := by
  obtain ⟨d, hdrafts, hfinish⟩ := hevents
  refine decodeWith_eq_ok_iff.2 ⟨d, ?_, ?_, hfinish⟩
  · rw [hreport]
    exact hdrafts
  · rw [hreport]

theorem decode_labelledFirst :
    decode (labelledFirst ++ scalarRest) = .ok (scalarProduct .single) :=
  decode_of_scalarTree report_labelledFirst ⟨_, rfl, rfl⟩

/-- **The order of attributes can matter**: two texts that differ in the order of two
attributes with the same local name decode to different problems. -/
theorem decode_labelledLast_ne :
    (report (labelledFirst ++ scalarRest)).isComplete = true ∧
      (report (labelledLast ++ scalarRest)).isComplete = true ∧
      (∃ t t', (report (labelledFirst ++ scalarRest)).events = eventsOf [t] ∧
        (report (labelledLast ++ scalarRest)).events = eventsOf [t'] ∧
          Rearranged Element.Permutes [t] [t']) ∧
      decode (labelledFirst ++ scalarRest) = .ok (scalarProduct .single) ∧
      decode (labelledLast ++ scalarRest) = .ok (scalarProduct .double) ∧
      (scalarProduct .single == scalarProduct .double) = false := by
  refine ⟨congrArg Report.isComplete report_labelledFirst,
    congrArg Report.isComplete report_labelledLast,
    ⟨_, _, congrArg Report.events report_labelledFirst,
      congrArg Report.events report_labelledLast, ?_⟩, decode_labelledFirst,
    decode_of_scalarTree report_labelledLast ⟨_, rfl, rfl⟩, rfl⟩
  have hsame : ∀ e : Element, e.Permutes e := fun _ => ⟨rfl, .refl _⟩
  exact .cons (hsame _) (.cons ⟨rfl, .swap _ _ _⟩ .nil (.refl hsame _)) .nil

/-- The operand may stand before the output, and other attributes around those with the
same local name. -/
theorem decode_operandFirst :
    decode (labelledFirst ++ scalarRest) = .ok (scalarProduct .single) ∧
      decode (operandFirst ++ scalarRest) = .ok (scalarProduct .single) := by
  have houtput : Element.Rearranges ⟨"TC", [("t", "1"), ("t", "0"), ("n", "0")]⟩
      ⟨"TC", [("n", "0"), ("t", "1"), ("t", "0")]⟩ :=
    .of_concat "TC" ("n", "0") [("t", "1"), ("t", "0")] (by decide)
  have hoperand : Element.Rearranges ⟨"TA", [("t", "0"), ("n", "0")]⟩
      ⟨"TA", [("n", "0"), ("t", "0")]⟩ :=
    .of_concat "TA" ("n", "0") [("t", "0")] (by decide)
  have hkids := (Rearranged.cons houtput .nil (.cons hoperand .nil
    (.refl Element.Rearranges.refl scalarRestTrees))).trans (.swap _ _ _)
  exact ⟨decode_labelledFirst, ((decode_format isReliable_report).2 _ _ _ _ _
    (congrArg Report.isComplete report_labelledFirst)
    (congrArg Report.isComplete report_operandFirst)
    (congrArg Report.events report_labelledFirst) (congrArg Report.events report_operandFirst)
    (.cons (.refl _) hkids .nil)).1 decode_labelledFirst⟩

end Encoding

end TensorContraction
