import Mathlib.Data.List.Nodup
import Mathlib.Data.Prod.Basic
import TensorContraction.Proofs.Markup.Passage
import TensorContraction.Proofs.Outcome

/-!
# Plain elements

An element is **plain** (`TensorContraction.Markup.Element.IsPlain`) if its tag and the
names of its attributes are words, their values are made of the characters of words,
no two attributes have the same name, and none has the name that declares labels.

Nothing about the tag of a plain element is left to be settled by what encloses it:
whatever labels are declared around it, the tag says the element, and declares nothing
(`TensorContraction.Markup.resolve?_of_isPlain`). So a reader between tags passes over
the written forms of a plain element and reports exactly the element
(`TensorContraction.Markup.Element.IsPlain.passes_leaf`,
`TensorContraction.Markup.Element.IsPlain.passes_openingTag`).
-/

namespace TensorContraction

namespace Markup

/-- **A plain element**: all of its text is words, and its attributes are different. -/
structure Element.IsPlain (e : Element) : Prop where
  /-- The tag is a word. -/
  tag : isWord e.tag.toList = true
  /-- The names of the attributes are words. -/
  names : ∀ attr ∈ e.attributes, isWord attr.1.toList = true
  /-- The values of the attributes are made of the characters of words. -/
  values : ∀ attr ∈ e.attributes, ∀ c ∈ attr.2.toList, isWordCharacter c = true
  /-- No name occurs twice. -/
  nodup : (e.attributes.map Prod.fst).Nodup
  /-- No attribute declares labels. -/
  declares : declaringLabel ∉ e.attributes.map Prod.fst

/-! ### What a plain tag says -/

/-- The raw tag of an element, as it is at the end of the tag. -/
def Element.rawTag (e : Element) : RawTag :=
  RawTag.addAll ⟨false, e.tag.toList, []⟩ e.attributes

theorem addAll_attributes (tag : RawTag) (attributes : List (String × String)) :
    tag.addAll attributes =
      { tag with attributes :=
          (attributes.map fun attr => (attr.1.toList, attr.2.toList)).reverse ++
            tag.attributes } := by
  induction attributes generalizing tag with
  | nil => rfl
  | cons attr attributes ih =>
    rw [RawTag.addAll, List.foldl_cons, ← RawTag.addAll, ih]
    simp [RawTag.add]

theorem allDistinct_of_nodup {α : Type} [BEq α] [LawfulBEq α] {l : List α} (h : l.Nodup) :
    allDistinct l = true := by
  induction l with
  | nil => rfl
  | cons x l ih =>
    obtain ⟨hx, hl⟩ := List.nodup_cons.1 h
    simp [allDistinct, hx, ih hl]

/-- The attributes of an element as attributes of a tag: none has a label. -/
def Element.unlabelled (e : Element) : List Attribute :=
  e.attributes.map fun attr => (⟨none, attr.1⟩, attr.2)

theorem attributes?_rawTag {e : Element} (h : e.IsPlain) :
    e.rawTag.attributes? = some e.unlabelled := by
  rw [Element.rawTag, addAll_attributes, RawTag.attributes?, List.append_nil, List.reverse_reverse]
  rw [mapM_eq_some_map (g := fun attr => (⟨none, String.ofList attr.1⟩, String.ofList attr.2))]
  · simp [Element.unlabelled, Function.comp_def]
  · intro raw hraw
    obtain ⟨attr, hattr, rfl⟩ := List.mem_map.1 hraw
    simp only [ofWord?_of_isWord (h.names attr hattr), Option.map_some]

theorem partition_unlabelled {e : Element} (h : e.IsPlain) :
    e.unlabelled.partition Attribute.isDeclaration = ([], e.unlabelled) := by
  have hnone : ∀ attr ∈ e.unlabelled, Attribute.isDeclaration attr = false := by
    intro attr hattr
    obtain ⟨own, hown, rfl⟩ := List.mem_map.1 hattr
    have hname : own.1 ≠ declaringLabel := fun hlabel =>
      h.declares (hlabel ▸ List.mem_map_of_mem hown)
    simp [Attribute.isDeclaration, hname]
  rw [List.partition_eq_filter_filter, Prod.mk.injEq, List.filter_eq_nil_iff,
    List.filter_eq_self]
  refine ⟨fun attr hattr => ?_, fun attr hattr => ?_⟩
  · simp [hnone attr hattr]
  · simp [hnone attr hattr]

/-- **The tag of a plain element says the element**, and declares nothing. -/
theorem resolve?_of_isPlain {e : Element} (h : e.IsPlain) (outer : Bindings) :
    e.rawTag.resolve? outer = some (e, ⟨e.tag.toList, outer⟩) := by
  have hname : e.rawTag.name = e.tag.toList := by
    rw [Element.rawTag, addAll_attributes]
  have hexpanded : e.unlabelled.mapM (Attribute.expanded? outer) =
      some (e.unlabelled.map fun attr => (none, attr.1.base)) := by
    refine mapM_eq_some_map fun attr hattr => ?_
    obtain ⟨own, -, rfl⟩ := List.mem_map.1 hattr
    rfl
  have hdistinct : allDistinct (e.unlabelled.map fun attr =>
      ((none, attr.1.base) : Option String × String)) = true := by
    refine allDistinct_of_nodup ?_
    have hnodup := List.Nodup.map (Prod.mk_right_injective (none : Option String)) h.nodup
    simpa [Element.unlabelled, Function.comp_def] using hnodup
  simp only [RawTag.resolve?, hname, ofWord?_of_isWord h.tag, attributes?_rawTag h,
    partition_unlabelled h, hexpanded, hdistinct, Option.bind_eq_bind, Option.bind_some,
    List.filterMap_nil, List.nil_append, List.all_nil, List.map_nil, allDistinct,
    QName.isElementName, Bool.and_true, if_true, String.ofList_toList]
  simp [Element.unlabelled, Function.comp_def]

/-! ### Readers around an element -/

namespace Reader

/-- The reader after an element. -/
def afterElement (r : Reader) : Reader :=
  { r with place := .text 0, stage := .content }

/-- The reader inside an element. -/
def inside (r : Reader) (e : Element) : Reader :=
  { r with
    place := .text 0
    stage := .content
    scopes := ⟨e.tag.toList, r.bindings⟩ :: r.scopes }

end Reader

/-! ### Passages over the written forms -/

section

variable {r r' : Reader} (hr : r.charset = .unclaimed) {es : List Event}
include hr

/-- **The passage over the name of an opening tag**: what follows the name is read as
it is between attributes. -/
theorem passes_name {name : List Char} (hname : isWord name = true) (brackets : Nat) {c : Char}
    (hc : isNameCharacter c = false) {t : List Char}
    (ht : Passes (r.moveTo (.gap ⟨false, name, []⟩ false)) (c :: t) es r') :
    Passes (r.moveTo (.text brackets)) ('<' :: name ++ c :: t) es r' := by
  obtain ⟨d, rest, rfl⟩ : ∃ d rest, name = d :: rest := by
    cases name with
    | nil => cases hname
    | cons d rest => exact ⟨d, rest, rfl⟩
  have hall := all_of_isWord hname
  have hd := hall d List.mem_cons_self
  have hstart : d.isAlpha = true := by
    rw [isWord, Bool.and_eq_true] at hname
    exact hname.1
  have hmarkup : (r.moveTo (.text brackets)).advance '<' = some (r.moveTo .markup).silently := by
    simp [Reader.advance, Reader.stepText]
  have hfirst : (r.moveTo .markup).advance d = some (r.moveTo (.opening [d])).silently := by
    have hbang : d ≠ '!' := ne_of_isWordCharacter hd (by decide)
    have hquestion : d ≠ '?' := ne_of_isWordCharacter hd (by decide)
    have hslash : d ≠ '/' := ne_of_isWordCharacter hd (by decide)
    simp [Reader.advance, Reader.stepMarkup, isCharacter_of_isWordCharacter hd,
      isNameStart_of_isAlpha hstart, hbang, hquestion, hslash]
  have hrest := Passes.word hr (fun c read hc => r.advance_opening hc read)
    (fun c hc => hall c (List.mem_cons_of_mem d hc)) [d]
  rw [← List.reverse_cons] at hrest
  have hgap : (r.moveTo (.opening (d :: rest).reverse)).advance c =
      (r.moveTo (.gap ⟨false, d :: rest, []⟩ false)).advance c := by
    simp only [Reader.advance, Reader.place_moveTo, Reader.stepOpening, hc, Bool.false_eq_true,
      if_false, List.reverse_reverse]
    rfl
  have hend : Passes (r.moveTo (.opening (d :: rest).reverse)) (c :: t) es r' :=
    .congr (r := r.moveTo (.gap ⟨false, d :: rest, []⟩ false)) hr hr hgap ht
  exact .skip hr hmarkup (.skip hr hfirst (hrest.append hend))

/-- The passage over the blank that closes a list of attributes. -/
theorem passes_blank {tag : RawTag} {t : List Char}
    (ht : Passes (r.moveTo (.gap tag true)) t es r') :
    Passes (r.moveTo (.gap tag false)) (' ' :: t) es r' :=
  .skip hr (advance_gap_blank r tag false) ht

end

namespace Element.IsPlain

variable {e : Element} (h : e.IsPlain) {r : Reader} (hr : r.charset = .unclaimed)
include h hr

/-- **The passage over an opening tag**, up to its end: the attributes are read, and
what follows is the end. -/
theorem passes_tag (brackets : Nat) {es : List Event} {r' : Reader} {t : List Char} {c : Char}
    (hc : isNameCharacter c = false) (ht : Passes (r.moveTo (.gap e.rawTag false)) (c :: t) es r') :
    Passes (r.moveTo (.text brackets))
      ('<' :: e.tag.toList ++ (attributeText e.attributes ++ c :: t)) es r' := by
  have hattributes : Passes (r.moveTo (.gap ⟨false, e.tag.toList, []⟩ false))
      (attributeText e.attributes ++ c :: t) ([] ++ es) r' :=
    (passes_attributes hr h.names h.values rfl).append ht
  rw [List.nil_append] at hattributes
  cases hattrs : attributeText e.attributes with
  | nil =>
    rw [hattrs] at hattributes
    exact passes_name hr h.tag brackets hc hattributes
  | cons d rest =>
    rw [hattrs] at hattributes
    have hd : d = ' ' := by
      cases hlist : e.attributes with
      | nil => simp [hlist, attributeText] at hattrs
      | cons attr attributes =>
        simp only [hlist, attributeText, List.flatMap_cons, List.cons_append,
          List.cons.injEq] at hattrs
        exact hattrs.1.symm
    exact passes_name hr h.tag brackets (hd ▸ (by decide)) hattributes

omit hr in
/-- The end of the tag of an element without content reports the element. -/
theorem advance_tagEnd :
    (r.moveTo (.tagEnd e.rawTag)).advance '>' =
      some (r.afterElement.reporting [.start e, .stop]) := by
  have hhead : e.rawTag.isHead = false := by rw [rawTag, addAll_attributes]
  simp [Reader.advance, Reader.finishTag, hhead, resolve?_of_isPlain h]
  rfl

omit hr in
/-- The end of an opening tag reports that the element begins. -/
theorem advance_gap_end (spaced : Bool) :
    (r.moveTo (.gap e.rawTag spaced)).advance '>' = some ((r.inside e).reporting [.start e]) := by
  have hhead : e.rawTag.isHead = false := by rw [rawTag, addAll_attributes]
  simp [Reader.advance, Reader.stepGap, Reader.endSign, Reader.finishTag, hhead,
    resolve?_of_isPlain h]
  rfl

/-- **An element without content** is passed over and reported. -/
theorem passes_leaf (brackets : Nat) :
    Passes (r.moveTo (.text brackets)) e.leaf.toList [.start e, .stop] r.afterElement := by
  have hhead : e.rawTag.isHead = false := by rw [rawTag, addAll_attributes]
  have hslash : (r.moveTo (.gap e.rawTag true)).advance '/' =
      some (r.moveTo (.tagEnd e.rawTag)).silently := by
    simp [Reader.advance, Reader.stepGap, Reader.endSign, hhead]
  have hend : Passes (r.moveTo (.gap e.rawTag false)) [' ', '/', '>'] [.start e, .stop]
      r.afterElement :=
    passes_blank hr (.skip hr hslash (.one hr (h.advance_tagEnd)))
  have htext : e.leaf.toList =
      '<' :: e.tag.toList ++ (attributeText e.attributes ++ [' ', '/', '>']) := by
    simp [leaf, toList_attributeList]
  rw [htext]
  exact h.passes_tag hr brackets (by decide) hend

/-- **An opening tag** is passed over and reported. -/
theorem passes_openingTag (brackets : Nat) :
    Passes (r.moveTo (.text brackets)) e.openingTag.toList [.start e] (r.inside e) := by
  cases hattrs : e.attributes.isEmpty with
  | true =>
    have htext : e.openingTag.toList =
        '<' :: e.tag.toList ++ (attributeText e.attributes ++ ['>']) := by
      simp [openingTag, toList_attributeList, hattrs]
    rw [htext]
    exact h.passes_tag hr brackets (by decide) (.one hr (h.advance_gap_end false))
  | false =>
    have htext : e.openingTag.toList =
        '<' :: e.tag.toList ++ (attributeText e.attributes ++ [' ', '>']) := by
      simp [openingTag, toList_attributeList, hattrs]
    rw [htext]
    exact h.passes_tag hr brackets (by decide)
      (passes_blank hr (.one hr (h.advance_gap_end true)))

/-- **A closing tag** is passed over at the end of what its element holds. -/
theorem passes_closingTag : Passes (r.inside e) e.closingTag.toList [.stop] r.afterElement := by
  have htext : e.closingTag.toList = '<' :: '/' :: (e.tag.toList ++ ['>']) := by
    simp [closingTag]
  have hmarkup : (r.inside e).advance '<' = some ((r.inside e).moveTo .markup).silently := by
    simp [Reader.advance, Reader.inside, Reader.stepText]
  have hslash : ((r.inside e).moveTo .markup).advance '/' =
      some ((r.inside e).moveTo (.closing [] false)).silently := by
    simp [Reader.advance, Reader.stepMarkup]
  have hname := Passes.word (r := r.inside e) hr
    (fun c read hc => (r.inside e).advance_closing hc read) (all_of_isWord h.tag) []
  rw [List.append_nil] at hname
  have hend : ((r.inside e).moveTo (.closing e.tag.toList.reverse false)).advance '>' =
      some (r.afterElement.reporting [.stop]) := by
    simp [Reader.advance, Reader.stepClosing, Reader.moveTo, Reader.inside, Reader.afterElement]
  rw [htext]
  exact .skip hr hmarkup (.skip hr hslash (hname.append (.one hr hend)))

end Element.IsPlain

/-! ### White space -/

/-- A reader that is back between tags stays where it is on blanks and ends of
lines. -/
theorem passes_white {r : Reader} (hr : r.charset = .unclaimed) (hafter : r.afterElement = r)
    {white : List Char} (hwhite : ∀ c ∈ white, c = ' ' ∨ c = '\n') : Passes r white [] r := by
  have hplace : r.place = .text 0 := by rw [← hafter]; rfl
  have hstage : r.stage = .content := by rw [← hafter]; rfl
  have hpass : r.pass = r := by
    rw [Reader.pass, if_neg (by rw [hstage]; decide), hstage]
    exact hafter
  have hmove : r.moveTo (.text 0) = r := by
    rw [Reader.moveTo, ← hplace]
  have hadvance : ∀ c, c = ' ' ∨ c = '\n' → r.advance c = some r.silently := by
    rintro c (rfl | rfl)
    · cases hscopes : r.scopes.isEmpty <;>
        simp [Reader.advance, hplace, Reader.stepText, hscopes, hpass, hmove]
    · cases hscopes : r.scopes.isEmpty <;>
        simp [Reader.advance, hplace, Reader.stepText, hscopes, hpass, hmove]
  induction white with
  | nil => exact .nil r
  | cons c white ih =>
    exact .skip hr (hadvance c (hwhite c List.mem_cons_self))
      (ih fun d hd => hwhite d (List.mem_cons_of_mem c hd))

/-- **A line** is passed over as what stands on it is, in content. -/
theorem passes_line {r r' : Reader} (hr : r.charset = .unclaimed) (hafter : r.afterElement = r)
    (hr' : r'.charset = .unclaimed) (hafter' : r'.afterElement = r') {es : List Event}
    {text : String} (htext : Passes r text.toList es r') (base level : Nat) :
    Passes r (Line.render base ⟨level, text⟩).toList es r' := by
  have hindent : Passes r (indent (base + level)).toList [] r := by
    refine passes_white hr hafter fun c hc => Or.inl ?_
    rw [indent, String.toList_ofList] at hc
    exact List.eq_of_mem_replicate hc
  have hend : Passes r' ['\n'] [] r' :=
    passes_white hr' hafter' fun c hc => Or.inr (List.mem_singleton.1 hc)
  have hline := (hindent.append htext).append hend
  rw [List.nil_append, List.append_nil] at hline
  simpa [Line.render] using hline

end Markup

end TensorContraction
