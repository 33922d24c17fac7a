import TensorContraction.Markup.Reading
import TensorContraction.Proofs.Markup.Word

/-!
# Passing over text

What a reader does on a piece of text that it does not refuse is summed up by three
things: where it starts, what it reports, and where it ends. This file gives the
relation (`TensorContraction.Markup.Passes`), its one law – a passage over two pieces
is a passage over the first and one over the second
(`TensorContraction.Markup.Passes.append`) – and the passages over what elements are
written with: blanks, names, and attributes.

A reader that has been told no character set takes every character for itself, and as
long as no reference occurs it takes in no other text: such a reader passes over a
character exactly as `TensorContraction.Markup.Reader.advance` says
(`TensorContraction.Markup.Passes.one`).
-/

namespace TensorContraction

namespace Markup

/-! ### Passages -/

/-- **A passage**: reading `text` takes the reader `r` to the reader `r'`, which has
reported `events` on the way. -/
def Passes (r : Reader) (text : List Char) (events : List Event) (r' : Reader) : Prop :=
  run r text = ⟨events, some r'⟩

namespace Passes

variable {r r' r'' : Reader} {s t : List Char} {es es' : List Event}

theorem nil (r : Reader) : Passes r [] [] r := rfl

/-- **Passages compose.** -/
theorem append (hs : Passes r s es r') (ht : Passes r' t es' r'') :
    Passes r (s ++ t) (es ++ es') r'' := by
  unfold Passes at *
  simp only [run_append, hs, Reading.andThen, ht, Reading.after]

/-- The passage over one character, where no other text is taken in. -/
theorem one {c : Char} (hr : r.charset = .unclaimed) (h : r.advance c = some ⟨r', es, []⟩) :
    Passes r [c] es r' := by
  simp [Passes, run, step, hr, Charset.units?, overUpTo, maxInclusions, overWith, h, Reading.after,
    Reading.andThen]

/-- The passage over one character, followed by another passage. -/
theorem cons {c : Char} (hr : r.charset = .unclaimed) (h : r.advance c = some ⟨r', es, []⟩)
    (ht : Passes r' t es' r'') : Passes r (c :: t) (es ++ es') r'' :=
  (one hr h).append ht

/-- The passage over one character that reports nothing, followed by another
passage. -/
theorem skip {c : Char} (hr : r.charset = .unclaimed) (h : r.advance c = some r'.silently)
    (ht : Passes r' t es r'') : Passes r (c :: t) es r'' :=
  cons hr h ht

/-- Readers that do the same on the next character pass over the same texts. -/
theorem congr {c : Char} {q : Reader} (hq : q.charset = .unclaimed) (hr : r.charset = .unclaimed)
    (h : q.advance c = r.advance c) (hs : Passes r (c :: t) es r') : Passes q (c :: t) es r' := by
  have hstep : step q c = step r c := by
    simp only [step, hq, hr, Charset.units?, overUpTo, maxInclusions, overWith, h]
  rw [Passes, run] at hs ⊢
  rwa [hstep]

end Passes

/-- **A text that is passed over** from the outset, and does not begin with a byte order
mark, is read. -/
theorem read_eq_of_passes {text : String} {c : Char} {rest : List Char}
    (htext : text.toList = c :: rest) (hc : c ≠ '\uFEFF') {es : List Event} {r : Reader}
    (h : Passes (.initial .unclaimed) text.toList es r) : read text = ⟨es, some r⟩ := by
  rw [Passes, htext] at h
  unfold Markup.read
  rw [htext]
  split
  · next heq => exact absurd (List.cons.inj heq).1 hc
  · exact h

/-- What is reported of a text that is passed over. -/
theorem report_eq_of_passes {text : String} {c : Char} {rest : List Char}
    (htext : text.toList = c :: rest) (hc : c ≠ '\uFEFF') {es : List Event} {r : Reader}
    (h : Passes (.initial .unclaimed) text.toList es r) : report text = ⟨es, r.isComplete⟩ := by
  rw [report, read_eq_of_passes htext hc h]
  rfl

/-! ### Readers -/

namespace Reader

variable (r : Reader)

@[simp] theorem moveTo_moveTo (p q : Place) : (r.moveTo p).moveTo q = r.moveTo q := rfl

@[simp] theorem place_moveTo (p : Place) : (r.moveTo p).place = p := rfl

end Reader

/-! ### Names and values

In a name, and in a value too, every character of a word is put to what has been read,
and nothing else happens. What has been read is held in reverse. -/

section

variable {r : Reader} (hr : r.charset = .unclaimed)
include hr

/-- **The passage over a word**, at a place that holds what has been read of it. -/
theorem Passes.word {place : List Char → Place}
    (hplace : ∀ c read, isWordCharacter c = true →
      (r.moveTo (place read)).advance c = some (r.moveTo (place (c :: read))).silently)
    {word : List Char} (hword : ∀ c ∈ word, isWordCharacter c = true) (read : List Char) :
    Passes (r.moveTo (place read)) word [] (r.moveTo (place (word.reverse ++ read))) := by
  induction word generalizing read with
  | nil => exact .nil _
  | cons c word ih =>
    rw [List.reverse_cons, List.append_assoc]
    exact .skip hr (hplace c read (hword c List.mem_cons_self))
      (ih (fun d hd => hword d (List.mem_cons_of_mem c hd)) (c :: read))

end

namespace Reader

variable (r : Reader) {c : Char} (hc : isWordCharacter c = true)
include hc

theorem advance_opening (read : List Char) :
    (r.moveTo (.opening read)).advance c = some (r.moveTo (.opening (c :: read))).silently := by
  simp [advance, stepOpening, isCharacter_of_isWordCharacter hc,
    isNameCharacter_of_isWordCharacter hc]

theorem advance_closing (read : List Char) :
    (r.moveTo (.closing read false)).advance c =
      some (r.moveTo (.closing (c :: read) false)).silently := by
  have hend : c ≠ '>' := ne_of_isWordCharacter hc (by decide)
  simp [advance, stepClosing, isCharacter_of_isWordCharacter hc, isSpace_of_isWordCharacter hc,
    hend]

theorem advance_attributeName (tag : RawTag) (read : List Char) :
    (r.moveTo (.attributeName tag read false)).advance c =
      some (r.moveTo (.attributeName tag (c :: read) false)).silently := by
  have hequals : c ≠ '=' := ne_of_isWordCharacter hc (by decide)
  simp [advance, stepAttributeName, isCharacter_of_isWordCharacter hc,
    isSpace_of_isWordCharacter hc, isNameCharacter_of_isWordCharacter hc, hequals]

theorem advance_value (tag : RawTag) (name read : List Char) :
    (r.moveTo (.value tag name '"' read)).advance c =
      some (r.moveTo (.value tag name '"' (c :: read))).silently := by
  have hquote : c ≠ '"' := ne_of_isWordCharacter hc (by decide)
  have hmarkup : c ≠ '<' := ne_of_isWordCharacter hc (by decide)
  have hreference : c ≠ '&' := ne_of_isWordCharacter hc (by decide)
  simp [advance, stepValue, isCharacter_of_isWordCharacter hc, hquote, hmarkup, hreference]

end Reader

/-! ### Attributes -/

/-- A blank is no character of a word, and where an attribute may follow it is passed
over. -/
theorem advance_gap_blank (r : Reader) (tag : RawTag) (spaced : Bool) :
    (r.moveTo (.gap tag spaced)).advance ' ' = some (r.moveTo (.gap tag true)).silently := by
  simp [Reader.advance, Reader.stepGap]

/-- A tag with one more attribute. -/
def RawTag.add (tag : RawTag) (name value : List Char) : RawTag :=
  { tag with attributes := (name, value) :: tag.attributes }

/-- **The passage over an attribute**, of which both the name and the value are made of
the characters of words. -/
theorem passes_attribute {r : Reader} (hr : r.charset = .unclaimed) {tag : RawTag}
    (hhead : tag.isHead = false) {name value : List Char} (hname : isWord name = true)
    (hvalue : ∀ c ∈ value, isWordCharacter c = true) (spaced : Bool) :
    Passes (r.moveTo (.gap tag spaced)) (' ' :: name ++ '=' :: '"' :: value ++ ['"']) []
      (r.moveTo (.gap (tag.add name value) false)) := by
  obtain ⟨c, rest, rfl⟩ : ∃ c rest, name = c :: rest := by
    cases name with
    | nil => cases hname
    | cons c rest => exact ⟨c, rest, rfl⟩
  have hall := all_of_isWord hname
  have hc := hall c List.mem_cons_self
  have hstart : c.isAlpha = true := by
    rw [isWord, Bool.and_eq_true] at hname
    exact hname.1
  have hfirst : (r.moveTo (.gap tag true)).advance c =
      some (r.moveTo (.attributeName tag [c] false)).silently := by
    have hend : c ≠ '>' := ne_of_isWordCharacter hc (by decide)
    have hslash : c ≠ '/' := ne_of_isWordCharacter hc (by decide)
    simp [Reader.advance, Reader.stepGap, isCharacter_of_isWordCharacter hc,
      isSpace_of_isWordCharacter hc, Reader.endSign, hhead, hend, hslash,
      isNameStart_of_isAlpha hstart]
  have hequals : (r.moveTo (.attributeName tag (c :: rest).reverse false)).advance '=' =
      some (r.moveTo (.equals tag (c :: rest))).silently := by
    simp [Reader.advance, Reader.stepAttributeName]
  have hopen : (r.moveTo (.equals tag (c :: rest))).advance '"' =
      some (r.moveTo (.value tag (c :: rest) '"' [])).silently := by
    simp [Reader.advance, Reader.stepEquals, show isQuote '"' = true by decide]
  have hclose : (r.moveTo (.value tag (c :: rest) '"' value.reverse)).advance '"' =
      some (r.moveTo (.gap (tag.add (c :: rest) value) false)).silently := by
    simp [Reader.advance, Reader.stepValue, RawTag.add]
  have hrest := Passes.word hr (fun d read hd => r.advance_attributeName hd tag read)
    (fun d hd => hall d (List.mem_cons_of_mem c hd)) [c]
  have htext := Passes.word hr (fun d read hd => r.advance_value hd tag (c :: rest) read)
    hvalue []
  rw [List.append_nil] at htext
  rw [← List.reverse_cons] at hrest
  have hvalued : Passes (r.moveTo (.attributeName tag (c :: rest).reverse false))
      ('=' :: '"' :: value ++ ['"']) [] (r.moveTo (.gap (tag.add (c :: rest) value) false)) :=
    .skip hr hequals (.skip hr hopen (htext.append (.one hr hclose)))
  have hnamed : Passes (r.moveTo (.attributeName tag [c] false))
      (rest ++ '=' :: '"' :: value ++ ['"']) []
      (r.moveTo (.gap (tag.add (c :: rest) value) false)) := by
    simpa using hrest.append hvalued
  exact .skip hr (advance_gap_blank r tag spaced) (.skip hr hfirst hnamed)

/-- A list of attributes, as it is written in a tag. -/
def attributeText (attributes : List (String × String)) : List Char :=
  attributes.flatMap fun attr => ' ' :: attr.1.toList ++ '=' :: '"' :: attr.2.toList ++ ['"']

theorem toList_attributeList (e : Element) :
    e.attributeList.toList = attributeText e.attributes := by
  simp [Element.attributeList, attributeText, List.flatMap_map]

/-- A tag with more attributes, in order. -/
def RawTag.addAll (tag : RawTag) (attributes : List (String × String)) : RawTag :=
  attributes.foldl (fun tag attr => tag.add attr.1.toList attr.2.toList) tag

/-- **The passage over a list of attributes.** -/
theorem passes_attributes {r : Reader} (hr : r.charset = .unclaimed)
    {attributes : List (String × String)}
    (hnames : ∀ attr ∈ attributes, isWord attr.1.toList = true)
    (hvalues : ∀ attr ∈ attributes, ∀ c ∈ attr.2.toList, isWordCharacter c = true)
    {tag : RawTag} (hhead : tag.isHead = false) :
    Passes (r.moveTo (.gap tag false)) (attributeText attributes) []
      (r.moveTo (.gap (tag.addAll attributes) false)) := by
  induction attributes generalizing tag with
  | nil => exact .nil _
  | cons attr attributes ih =>
    have hfirst := passes_attribute hr hhead (hnames attr List.mem_cons_self)
      (hvalues attr List.mem_cons_self) false
    exact hfirst.append (ih (fun a ha => hnames a (List.mem_cons_of_mem attr ha))
      (fun a ha => hvalues a (List.mem_cons_of_mem attr ha)) hhead)

end Markup

end TensorContraction
