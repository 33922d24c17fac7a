import TensorContraction.Proofs.Encoding.WrittenPart

/-!
# The layout of an encoded problem

A text falls into **lines** (`TensorContraction.Markup.linesOf`), each up to and with
the end of line that closes it. The tagged text of a problem has ten of them, whatever
the problem is, and all of the text is moved by its level: at level `k` it is the text at
level `0` with `k` blanks in front of every line
(`TensorContraction.Encoding.encode_indented`).

The parts of a problem are written by writers of their own, each of which is told its own
level (`TensorContraction.Encoding.encode_eq_parts`). So the law is one about a writer, as a
function of the level: it is a **block** of some number of lines
(`TensorContraction.Markup.IsBlock`) if it always writes the same lines, behind as many
blanks as the level says. Blocks may be written one after the other, and a block may be
written one level deeper than it is asked for; the ten lines are put together in this way.

What is written on a line must not end it. Elements are plain for that reason, and names
of devices are free text: they are written in safe form, which has no ends of lines.
-/

namespace TensorContraction

namespace Markup

/-! ### Lines of a text -/

/-- The lines of a text, each with the end of line that closes it. What follows the last
end of line is a line too, if there is anything. -/
def linesOf : List Char → List (List Char)
  | [] => []
  | c :: rest =>
    if c = '\n' then [c] :: linesOf rest
    else
      match linesOf rest with
      | [] => [[c]]
      | line :: lines => (c :: line) :: lines

/-- A text is made of its lines. -/
theorem flatten_linesOf (text : List Char) : (linesOf text).flatten = text := by
  induction text with
  | nil => rfl
  | cons c rest ih =>
    rw [linesOf]
    split
    · rw [List.flatten_cons, ih, List.singleton_append]
    · split
      · next hlines =>
        rw [hlines] at ih
        rw [← ih]
        rfl
      · next line lines hlines =>
        rw [hlines, List.flatten_cons] at ih
        rw [List.flatten_cons, List.cons_append, ih]

example : linesOf ['a', '\n', '\n', 'b'] = [['a', '\n'], ['\n'], ['b']] := by
  decide

/-- The first end of line of a text closes its first line. -/
theorem linesOf_append {line : List Char} (hline : '\n' ∉ line) (rest : List Char) :
    linesOf (line ++ '\n' :: rest) = (line ++ ['\n']) :: linesOf rest := by
  induction line with
  | nil => rw [List.nil_append, linesOf, if_pos rfl, List.nil_append]
  | cons c line ih =>
    obtain ⟨hc, hline⟩ := not_or.1 (mt List.mem_cons.2 hline)
    rw [List.cons_append, linesOf, if_neg (Ne.symm hc), ih hline, List.cons_append]

/-- What is written line by line falls into these lines. -/
theorem linesOf_flatMap {lines : List (List Char)} (hlines : ∀ line ∈ lines, '\n' ∉ line) :
    linesOf (lines.flatMap (· ++ ['\n'])) = lines.map (· ++ ['\n']) := by
  induction lines with
  | nil => rfl
  | cons line lines ih =>
    obtain ⟨hline, hlines⟩ := List.forall_mem_cons.1 hlines
    rw [List.flatMap_cons, List.append_assoc, List.singleton_append, linesOf_append hline,
      ih hlines, List.map_cons]

/-- A text with `k` blanks in front of every line. -/
def indentEach (k : Nat) (text : String) : String :=
  String.ofList ((linesOf text.toList).flatMap (List.replicate k ' ' ++ ·))

/-! ### Blocks -/

/-- **A block of `n` lines**: a text for every level that consists of the same `n` lines at
all levels, each behind as many blanks as the level says. -/
def IsBlock (n : Nat) (text : Nat → String) : Prop :=
  ∃ lines : List (List Char), lines.length = n ∧ (∀ line ∈ lines, '\n' ∉ line) ∧
    ∀ k, (text k).toList = lines.flatMap (List.replicate k ' ' ++ · ++ ['\n'])

namespace IsBlock

variable {m n : Nat} {text text' : Nat → String}

/-- What has no end of line may stand alone on a line. -/
theorem line {content : String} (hcontent : '\n' ∉ content.toList) :
    IsBlock 1 fun k => indent k ++ content ++ "\n" := by
  refine ⟨[content.toList], rfl, fun l hl => ?_, fun k => ?_⟩
  · rwa [List.mem_singleton.1 hl]
  · simp [indent]

/-- One block after the other is a block. -/
theorem append (h : IsBlock m text) (h' : IsBlock n text') :
    IsBlock (m + n) fun k => text k ++ text' k := by
  obtain ⟨lines, hlength, hlines, htext⟩ := h
  obtain ⟨lines', hlength', hlines', htext'⟩ := h'
  refine ⟨lines ++ lines', ?_, fun l hl => ?_, fun k => ?_⟩
  · rw [List.length_append, hlength, hlength']
  · exact (List.mem_append.1 hl).elim (hlines l) (hlines' l)
  · rw [String.toList_append, htext, htext', List.flatMap_append]

/-- A block that is written one level deeper is a block: the blank of that level belongs
to its lines. -/
theorem deeper (h : IsBlock n text) : IsBlock n fun k => text (k + 1) := by
  obtain ⟨lines, hlength, hlines, htext⟩ := h
  refine ⟨lines.map (' ' :: ·), ?_, fun l hl => ?_, fun k => ?_⟩
  · rw [List.length_map, hlength]
  · obtain ⟨line, hline, rfl⟩ := List.mem_map.1 hl
    exact List.not_mem_cons_of_ne_of_not_mem (by decide) (hlines line hline)
  · rw [htext, List.flatMap_map]
    simp only [List.replicate_succ', List.append_assoc, List.singleton_append]

/-- **The lines of a block**, at all levels. -/
theorem exists_linesOf_eq (h : IsBlock n text) :
    ∃ lines : List (List Char), lines.length = n ∧ ∀ k, linesOf (text k).toList =
      lines.map (List.replicate k ' ' ++ · ++ ['\n']) := by
  obtain ⟨lines, hlength, hlines, htext⟩ := h
  refine ⟨lines, hlength, fun k => ?_⟩
  have hindented : ∀ line ∈ lines.map (List.replicate k ' ' ++ ·), '\n' ∉ line := by
    intro l hl
    obtain ⟨line, hline, rfl⟩ := List.mem_map.1 hl
    rw [List.mem_append, List.mem_replicate]
    rintro (⟨-, hblank⟩ | hmem)
    · exact absurd hblank (by decide)
    · exact hlines line hline hmem
  have hsplit := linesOf_flatMap hindented
  rw [List.flatMap_map, List.map_map] at hsplit
  rw [htext, hsplit]
  rfl

/-- A block is indented as a whole. -/
theorem eq_indentEach (h : IsBlock n text) (k : Nat) : text k = indentEach k (text 0) := by
  obtain ⟨lines, -, hlines⟩ := h.exists_linesOf_eq
  have htext : linesOf (text k).toList =
      (linesOf (text 0).toList).map (List.replicate k ' ' ++ ·) := by
    rw [hlines, hlines, List.map_map]
    simp [Function.comp_def]
  rw [indentEach, List.flatMap_def, ← htext, flatten_linesOf, String.ofList_toList]

/-- A block of `n` lines has `n` lines. -/
theorem length_linesOf (h : IsBlock n text) (k : Nat) :
    (linesOf (text k).toList).length = n := by
  obtain ⟨lines, hlength, hlines⟩ := h.exists_linesOf_eq
  rw [hlines, List.length_map, hlength]

/-- Every line of a block is closed. -/
theorem getLast?_of_mem_linesOf (h : IsBlock n text) {k : Nat} {line : List Char}
    (hline : line ∈ linesOf (text k).toList) : line.getLast? = some '\n' := by
  obtain ⟨lines, -, hlines⟩ := h.exists_linesOf_eq
  rw [hlines] at hline
  obtain ⟨content, -, rfl⟩ := List.mem_map.1 hline
  exact List.getLast?_concat

end IsBlock

/-! ### Elements on lines -/

namespace Element.IsPlain

variable {e : Element} (h : e.IsPlain)
include h

/-- The tag and the attributes of a plain element do not end a line. -/
theorem newline_not_mem : '\n' ∉ e.tag.toList ∧ '\n' ∉ e.attributeList.toList := by
  have hword : ∀ {c : Char}, isWordCharacter c = true → c ≠ '\n' := fun hc =>
    ne_of_isWordCharacter hc (by decide)
  refine ⟨fun hmem => hword (all_of_isWord h.tag _ hmem) rfl, fun hmem => ?_⟩
  rw [toList_attributeList, attributeText, List.mem_flatMap] at hmem
  obtain ⟨attr, hattr, hmem⟩ := hmem
  simp only [List.cons_append, List.mem_cons, List.mem_append, List.not_mem_nil, or_false] at hmem
  rcases hmem with heq | (hname | heq | heq | hvalue) | heq
  · exact absurd heq (by decide)
  · exact hword (all_of_isWord (h.names attr hattr) _ hname) rfl
  · exact absurd heq (by decide)
  · exact absurd heq (by decide)
  · exact hword (h.values attr hattr _ hvalue) rfl
  · exact absurd heq (by decide)

/-- A plain element that holds nothing is a block of one line. -/
theorem isBlock_leaf : IsBlock 1 fun k => indent k ++ e.leaf ++ "\n" := by
  obtain ⟨htag, hattributes⟩ := h.newline_not_mem
  refine .line ?_
  simp [Element.leaf, htag, hattributes]

/-- The opening tag of a plain element is a block of one line. -/
theorem isBlock_openingTag : IsBlock 1 fun k => indent k ++ e.openingTag ++ "\n" := by
  obtain ⟨htag, hattributes⟩ := h.newline_not_mem
  refine .line ?_
  rw [Element.openingTag]
  split <;> simp [htag, hattributes]

/-- The closing tag of a plain element is a block of one line. -/
theorem isBlock_closingTag : IsBlock 1 fun k => indent k ++ e.closingTag ++ "\n" := by
  refine .line ?_
  simp [Element.closingTag, h.newline_not_mem.1]

end Element.IsPlain

end Markup

namespace Encoding

open Markup

/-! ### The writers of the parts -/

/-- An assignment alone on a line. -/
def encodeAssignment (part : Part) (ids : List UInt64) (level : Nat) : String :=
  Line.render level ⟨0, (assignmentElement part ids).leaf⟩

/-- The operation of a problem, around its assignments. -/
def encodeOperation (p : Problem) (level : Nat) : String :=
  Line.render level ⟨0, (operationElement p).openingTag⟩ ++
    (encodeAssignment .assignmentA p.idsA (level + 1) ++
      encodeAssignment .assignmentB p.idsB (level + 1)) ++
    Line.render level ⟨0, (operationElement p).closingTag⟩

/-- **A problem is written by the writers of its parts**, each one level deeper. -/
theorem encode_eq_parts (p : Problem) (level : Nat) :
    encode p level =
      Line.render level ⟨0, problemElement.openingTag⟩ ++
        (encodeTensor p.c "C" (level + 1) ++ encodeTensor p.a "A" (level + 1) ++
          encodeTensor p.b "B" (level + 1) ++ encodeOperation p (level + 1) ++
          encodeProfile p.profile (level + 1)) ++
        Line.render level ⟨0, problemElement.closingTag⟩ := by
  simp only [encode, renderLines, lines, List.map_cons, List.map_nil, String.join_cons,
    String.join_nil, encodeTensor, encodeOperation, encodeAssignment, encodeProfile, Line.render,
    Nat.add_zero, Nat.add_assoc, Nat.reduceAdd, String.append_assoc, String.append_empty]

theorem isBlock_encodeTensor (name : String) (hname : isWord ("T" ++ name).toList = true)
    (t : Tensor) : IsBlock 1 (encodeTensor t name) :=
  (holdsList_tensor hname t).isPlain.isBlock_leaf

theorem isBlock_encodeProfile (profile : DeviceProfile) : IsBlock 1 (encodeProfile profile) :=
  (holdsList_profile profile).isPlain.isBlock_leaf

theorem isBlock_encodeAssignment (part : Part) (ids : List UInt64) :
    IsBlock 1 (encodeAssignment part ids) :=
  (holdsList_assignment part ids).isPlain.isBlock_leaf

theorem isBlock_encodeOperation (p : Problem) : IsBlock 4 (encodeOperation p) := by
  have hplain := isPlain_operationElement p
  have hassignments := (isBlock_encodeAssignment .assignmentA p.idsA).append
    (isBlock_encodeAssignment .assignmentB p.idsB)
  exact (hplain.isBlock_openingTag.append hassignments.deeper).append hplain.isBlock_closingTag

/-- **A problem is a block of ten lines.** -/
theorem isBlock_encode (p : Problem) : IsBlock 10 (encode p) := by
  have htensors := ((isBlock_encodeTensor "C" (by decide) p.c).append
    (isBlock_encodeTensor "A" (by decide) p.a)).append (isBlock_encodeTensor "B" (by decide) p.b)
  have hparts := (htensors.append (isBlock_encodeOperation p)).append
    (isBlock_encodeProfile p.profile)
  rw [funext (encode_eq_parts p)]
  exact (isPlain_problemElement.isBlock_openingTag.append hparts.deeper).append
    isPlain_problemElement.isBlock_closingTag

/-! ### The layout of a problem -/

/-- **Indentation is uniform.** The text of a problem at level `k` is its text at level `0`
with `k` blanks in front of every line; it has ten lines, and every one of them is closed
by an end of line. -/
theorem encode_indented (p : Problem) (k : Nat) :
    encode p k = indentEach k (encode p 0) ∧
      (∀ line ∈ linesOf (encode p k).toList, line.getLast? = some '\n') ∧
      (linesOf (encode p k).toList).length = 10 :=
  have h := isBlock_encode p
  ⟨h.eq_indentEach k, fun _ hline => h.getLast?_of_mem_linesOf hline, h.length_linesOf k⟩

end Encoding

end TensorContraction
