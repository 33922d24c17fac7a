import TensorContraction.Problem.Order
import TensorContraction.Proofs.Encoding.DraftStep
import TensorContraction.Proofs.Encoding.WrittenPart
import TensorContraction.Proofs.Markup.Document

/-!
# The round trip of a problem

A problem is written as ten lines of text, and what reads it starts from the
characters. This file follows the text all the way: the ten lines are those of a tree of
plain elements (`TensorContraction.Encoding.lines_problemTree`), so that the elements of the
problem are reported in order (`TensorContraction.Encoding.report_encode`); a draft that is
given these events fills its places one by one
(`TensorContraction.Encoding.drafts_problemTree`); and what the full draft describes is the
problem, with its devices under safe names
(`TensorContraction.Encoding.decodeWith_encode_eq`).

Everything about the text as a key follows: it is the same for a problem and for the one
read back, and it is the same for two problems only if they differ in nothing but unsafe
characters of device names.
-/

namespace TensorContraction

/-! ### Problems under safe names -/

/-- The problem with every device under a safe name: the indices do not depend on the
devices. -/
def Problem.withSafeNames (p : Problem) : Problem :=
  ⟨p.toDescription.withSafeNames, p.classification, p.length_idsA, p.length_idsB, p.classify_eq⟩

/-- A list is its own image if and only if all its entries are. -/
theorem map_eq_self_iff {α : Type} {f : α → α} {l : List α} :
    l.map f = l ↔ ∀ x ∈ l, f x = x := by
  simpa using List.map_inj_left (f := f) (g := id) (l := l)

/-- A name is safe if it consists of ASCII letters, ASCII digits and `_`. -/
theorem safeName_eq_self_iff {name : String} :
    safeName name = name ↔ ∀ c ∈ name.toList, c.isAlphanum = true ∨ c = '_' := by
  have hchar : ∀ c, safeChar c = c ↔ c.isAlphanum = true ∨ c = '_' := by
    intro c
    rw [safeChar]
    split
    · next h => simp [h]
    · next h => simp [h, eq_comm]
  have hlist : safeName name = name ↔ name.toList.map safeChar = name.toList := by
    rw [← String.toList_inj, safeName, String.toList_ofList]
  rw [hlist, map_eq_self_iff]
  exact forall₂_congr fun c _ => hchar c

namespace DeviceProfile

/-- A profile is its own safe form if and only if all its names are safe. -/
theorem withSafeNames_eq_self_iff {profile : DeviceProfile} :
    profile.withSafeNames = profile ↔
      ∀ device ∈ profile.devices, ∀ c ∈ device.name.toList, c.isAlphanum = true ∨ c = '_' := by
  obtain ⟨devices⟩ := profile
  rw [withSafeNames, mk.injEq, map_eq_self_iff]
  refine forall₂_congr fun device _ => ?_
  rw [← safeName_eq_self_iff]
  obtain ⟨name, units, clock, flops⟩ := device
  simp [Device.withSafeName]

end DeviceProfile

namespace Encoding

open Markup Markup.ElementTree

/-! ### What is written -/

/-- The elements of a problem as they are written. -/
def problemTree (p : Problem) : ElementTree :=
  .node problemElement
    [.leaf (tensorElement "C" p.c), .leaf (tensorElement "A" p.a), .leaf (tensorElement "B" p.b),
      .node (operationElement p)
        [.leaf (assignmentElement .assignmentA p.idsA),
          .leaf (assignmentElement .assignmentB p.idsB)],
      .leaf (profileElement p.profile)]

/-- The lines of a problem are those of its tree. -/
theorem lines_problemTree (p : Problem) : (problemTree p).lines 0 = lines p :=
  rfl

/-- All elements of a problem are plain. -/
theorem isPlain_problemTree (p : Problem) : ∀ e ∈ (problemTree p).elements, e.IsPlain := by
  have htensorC : (tensorElement "C" p.c).IsPlain := (holdsList_tensor (by decide) p.c).isPlain
  have htensorA : (tensorElement "A" p.a).IsPlain := (holdsList_tensor (by decide) p.a).isPlain
  have htensorB : (tensorElement "B" p.b).IsPlain := (holdsList_tensor (by decide) p.b).isPlain
  have hidsA := (holdsList_assignment .assignmentA p.idsA).isPlain
  have hidsB := (holdsList_assignment .assignmentB p.idsB).isPlain
  have hprofile := (holdsList_profile p.profile).isPlain
  simp [problemTree, elements, elementsOf, leaf, isPlain_problemElement, htensorC, htensorA,
    htensorB, isPlain_operationElement, hidsA, hidsB, hprofile]

/-- **What is reported of the text of a problem**: its elements, in a complete document. -/
theorem report_encode {report : String → Report} (hreport : ReadsPlain report) (p : Problem)
    (level : Nat) : report (encode p level) = ⟨(problemTree p).events, true⟩ := by
  rw [encode, ← lines_problemTree]
  exact hreport (problemTree p) (isPlain_problemTree p) level

/-! ### What is read -/

/-- The draft of a problem that has been read. -/
def fullDraft (p : Problem) : Draft where
  path := []
  begun := true
  c := some p.c
  a := some p.a
  b := some p.b
  operation := some (p.operation, countsOf p)
  idsA := some p.idsA
  idsB := some p.idsB
  profile := some p.profile.withSafeNames

/-- **The draft is filled** by the events of a written problem. -/
theorem drafts_problemTree {p : Problem} (h : p.IsAddressable) :
    Drafts .blank (problemTree p).events (fullDraft p) := by
  have hc : readTensor (tensorElement "C" p.c) = .ok p.c := readTensor_tensorElement (by decide) h.c
  have ha : readTensor (tensorElement "A" p.a) = .ok p.a := readTensor_tensorElement (by decide) h.a
  have hb : readTensor (tensorElement "B" p.b) = .ok p.b := readTensor_tensorElement (by decide) h.b
  have hoperation := readOperation_operationElement h
  have hidsA := readAssignment_assignmentElement .assignmentA (p.length_idsA ▸ h.a)
  have hidsB := readAssignment_assignmentElement .assignmentB (p.length_idsB ▸ h.b)
  have hprofile := readProfile_profileElement h.profile
  refine .start .problem rfl rfl rfl ?_
  refine .start .tensorC rfl rfl (by simp only [Draft.readPart, hc]; rfl) (.stop ?_)
  refine .start .tensorA rfl rfl (by simp only [Draft.readPart, ha]; rfl) (.stop ?_)
  refine .start .tensorB rfl rfl (by simp only [Draft.readPart, hb]; rfl) (.stop ?_)
  refine .start .operation rfl rfl
    (by simp only [Draft.readPart, hoperation]; rfl) ?_
  refine .start .assignmentA rfl rfl
    (by simp only [Draft.readPart, hidsA]; rfl) (.stop ?_)
  refine .start .assignmentB rfl rfl
    (by simp only [Draft.readPart, hidsB]; rfl) (.stop (.stop ?_))
  refine .start .profile rfl rfl
    (by simp only [Draft.readPart, hprofile]; rfl) (.stop (.stop ?_))
  exact Drafts.nil_iff.2 rfl

/-- **What is read is the problem under safe names.** -/
theorem decodeWith_encode_eq {report : String → Report} (hreport : ReadsPlain report)
    {p : Problem} (h : p.IsAddressable) (level : Nat) :
    decodeWith report (encode p level) = .ok p.withSafeNames := by
  have hfinish : (fullDraft p).finish = .ok p.withSafeNames :=
    Draft.finish_eq_ok_iff.2 ⟨p.withSafeNames.toDescription, countsOf p, rfl,
      Problem.ofDescription_toDescription p.withSafeNames, toNat_countsOf h⟩
  refine decodeWith_eq_ok_iff.2 ⟨fullDraft p, ?_, ?_, hfinish⟩
  · rw [report_encode hreport]
    exact drafts_problemTree h
  · rw [report_encode hreport]

/-! ### The text as a key -/

/-- The text does not depend on unsafe characters of names. -/
theorem encode_withSafeNames (p : Problem) (level : Nat) :
    encode p.withSafeNames level = encode p level := by
  have hprofile : profileElement p.withSafeNames.profile = profileElement p.profile :=
    profileElement_withSafeNames p.profile
  simp only [encode, lines, hprofile]
  rfl

/-- The equality of problems looks at safe and unsafe names alike, so that a problem
equals the one read back only if all names are safe. -/
theorem withSafeNames_beq_iff {p : Problem} :
    (p.withSafeNames == p) = true ↔ p.profile.withSafeNames = p.profile := by
  have hkey : p.withSafeNames.key = { p.key with profile := p.profile.withSafeNames } := rfl
  rw [Problem.beq_iff_key_eq, hkey]
  exact ⟨fun h => congrArg Problem.Key.profile h, fun h => by rw [h]; rfl⟩

/-- Problems with the same text have lists of the same lengths, for these are written. -/
theorem isAddressable_of_encode_eq {p q : Problem} (h : p.IsAddressable) {level : Nat}
    (htext : encode q level = encode p level) : q.IsAddressable := by
  have hreport := report_encode readsPlain_report q level
  rw [htext, report_encode readsPlain_report p level, Report.mk.injEq] at hreport
  have hevents : (problemTree p).events = (problemTree q).events := hreport.1
  simp only [problemTree, events, eventsOf, leaf, List.nil_append, List.cons_append,
    List.cons.injEq, Event.start.injEq, true_and, and_true] at hevents
  obtain ⟨hc, ha, hb, -, -, -, hprofile⟩ := hevents
  have htensor : ∀ {name} {s t : Tensor}, tensorElement name s = tensorElement name t →
      s.rank = t.rank := by
    intro name s t heq
    have hattributes := congrArg Element.attributes heq
    simp only [tensorElement, listAttributes, List.cons.injEq, numeric,
      Prod.mk.injEq] at hattributes
    exact Decimal.text_injective hattributes.2.1.2
  have hdevices : p.profile.numDevices = q.profile.numDevices := by
    have hattributes := congrArg Element.attributes hprofile
    simp only [profileElement, listAttributes, List.cons.injEq, numeric,
      Prod.mk.injEq] at hattributes
    exact Decimal.text_injective hattributes.1.2
  exact ⟨htensor hc ▸ h.c, htensor ha ▸ h.a, htensor hb ▸ h.b, hdevices ▸ h.profile⟩

/-- **The round trip of a problem.** The text of a problem decodes to the problem of the
same description under safe names, so that the text is a fixed point of reading and
writing. The problem read back equals the first one exactly if all names of devices are
safe, and two problems have the same text exactly if their descriptions agree under safe
names. All that is asked of those who report the elements of the text is that they read plain
documents. -/
theorem decode_encode {report : String → Report} (hreport : ReadsPlain report) (p : Problem)
    (h : p.IsAddressable) (level : Nat) :
    ∃ q, Problem.ofDescription p.toDescription.withSafeNames = .ok q ∧
      decodeWith report (encode p level) = .ok q ∧
      (∀ level', encode q level' = encode p level') ∧
      ((q == p) = true ↔ ∀ device ∈ p.profile.devices, ∀ c ∈ device.name.toList,
        c.isAlphanum = true ∨ c = '_') ∧
      ∀ p' : Problem, encode p' level = encode p level ↔
        p'.toDescription.withSafeNames = p.toDescription.withSafeNames := by
  refine ⟨p.withSafeNames, Problem.ofDescription_toDescription p.withSafeNames,
    decodeWith_encode_eq hreport h level, encode_withSafeNames p, ?_,
    fun p' => ⟨fun htext => ?_, fun hd => ?_⟩⟩
  · rw [withSafeNames_beq_iff, DeviceProfile.withSafeNames_eq_self_iff]
  · have hdecode := decodeWith_encode_eq hreport (isAddressable_of_encode_eq h htext) level
    rw [htext, decodeWith_encode_eq hreport h level] at hdecode
    exact congrArg Problem.toDescription (Except.ok.inj hdecode).symm
  · have hproblem : p'.withSafeNames = p.withSafeNames := Problem.ext_description hd
    rw [← encode_withSafeNames p', hproblem, encode_withSafeNames p]

/-- A product of matrices that is meant for a device with a quote, markup and the end of
a line in its name. -/
def unsafeProduct : Problem where
  c := .packed .single [4, 8]
  a := ⟨.single, [⟨1, 3⟩, ⟨18446744073709551615, 4⟩]⟩
  b := .packed .single [3, 8]
  idsA := [2, 0]
  idsB := [2, 1]
  operation := (Operation.gemm .single).withOffsets true
  profile := ⟨[⟨"gfx\"<803>\n", 64, 1050, 4294967295⟩]⟩
  classification := ⟨[0, 1], [], [⟨0, 0⟩]⟩
  length_idsA := rfl
  length_idsB := rfl
  classify_eq := rfl

/-- Even under such a name a problem is read back, but the problem that is read is
another one. -/
theorem decode_encode_unsafeProduct :
    unsafeProduct.IsAddressable ∧
      ∃ q, Problem.ofDescription unsafeProduct.toDescription.withSafeNames = .ok q ∧
        decode (encode unsafeProduct 2) = .ok q ∧ (q == unsafeProduct) = false := by
  have haddressable : unsafeProduct.IsAddressable :=
    ⟨by decide, by decide, by decide, by decide⟩
  obtain ⟨q, hq, hdecode, -, hequal, -⟩ :=
    decode_encode readsPlain_report unsafeProduct haddressable 2
  refine ⟨haddressable, q, hq, hdecode, ?_⟩
  rw [Bool.eq_false_iff, ne_eq, hequal]
  exact fun hsafe => absurd (hsafe _ List.mem_cons_self '<' (by decide)) (by decide)

end Encoding

end TensorContraction
