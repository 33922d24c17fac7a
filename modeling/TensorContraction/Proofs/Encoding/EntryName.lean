import Mathlib.Data.List.Basic
import Mathlib.Data.List.Nodup
import Mathlib.Data.List.TakeWhile
import TensorContraction.Encoding.Attributes
import TensorContraction.Proofs.Decimal
import TensorContraction.Proofs.Markup.Word

/-!
# Names of entries

The entries of a list are named by a stem and a position, as in `st0` and `sz0`. None of
the stems has a digit in it, and the numeral of a position has nothing but digits, so
that a name is taken apart in one way only: two names are the same if and only if stem
and position are (`TensorContraction.Encoding.entryName_inj`), and a name looks like an
entry under one stem only (`TensorContraction.Encoding.isEntryName_entryName`).

This is what makes the attributes of a list different from each other
(`TensorContraction.Encoding.nodup_entryNames`) and what makes their number under a stem
the length of the list (`TensorContraction.Encoding.countP_entryNames`).
-/

namespace TensorContraction

namespace Encoding

open Markup

/-! ### Numerals -/

/-- A numeral is made of the characters of words. -/
theorem isWordCharacter_of_mem_text {n : Nat} {c : Char} (hc : c ∈ (Decimal.text n).toList) :
    isWordCharacter c = true :=
  isWordCharacter_of_isDigit (Decimal.isDigit_of_mem_text hc)

/-! ### Taking a name apart -/

/-- Whether a word has no digit in it. -/
def isStem (stem : String) : Bool :=
  stem.toList.all fun c => !c.isDigit

theorem toList_entryName (stem : String) (k : Nat) :
    (entryName stem k).toList = stem.toList ++ Nat.toDigits 10 k := by
  rw [entryName, String.toList_append, Decimal.toList_text]

/-- What stands before the first digit of a stem with digits behind it is the stem. -/
theorem takeWhile_stem {stem : String} (hstem : isStem stem = true) {digits : List Char}
    (hdigits : ∀ c ∈ digits, c.isDigit = true) :
    (stem.toList ++ digits).takeWhile (fun c => !c.isDigit) = stem.toList := by
  have hnone : digits.takeWhile (fun c => !c.isDigit) = [] := by
    cases digits with
    | nil => rfl
    | cons c rest => simp [hdigits c List.mem_cons_self]
  rw [List.takeWhile_append_of_pos (List.all_eq_true.1 hstem), hnone, List.append_nil]

/-- A stem with digits behind it is taken apart in one way. -/
theorem stem_append_inj {stem stem' : String} (h : isStem stem = true) (h' : isStem stem' = true)
    {digits digits' : List Char} (hd : ∀ c ∈ digits, c.isDigit = true)
    (hd' : ∀ c ∈ digits', c.isDigit = true)
    (heq : stem.toList ++ digits = stem'.toList ++ digits') : stem = stem' ∧ digits = digits' := by
  have hstem : stem = stem' := by
    rw [← String.toList_inj, ← takeWhile_stem h hd, heq, takeWhile_stem h' hd']
  subst hstem
  exact ⟨rfl, List.append_cancel_left heq⟩

/-- **Names of entries are different** for different stems and for different
positions. -/
theorem entryName_inj {stem stem' : String} (h : isStem stem = true) (h' : isStem stem' = true)
    {k k' : Nat} : entryName stem k = entryName stem' k' ↔ stem = stem' ∧ k = k' := by
  refine ⟨fun heq => ?_, fun heq => by rw [heq.1, heq.2]⟩
  have hlist := congrArg String.toList heq
  rw [toList_entryName, toList_entryName, ← Decimal.toList_text, ← Decimal.toList_text] at hlist
  obtain ⟨hstem, htext⟩ := stem_append_inj h h' (fun c hc => Decimal.isDigit_of_mem_text hc)
    (fun c hc => Decimal.isDigit_of_mem_text hc) hlist
  exact ⟨hstem, Decimal.text_injective (String.toList_inj.1 htext)⟩

/-! ### What looks like an entry -/

/-- **What looks like an entry**: the stem with one or more digits behind it. -/
theorem isEntryName_iff {stem name : String} :
    isEntryName stem name = true ↔
      ∃ digits, digits ≠ [] ∧ (∀ c ∈ digits, c.isDigit = true) ∧
        name.toList = stem.toList ++ digits := by
  have hdrop : ∀ digits, name.toList = stem.toList ++ digits →
      name.toList.drop stem.length = digits := by
    intro digits h
    rw [h, ← String.length_toList, List.drop_left]
  rw [isEntryName]
  constructor
  · intro h
    split at h
    · cases h
    · next hne =>
      rw [Bool.and_eq_true, List.isPrefixOf_iff_prefix, List.all_eq_true] at h
      obtain ⟨⟨digits, hdigits⟩, hall⟩ := h
      rw [hdrop digits hdigits.symm] at hall hne
      exact ⟨digits, hne, hall, hdigits.symm⟩
  · rintro ⟨digits, hne, hall, hname⟩
    rw [hdrop digits hname]
    cases digits with
    | nil => exact absurd rfl hne
    | cons c rest =>
      rw [Bool.and_eq_true, List.isPrefixOf_iff_prefix, List.all_eq_true]
      exact ⟨⟨_, hname.symm⟩, hall⟩

/-- **An entry looks like one under its own stem only.** -/
theorem isEntryName_entryName {stem stem' : String} (h : isStem stem = true)
    (h' : isStem stem' = true) (k : Nat) :
    isEntryName stem (entryName stem' k) = decide (stem' = stem) := by
  rw [Bool.eq_iff_iff, isEntryName_iff, decide_eq_true_eq, toList_entryName, ← Decimal.toList_text]
  constructor
  · rintro ⟨digits, -, hdigits, heq⟩
    exact (stem_append_inj h' h (fun c hc => Decimal.isDigit_of_mem_text hc) hdigits heq).1
  · rintro rfl
    exact ⟨(Decimal.text k).toList, Decimal.toList_text_ne_nil k,
      fun c hc => Decimal.isDigit_of_mem_text hc, rfl⟩

/-- A name without a digit looks like no entry. -/
theorem isEntryName_of_isStem {stem name : String} (hname : isStem name = true) :
    isEntryName stem name = false := by
  rw [Bool.eq_false_iff, ne_eq, isEntryName_iff]
  rintro ⟨digits, hne, hdigits, heq⟩
  obtain ⟨c, hc⟩ := List.exists_mem_of_ne_nil digits hne
  have hmem : c ∈ name.toList := heq ▸ List.mem_append_right stem.toList hc
  have hnot := List.all_eq_true.1 hname c hmem
  rw [hdigits c hc] at hnot
  cases hnot

/-- So a name without a digit is the name of no entry. -/
theorem entryName_ne {stem name : String} (hstem : isStem stem = true) (hname : isStem name = true)
    (k : Nat) : entryName stem k ≠ name := by
  rintro rfl
  have hlike := isEntryName_entryName hstem hstem k
  rw [isEntryName_of_isStem hname] at hlike
  simp at hlike

/-! ### The names in a list -/

/-- The names of the entries of a list of some length, entry by entry and within an
entry stem by stem. -/
def entryNames (stems : List String) (length : Nat) : List String :=
  (List.range length).flatMap fun k => stems.map fun stem => entryName stem k

variable {stems : List String} (hstems : ∀ stem ∈ stems, isStem stem = true)
  (hnodup : stems.Nodup)

include hstems in
theorem notMem_entryNames {name : String} (hname : isStem name = true) (length : Nat) :
    name ∉ entryNames stems length := by
  intro hmem
  obtain ⟨k, -, hk⟩ := List.mem_flatMap.1 hmem
  obtain ⟨stem, hstem, heq⟩ := List.mem_map.1 hk
  exact entryName_ne (hstems stem hstem) hname k heq

include hstems hnodup in
/-- **No two entries of a list have the same name.** -/
theorem nodup_entryNames (length : Nat) : (entryNames stems length).Nodup := by
  rw [entryNames, List.nodup_flatMap]
  constructor
  · intro k _
    refine hnodup.map_on ?_
    intro stem hstem stem' hstem' heq
    exact ((entryName_inj (hstems stem hstem) (hstems stem' hstem')).1 heq).1
  · refine List.nodup_range.imp ?_
    intro k k' hne name hk hk'
    obtain ⟨stem, hstem, rfl⟩ := List.mem_map.1 hk
    obtain ⟨stem', hstem', heq⟩ := List.mem_map.1 hk'
    exact hne ((entryName_inj (hstems stem' hstem') (hstems stem hstem)).1 heq).2.symm

include hstems hnodup in
/-- **Under each of its stems, a list has as many entries as it is long.** -/
theorem countP_entryNames {stem : String} (hstem : stem ∈ stems) (length : Nat) :
    (entryNames stems length).countP (isEntryName stem) = length := by
  have hone : ∀ k, (stems.map fun stem' => entryName stem' k).countP (isEntryName stem) = 1 := by
    intro k
    rw [List.countP_map]
    have hcongr : stems.countP (isEntryName stem ∘ fun stem' => entryName stem' k) =
        stems.count stem := by
      refine List.countP_congr fun stem' hstem' => ?_
      rw [Function.comp_apply, isEntryName_entryName (hstems stem hstem) (hstems stem' hstem')]
      simp
    rw [hcongr, List.count_eq_one_of_mem hnodup hstem]
  induction length with
  | zero => rfl
  | succ length ih =>
    rw [entryNames, List.range_succ, List.flatMap_append, List.countP_append, ← entryNames, ih]
    simp [hone]

end Encoding

end TensorContraction
