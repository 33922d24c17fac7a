import Mathlib.Data.List.TakeWhile
import TensorContraction.Markup.Tag

/-!
# Words

Everything that stands between the punctuation of an encoded problem is made of the
same few characters: the ASCII letters and digits, and `_`
(`TensorContraction.Markup.isWordCharacter`). A **word** is made of these and begins
with a letter (`TensorContraction.Markup.isWord`).

Words are the names that no rule of tagged text stands in the way of: a word is a
name, it has no colon to be taken apart at
(`TensorContraction.Markup.ofWord?_of_isWord`), and none of its characters is white
space, a quote or markup.
-/

namespace TensorContraction

namespace Markup

/-! ### Characters of words -/

/-- Whether a character is an ASCII letter, an ASCII digit or `_`. -/
def isWordCharacter (c : Char) : Bool :=
  c.isAlphanum || c == '_'

theorem isAlpha_iff_toNat {c : Char} :
    c.isAlpha = true ↔ (65 ≤ c.toNat ∧ c.toNat ≤ 90) ∨ (97 ≤ c.toNat ∧ c.toNat ≤ 122) := by
  change (decide (65 ≤ c.val ∧ c.val ≤ 90) || (97 ≤ c.val && c.val ≤ 122)) = true ↔ _
  rw [Bool.or_eq_true, Bool.and_eq_true]
  simp only [decide_eq_true_eq, UInt32.le_iff_toNat_le]
  rfl

theorem isDigit_iff_toNat {c : Char} : c.isDigit = true ↔ 48 ≤ c.toNat ∧ c.toNat ≤ 57 := by
  simp [Char.isDigit, UInt32.le_iff_toNat_le]

/-- The characters of words by their code points. Everything below follows from the
ranges alone. -/
theorem isWordCharacter_iff_toNat {c : Char} :
    isWordCharacter c = true ↔
      (48 ≤ c.toNat ∧ c.toNat ≤ 57) ∨ (65 ≤ c.toNat ∧ c.toNat ≤ 90) ∨
        c.toNat = 95 ∨ (97 ≤ c.toNat ∧ c.toNat ≤ 122) := by
  have hline : c = '_' ↔ c.toNat = 95 := by
    rw [← Char.toNat_inj]
    rfl
  rw [isWordCharacter, Char.isAlphanum, Bool.or_eq_true, Bool.or_eq_true, isAlpha_iff_toNat,
    isDigit_iff_toNat, beq_iff_eq, hline]
  omega

/-- A character is told apart from the characters of words by its code point. -/
theorem ne_of_isWordCharacter {c d : Char} (h : isWordCharacter c = true)
    (hd : isWordCharacter d = false) : c ≠ d := by
  rintro rfl
  rw [h] at hd
  cases hd

theorem isCharacter_of_isWordCharacter {c : Char} (h : isWordCharacter c = true) :
    isCharacter c = true := by
  rw [isWordCharacter_iff_toNat] at h
  simp only [isCharacter, isIn, List.any_cons, List.any_nil, Bool.or_eq_true, Bool.and_eq_true,
    decide_eq_true_eq]
  omega

theorem isNameCharacter_of_isWordCharacter {c : Char} (h : isWordCharacter c = true) :
    isNameCharacter c = true := by
  rw [isWordCharacter_iff_toNat] at h
  simp only [isNameCharacter, isNameStart, isIn, List.any_cons, List.any_nil, Bool.or_eq_true,
    Bool.and_eq_true, decide_eq_true_eq]
  omega

theorem isSpace_of_isWordCharacter {c : Char} (h : isWordCharacter c = true) :
    isSpace c = false := by
  rw [isWordCharacter_iff_toNat] at h
  rw [Bool.eq_false_iff, ne_eq]
  simp only [isSpace, isIn, List.any_cons, List.any_nil, Bool.or_eq_true, Bool.and_eq_true,
    decide_eq_true_eq, Bool.false_eq_true, or_false]
  omega

theorem isWordCharacter_of_isAlpha {c : Char} (h : c.isAlpha = true) :
    isWordCharacter c = true := by
  simp [isWordCharacter, Char.isAlphanum, h]

theorem isWordCharacter_of_isDigit {c : Char} (h : c.isDigit = true) :
    isWordCharacter c = true := by
  simp [isWordCharacter, Char.isAlphanum, h]

theorem isNameStart_of_isAlpha {c : Char} (h : c.isAlpha = true) : isNameStart c = true := by
  rw [isAlpha_iff_toNat] at h
  simp only [isNameStart, isIn, List.any_cons, List.any_nil, Bool.or_eq_true, Bool.and_eq_true,
    decide_eq_true_eq]
  omega

/-! ### Characters around words -/

/-- The punctuation of tags, blanks and ends of lines may stand in a text. -/
@[simp]
theorem isCharacter_punctuation :
    isCharacter '<' = true ∧ isCharacter '>' = true ∧ isCharacter '/' = true ∧
      isCharacter '=' = true ∧ isCharacter '"' = true ∧ isCharacter ' ' = true ∧
      isCharacter '\n' = true := by
  decide

/-- Only blanks and ends of lines are white space among them. -/
@[simp]
theorem isSpace_punctuation :
    isSpace '<' = false ∧ isSpace '>' = false ∧ isSpace '/' = false ∧ isSpace '=' = false ∧
      isSpace '"' = false ∧ isSpace ' ' = true ∧ isSpace '\n' = true := by
  decide

/-! ### Words -/

/-- Whether a list of characters is a word: a letter, followed by characters of
words. -/
def isWord : List Char → Bool
  | [] => false
  | c :: rest => c.isAlpha && rest.all isWordCharacter

theorem all_of_isWord {word : List Char} (h : isWord word = true) :
    ∀ c ∈ word, isWordCharacter c = true := by
  cases word with
  | nil => cases h
  | cons c rest =>
    rw [isWord, Bool.and_eq_true, List.all_eq_true] at h
    rintro d (_ | ⟨_, hd⟩)
    · exact isWordCharacter_of_isAlpha h.1
    · exact h.2 d hd

/-- A word goes on as a word. -/
theorem isWord_append {word rest : List Char} (h : isWord word = true)
    (hrest : ∀ c ∈ rest, isWordCharacter c = true) : isWord (word ++ rest) = true := by
  cases word with
  | nil => cases h
  | cons c word =>
    rw [isWord, Bool.and_eq_true] at h
    simp only [List.cons_append, isWord, List.all_append, Bool.and_eq_true, h, true_and]
    exact List.all_eq_true.2 hrest

theorem isPlainName_of_isWord {word : List Char} (h : isWord word = true) :
    isPlainName word = true := by
  have hall := all_of_isWord h
  cases word with
  | nil => cases h
  | cons c rest =>
    rw [isWord, Bool.and_eq_true] at h
    rw [isPlainName, Bool.and_eq_true, List.all_eq_true]
    refine ⟨fun d hd => ?_, isNameStart_of_isAlpha h.1⟩
    rw [Bool.and_eq_true, isNameCharacter_of_isWordCharacter (hall d hd), bne_iff_ne]
    exact ⟨rfl, ne_of_isWordCharacter (hall d hd) (by decide)⟩

/-- **A word is a name without a label.** -/
theorem ofWord?_of_isWord {word : List Char} (h : isWord word = true) :
    QName.ofWord? word = some ⟨none, String.ofList word⟩ := by
  have hcolon : ∀ c ∈ word, (c != ':') = true := fun c hc =>
    bne_iff_ne.2 (ne_of_isWordCharacter (all_of_isWord h c hc) (by decide))
  have htake : word.takeWhile (· != ':') = word := List.takeWhile_eq_self_iff.2 hcolon
  have hdrop : word.dropWhile (· != ':') = [] := List.dropWhile_eq_nil_iff.2 hcolon
  simp [QName.ofWord?, htake, hdrop, isPlainName_of_isWord h]

end Markup

end TensorContraction
