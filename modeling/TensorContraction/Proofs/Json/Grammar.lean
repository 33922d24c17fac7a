import TensorContraction.Json.Form
import TensorContraction.Proofs.Decimal

/-!
# The grammar of JSON

Which texts spell a value (`TensorContraction.Json.Spells`) is said here without a reader:
the grammar is the one of the strict standard, rule by rule. A value has many spellings,
since white space may stand between the pieces of a text and a letter of a string may be
written as itself or as an escape; a text spells one value at most
(`TensorContraction.Json.Spells.unique`).

**The written form** is one of the spellings, but not of every value: a number has to be
spelt like one, and must not be one in plain digits, which is another kind of value; and what
is not a character in a string has to be half of one. A value whose written form spells it is
*proper* (`TensorContraction.Json.IsProper`). Whatever is put together from natural numbers,
truth values and strings of characters is.
-/

namespace TensorContraction

namespace Json

/-- White space. -/
def IsWhite (t : List Char) : Prop :=
  ∀ c ∈ t, Reader.isSpace c = true

theorem isWhite_nil : IsWhite [] := by
  intro c hc
  cases hc

/-! ### Numbers -/

/-- One or more digits. -/
structure IsDigits (t : List Char) : Prop where
  /-- There is a digit. -/
  ne_nil : t ≠ []
  /-- There is nothing else. -/
  isDigit : ∀ c ∈ t, c.isDigit = true

/-- The part of a number before the point: a zero, or digits that do not begin with one. -/
inductive IsInteger : List Char → Prop
  | zero : IsInteger ['0']
  | digits {c : Char} {t : List Char} (hc : c.isDigit = true) (hzero : c ≠ '0')
    (ht : ∀ d ∈ t, d.isDigit = true) : IsInteger (c :: t)

/-- The part of a number from the point on, which may be missing. -/
inductive IsFraction : List Char → Prop
  | nil : IsFraction []
  | digits {t : List Char} (ht : IsDigits t) : IsFraction ('.' :: t)

/-- The exponent of a number, which may be missing. -/
inductive IsExponent : List Char → Prop
  | nil : IsExponent []
  | plain {c : Char} {t : List Char} (hc : c = 'e' ∨ c = 'E') (ht : IsDigits t) :
    IsExponent (c :: t)
  | signed {c sign : Char} {t : List Char} (hc : c = 'e' ∨ c = 'E')
    (hsign : sign = '+' ∨ sign = '-') (ht : IsDigits t) : IsExponent (c :: sign :: t)

/-- **A number**: no sign but a minus, no leading zeros, and digits wherever some are due. -/
inductive IsNumber : List Char → Prop
  | positive {i f e : List Char} (hi : IsInteger i) (hf : IsFraction f) (he : IsExponent e) :
    IsNumber (i ++ f ++ e)
  | negative {i f e : List Char} (hi : IsInteger i) (hf : IsFraction f) (he : IsExponent e) :
    IsNumber ('-' :: (i ++ f ++ e))

/-! ### Strings -/

/-- What stands for a letter in a string: a character itself, unless it is a control
character or has a meaning there, or an escape. -/
inductive SpellsLetter : List Char → Letter → Prop
  | raw {c : Char} (hquote : c ≠ '"') (hslash : c ≠ '\\') (hcontrol : ¬c.toNat < 0x20) :
    SpellsLetter [c] (.plain c)
  | short {c d : Char} (h : unescape? c = some d) : SpellsLetter ['\\', c] (.plain d)
  | code {a b c d : Char} {code : Nat} (h : Hexadecimal.value? 0 [a, b, c, d] = some code) :
    SpellsLetter ['\\', 'u', a, b, c, d] (.ofCode code)

/-- What stands for the letters of a string. -/
inductive SpellsLetters : List Char → List Letter → Prop
  | nil : SpellsLetters [] []
  | cons {s t : List Char} {letter : Letter} {text : List Letter} (hs : SpellsLetter s letter)
    (ht : SpellsLetters t text) : SpellsLetters (s ++ t) (letter :: text)

/-- A string, between quotes. -/
inductive SpellsString : List Char → List Letter → Prop
  | quoted {t : List Char} {text : List Letter} (ht : SpellsLetters t text) :
    SpellsString ('"' :: t ++ ['"']) text

/-! ### Values -/

mutual

/-- **A text spells a value.** -/
inductive Spells : List Char → Json → Prop
  | null : Spells "null".toList .null
  | true : Spells "true".toList (.boolean true)
  | false : Spells "false".toList (.boolean false)
  | number {t : List Char} (ht : IsNumber t) : Spells t (Reader.numberOf t)
  | string {t : List Char} {text : List Letter} (ht : SpellsString t text) :
    Spells t (.string text)
  | emptyArray {w : List Char} (hw : IsWhite w) : Spells ('[' :: w ++ [']']) (.array [])
  | array {t : List Char} {items : List Json} (ht : SpellsItems t items) :
    Spells ('[' :: t ++ [']']) (.array items)
  | emptyObject {w : List Char} (hw : IsWhite w) :
    Spells ('\x7b' :: w ++ ['\x7d']) (.object [])
  | object {t : List Char} {fields : List (List Letter × Json)} (ht : SpellsFields t fields) :
    Spells ('\x7b' :: t ++ ['\x7d']) (.object fields)

/-- A text spells one or more items, with commas between them. -/
inductive SpellsItems : List Char → List Json → Prop
  | one {t : List Char} {item : Json} (ht : SpellsItem t item) : SpellsItems t [item]
  | cons {s t : List Char} {item : Json} {items : List Json} (hs : SpellsItem s item)
    (ht : SpellsItems t items) : SpellsItems (s ++ ',' :: t) (item :: items)

/-- A text spells a value, with white space around it. -/
inductive SpellsItem : List Char → Json → Prop
  | padded {w t w' : List Char} {item : Json} (hw : IsWhite w) (ht : Spells t item)
    (hw' : IsWhite w') : SpellsItem (w ++ t ++ w') item

/-- A text spells one or more fields, with commas between them. -/
inductive SpellsFields : List Char → List (List Letter × Json) → Prop
  | one {t : List Char} {field : List Letter × Json} (ht : SpellsField t field) :
    SpellsFields t [field]
  | cons {s t : List Char} {field : List Letter × Json} {fields : List (List Letter × Json)}
    (hs : SpellsField s field) (ht : SpellsFields t fields) :
    SpellsFields (s ++ ',' :: t) (field :: fields)

/-- A text spells a name and a value, with white space around each of them. -/
inductive SpellsField : List Char → List Letter × Json → Prop
  | named {w s w' t : List Char} {name : List Letter} {value : Json} (hw : IsWhite w)
    (hs : SpellsString s name) (hw' : IsWhite w') (ht : SpellsItem t value) :
    SpellsField (w ++ s ++ w' ++ ':' :: t) (name, value)

end

/-! ### Written forms of letters -/

/-- Four digits that are written for a code are read as the code. -/
theorem value?_codeDigits {code : Nat} (h : code < 0x10000) :
    Hexadecimal.value? 0 [Nat.digitChar (code / 4096 % 16), Nat.digitChar (code / 256 % 16),
      Nat.digitChar (code / 16 % 16), Nat.digitChar (code % 16)] = some code := by
  have hdigit : ∀ n, Hexadecimal.digit? (Nat.digitChar (n % 16)) = some (n % 16) := fun n =>
    Hexadecimal.digit?_digitChar (Nat.mod_lt n (by decide))
  have hcode : 16 * (16 * (16 * (16 * 0 + code / 4096 % 16) + code / 256 % 16) +
      code / 16 % 16) + code % 16 = code := by omega
  simp only [Hexadecimal.value?, hdigit, Option.bind_eq_bind, Option.bind_some, hcode]

/-- The codes of control characters are those of characters. -/
theorem ofCode_toNat {c : Char} (h : c.toNat < 0x20) : Letter.ofCode c.toNat = .plain c := by
  have hhigh : isHighHalf c.toNat = false := by simp [isHighHalf]; omega
  have hlow : isLowHalf c.toNat = false := by simp [isLowHalf]; omega
  simp [Letter.ofCode, hhigh, hlow, Char.ofNat_toNat]

/-- **A character is spelt** as it is written: as itself, by a short escape, or by its code. -/
theorem spellsLetter_escape (c : Char) : SpellsLetter (escape c) (.plain c) := by
  unfold escape
  split
  case h_8 hquote hslash _ _ _ _ _ =>
    by_cases hcontrol : c.toNat < 0x20
    · rw [if_pos hcontrol, ← ofCode_toNat hcontrol]
      exact .code (value?_codeDigits (by omega))
    · rw [if_neg hcontrol]
      exact .raw hquote hslash hcontrol
  all_goals exact .short rfl

/-- **A string is spelt** as it is written. -/
theorem spellsString_writtenString (s : String) :
    SpellsString (writtenString (letters s)) (letters s) := by
  have hletters : ∀ l : List Char,
      SpellsLetters ((l.map Letter.plain).flatMap Letter.written) (l.map .plain) := by
    intro l
    induction l with
    | nil => exact .nil
    | cons c l ih => exact .cons (spellsLetter_escape c) ih
  exact .quoted (hletters s.toList)

/-! ### Written forms of numbers -/

/-- **A numeral is an integer.** -/
theorem isInteger_toDigits (n : Nat) : IsInteger (Nat.toDigits 10 n) := by
  rcases Nat.eq_zero_or_pos n with rfl | hn
  · exact .zero
  · obtain ⟨c, t, hdigits, hzero⟩ := Decimal.toDigits_eq_cons hn
    have hall : ∀ d ∈ c :: t, d.isDigit = true := fun d hd =>
      Nat.isDigit_of_mem_toDigits (by decide) (Nat.le_refl 10) (hdigits ▸ hd)
    rw [hdigits]
    exact .digits (hall c List.mem_cons_self) hzero fun d hd =>
      hall d (List.mem_cons_of_mem c hd)

/-! ### Proper values -/

/-- **A proper value** is spelt by its written form. -/
def IsProper (value : Json) : Prop :=
  Spells value.written value

theorem isProper_boolean (b : Bool) : IsProper (.boolean b) := by
  cases b with
  | false => exact .false
  | true => exact .true

theorem isProper_natural (n : Nat) : IsProper (.natural n) := by
  have hnumber : IsNumber (Nat.toDigits 10 n) := by
    have h := IsNumber.positive (isInteger_toDigits n) .nil .nil
    rwa [List.append_nil, List.append_nil] at h
  have hvalue : Reader.numberOf (Nat.toDigits 10 n) = .natural n := by
    rw [Reader.numberOf, Decimal.value?_toDigits]
  have h := Spells.number hnumber
  rwa [hvalue] at h

theorem isProper_ofString (s : String) : IsProper (.ofString s) :=
  .string (spellsString_writtenString s)

/-- A value is spelt without white space around it. -/
theorem spellsItem_of_spells {t : List Char} {item : Json} (h : Spells t item) :
    SpellsItem t item := by
  have hitem := SpellsItem.padded isWhite_nil h isWhite_nil
  rwa [List.nil_append, List.append_nil] at hitem

/-- Proper items are spelt as they are written, if there are any. -/
theorem spellsItems_writtenItems {items : List Json} (hne : items ≠ [])
    (h : ∀ item ∈ items, IsProper item) : SpellsItems (writtenItems items) items := by
  induction items with
  | nil => exact absurd rfl hne
  | cons item items ih =>
    have hitem := spellsItem_of_spells (h item List.mem_cons_self)
    cases items with
    | nil => exact .one hitem
    | cons next items =>
      exact .cons hitem (ih (List.cons_ne_nil next items) fun v hv =>
        h v (List.mem_cons_of_mem item hv))

theorem isProper_array {items : List Json} (h : ∀ item ∈ items, IsProper item) :
    IsProper (.array items) := by
  cases items with
  | nil => exact .emptyArray isWhite_nil
  | cons item items => exact .array (spellsItems_writtenItems (List.cons_ne_nil item items) h)

/-- A field is spelt without white space. -/
theorem spellsField_of_spells {s t : List Char} {name : List Letter} {value : Json}
    (hs : SpellsString s name) (ht : Spells t value) :
    SpellsField (s ++ ':' :: t) (name, value) := by
  have hfield := SpellsField.named isWhite_nil hs isWhite_nil (spellsItem_of_spells ht)
  rwa [List.nil_append, List.append_nil] at hfield

/-- Fields with proper values are spelt as they are written, if there are any. -/
theorem spellsFields_writtenFields {fields : List (List Letter × Json)} (hne : fields ≠ [])
    (hnames : ∀ field ∈ fields, SpellsString (writtenString field.1) field.1)
    (hvalues : ∀ field ∈ fields, IsProper field.2) :
    SpellsFields (writtenFields fields) fields := by
  induction fields with
  | nil => exact absurd rfl hne
  | cons field fields ih =>
    obtain ⟨name, value⟩ := field
    have hfield := spellsField_of_spells (hnames _ List.mem_cons_self)
      (hvalues _ List.mem_cons_self)
    cases fields with
    | nil => exact .one hfield
    | cons next fields =>
      have hrest := ih (List.cons_ne_nil next fields)
        (fun f hf => hnames f (List.mem_cons_of_mem _ hf))
        (fun f hf => hvalues f (List.mem_cons_of_mem _ hf))
      have h := SpellsFields.cons hfield hrest
      rwa [List.append_assoc, List.cons_append, ← List.cons_append, ← List.append_assoc] at h

theorem isProper_ofFields {fields : List (String × Json)}
    (h : ∀ field ∈ fields, IsProper field.2) : IsProper (.ofFields fields) := by
  cases fields with
  | nil => exact .emptyObject isWhite_nil
  | cons field fields =>
    refine .object (spellsFields_writtenFields (List.cons_ne_nil _ _) ?_ ?_)
    · rintro _ hmem
      obtain ⟨own, -, rfl⟩ := List.mem_map.1 hmem
      exact spellsString_writtenString own.1
    · rintro _ hmem
      obtain ⟨own, hown, rfl⟩ := List.mem_map.1 hmem
      exact h own hown

end Json

end TensorContraction
