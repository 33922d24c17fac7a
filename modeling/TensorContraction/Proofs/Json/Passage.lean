import TensorContraction.Proofs.Json.Grammar

/-!
# Reading what has been spelt

Every text that spells a value is read as the value
(`TensorContraction.Json.read?_of_spellsItem`). As with tagged text, what a reader does on
a piece of text is summed up by where it starts and where it ends
(`TensorContraction.Json.Passes`), and passages compose.

**Where a value ends.** A reader that has passed over a string, an array or an object is
after a value. One that has passed over a word or a number is not: it cannot know that the
value has ended before it sees what follows. `TensorContraction.Json.Reader.Holds` says that
this makes no difference: what may follow a value – white space, a comma, a closing bracket,
or the end of the text – is treated as it is after the value.
-/

namespace TensorContraction

namespace Json

/-! ### Passages -/

/-- **A passage**: reading `text` takes the reader `r` to the reader `r'`. -/
def Passes (r : Reader) (text : List Char) (r' : Reader) : Prop :=
  r.run text = some r'

namespace Passes

variable {r r' r'' : Reader} {s t : List Char} {c : Char}

theorem nil (r : Reader) : Passes r [] r := rfl

/-- **Passages compose.** -/
theorem append (hs : Passes r s r') (ht : Passes r' t r'') : Passes r (s ++ t) r'' := by
  rw [Passes, Reader.run_append, hs]
  exact ht

/-- The passage over one character, followed by another passage. -/
theorem cons (h : r.step c = some r') (ht : Passes r' t r'') : Passes r (c :: t) r'' := by
  rw [Passes, Reader.run, h]
  exact ht

theorem one (h : r.step c = some r') : Passes r [c] r' :=
  cons h (nil r')

/-- Readers that treat the first character in the same way pass over the same texts. -/
theorem congr (h : r.step c = r'.step c) (ht : Passes r' (c :: t) r'') :
    Passes r (c :: t) r'' := by
  rw [Passes, Reader.run, h]
  exact ht

/-- A reader that stays where it is on every character of a text passes over the text. -/
theorem stay (h : ∀ c ∈ t, r.step c = some r) : Passes r t r := by
  induction t with
  | nil => exact nil r
  | cons c t ih =>
    exact cons (h c List.mem_cons_self) (ih fun d hd => h d (List.mem_cons_of_mem c hd))

end Passes

/-! ### Strings -/

section

variable (purpose : Purpose) (text : List Letter) (stack : List Frame)

/-- A digit of a code, which is not the last one. -/
theorem step_code {c : Char} {d : Nat} (hd : Hexadecimal.digit? c = some d) (digits value : Nat) :
    Reader.step ⟨.code purpose text (digits + 2) value, stack⟩ c =
      some ⟨.code purpose text (digits + 1) (16 * value + d), stack⟩ := by
  simp [Reader.step, Reader.stepCode, hd, Reader.moveTo]

/-- The last digit of a code. -/
theorem step_code_one {c : Char} {d : Nat} (hd : Hexadecimal.digit? c = some d) (value : Nat) :
    Reader.step ⟨.code purpose text 1 value, stack⟩ c =
      some ⟨.string purpose (.ofCode (16 * value + d) :: text), stack⟩ := by
  simp [Reader.step, Reader.stepCode, hd, Reader.moveTo]

/-- **The passage over a letter.** -/
theorem passes_letter {t : List Char} {letter : Letter} (h : SpellsLetter t letter) :
    Passes ⟨.string purpose text, stack⟩ t ⟨.string purpose (letter :: text), stack⟩ := by
  cases h with
  | @raw c hquote hslash hcontrol =>
    exact .one (by simp [Reader.step, Reader.stepString, hquote, hslash, hcontrol, Reader.moveTo])
  | @short c d h =>
    have hu : c ≠ 'u' := by
      rintro rfl
      cases h
    exact .cons rfl (.one (by simp [Reader.step, Reader.stepEscape, hu, h, Reader.moveTo]))
  | @code a b c d code h =>
    simp only [Hexadecimal.value?, Option.bind_eq_bind, Option.bind_eq_some_iff] at h
    obtain ⟨a', ha, b', hb, c', hc, d', hd, hcode⟩ := h
    rw [← Option.some.inj hcode]
    exact .cons rfl (.cons rfl (.cons (step_code purpose text stack ha 2 0)
      (.cons (step_code purpose text stack hb 1 _) (.cons (step_code purpose text stack hc 0 _)
        (.one (step_code_one purpose text stack hd _))))))

/-- **The passage over the letters of a string**, which are held in reverse. -/
theorem passes_letters {t : List Char} {letters : List Letter} (h : SpellsLetters t letters) :
    Passes ⟨.string purpose text, stack⟩ t
      ⟨.string purpose (letters.reverse ++ text), stack⟩ := by
  induction h generalizing text with
  | nil => exact .nil _
  | @cons s t letter rest hs ht ih =>
    rw [List.reverse_cons, List.append_assoc]
    exact (passes_letter purpose text stack hs).append (ih (letter :: text))

/-- The passage over a string from its beginning, up to what it is read for. -/
theorem passes_string {t : List Char} {letters : List Letter} (h : SpellsString t letters)
    {place : Place}
    (hbegin : Reader.step ⟨place, stack⟩ '"' = some ⟨.string purpose [], stack⟩) :
    Passes ⟨place, stack⟩ t ⟨purpose.finish letters, stack⟩ := by
  cases h with
  | @quoted t _ ht =>
    have hletters := passes_letters purpose [] stack ht
    rw [List.append_nil] at hletters
    have hend : Reader.step ⟨.string purpose letters.reverse, stack⟩ '"' =
        some ⟨purpose.finish letters, stack⟩ := by
      simp [Reader.step, Reader.stepString, Reader.moveTo]
    exact .cons hbegin (hletters.append (.one hend))

end

/-! ### Numbers -/

section

variable (stack : List Frame)

/-- A character that a number goes on with. -/
theorem step_number {part next : NumberPart} {c : Char} (h : part.next? c = some next)
    (read : List Char) :
    Reader.step ⟨.number part read, stack⟩ c = some ⟨.number next (c :: read), stack⟩ := by
  simp [Reader.step, Reader.stepNumber, h, Reader.moveTo]

/-- The passage over digits in a part of a number that is made of them. -/
theorem passes_digits {part : NumberPart} (hpart : ∀ c, c.isDigit = true → part.next? c = some part)
    {t : List Char} (ht : ∀ c ∈ t, c.isDigit = true) (read : List Char) :
    Passes ⟨.number part read, stack⟩ t ⟨.number part (t.reverse ++ read), stack⟩ := by
  induction t generalizing read with
  | nil => exact .nil _
  | cons c t ih =>
    rw [List.reverse_cons, List.append_assoc]
    exact .cons (step_number stack (hpart c (ht c List.mem_cons_self)) read)
      (ih (fun d hd => ht d (List.mem_cons_of_mem c hd)) (c :: read))

/-- The passage over digits, the first of which leads to a part of a number that is made of
them. -/
theorem passes_isDigits (part next : NumberPart)
    (hpart : ∀ c, c.isDigit = true → part.next? c = some next)
    (hnext : ∀ c, c.isDigit = true → next.next? c = some next)
    {t : List Char} (ht : IsDigits t) (read : List Char) :
    Passes ⟨.number part read, stack⟩ t ⟨.number next (t.reverse ++ read), stack⟩ := by
  cases t with
  | nil => exact absurd rfl ht.ne_nil
  | cons c t =>
    rw [List.reverse_cons, List.append_assoc]
    exact .cons (step_number stack (hpart c (ht.isDigit c List.mem_cons_self)) read)
      (passes_digits stack hnext (fun d hd => ht.isDigit d (List.mem_cons_of_mem c hd)) (c :: read))

/-- The passage over the fraction of a number. -/
theorem passes_fraction {part : NumberPart} (hpart : part = .zero ∨ part = .integer)
    {t : List Char} (ht : IsFraction t) (read : List Char) :
    ∃ next, (next = .zero ∨ next = .integer ∨ next = .fraction) ∧
      Passes ⟨.number part read, stack⟩ t ⟨.number next (t.reverse ++ read), stack⟩ := by
  cases ht with
  | nil =>
    refine ⟨part, ?_, .nil _⟩
    rcases hpart with rfl | rfl
    · exact .inl rfl
    · exact .inr (.inl rfl)
  | @digits t ht =>
    have hpoint : part.next? '.' = some .point := by
      rcases hpart with rfl | rfl <;> rfl
    have hdigits := passes_isDigits stack .point .fraction
      (fun c hc => by simp [NumberPart.next?, hc]) (fun c hc => by simp [NumberPart.next?, hc])
      ht ('.' :: read)
    rw [List.reverse_cons, List.append_assoc]
    exact ⟨.fraction, .inr (.inr rfl), .cons (step_number stack hpoint read) hdigits⟩

/-- The passage over the exponent of a number, after which the number may end. -/
theorem passes_exponent {part : NumberPart}
    (hpart : part = .zero ∨ part = .integer ∨ part = .fraction)
    {t : List Char} (ht : IsExponent t) (read : List Char) :
    ∃ next : NumberPart, next.mayEnd = true ∧
      Passes ⟨.number part read, stack⟩ t ⟨.number next (t.reverse ++ read), stack⟩ := by
  have hsign : ∀ {c : Char}, c = 'e' ∨ c = 'E' → part.next? c = some .exponent := by
    rintro c (rfl | rfl)
    · rcases hpart with rfl | rfl | rfl <;> rfl
    · rcases hpart with rfl | rfl | rfl <;> rfl
  have hdigits : ∀ c : Char, c.isDigit = true →
      NumberPart.exponentDigits.next? c = some .exponentDigits := fun c hc => by
    simp [NumberPart.next?, hc]
  cases ht with
  | nil =>
    refine ⟨part, ?_, .nil _⟩
    rcases hpart with rfl | rfl | rfl <;> rfl
  | @plain c t hc ht =>
    have hplain := passes_isDigits stack .exponent .exponentDigits
      (fun c hc => by simp [NumberPart.next?, hc]) hdigits ht (c :: read)
    rw [List.reverse_cons, List.append_assoc]
    exact ⟨.exponentDigits, rfl, .cons (step_number stack (hsign hc) read) hplain⟩
  | @signed c sign t hc hplus ht =>
    have hnext : NumberPart.exponent.next? sign = some .exponentSign := by
      rcases hplus with rfl | rfl <;> rfl
    have hsigned := passes_isDigits stack .exponentSign .exponentDigits
      (fun c hc => by simp [NumberPart.next?, hc]) hdigits ht (sign :: c :: read)
    rw [List.reverse_cons, List.reverse_cons, List.append_assoc, List.append_assoc]
    exact ⟨.exponentDigits, rfl, .cons (step_number stack (hsign hc) read)
      (.cons (step_number stack hnext (c :: read)) hsigned)⟩

/-- The passage over the rest of a number, after its integer part. -/
theorem passes_rest {part : NumberPart} (hpart : part = .zero ∨ part = .integer)
    {f e : List Char} (hf : IsFraction f) (he : IsExponent e) (read : List Char) :
    ∃ next : NumberPart, next.mayEnd = true ∧
      Passes ⟨.number part read, stack⟩ (f ++ e)
        ⟨.number next ((f ++ e).reverse ++ read), stack⟩ := by
  obtain ⟨middle, hmiddle, hfraction⟩ := passes_fraction stack hpart hf read
  obtain ⟨next, hend, hexponent⟩ := passes_exponent stack hmiddle he (f.reverse ++ read)
  rw [List.reverse_append, List.append_assoc]
  exact ⟨next, hend, hfraction.append hexponent⟩

/-- The passage over the integer part of a number, from a place where one may begin. -/
theorem passes_integer (place : Place) (read : List Char) {t : List Char} (ht : IsInteger t)
    (hzero : Reader.step ⟨place, stack⟩ '0' = some ⟨.number .zero ('0' :: read), stack⟩)
    (hdigit : ∀ c : Char, c.isDigit = true → c ≠ '0' →
      Reader.step ⟨place, stack⟩ c = some ⟨.number .integer (c :: read), stack⟩) :
    ∃ part, (part = .zero ∨ part = .integer) ∧
      Passes ⟨place, stack⟩ t ⟨.number part (t.reverse ++ read), stack⟩ := by
  cases ht with
  | zero => exact ⟨.zero, .inl rfl, .one hzero⟩
  | @digits c t hc hne ht =>
    rw [List.reverse_cons, List.append_assoc]
    exact ⟨.integer, .inr rfl, .cons (hdigit c hc hne)
      (passes_digits stack (fun c hc => by simp [NumberPart.next?, hc]) ht (c :: read))⟩

/-- A digit where a value is due begins a number. -/
theorem step_digit {c : Char} (hc : c.isDigit = true) (hzero : c ≠ '0') (mayClose : Bool) :
    Reader.step ⟨.value mayClose, stack⟩ c = some ⟨.number .integer [c], stack⟩ := by
  have hne : ∀ d : Char, d.isDigit = false → c ≠ d := by
    rintro d hd rfl
    rw [hc] at hd
    cases hd
  simp [Reader.step, Reader.stepValue, Reader.isSpace, Reader.moveTo, hc, hzero, hne]

/-- **The passage over a number**, after which it may end. -/
theorem passes_isNumber {t : List Char} (ht : IsNumber t) (mayClose : Bool) :
    ∃ part : NumberPart, part.mayEnd = true ∧
      Passes ⟨.value mayClose, stack⟩ t ⟨.number part t.reverse, stack⟩ := by
  have hsign : ∀ c : Char, c.isDigit = true → c ≠ '0' →
      NumberPart.sign.next? c = some .integer := fun c hc hne => by
    simp [NumberPart.next?, hc, hne]
  cases ht with
  | @positive i f e hi hf he =>
    obtain ⟨part, hpart, hinteger⟩ := passes_integer stack (.value mayClose) [] hi rfl
      fun c hc hne => step_digit stack hc hne mayClose
    obtain ⟨next, hend, hrest⟩ := passes_rest stack hpart hf he (i.reverse ++ [])
    refine ⟨next, hend, ?_⟩
    rw [List.append_assoc, List.reverse_append, ← List.append_nil i.reverse]
    exact hinteger.append hrest
  | @negative i f e hi hf he =>
    obtain ⟨part, hpart, hinteger⟩ := passes_integer stack (.number .sign ['-']) ['-'] hi rfl
      fun c hc hne => step_number stack (hsign c hc hne) ['-']
    obtain ⟨next, hend, hrest⟩ := passes_rest stack hpart hf he (i.reverse ++ ['-'])
    refine ⟨next, hend, ?_⟩
    rw [List.append_assoc, List.reverse_cons, List.reverse_append, List.append_assoc]
    exact .cons rfl (hinteger.append hrest)

end

/-! ### Where a value ends -/

/-- What may follow a value in a text. -/
def isDelimiter (c : Char) : Bool :=
  Reader.isSpace c || c == ',' || c == ']' || c == '\x7d'

/-- No number goes on with what may follow a value. -/
theorem NumberPart.next?_eq_none (part : NumberPart) {c : Char} (hc : isDelimiter c = true) :
    part.next? c = none := by
  simp only [isDelimiter, Reader.isSpace, Bool.or_eq_true, beq_iff_eq] at hc
  rcases hc with ((((((rfl | rfl) | rfl) | rfl) | rfl) | rfl) | rfl) <;> cases part <;> rfl

namespace Reader

/-- **A reader holds a value** if it treats what may follow as it does after the value. -/
structure Holds (r : Reader) (value : Json) (stack : List Frame) : Prop where
  /-- The end of the text. -/
  finish : r.finish? = finish? ⟨.after value, stack⟩
  /-- A character. -/
  step : ∀ c, isDelimiter c = true → r.step c = Reader.step ⟨.after value, stack⟩ c

variable (value : Json) (stack : List Frame)

theorem holds_after : Holds ⟨.after value, stack⟩ value stack :=
  ⟨rfl, fun _ _ => rfl⟩

theorem holds_word : Holds ⟨.word [] value, stack⟩ value stack := by
  refine ⟨?_, fun _ _ => rfl⟩
  cases stack <;> rfl

theorem holds_number {part : NumberPart} (hpart : part.mayEnd = true) (read : List Char) :
    Holds ⟨.number part read, stack⟩ (numberOf read.reverse) stack := by
  refine ⟨?_, fun c hc => ?_⟩
  · cases stack with
    | nil => simp [finish?, hpart]
    | cons => rfl
  · simp only [Reader.step, stepNumber, part.next?_eq_none hc, hpart, if_true]
    rfl

end Reader

/-- **White space after a value** changes nothing. -/
theorem Reader.Holds.white {r : Reader} {value : Json} {stack : List Frame}
    (h : r.Holds value stack) {w : List Char} (hw : IsWhite w) :
    ∃ r', Passes r w r' ∧ r'.Holds value stack := by
  have hstay : ∀ c ∈ w, Reader.step ⟨.after value, stack⟩ c = some ⟨.after value, stack⟩ := by
    intro c hc
    simp [Reader.step, Reader.stepAfter, hw c hc, Reader.moveTo]
  cases w with
  | nil => exact ⟨r, .nil r, h⟩
  | cons c w =>
    have hc : isDelimiter c = true := by simp [isDelimiter, hw c List.mem_cons_self]
    exact ⟨⟨.after value, stack⟩, .congr (h.step c hc) (.stay hstay),
      Reader.holds_after value stack⟩

/-! ### Values -/

/-- **A text is read as a value**, wherever the value is due. -/
def ReadAs (t : List Char) (value : Json) : Prop :=
  ∀ mayClose stack, ∃ r, Passes ⟨.value mayClose, stack⟩ t r ∧ r.Holds value stack

/-- A text is read as the last items of an array, up to the bracket that closes it. -/
def ReadAsItems (t : List Char) (items : List Json) : Prop :=
  ∀ mayClose read stack, Passes ⟨.value mayClose, .array read :: stack⟩ (t ++ [']'])
    ⟨.after (.array (read.reverse ++ items)), stack⟩

/-- A text is read as the next field of an object. -/
def ReadAsField (t : List Char) (field : List Letter × Json) : Prop :=
  ∀ read mayClose stack, ∃ r, Passes ⟨.name read mayClose, stack⟩ t r ∧
    r.Holds field.2 (.object read field.1 :: stack)

/-- A text is read as the last fields of an object, up to the bracket that closes it. -/
def ReadAsFields (t : List Char) (fields : List (List Letter × Json)) : Prop :=
  ∀ read mayClose stack, Passes ⟨.name read mayClose, stack⟩ (t ++ ['\x7d'])
    ⟨.after (.object (read.reverse ++ fields)), stack⟩

theorem readAs_word {t : List Char} {value : Json}
    (h : ∀ mayClose stack, Passes ⟨.value mayClose, stack⟩ t ⟨.word [] value, stack⟩) :
    ReadAs t value :=
  fun mayClose stack => ⟨_, h mayClose stack, Reader.holds_word value stack⟩

theorem readAs_number {t : List Char} (ht : IsNumber t) : ReadAs t (Reader.numberOf t) := by
  intro mayClose stack
  obtain ⟨part, hpart, hpasses⟩ := passes_isNumber stack ht mayClose
  have hholds := Reader.holds_number stack hpart t.reverse
  rw [List.reverse_reverse] at hholds
  exact ⟨_, hpasses, hholds⟩

theorem readAs_string {t : List Char} {text : List Letter} (ht : SpellsString t text) :
    ReadAs t (.string text) := fun _ stack =>
  ⟨_, passes_string .value stack ht rfl, Reader.holds_after (.string text) stack⟩

/-- White space before a value is passed over. -/
theorem passes_white_value {w : List Char} (hw : IsWhite w) (mayClose : Bool)
    (stack : List Frame) :
    Passes ⟨.value mayClose, stack⟩ w ⟨.value mayClose, stack⟩ :=
  .stay fun c hc => by simp [Reader.step, Reader.stepValue, hw c hc, Reader.moveTo]

theorem readAs_emptyArray {w : List Char} (hw : IsWhite w) :
    ReadAs ('[' :: w ++ [']']) (.array []) := fun _ stack =>
  ⟨_, .cons rfl ((passes_white_value hw true (.array [] :: stack)).append (.one rfl)),
    Reader.holds_after (.array []) stack⟩

theorem readAs_array {t : List Char} {items : List Json} (ht : ReadAsItems t items) :
    ReadAs ('[' :: t ++ [']']) (.array items) := fun _ stack =>
  ⟨_, .cons rfl (ht true [] stack), Reader.holds_after (.array items) stack⟩

theorem readAsItems_one {t : List Char} {item : Json} (ht : ReadAs t item) :
    ReadAsItems t [item] := by
  intro mayClose read stack
  obtain ⟨r, hpasses, hholds⟩ := ht mayClose (.array read :: stack)
  have hclose : r.step ']' = some ⟨.after (.array (read.reverse ++ [item])), stack⟩ := by
    rw [hholds.step ']' rfl, ← List.reverse_cons]
    rfl
  exact hpasses.append (.one hclose)

theorem readAsItems_cons {s t : List Char} {item : Json} {items : List Json}
    (hs : ReadAs s item) (ht : ReadAsItems t items) :
    ReadAsItems (s ++ ',' :: t) (item :: items) := by
  intro mayClose read stack
  obtain ⟨r, hpasses, hholds⟩ := hs mayClose (.array read :: stack)
  have hrest := ht false (item :: read) stack
  rw [List.reverse_cons, List.append_assoc] at hrest
  rw [List.append_assoc]
  exact hpasses.append (.cons (hholds.step ',' rfl) hrest)

theorem readAs_padded {w t w' : List Char} {item : Json} (hw : IsWhite w) (ht : ReadAs t item)
    (hw' : IsWhite w') : ReadAs (w ++ t ++ w') item := by
  intro mayClose stack
  obtain ⟨r, hpasses, hholds⟩ := ht mayClose stack
  obtain ⟨r', hwhite, hholds'⟩ := hholds.white hw'
  exact ⟨r', ((passes_white_value hw mayClose stack).append hpasses).append hwhite, hholds'⟩

/-- White space before the name of a field is passed over. -/
theorem passes_white_name {w : List Char} (hw : IsWhite w)
    (read : List (List Letter × Json)) (mayClose : Bool) (stack : List Frame) :
    Passes ⟨.name read mayClose, stack⟩ w ⟨.name read mayClose, stack⟩ :=
  .stay fun c hc => by simp [Reader.step, Reader.stepName, hw c hc, Reader.moveTo]

theorem readAs_emptyObject {w : List Char} (hw : IsWhite w) :
    ReadAs ('\x7b' :: w ++ ['\x7d']) (.object []) := fun _ stack =>
  ⟨_, .cons rfl ((passes_white_name hw [] true stack).append (.one rfl)),
    Reader.holds_after (.object []) stack⟩

theorem readAs_object {t : List Char} {fields : List (List Letter × Json)}
    (ht : ReadAsFields t fields) : ReadAs ('\x7b' :: t ++ ['\x7d']) (.object fields) :=
  fun _ stack => ⟨_, .cons rfl (ht [] true stack), Reader.holds_after (.object fields) stack⟩

theorem readAsField_named {w s w' t : List Char} {name : List Letter} {value : Json}
    (hw : IsWhite w) (hs : SpellsString s name) (hw' : IsWhite w') (ht : ReadAs t value) :
    ReadAsField (w ++ s ++ w' ++ ':' :: t) (name, value) := by
  intro read mayClose stack
  obtain ⟨r, hpasses, hholds⟩ := ht false (.object read name :: stack)
  have hname : Passes ⟨.name read mayClose, stack⟩ s ⟨.colon read name, stack⟩ :=
    passes_string (.name read) stack hs rfl
  have hwhite : Passes ⟨.colon read name, stack⟩ w' ⟨.colon read name, stack⟩ :=
    .stay fun c hc => by simp [Reader.step, Reader.stepColon, hw' c hc, Reader.moveTo]
  exact ⟨r, (((passes_white_name hw read mayClose stack).append hname).append hwhite).append
    (.cons rfl hpasses), hholds⟩

theorem readAsFields_one {t : List Char} {field : List Letter × Json} (ht : ReadAsField t field) :
    ReadAsFields t [field] := by
  intro read mayClose stack
  obtain ⟨r, hpasses, hholds⟩ := ht read mayClose stack
  have hclose : r.step '\x7d' = some ⟨.after (.object (read.reverse ++ [field])), stack⟩ := by
    rw [hholds.step '\x7d' rfl, ← List.reverse_cons]
    rfl
  exact hpasses.append (.one hclose)

theorem readAsFields_cons {s t : List Char} {field : List Letter × Json}
    {fields : List (List Letter × Json)} (hs : ReadAsField s field)
    (ht : ReadAsFields t fields) : ReadAsFields (s ++ ',' :: t) (field :: fields) := by
  intro read mayClose stack
  obtain ⟨r, hpasses, hholds⟩ := hs read mayClose stack
  have hrest := ht (field :: read) false stack
  rw [List.reverse_cons, List.append_assoc] at hrest
  rw [List.append_assoc]
  exact hpasses.append (.cons (hholds.step ',' rfl) hrest)

mutual

/-- **What spells a value is read as the value.** -/
theorem Spells.readAs {t : List Char} {value : Json} : Spells t value → ReadAs t value
  | .null => readAs_word fun _ _ => rfl
  | .true => readAs_word fun _ _ => rfl
  | .false => readAs_word fun _ _ => rfl
  | .number ht => readAs_number ht
  | .string ht => readAs_string ht
  | .emptyArray hw => readAs_emptyArray hw
  | .array ht => readAs_array ht.readAsItems
  | .emptyObject hw => readAs_emptyObject hw
  | .object ht => readAs_object ht.readAsFields

theorem SpellsItems.readAsItems {t : List Char} {items : List Json} :
    SpellsItems t items → ReadAsItems t items
  | .one ht => readAsItems_one ht.readAs
  | .cons hs ht => readAsItems_cons hs.readAs ht.readAsItems

theorem SpellsItem.readAs {t : List Char} {item : Json} : SpellsItem t item → ReadAs t item
  | .padded hw ht hw' => readAs_padded hw ht.readAs hw'

theorem SpellsFields.readAsFields {t : List Char} {fields : List (List Letter × Json)} :
    SpellsFields t fields → ReadAsFields t fields
  | .one ht => readAsFields_one ht.readAsField
  | .cons hs ht => readAsFields_cons hs.readAsField ht.readAsFields

theorem SpellsField.readAsField {t : List Char} {field : List Letter × Json} :
    SpellsField t field → ReadAsField t field
  | .named hw hs hw' ht => readAsField_named hw hs hw' ht.readAs

end

/-! ### Texts -/

/-- **A text that spells a value is read as the value**, white space around it or not. -/
theorem read?_of_spellsItem {t : List Char} {value : Json} (h : SpellsItem t value) :
    read? (String.ofList t) = some value := by
  obtain ⟨r, hpasses, hholds⟩ := h.readAs false []
  rw [read?, String.toList_ofList, Reader.initial, hpasses, Option.bind_some, hholds.finish]
  rfl

/-- A text spells one value at most. -/
theorem Spells.unique {t : List Char} {value value' : Json} (h : Spells t value)
    (h' : Spells t value') : value = value' := by
  have hread := read?_of_spellsItem (spellsItem_of_spells h)
  rw [read?_of_spellsItem (spellsItem_of_spells h')] at hread
  exact (Option.some.inj hread).symm

end Json

end TensorContraction
