import TensorContraction.Json.Value

/-!
# Reading JSON

A JSON text is read one character at a time. What encloses the value that is being
read is kept on a stack, so that arrays and objects may be nested to any depth, and
every character is looked at once.

The grammar is the strict one: no trailing commas, no comments, no leading zeros or
plus signs, control characters in strings only as escapes, and nothing but white
space around the value. A number ends with the first character that cannot belong to
it, and that character is then read as what follows a value.
-/

namespace TensorContraction

namespace Json

/-! ### Readers -/

/-- What encloses the value that is being read, up to it. Items and fields are held
in reverse. -/
inductive Frame
  | array (items : List Json)
  | object (fields : List (List Letter × Json)) (name : List Letter)

/-- What a string is read for. -/
inductive Purpose
  | value
  /-- The name of the next field of an object. -/
  | name (fields : List (List Letter × Json))

/-- How far a number has been read. -/
inductive NumberPart
  | sign
  | zero
  | integer
  | point
  | fraction
  | exponent
  | exponentSign
  | exponentDigits
deriving DecidableEq

/-- Where in the grammar a reader is. What has been read of a string or a number is
held in reverse. -/
inductive Place
  /-- A value is due, or the end of an array that has just begun. -/
  | value (mayClose : Bool)
  /-- The name of a field is due, or the end of an object that has just begun. -/
  | name (fields : List (List Letter × Json)) (mayClose : Bool)
  /-- The colon after the name of a field is due. -/
  | colon (fields : List (List Letter × Json)) (name : List Letter)
  /-- In one of the three words. -/
  | word (rest : List Char) (value : Json)
  /-- In a number. -/
  | number (part : NumberPart) (digits : List Char)
  /-- In a string. -/
  | string (purpose : Purpose) (text : List Letter)
  /-- In a string, after a backslash. -/
  | escape (purpose : Purpose) (text : List Letter)
  /-- In a string, in the code of an escape, with so many digits to come. -/
  | code (purpose : Purpose) (text : List Letter) (digits value : Nat)
  /-- After a value. -/
  | after (value : Json)

/-- A reader of a JSON text. -/
structure Reader where
  /-- Where in the grammar the reader is. -/
  place : Place
  /-- What encloses the value that is being read, the innermost first. -/
  stack : List Frame

/-- The place after a string. -/
def Purpose.finish (text : List Letter) : Purpose → Place
  | .value => .after (.string text)
  | .name fields => .colon fields text

/-- Whether a number may end after a part. -/
def NumberPart.mayEnd : NumberPart → Bool
  | zero | integer | fraction | exponentDigits => true
  | sign | point | exponent | exponentSign => false

/-- The part of a number that a character goes on with, if it belongs to the number
at all. -/
def NumberPart.next? (part : NumberPart) (c : Char) : Option NumberPart :=
  match part with
  | sign => if c = '0' then some zero else if c.isDigit then some integer else none
  | zero => if c = '.' then some point else if c = 'e' ∨ c = 'E' then some exponent else none
  | integer =>
    if c.isDigit then some integer
    else if c = '.' then some point
    else if c = 'e' ∨ c = 'E' then some exponent
    else none
  | point => if c.isDigit then some fraction else none
  | fraction =>
    if c.isDigit then some fraction else if c = 'e' ∨ c = 'E' then some exponent else none
  | exponent =>
    if c.isDigit then some exponentDigits
    else if c = '+' ∨ c = '-' then some exponentSign
    else none
  | exponentSign => if c.isDigit then some exponentDigits else none
  | exponentDigits => if c.isDigit then some exponentDigits else none

namespace Reader

/-- A reader at the beginning of a text. -/
def initial : Reader :=
  ⟨.value false, []⟩

/-- The reader at another place. -/
def moveTo (r : Reader) (place : Place) : Reader :=
  { r with place := place }

/-- White space between the pieces of a text. -/
def isSpace (c : Char) : Bool :=
  c == ' ' || c == '\n' || c == '\t' || c == '\x0d'

/-! ### Values -/

/-- After a value: the end of what encloses it, or a comma and the next one. -/
def stepAfter (r : Reader) (value : Json) (c : Char) : Option Reader :=
  if isSpace c then some (r.moveTo (.after value))
  else
    match r.stack with
    | [] => none
    | .array items :: stack =>
      if c = ',' then some ⟨.value false, .array (value :: items) :: stack⟩
      else if c = ']' then some ⟨.after (.array (value :: items).reverse), stack⟩
      else none
    | .object fields name :: stack =>
      if c = ',' then some ⟨.name ((name, value) :: fields) false, stack⟩
      else if c = '\x7d' then some ⟨.after (.object ((name, value) :: fields).reverse), stack⟩
      else none

/-- Where a value is due. -/
def stepValue (r : Reader) (mayClose : Bool) (c : Char) : Option Reader :=
  if isSpace c then some (r.moveTo (.value mayClose))
  else if c = ']' then
    match r.stack with
    | .array [] :: stack => if mayClose then some ⟨.after (.array []), stack⟩ else none
    | _ => none
  else if c = '[' then some ⟨.value true, .array [] :: r.stack⟩
  else if c = '\x7b' then some (r.moveTo (.name [] true))
  else if c = '"' then some (r.moveTo (.string .value []))
  else if c = 'n' then some (r.moveTo (.word "ull".toList .null))
  else if c = 't' then some (r.moveTo (.word "rue".toList (.boolean true)))
  else if c = 'f' then some (r.moveTo (.word "alse".toList (.boolean false)))
  else if c = '-' then some (r.moveTo (.number .sign [c]))
  else if c = '0' then some (r.moveTo (.number .zero [c]))
  else if c.isDigit then some (r.moveTo (.number .integer [c]))
  else none

/-- In one of the words, of which `rest` is to come. -/
def stepWord (r : Reader) (rest : List Char) (value : Json) (c : Char) : Option Reader :=
  match rest with
  | [] => r.stepAfter value c
  | d :: rest => if c = d then some (r.moveTo (.word rest value)) else none

/-! ### Fields -/

/-- Where the name of a field is due. -/
def stepName (r : Reader) (fields : List (List Letter × Json)) (mayClose : Bool) (c : Char) :
    Option Reader :=
  if isSpace c then some (r.moveTo (.name fields mayClose))
  else if c = '"' then some (r.moveTo (.string (.name fields) []))
  else if c = '\x7d' ∧ mayClose then some (r.moveTo (.after (.object [])))
  else none

/-- Where the colon after a name is due. -/
def stepColon (r : Reader) (fields : List (List Letter × Json)) (name : List Letter) (c : Char) :
    Option Reader :=
  if isSpace c then some (r.moveTo (.colon fields name))
  else if c = ':' then some ⟨.value false, .object fields name :: r.stack⟩
  else none

/-! ### Strings -/

/-- In a string. -/
def stepString (r : Reader) (purpose : Purpose) (text : List Letter) (c : Char) : Option Reader :=
  if c = '"' then some (r.moveTo (purpose.finish text.reverse))
  else if c = '\\' then some (r.moveTo (.escape purpose text))
  else if c.toNat < 0x20 then none
  else some (r.moveTo (.string purpose (.plain c :: text)))

/-- After a backslash. -/
def stepEscape (r : Reader) (purpose : Purpose) (text : List Letter) (c : Char) : Option Reader :=
  if c = 'u' then some (r.moveTo (.code purpose text 4 0))
  else (unescape? c).map fun d => r.moveTo (.string purpose (.plain d :: text))

/-- In a code with `digits` more digits to come. -/
def stepCode (r : Reader) (purpose : Purpose) (text : List Letter) (digits value : Nat) (c : Char) :
    Option Reader :=
  (Hexadecimal.digit? c).map fun d =>
    let value := 16 * value + d
    if digits ≤ 1 then r.moveTo (.string purpose (.ofCode value :: text))
    else r.moveTo (.code purpose text (digits - 1) value)

/-! ### Numbers -/

/-- The number that is written with the given digits: a natural one if there is
nothing but digits. -/
def numberOf (digits : List Char) : Json :=
  match Decimal.value? digits with
  | some value => .natural value
  | none => .number digits

/-- In a number. -/
def stepNumber (r : Reader) (part : NumberPart) (digits : List Char) (c : Char) : Option Reader :=
  match part.next? c with
  | some next => some (r.moveTo (.number next (c :: digits)))
  | none => if part.mayEnd then r.stepAfter (numberOf digits.reverse) c else none

/-! ### The reader -/

/-- **One step**: reads a character, or refuses it. -/
def step (r : Reader) (c : Char) : Option Reader :=
  match r.place with
  | .value mayClose => r.stepValue mayClose c
  | .name fields mayClose => r.stepName fields mayClose c
  | .colon fields name => r.stepColon fields name c
  | .word rest value => r.stepWord rest value c
  | .number part digits => r.stepNumber part digits c
  | .string purpose text => r.stepString purpose text c
  | .escape purpose text => r.stepEscape purpose text c
  | .code purpose text digits value => r.stepCode purpose text digits value c
  | .after value => r.stepAfter value c

/-- The value that has been read, if the text may end here. -/
def finish? (r : Reader) : Option Json :=
  match r.stack, r.place with
  | [], .after value => some value
  | [], .word [] value => some value
  | [], .number part digits => if part.mayEnd then some (numberOf digits.reverse) else none
  | _, _ => none

/-- Runs a reader over a text. -/
def run (r : Reader) : List Char → Option Reader
  | [] => some r
  | c :: text => (r.step c).bind fun next => next.run text

/-- Reading a text and then some more is reading the text, and going on from there
if it could be read. -/
theorem run_append (r : Reader) (s t : List Char) :
    r.run (s ++ t) = (r.run s).bind fun next => next.run t := by
  induction s generalizing r with
  | nil => rfl
  | cons c s ih =>
    rw [List.cons_append, run, run]
    cases r.step c with
    | none => rfl
    | some next => exact ih next

end Reader

/-- **Reads a JSON text**, which must hold one value. -/
def read? (text : String) : Option Json :=
  (Reader.initial.run text.toList).bind Reader.finish?

end Json

end TensorContraction
