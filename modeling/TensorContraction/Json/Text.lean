import TensorContraction.Hexadecimal

/-!
# Strings in JSON

A string stands between quotes, and a backslash in it begins an **escape**: a
letter for one of eight characters, or `u` and a code of four hexadecimal digits.

Codes are those of sixteen-bit units, so that a character beyond the first plane
takes two of them, a high and a low half. Nothing keeps a text from holding one half
alone; it is then no string of characters, but still a permitted piece of JSON. A
string is therefore read as a list of **letters**, characters or halves, and
`TensorContraction.Json.characters?` tells what it spells, if it spells something.

When a string is written, quotes, backslashes and control characters are escaped,
the last with the shortest escape there is, and everything else stays as it is.
-/

namespace TensorContraction

namespace Json

/-! ### Letters -/

/-- A unit of a string: a character, or half of one that is given by its code. -/
inductive Letter
  | plain (c : Char)
  | half (code : Nat)
deriving DecidableEq

/-- Whether a code is that of a high half. -/
def isHighHalf (code : Nat) : Bool :=
  0xD800 ≤ code && code < 0xDC00

/-- Whether a code is that of a low half. -/
def isLowHalf (code : Nat) : Bool :=
  0xDC00 ≤ code && code < 0xE000

/-- The letter with a code below `0x10000`. -/
def Letter.ofCode (code : Nat) : Letter :=
  if isHighHalf code || isLowHalf code then .half code else .plain (Char.ofNat code)

/-- The character of which two halves are given. -/
def joinHalves (high low : Nat) : Char :=
  Char.ofNat (0x10000 + 0x400 * (high - 0xD800) + (low - 0xDC00))

/-- What a list of letters spells. Halves must come in pairs, high before low. -/
def characters? : List Letter → Option (List Char)
  | [] => some []
  | .plain c :: rest => (characters? rest).map (c :: ·)
  | .half high :: .half low :: rest =>
    if isHighHalf high && isLowHalf low then
      (characters? rest).map (joinHalves high low :: ·)
    else
      none
  | .half _ :: _ => none

/-- The letters of a string. -/
def letters (s : String) : List Letter :=
  s.toList.map .plain

/-- A string is spelt by its own letters. -/
theorem characters?_letters (s : String) : characters? (letters s) = some s.toList := by
  unfold letters
  induction s.toList with
  | nil => rfl
  | cons c rest ih => simp [characters?, ih]

/-! ### Escapes -/

/-- The character for which an escape with a single letter stands. -/
def unescape? (c : Char) : Option Char :=
  match c with
  | '"' => some '"'
  | '\\' => some '\\'
  | '/' => some '/'
  | 'b' => some '\x08'
  | 'f' => some '\x0c'
  | 'n' => some '\n'
  | 'r' => some '\x0d'
  | 't' => some '\t'
  | _ => none

/-- A code as four hexadecimal digits after `\u`, in lower case. -/
def codeEscape (code : Nat) : List Char :=
  ['\\', 'u', Nat.digitChar (code / 4096 % 16), Nat.digitChar (code / 256 % 16),
    Nat.digitChar (code / 16 % 16), Nat.digitChar (code % 16)]

/-- A character as it is written in a string. -/
def escape (c : Char) : List Char :=
  match c with
  | '"' => ['\\', '"']
  | '\\' => ['\\', '\\']
  | '\x08' => ['\\', 'b']
  | '\t' => ['\\', 't']
  | '\n' => ['\\', 'n']
  | '\x0c' => ['\\', 'f']
  | '\x0d' => ['\\', 'r']
  | c => if c.toNat < 0x20 then codeEscape c.toNat else [c]

/-- A letter as it is written in a string. -/
def Letter.written : Letter → List Char
  | .plain c => escape c
  | .half code => codeEscape code

/-- A string as it is written, between quotes. -/
def writtenString (text : List Letter) : List Char :=
  '"' :: text.flatMap Letter.written ++ ['"']

end Json

end TensorContraction
