import TensorContraction.Decimal
import TensorContraction.Hexadecimal
import TensorContraction.Markup.Name

/-!
# References

Between `&` and `;` stands a **reference**: a code point in decimal or hexadecimal
(`&#65;`, `&#x41;`), one of five names for the characters that markup uses itself
(`&lt;`, `&gt;`, `&amp;`, `&apos;`, `&quot;`), or the name of an **entity**, a piece
of text that is declared ahead of the first element.

What an entity does depends on where the reference stands. Between tags its text is
read in place of the reference, so that it may hold tags and further references. In
the value of an attribute it is a part of the value as it is, and nothing in it is
looked at again. A character given by number or by one of the five names is never
markup, wherever it stands.
-/

namespace TensorContraction

namespace Markup

/-! ### Characters by number -/

/-- The character with a given code point, if a text may hold it. -/
def characterOfCode? (code : Nat) : Option Char :=
  let c := Char.ofNat code
  if c.toNat = code ∧ isCharacter c then some c else none

/-- The character that a numeric reference stands for, from what follows its
`#`. -/
def numericReference? : List Char → Option Char
  | 'x' :: c :: digits => (Hexadecimal.value? 0 (c :: digits)).bind characterOfCode?
  | digits => (Decimal.value? digits).bind characterOfCode?

/-! ### Entities -/

/-- The character that one of the five built-in names stands for. -/
def builtinReference? (name : List Char) : Option Char :=
  match String.ofList name with
  | "lt" => some '<'
  | "gt" => some '>'
  | "amp" => some '&'
  | "apos" => some '\''
  | "quot" => some '"'
  | _ => none

/-- The entities that a text declares: names and replacement texts, the first
declaration of a name being the one that counts. An entity whose text stands
elsewhere is not fetched, and stands for nothing. -/
structure Entities where
  /-- The entities that the text may refer to. -/
  general : List (List Char × List Char)
  /-- The entities that only the declarations may refer to. -/
  parameter : List (List Char × List Char)
deriving DecidableEq

/-- No entities. -/
def Entities.empty : Entities :=
  ⟨[], []⟩

/-- What a reference stands for. -/
inductive Referent
  /-- A character, given by number or by a built-in name. -/
  | character (c : Char)
  /-- The replacement text of an entity. -/
  | entity (text : List Char)
deriving DecidableEq

/-- What a reference stands for, from what it has between `&` and `;`. -/
def Entities.referent? (entities : Entities) (reference : List Char) : Option Referent :=
  match reference with
  | '#' :: digits => (numericReference? digits).map .character
  | name =>
    match builtinReference? name with
    | some c => some (.character c)
    | none => (entities.general.lookup name).map .entity

/-- What is to be read in place of a reference between tags. A character is not read
again: it would be text. -/
def Referent.included : Referent → List Char
  | .character _ => []
  | .entity text => text

/-- What a reference adds to the value of an attribute. -/
def Referent.inValue : Referent → List Char
  | .character c => [c]
  | .entity text => text

/-! ### Replacement texts -/

/-- Replaces every reference in a text, `resolve` saying by what. References begin
with `&` or `%`; the one that is being read, if one is, is held in reverse, with the
sign that it began with. -/
def replaceReferences (resolve : Char → List Char → Option (List Char)) :
    (reference : Option (Char × List Char)) → List Char → Option (List Char)
  | none, [] => some []
  | some _, [] => none
  | none, c :: rest =>
    if c = '&' ∨ c = '%' then replaceReferences resolve (some (c, [])) rest
    else (replaceReferences resolve none rest).map (c :: ·)
  | some (sign, read), c :: rest =>
    if c = ';' then do
      let replacement ← resolve sign read.reverse
      (replaceReferences resolve none rest).map (replacement ++ ·)
    else
      replaceReferences resolve (some (sign, c :: read)) rest

/-- What becomes of a reference in the value that an entity is declared with:
characters given by number and entities for declarations are put in at once, and all
other references stay for when the entity is used. -/
def Entities.declared? (entities : Entities) (sign : Char) (reference : List Char) :
    Option (List Char) :=
  if sign = '%' then entities.parameter.lookup reference
  else
    match reference with
    | '#' :: digits => (numericReference? digits).map ([·])
    | name => if isPlainName name then some ('&' :: name ++ [';']) else none

/-- The replacement text of an entity that is declared with the given value. -/
def Entities.replacementText? (entities : Entities) (value : List Char) : Option (List Char) :=
  replaceReferences entities.declared? none value

end Markup

end TensorContraction
