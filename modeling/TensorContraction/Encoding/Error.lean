import TensorContraction.Encoding.Part
import TensorContraction.Index.Role

/-!
# Why a text does not decode

A text fails to be an encoded problem at one of four levels. It may not be a
well-formed text of tags at all; its elements may not be those of a problem, or not
in their places; an attribute may be missing or hold something unreadable; or all
may be readable, but not describe a problem, or not the one that was counted when it
was written.
-/

namespace TensorContraction

namespace Encoding

/-- Why a text does not decode. -/
inductive DecodeError
  /-- The text is not well-formed. -/
  | notWellFormed
  /-- The elements of the text are not those of a problem. -/
  | malformed (message : String)
  /-- A part is missing. -/
  | missingElement (tag : String)
  /-- An element lacks an attribute. -/
  | missingAttribute (tag name : String)
  /-- The value of an attribute cannot be read. -/
  | invalidValue (tag name value : String)
  /-- A list does not have the length that is declared for it. -/
  | lengthMismatch (tag : String) (declared actual : Nat)
  /-- The recorded number of indices of a role is not the actual one. -/
  | countMismatch (name : String) (recorded actual : Nat)
  /-- What has been read describes no problem. -/
  | problem (error : ProblemError)
deriving DecidableEq

namespace DecodeError

/-- The text of an error. Of a text that is not well-formed there is no more to
say. -/
def message : DecodeError → String
  | notWellFormed => "malformed document"
  | malformed message => "malformed document: " ++ message
  | missingElement tag => "missing element <" ++ tag ++ ">"
  | missingAttribute tag name =>
    "element <" ++ tag ++ "> is missing attribute '" ++ name ++ "'"
  | invalidValue tag name value =>
    "element <" ++ tag ++ "> has invalid value '" ++ value ++ "' for attribute '" ++
      name ++ "'"
  | lengthMismatch tag declared actual =>
    "element <" ++ tag ++ "> declares " ++ Decimal.text declared ++ " entries but lists " ++
      Decimal.text actual
  | countMismatch name recorded actual =>
    "attribute '" ++ name ++ "' records " ++ Decimal.text recorded ++
      " but the assignments classify " ++ Decimal.text actual
  | problem error => error.message

/-! ### Elements out of place -/

/-- An element with a tag that no part has. -/
def unexpected (tag : String) : DecodeError :=
  malformed ("unexpected element <" ++ tag ++ ">")

/-- How a place is called: by the part that encloses it. -/
def describePlace : Option Part → String
  | some part => "<" ++ part.tag ++ ">"
  | none => "the document root"

/-- A part that is not directly inside the one that encloses it. -/
def misplaced (part : Part) (found : Option Part) : DecodeError :=
  malformed ("<" ++ part.tag ++ "> found under " ++ describePlace found ++ ", expected " ++
    describePlace part.parent?)

/-- A part that has occurred before. -/
def repeated (part : Part) : DecodeError :=
  malformed ("more than one <" ++ part.tag ++ "> element")

end DecodeError

end Encoding

end TensorContraction
