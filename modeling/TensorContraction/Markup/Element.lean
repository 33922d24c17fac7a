/-!
# Elements

The unit of a tagged text: an element has a tag and attributes, and between its
opening and its closing tag it may hold further elements. What an element carries
is its tag and its attributes; how elements are nested is a matter of the events
of a text (`TensorContraction.Markup.Reader`).

An element is written on lines of its own, in one of two ways: as a **leaf**
`<IA n="1" i0="0" />`, or as an opening and a closing line around the lines of
what it holds. In an opening line the list of attributes is closed by a blank, and
an element without attributes has no list to close.

Values are written as they are. They have to be free of quotes and markup, which
is the case for numerals and safe names.
-/

namespace TensorContraction

namespace Markup

/-- An element: a tag, and attributes by name. -/
structure Element where
  /-- The local name of the element. -/
  tag : String
  /-- Local names and values, in the order in which they stand in the tag. -/
  attributes : List (String × String)
deriving DecidableEq

namespace Element

/-! ### Writing elements -/

/-- The attributes as they are written in a tag, each after a blank. -/
def attributeList (e : Element) : String :=
  String.join (e.attributes.map fun (name, value) => " " ++ name ++ "=\"" ++ value ++ "\"")

/-- An element that holds nothing. -/
def leaf (e : Element) : String :=
  "<" ++ e.tag ++ e.attributeList ++ " />"

/-- The opening tag of an element. -/
def openingTag (e : Element) : String :=
  "<" ++ e.tag ++ e.attributeList ++ if e.attributes.isEmpty then ">" else " >"

/-- The closing tag of an element. -/
def closingTag (e : Element) : String :=
  "</" ++ e.tag ++ ">"

/-! ### Reading attributes -/

/-- The value of an attribute. If a tag has several attributes with the same local
name, the last one counts. -/
def value? (e : Element) (name : String) : Option String :=
  e.attributes.reverse.lookup name

/-- The names of the attributes, each once. -/
def names (e : Element) : List String :=
  (e.attributes.map Prod.fst).eraseDups

end Element

/-! ### Lines -/

/-- Blanks for a level of nesting, one for each level. -/
def indent (level : Nat) : String :=
  String.ofList (List.replicate level ' ')

/-- A line of a tagged text. -/
structure Line where
  /-- How deep the line is nested. -/
  level : Nat
  /-- What stands on the line. -/
  text : String
deriving DecidableEq

/-- A line as it is written, with the whole text indented by `base`. -/
def Line.render (base : Nat) (line : Line) : String :=
  indent (base + line.level) ++ line.text ++ "\n"

/-- Lines as they are written, one after the other. -/
def renderLines (base : Nat) (lines : List Line) : String :=
  String.join (lines.map (Line.render base))

end Markup

end TensorContraction
