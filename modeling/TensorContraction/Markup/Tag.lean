import TensorContraction.Markup.Charset
import TensorContraction.Markup.Element
import TensorContraction.Markup.Name

/-!
# Tags

An opening tag has been read when its name and its attributes are known as words.
What it says is settled here: names are taken apart, the labels that the tag
declares (`xmlns:x="…"`) are added to those of the enclosing tags, and every label
in use must be among them.

A tag is refused if a name is no name, if a label is not declared, if a label is
declared in a way that the rules for labels forbid, or if two attributes are the
same attribute. Declarations are not attributes of the element, and an element and
its attributes are known by their local names alone.

The head of a text, `<?xml version="1.0"?>`, has attributes of the same form; which
of them it may have is settled here too. Two versions are known, and which of them is
given makes no difference to how the text is read.
-/

namespace TensorContraction

namespace Markup

/-! ### Spaces -/

/-- The label that declares labels. -/
def declaringLabel : String := "xmlns"

/-- The label that needs no declaration. -/
def builtinLabel : String := "xml"

/-- The name of the space that the built-in label stands for. -/
def builtinSpace : String :=
  "/".intercalate ["http:", "", "www.w3.org", "XML", "1998", "namespace"]

/-- The name of the space that declarations belong to. -/
def declaringSpace : String :=
  "/".intercalate ["http:", "", "www.w3.org", "2000", "xmlns", ""]

/-- The labels that are declared at some place of a text, with the names of their
spaces, the innermost declaration of a label first. -/
abbrev Bindings : Type := List (String × String)

/-- Whether a label may be declared to stand for a space: it is not the declaring
one, the built-in label goes with the built-in space and with no other, and no
space has an empty name. -/
def mayDeclare (label space : String) : Bool :=
  label != declaringLabel && (label == builtinLabel) == (space == builtinSpace) &&
    space != declaringSpace && space != ""

/-- Whether names without a label may be declared to belong to a space. -/
def mayDeclareDefault (space : String) : Bool :=
  space != builtinSpace && space != declaringSpace

/-- The space that a label stands for. -/
def Bindings.space? (bindings : Bindings) (label : String) : Option String :=
  if label = builtinLabel then some builtinSpace else bindings.lookup label

/-! ### Opening tags -/

/-- A tag while it is read, as words. -/
structure RawTag where
  /-- Whether this is the head of a text rather than a tag of an element. -/
  isHead : Bool
  /-- The name of the tag. -/
  name : List Char
  /-- The attributes read so far, the last one first. -/
  attributes : List (List Char × List Char)
deriving DecidableEq

/-- An element that is open, by the word in its tag, with the labels that are
declared inside. -/
structure Scope where
  /-- The name in the opening tag, which the closing tag must repeat. -/
  name : List Char
  /-- The labels declared inside the element. -/
  bindings : Bindings
deriving DecidableEq

/-- An attribute of a tag, with its name taken apart. -/
abbrev Attribute : Type := QName × String

/-- Whether an attribute declares a label, or the space of names without one. -/
def Attribute.isDeclaration (attr : Attribute) : Bool :=
  attr.1.label == some declaringLabel || attr.1 == ⟨none, declaringLabel⟩

/-- Whether a declaration is a permitted one. -/
def Attribute.isPermitted (attr : Attribute) : Bool :=
  match attr.1.label with
  | some _ => mayDeclare attr.1.base attr.2
  | none => mayDeclareDefault attr.2

/-- The label that a declaration introduces, with the name of its space. -/
def Attribute.binding? (attr : Attribute) : Option (String × String) :=
  attr.1.label.map fun _ => (attr.1.base, attr.2)

/-- The space and the local name of an attribute; without a label, it belongs to no
space. -/
def Attribute.expanded? (bindings : Bindings) (attr : Attribute) :
    Option (Option String × String) :=
  match attr.1.label with
  | none => some (none, attr.1.base)
  | some label => (bindings.space? label).map fun space => (some space, attr.1.base)

/-- Whether a list has no entry twice. -/
def allDistinct {α : Type} [BEq α] : List α → Bool
  | [] => true
  | x :: rest => !rest.contains x && allDistinct rest

/-- The attributes of a tag in order, with their names taken apart. -/
def RawTag.attributes? (tag : RawTag) : Option (List Attribute) :=
  tag.attributes.reverse.mapM fun (name, value) =>
    (QName.ofWord? name).map fun name => (name, String.ofList value)

/-- Whether the name of an element may be used where the given labels are
declared. -/
def QName.isElementName (name : QName) (bindings : Bindings) : Bool :=
  match name.label with
  | none => true
  | some label => label != builtinLabel && label != declaringLabel &&
      (bindings.space? label).isSome

/-- **What an opening tag says**, where the labels `outer` are declared: the
element, and the scope of what it holds. -/
def RawTag.resolve? (tag : RawTag) (outer : Bindings) : Option (Element × Scope) := do
  let name ← QName.ofWord? tag.name
  let attributes ← tag.attributes?
  let (declarations, own) := attributes.partition Attribute.isDeclaration
  let bindings := declarations.filterMap Attribute.binding? ++ outer
  let expanded ← own.mapM (Attribute.expanded? bindings)
  if declarations.all Attribute.isPermitted && name.isElementName bindings &&
      allDistinct (declarations.map Prod.fst) && allDistinct expanded then
    some (⟨name.base, own.map fun (name, value) => (name.base, value)⟩, ⟨tag.name, bindings⟩)
  else
    none

/-! ### The head of a text -/

/-- Whether a version is known. A text of the later one is read by the rules of the
earlier one. -/
def isVersion (version : String) : Bool :=
  version == "1.0" || version == "1.1"

/-- Whether the answer to “does the text stand alone?” is one. -/
def isStandalone (answer : String) : Bool :=
  answer == "yes" || answer == "no"

/-- The character set after the head of a text, if the head is in order: a version,
then maybe an encoding, then maybe whether the text stands alone. Nothing but the
character set is kept: the characters that may occur are those of
`TensorContraction.Markup.isCharacter`, whichever version it is. -/
def RawTag.charset? (tag : RawTag) (current : Charset) : Option Charset :=
  match tag.attributes.reverse.map fun (name, value) =>
      (String.ofList name, String.ofList value) with
  | [("version", v)] => if isVersion v then some current else none
  | [("version", v), ("encoding", e)] => if isVersion v then current.claim? e else none
  | [("version", v), ("standalone", s)] =>
    if isVersion v && isStandalone s then some current else none
  | [("version", v), ("encoding", e), ("standalone", s)] =>
    if isVersion v && isStandalone s then current.claim? e else none
  | _ => none

end Markup

end TensorContraction
