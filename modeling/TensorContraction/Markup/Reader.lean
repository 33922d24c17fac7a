import TensorContraction.Markup.Doctype
import TensorContraction.Markup.Tag

/-!
# Readers of tagged text

A tagged text is read **one character at a time**. A reader knows where in the
grammar it is, which elements are open, and what the text has declared so far;
`TensorContraction.Markup.Reader.advance` takes it over one more character, or
refuses a character that no well-formed text has at that place.

On the way, a reader reports **events**: an element begins, an element ends. Text
between tags, comments, instructions and the parts ahead of the first element are no
events, but they have to be in order. A reference to an entity, once it is complete,
makes the reader ask for the text of the entity, which is to be read in its place.

Nothing is said here about which elements there are, or how many of them stand side
by side outside all others. That is left to whoever takes the events.
-/

namespace TensorContraction

namespace Markup

/-! ### Events and readers -/

/-- An event in a tagged text. -/
inductive Event
  /-- An element begins. -/
  | start (element : Element)
  /-- The element that began last, of those that have not ended, ends. -/
  | stop
deriving DecidableEq

/-- How far a reader has come in the parts of a text. -/
inductive Stage
  /-- Nothing has been read. -/
  | outset
  /-- Ahead of the first element. -/
  | prologue
  /-- Ahead of the first element, with the type of the text declared. -/
  | typed
  /-- In or after the first element. -/
  | content
deriving DecidableEq

/-- Where in the grammar a reader is. Words that are being read are held in
reverse. -/
inductive Place
  /-- Outside of markup, after so many closing brackets in a row. -/
  | text (brackets : Nat)
  /-- In a reference outside of markup. -/
  | textReference (body : List Char)
  /-- After `<`. -/
  | markup
  /-- After `<!`, with what has been read since. -/
  | exclamation (read : List Char)
  /-- In a comment, after so many dashes in a row. -/
  | comment (dashes : Nat)
  /-- In a section of character data, after so many closing brackets in a row. -/
  | characterData (brackets : Nat)
  /-- In the target of an instruction. -/
  | target (name : List Char)
  /-- In an instruction, maybe after a question mark. -/
  | instruction (question : Bool)
  /-- After the question mark that must close an instruction. -/
  | instructionEnd
  /-- In the declaration of the type of the text. -/
  | doctype (place : Doctype.Place)
  /-- In a closing tag, in the name or after it. -/
  | closing (name : List Char) (ended : Bool)
  /-- In the name of an opening tag. -/
  | opening (name : List Char)
  /-- Between the attributes of a tag, maybe after white space. -/
  | gap (tag : RawTag) (spaced : Bool)
  /-- In the name of an attribute, or after it. -/
  | attributeName (tag : RawTag) (name : List Char) (ended : Bool)
  /-- After the equals sign of an attribute. -/
  | equals (tag : RawTag) (name : List Char)
  /-- In the value of an attribute. -/
  | value (tag : RawTag) (name : List Char) (mark : Char) (text : List Char)
  /-- In a reference in the value of an attribute. -/
  | valueReference (tag : RawTag) (name : List Char) (mark : Char) (text body : List Char)
  /-- After the stroke or question mark that must close a tag. -/
  | tagEnd (tag : RawTag)
deriving DecidableEq

/-- A reader of a tagged text. -/
structure Reader where
  /-- Where in the grammar the reader is. -/
  place : Place
  /-- How far it has come. -/
  stage : Stage
  /-- The elements that are open, the innermost one first. -/
  scopes : List Scope
  /-- The entities that the text declares. -/
  entities : Entities
  /-- The character set of what follows. -/
  charset : Charset
deriving DecidableEq

/-- What reading a character leads to. -/
structure Advance where
  /-- The reader after the character. -/
  reader : Reader
  /-- The events that the character completes, in order. -/
  events : List Event
  /-- The text that is to be read before whatever follows the character. -/
  included : List Char

namespace Reader

/-- A reader at the outset of a text, in a given character set. -/
def initial (charset : Charset) : Reader :=
  ⟨.text 0, .outset, [], .empty, charset⟩

/-- The reader at another place. -/
def moveTo (r : Reader) (place : Place) : Reader :=
  { r with place := place }

/-- The labels declared at the reader's place. -/
def bindings (r : Reader) : Bindings :=
  match r.scopes with
  | [] => []
  | scope :: _ => scope.bindings

/-- The reader outside of markup, after white space or a piece of markup that is no
element: it is past the outset. -/
def pass (r : Reader) : Reader :=
  { r with place := .text 0, stage := if r.stage = .outset then .prologue else r.stage }

/-- Whether the text may end here: outside of markup, with no element open, after
there was one. -/
def isComplete (r : Reader) : Bool :=
  r.stage == .content && r.scopes.isEmpty &&
    match r.place with
    | .text _ => true
    | _ => false

/-- An advance without events. -/
def silently (r : Reader) : Advance :=
  ⟨r, [], []⟩

/-- An advance with events. -/
def reporting (r : Reader) (events : List Event) : Advance :=
  ⟨r, events, []⟩

/-- An advance that asks for a text to be read in place of a reference. -/
def including (r : Reader) (text : List Char) : Advance :=
  ⟨r, [], text⟩

/-! ### Between tags -/

/-- Outside of markup. With no element open there is only white space, and `]]>`
stands for the end of a section that has not begun. -/
def stepText (r : Reader) (brackets : Nat) (c : Char) : Option Reader :=
  if c = '<' then some (r.moveTo .markup)
  else if r.scopes.isEmpty then if isSpace c then some r.pass else none
  else if c = '&' then some (r.moveTo (.textReference []))
  else if c = '>' ∧ 2 ≤ brackets then none
  else some (r.moveTo (.text (if c = ']' then brackets + 1 else 0)))

/-- In a reference outside of markup, which must stand for something. -/
def stepTextReference (r : Reader) (body : List Char) (c : Char) : Option Advance :=
  if c = ';' then
    (r.entities.referent? body.reverse).map fun referent =>
      (r.moveTo (.text 0)).including referent.included
  else
    some (r.moveTo (.textReference (c :: body))).silently

/-- After `<`, where it shows what kind of markup begins. -/
def stepMarkup (r : Reader) (c : Char) : Option Reader :=
  if c = '!' then some (r.moveTo (.exclamation []))
  else if c = '?' then some (r.moveTo (.target []))
  else if c = '/' then some (r.moveTo (.closing [] false))
  else if isNameStart c then some (r.moveTo (.opening [c]))
  else none

/-- The words that may follow `<!`. -/
def exclamations : List (List Char) :=
  ["--".toList, "[CDATA[".toList, "DOCTYPE".toList]

/-- After `<!`: a comment, a section of character data inside an element, or the
type of the text ahead of the first one. -/
def stepExclamation (r : Reader) (read : List Char) (c : Char) : Option Reader :=
  let word := (c :: read).reverse
  if word = "--".toList then some (r.moveTo (.comment 0))
  else if word = "[CDATA[".toList then
    if r.scopes.isEmpty then none else some (r.moveTo (.characterData 0))
  else if word = "DOCTYPE".toList then
    if r.stage = .outset ∨ r.stage = .prologue then some (r.moveTo (.doctype .keyword)) else none
  else if exclamations.any word.isPrefixOf then some (r.moveTo (.exclamation (c :: read)))
  else none

/-- In a comment, where two dashes in a row must be the end. -/
def stepComment (r : Reader) (dashes : Nat) (c : Char) : Option Reader :=
  if 2 ≤ dashes then if c = '>' then some r.pass else none
  else some (r.moveTo (.comment (if c = '-' then dashes + 1 else 0)))

/-- In a section of character data. -/
def stepCharacterData (r : Reader) (brackets : Nat) (c : Char) : Option Reader :=
  if c = '>' ∧ 2 ≤ brackets then some (r.moveTo (.text 0))
  else some (r.moveTo (.characterData (if c = ']' then brackets + 1 else 0)))

/-- In the declaration of the type of the text. -/
def stepDoctype (r : Reader) (place : Doctype.Place) (c : Char) : Option Advance :=
  match Doctype.step r.entities place c with
  | none => none
  | some (.inside place entities) =>
    some { r with place := .doctype place, entities := entities }.silently
  | some (.included text) => some ((r.moveTo (.doctype .subset)).including text)
  | some .done => some { r with place := .text 0, stage := .typed }.silently

/-! ### Instructions -/

/-- In the target of an instruction. The head of a text looks like an instruction,
and must be the very first thing. -/
def stepTarget (r : Reader) (name : List Char) (c : Char) : Option Reader :=
  let word := name.reverse
  if isSpace c then
    if word = builtinLabel.toList ∧ r.stage = .outset then
      some (r.moveTo (.gap ⟨true, word, []⟩ true))
    else if isTarget word then some (r.moveTo (.instruction false))
    else none
  else if c = '?' then if isTarget word then some (r.moveTo .instructionEnd) else none
  else some (r.moveTo (.target (c :: name)))

/-- In an instruction, up to `?>`. -/
def stepInstruction (r : Reader) (question : Bool) (c : Char) : Option Reader :=
  if c = '>' ∧ question then some r.pass else some (r.moveTo (.instruction (c == '?')))

/-! ### Tags -/

/-- In a closing tag, whose name is that of the innermost element. -/
def stepClosing (r : Reader) (name : List Char) (ended : Bool) (c : Char) :
    Option Advance :=
  if c = '>' then
    match r.scopes with
    | [] => none
    | scope :: scopes =>
      if scope.name = name.reverse then
        some ({ r with place := .text 0, scopes := scopes }.reporting [.stop])
      else
        none
  else if isSpace c then
    if name.isEmpty then none else some (r.moveTo (.closing name true)).silently
  else if ended then none
  else some (r.moveTo (.closing (c :: name) false)).silently

/-- The end of a tag. Of an element it says that it begins; the head of a text says
nothing, but may claim a character set. An element whose tag is closed by `/>` ends at
once. -/
def finishTag (r : Reader) (tag : RawTag) (empty : Bool) : Option Advance :=
  if tag.isHead then
    (tag.charset? r.charset).map fun charset => { r.pass with charset := charset }.silently
  else
    match tag.resolve? r.bindings with
    | none => none
    | some (element, scope) =>
      if empty then
        some ({ r with place := .text 0, stage := .content }.reporting [.start element, .stop])
      else
        some ({ r with place := .text 0, stage := .content, scopes := scope :: r.scopes }.reporting
          [.start element])

/-- The sign that announces the end of a tag. -/
def endSign (tag : RawTag) : Char :=
  if tag.isHead then '?' else '/'

/-- Between the attributes of a tag. An attribute needs white space in front. -/
def stepGap (r : Reader) (tag : RawTag) (spaced : Bool) (c : Char) : Option Advance :=
  if isSpace c then some (r.moveTo (.gap tag true)).silently
  else if c = endSign tag then some (r.moveTo (.tagEnd tag)).silently
  else if c = '>' ∧ tag.isHead = false then r.finishTag tag false
  else if spaced ∧ isNameStart c then some (r.moveTo (.attributeName tag [c] false)).silently
  else none

/-- In the name of an opening tag. -/
def stepOpening (r : Reader) (name : List Char) (c : Char) : Option Advance :=
  if isNameCharacter c then some (r.moveTo (.opening (c :: name))).silently
  else r.stepGap ⟨false, name.reverse, []⟩ false c

/-- In the name of an attribute, or after it. -/
def stepAttributeName (r : Reader) (tag : RawTag) (name : List Char) (ended : Bool) (c : Char) :
    Option Reader :=
  if c = '=' then some (r.moveTo (.equals tag name.reverse))
  else if isSpace c then some (r.moveTo (.attributeName tag name true))
  else if isNameCharacter c ∧ ended = false then
    some (r.moveTo (.attributeName tag (c :: name) false))
  else none

/-- After an equals sign, where a quoted value is due. -/
def stepEquals (r : Reader) (tag : RawTag) (name : List Char) (c : Char) : Option Reader :=
  if isSpace c then some (r.moveTo (.equals tag name))
  else if isQuote c then some (r.moveTo (.value tag name c []))
  else none

/-- In the value of an attribute. -/
def stepValue (r : Reader) (tag : RawTag) (name : List Char) (mark : Char) (text : List Char)
    (c : Char) : Option Reader :=
  if c = mark then
    some (r.moveTo (.gap { tag with attributes := (name, text.reverse) :: tag.attributes } false))
  else if c = '<' then none
  else if c = '&' then some (r.moveTo (.valueReference tag name mark text []))
  else some (r.moveTo (.value tag name mark (c :: text)))

/-- In a reference in the value of an attribute. -/
def stepValueReference (r : Reader) (tag : RawTag) (name : List Char) (mark : Char)
    (text body : List Char) (c : Char) : Option Reader :=
  if c = ';' then
    (r.entities.referent? body.reverse).map fun referent =>
      r.moveTo (.value tag name mark (referent.inValue.reverse ++ text))
  else
    some (r.moveTo (.valueReference tag name mark text (c :: body)))

/-! ### The reader -/

/-- **One character**: where it leads the reader, or nothing if it is refused. What is no
character of version 1.0 is refused everywhere, in a text of version 1.1 too. -/
def advance (r : Reader) (c : Char) : Option Advance :=
  if !isCharacter c then none
  else
    match r.place with
    | .text brackets => (r.stepText brackets c).map silently
    | .textReference body => r.stepTextReference body c
    | .markup => (r.stepMarkup c).map silently
    | .exclamation read => (r.stepExclamation read c).map silently
    | .comment dashes => (r.stepComment dashes c).map silently
    | .characterData brackets => (r.stepCharacterData brackets c).map silently
    | .target name => (r.stepTarget name c).map silently
    | .instruction question => (r.stepInstruction question c).map silently
    | .instructionEnd => if c = '>' then some r.pass.silently else none
    | .doctype place => r.stepDoctype place c
    | .closing name ended => r.stepClosing name ended c
    | .opening name => r.stepOpening name c
    | .gap tag spaced => r.stepGap tag spaced c
    | .attributeName tag name ended => (r.stepAttributeName tag name ended c).map silently
    | .equals tag name => (r.stepEquals tag name c).map silently
    | .value tag name mark text => (r.stepValue tag name mark text c).map silently
    | .valueReference tag name mark text body =>
      (r.stepValueReference tag name mark text body c).map silently
    | .tagEnd tag => if c = '>' then r.finishTag tag true else none

end Reader

end Markup

end TensorContraction
