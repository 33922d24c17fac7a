import TensorContraction.Markup.Reference

/-!
# Document types

Ahead of its first element a text may declare its type, as in `<!DOCTYPE P>`. Of
all that such a declaration can hold, only the entities matter to a reader that
does not validate: the rest is passed over, as far as its quotes, brackets and
comments allow its end to be found.

The declaration is read one character at a time
(`TensorContraction.Markup.Doctype.step`), from the character after the keyword up
to the `>` that closes it. Between its brackets, a reference such as `%p;` stands for
further declarations, which are read in its place.
-/

namespace TensorContraction

namespace Markup

namespace Doctype

/-! ### The items of a declaration -/

/-- What a declaration consists of, white space apart. -/
inductive Item
  /-- Characters without a quote or white space among them. -/
  | word (text : List Char)
  /-- What stands between two quotation marks. -/
  | quoted (text : List Char)
deriving DecidableEq

/-- Where between the items of a declaration a reader is. What it has read of an item
is held in reverse. -/
inductive Pending
  /-- Where an item may begin. -/
  | gap
  /-- In a word. -/
  | word (read : List Char)
  /-- Between quotation marks. -/
  | quoted (mark : Char) (read : List Char)
  /-- After the closing mark, where white space is due. -/
  | closed

/-- The items of a declaration, from a given point on: white space stands between
any two of them. -/
def itemsFrom : Pending → List Char → Option (List Item)
  | .gap, [] => some []
  | .word read, [] => some [.word read.reverse]
  | .quoted _ _, [] => none
  | .closed, [] => some []
  | .gap, c :: rest =>
    if isSpace c then itemsFrom .gap rest
    else if isQuote c then itemsFrom (.quoted c []) rest
    else itemsFrom (.word [c]) rest
  | .word read, c :: rest =>
    if isSpace c then (itemsFrom .gap rest).map (.word read.reverse :: ·)
    else if isQuote c then none
    else itemsFrom (.word (c :: read)) rest
  | .quoted mark read, c :: rest =>
    if c = mark then (itemsFrom .closed rest).map (.quoted read.reverse :: ·)
    else itemsFrom (.quoted mark (c :: read)) rest
  | .closed, c :: rest => if isSpace c then itemsFrom .gap rest else none

/-- The items of a declaration. -/
def items (text : List Char) : Option (List Item) :=
  itemsFrom .gap text

/-- Whether items say where something outside of the text is to be found. -/
def isExternal : List Item → Bool
  | [.word word, .quoted _] => word == "SYSTEM".toList
  | [.word word, .quoted _, .quoted _] => word == "PUBLIC".toList
  | _ => false

/-- Whether items name a type, and say at most where it is described. -/
def isHead : List Item → Bool
  | [.word name] => (QName.ofWord? name).isSome
  | .word name :: rest => (QName.ofWord? name).isSome && isExternal rest
  | _ => false

/-! ### Entity declarations -/

/-- Whether items define an entity whose text stands elsewhere, or one that is no
text. -/
def isExternalEntity (definition : List Item) : Bool :=
  isExternal definition ||
    match definition.reverse with
    | .word notationName :: .word word :: place =>
      word == "NDATA".toList && isPlainName notationName && isExternal place.reverse
    | _ => false

/-- The entities after the declaration of one, given by its items. -/
def declareEntity (entities : Entities) : List Item → Option Entities
  | [.word name, .quoted value] =>
    if isPlainName name then
      (entities.replacementText? value).map fun text =>
        { entities with general := entities.general ++ [(name, text)] }
    else
      none
  | [.word ['%'], .word name, .quoted value] =>
    if isPlainName name then
      (entities.replacementText? value).map fun text =>
        { entities with parameter := entities.parameter ++ [(name, text)] }
    else
      none
  | .word ['%'] :: .word name :: place =>
    if isPlainName name && isExternal place then
      some { entities with parameter := entities.parameter ++ [(name, [])] }
    else
      none
  | .word name :: definition =>
    if isPlainName name && isExternalEntity definition then
      some { entities with general := entities.general ++ [(name, [])] }
    else
      none
  | _ => none

/-- The entities after a declaration whose text, from the `<!` on, is given. Only
four words begin a declaration, at once after the `<!`, and a name follows. -/
def declare (entities : Entities) (text : List Char) : Option Entities :=
  match itemsFrom (.word []) text with
  | some (.word word :: .word name :: rest) =>
    if word = "ENTITY".toList then declareEntity entities (.word name :: rest)
    else if word = "ELEMENT".toList then
      if rest.isEmpty then none else some entities
    else if word = "ATTLIST".toList then some entities
    else if word = "NOTATION".toList then
      if rest.isEmpty then none else some entities
    else none
  | _ => none

/-! ### Reading a declaration of a type -/

/-- Where in the declaration of a type a reader is. -/
inductive Place
  /-- After the keyword, where white space is due. -/
  | keyword
  /-- Ahead of a bracket, with what has been read since the keyword in reverse, and
  maybe in a quoted part of it. -/
  | head (text : List Char) (mark : Option Char)
  /-- Between the brackets, outside of any declaration. -/
  | subset
  /-- After a `%` between the brackets, in the name of an entity. -/
  | reference (name : List Char)
  /-- After a `<` between the brackets. -/
  | markup
  /-- In a declaration, whose text is held in reverse, and maybe in a quoted part
  of it. -/
  | declaration (text : List Char) (mark : Option Char)
  /-- In a comment, after so many dashes. -/
  | comment (dashes : Nat)
  /-- In an instruction, which is held in reverse. -/
  | instruction (read : List Char)
  /-- After the closing bracket. -/
  | tail
deriving DecidableEq

/-- What a character leads to. -/
inductive Next
  /-- A place within the declaration. -/
  | inside (place : Place) (entities : Entities)
  /-- Further declarations, between the brackets. -/
  | included (text : List Char)
  /-- The end of the declaration. -/
  | done

/-- Reads one character of the declaration of a type. -/
def step (entities : Entities) (place : Place) (c : Char) : Option Next :=
  let go := fun place => some (Next.inside place entities)
  let inHead := fun text => ((items text.reverse).map isHead).getD false
  match place with
  | .keyword => if isSpace c then go (.head [] none) else none
  | .head text (some mark) => go (.head (c :: text) (if c = mark then none else some mark))
  | .head text none =>
    if c = '>' then if inHead text then some .done else none
    else if c = '[' then if inHead text then go .subset else none
    else if c = '<' then none
    else go (.head (c :: text) (if isQuote c then some c else none))
  | .subset =>
    if c = ']' then go .tail
    else if c = '<' then go .markup
    else if c = '%' then go (.reference [])
    else if isSpace c then go .subset
    else none
  | .reference name =>
    if c = ';' then (entities.parameter.lookup name.reverse).map .included
    else go (.reference (c :: name))
  | .markup =>
    if c = '!' then go (.declaration [] none)
    else if c = '?' then go (.instruction [])
    else none
  | .declaration text (some mark) =>
    go (.declaration (c :: text) (if c = mark then none else some mark))
  | .declaration text none =>
    if c = '-' ∧ text = ['-'] then go (.comment 0)
    else if c = '>' then
      (declare entities text.reverse).map fun entities => .inside .subset entities
    else if c = '<' then none
    else go (.declaration (c :: text) (if isQuote c then some c else none))
  | .comment dashes =>
    if c = '-' then if dashes < 2 then go (.comment (dashes + 1)) else none
    else if 2 ≤ dashes then if c = '>' then go .subset else none
    else go (.comment 0)
  | .instruction read =>
    match c, read with
    | '>', '?' :: read =>
      if isTarget (read.reverse.takeWhile fun c => !isSpace c) then go .subset else none
    | _, _ => go (.instruction (c :: read))
  | .tail =>
    if c = '>' then some .done
    else if isSpace c then go .tail
    else none

end Doctype

end Markup

end TensorContraction
