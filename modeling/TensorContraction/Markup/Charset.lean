/-!
# Character sets

A text reaches its reader as a sequence of characters, in UTF-8. Its head may
**claim** another character set, though, and is then taken at its word: from there
on, the bytes of the text are what that set says. Two such sets are known. In
Latin-1 every byte is a character of its own, and in ASCII there is nothing beyond
the first 128.

A text that begins with a byte order mark has settled the matter, and its head can
only agree.
-/

namespace TensorContraction

namespace Markup

/-- The character set that a text is read in. -/
inductive Charset
  /-- UTF-8, until something else is claimed. -/
  | unclaimed
  /-- UTF-8, for good. -/
  | utf8
  | latin1
  | ascii
deriving DecidableEq

namespace Charset

/-- The labels of the character sets that may be claimed. -/
def labels : List (String × Charset) :=
  [("utf-8", utf8), ("utf8", utf8), ("iso-8859-1", latin1), ("latin1", latin1),
    ("ascii", ascii), ("us-ascii", ascii)]

/-- Whether two words agree as far as both of them go. -/
def agree : List Char → List Char → Bool
  | a :: as, b :: bs => a == b && agree as bs
  | _, _ => true

/-- The character set with a given label. Labels are taken without regard to case,
and only as far as they agree with a known one: variants of a set, such as
`ISO-8859-15`, are taken for the set itself. -/
def ofLabel? (label : String) : Option Charset :=
  (labels.find? fun known => agree known.1.toList (label.toList.map Char.toLower)).map Prod.snd

/-- The character set after the one with a given label has been claimed. -/
def claim? (current : Charset) (label : String) : Option Charset :=
  (ofLabel? label).filter fun claimed => current == unclaimed || current == claimed

/-- The characters that a character of the text is read as, or nothing if it is none
of the set. -/
def units? : Charset → Char → Option (List Char)
  | unclaimed, c => some [c]
  | utf8, c => some [c]
  | latin1, c => some ((String.utf8EncodeChar c).map fun byte => Char.ofNat byte.toNat)
  | ascii, c => if c.toNat < 128 then some [c] else none

end Charset

end Markup

end TensorContraction
