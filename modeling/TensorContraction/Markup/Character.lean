/-!
# Characters of tagged text

A tagged text is made of characters, and three classes of them matter to its
grammar: the characters that may occur at all
(`TensorContraction.Markup.isCharacter`), white space
(`TensorContraction.Markup.isSpace`), and the characters of names
(`TensorContraction.Markup.isNameStart`, `TensorContraction.Markup.isNameCharacter`).

The classes are those of XML 1.0 in its fifth edition, given as ranges of code
points. They are the same for all texts: one that says in its head that its version is
1.1 is read as well, but by the rules of 1.0. So a reference to a control character is
refused in it, which version 1.1 would permit, and the characters from U+007F to U+009F
may stand for themselves, where version 1.1 asks for references.
-/

namespace TensorContraction

namespace Markup

/-- Whether the code point of `c` lies in one of the given ranges, ends
included. -/
def isIn (ranges : List (Nat × Nat)) (c : Char) : Bool :=
  ranges.any fun range => range.1 ≤ c.toNat && c.toNat ≤ range.2

/-- Tab, line feed, carriage return and blank. -/
def isSpace (c : Char) : Bool :=
  isIn [(0x9, 0xA), (0xD, 0xD), (0x20, 0x20)] c

/-- Whether a character may occur in a tagged text: control characters other than
white space may not, and neither may the two noncharacters at the end of the first
plane. -/
def isCharacter (c : Char) : Bool :=
  isIn [(0x9, 0xA), (0xD, 0xD), (0x20, 0xD7FF), (0xE000, 0xFFFD), (0x10000, 0x10FFFF)] c

/-- Whether a name may begin with a character. -/
def isNameStart (c : Char) : Bool :=
  isIn [(0x3A, 0x3A), (0x41, 0x5A), (0x5F, 0x5F), (0x61, 0x7A), (0xC0, 0xD6), (0xD8, 0xF6),
    (0xF8, 0x2FF), (0x370, 0x37D), (0x37F, 0x1FFF), (0x200C, 0x200D), (0x2070, 0x218F),
    (0x2C00, 0x2FEF), (0x3001, 0xD7FF), (0xF900, 0xFDCF), (0xFDF0, 0xFFFD),
    (0x10000, 0xEFFFF)] c

/-- Whether a name may go on with a character. -/
def isNameCharacter (c : Char) : Bool :=
  isNameStart c || isIn [(0x2D, 0x2E), (0x30, 0x39), (0xB7, 0xB7), (0x300, 0x36F),
    (0x203F, 0x2040)] c

/-- Whether a character opens and closes an attribute value. -/
def isQuote (c : Char) : Bool :=
  c == '"' || c == '\''

end Markup

end TensorContraction
