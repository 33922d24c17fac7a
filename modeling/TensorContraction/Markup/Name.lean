import TensorContraction.Markup.Character

/-!
# Names in tags

A name in a tag may be **qualified**: `x:TA` is the local name `TA` in the space
that `x` stands for. Whether `x` stands for a space at that place is a question
about the enclosing tags, and is settled in `TensorContraction.Markup.Tag`; here a
name is only taken apart.
-/

namespace TensorContraction

namespace Markup

/-- A name in a tag, with the label of its space if it has one. -/
structure QName where
  /-- What stands before the colon. -/
  label : Option String
  /-- The local name. -/
  base : String
deriving DecidableEq

/-- Whether a word is a name without a colon. -/
def isPlainName : List Char → Bool
  | [] => false
  | c :: rest => (c :: rest).all (fun c => isNameCharacter c && c != ':') && isNameStart c

/-- Whether a word may be the target of an instruction: `xml`, in whatever case, is
kept for the head of a text. -/
def isTarget (word : List Char) : Bool :=
  isPlainName word && word.map Char.toLower != "xml".toList

/-- Takes a name apart at its colon. A second colon, or a half that is no name, makes
the whole no name. -/
def QName.ofWord? (word : List Char) : Option QName :=
  let label := word.takeWhile (· != ':')
  match word.dropWhile (· != ':') with
  | [] => if isPlainName label then some ⟨none, String.ofList label⟩ else none
  | _ :: base =>
    if isPlainName label && isPlainName base then
      some ⟨some (String.ofList label), String.ofList base⟩
    else
      none

end Markup

end TensorContraction
