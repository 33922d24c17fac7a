import TensorContraction.Decimal
import TensorContraction.Json.Text

/-!
# JSON values

The values of JSON, and the compact form in which they are written: no white space,
fields in the order in which they are given.

Numbers come in two kinds. The **natural** ones, written in plain digits, are the
only ones that the types of this library hold; any other number – with a sign, a
fraction or an exponent – is kept by its digits, since nothing is ever computed
from it. In the same spirit an object is a list of fields: neither their order nor
a repetition is lost.
-/

namespace TensorContraction

/-- A JSON value. -/
inductive Json
  | null
  | boolean (value : Bool)
  /-- A number in plain digits. -/
  | natural (value : Nat)
  /-- Any other number, as it is written. -/
  | number (digits : List Char)
  | string (text : List Json.Letter)
  | array (items : List Json)
  | object (fields : List (List Json.Letter × Json))

namespace Json

mutual

/-- A value in its compact form. -/
def written : Json → List Char
  | null => "null".toList
  | boolean true => "true".toList
  | boolean false => "false".toList
  | natural value => Nat.toDigits 10 value
  | number digits => digits
  | string text => writtenString text
  | array items => '[' :: writtenItems items ++ [']']
  | object fields => '\x7b' :: writtenFields fields ++ ['\x7d']

/-- The items of an array, separated by commas. -/
def writtenItems : List Json → List Char
  | [] => []
  | [item] => item.written
  | item :: items => item.written ++ ',' :: writtenItems items

/-- The fields of an object, separated by commas. -/
def writtenFields : List (List Letter × Json) → List Char
  | [] => []
  | [(name, value)] => writtenString name ++ ':' :: value.written
  | (name, value) :: fields =>
    writtenString name ++ ':' :: value.written ++ ',' :: writtenFields fields

end

/-- The compact text of a value. -/
def text (value : Json) : String :=
  String.ofList value.written

end Json

end TensorContraction
