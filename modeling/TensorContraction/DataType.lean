/-!
# Element types

The type of a tensor's elements, or of one of the two scalars `alpha` and `beta`
of an operation. Nine of the ten types are numbers, real or complex, in one of
three precisions; the tenth, `TensorContraction.DataType.absent`, says that a
scalar is not used.

A type is written as its numeric **tag** in the tagged text of a problem and as
its **name** in the JSON form. Tags are stable: `9` belongs to no type, and the
order of types is the order of their tags.
-/

namespace TensorContraction

/-- The type of a tensor's elements or of a scalar. -/
inductive DataType
  | single
  | double
  | complexSingle
  | complexDouble
  | complexConjugateSingle
  | complexConjugateDouble
  | half
  | complexHalf
  | complexConjugateHalf
  /-- No scalar at all. -/
  | absent
deriving DecidableEq, Hashable

namespace DataType

/-- Every type, in the order of the tags. -/
def all : List DataType :=
  [single, double, complexSingle, complexDouble, complexConjugateSingle,
    complexConjugateDouble, half, complexHalf, complexConjugateHalf, absent]

/-! ### Tags and names -/

/-- The number that stands for a type. -/
def tag : DataType → Nat
  | single => 0
  | double => 1
  | complexSingle => 2
  | complexDouble => 3
  | complexConjugateSingle => 4
  | complexConjugateDouble => 5
  | half => 6
  | complexHalf => 7
  | complexConjugateHalf => 8
  | absent => 10

/-- The type with a given tag, if there is one. -/
def ofTag? (tag : Nat) : Option DataType :=
  all.find? fun ty => ty.tag == tag

/-- The word that stands for a type. -/
def name : DataType → String
  | single => "Single"
  | double => "Double"
  | complexSingle => "ComplexSingle"
  | complexDouble => "ComplexDouble"
  | complexConjugateSingle => "ComplexConjugateSingle"
  | complexConjugateDouble => "ComplexConjugateDouble"
  | half => "Half"
  | complexHalf => "ComplexHalf"
  | complexConjugateHalf => "ComplexConjugateHalf"
  | absent => "None"

/-- The type with a given name, if there is one. -/
def ofName? (name : String) : Option DataType :=
  all.find? fun ty => ty.name == name

/-- The one-letter code of a type, as linear-algebra libraries use it. -/
def letter : DataType → Char
  | half => 'H'
  | single => 'S'
  | double => 'D'
  | complexHalf => 'Q'
  | complexSingle => 'C'
  | complexDouble => 'Z'
  | complexConjugateHalf => 'W'
  | complexConjugateSingle => 'X'
  | complexConjugateDouble => 'Y'
  | absent => '0'

theorem ofTag?_tag (ty : DataType) : ofTag? ty.tag = some ty := by
  cases ty <;> decide

theorem ofTag?_eq_some_iff {tag : Nat} {ty : DataType} :
    ofTag? tag = some ty ↔ ty.tag = tag := by
  constructor
  · intro h
    exact eq_of_beq (List.find?_some (p := fun ty : DataType => ty.tag == tag) h)
  · rintro rfl
    exact ofTag?_tag ty

theorem ofName?_name (ty : DataType) : ofName? ty.name = some ty := by
  cases ty <;> decide

/-- A tag names its type alone. -/
theorem tag_injective {x y : DataType} (h : x.tag = y.tag) : x = y := by
  have hx := ofTag?_tag x
  rw [h, ofTag?_tag y] at hx
  exact (Option.some.inj hx).symm

/-- Types are ordered by their tags. -/
instance : Ord DataType := ⟨compareOn tag⟩

instance : Std.TransOrd DataType :=
  inferInstanceAs (Std.TransCmp (compareOn tag))

instance : Std.LawfulEqOrd DataType where
  eq_of_compare h := tag_injective (Std.LawfulEqOrd.eq_of_compare h)

/-! ### Kinds of numbers -/

/-- Whether the elements are real numbers. -/
def isReal : DataType → Bool
  | half | single | double => true
  | _ => false

/-- Whether the elements are complex numbers. -/
def isComplex (ty : DataType) : Bool :=
  !ty.isReal && ty != absent

/-- Whether the elements are taken with the sign of their imaginary part
changed. -/
def isConjugate : DataType → Bool
  | complexConjugateHalf | complexConjugateSingle | complexConjugateDouble => true
  | _ => false

/-- Whether the elements have double precision. -/
def isDouble : DataType → Bool
  | double | complexDouble | complexConjugateDouble => true
  | _ => false

/-! ### Costs -/

/-- The size of one element in bytes: a complex number takes two real ones. -/
def sizeInBytes : DataType → Nat
  | half => 2
  | single => 4
  | double => 8
  | complexHalf | complexConjugateHalf => 2 * 2
  | complexSingle | complexConjugateSingle => 2 * 4
  | complexDouble | complexConjugateDouble => 2 * 8
  | absent => 0

/-- The floating-point operations of one multiply-add: a product and a sum, or
four products and four sums for complex numbers. -/
def flopsPerMadd : DataType → UInt64
  | absent => 0
  | half | single | double => 2
  | _ => 8

end DataType

end TensorContraction
