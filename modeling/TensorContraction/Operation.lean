import TensorContraction.DataType

/-!
# Operations

What is computed from the tensors of a problem: the kind of operation, the types
of the scalars `alpha` and `beta` in `C = alpha * A * B + beta * C`, and whether
the kernel that runs it must accept offsets into the tensors.
-/

namespace TensorContraction

/-- The kind of an operation. -/
inductive OperationType
  | contraction
  | convolution
  | correlation
deriving DecidableEq, Hashable

namespace OperationType

/-- Every kind, in the order of the tags. -/
def all : List OperationType :=
  [contraction, convolution, correlation]

/-- An operation is a contraction unless something else is said. -/
instance : Inhabited OperationType := ⟨contraction⟩

/-- The number that stands for a kind. -/
def tag : OperationType → Nat
  | contraction => 0
  | convolution => 1
  | correlation => 2

/-- The kind with a given tag, if there is one. -/
def ofTag? (tag : Nat) : Option OperationType :=
  all.find? fun kind => kind.tag == tag

/-- The word that stands for a kind. -/
def name : OperationType → String
  | contraction => "Contraction"
  | convolution => "Convolution"
  | correlation => "Correlation"

/-- The kind with a given name, if there is one. -/
def ofName? (name : String) : Option OperationType :=
  all.find? fun kind => kind.name == name

/-- The two-letter code of a kind. -/
def code : OperationType → String
  | contraction => "CT"
  | convolution => "CV"
  | correlation => "CR"

theorem ofTag?_tag (kind : OperationType) : ofTag? kind.tag = some kind := by
  cases kind <;> decide

theorem ofTag?_eq_some_iff {tag : Nat} {kind : OperationType} :
    ofTag? tag = some kind ↔ kind.tag = tag := by
  constructor
  · intro h
    exact eq_of_beq (List.find?_some (p := fun kind : OperationType => kind.tag == tag) h)
  · rintro rfl
    exact ofTag?_tag kind

theorem ofName?_name (kind : OperationType) : ofName? kind.name = some kind := by
  cases kind <;> decide

/-- A tag names its kind alone. -/
theorem tag_injective {x y : OperationType} (h : x.tag = y.tag) : x = y := by
  have hx := ofTag?_tag x
  rw [h, ofTag?_tag y] at hx
  exact (Option.some.inj hx).symm

/-- Kinds are ordered by their tags. -/
instance : Ord OperationType := ⟨compareOn tag⟩

instance : Std.TransOrd OperationType :=
  inferInstanceAs (Std.TransCmp (compareOn tag))

instance : Std.LawfulEqOrd OperationType where
  eq_of_compare h := tag_injective (Std.LawfulEqOrd.eq_of_compare h)

end OperationType

/-- An operation: its kind, the types of its scalars, and whether tensors may
come with offsets. -/
structure Operation where
  /-- The kind of the operation. -/
  type : OperationType
  /-- The type of `alpha`, `TensorContraction.DataType.absent` if it is unused. -/
  alpha : DataType
  /-- The type of `beta`, `TensorContraction.DataType.absent` if it is unused. -/
  beta : DataType
  /-- Whether kernels must accept tensor offsets. -/
  useOffsets : Bool
deriving DecidableEq

namespace Operation

/-- The operation `C = alpha * A * B + beta * C` with both scalars of one type
and no offsets. -/
def gemm (ty : DataType) : Operation :=
  ⟨.contraction, ty, ty, false⟩

/-- The same operation with offsets switched on or off. -/
def withOffsets (op : Operation) (enabled : Bool) : Operation :=
  { op with useOffsets := enabled }

end Operation

end TensorContraction
