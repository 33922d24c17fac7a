/-!
# The parts of an encoded problem

An encoded problem is a tree of eight elements, each with a tag and a place of its
own:

* `P`, the problem, which encloses everything;
* in it `TC`, `TA` and `TB`, the tensors; `O`, the operation; and `DP`, the devices;
* in `O`, `IA` and `IB`, the assignments of the operands.

The order of the parts that share a place is free when a problem is read, and fixed
when it is written.
-/

namespace TensorContraction

namespace Encoding

/-- A part of an encoded problem. -/
inductive Part
  | problem
  | tensorC
  | tensorA
  | tensorB
  | operation
  | assignmentA
  | assignmentB
  | profile
deriving DecidableEq

namespace Part

/-- Every part, in the order in which missing ones are reported. -/
def all : List Part :=
  [problem, tensorC, tensorA, tensorB, operation, assignmentA, assignmentB, profile]

/-- The tag of the element that holds a part. -/
def tag : Part → String
  | problem => "P"
  | tensorC => "TC"
  | tensorA => "TA"
  | tensorB => "TB"
  | operation => "O"
  | assignmentA => "IA"
  | assignmentB => "IB"
  | profile => "DP"

/-- The part that an element with a given tag holds, if it holds any. -/
def ofTag? (tag : String) : Option Part :=
  all.find? fun part => part.tag == tag

/-- The part that directly encloses a part; the problem is enclosed by none. -/
def parent? : Part → Option Part
  | problem => none
  | tensorC | tensorA | tensorB | operation | profile => some problem
  | assignmentA | assignmentB => some operation

theorem ofTag?_tag (part : Part) : ofTag? part.tag = some part := by
  cases part <;> decide

end Part

end Encoding

end TensorContraction
