import TensorContraction.Problem.Basic

/-!
# Descriptors

Counting the operations of a problem takes a walk through its tensors, and the
count is asked for again and again while kernels are tuned. A **descriptor** is a
problem together with a memo for the count, which is filled when the count is first
asked for.

The memo has a flag next to its value, since any value may be a count: zero is that of
a problem with an empty tensor. It travels with the descriptor: cloning keeps what is
remembered, while a descriptor for another problem – be it the same one with other
offsets – starts without. That nothing else can be seen of it is the point: the count
that a descriptor remembers is always the count of its problem.
-/

namespace TensorContraction

/-- A memo for an operation count. -/
structure FlopCount where
  /-- The count, if the flag is set. -/
  value : UInt64
  /-- Whether the count is there. -/
  ready : Bool

namespace FlopCount

/-- The memo that has not been filled. -/
def unset : FlopCount :=
  ⟨0, false⟩

/-- The count, if the memo has been filled. -/
def get? (memo : FlopCount) : Option UInt64 :=
  if memo.ready then some memo.value else none

/-- The count, computed only if the memo has not been filled, and the memo that is filled
with it. -/
def getOrInit (memo : FlopCount) (init : Unit → UInt64) : UInt64 × FlopCount :=
  match memo.get? with
  | some value => (value, memo)
  | none =>
    let value := init ()
    (value, { memo with value := value, ready := true })

/-- A copy of a memo: a new one, which is filled if the other one has been. -/
def clone (memo : FlopCount) : FlopCount :=
  match memo.get? with
  | some value => (unset.getOrInit fun _ => value).2
  | none => unset

end FlopCount

/-- A problem with a memo for its operation count. -/
structure Descriptor where
  /-- The problem. -/
  problem : Problem
  /-- The memo for the operation count. -/
  memo : FlopCount

namespace Descriptor

/-- A fresh descriptor, which remembers nothing. -/
def ofProblem (p : Problem) : Descriptor :=
  ⟨p, .unset⟩

/-- A copy of a descriptor, with what it remembers. -/
def clone (d : Descriptor) : Descriptor :=
  ⟨d.problem, d.memo.clone⟩

/-- A fresh descriptor of the same problem with offsets switched on or off. -/
def withOffsets (d : Descriptor) (enabled : Bool) : Descriptor :=
  ofProblem (d.problem.withOffsets enabled)

/-- The operation count, and the descriptor that remembers it. -/
def numFlops (d : Descriptor) : UInt64 × Descriptor :=
  let (count, memo) := d.memo.getOrInit fun _ => d.problem.numFlops
  (count, { d with memo := memo })

end Descriptor

end TensorContraction
