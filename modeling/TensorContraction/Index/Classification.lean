import TensorContraction.Index.Role

/-!
# Classification of the indices of a contraction

`TensorContraction.Classification.ofIds` sorts the indices of a contraction by
their role, going through the ids in ascending order and stopping at the first
one without a role.

How far does it have to look? The ids of `C` come first, and `A` has no more
summed indices than it has dimensions, so the ids below `rank C + rank A` are
enough. An id of `B` at or above that bound is not looked at, and neither is one
of `A`.

The list of ids up to the bound is never formed. An output may be declared with
any rank up to the greatest word, while the assignments are short, and then some
small id of the output is assigned to no operand: the scan stops there.

`TensorContraction.Classification.ofWords` is the same classification for a rank
that is a machine word. There the bound itself is a word, and it wraps around if
the rank is within `rank A` of the greatest word.
-/

namespace TensorContraction

/-- The indices of a contraction by role, each list by ascending id. -/
structure Classification where
  /-- The indices of `C` that exactly one operand uses. -/
  free : List Nat
  /-- The indices of `C` that both operands use. -/
  batch : List Nat
  /-- The indices that are summed over, by their positions in the operands. -/
  summation : List SummationPair
deriving DecidableEq

namespace Classification

/-- No indices. -/
def empty : Classification :=
  ⟨[], [], []⟩

/-- Puts an index in front of those of its role. -/
def add (k : Classification) (id : Nat) : Role → Classification
  | .batch => { k with batch := id :: k.batch }
  | .free => { k with free := id :: k.free }
  | .summation pair => { k with summation := pair :: k.summation }
  | .unused => k

/-- Classifies `count` ids in ascending order, starting at `id`. The first id
without a role decides the error. -/
def scan (rankC : Nat) (a b : List Nat) : (count id : Nat) → Except ProblemError Classification
  | 0, _ => .ok empty
  | count + 1, id =>
    match roleOf rankC a b id with
    | .error e => .error e
    | .ok role => (scan rankC a b count (id + 1)).map fun k => k.add id role

/-- **The classification** of a contraction with an output of rank `rankC` and
operands assigned the ids `a` and `b`. -/
def ofIds (rankC : Nat) (a b : List Nat) : Except ProblemError Classification :=
  scan rankC a b (rankC + a.length) 0

/-- The classification for a rank given as a machine word, with the bound on the
ids computed in words. -/
def ofWords (rankC : UInt64) (a b : List UInt64) : Except ProblemError Classification :=
  scan rankC.toNat (a.map UInt64.toNat) (b.map UInt64.toNat)
    (rankC + UInt64.ofNat a.length).toNat 0

end Classification

end TensorContraction
