/-!
# Rankings

How a list of values stands under an order, an equality and a hash: every pair
compared both ways, the positions in a stable ascending sort, and the number of
different values. It also records whether the three agree – that the order and the
equality tell the same values apart, and that equal values have equal hashes.
-/

namespace TensorContraction

/-- How a list of values compares among itself. -/
structure Ranking where
  /-- Row by row, each value compared with every one. -/
  order : List (List Ordering)
  /-- Row by row, whether each value equals every one. -/
  same : List (List Bool)
  /-- Whether order and equality agree on every pair. -/
  orderAgrees : Bool
  /-- Whether equal values have equal hashes. -/
  hashAgrees : Bool
  /-- The positions of the values in a stable ascending sort. -/
  sorted : List Nat
  /-- The number of different values. -/
  distinct : Nat
deriving DecidableEq

namespace Ranking

variable {α : Type} [Ord α] [BEq α] [Hashable α]

/-- The comparison that follows from equality and “less than”, if one of them holds
in one of the two directions. -/
def partialOrder? (x y : α) : Option Ordering :=
  if x == y then some .eq
  else if (compare x y).isLT then some .lt
  else if (compare y x).isLT then some .gt
  else none

/-- A table of what a function makes of every pair of values. -/
def matrix {β : Type} (f : α → α → β) (values : List α) : List (List β) :=
  values.map fun x => values.map (f x)

/-- Whether a test holds of every pair of values. -/
def allPairs (test : α → α → Bool) (values : List α) : Bool :=
  values.all fun x => values.all (test x)

/-- The ranking of a list of values. -/
def ofList (values : List α) : Ranking where
  order := matrix compare values
  same := matrix (· == ·) values
  orderAgrees := allPairs (fun x y => partialOrder? x y == some (compare x y)) values
  hashAgrees := allPairs (fun x y => !(x == y) || hash x == hash y) values
  sorted := (values.zipIdx.mergeSort fun x y => (compare x.1 y.1).isLE).map Prod.snd
  distinct := values.eraseDups.length

end Ranking

end TensorContraction
