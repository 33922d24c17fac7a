import TensorContraction.Decimal

/-!
# Roles of indices

The indices of a contraction `C = Sum A * B` are numbered globally: first the
dimensions of `C`, from `0` up, then the indices that are summed over. Every
dimension of an operand is assigned one of these ids, and where an id occurs
decides its **role**:

* in `C`, `A` and `B` – a *batch* index;
* in `C` and one operand – a *free* index;
* in `A` and `B` but not in `C` – a *summation* index, known by the positions at
  which the operands first use it;
* nowhere – an *unused* id.

Two combinations have no role, and are the two ways in which the assignments of a
problem can be malformed: an index of `C` that no operand uses, and a summed
index that one operand uses alone.
-/

namespace TensorContraction

/-! ### Errors -/

/-- Why a problem cannot be formed. -/
inductive ProblemError
  /-- An index of `C` is assigned to no operand. -/
  | indexUnassigned (index : Nat)
  /-- A summed index is assigned to one operand only. -/
  | summationAssignmentsInvalid (index : Nat)
  /-- The input is not of a form that indices can be read off. -/
  | notSupported (message : String)
deriving DecidableEq

/-- The text of an error. -/
def ProblemError.message : ProblemError → String
  | .indexUnassigned index =>
    "output index " ++ Decimal.text index ++ " is not assigned to any operand"
  | .summationAssignmentsInvalid index =>
    "summation index " ++ Decimal.text index ++ " is assigned to only one operand"
  | .notSupported message => "problem not supported: " ++ message

/-! ### Roles -/

/-- A summed index, by the positions at which the operands first use it. -/
structure SummationPair where
  /-- The position in `A`. -/
  inA : Nat
  /-- The position in `B`. -/
  inB : Nat
deriving DecidableEq, Hashable

/-- Pairs are ordered by the position in `A`, then by the position in `B`. -/
instance : Ord SummationPair :=
  ⟨compareLex (compareOn SummationPair.inA) (compareOn SummationPair.inB)⟩

instance : Std.TransOrd SummationPair :=
  inferInstanceAs (Std.TransCmp
    (compareLex (compareOn SummationPair.inA) (compareOn SummationPair.inB)))

instance : Std.LawfulEqOrd SummationPair where
  eq_of_compare {x y} h := by
    obtain ⟨hinA, hinB⟩ := compareLex_eq_eq.1 h
    cases x
    cases y
    cases Std.LawfulEqOrd.eq_of_compare hinA
    cases Std.LawfulEqOrd.eq_of_compare hinB
    rfl

/-- The role of an index. -/
inductive Role
  /-- In `C`, `A` and `B`. -/
  | batch
  /-- In `C` and exactly one operand. -/
  | free
  /-- In `A` and `B` but not in `C`. -/
  | summation (pair : SummationPair)
  /-- In no tensor. -/
  | unused
deriving DecidableEq

/-- The role of the index `id`, for an output of rank `rankC` and operands whose
dimensions are assigned the ids `a` and `b`. -/
def roleOf (rankC : Nat) (a b : List Nat) (id : Nat) : Except ProblemError Role :=
  if id < rankC then
    match a.idxOf? id, b.idxOf? id with
    | some _, some _ => .ok .batch
    | some _, none => .ok .free
    | none, some _ => .ok .free
    | none, none => .error (.indexUnassigned id)
  else
    match a.idxOf? id, b.idxOf? id with
    | some inA, some inB => .ok (.summation ⟨inA, inB⟩)
    | some _, none => .error (.summationAssignmentsInvalid id)
    | none, some _ => .error (.summationAssignmentsInvalid id)
    | none, none => .ok .unused

end TensorContraction
