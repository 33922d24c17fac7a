import TensorContraction.Problem.Basic

/-!
# Validation

A problem is a contraction that can be computed as a matrix product only if its
indices fit together, and `TensorContraction.Problem.validate` tells whether they
do. The rules are checked in a fixed order, and the first one that is broken is
reported:

1. both operands have the same rank;
2. the free indices split evenly between the operands, at least one each, and the
   indices by role account for every dimension of the operands and of the output;
3. there is an index to sum over;
4. no assigned id is out of range, and no operand uses an id twice;
5. dimensions that carry the same index have the same size, unless sizes are not
   checked;
6. the profile holds a supported number of devices.

The fourth rule walks both assignments in step, so that the two operands are
looked at position by position; the fifth goes through `A` first and then through
`B`. An index of the output is sized by the output, and a summed index by the
other operand.
-/

namespace TensorContraction

/-! ### Settings -/

/-- What a validation asks for. -/
structure ValidationConfig where
  /-- The greatest number of devices that a profile may hold. -/
  maxDevices : UInt64
  /-- Whether matched dimensions must agree in size. -/
  checkSizes : Bool
deriving DecidableEq

namespace ValidationConfig

/-- The standard settings: everything is checked, and profiles hold one device. -/
def standard : ValidationConfig :=
  ⟨UInt64.ofNat DeviceProfile.maxDevices, true⟩

/-- Settings that check the structure of the indices only, for problems whose
sizes are bound later. -/
def relaxed : ValidationConfig :=
  ⟨UInt64.ofNat DeviceProfile.maxDevices, false⟩

/-- The same settings with another bound on the number of devices. -/
def withMaxDevices (config : ValidationConfig) (maxDevices : UInt64) : ValidationConfig :=
  { config with maxDevices := maxDevices }

/-- The same settings with the comparison of sizes switched on or off. -/
def withSizeChecks (config : ValidationConfig) (enabled : Bool) : ValidationConfig :=
  { config with checkSizes := enabled }

end ValidationConfig

/-! ### Errors -/

/-- One of the two operands. -/
inductive Operand
  | a
  | b
deriving DecidableEq

/-- The letter of an operand. -/
def Operand.letter : Operand → String
  | .a => "A"
  | .b => "B"

/-- Why a problem is rejected. -/
inductive ValidationError
  /-- The operands differ in rank. -/
  | rankMismatch (rankA rankB : Nat)
  /-- The free indices do not split evenly, or do not leave one for each
  operand. -/
  | numFreeInvalid (numFree : Nat)
  /-- The indices by role do not account for the dimensions of an operand. -/
  | numIndicesMismatch (expected got : Nat)
  /-- Nothing is summed over. -/
  | numSummationInvalid (numSummation : Nat)
  /-- An id is out of range, or a size disagrees with the matched dimension. -/
  | assignmentInvalid (operand : Operand) (position : Nat)
  /-- An operand uses an id twice. -/
  | assignmentDuplicate (operand : Operand) (index : Nat)
  /-- An index that one operand sums over is missing from the other. -/
  | indexUnassigned (index : Nat)
  /-- The profile holds no devices, or more than supported. -/
  | numDevicesInvalid (numDevices max : Nat)
deriving DecidableEq

namespace ValidationError

/-- The operand that an error is about, if it is about one. -/
def operand? : ValidationError → Option Operand
  | .assignmentInvalid operand _ => some operand
  | .assignmentDuplicate operand _ => some operand
  | _ => none

/-- The text of an error. -/
def message : ValidationError → String
  | .rankMismatch rankA rankB =>
    "operand dimension mismatch: A has " ++ Decimal.text rankA ++ " dims, B has " ++
      Decimal.text rankB
  | .numFreeInvalid numFree => "invalid number of free indices: " ++ Decimal.text numFree
  | .numIndicesMismatch expected got =>
    "operand has " ++ Decimal.text expected ++ " dims, classified indices account for " ++
      Decimal.text got
  | .numSummationInvalid numSummation =>
    "invalid number of summation indices: " ++ Decimal.text numSummation
  | .assignmentInvalid operand position =>
    "invalid index assignment for operand " ++ operand.letter ++ " at position " ++
      Decimal.text position
  | .assignmentDuplicate operand index =>
    "duplicate index " ++ Decimal.text index ++ " assigned in operand " ++ operand.letter
  | .indexUnassigned index =>
    "index " ++ Decimal.text index ++ " is not assigned in the other operand"
  | .numDevicesInvalid numDevices max =>
    "device profile has " ++ Decimal.text numDevices ++ " devices, supported range is 1..=" ++
      Decimal.text max

end ValidationError

namespace Problem

/-! ### Checks on lists of ids -/

/-- Walks both assignments in step: `a` does not come again in the left one, nor `b`
in the right one. -/
def checkNotAgain (a b : Nat) : List (Nat × Nat) → Except ValidationError Unit
  | [] => .ok ()
  | (a', b') :: rest =>
    if a = a' then .error (.assignmentDuplicate .a a)
    else if b = b' then .error (.assignmentDuplicate .b b)
    else checkNotAgain a b rest

/-- Walks both assignments in step from `position` on: no id is above `maxIndex`,
and none comes again later in the same operand. -/
def checkAssignments (maxIndex : Nat) :
    (position : Nat) → List (Nat × Nat) → Except ValidationError Unit
  | _, [] => .ok ()
  | position, (a, b) :: rest =>
    if maxIndex < a then .error (.assignmentInvalid .a position)
    else if maxIndex < b then .error (.assignmentInvalid .b position)
    else
      match checkNotAgain a b rest with
      | .error e => .error e
      | .ok () => checkAssignments maxIndex (position + 1) rest

/-! ### Checks on legs -/

/-- The size that an index must have: that of the output's dimension, or for a
summed index that of the other operand's leg. -/
def expectedSize (c : Tensor) (other : List Leg) (id : Nat) : Except ValidationError UInt64 :=
  if h : id < c.rank then
    .ok (c.dimensions.get ⟨id, h⟩).size
  else
    match other.find? fun leg => leg.id == id with
    | some leg => .ok leg.size
    | none => .error (.indexUnassigned id)

/-- Walks the legs of an operand from `position` on: each has the size that its
index must have. -/
def checkSizes (operand : Operand) (c : Tensor) (other : List Leg) :
    (position : Nat) → List Leg → Except ValidationError Unit
  | _, [] => .ok ()
  | position, leg :: rest =>
    match expectedSize c other leg.id with
    | .error e => .error e
    | .ok size =>
      if size = leg.size then checkSizes operand c other (position + 1) rest
      else .error (.assignmentInvalid operand position)

/-! ### The rules -/

/-- Rule 1: both operands have the same rank. -/
def validateRanks (p : Problem) : Except ValidationError Unit :=
  if p.a.rank = p.b.rank then .ok () else .error (.rankMismatch p.a.rank p.b.rank)

/-- Rules 2 and 3: the indices by role account for all dimensions, and there is one
to sum over. -/
def validateIndexCounts (p : Problem) : Except ValidationError Unit :=
  let numFree := p.free.length
  let consumed := numFree / 2 + p.batch.length + p.summation.length
  if numFree % 2 ≠ 0 ∨ numFree < 2 then .error (.numFreeInvalid numFree)
  else if consumed ≠ p.a.rank then .error (.numIndicesMismatch p.a.rank consumed)
  else if numFree + p.batch.length ≠ p.c.rank then .error (.numFreeInvalid numFree)
  else if p.summation.length < 1 then .error (.numSummationInvalid p.summation.length)
  else .ok ()

/-- The greatest id that an operand may use: ids are counted from zero. -/
def maxIndex (p : Problem) : Nat :=
  p.free.length + p.batch.length + p.summation.length - 1

/-- Rule 4: ids are in range, and no operand uses one twice. -/
def validateAssignments (p : Problem) : Except ValidationError Unit :=
  checkAssignments p.maxIndex 0 ((p.legsA.map Leg.id).zip (p.legsB.map Leg.id))

/-- Rule 5: dimensions that carry the same index have the same size. -/
def validateSizes (p : Problem) : Except ValidationError Unit :=
  match checkSizes .a p.c p.legsB 0 p.legsA with
  | .error e => .error e
  | .ok () => checkSizes .b p.c p.legsA 0 p.legsB

/-- Rule 6: the profile holds a supported number of devices. -/
def validateDevices (p : Problem) (maxDevices : UInt64) : Except ValidationError Unit :=
  let numDevices := p.profile.numDevices
  if numDevices < 1 ∨ maxDevices.toNat < numDevices then
    .error (.numDevicesInvalid numDevices maxDevices.toNat)
  else
    .ok ()

/-- **Validation**: the first rule that a problem breaks, or none. -/
def validate (p : Problem) (config : ValidationConfig) : Except ValidationError Unit := do
  p.validateRanks
  p.validateIndexCounts
  p.validateAssignments
  if config.checkSizes then
    p.validateSizes
  p.validateDevices config.maxDevices

end Problem

end TensorContraction
