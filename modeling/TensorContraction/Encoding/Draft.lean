import TensorContraction.Encoding.Attributes
import TensorContraction.Markup.Reading

/-!
# Reading a problem

A problem is read off the events of a tagged text. On the way, a **draft** holds the
parts that have been read and the parts that are open
(`TensorContraction.Encoding.Draft`).

When an element begins, three things are looked at, in this order: that the element
is a part and directly inside the part that encloses it; that its attributes are
readable; that the part has not occurred before. The first element that fails
decides the error, whatever comes after it, well-formed or not. Only a text that has
been read to its end can be found not to be well-formed, to lack parts, or to
describe no problem.

At the end, the counts that the operation records must be those of the classified
indices.
-/

namespace TensorContraction

open Markup

namespace Encoding

/-- What has been read of a problem. -/
structure Draft where
  /-- The parts that are open, the innermost one first. -/
  path : List Part
  /-- Whether the problem has begun. -/
  begun : Bool
  /-- The output tensor. -/
  c : Option Tensor
  /-- The left operand. -/
  a : Option Tensor
  /-- The right operand. -/
  b : Option Tensor
  /-- The operation, with the recorded counts. -/
  operation : Option (Operation × Counts)
  /-- The assignment of the left operand. -/
  idsA : Option (List UInt64)
  /-- The assignment of the right operand. -/
  idsB : Option (List UInt64)
  /-- The devices. -/
  profile : Option DeviceProfile
deriving DecidableEq

namespace Draft

/-- Nothing read. -/
def blank : Draft :=
  ⟨[], false, none, none, none, none, none, none, none⟩

/-! ### Elements -/

/-- The part that an element holds, if it is in its place. -/
def partOf (d : Draft) (e : Element) : Except DecodeError Part :=
  match Part.ofTag? e.tag with
  | none => .error (.unexpected e.tag)
  | some part =>
    if d.path.head? = part.parent? then .ok part
    else .error (.misplaced part d.path.head?)

/-- Fills a place of the draft that must be empty. -/
def fill {α : Type} (part : Part) (place : Option α) (x : α) : Except DecodeError (Option α) :=
  match place with
  | none => .ok (some x)
  | some _ => .error (.repeated part)

/-- Reads a part and fills the place for it. -/
def readPart (d : Draft) (e : Element) : Part → Except DecodeError Draft
  | .problem =>
    if d.begun then .error (.repeated .problem) else .ok { d with begun := true }
  | .tensorC => do
    let c ← fill .tensorC d.c (← readTensor e)
    return { d with c := c }
  | .tensorA => do
    let a ← fill .tensorA d.a (← readTensor e)
    return { d with a := a }
  | .tensorB => do
    let b ← fill .tensorB d.b (← readTensor e)
    return { d with b := b }
  | .operation => do
    let operation ← fill .operation d.operation (← readOperation e)
    return { d with operation := operation }
  | .assignmentA => do
    let idsA ← fill .assignmentA d.idsA (← readAssignment e)
    return { d with idsA := idsA }
  | .assignmentB => do
    let idsB ← fill .assignmentB d.idsB (← readAssignment e)
    return { d with idsB := idsB }
  | .profile => do
    let profile ← fill .profile d.profile (← readProfile e)
    return { d with profile := profile }

/-- The draft after an event. -/
def step (d : Draft) : Event → Except DecodeError Draft
  | .stop => .ok { d with path := d.path.tail }
  | .start e => do
    let part ← d.partOf e
    let d ← d.readPart e part
    return { d with path := part :: d.path }

/-! ### The end of a text -/

/-- A part that must have been read. -/
def require {α : Type} (part : Part) : Option α → Except DecodeError α
  | some x => .ok x
  | none => .error (.missingElement part.tag)

/-- What the parts describe, with the recorded counts, if none is missing. -/
def description (d : Draft) : Except DecodeError (Description × Counts) := do
  let () ← require .problem (if d.begun then some () else none)
  let c ← require .tensorC d.c
  let a ← require .tensorA d.a
  let b ← require .tensorB d.b
  let (operation, counts) ← require .operation d.operation
  let idsA ← require .assignmentA d.idsA
  let idsB ← require .assignmentB d.idsB
  let profile ← require .profile d.profile
  return (⟨c, a, b, idsA, idsB, operation, profile⟩, counts)

/-- Checks a recorded count. -/
def checkCount (name : String) (recorded actual : Nat) : Except DecodeError Unit :=
  if recorded = actual then .ok () else .error (.countMismatch name recorded actual)

/-- Checks the recorded counts of a problem. -/
def checkCounts (p : Problem) (counts : Counts) : Except DecodeError Unit := do
  checkCount "nF" counts.free.toNat p.free.length
  checkCount "nB" counts.batch.toNat p.batch.length
  checkCount "nS" counts.summation.toNat p.summation.length

/-- The problem that has been read. -/
def finish (d : Draft) : Except DecodeError Problem := do
  let (description, counts) ← d.description
  match Problem.ofDescription description with
  | .error e => .error (.problem e)
  | .ok p =>
    checkCounts p counts
    return p

end Draft

/-- The draft after a sequence of events. -/
def draft (events : List Event) : Except DecodeError Draft :=
  events.foldlM Draft.step Draft.blank

/-- Reads a problem from its tagged text, by the reports of a given reader. -/
def decodeWith (report : String → Report) (text : String) : Except DecodeError Problem := do
  let reported := report text
  let d ← draft reported.events
  if reported.isComplete then d.finish else .error .notWellFormed

/-- **Reads a problem** from its tagged text. -/
def decode (text : String) : Except DecodeError Problem :=
  decodeWith report text

end Encoding

end TensorContraction
