import TensorContraction.Descriptor
import TensorContraction.Encoding.Draft
import TensorContraction.Problem.Formula
import TensorContraction.Problem.Order
import TensorContraction.Problem.Validation
import TensorContraction.Table

/-!
# Sessions

A session is what a tuner does all day: it forms problems and keeps them by name,
and it keeps a table of results by problem. Problems are formed from descriptions,
decoded from tagged text, copied, or encoded and decoded again; results are put into
the table, looked up, removed and listed.

A session is a value, and a step makes the next one
(`TensorContraction.Session.step`). A step that fails changes nothing.
-/

namespace TensorContraction

/-- The problems that are known by name, and the results by problem. -/
structure Session where
  /-- The named problems, in the order in which their names were first used. -/
  names : List (String × Descriptor)
  /-- The results by problem. -/
  table : Table Problem String

namespace Session

/-- A session in which nothing has happened. -/
def empty : Session :=
  ⟨[], .empty⟩

/-! ### Steps and replies -/

/-- A step of a session. -/
inductive Step
  /-- Forms a problem and names it. -/
  | form (name : String) (description : Description)
  /-- Decodes a problem and names it. -/
  | decode (name text : String)
  /-- Names a copy of a problem. -/
  | clone (name target : String)
  /-- Names a copy of a problem with offsets switched on or off. -/
  | withOffsets (name target : String) (enabled : Bool)
  /-- Encodes a problem at some indentation, decodes the text, and names the
  outcome. -/
  | reencode (name target : String) (level : Nat)
  /-- Counts the operations of a problem. -/
  | flops (name : String)
  /-- Validates a problem. -/
  | validate (name : String) (config : ValidationConfig)
  /-- Looks at a problem, asking for its operation count. -/
  | inspect (name : String)
  /-- Compares two problems. -/
  | compare (left right : String)
  /-- Puts a result into the table. -/
  | insert (name value : String)
  /-- Looks a result up. -/
  | lookup (name : String)
  /-- Takes a result out of the table. -/
  | remove (name : String)
  /-- Lists the table from a problem on. -/
  | entriesFrom (name : String)
  /-- Lists the table. -/
  | entries

/-- What a step answers. -/
inductive Reply
  /-- The problem with this formula has been named; did the name exist? -/
  | named (formula : String) (replaced : Bool)
  /-- The same for a problem that was encoded and decoded; is it the one it came
  from? -/
  | renamed (formula : String) (replaced same : Bool)
  | flops (count : UInt64)
  | verdict (result : Except ValidationError Unit)
  /-- The problem, with what was remembered of it before the step. -/
  | descriptor (descriptor : Descriptor)
  | comparison (order : Ordering) (same : Bool)
  /-- The value that was in the table before a result was put there. -/
  | previous (value : Option String)
  /-- The value in the table. -/
  | found (value : Option String)
  /-- The value that has been taken out of the table. -/
  | removed (value : Option String)
  | entries (entries : List (Problem × String))

/-- Why a step fails. -/
inductive Failure
  /-- No problem has the name. -/
  | noSuchName
  /-- The description is that of no problem. -/
  | notFormed (error : ProblemError)
  /-- The text is that of no problem. -/
  | notDecoded (error : Encoding.DecodeError)

/-! ### Names -/

/-- Puts an entry into a list by name, in place of the one that is there. -/
def putName {α : Type} (name : String) (x : α) : List (String × α) → List (String × α)
  | [] => [(name, x)]
  | (n, y) :: rest => if n = name then (n, x) :: rest else (n, y) :: putName name x rest

/-- The descriptor with a given name. -/
def find (s : Session) (name : String) : Except Failure Descriptor :=
  match s.names.lookup name with
  | some d => .ok d
  | none => .error .noSuchName

/-- Whether a name is in use. -/
def knows (s : Session) (name : String) : Bool :=
  (s.names.lookup name).isSome

/-- Names a descriptor. -/
def put (s : Session) (name : String) (d : Descriptor) : Session :=
  { s with names := putName name d s.names }

/-- Names a descriptor, and says so. -/
def putReply (s : Session) (name : String) (d : Descriptor) : Session × Reply :=
  (s.put name d, .named d.problem.formula (s.knows name))

/-! ### The steps -/

/-- The session after a step that succeeds, with the answer. -/
def tryStep (s : Session) : Step → Except Failure (Session × Reply)
  | .form name description =>
    match Problem.ofDescription description with
    | .error e => .error (.notFormed e)
    | .ok p => .ok (s.putReply name (.ofProblem p))
  | .decode name text =>
    match Encoding.decode text with
    | .error e => .error (.notDecoded e)
    | .ok p => .ok (s.putReply name (.ofProblem p))
  | .clone name target => do
    let d ← s.find name
    return s.putReply target d.clone
  | .withOffsets name target enabled => do
    let d ← s.find name
    return s.putReply target (d.withOffsets enabled)
  | .reencode name target level => do
    let d ← s.find name
    match Encoding.decode (Encoding.encode d.problem level) with
    | .error e => .error (.notDecoded e)
    | .ok p =>
      return (s.put target (.ofProblem p), .renamed p.formula (s.knows target) (p == d.problem))
  | .flops name => do
    let d ← s.find name
    let (count, d) := d.numFlops
    return (s.put name d, .flops count)
  | .validate name config => do
    let d ← s.find name
    return (s, .verdict (d.problem.validate config))
  | .inspect name => do
    let d ← s.find name
    return (s.put name d.numFlops.2, .descriptor d)
  | .compare left right => do
    let l ← s.find left
    let r ← s.find right
    return (s, .comparison (Ord.compare l.problem r.problem) (l.problem == r.problem))
  | .insert name value => do
    let d ← s.find name
    return ({ s with table := s.table.insert d.problem value }, .previous (s.table.get? d.problem))
  | .lookup name => do
    let d ← s.find name
    return (s, .found (s.table.get? d.problem))
  | .remove name => do
    let d ← s.find name
    return ({ s with table := s.table.erase d.problem }, .removed (s.table.get? d.problem))
  | .entriesFrom name => do
    let d ← s.find name
    return (s, .entries (s.table.entriesFrom d.problem))
  | .entries => .ok (s, .entries s.table.entries)

/-- **A step of a session**: the answer or the failure, and the next session, which
is the same one after a failure. -/
def step (s : Session) (step : Step) : Session × Except Failure Reply :=
  match s.tryStep step with
  | .ok (next, reply) => (next, .ok reply)
  | .error failure => (s, .error failure)

end Session

end TensorContraction
