import TensorContraction.Markup.Reader

/-!
# Reading a tagged text

What a tagged text says is the sequence of events in it
(`TensorContraction.Markup.read`): the events up to the end, or up to the character
that is refused, and whether the text was a complete document.

Texts of entities are read in place of the references to them, and may hold
references in turn. Nothing keeps an entity from leading back to itself, so there is
a limit: from one character of the text to the next, at most
`TensorContraction.Markup.maxInclusions` texts are taken in.

Events are reported as soon as a tag is complete, and a character is never looked at
twice. So **what comes later cannot change them**
(`TensorContraction.Markup.run_append`): whoever stops at an event has seen all it
takes.
-/

namespace TensorContraction

namespace Markup

/-! ### Readings -/

/-- What a text says: the events in it, as far as it could be read, and the reader
at its end, if it could be read that far. -/
structure Reading where
  /-- The events, in order. -/
  events : List Event
  /-- The reader at the end of the text, if no character was refused. -/
  rest : Option Reader
deriving DecidableEq

/-- A reading that ends at a refused character. -/
def Reading.refused : Reading :=
  ⟨[], none⟩

/-- A reading after some events. -/
def Reading.after (events : List Event) (reading : Reading) : Reading :=
  ⟨events ++ reading.events, reading.rest⟩

/-- A reading that goes on where the first one ended, if it did not end at a
refused character. -/
def Reading.andThen (first : Reading) (go : Reader → Reading) : Reading :=
  match first.rest with
  | none => first
  | some r => (go r).after first.events

/-! ### Characters -/

/-- Takes a reader over some characters. Where it asks for a text to be taken in,
`takeIn` reads that text and the remaining characters. -/
def overWith (takeIn : Reader → List Char → Reading) : Reader → List Char → Reading
  | r, [] => ⟨[], some r⟩
  | r, c :: rest =>
    match r.advance c with
    | none => .refused
    | some ⟨next, events, []⟩ => (overWith takeIn next rest).after events
    | some ⟨next, events, text⟩ => (takeIn next (text ++ rest)).after events

/-- Takes a reader over some characters, taking in at most so many texts on the
way. -/
def overUpTo : (inclusions : Nat) → Reader → List Char → Reading
  | 0 => overWith fun _ _ => .refused
  | inclusions + 1 => overWith (overUpTo inclusions)

/-- How many texts may be taken in from one character of a text to the next. -/
def maxInclusions : Nat := 10

/-- Takes a reader over one character of a text, which stands for whatever it does in
the character set of the text. -/
def step (r : Reader) (c : Char) : Reading :=
  match r.charset.units? c with
  | none => .refused
  | some units => overUpTo maxInclusions r units

/-! ### Texts -/

/-- Runs a reader over a text. -/
def run (r : Reader) : List Char → Reading
  | [] => ⟨[], some r⟩
  | c :: text => (step r c).andThen fun next => run next text

/-- Whether the text was a complete document. -/
def Reading.isComplete (reading : Reading) : Bool :=
  reading.rest.any Reader.isComplete

/-- **Reads a text**. A byte order mark at its beginning is no part of it. -/
def read (text : String) : Reading :=
  match text.toList with
  | '\uFEFF' :: text => run (.initial .utf8) text
  | text => run (.initial .unclaimed) text

/-! ### Reports -/

/-- What there is to know of a text for those who do not read it themselves. -/
structure Report where
  /-- The events in the text, as far as it could be read. -/
  events : List Event
  /-- Whether the text was a complete document. -/
  isComplete : Bool
deriving DecidableEq

/-- What a reading tells. -/
def Reading.report (reading : Reading) : Report :=
  ⟨reading.events, reading.isComplete⟩

/-- **Reports a text**: what it says, without the reader at its end. -/
def report (text : String) : Report :=
  (read text).report

/-! ### Texts that go on -/

theorem Reading.andThen_assoc (first : Reading) (go next : Reader → Reading) :
    (first.andThen go).andThen next = first.andThen fun r => (go r).andThen next := by
  obtain ⟨events, rest⟩ := first
  cases rest with
  | none => rfl
  | some r =>
    cases h : (go r).rest <;> simp [Reading.andThen, Reading.after, h]

/-- **What comes later changes nothing**: reading a text and then some more is
reading the text, and going on from there if it could be read. -/
theorem run_append (r : Reader) (s t : List Char) :
    run r (s ++ t) = (run r s).andThen fun next => run next t := by
  induction s generalizing r with
  | nil => simp [run, Reading.andThen, Reading.after]
  | cons c s ih => simp only [List.cons_append, run, Reading.andThen_assoc, ih]

end Markup

end TensorContraction
