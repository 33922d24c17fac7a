import TensorContraction.Markup.Reading

/-!
# What a character does to a reader

A reader has a step of its own for each place in the grammar. Most of them only lead it
to another place. What else there is to a step is little: markup that is no element has been
passed, the text declares something, another text is to be taken in, an element begins or
ends. This file says so once (`TensorContraction.Markup.Reader.Effect`), and what holds of
those few things holds of every character
(`TensorContraction.Markup.Reader.effect_of_advance`).

From one character to a text it is the same for whatever relates a reader to the reader after
some text, and to the events on the way (`TensorContraction.Markup.IsCourse`).
-/

namespace TensorContraction

namespace Markup

namespace Reader

variable {r : Reader}

/-! ### Steps without events -/

/-- A step that leads, if anywhere, to another place, or past white space or a piece of
markup. -/
def Moves (r : Reader) (next? : Option Reader) : Prop :=
  ∀ next, next? = some next → (∃ place, next = r.moveTo place) ∨ next = r.pass

theorem moves_none : r.Moves none := by
  intro next h
  cases h

theorem moves_moveTo (place : Place) : r.Moves (some (r.moveTo place)) := by
  rintro next ⟨⟩
  exact .inl ⟨place, rfl⟩

theorem moves_pass : r.Moves (some r.pass) := by
  rintro next ⟨⟩
  exact .inr rfl

theorem moves_ite {P : Prop} [Decidable P] {x y : Option Reader} (hx : r.Moves x)
    (hy : r.Moves y) : r.Moves (if P then x else y) := by
  split
  · exact hx
  · exact hy

theorem moves_stepText (brackets : Nat) (c : Char) : r.Moves (r.stepText brackets c) :=
  moves_ite (moves_moveTo _) (moves_ite (moves_ite moves_pass moves_none)
    (moves_ite (moves_moveTo _) (moves_ite moves_none (moves_moveTo _))))

theorem moves_stepMarkup (c : Char) : r.Moves (r.stepMarkup c) :=
  moves_ite (moves_moveTo _) (moves_ite (moves_moveTo _)
    (moves_ite (moves_moveTo _) (moves_ite (moves_moveTo _) moves_none)))

theorem moves_stepExclamation (read : List Char) (c : Char) :
    r.Moves (r.stepExclamation read c) :=
  moves_ite (moves_moveTo _) (moves_ite (moves_ite moves_none (moves_moveTo _))
    (moves_ite (moves_ite (moves_moveTo _) moves_none) (moves_ite (moves_moveTo _) moves_none)))

theorem moves_stepComment (dashes : Nat) (c : Char) : r.Moves (r.stepComment dashes c) :=
  moves_ite (moves_ite moves_pass moves_none) (moves_moveTo _)

theorem moves_stepCharacterData (brackets : Nat) (c : Char) :
    r.Moves (r.stepCharacterData brackets c) :=
  moves_ite (moves_moveTo _) (moves_moveTo _)

theorem moves_stepTarget (name : List Char) (c : Char) : r.Moves (r.stepTarget name c) :=
  moves_ite (moves_ite (moves_moveTo _) (moves_ite (moves_moveTo _) moves_none))
    (moves_ite (moves_ite (moves_moveTo _) moves_none) (moves_moveTo _))

theorem moves_stepInstruction (question : Bool) (c : Char) :
    r.Moves (r.stepInstruction question c) :=
  moves_ite moves_pass (moves_moveTo _)

theorem moves_stepAttributeName (tag : RawTag) (name : List Char) (ended : Bool) (c : Char) :
    r.Moves (r.stepAttributeName tag name ended c) :=
  moves_ite (moves_moveTo _) (moves_ite (moves_moveTo _) (moves_ite (moves_moveTo _) moves_none))

theorem moves_stepEquals (tag : RawTag) (name : List Char) (c : Char) :
    r.Moves (r.stepEquals tag name c) :=
  moves_ite (moves_moveTo _) (moves_ite (moves_moveTo _) moves_none)

theorem moves_stepValue (tag : RawTag) (name : List Char) (mark : Char) (text : List Char)
    (c : Char) : r.Moves (r.stepValue tag name mark text c) :=
  moves_ite (moves_moveTo _) (moves_ite moves_none (moves_ite (moves_moveTo _) (moves_moveTo _)))

theorem moves_stepValueReference (tag : RawTag) (name : List Char) (mark : Char)
    (text body : List Char) (c : Char) :
    r.Moves (r.stepValueReference tag name mark text body c) := by
  refine moves_ite ?_ (moves_moveTo _)
  intro next h
  obtain ⟨referent, -, rfl⟩ := Option.map_eq_some_iff.1 h
  exact .inl ⟨_, rfl⟩

/-! ### Steps that do more -/

/-- **What a character does**: the reader after it, with the events that it completes and the
text that is to be taken in. -/
inductive Effect (r : Reader) : Advance → Prop
  /-- The reader comes to another place. -/
  | move (place : Place) : Effect r (r.moveTo place).silently
  /-- White space has been passed, or markup that is no element. -/
  | pass : Effect r r.pass.silently
  /-- The head of the text has been passed, which may claim a character set. -/
  | head (charset : Charset) : Effect r { r.pass with charset := charset }.silently
  /-- An entity is declared, maybe, in the type of the text. -/
  | declare (place : Place) (entities : Entities) :
    Effect r { r with place := place, entities := entities }.silently
  /-- The type of the text has been declared. -/
  | typed : Effect r { r with place := .text 0, stage := .typed }.silently
  /-- The text of an entity is to be taken in. -/
  | takeIn (place : Place) (text : List Char) : Effect r ((r.moveTo place).including text)
  /-- An element begins and ends. -/
  | leaf (e : Element) :
    Effect r ({ r with place := .text 0, stage := .content }.reporting [.start e, .stop])
  /-- An element begins. -/
  | inner (e : Element) (scope : Scope) :
    Effect r ({ r with place := .text 0, stage := .content, scopes := scope :: r.scopes }.reporting
      [.start e])
  /-- The innermost element ends. -/
  | outer (scope : Scope) (scopes : List Scope) (h : r.scopes = scope :: scopes) :
    Effect r ({ r with place := .text 0, scopes := scopes }.reporting [.stop])

/-- An advance, if there is one, that is the effect of a character. -/
def Acts (r : Reader) (advance? : Option Advance) : Prop :=
  ∀ a, advance? = some a → r.Effect a

theorem acts_none : r.Acts none := by
  intro a h
  cases h

theorem acts_some {a : Advance} (h : r.Effect a) : r.Acts (some a) := by
  rintro a' ⟨⟩
  exact h

theorem acts_moveTo (place : Place) : r.Acts (some (r.moveTo place).silently) :=
  acts_some (.move place)

theorem acts_ite {P : Prop} [Decidable P] {x y : Option Advance} (hx : r.Acts x)
    (hy : r.Acts y) : r.Acts (if P then x else y) := by
  split
  · exact hx
  · exact hy

theorem acts_map {α : Type} {x? : Option α} {f : α → Advance} (h : ∀ x, r.Effect (f x)) :
    r.Acts (x?.map f) := by
  intro a ha
  obtain ⟨x, -, rfl⟩ := Option.map_eq_some_iff.1 ha
  exact h x

theorem Moves.acts {next? : Option Reader} (h : r.Moves next?) :
    r.Acts (next?.map silently) := by
  intro a ha
  obtain ⟨next, hnext, rfl⟩ := Option.map_eq_some_iff.1 ha
  obtain ⟨place, rfl⟩ | rfl := h next hnext
  · exact .move place
  · exact .pass

theorem acts_stepTextReference (body : List Char) (c : Char) :
    r.Acts (r.stepTextReference body c) :=
  acts_ite (acts_map fun _ => .takeIn _ _) (acts_moveTo _)

theorem acts_stepDoctype (place : Doctype.Place) (c : Char) : r.Acts (r.stepDoctype place c) := by
  unfold stepDoctype
  split
  · exact acts_none
  · exact acts_some (.declare _ _)
  · exact acts_some (.takeIn _ _)
  · exact acts_some .typed

/-- **The end of a tag**: an element begins, and ends at once if it holds nothing. -/
theorem acts_finishTag (tag : RawTag) (empty : Bool) : r.Acts (r.finishTag tag empty) := by
  unfold finishTag
  refine acts_ite (acts_map fun _ => .head _) ?_
  split
  · exact acts_none
  · exact acts_ite (acts_some (.leaf _)) (acts_some (.inner _ _))

/-- **A closing tag** ends the innermost element. -/
theorem acts_stepClosing (name : List Char) (ended : Bool) (c : Char) :
    r.Acts (r.stepClosing name ended c) := by
  unfold stepClosing
  -- only the last character of the tag does anything
  refine acts_ite ?_ (acts_ite (acts_ite acts_none (acts_moveTo _))
    (acts_ite acts_none (acts_moveTo _)))
  split
  · exact acts_none
  · next hscopes => exact acts_ite (acts_some (.outer _ _ hscopes)) acts_none

theorem acts_stepGap (tag : RawTag) (spaced : Bool) (c : Char) :
    r.Acts (r.stepGap tag spaced c) :=
  acts_ite (acts_moveTo _) (acts_ite (acts_moveTo _)
    (acts_ite (acts_finishTag tag false) (acts_ite (acts_moveTo _) acts_none)))

theorem acts_stepOpening (name : List Char) (c : Char) : r.Acts (r.stepOpening name c) :=
  acts_ite (acts_moveTo _) (acts_stepGap _ _ c)

/-- **A character** has one of the effects there are. -/
theorem effect_of_advance {c : Char} {a : Advance} (h : r.advance c = some a) : r.Effect a := by
  suffices hacts : r.Acts (r.advance c) from hacts a h
  unfold advance
  refine acts_ite acts_none ?_
  cases r.place with
  | text brackets => exact (moves_stepText brackets c).acts
  | textReference body => exact acts_stepTextReference body c
  | markup => exact (moves_stepMarkup c).acts
  | exclamation read => exact (moves_stepExclamation read c).acts
  | comment dashes => exact (moves_stepComment dashes c).acts
  | characterData brackets => exact (moves_stepCharacterData brackets c).acts
  | target name => exact (moves_stepTarget name c).acts
  | instruction question => exact (moves_stepInstruction question c).acts
  | instructionEnd => exact acts_ite (acts_some .pass) acts_none
  | doctype place => exact acts_stepDoctype place c
  | closing name ended => exact acts_stepClosing name ended c
  | opening name => exact acts_stepOpening name c
  | gap tag spaced => exact acts_stepGap tag spaced c
  | attributeName tag name ended => exact (moves_stepAttributeName tag name ended c).acts
  | equals tag name => exact (moves_stepEquals tag name c).acts
  | value tag name mark text => exact (moves_stepValue tag name mark text c).acts
  | valueReference tag name mark text body =>
    exact (moves_stepValueReference tag name mark text body c).acts
  | tagEnd tag => exact acts_ite (acts_finishTag tag true) acts_none

end Reader

/-! ### Texts

Whatever relates a reader to the reader after a character, and to the events on the way, does
so over whole texts if it does not mind how many characters there are. -/

/-- **A relation along texts**, between readers and the events on the way from one to the
other. -/
structure IsCourse (R : Reader → List Event → Reader → Prop) : Prop where
  /-- Nothing happens on no text. -/
  nil (r : Reader) : R r [] r
  /-- Two pieces of text are one. -/
  append {r next final : Reader} {es es' : List Event} :
    R r es next → R next es' final → R r (es ++ es') final
  /-- A character has an effect. -/
  advance {r : Reader} {a : Advance} : r.Effect a → R r a.events a.reader

/-- A reading that is related to where it began, if it was not refused. -/
def Reading.Along (R : Reader → List Event → Reader → Prop) (r : Reader) (reading : Reading) :
    Prop :=
  ∀ next, reading.rest = some next → R r reading.events next

namespace IsCourse

open Reading (Along)

variable {R : Reader → List Event → Reader → Prop} {r : Reader}

theorem refused : Along R r .refused := by
  intro next h
  cases h

variable (hR : IsCourse R)
include hR

theorem done : Along R r ⟨[], some r⟩ := by
  rintro next ⟨⟩
  exact hR.nil r

/-- A character, and then what is read after it. -/
theorem after {next : Reader} {events : List Event} {reading : Reading}
    (hfirst : R r events next) (h : Along R next reading) : Along R r (reading.after events) :=
  fun final hfinal => hR.append hfirst (h final hfinal)

/-- A reading, and then one from where it ended. -/
theorem andThen {first : Reading} {go : Reader → Reading} (hfirst : Along R r first)
    (hgo : ∀ next, Along R next (go next)) : Along R r (first.andThen go) := by
  obtain ⟨events, rest⟩ := first
  cases rest with
  | none => exact hfirst
  | some next => exact hR.after (hfirst next rfl) (hgo next)

/-- The characters that a character of the text stands for. -/
theorem overWith {takeIn : Reader → List Char → Reading}
    (htakeIn : ∀ r text, Along R r (takeIn r text)) (r : Reader) (text : List Char) :
    Along R r (Markup.overWith takeIn r text) := by
  induction text generalizing r with
  | nil => exact hR.done
  | cons c text ih =>
    rw [Markup.overWith]
    split
    · exact refused
    · next next events hadvance =>
      exact hR.after (hR.advance (Reader.effect_of_advance hadvance)) (ih next)
    · next next events included _ hadvance =>
      -- a text is taken in ahead of the other characters
      exact hR.after (hR.advance (Reader.effect_of_advance hadvance)) (htakeIn next _)

theorem overUpTo (inclusions : Nat) (r : Reader) (text : List Char) :
    Along R r (Markup.overUpTo inclusions r text) := by
  induction inclusions generalizing r text with
  | zero => exact hR.overWith (fun _ _ => refused) r text
  | succ inclusions ih => exact hR.overWith ih r text

theorem step (r : Reader) (c : Char) : Along R r (Markup.step r c) := by
  unfold Markup.step
  split
  · exact refused
  · exact hR.overUpTo maxInclusions r _

/-- **A text** is related to the reader before it as its characters are. -/
theorem run (r : Reader) (text : List Char) : Along R r (Markup.run r text) := by
  induction text generalizing r with
  | nil => exact hR.done
  | cons c text ih => exact hR.andThen (hR.step r c) fun next => ih next

/-- A text that could be read to its end is related to the outset; a byte order mark makes a
difference to the character set alone. -/
theorem read {text : String} {final : Reader} (h : (Markup.read text).rest = some final) :
    ∃ charset, R (.initial charset) (Markup.read text).events final := by
  unfold Markup.read at h ⊢
  split at h
  · exact ⟨_, hR.run _ _ _ h⟩
  · exact ⟨_, hR.run _ _ _ h⟩

end IsCourse

end Markup

end TensorContraction
