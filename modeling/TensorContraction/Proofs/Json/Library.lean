import Mathlib.Data.List.Forall2
import TensorContraction.Proofs.Json.Passage
import TensorContraction.Proofs.Lookup
import TensorContraction.Proofs.Outcome

/-!
# The rules of a library

What is read of a text depends on a library (`TensorContraction.Json.Library`). This file has
the rules that a library has to keep (`TensorContraction.Json.Library.IsLawful`), each about
one kind of value: a text is read as the value that it spells, strings and numbers are what
they stand for, and the fields of an object are found by their names, in any order and past
fields that are not declared, as long as each of the declared ones stands there once.

None of the rules is about more than one object or array. The library of
`TensorContraction.Json.library` keeps all of them
(`TensorContraction.Json.isLawful_library`).
-/

namespace TensorContraction

namespace Json

/-! ### Names -/

/-- **A string is spelt by letters.** A character beyond the first plane has two spellings, as
itself and by its halves. -/
def IsSpeltBy (s : String) (text : List Letter) : Prop :=
  characters? text = some s.toList

theorem isSpeltBy_letters (s : String) : IsSpeltBy s (letters s) :=
  characters?_letters s

/-! ### Rules -/

/-- **A library that keeps the rules.** -/
structure Library.IsLawful (lib : Library) : Prop where
  /-- A text is read as the value that it spells by the grammar, white space around it or
  not. -/
  read {t : List Char} {value : Json} (h : SpellsItem t value) :
    lib.read? (String.ofList t) = some value
  /-- A string is what its letters spell. -/
  string {s : String} {text : List Letter} (h : IsSpeltBy s text) :
    lib.string? (.string text) = some s
  /-- A number in plain digits is a natural number, if it is in range. -/
  natural {bound n : Nat} (h : n < bound) : lib.natural? bound (.natural n) = some n
  /-- A truth value is itself. -/
  boolean (b : Bool) : lib.boolean? (.boolean b) = some b
  /-- The items of an array are all of its items. -/
  items (items : List Json) : lib.items? (.array items) = some items
  /-- A case is given by its name. -/
  case {s : String} {text : List Letter} (h : IsSpeltBy s text) :
    lib.case? (.string text) = some s
  /-- An array may stand for an object, and has the values of the fields. -/
  array {names : List String} {items : List Json} (h : items.length = names.length) :
    lib.declared? names (.array items) = some items
  /-- An array of another length stands for no object. -/
  length {names : List String} {items : List Json} (h : items.length ≠ names.length) :
    lib.declared? names (.array items) = none
  /-- An object with just the declared fields has their values. -/
  object {names : List String} {fields : List (List Letter × Json)} (hnames : names.Nodup)
    (h : List.Forall₂ (fun name field => IsSpeltBy name field.1) names fields) :
    lib.declared? names (.object fields) = some (fields.map Prod.snd)
  /-- The order of fields does not matter. -/
  order {names : List String} {fields fields' : List (List Letter × Json)}
    (h : fields.Perm fields') :
    lib.declared? names (.object fields) = lib.declared? names (.object fields')
  /-- A field that is not declared is passed over, whatever its value. -/
  undeclared {names : List String} {name : String} {field : List Letter × Json}
    (hname : name ∉ names) (h : IsSpeltBy name field.1) (fields : List (List Letter × Json)) :
    lib.declared? names (.object (field :: fields)) = lib.declared? names (.object fields)
  /-- A declared field must be there. -/
  missing {names : List String} {name : String} {fields : List (List Letter × Json)}
    (hname : name ∈ names) (h : ∀ field ∈ fields, ¬IsSpeltBy name field.1) :
    lib.declared? names (.object fields) = none
  /-- A declared field must not be there twice. -/
  repeated {names : List String} {name : String} {first second : List Letter × Json}
    (hname : name ∈ names) (hfirst : IsSpeltBy name first.1)
    (hsecond : IsSpeltBy name second.1) (fields : List (List Letter × Json)) :
    lib.declared? names (.object (first :: second :: fields)) = none

/-! ### Names of fields -/

/-- The string that letters spell, and the empty one if they spell none. -/
def spelt (text : List Letter) : String :=
  String.ofList ((characters? text).getD [])

theorem IsSpeltBy.spelt_eq {s : String} {text : List Letter} (h : IsSpeltBy s text) :
    spelt text = s := by
  rw [spelt, h, Option.getD_some, String.ofList_toList]

/-- A field with its name spelt out. -/
def named (field : List Letter × Json) : String × Json :=
  (spelt field.1, field.2)

/-- The names of fields are spelt out if all of them are strings. -/
theorem namedFields?_eq_some {fields : List (List Letter × Json)}
    (h : ∀ field ∈ fields, ∃ name, IsSpeltBy name field.1) :
    namedFields? fields = some (fields.map named) := by
  refine mapM_eq_some_map fun field hfield => ?_
  obtain ⟨name, hname⟩ := h field hfield
  obtain ⟨text, value⟩ := field
  change (characters? text).map (fun s => (String.ofList s, value)) = some (spelt text, value)
  rw [hname.spelt_eq, hname, Option.map_some, String.ofList_toList]

/-- The names of fields are not spelt out if one of them is no string. -/
theorem namedFields?_eq_none {fields : List (List Letter × Json)}
    (h : ¬∀ field ∈ fields, ∃ name, IsSpeltBy name field.1) : namedFields? fields = none := by
  push Not at h
  obtain ⟨field, hfield, hname⟩ := h
  refine mapM_eq_none hfield ?_
  cases htext : characters? field.1 with
  | none => simp [htext]
  | some text =>
    exact absurd (htext.trans (by rw [String.toList_ofList])) (hname (String.ofList text))

/-! ### Fields by name -/

/-- A name has no value unless there is one field that has it. -/
theorem uniqueField?_eq_none {entries : List (String × Json)} {name : String}
    (h : (entries.filter fun entry => entry.1 == name).length ≠ 1) :
    uniqueField? entries name = none := by
  unfold uniqueField?
  split
  case h_1 heq => exact absurd (congrArg List.length heq) h
  case h_2 => rfl

/-- The value under a name does not depend on the order of fields. -/
theorem uniqueField?_perm {entries entries' : List (String × Json)}
    (h : entries.Perm entries') (name : String) :
    uniqueField? entries name = uniqueField? entries' name := by
  have hfilter := h.filter fun entry => entry.1 == name
  by_cases hlength : (entries.filter fun entry => entry.1 == name).length = 1
  · obtain ⟨entry, hentry⟩ := List.length_eq_one_iff.1 hlength
    rw [hentry, List.singleton_perm] at hfilter
    rw [uniqueField?, uniqueField?, hentry, hfilter]
  · rw [uniqueField?_eq_none hlength, uniqueField?_eq_none (hfilter.length_eq ▸ hlength)]

/-- A field under another name does not matter. -/
theorem uniqueField?_cons_of_ne {entry : String × Json} {name : String} (h : entry.1 ≠ name)
    (entries : List (String × Json)) :
    uniqueField? (entry :: entries) name = uniqueField? entries name := by
  rw [uniqueField?, List.filter_cons_of_neg (by simpa using h), ← uniqueField?]

/-- Each of several fields with different names is found. -/
theorem uniqueField?_of_mem {entries : List (String × Json)}
    (hnodup : (entries.map Prod.fst).Nodup) {entry : String × Json} (h : entry ∈ entries) :
    uniqueField? entries entry.1 = some entry.2 := by
  rw [uniqueField?, filter_key_eq_singleton Prod.fst hnodup h]

/-! ### The rules of this library -/

section

variable {names : List String} {name : String} {fields fields' : List (List Letter × Json)}

theorem declared?_object (names : List String)
    (h : ∀ field ∈ fields, ∃ name, IsSpeltBy name field.1) :
    (object fields).declared? names = names.mapM (uniqueField? (fields.map named)) := by
  rw [declared?, namedFields?_eq_some h]
  rfl

/-- Nothing is read from an object in which a name is no string. -/
theorem declared?_object_eq_none (names : List String)
    (h : ¬∀ field ∈ fields, ∃ name, IsSpeltBy name field.1) :
    (object fields).declared? names = none := by
  rw [declared?, namedFields?_eq_none h]
  rfl

/-- Nothing is read from an object in which a declared field does not stand exactly once. -/
theorem declared?_eq_none (hname : name ∈ names)
    (h : (∀ field ∈ fields, ∃ name, IsSpeltBy name field.1) →
      (fields.filter fun field => spelt field.1 == name).length ≠ 1) :
    (object fields).declared? names = none := by
  by_cases hspelt : ∀ field ∈ fields, ∃ name, IsSpeltBy name field.1
  · rw [declared?_object names hspelt]
    refine mapM_eq_none hname (uniqueField?_eq_none ?_)
    rw [List.filter_map, List.length_map]
    exact h hspelt
  · exact declared?_object_eq_none names hspelt

theorem declared?_declared (hnames : names.Nodup)
    (h : List.Forall₂ (fun name field => IsSpeltBy name field.1) names fields) :
    (object fields).declared? names = some (fields.map Prod.snd) := by
  have hspelt : ∀ field ∈ fields, ∃ name, IsSpeltBy name field.1 := by
    clear hnames
    induction h with
    | nil => exact fun _ hfield => absurd hfield List.not_mem_nil
    | cons hname _ ih => exact List.forall_mem_cons.2 ⟨⟨_, hname⟩, ih⟩
  have hfst : (fields.map named).map Prod.fst = names := by
    clear hnames hspelt
    induction h with
    | nil => rfl
    | cons hname _ ih => rw [List.map_cons, List.map_cons, ih, named, hname.spelt_eq]
  have hunique : ∀ entry ∈ fields.map named,
      (uniqueField? (fields.map named) ∘ Prod.fst) entry = some entry.2 := fun entry hentry =>
    uniqueField?_of_mem (hfst.symm ▸ hnames) hentry
  have hmapM := mapM_eq_some_map hunique
  rw [← List.mapM_map, hfst, List.map_map] at hmapM
  rw [declared?_object names hspelt]
  exact hmapM

theorem declared?_perm (names : List String) (h : fields.Perm fields') :
    (object fields).declared? names = (object fields').declared? names := by
  by_cases hspelt : ∀ field ∈ fields, ∃ name, IsSpeltBy name field.1
  · have hspelt' : ∀ field ∈ fields', ∃ name, IsSpeltBy name field.1 := fun field hfield =>
      hspelt field (h.mem_iff.2 hfield)
    rw [declared?_object names hspelt, declared?_object names hspelt']
    exact mapM_congr fun name _ => uniqueField?_perm (h.map named) name
  · have hspelt' : ¬∀ field ∈ fields', ∃ name, IsSpeltBy name field.1 := fun hall =>
      hspelt fun field hfield => hall field (h.mem_iff.1 hfield)
    rw [declared?_object_eq_none names hspelt, declared?_object_eq_none names hspelt']

theorem declared?_cons {field : List Letter × Json} (hname : name ∉ names)
    (h : IsSpeltBy name field.1) (fields : List (List Letter × Json)) :
    (object (field :: fields)).declared? names = (object fields).declared? names := by
  have hcons : (∀ f ∈ field :: fields, ∃ name, IsSpeltBy name f.1) ↔
      ∀ f ∈ fields, ∃ name, IsSpeltBy name f.1 := by
    rw [List.forall_mem_cons]
    exact and_iff_right ⟨name, h⟩
  by_cases hspelt : ∀ f ∈ fields, ∃ name, IsSpeltBy name f.1
  · rw [declared?_object names (hcons.2 hspelt), declared?_object names hspelt, List.map_cons]
    refine mapM_congr fun other hother => uniqueField?_cons_of_ne ?_ _
    rw [named, h.spelt_eq]
    rintro rfl
    exact hname hother
  · rw [declared?_object_eq_none names hspelt,
      declared?_object_eq_none names fun hall => hspelt (hcons.1 hall)]

theorem declared?_missing (hname : name ∈ names)
    (h : ∀ field ∈ fields, ¬IsSpeltBy name field.1) : (object fields).declared? names = none := by
  refine declared?_eq_none hname fun hspelt => ?_
  have hfilter : (fields.filter fun field => spelt field.1 == name) = [] := by
    refine List.filter_eq_nil_iff.2 fun field hfield heq => ?_
    obtain ⟨own, hown⟩ := hspelt field hfield
    have hsame : own = name := hown.spelt_eq.symm.trans (beq_iff_eq.1 heq)
    exact h field hfield (hsame ▸ hown)
  rw [hfilter]
  exact Nat.zero_ne_one

theorem declared?_repeated {first second : List Letter × Json} (hname : name ∈ names)
    (hfirst : IsSpeltBy name first.1) (hsecond : IsSpeltBy name second.1)
    (fields : List (List Letter × Json)) :
    (object (first :: second :: fields)).declared? names = none := by
  refine declared?_eq_none hname fun _ => ?_
  rw [List.filter_cons_of_pos (by simp [hfirst.spelt_eq]),
    List.filter_cons_of_pos (by simp [hsecond.spelt_eq]), List.length_cons, List.length_cons]
  omega

end

theorem library_read? (text : String) : library.read? text = read? text :=
  rfl

/-- **The library keeps the rules.** -/
theorem isLawful_library : library.IsLawful where
  read := read?_of_spellsItem
  string h := by
    change (characters? _).map String.ofList = _
    rw [h, Option.map_some, String.ofList_toList]
  natural h := if_pos h
  boolean _ := rfl
  items _ := rfl
  case h := by
    change (characters? _).map String.ofList = _
    rw [h, Option.map_some, String.ofList_toList]
  array h := if_pos h
  length h := if_neg h
  object := declared?_declared
  order := declared?_perm _
  undeclared := declared?_cons
  missing := declared?_missing
  repeated := declared?_repeated

end Json

end TensorContraction
