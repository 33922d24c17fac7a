import TensorContraction.Proofs.Json.Library

/-!
# The parts of a structure

A structure is read from the values of its declared fields, which its JSON form holds in one
of two ways (`TensorContraction.Json.HasParts`): an array has them in the order of their
declaration, and an object has them under their names, in any order and among any number of
fields that are not declared. By the rules of a library, both ways lead to the same values
(`TensorContraction.Json.HasParts.declared?`).

What has no parts is *faulty* (`TensorContraction.Json.IsFaulty`) if it misses that by the
number of the parts: an array is too short or too long, or an object lacks a declared field or
has one of them twice. Whatever else it holds, no values are read from it
(`TensorContraction.Json.IsFaulty.declared?`).
-/

namespace TensorContraction

namespace Json

/-! ### Parts -/

/-- **A value holds the parts of a structure**, which are listed in the order in which the
fields are declared. -/
inductive HasParts (names : List String) : List Json → Json → Prop
  /-- An array of the parts. -/
  | array {items : List Json} (hlength : items.length = names.length) :
    HasParts names items (.array items)
  /-- An object that has the declared fields and, anywhere among them, `others`: fields with
  names that are not declared, and with any values. A name is a string in any spelling; letters
  that spell none, such as half of a character alone, are not the name of a field. -/
  | object {fields declared others : List (List Letter × Json)}
    (hdeclared : List.Forall₂ (fun name field => IsSpeltBy name field.1) names declared)
    (hothers : ∀ field ∈ others, ∃ name, name ∉ names ∧ IsSpeltBy name field.1)
    (hfields : fields.Perm (declared ++ others)) :
    HasParts names (declared.map Prod.snd) (.object fields)

/-- The object with just the declared fields, in the order of their declaration, holds their
values. -/
theorem hasParts_ofFields {names : List String} {values : List Json}
    (hlength : values.length = names.length) :
    HasParts names values (ofFields (names.zip values)) := by
  have hfst : (names.zip values).map Prod.fst = names :=
    List.map_fst_zip (Nat.le_of_eq hlength.symm)
  have hsnd : (names.zip values).map Prod.snd = values := List.map_snd_zip (Nat.le_of_eq hlength)
  have hdeclared : List.Forall₂ (fun name field => IsSpeltBy name field.1)
      ((names.zip values).map Prod.fst)
      ((names.zip values).map fun field => (letters field.1, field.2)) := by
    rw [List.forall₂_map_left_iff, List.forall₂_map_right_iff, List.forall₂_same]
    exact fun field _ => isSpeltBy_letters field.1
  rw [hfst] at hdeclared
  have h := HasParts.object hdeclared (fun _ hfield => absurd hfield List.not_mem_nil)
    (List.Perm.of_eq (List.append_nil _).symm)
  have hvalues : ((names.zip values).map fun field => (letters field.1, field.2)).map Prod.snd =
      values := by
    rw [List.map_map]
    exact hsnd
  rw [hvalues] at h
  exact h

section

variable {lib : Library} (hlib : lib.IsLawful) {names : List String}
include hlib

/-- Fields that are not declared are passed over. -/
theorem declared?_append {others : List (List Letter × Json)}
    (hothers : ∀ field ∈ others, ∃ name, name ∉ names ∧ IsSpeltBy name field.1)
    (fields : List (List Letter × Json)) :
    lib.declared? names (.object (others ++ fields)) = lib.declared? names (.object fields) := by
  induction others with
  | nil => rfl
  | cons field others ih =>
    obtain ⟨⟨name, hname, hspelt⟩, hothers⟩ := List.forall_mem_cons.1 hothers
    rw [List.cons_append, hlib.undeclared hname hspelt, ih hothers]

/-- **The parts of a structure are read**, in whichever way they are held. -/
theorem HasParts.declared? (hnames : names.Nodup) {values : List Json} {value : Json}
    (h : HasParts names values value) : lib.declared? names value = some values := by
  cases h with
  | array hlength => exact hlib.array hlength
  | object hdeclared hothers hfields =>
    rw [hlib.order (hfields.trans List.perm_append_comm), declared?_append hlib hothers]
    exact hlib.object hnames hdeclared

end

/-! ### Faults -/

/-- **A value with too few or too many parts**: an array that is not as long as the
declaration, or an object in which a declared field does not stand exactly once. -/
inductive IsFaulty (names : List String) : Json → Prop
  /-- The number of items is not that of the fields. -/
  | length {items : List Json} (hlength : items.length ≠ names.length) :
    IsFaulty names (.array items)
  /-- A declared field is missing. -/
  | missing {fields : List (List Letter × Json)} {name : String} (hname : name ∈ names)
    (hfields : ∀ field ∈ fields, ¬IsSpeltBy name field.1) : IsFaulty names (.object fields)
  /-- A declared field is there twice. -/
  | repeated {fields : List (List Letter × Json)} {name : String}
    {first second : List Letter × Json} (hname : name ∈ names)
    (hfirst : IsSpeltBy name first.1) (hsecond : IsSpeltBy name second.1)
    (hfields : [first, second].Sublist fields) : IsFaulty names (.object fields)

/-- **Nothing is read from a faulty value.** -/
theorem IsFaulty.declared? {lib : Library} (hlib : lib.IsLawful) {names : List String}
    {value : Json} (h : IsFaulty names value) : lib.declared? names value = none := by
  cases h with
  | length hlength => exact hlib.length hlength
  | missing hname hfields => exact hlib.missing hname hfields
  | repeated hname hfirst hsecond hfields =>
    obtain ⟨rest, hrest⟩ := hfields.exists_perm_append
    rw [hlib.order hrest]
    exact hlib.repeated hname hfirst hsecond rest

end Json

end TensorContraction
