import TensorContraction.Proofs.Encoding.EntryName
import TensorContraction.Proofs.Encoding.Reading
import TensorContraction.Proofs.Lookup
import TensorContraction.Proofs.Markup.PlainElement
import TensorContraction.Proofs.Numeral

/-!
# Reading back what is written

An element of an encoded problem holds its values under names that are all different,
so that every value is found under its name
(`TensorContraction.Encoding.value?_of_mem`). From there each of the readers of
`TensorContraction.Encoding.Attributes` gives back what the writer of
`TensorContraction.Encoding.Written` put there: numbers within their range, tags of
types, and lists of any length that a word can count
(`TensorContraction.Encoding.readList_eq`).

The last section puts this together for the parts of a problem.
-/

namespace TensorContraction

namespace Encoding

open Markup

/-! ### Numbers -/

/-- **A number in range is read back.** -/
theorem read?_text {bound n : Nat} (h : n < bound) :
    Decimal.read? bound (Decimal.text n) = some n :=
  Decimal.read?_eq_some_iff.2 ⟨Decimal.denotes_text n, h⟩

theorem readWord?_text (w : UInt64) : Decimal.readWord? (Decimal.text w.toNat) = some w := by
  rw [Decimal.readWord?, read?_text w.toNat_lt_size]
  simp

theorem readHalfWord?_text (w : UInt32) :
    Decimal.readHalfWord? (Decimal.text w.toNat) = some w := by
  rw [Decimal.readHalfWord?, read?_text w.toNat_lt_size]
  simp

theorem readTag?_dataType (ty : DataType) :
    readTag? DataType.ofTag? (Decimal.text ty.tag) = some ty := by
  have hsmall : ty.tag < UInt8.size := by cases ty <;> decide
  rw [readTag?, read?_text hsmall]
  exact DataType.ofTag?_tag ty

theorem readTag?_operationType (kind : OperationType) :
    readTag? OperationType.ofTag? (Decimal.text kind.tag) = some kind := by
  have hsmall : kind.tag < UInt8.size := by cases kind <;> decide
  rw [readTag?, read?_text hsmall]
  exact OperationType.ofTag?_tag kind

/-! ### Values under their names -/

section

variable {e : Element} (hnodup : (e.attributes.map Prod.fst).Nodup)

include hnodup in
/-- **Every value is found under its name**, if the names are different. -/
theorem value?_of_mem {name value : String} (hmem : (name, value) ∈ e.attributes) :
    e.value? name = some value := by
  refine lookup_of_mem ?_ (List.mem_reverse.2 hmem)
  rw [List.map_reverse]
  exact List.nodup_reverse.2 hnodup

include hnodup in
theorem valueOf_eq {name value : String} (hmem : (name, value) ∈ e.attributes) :
    valueOf e name = .ok value :=
  valueOf_eq_ok_iff.2 (value?_of_mem hnodup hmem)

include hnodup in
/-- A value that can be read is read. -/
theorem parsed_eq {α : Type} {read? : String → Option α} {name value : String} {x : α}
    (hmem : (name, value) ∈ e.attributes) (hread : read? value = some x) :
    parsed read? e name = .ok x := by
  rw [parsed_eq_ok_iff, value?_of_mem hnodup hmem]
  exact hread

include hnodup in
theorem word_eq {name : String} {w : UInt64} (hmem : numeric name w.toNat ∈ e.attributes) :
    word e name = .ok w :=
  parsed_eq hnodup hmem (readWord?_text w)

include hnodup in
theorem halfWord_eq {name : String} {w : UInt32} (hmem : numeric name w.toNat ∈ e.attributes) :
    halfWord e name = .ok w :=
  parsed_eq hnodup hmem (readHalfWord?_text w)

include hnodup in
theorem dataType_eq {name : String} {ty : DataType} (hmem : numeric name ty.tag ∈ e.attributes) :
    dataType e name = .ok ty :=
  parsed_eq hnodup hmem (readTag?_dataType ty)

include hnodup in
theorem operationType_eq {name : String} {kind : OperationType}
    (hmem : numeric name kind.tag ∈ e.attributes) : operationType e name = .ok kind :=
  parsed_eq hnodup hmem (readTag?_operationType kind)

/-! ### Lists -/

include hnodup in
/-- **A list is read back** if its length is written and is a word, there are that many
entries under each stem, and every entry is read back. -/
theorem readList_eq {α : Type} {stems : List String} {entry : Nat → Except DecodeError α}
    {list : List α} (hlength : list.length < UInt64.size)
    (hdeclared : numeric "n" list.length ∈ e.attributes)
    (hcount : ∀ stem ∈ stems, entryCount e stem = list.length)
    (hentry : ∀ i (h : i < list.length), entry i = .ok list[i]) :
    readList e stems entry = .ok list := by
  have hword : word e "n" = .ok (UInt64.ofNat list.length) := by
    refine word_eq hnodup ?_
    rwa [UInt64.toNat_ofNat_of_lt' hlength]
  have hdeclaredLength : declaredLength e stems = .ok list.length :=
    declaredLength_eq_ok_iff.2
      ⟨_, parsed_eq_ok_iff.1 hword, UInt64.toNat_ofNat_of_lt' hlength, hcount⟩
  refine readList_eq_ok_iff.2 ⟨hdeclaredLength, fun k x hx => ?_⟩
  obtain ⟨hk, rfl⟩ := List.getElem?_eq_some_iff.1 hx
  exact hentry k hk

end

/-! ### Written lists

The attributes of a list are the length and the entries. An entry is written under the
stems of the list in turn, and all that is asked of it here is that its values are made
of the characters of words. -/

/-- **How entries are written**: under each stem one attribute, in the order of the
stems, with a value made of the characters of words. -/
structure WritesEntries {α : Type} (stems : List String)
    (entry : Nat → α → List (String × String)) : Prop where
  /-- Stems are words. -/
  words : ∀ stem ∈ stems, isWord stem.toList = true
  /-- Stems have no digits. -/
  noDigits : ∀ stem ∈ stems, isStem stem = true
  /-- Stems are different. -/
  nodup : stems.Nodup
  /-- An entry has the names that its position gives it. -/
  names : ∀ k x, (entry k x).map Prod.fst = stems.map fun stem => entryName stem k
  /-- The values of an entry are made of the characters of words. -/
  values : ∀ k x, ∀ attr ∈ entry k x, ∀ c ∈ attr.2.toList, isWordCharacter c = true

theorem isWord_entryName {stem : String} (h : isWord stem.toList = true) (k : Nat) :
    isWord (entryName stem k).toList = true := by
  rw [toList_entryName, ← Decimal.toList_text]
  exact isWord_append h fun c hc => isWordCharacter_of_mem_text hc

namespace WritesEntries

variable {α : Type} {stems : List String} {entry : Nat → α → List (String × String)}
  (h : WritesEntries stems entry)
include h

/-- The names in a written list. -/
theorem names_listAttributes (list : List α) :
    (listAttributes entry list).map Prod.fst = "n" :: entryNames stems list.length := by
  have hmap : (list.mapIdx entry).map (List.map Prod.fst) =
      (List.range list.length).map fun k => stems.map fun stem => entryName stem k := by
    refine List.ext_getElem (by simp) fun k hk hk' => ?_
    simp [h.names]
  rw [listAttributes, List.map_cons, List.map_flatten, hmap]
  rfl

/-- No name occurs twice in a written list. -/
theorem nodup_listAttributes (list : List α) :
    ((listAttributes entry list).map Prod.fst).Nodup := by
  rw [h.names_listAttributes, List.nodup_cons]
  exact ⟨notMem_entryNames h.noDigits (by decide) _, nodup_entryNames h.noDigits h.nodup _⟩

/-- The names in a written list are words. -/
theorem isWord_listAttributes (list : List α) :
    ∀ attr ∈ listAttributes entry list, isWord attr.1.toList = true := by
  intro attr hattr
  have hname := List.mem_map_of_mem (f := Prod.fst) hattr
  rw [h.names_listAttributes] at hname
  rcases List.mem_cons.1 hname with hn | hname
  · rw [hn]
    decide
  · obtain ⟨k, -, hk⟩ := List.mem_flatMap.1 hname
    obtain ⟨stem, hstem, heq⟩ := List.mem_map.1 hk
    rw [← heq]
    exact isWord_entryName (h.words stem hstem) k

/-- The values in a written list are made of the characters of words. -/
theorem values_listAttributes (list : List α) :
    ∀ attr ∈ listAttributes entry list, ∀ c ∈ attr.2.toList, isWordCharacter c = true := by
  intro attr hattr
  rcases List.mem_cons.1 hattr with rfl | hattr
  · exact fun c hc => isWordCharacter_of_mem_text hc
  · obtain ⟨entries, hentries, hmem⟩ := List.mem_flatten.1 hattr
    obtain ⟨k, hk, rfl⟩ := List.mem_mapIdx.1 hentries
    exact h.values k list[k] attr hmem

omit h in
/-- Every entry is among the attributes of its list. -/
theorem mem_listAttributes {list : List α} {k : Nat} (hk : k < list.length)
    {attr : String × String} (hattr : attr ∈ entry k list[k]) :
    attr ∈ listAttributes entry list := by
  refine List.mem_cons_of_mem _ (List.mem_flatten.2 ⟨entry k list[k], ?_, hattr⟩)
  exact List.mem_mapIdx.2 ⟨k, hk, rfl⟩

end WritesEntries

/-- **An element that holds a list**: some attributes without digits in their names, and
then the list. -/
structure HoldsList {α : Type} (e : Element) (own : List (String × String)) (stems : List String)
    (entry : Nat → α → List (String × String)) (list : List α) : Prop where
  /-- The attributes are those of the element itself and those of the list. -/
  attributes : e.attributes = own ++ listAttributes entry list
  /-- The entries are written as entries are. -/
  writes : WritesEntries stems entry
  /-- The tag is a word. -/
  tag : isWord e.tag.toList = true
  /-- The element's own names are words without digits. -/
  ownNames : ∀ attr ∈ own, isWord attr.1.toList = true ∧ isStem attr.1 = true
  /-- The element's own values are made of the characters of words. -/
  ownValues : ∀ attr ∈ own, ∀ c ∈ attr.2.toList, isWordCharacter c = true
  /-- The element's own names are different, and none is that of the length or declares
  labels. -/
  ownNodup : ("n" :: declaringLabel :: own.map Prod.fst).Nodup

namespace HoldsList

variable {α : Type} {e : Element} {own : List (String × String)} {stems : List String}
  {entry : Nat → α → List (String × String)} {list : List α} (h : HoldsList e own stems entry list)
include h

theorem names : e.attributes.map Prod.fst =
    own.map Prod.fst ++ "n" :: entryNames stems list.length := by
  rw [h.attributes, List.map_append, h.writes.names_listAttributes]

/-- **An element that holds a list is plain.** -/
theorem isPlain : e.IsPlain where
  tag := h.tag
  names := by
    intro attr hattr
    rw [h.attributes] at hattr
    rcases List.mem_append.1 hattr with hown | hlist
    · exact (h.ownNames attr hown).1
    · exact h.writes.isWord_listAttributes list attr hlist
  values := by
    intro attr hattr
    rw [h.attributes] at hattr
    rcases List.mem_append.1 hattr with hown | hlist
    · exact h.ownValues attr hown
    · exact h.writes.values_listAttributes list attr hlist
  nodup := by
    obtain ⟨hn, hrest⟩ := List.nodup_cons.1 h.ownNodup
    rw [h.attributes, List.map_append, List.nodup_append]
    refine ⟨(List.nodup_cons.1 hrest).2, h.writes.nodup_listAttributes list, ?_⟩
    rintro name hown _ hlist rfl
    rw [h.writes.names_listAttributes] at hlist
    rcases List.mem_cons.1 hlist with rfl | hlist
    · exact hn (List.mem_cons_of_mem _ hown)
    · obtain ⟨attr, hattr, rfl⟩ := List.mem_map.1 hown
      exact notMem_entryNames h.writes.noDigits (h.ownNames attr hattr).2 _ hlist
  declares := by
    obtain ⟨hn, hrest⟩ := List.nodup_cons.1 h.ownNodup
    rw [h.names, List.mem_append, List.mem_cons, not_or, not_or]
    exact ⟨(List.nodup_cons.1 hrest).1, by decide,
      notMem_entryNames h.writes.noDigits (by decide) _⟩

/-- The entries under a stem are as many as the list is long. -/
theorem entryCount_eq {stem : String} (hstem : stem ∈ stems) :
    entryCount e stem = list.length := by
  have hown : (own.map Prod.fst).countP (isEntryName stem) = 0 := by
    rw [List.countP_eq_zero]
    intro name hname
    obtain ⟨attr, hattr, rfl⟩ := List.mem_map.1 hname
    simp [isEntryName_of_isStem (h.ownNames attr hattr).2]
  rw [entryCount, Element.names, eraseDups_of_nodup h.isPlain.nodup, h.names, List.countP_append,
    List.countP_cons, hown, countP_entryNames h.writes.noDigits h.writes.nodup hstem,
    isEntryName_of_isStem (show isStem "n" = true by decide)]
  simp

/-- **A written list is read back** if each of its entries is. -/
theorem readList_eq (hlength : list.length < UInt64.size) {read : Nat → Except DecodeError α}
    (hread : ∀ k (hk : k < list.length), (∀ attr ∈ entry k list[k], attr ∈ e.attributes) →
      read k = .ok list[k]) :
    readList e stems read = .ok list := by
  refine Encoding.readList_eq h.isPlain.nodup hlength ?_ (fun stem hstem => h.entryCount_eq hstem)
    fun k hk => hread k hk fun attr hattr => ?_
  · rw [h.attributes]
    exact List.mem_append_right own List.mem_cons_self
  · rw [h.attributes]
    exact List.mem_append_right own (WritesEntries.mem_listAttributes hk hattr)

end HoldsList

end Encoding

end TensorContraction
