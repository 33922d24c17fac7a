import TensorContraction.Proofs.Encoding.EntrySet
import TensorContraction.Proofs.Encoding.Reading

/-!
# Lists are read exactly

Tensors, assignments and profiles hold lists of entries, and an entry has one attribute for
each of its fields, with the position in its name. The three readers differ in the fields and in
what they make of an entry. What they have in common is
`TensorContraction.Encoding.IsExact`: they succeed if and only if the entries of the element are
those of a list of the declared length and all values can be read; and if they fail, this
says how.

## Failures

A reader of an entry fails with the first of its fields that is not as it should be, and this
is how everything that is built from such readers fails: with the first fault of some list.
`TensorContraction.Encoding.FailsBy` says so of a computation and a fault, which is absent
if the computation succeeds. Faults of computations in a row are combined by `Option.or`.

## Attempts

A declared length may be any word, and no reader must walk that far for nothing. The walk that
counts its attempts is `TensorContraction.Encoding.readListCounted`; its list is the one of
`TensorContraction.Encoding.readList`. What it counts is no matter of its own: an entry is
attempted if and only if the counts are right, it is below the declared length, and every entry
before it could be read (`TensorContraction.Encoding.lt_readListCounted_snd_iff`). So no more
entries are attempted than there are attributes.
-/

namespace TensorContraction

namespace Encoding

open Markup

/-! ### How a computation fails -/

/-- **A computation fails by a fault**: with this fault if there is one, and not at all
otherwise. -/
def FailsBy {α : Type} (x : Except DecodeError α) (fault? : Option DecodeError) : Prop :=
  ∀ error, x = .error error ↔ fault? = some error

namespace FailsBy

variable {α β : Type} {x : Except DecodeError α} {fault? fault?' : Option DecodeError}

theorem ok (y : α) : FailsBy (.ok y) none :=
  fun _ => iff_of_false nofun nofun

theorem error (e : DecodeError) : FailsBy (.error e : Except DecodeError α) (some e) :=
  fun _ => ⟨fun h => congrArg some (Except.error.inj h), fun h => congrArg _ (Option.some.inj h)⟩

/-- **Two computations in a row** fail by the first fault. -/
theorem bind {f : α → Except DecodeError β} (hx : FailsBy x fault?)
    (hf : ∀ y, x = .ok y → FailsBy (f y) fault?') : FailsBy (x >>= f) (fault?.or fault?') := by
  cases x with
  | error e =>
    rw [(hx e).1 rfl]
    exact error e
  | ok y =>
    have hnone : fault? = none := by
      cases h : fault? with
      | none => rfl
      | some e => exact absurd ((hx e).2 h) nofun
    rw [hnone]
    exact hf y rfl

/-- A computation succeeds if and only if there is no fault. -/
theorem exists_ok_iff (h : FailsBy x fault?) : (∃ y, x = .ok y) ↔ fault? = none := by
  cases hx : x with
  | error e =>
    rw [(h e).1 hx]
    exact iff_of_false nofun nofun
  | ok y =>
    refine iff_of_true ⟨y, rfl⟩ ?_
    cases hfault : fault? with
    | none => rfl
    | some e => exact absurd (hx.symm.trans ((h e).2 hfault)) nofun

end FailsBy

/-! ### Fields -/

/-- **A field of the entries of a list**: the stem of its name, and which values can be read. -/
structure Field where
  /-- The stem. -/
  stem : String
  /-- Whether a value can be read. -/
  isReadable : String → Bool

namespace Field

/-- A field that holds a 64-bit number. -/
def word (stem : String) : Field :=
  ⟨stem, fun value => (Decimal.readWord? value).isSome⟩

/-- A field that holds a 32-bit number. -/
def halfWord (stem : String) : Field :=
  ⟨stem, fun value => (Decimal.readHalfWord? value).isSome⟩

/-- A field that holds any text. -/
def text (stem : String) : Field :=
  ⟨stem, fun _ => true⟩

/-- **What is wrong with a field** of the `k`-th entry of an element, if something is: it is
missing, or its value cannot be read. -/
def fault? (field : Field) (e : Element) (k : Nat) : Option DecodeError :=
  match e.value? (entryName field.stem k) with
  | none => some (.missingAttribute e.tag (entryName field.stem k))
  | some value =>
    if field.isReadable value then none
    else some (.invalidValue e.tag (entryName field.stem k) value)

theorem fault?_eq_none_iff {field : Field} {e : Element} {k : Nat} :
    field.fault? e k = none ↔
      ∃ value, e.value? (entryName field.stem k) = some value ∧ field.isReadable value = true := by
  rw [fault?]
  cases e.value? (entryName field.stem k) with
  | none => simp
  | some value => simp

end Field

theorem failsBy_parsed {α : Type} (read? : String → Option α) (e : Element) (stem : String)
    (k : Nat) : FailsBy (parsed read? e (entryName stem k))
      (Field.fault? ⟨stem, fun value => (read? value).isSome⟩ e k) := by
  rw [parsed, valueOf, Field.fault?]
  cases e.value? (entryName stem k) with
  | none => exact .error _
  | some value =>
    cases h : read? value with
    | none => simpa [h] using FailsBy.error _
    | some x => simpa [h] using FailsBy.ok x

theorem failsBy_valueOf (e : Element) (stem : String) (k : Nat) :
    FailsBy (valueOf e (entryName stem k)) ((Field.text stem).fault? e k) := by
  rw [valueOf, Field.fault?, Field.text]
  cases e.value? (entryName stem k) with
  | none => exact .error _
  | some value => exact .ok value

/-! ### Entries -/

/-- **A reader of entries**, with the fields that it looks at and what it makes of them. -/
structure ReadsEntries {α : Type} (e : Element) (fields : List Field) (Holds : Nat → α → Prop)
    (entry : Nat → Except DecodeError α) : Prop where
  /-- What is read is what the attributes hold. -/
  eq_ok_iff : ∀ k x, entry k = .ok x ↔ Holds k x
  /-- What goes wrong is the first fault of a field. -/
  failsBy : ∀ k, FailsBy (entry k) (fields.findSome? fun field => field.fault? e k)

theorem findSome?_cons_eq_or {α β : Type} (f : α → Option β) (x : α) (l : List α) :
    (x :: l).findSome? f = (f x).or (l.findSome? f) := by
  rw [List.findSome?_cons]
  cases f x <;> rfl

/-- What is read under the names of a list of some length, entry by entry and within an entry
field by field. -/
def lookups (fields : List Field) (length : Nat) : List (Field × Nat) :=
  (List.range length).flatMap fun k => fields.map fun field => (field, k)

theorem mem_lookups {fields : List Field} {length : Nat} {field : Field} {k : Nat} :
    (field, k) ∈ lookups fields length ↔ field ∈ fields ∧ k < length := by
  rw [lookups, List.mem_flatMap]
  constructor
  · rintro ⟨k', hk, hmem⟩
    obtain ⟨field', hfield, heq⟩ := List.mem_map.1 hmem
    obtain ⟨rfl, rfl⟩ := Prod.mk.inj heq
    exact ⟨hfield, List.mem_range.1 hk⟩
  · rintro ⟨hfield, hk⟩
    exact ⟨k, List.mem_range.2 hk, List.mem_map.2 ⟨field, hfield, rfl⟩⟩

/-- Walking the entries is walking the fields of all entries. -/
theorem findSome?_lookups (fields : List Field) (e : Element) (length : Nat) :
    (lookups fields length).findSome? (fun lookup => lookup.1.fault? e lookup.2) =
      (List.range length).findSome? fun k => fields.findSome? fun field => field.fault? e k := by
  rw [lookups]
  induction List.range length with
  | nil => rfl
  | cons k l ih =>
    rw [List.flatMap_cons, List.findSome?_append, List.findSome?_map, ih, findSome?_cons_eq_or]
    rfl

/-- **A walk along entries** fails by the first fault of an entry. -/
theorem failsBy_entriesFrom {α : Type} {entry : Nat → Except DecodeError α}
    {fault? : Nat → Option DecodeError} (h : ∀ k, FailsBy (entry k) (fault? k)) (count k : Nat) :
    FailsBy (entriesFrom entry count k) ((List.range' k count).findSome? fault?) := by
  induction count generalizing k with
  | zero => exact .ok []
  | succ count ih =>
    rw [entriesFrom, List.range'_succ, findSome?_cons_eq_or]
    refine (h k).bind fun x _ => ?_
    have hrest := (ih (k + 1)).bind fun rest _ => FailsBy.ok (x :: rest)
    rwa [Option.or_none] at hrest

/-! ### Lengths -/

/-- **The counts fail** by the first one that is wrong. -/
theorem failsBy_checkEntryCounts (e : Element) (declared : Nat) (stems : List String) :
    FailsBy (checkEntryCounts e declared stems)
      ((stems.find? fun stem => entryCount e stem ≠ declared).map fun stem =>
        .lengthMismatch e.tag declared (entryCount e stem)) := by
  induction stems with
  | nil => exact .ok ()
  | cons stem stems ih =>
    rw [checkEntryCounts, List.find?_cons]
    by_cases hcount : entryCount e stem = declared
    · simpa [hcount] using ih
    · simpa [hcount] using FailsBy.error _

/-- **A list fails** by the first count that is wrong, or else by the first fault of an entry, if
its length can be read. -/
theorem failsBy_readList {α : Type} {e : Element} {fields : List Field} {Holds : Nat → α → Prop}
    {entry : Nat → Except DecodeError α} (h : ReadsEntries e fields Holds entry) {n : UInt64}
    (hn : word e "n" = .ok n) : FailsBy (readList e (fields.map Field.stem) entry)
      (((fields.find? fun field => entryCount e field.stem ≠ n.toNat).map fun field =>
        .lengthMismatch e.tag n.toNat (entryCount e field.stem)).or
          ((lookups fields n.toNat).findSome? fun lookup => lookup.1.fault? e lookup.2)) := by
  have hcounts := failsBy_checkEntryCounts e n.toNat (fields.map Field.stem)
  rw [List.find?_map, Option.map_map] at hcounts
  have hentries := failsBy_entriesFrom h.failsBy n.toNat 0
  rw [← List.range_eq_range', ← findSome?_lookups] at hentries
  have hlength : declaredLength e (fields.map Field.stem) = (do
      checkEntryCounts e n.toNat (fields.map Field.stem)
      return n.toNat) := by
    rw [declaredLength, hn]
    rfl
  rw [readList, hlength, bind_assoc]
  refine hcounts.bind fun _ _ => ?_
  rw [pure_bind]
  exact hentries

/-- If the counts are right, a list fails by the first fault of an entry. -/
theorem failsBy_readList_of_counts {α : Type} {e : Element} {fields : List Field}
    {Holds : Nat → α → Prop} {entry : Nat → Except DecodeError α}
    (h : ReadsEntries e fields Holds entry) {n : UInt64} (hn : word e "n" = .ok n)
    (hcounts : ∀ field ∈ fields, entryCount e field.stem = n.toNat) :
    FailsBy (readList e (fields.map Field.stem) entry)
      ((lookups fields n.toNat).findSome? fun lookup => lookup.1.fault? e lookup.2) := by
  have hfind : (fields.find? fun field => entryCount e field.stem ≠ n.toNat) = none := by
    rw [List.find?_eq_none]
    intro field hfield
    simpa using hcounts field hfield
  have hfails := failsBy_readList h hn
  rwa [hfind] at hfails

/-! ### Attempts -/

/-- Entries read one after the other, with the number of those that were attempted. -/
def entriesCounted {α : Type} (entry : Nat → Except DecodeError α) :
    (count k : Nat) → Except DecodeError (List α) × Nat
  | 0, _ => (.ok [], 0)
  | count + 1, k =>
    match entry k with
    | .error error => (.error error, 1)
    | .ok x =>
      let (rest, attempts) := entriesCounted entry count (k + 1)
      (rest.map (x :: ·), attempts + 1)

/-- The list that an element holds, with the number of entries that were attempted. -/
def readListCounted {α : Type} (e : Element) (stems : List String)
    (entry : Nat → Except DecodeError α) : Except DecodeError (List α) × Nat :=
  match declaredLength e stems with
  | .error error => (.error error, 0)
  | .ok length => entriesCounted entry length 0

theorem entriesCounted_fst {α : Type} (entry : Nat → Except DecodeError α) (count k : Nat) :
    (entriesCounted entry count k).1 = entriesFrom entry count k := by
  induction count generalizing k with
  | zero => rfl
  | succ count ih =>
    have hrest := ih (k + 1)
    rw [entriesCounted, entriesFrom]
    cases entry k with
    | error e => rfl
    | ok x =>
      change Except.map (x :: ·) (entriesCounted entry count (k + 1)).1 = _
      rw [hrest]
      cases entriesFrom entry count (k + 1) <;> rfl

/-- **An entry is attempted** in a walk if it is one of those to be read, and every entry before
it could be read. -/
theorem lt_entriesCounted_snd_iff {α : Type} (entry : Nat → Except DecodeError α)
    (count k i : Nat) :
    i < (entriesCounted entry count k).2 ↔
      i < count ∧ ∀ j < i, ∃ x, entry (k + j) = .ok x := by
  induction count generalizing k i with
  | zero => simp [entriesCounted]
  | succ count ih =>
    rw [entriesCounted]
    cases i with
    | zero =>
      refine iff_of_true ?_ ⟨Nat.succ_pos count, fun j hj => absurd hj (Nat.not_lt_zero j)⟩
      cases entry k with
      | error e => exact Nat.one_pos
      | ok x => exact Nat.succ_pos _
    | succ i =>
      have hshift : (∀ j < i + 1, ∃ x, entry (k + j) = .ok x) ↔
          (∃ x, entry k = .ok x) ∧ ∀ j < i, ∃ x, entry (k + 1 + j) = .ok x := by
        rw [Nat.forall_lt_succ_left]
        simp only [Nat.add_zero, Nat.add_assoc, Nat.add_comm 1]
      rw [hshift]
      cases hentry : entry k with
      | error e => simp
      | ok x =>
        have hrest := ih (k + 1) i
        simp only [Except.ok.injEq, exists_eq', true_and, Nat.add_lt_add_iff_right]
        exact hrest

section

variable {α : Type} (e : Element) (entry : Nat → Except DecodeError α)

/-- **Counting attempts** does not change the list. -/
theorem readListCounted_fst (stems : List String) :
    (readListCounted e stems entry).1 = readList e stems entry := by
  rw [readListCounted, readList]
  cases declaredLength e stems with
  | error error => rfl
  | ok length => exact entriesCounted_fst entry length 0

/-- **What is counted**: an entry is attempted if a length is declared, the counts are right,
the entry is below the length, and every entry before it could be read. -/
theorem lt_readListCounted_snd_iff (stems : List String) (i : Nat) :
    i < (readListCounted e stems entry).2 ↔
      ∃ length, declaredLength e stems = .ok length ∧ i < length ∧
        ∀ j < i, ∃ x, entry j = .ok x := by
  rw [readListCounted]
  cases hlength : declaredLength e stems with
  | error error => simp
  | ok length => simpa using lt_entriesCounted_snd_iff entry length 0 i

/-- **No more entries are attempted** than there are attributes, if entries have a stem. -/
theorem readListCounted_snd_le (stem : String) (stems : List String) :
    (readListCounted e (stem :: stems) entry).2 ≤ e.names.length := by
  refine le_of_forall_lt fun i hi => ?_
  obtain ⟨length, hlength, hlt, -⟩ := (lt_readListCounted_snd_iff e entry _ i).1 hi
  obtain ⟨n, -, -, hcounts⟩ := declaredLength_eq_ok_iff.1 hlength
  have hcount := hcounts stem List.mem_cons_self
  exact hlt.trans_le (hcount ▸ entryCount_le e stem)

end

/-! ### Exactness -/

/-- **An element lists entries** with the given fields: a length is declared, and under the stem
of each field the element has the entries of a list of this length and no others. -/
structure ListsEntries (e : Element) (fields : List Field) (n : UInt64) : Prop where
  /-- The length is declared. -/
  declared : (e.value? "n").bind Decimal.readWord? = some n
  /-- The entries are numbered up to the length. -/
  entries : ∀ field ∈ fields, entriesUnder e field.stem = canonicalNames field.stem n.toNat

/-- **A list is read exactly**: what comes out of reading entries with the given fields, and how
many of them are attempted. -/
structure IsExact {α : Type} (e : Element) (fields : List Field) (Holds : Nat → α → Prop)
    (reading : Except DecodeError (List α) × Nat) : Prop where
  /-- A list that is read is listed, and its entries are what the attributes with their numbers
  hold; and such a list is read. -/
  eq_ok_iff : ∀ list, reading.1 = .ok list ↔
    ∃ n : UInt64, n.toNat = list.length ∧ ListsEntries e fields n ∧
      ∀ k x, list[k]? = some x → Holds k x
  /-- There is such a list if the values can be read. -/
  exists_ok : ∀ n, ListsEntries e fields n →
    (∀ field ∈ fields, ∀ k < n.toNat, ∀ value, e.value? (entryName field.stem k) = some value →
      field.isReadable value = true) → ∃ list, reading.1 = .ok list ∧ list.length = n.toNat
  /-- A wrong number of entries is reported for the first stem that has one. -/
  mismatch : ∀ n : UInt64, (e.value? "n").bind Decimal.readWord? = some n →
    ∀ before field after, fields = before ++ field :: after →
      (∀ field' ∈ before, (entriesUnder e field'.stem).ncard = n.toNat) →
      (entriesUnder e field.stem).ncard ≠ n.toNat →
      reading.1 = .error (.lengthMismatch e.tag n.toNat (entriesUnder e field.stem).ncard)
  /-- If the numbers are right, the first fault in the order of the entries is reported; and if
  a name is missing or a value cannot be read, there is one. -/
  fault : ∀ n : UInt64, (e.value? "n").bind Decimal.readWord? = some n →
    (∀ field ∈ fields, (entriesUnder e field.stem).ncard = n.toNat) →
    ∀ field ∈ fields, ∀ k < n.toNat, field.fault? e k ≠ none →
      ∃ before field' k' after error, lookups fields n.toNat = before ++ (field', k') :: after ∧
        (∀ lookup ∈ before, lookup.1.fault? e lookup.2 = none) ∧
        field'.fault? e k' = some error ∧ reading.1 = .error error
  /-- The number of attempts is that of the entries that have to be looked at: an entry is
  attempted if and only if a length is declared, the numbers of entries are right, it is one of
  them, and no field of an entry before it is at fault. -/
  attempted : ∀ k, k < reading.2 ↔ ∃ n : UInt64,
    (e.value? "n").bind Decimal.readWord? = some n ∧
      (∀ field ∈ fields, (entriesUnder e field.stem).ncard = n.toNat) ∧ k < n.toNat ∧
        ∀ j < k, ∀ field ∈ fields, field.fault? e j = none
  /-- No more entries are attempted than there are attributes. -/
  attempts_le : reading.2 ≤ e.names.length

section

variable {α : Type} {e : Element} {fields : List Field} {Holds : Nat → α → Prop}
  {entry : Nat → Except DecodeError α} (h : ReadsEntries e fields Holds entry)
include h

/-- An entry is read if none of its fields is at fault. -/
theorem ReadsEntries.exists_ok_iff {k : Nat} :
    (∃ x, entry k = .ok x) ↔ ∀ field ∈ fields, field.fault? e k = none := by
  rw [(h.failsBy k).exists_ok_iff, List.findSome?_eq_none_iff]

/-- An entry that is read has all of its fields. -/
theorem ReadsEntries.isSome_value? {k : Nat} {x : α} (hx : entry k = .ok x) {field : Field}
    (hfield : field ∈ fields) : (e.value? (entryName field.stem k)).isSome = true := by
  obtain ⟨value, hvalue, -⟩ :=
    Field.fault?_eq_none_iff.1 (h.exists_ok_iff.1 ⟨x, hx⟩ field hfield)
  rw [hvalue]
  rfl

/-- **A list that is read** is listed, with the entries that the attributes hold. -/
theorem ReadsEntries.readList_eq_ok_iff {list : List α} :
    readList e (fields.map Field.stem) entry = .ok list ↔
      ∃ n : UInt64, n.toNat = list.length ∧ ListsEntries e fields n ∧
        ∀ k x, list[k]? = some x → Holds k x := by
  rw [Encoding.readList_eq_ok_iff, declaredLength_eq_ok_iff]
  simp only [h.eq_ok_iff, List.forall_mem_map]
  constructor
  · rintro ⟨⟨n, hn, hlength, hcounts⟩, hentries⟩
    refine ⟨n, hlength, ⟨hn, fun field hfield => ?_⟩, hentries⟩
    rw [hlength]
    refine entriesUnder_eq_iff.2 ⟨hcounts field hfield, fun k hk => ?_⟩
    have hx := hentries k list[k] (List.getElem?_eq_getElem hk)
    exact h.isSome_value? ((h.eq_ok_iff k list[k]).2 hx) hfield
  · rintro ⟨n, hlength, ⟨hn, hentries⟩, hholds⟩
    refine ⟨⟨n, hn, hlength, fun field hfield => ?_⟩, hholds⟩
    exact hlength ▸ (entriesUnder_eq_iff.1 (hentries field hfield)).1

/-- **Entries are read exactly.** -/
theorem ReadsEntries.isExact (hfields : fields ≠ []) :
    IsExact e fields Holds (readListCounted e (fields.map Field.stem) entry) where
  eq_ok_iff list := by
    rw [readListCounted_fst]
    exact h.readList_eq_ok_iff
  exists_ok n hlists hreadable := by
    have hentries := fun field hfield => entriesUnder_eq_iff.1 (hlists.entries field hfield)
    have hfails := failsBy_readList_of_counts h (parsed_eq_ok_iff.2 hlists.declared)
      fun field hfield => (hentries field hfield).1
    have hnone : (lookups fields n.toNat).findSome?
        (fun lookup => lookup.1.fault? e lookup.2) = none := by
      refine List.findSome?_eq_none_iff.2 ?_
      rintro ⟨field, k⟩ hmem
      obtain ⟨hfield, hk⟩ := mem_lookups.1 hmem
      obtain ⟨value, hvalue⟩ := Option.isSome_iff_exists.1 ((hentries field hfield).2 k hk)
      exact Field.fault?_eq_none_iff.2 ⟨value, hvalue, hreadable field hfield k hk value hvalue⟩
    obtain ⟨list, hlist⟩ := hfails.exists_ok_iff.2 hnone
    obtain ⟨n', hlength, ⟨hn', -⟩, -⟩ := h.readList_eq_ok_iff.1 hlist
    rw [readListCounted_fst]
    refine ⟨list, hlist, ?_⟩
    rw [← hlength, Option.some.inj (hn'.symm.trans hlists.declared)]
  mismatch n hn before field after hsplit hbefore hne := by
    rw [readListCounted_fst]
    simp only [ncard_entriesUnder] at hbefore hne ⊢
    refine ((failsBy_readList h (parsed_eq_ok_iff.2 hn)) _).2 ?_
    have hfind : (fields.find? fun field => entryCount e field.stem ≠ n.toNat) = some field := by
      rw [List.find?_eq_some_iff_append]
      refine ⟨decide_eq_true hne, before, after, hsplit, fun field' hfield' => ?_⟩
      simpa using hbefore field' hfield'
    rw [hfind]
    rfl
  fault n hn hcounts field hfield k hk hfault := by
    rw [readListCounted_fst]
    simp only [ncard_entriesUnder] at hcounts
    have hfails := failsBy_readList_of_counts h (parsed_eq_ok_iff.2 hn) hcounts
    cases hfirst : (lookups fields n.toNat).findSome? fun lookup => lookup.1.fault? e lookup.2 with
    | none =>
      exact absurd (List.findSome?_eq_none_iff.1 hfirst _ (mem_lookups.2 ⟨hfield, hk⟩)) hfault
    | some error =>
      obtain ⟨before, ⟨field', k'⟩, after, hsplit, herror, hbefore⟩ :=
        List.findSome?_eq_some_iff.1 hfirst
      exact ⟨before, field', k', after, error, hsplit, hbefore, herror, (hfails error).2 hfirst⟩
  attempted k := by
    rw [lt_readListCounted_snd_iff]
    simp only [declaredLength_eq_ok_iff, List.forall_mem_map, h.exists_ok_iff, ncard_entriesUnder]
    constructor
    · rintro ⟨_, ⟨n, hn, rfl, hcounts⟩, hk, hbefore⟩
      exact ⟨n, hn, hcounts, hk, hbefore⟩
    · rintro ⟨n, hn, hcounts, hk, hbefore⟩
      exact ⟨n.toNat, ⟨n, hn, rfl, hcounts⟩, hk, hbefore⟩
  attempts_le := by
    cases fields with
    | nil => exact absurd rfl hfields
    | cons field fields => exact readListCounted_snd_le e entry field.stem (fields.map Field.stem)

end

/-! ### The readers -/

/-- The fields of a dimension. -/
def dimensionFields : List Field :=
  [.word "st", .word "sz"]

/-- The field of an index. -/
def indexFields : List Field :=
  [.word "i"]

/-- The fields of a device. -/
def deviceFields : List Field :=
  [.text "d", .halfWord "CU", .halfWord "MHz", .halfWord "FPC"]

/-- **An element holds a dimension** at a position. -/
structure HoldsDimension (e : Element) (k : Nat) (dimension : Dimension) : Prop where
  /-- The stride. -/
  stride : (e.value? (entryName "st" k)).bind Decimal.readWord? = some dimension.stride
  /-- The size. -/
  size : (e.value? (entryName "sz" k)).bind Decimal.readWord? = some dimension.size

/-- **An element holds an index** at a position. -/
def HoldsIndex (e : Element) (k : Nat) (id : UInt64) : Prop :=
  (e.value? (entryName "i" k)).bind Decimal.readWord? = some id

/-- **An element holds a device** at a position. -/
structure HoldsDevice (e : Element) (k : Nat) (device : Device) : Prop where
  /-- The name, as it stands there. -/
  name : e.value? (entryName "d" k) = some device.name
  /-- The number of compute units. -/
  computeUnits :
    (e.value? (entryName "CU" k)).bind Decimal.readHalfWord? = some device.computeUnits
  /-- The clock rate. -/
  clockMHz : (e.value? (entryName "MHz" k)).bind Decimal.readHalfWord? = some device.clockMHz
  /-- The operations per clock. -/
  flopsPerClock :
    (e.value? (entryName "FPC" k)).bind Decimal.readHalfWord? = some device.flopsPerClock

theorem readsEntries_dimensionAt (e : Element) :
    ReadsEntries e dimensionFields (HoldsDimension e) (dimensionAt e) where
  eq_ok_iff k x := by
    simp only [dimensionAt, word, bind_eq_ok_iff, parsed_eq_ok_iff]
    constructor
    · rintro ⟨stride, hstride, size, hsize, ⟨⟩⟩
      exact ⟨hstride, hsize⟩
    · rintro ⟨hstride, hsize⟩
      exact ⟨_, hstride, _, hsize, rfl⟩
  failsBy k := by
    simp only [dimensionFields, findSome?_cons_eq_or, List.findSome?_nil]
    refine (failsBy_parsed Decimal.readWord? e "st" k).bind fun stride _ => ?_
    exact (failsBy_parsed Decimal.readWord? e "sz" k).bind fun size _ => .ok _

theorem readsEntries_index (e : Element) :
    ReadsEntries e indexFields (HoldsIndex e) fun k => word e (entryName "i" k) where
  eq_ok_iff _ _ := parsed_eq_ok_iff
  failsBy k := by
    simp only [indexFields, findSome?_cons_eq_or, List.findSome?_nil, Option.or_none]
    exact failsBy_parsed Decimal.readWord? e "i" k

theorem readsEntries_deviceAt (e : Element) :
    ReadsEntries e deviceFields (HoldsDevice e) (deviceAt e) where
  eq_ok_iff k x := by
    simp only [deviceAt, halfWord, bind_eq_ok_iff, parsed_eq_ok_iff, valueOf_eq_ok_iff]
    constructor
    · rintro ⟨name, hname, computeUnits, hunits, clockMHz, hclock, flopsPerClock, hflops, ⟨⟩⟩
      exact ⟨hname, hunits, hclock, hflops⟩
    · rintro ⟨hname, hunits, hclock, hflops⟩
      exact ⟨_, hname, _, hunits, _, hclock, _, hflops, rfl⟩
  failsBy k := by
    simp only [deviceFields, findSome?_cons_eq_or, List.findSome?_nil]
    refine (failsBy_valueOf e "d" k).bind fun name _ => ?_
    refine (failsBy_parsed Decimal.readHalfWord? e "CU" k).bind fun computeUnits _ => ?_
    refine (failsBy_parsed Decimal.readHalfWord? e "MHz" k).bind fun clockMHz _ => ?_
    exact (failsBy_parsed Decimal.readHalfWord? e "FPC" k).bind fun flopsPerClock _ => .ok _

/-- The dimensions that an element holds, with the number of those that were attempted. -/
def dimensionsCounted (e : Element) : Except DecodeError (List Dimension) × Nat :=
  readListCounted e ["st", "sz"] (dimensionAt e)

/-- The assignment that an element holds, with the number of indices that were attempted. -/
def indicesCounted (e : Element) : Except DecodeError (List UInt64) × Nat :=
  readListCounted e ["i"] fun k => word e (entryName "i" k)

/-- The devices that an element holds, with the number of those that were attempted. -/
def devicesCounted (e : Element) : Except DecodeError (List Device) × Nat :=
  readListCounted e ["d", "CU", "MHz", "FPC"] (deviceAt e)

/-- **The readers of lists are exact**, on every element: that of assignments, that of profiles,
and, if the type can be read, that of tensors. If it cannot, this is what is reported. -/
theorem readers_isExact (e : Element) :
    (readAssignment e = (indicesCounted e).1 ∧
        IsExact e indexFields (HoldsIndex e) (indicesCounted e)) ∧
      (readProfile e = (devicesCounted e).1.map DeviceProfile.mk ∧
        IsExact e deviceFields (HoldsDevice e) (devicesCounted e)) ∧
      (∀ error, dataType e "t" = .error error → readTensor e = .error error) ∧
      (∀ type, dataType e "t" = .ok type →
        readTensor e = (dimensionsCounted e).1.map (Tensor.mk type)) ∧
      IsExact e dimensionFields (HoldsDimension e) (dimensionsCounted e) := by
  refine ⟨⟨?_, (readsEntries_index e).isExact nofun⟩, ⟨?_, (readsEntries_deviceAt e).isExact nofun⟩,
    ?_, ?_, (readsEntries_dimensionAt e).isExact nofun⟩
  · exact (readListCounted_fst e _ _).symm
  · rw [devicesCounted, readListCounted_fst, readProfile]
    cases readList e ["d", "CU", "MHz", "FPC"] (deviceAt e) <;> rfl
  · intro error htype
    rw [readTensor, htype]
    rfl
  · intro type htype
    rw [dimensionsCounted, readListCounted_fst, readTensor, htype]
    cases readList e ["st", "sz"] (dimensionAt e) <;> rfl

/-- A tensor whose second size is numbered with a leading zero. -/
def paddedTensor : Element :=
  ⟨"TA", [("t", "0"), ("n", "2"), ("st0", "1"), ("sz0", "4"), ("st1", "4"), ("sz01", "8")]⟩

/-- An assignment whose indices stand in another order. -/
def shuffledAssignment : Element :=
  ⟨"IA", [("i1", "0"), ("n", "2"), ("i0", "5")]⟩

/-- The tensor has the right numbers of entries, but lacks the second size; without a type,
nothing else is looked at. The assignment lists its two indices. -/
theorem readers_isExact_paddedTensor :
    readTensor paddedTensor = .error (.missingAttribute "TA" "sz1") ∧
      (∃ error, (dimensionsCounted paddedTensor).1 = .error error) ∧
      readTensor ⟨"TA", []⟩ = .error (.missingAttribute "TA" "t") ∧
      readAssignment shuffledAssignment = .ok [5, 0] ∧
      ListsEntries shuffledAssignment indexFields 2 := by
  obtain ⟨-, -, -, htensor, hexact⟩ := readers_isExact paddedTensor
  obtain ⟨-, -, huntyped, -⟩ := readers_isExact ⟨"TA", []⟩
  obtain ⟨⟨hassignment, hindices⟩, -⟩ := readers_isExact shuffledAssignment
  have hcounts : ∀ field ∈ dimensionFields,
      (entriesUnder paddedTensor field.stem).ncard = (2 : UInt64).toNat := by
    intro field hfield
    rw [ncard_entriesUnder]
    rcases List.mem_pair.1 hfield with rfl | rfl <;> rfl
  have hlists : ListsEntries shuffledAssignment indexFields 2 := by
    obtain ⟨n, hn, hlists, -⟩ := (hindices.eq_ok_iff [5, 0]).1 rfl
    rwa [show n = 2 from UInt64.toNat_inj.1 hn] at hlists
  refine ⟨(htensor .single rfl).trans rfl, ?_, huntyped _ rfl, hassignment, hlists⟩
  obtain ⟨-, -, -, -, error, -, -, -, herror⟩ :=
    hexact.fault 2 rfl hcounts (.word "sz") (List.mem_pair.2 (.inr rfl)) 1 (by decide) nofun
  exact ⟨error, herror⟩

end Encoding

end TensorContraction
