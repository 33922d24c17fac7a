import TensorContraction.Encoding.Attributes
import TensorContraction.Proofs.Outcome

/-!
# What readers of attributes ask

Each of the readers of `TensorContraction.Encoding.Attributes` succeeds under a condition on the
attributes of an element, which this file states as an equivalence: values are there and can be
read, lengths are declared and all counts are right, and the entries of a list are read one by
one. No lemma looks at what an entry is.
-/

namespace TensorContraction

namespace Encoding

open Markup

/-! ### Values -/

theorem valueOf_eq_ok_iff {e : Element} {name value : String} :
    valueOf e name = .ok value ↔ e.value? name = some value := by
  rw [valueOf]
  cases e.value? name <;> simp

/-- **A value is read** if and only if it is there and can be read. -/
theorem parsed_eq_ok_iff {α : Type} {read? : String → Option α} {e : Element} {name : String}
    {x : α} : parsed read? e name = .ok x ↔ (e.value? name).bind read? = some x := by
  rw [parsed, valueOf]
  cases e.value? name with
  | none => simp
  | some value => cases h : read? value <;> simp [h]

/-! ### Lists -/

/-- **The counts are right** if and only if none of them differs from the length. -/
theorem checkEntryCounts_eq_ok_iff {e : Element} {declared : Nat} {stems : List String} :
    checkEntryCounts e declared stems = .ok () ↔ ∀ stem ∈ stems, entryCount e stem = declared := by
  induction stems with
  | nil => simp [checkEntryCounts]
  | cons stem stems ih =>
    rw [checkEntryCounts, List.forall_mem_cons]
    by_cases hcount : entryCount e stem = declared
    · simp [hcount, ih]
    · simp [hcount]

/-- **A length is read** if and only if it is declared and all counts are right. -/
theorem declaredLength_eq_ok_iff {e : Element} {stems : List String} {length : Nat} :
    declaredLength e stems = .ok length ↔
      ∃ n : UInt64, (e.value? "n").bind Decimal.readWord? = some n ∧ n.toNat = length ∧
        ∀ stem ∈ stems, entryCount e stem = length := by
  rw [declaredLength, bind_eq_ok_iff]
  constructor
  · rintro ⟨n, hn, h⟩
    obtain ⟨hcounts, ⟨⟩⟩ := check_bind_eq_ok_iff.1 h
    exact ⟨n, parsed_eq_ok_iff.1 hn, rfl, checkEntryCounts_eq_ok_iff.1 hcounts⟩
  · rintro ⟨n, hn, rfl, hcounts⟩
    exact ⟨n, parsed_eq_ok_iff.2 hn,
      check_bind_eq_ok_iff.2 ⟨checkEntryCounts_eq_ok_iff.2 hcounts, rfl⟩⟩

/-- **A walk along entries** succeeds with what they are, in order. -/
theorem entriesFrom_eq_ok_iff {α : Type} {entry : Nat → Except DecodeError α} {count k : Nat}
    {list : List α} : entriesFrom entry count k = .ok list ↔
      list.length = count ∧ ∀ i x, list[i]? = some x → entry (k + i) = .ok x := by
  induction count generalizing k list with
  | zero =>
    rw [entriesFrom, List.length_eq_zero_iff]
    constructor
    · rintro ⟨⟩
      exact ⟨rfl, nofun⟩
    · rintro ⟨rfl, -⟩
      rfl
  | succ count ih =>
    simp only [entriesFrom, bind_eq_ok_iff, ih]
    constructor
    · rintro ⟨x, hx, rest, ⟨hlength, hrest⟩, ⟨⟩⟩
      refine ⟨congrArg (· + 1) hlength, fun i y hi => ?_⟩
      cases i with
      | zero => rwa [← Option.some.inj hi]
      | succ i =>
        rw [Nat.add_comm i 1, ← Nat.add_assoc]
        exact hrest i y hi
    · rintro ⟨hlength, h⟩
      cases list with
      | nil => cases hlength
      | cons x rest =>
        refine ⟨x, h 0 x rfl, rest, ⟨Nat.succ.inj hlength, fun i y hi => ?_⟩, rfl⟩
        rw [Nat.add_assoc, Nat.add_comm 1 i]
        exact h (i + 1) y hi

/-- **A list is read** if and only if its length is and its entries are. -/
theorem readList_eq_ok_iff {α : Type} {e : Element} {stems : List String}
    {entry : Nat → Except DecodeError α} {list : List α} :
    readList e stems entry = .ok list ↔
      declaredLength e stems = .ok list.length ∧ ∀ k x, list[k]? = some x → entry k = .ok x := by
  simp only [readList, bind_eq_ok_iff, entriesFrom_eq_ok_iff, Nat.zero_add]
  constructor
  · rintro ⟨_, hlength, rfl, hentries⟩
    exact ⟨hlength, hentries⟩
  · rintro ⟨hlength, hentries⟩
    exact ⟨_, hlength, rfl, hentries⟩

end Encoding

end TensorContraction
