import Mathlib.Data.Set.Card
import TensorContraction.Proofs.Encoding.EntryName
import TensorContraction.Proofs.Lookup

/-!
# The entries of an element

A reader counts the attributes whose names look like entries under a stem, and then looks
names up: those of the entries that it expects, with canonical numerals. The count alone says
little, for `st00` looks like an entry too, and the names that are looked up alone do not
exclude others. Together they leave no room: among as many names as there are entries to be
found, with all of these entries among them, there is no other name
(`TensorContraction.Encoding.entriesUnder_eq_iff`).
-/

namespace TensorContraction

namespace Encoding

open Markup

/-- **The entries of an element** under a stem: the names of its attributes that are the stem
with one or more digits behind it. -/
def entriesUnder (e : Element) (stem : String) : Set String :=
  {name | name ∈ e.attributes.map Prod.fst ∧
    ∃ digits, digits ≠ [] ∧ (∀ c ∈ digits, c.isDigit = true) ∧
      name.toList = stem.toList ++ digits}

/-- **The entries of a list** of some length under a stem: one for each position, numbered in
the canonical way. -/
def canonicalNames (stem : String) (length : Nat) : Set String :=
  {name | ∃ k < length, name = entryName stem k}

theorem entryName_injective (stem : String) : Function.Injective (entryName stem) := by
  intro k k' h
  have hlist := congrArg String.toList h
  rw [toList_entryName, toList_entryName, ← Decimal.toList_text, ← Decimal.toList_text] at hlist
  exact Decimal.text_injective (String.toList_inj.1 (List.append_cancel_left hlist))

theorem isEntryName_entryName_self (stem : String) (k : Nat) :
    isEntryName stem (entryName stem k) = true := by
  refine isEntryName_iff.2 ⟨(Decimal.text k).toList, Decimal.toList_text_ne_nil k,
    fun c => Decimal.isDigit_of_mem_text, ?_⟩
  rw [toList_entryName, Decimal.toList_text]

/-! ### Numbers of entries -/

theorem mem_names_iff {e : Element} {name : String} :
    name ∈ e.names ↔ name ∈ e.attributes.map Prod.fst := by
  rw [Element.names, List.mem_eraseDups]

theorem isSome_value?_iff {e : Element} {name : String} :
    (e.value? name).isSome = true ↔ name ∈ e.attributes.map Prod.fst := by
  rw [Element.value?, List.lookup_isSome_iff, List.mem_map]
  simp only [List.mem_reverse, beq_iff_eq, eq_comm (a := name)]

theorem entriesUnder_eq_coe (e : Element) (stem : String) :
    entriesUnder e stem = ↑(e.names.filter (isEntryName stem)).toFinset := by
  ext name
  rw [Finset.mem_coe, List.mem_toFinset, List.mem_filter, mem_names_iff, isEntryName_iff]
  rfl

theorem finite_entriesUnder (e : Element) (stem : String) : (entriesUnder e stem).Finite := by
  rw [entriesUnder_eq_coe]
  exact Finset.finite_toSet _

/-- **What is counted** are the entries under the stem. -/
theorem ncard_entriesUnder (e : Element) (stem : String) :
    (entriesUnder e stem).ncard = entryCount e stem := by
  have hnodup : (e.names.filter (isEntryName stem)).Nodup := (nodup_eraseDups _).filter _
  rw [entriesUnder_eq_coe, Set.ncard_coe_finset, List.toFinset_card_of_nodup hnodup, entryCount,
    List.countP_eq_length_filter]

theorem canonicalNames_eq_coe (stem : String) (length : Nat) :
    canonicalNames stem length = ↑((Finset.range length).image (entryName stem)) := by
  ext name
  rw [Finset.mem_coe, Finset.mem_image]
  simp only [Finset.mem_range, eq_comm (b := name)]
  rfl

theorem ncard_canonicalNames (stem : String) (length : Nat) :
    (canonicalNames stem length).ncard = length := by
  rw [canonicalNames_eq_coe, Set.ncard_coe_finset,
    Finset.card_image_of_injective _ (entryName_injective stem), Finset.card_range]

/-- **The entries are those of a list** if and only if there are as many as the list is long,
and each position has one with a canonical name. -/
theorem entriesUnder_eq_iff {e : Element} {stem : String} {length : Nat} :
    entriesUnder e stem = canonicalNames stem length ↔
      entryCount e stem = length ∧
        ∀ k < length, (e.value? (entryName stem k)).isSome = true := by
  constructor
  · intro h
    refine ⟨by rw [← ncard_entriesUnder, h, ncard_canonicalNames], fun k hk => ?_⟩
    have hmem : entryName stem k ∈ entriesUnder e stem := h ▸ ⟨k, hk, rfl⟩
    exact isSome_value?_iff.2 hmem.1
  · rintro ⟨hcount, hpresent⟩
    have hsubset : canonicalNames stem length ⊆ entriesUnder e stem := by
      rintro name ⟨k, hk, rfl⟩
      exact ⟨isSome_value?_iff.1 (hpresent k hk),
        isEntryName_iff.1 (isEntryName_entryName_self stem k)⟩
    refine (Set.eq_of_subset_of_ncard_le hsubset ?_ (finite_entriesUnder e stem)).symm
    rw [ncard_entriesUnder, ncard_canonicalNames, hcount]

theorem entryCount_le (e : Element) (stem : String) : entryCount e stem ≤ e.names.length :=
  List.countP_le_length

end Encoding

end TensorContraction
