import Mathlib.Data.List.Perm.Subperm
import TensorContraction.Proofs.Index.Sorting

/-!
# Whether the output is covered

A classification **covers the output** (`TensorContraction.Classification.CoversOutput`) if no
index of the output is missed: each of them is free or batch if the classification succeeds, and
it fails if one of them is used by no operand. A scan covers the output whenever its bound is no
less than the rank of the output.

## Where the bound wraps around

The bound is the sum of the rank of the output and the rank of `A`, computed in words. As long as
the sum fits in a word, the output is covered. If it does not, the bound is what is left of the
sum beyond the greatest word: it is less than the rank of `A`, and the indices of the output at or
above it are not looked at. An output of that rank has more indices than the operands can use, so
that it should always be refused; yet it is accepted whenever the operands use the few ids below
the bound (`TensorContraction.Classification.ofWords_coversOutput`). One dimension of `A` is enough
for that, if the rank of the output is the greatest word
(`TensorContraction.Classification.ofWords_greatestRank`).
-/

namespace TensorContraction

namespace Classification

/-- **A classification covers the output** of rank `rankC`, for operands that are assigned `a` and
`b`: if it succeeds, its free and its batch indices are those of the output, each of them once;
and it does not succeed if an index of the output is used by no operand. -/
def CoversOutput (rankC : Nat) (a b : List Nat) (result : Except ProblemError Classification) :
    Prop :=
  (∀ k, result = .ok k → (k.free ++ k.batch).Perm (List.range rankC)) ∧
    ∀ id < rankC, id ∉ a → id ∉ b → ∃ e, result = .error e

/-! ### Scans -/

section

variable {rankC : Nat} {a b : List Nat} {count id : Nat}

theorem hasRole_iff_of_lt (hid : id < rankC) : HasRole rankC a b id ↔ id ∈ a ∨ id ∈ b := by
  rw [HasRole, if_pos hid]

/-- Of the indices of the output, a scan that succeeds lists those below its bound. -/
theorem perm_of_scan {k : Classification} (h : scan rankC a b count 0 = .ok k) :
    (k.free ++ k.batch).Perm (List.range (min rankC count)) := by
  obtain ⟨hroles, rfl⟩ := scan_eq_ok_iff.1 h
  have hfree : ∀ id, id ∈ (ofRange rankC a b (List.range count)).free ↔
      id < count ∧ IsFree rankC a b id := by
    simp [ofRange]
  have hbatch : ∀ id, id ∈ (ofRange rankC a b (List.range count)).batch ↔
      id < count ∧ IsBatch rankC a b id := by
    simp [ofRange]
  have hnodup : ((ofRange rankC a b (List.range count)).free ++
      (ofRange rankC a b (List.range count)).batch).Nodup := by
    refine List.nodup_append'.2 ⟨List.nodup_range.filter _, List.nodup_range.filter _, ?_⟩
    intro id hid hid'
    have hone := ((hfree id).1 hid).2.2
    obtain ⟨-, -, hA, hB⟩ := (hbatch id).1 hid'
    exact hone (iff_of_true hA hB)
  refine (List.perm_ext_iff_of_nodup hnodup List.nodup_range).2 fun id => ?_
  rw [List.mem_append, hfree, hbatch, List.mem_range, Nat.lt_min, ← and_or_left, and_comm]
  refine and_congr_left fun hcount => ?_
  unfold IsFree IsBatch
  -- an index of the output that has a role is used by one operand or by both
  refine ⟨fun hid => hid.elim And.left And.left, fun hid => ?_⟩
  have hused := (hasRole_iff_of_lt hid).1 (hroles id hcount)
  tauto

/-- **A scan fails** if it comes to an index of the output that no operand uses. -/
theorem exists_scan_eq_error (hid : id < rankC) (hcount : id < count) (hA : id ∉ a) (hB : id ∉ b) :
    ∃ e, scan rankC a b count 0 = .error e := by
  cases h : scan rankC a b count 0 with
  | error e => exact ⟨e, rfl⟩
  | ok k =>
    have hrole := (scan_eq_ok_iff.1 h).1 id hcount
    exact absurd ((hasRole_iff_of_lt hid).1 hrole) (not_or.2 ⟨hA, hB⟩)

/-- **A scan covers the output** if it goes that far. -/
theorem coversOutput_scan (h : rankC ≤ count) :
    CoversOutput rankC a b (scan rankC a b count 0) := by
  refine ⟨fun k hk => ?_, fun id hid => exists_scan_eq_error hid (Nat.lt_of_lt_of_le hid h)⟩
  have hperm := perm_of_scan hk
  rwa [Nat.min_eq_left h] at hperm

/-- Of more ids than the operands have dimensions, one is used by no operand. -/
theorem exists_unused (h : a.length + b.length < rankC) : ∃ id < rankC, id ∉ a ∧ id ∉ b := by
  by_contra hall
  have hsubset : List.range rankC ⊆ a ++ b := by
    intro id hid
    by_contra hunused
    rw [List.mem_append, not_or] at hunused
    exact hall ⟨id, List.mem_range.1 hid, hunused⟩
  have hle := (List.subperm_of_subset List.nodup_range hsubset).length_le
  rw [List.length_range, List.length_append] at hle
  exact absurd h (Nat.not_lt_of_le hle)

/-- **A scan that stops short** of an output with more indices than the operands can use covers it
only by failing, which takes an unused index below its bound. -/
theorem coversOutput_scan_iff_of_lt (hcount : count < rankC) (h : a.length + b.length < rankC) :
    CoversOutput rankC a b (scan rankC a b count 0) ↔ ∃ id < count, id ∉ a ∧ id ∉ b := by
  constructor
  · rintro ⟨-, hfails⟩
    obtain ⟨unused, hlt, hA, hB⟩ := exists_unused h
    obtain ⟨e, he⟩ := hfails unused hlt hA hB
    by_contra hnone
    have hroles : ∀ id < count, HasRole rankC a b id := by
      intro id hid
      rw [hasRole_iff_of_lt (Nat.lt_trans hid hcount)]
      by_contra hid'
      exact hnone ⟨id, hid, not_or.1 hid'⟩
    rw [scan_eq_ok_iff.2 ⟨hroles, rfl⟩] at he
    cases he
  · rintro ⟨unused, hlt, hA, hB⟩
    obtain ⟨e, he⟩ := exists_scan_eq_error (Nat.lt_trans hlt hcount) hlt hA hB
    rw [he]
    exact ⟨nofun, fun _ _ _ _ => ⟨e, rfl⟩⟩

end

/-! ### Words -/

/-- **A bound that does not fit in a word** wraps around. -/
theorem ofWords_eq_scan_of_wraps {rankC : UInt64} {a : List UInt64} (b : List UInt64)
    (ha : a.length < UInt64.size) (h : UInt64.size ≤ rankC.toNat + a.length) :
    ofWords rankC a b = scan rankC.toNat (a.map UInt64.toNat) (b.map UInt64.toNat)
      (rankC.toNat + a.length - UInt64.size) 0 := by
  have hbound : (rankC + UInt64.ofNat a.length).toNat = rankC.toNat + a.length - UInt64.size := by
    have hlt : rankC.toNat < UInt64.size := rankC.toNat_lt
    have hsum : (rankC + UInt64.ofNat a.length).toNat =
        (rankC.toNat + a.length) % UInt64.size := by
      rw [UInt64.toNat_add, UInt64.toNat_ofNat_of_lt' ha]
    rw [hsum, Nat.mod_eq_sub_mod h, Nat.mod_eq_of_lt (by omega)]
  rw [ofWords, hbound]

/-- **Whether the output is covered**: it is if the bound fits in a word. If it does not, and the
assignments are no longer than a machine can hold, it is only if an index below the wrapped bound
is used by no operand. -/
theorem ofWords_coversOutput (rankC : UInt64) (a b : List UInt64) :
    (rankC.toNat + a.length < UInt64.size →
        CoversOutput rankC.toNat (a.map UInt64.toNat) (b.map UInt64.toNat) (ofWords rankC a b)) ∧
      (UInt64.size ≤ rankC.toNat + a.length → 2 * a.length + b.length < UInt64.size →
        (CoversOutput rankC.toNat (a.map UInt64.toNat) (b.map UInt64.toNat) (ofWords rankC a b) ↔
          ∃ id < rankC.toNat + a.length - UInt64.size,
            id ∉ a.map UInt64.toNat ∧ id ∉ b.map UInt64.toNat)) := by
  have hlengthA : (a.map UInt64.toNat).length = a.length := List.length_map _
  have hlengthB : (b.map UInt64.toNat).length = b.length := List.length_map _
  constructor
  · intro hfits
    rw [ofWords_eq_ofIds b hfits]
    exact coversOutput_scan (Nat.le_add_right _ _)
  · intro hwraps hlengths
    have hlt : rankC.toNat < UInt64.size := rankC.toNat_lt
    rw [ofWords_eq_scan_of_wraps b (by omega) hwraps]
    exact coversOutput_scan_iff_of_lt (by omega) (by omega)

/-- A product of matrices is covered. An output of almost the greatest rank is covered as long as
the first of its indices is not used. -/
theorem ofWords_coversOutput_matrices :
    CoversOutput 2 [2, 0] [2, 1] (ofWords 2 [2, 0] [2, 1]) ∧
      CoversOutput 18446744073709551615 [5, 1] [] (ofWords 18446744073709551615 [5, 1] []) := by
  obtain ⟨hfits, -⟩ := ofWords_coversOutput 2 [2, 0] [2, 1]
  obtain ⟨-, hwraps⟩ := ofWords_coversOutput 18446744073709551615 [5, 1] []
  exact ⟨hfits (by decide), (hwraps (by decide) (by decide)).2 ⟨0, by decide, by decide⟩⟩

/-- **A bound that wraps around to zero**: an output of the greatest rank is accepted, with no
index at all, although a single one of them is used. -/
theorem ofWords_greatestRank :
    ofWords 18446744073709551615 [0] [] = .ok ⟨[], [], []⟩ ∧
      ¬CoversOutput 18446744073709551615 [0] [] (ofWords 18446744073709551615 [0] []) := by
  have haccepted : ofWords 18446744073709551615 [0] [] = .ok ⟨[], [], []⟩ := rfl
  refine ⟨haccepted, ?_⟩
  rintro ⟨hlists, -⟩
  have hlength := (hlists _ haccepted).length_eq
  rw [List.length_range] at hlength
  cases hlength

end Classification

end TensorContraction
