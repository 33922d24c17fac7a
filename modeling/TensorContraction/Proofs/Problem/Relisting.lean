import TensorContraction.Proofs.Problem.Acceptance
import TensorContraction.Proofs.Problem.Construction

/-!
# Listing dimensions in another order

The dimensions of an operand come in some order, and the assignment says which index each of
them has. Listing them otherwise – dimensions and assignment together – gives another problem,
with its own key; but it is the same contraction, and everything that is said about it by the
ids alone stays as it is (`TensorContraction.Problem.ofDescription_relist`).

The legs of an operand are what is listed. They come out permuted, and with them the ids in
use and the sizes that are summed over. Positions change, so the summation pairs do, but the
`k`-th pair is still the one of the `k`-th id that is summed over
(`TensorContraction.Problem.SumsOver`). An assignment may repeat an id: then the dimension
that the pair stands for may be another one after relisting, since the first one counts.
-/

namespace TensorContraction

/-! ### Descriptions -/

namespace Description

/-- The dimensions of the left operand, each with its index. -/
def listingA (d : Description) : List (UInt64 × Dimension) :=
  d.idsA.zip d.a.dimensions

/-- The dimensions of the right operand, each with its index. -/
def listingB (d : Description) : List (UInt64 × Dimension) :=
  d.idsB.zip d.b.dimensions

/-- **The same contraction with the dimensions of the operands listed otherwise**, each with
its index. -/
def relist (d : Description) (listingA listingB : List (UInt64 × Dimension)) : Description :=
  { d with
    a := ⟨d.a.dataType, listingA.map Prod.snd⟩
    b := ⟨d.b.dataType, listingB.map Prod.snd⟩
    idsA := listingA.map Prod.fst
    idsB := listingB.map Prod.fst }

end Description

namespace Problem

/-- The leg that a dimension with an index is. -/
def Leg.ofEntry (entry : UInt64 × Dimension) : Leg :=
  ⟨entry.1.toNat, entry.2.size⟩

theorem legs_eq_map_zip (ids : List UInt64) (t : Tensor) :
    legs ids t = (ids.zip t.dimensions).map Leg.ofEntry := by
  rw [legs, Tensor.sizes, List.zipWith_map_right, ← List.map_uncurry_zip_eq_zipWith]
  rfl

/-- The legs of a listing are its entries. -/
theorem legs_listing (listing : List (UInt64 × Dimension)) (ty : DataType) :
    legs (listing.map Prod.fst) ⟨ty, listing.map Prod.snd⟩ = listing.map Leg.ofEntry := by
  rw [legs_eq_map_zip, ← List.unzip_fst, ← List.unzip_snd, List.zip_unzip]

/-! ### Legs in another order -/

/-- **A problem with the legs of another one**, each operand's in any order. -/
structure Relists (p q : Problem) : Prop where
  /-- The output is the same. -/
  c : q.c = p.c
  /-- The devices are the same. -/
  profile : q.profile = p.profile
  /-- The legs of the left operand are the same. -/
  legsA : q.legsA.Perm p.legsA
  /-- The legs of the right operand are the same. -/
  legsB : q.legsB.Perm p.legsB

/-- A description that is listed otherwise is that of such a problem. -/
theorem relists_of_relist {p q : Problem} {listingA listingB : List (UInt64 × Dimension)}
    (hA : listingA.Perm p.toDescription.listingA) (hB : listingB.Perm p.toDescription.listingB)
    (h : q.toDescription = p.toDescription.relist listingA listingB) : Relists p q where
  c := by rw [h]; rfl
  profile := by rw [h]; rfl
  legsA := by
    rw [Problem.legsA, Problem.legsA, h, legs_eq_map_zip p.idsA]
    exact (legs_listing _ _).symm ▸ hA.map Leg.ofEntry
  legsB := by
    rw [Problem.legsB, Problem.legsB, h, legs_eq_map_zip p.idsB]
    exact (legs_listing _ _).symm ▸ hB.map Leg.ofEntry

namespace Relists

variable {p q : Problem} (h : Relists p q)
include h

theorem symm : Relists q p :=
  ⟨h.c.symm, h.profile.symm, h.legsA.symm, h.legsB.symm⟩

/-- The left operand uses the same ids. -/
theorem usedA_perm : q.usedA.Perm p.usedA := by
  rw [← map_id_legsA, ← map_id_legsA]
  exact h.legsA.map Leg.id

/-- The right operand uses the same ids. -/
theorem usedB_perm : q.usedB.Perm p.usedB := by
  rw [← map_id_legsB, ← map_id_legsB]
  exact h.legsB.map Leg.id

/-- **A contraction without gaps** stays one. -/
theorem isContraction {s : Nat} (hp : p.IsContraction s) : q.IsContraction s where
  sum_pos := hp.sum_pos
  nodupA := h.usedA_perm.nodup_iff.2 hp.nodupA
  nodupB := h.usedB_perm.nodup_iff.2 hp.nodupB
  lt_of_used id hid := by
    rw [h.usedA_perm.mem_iff, h.usedB_perm.mem_iff] at hid
    rw [h.c]
    exact hp.lt_of_used id hid
  used_beyond id hle hlt := by
    rw [h.c] at hle hlt
    rw [h.usedA_perm.mem_iff, h.usedB_perm.mem_iff]
    exact hp.used_beyond id hle hlt
  length_own := by
    simp only [ownIds, h.c, h.usedA_perm.mem_iff, h.usedB_perm.mem_iff]
    exact hp.length_own
  own_pos := by
    simp only [ownIds, h.c, h.usedA_perm.mem_iff, h.usedB_perm.mem_iff]
    exact hp.own_pos

/-- **The extents** stay the same. -/
theorem hasExtents {extent : Nat → UInt64} (hp : p.HasExtents extent) : q.HasExtents extent := by
  intro leg hleg
  rw [legsC, h.c, h.legsA.mem_iff, h.legsB.mem_iff] at hleg
  exact hp leg hleg

/-- **Validation accepts** what it accepts. -/
theorem validate_eq_ok {config : ValidationConfig} (hp : p.validate config = .ok ()) :
    q.validate config = .ok () :=
  validate_eq_ok_of (fun _ => h.isContraction) (fun _ => h.hasExtents) h.profile hp

/-- **The operation count** stays the same, whether the problem is accepted or not. -/
theorem numFlops_eq : q.numFlops = p.numFlops := by
  refine numFlops_eq_of_perm h.c ?_
  rw [summedSizes, summedSizes, h.c]
  exact (h.legsA.filter _).map Leg.size

end Relists

/-! ### Problems in another order -/

/-- **The ids that the summation pairs stand for**, in their order: a pair holds the positions
at which the operands first use its id. -/
def SumsOver (p : Problem) (ids : List Nat) : Prop :=
  ids.Forall₂ (fun id pair => IsFirstAt p.usedA id pair.inA ∧ IsFirstAt p.usedB id pair.inB)
    p.summation

/-- **Dimensions can be listed in any order**, together with their indices: both descriptions
are refused for the same reason, or both are those of problems. These have the same free and
batch indices and sum over the same ids in the same order, they take as many operations, and
validation accepts both or none. -/
theorem ofDescription_relist (d : Description) (hA : d.idsA.length = d.a.rank)
    (hB : d.idsB.length = d.b.rank) {listingA listingB : List (UInt64 × Dimension)}
    (hlistingA : listingA.Perm d.listingA) (hlistingB : listingB.Perm d.listingB) :
    (∃ e, ofDescription d = .error e ∧
      ofDescription (d.relist listingA listingB) = .error e) ∨
    ∃ p q, ofDescription d = .ok p ∧ ofDescription (d.relist listingA listingB) = .ok q ∧
      q.free = p.free ∧ q.batch = p.batch ∧ (∃ ids, p.SumsOver ids ∧ q.SumsOver ids) ∧
      q.numFlops = p.numFlops ∧
      ∀ config, q.validate config = .ok () ↔ p.validate config = .ok () := by
  have hrank : ∀ (ty : DataType) (listing : List (UInt64 × Dimension)),
      (listing.map Prod.fst).length = (Tensor.mk ty (listing.map Prod.snd)).rank := by
    intro ty listing
    rw [Tensor.rank, List.length_map, List.length_map]
  have hidsA : (listingA.map Prod.fst).Perm d.idsA := by
    have hperm := hlistingA.map Prod.fst
    rwa [Description.listingA, List.map_fst_zip (Nat.le_of_eq hA)] at hperm
  have hidsB : (listingB.map Prod.fst).Perm d.idsB := by
    have hperm := hlistingB.map Prod.fst
    rwa [Description.listingB, List.map_fst_zip (Nat.le_of_eq hB)] at hperm
  have halike := UseAlike.of_perm (hidsA.map UInt64.toNat) (hidsB.map UInt64.toNat)
  rcases ofDescription_of_useAlike (d.relist listingA listingB) hA hB
      (hrank d.a.dataType listingA) (hrank d.b.dataType listingB) rfl halike with
    herror | ⟨p, q, hp, hq, rfl, h, hfree, hbatch, hsummed⟩
  · exact .inl herror
  · have hrelists := relists_of_relist hlistingA hlistingB h
    refine .inr ⟨p, q, hp, hq, hfree, hbatch, ⟨p.summed, p.forall₂_summation, ?_⟩,
      hrelists.numFlops_eq, fun config => ⟨hrelists.symm.validate_eq_ok, hrelists.validate_eq_ok⟩⟩
    exact hsummed ▸ q.forall₂_summation

/-- A product that sums over nothing in the last of three directions, the first two of which
are too large to be counted. -/
def emptyProduct : Problem where
  c := .packed .single [4, 8]
  a := .packed .single [4, 9223372036854775808, 3, 0]
  b := .packed .single [9223372036854775808, 3, 0, 8]
  idsA := [0, 2, 3, 4]
  idsB := [2, 3, 4, 1]
  operation := .gemm .single
  profile := .reference
  classification := ⟨[0, 1], [], [⟨1, 0⟩, ⟨2, 1⟩, ⟨3, 2⟩]⟩
  length_idsA := rfl
  length_idsB := rfl
  classify_eq := rfl

/-- A product whose left operand has two directions with one id. -/
def doubledProduct : Problem where
  c := .packed .single [4]
  a := .packed .single [3, 5]
  b := .packed .single [4, 3]
  idsA := [1, 1]
  idsB := [0, 1]
  operation := .gemm .single
  profile := .reference
  classification := ⟨[0], [], [⟨0, 1⟩]⟩
  length_idsA := rfl
  length_idsB := rfl
  classify_eq := rfl

/-- A description that leaves the last direction of the output without an index. -/
def openDescription : Description :=
  { doubledProduct.toDescription with c := .packed .single [4, 3, 2] }

/-- The first product takes no operations, whether its left operand begins or ends with the
empty direction. The second one takes some, and validation refuses it, in whichever order the
directions of its operands are listed. A description that is refused is refused for the same
index. -/
theorem ofDescription_relist_emptyProduct :
    (let d := emptyProduct.toDescription
     ∃ q, ofDescription (d.relist d.listingA.reverse d.listingB) = .ok q ∧
        q.free = [0, 1] ∧ q.numFlops = 0 ∧ q.validate .standard = .ok ()) ∧
    (let d := doubledProduct.toDescription
     ∃ q, ofDescription (d.relist d.listingA.reverse d.listingB.reverse) = .ok q ∧
        q.free = [0] ∧ q.numFlops = 120 ∧ q.validate .standard ≠ .ok ()) ∧
    (let d := openDescription
     ofDescription (d.relist d.listingA.reverse d.listingB.reverse) =
        .error (.indexUnassigned 2)) := by
  refine ⟨?_, ?_, ?_⟩
  · intro d
    rcases ofDescription_relist d rfl rfl (List.reverse_perm d.listingA) (.refl d.listingB) with
      ⟨e, he, -⟩ | ⟨p, q, hp, hq, hfree, -, -, hflops, hvalidate⟩
    · cases he
    · obtain rfl : emptyProduct = p := Except.ok.inj hp
      exact ⟨q, hq, hfree, hflops, (hvalidate .standard).2 rfl⟩
  · intro d
    rcases ofDescription_relist d rfl rfl (List.reverse_perm d.listingA)
        (List.reverse_perm d.listingB) with
      ⟨e, he, -⟩ | ⟨p, q, hp, hq, hfree, -, -, hflops, hvalidate⟩
    · cases he
    · obtain rfl : doubledProduct = p := Except.ok.inj hp
      refine ⟨q, hq, hfree, hflops, fun haccepted => ?_⟩
      cases (hvalidate .standard).1 haccepted
  · intro d
    rcases ofDescription_relist d rfl rfl (List.reverse_perm d.listingA)
        (List.reverse_perm d.listingB) with
      ⟨e, he, herror⟩ | ⟨p, q, hp, -⟩
    · obtain rfl : ProblemError.indexUnassigned 2 = e := Except.error.inj he
      exact herror
    · cases hp

end Problem

end TensorContraction
