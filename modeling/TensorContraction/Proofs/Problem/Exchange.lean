import TensorContraction.Proofs.Problem.Acceptance
import TensorContraction.Proofs.Problem.Construction

/-!
# Exchanging the operands

The product of matrices is not commutative, but a contraction is: `A` and `B` are summed over
the same indices, whichever of them comes first. Nothing in the definitions shows this. The
ids are looked at up to a bound that counts the dimensions of `A`, the rules of validation
compare with the rank of `A` and go through `A` before `B`, and the operation count multiplies
sizes of `A`. All of it comes out the same for operands of one rank
(`TensorContraction.Problem.ofDescription_exchange`), for three reasons: the role of an id
does not depend on which operand uses it (`TensorContraction.UseAlike.exchange`), contractions
without gaps and extents are symmetric notions, and the operation count of an accepted
problem is a product of extents.

The errors of validation are *not* the same, of course: they name an operand.
-/

namespace TensorContraction

/-- A summation pair with the operands exchanged. -/
def SummationPair.swap (pair : SummationPair) : SummationPair :=
  ⟨pair.inB, pair.inA⟩

/-- **The same contraction with the operands exchanged.** -/
def Description.exchange (d : Description) : Description :=
  { d with a := d.b, b := d.a, idsA := d.idsB, idsB := d.idsA }

namespace Problem

section

variable {p q : Problem} (h : q.toDescription = p.toDescription.exchange)
include h

theorem exchange_symm : p.toDescription = q.toDescription.exchange := by
  rw [h]
  rfl

theorem c_exchange : q.c = p.c := by
  rw [h]
  rfl

theorem usedA_exchange : q.usedA = p.usedB := by
  rw [usedA, h]
  rfl

theorem usedB_exchange : q.usedB = p.usedA := by
  rw [usedB, h]
  rfl

theorem legsA_exchange : q.legsA = p.legsB := by
  rw [legsA, h]
  rfl

theorem legsB_exchange : q.legsB = p.legsA := by
  rw [legsB, h]
  rfl

theorem profile_exchange : q.profile = p.profile := by
  rw [h]
  rfl

/-- **A contraction without gaps** stays one. -/
theorem IsContraction.exchange {s : Nat} (hp : p.IsContraction s) : q.IsContraction s where
  sum_pos := hp.sum_pos
  nodupA := by rw [usedA_exchange h]; exact hp.nodupB
  nodupB := by rw [usedB_exchange h]; exact hp.nodupA
  lt_of_used id hid := by
    rw [usedA_exchange h, usedB_exchange h] at hid
    rw [c_exchange h]
    exact hp.lt_of_used id hid.symm
  used_beyond id hle hlt := by
    rw [c_exchange h] at hle hlt
    rw [usedA_exchange h, usedB_exchange h]
    exact (hp.used_beyond id hle hlt).symm
  length_own := by
    rw [c_exchange h, usedA_exchange h, usedB_exchange h]
    exact hp.length_own.symm
  own_pos := by
    rw [c_exchange h, usedA_exchange h, usedB_exchange h, ← hp.length_own]
    exact hp.own_pos

/-- **The extents** stay the same. -/
theorem HasExtents.exchange {extent : Nat → UInt64} (hp : p.HasExtents extent) :
    q.HasExtents extent := by
  intro leg hleg
  rw [legsC, c_exchange h, legsA_exchange h, legsB_exchange h] at hleg
  exact hp leg (hleg.imp_right Or.symm)

/-- **Validation accepts** what it accepts. -/
theorem validate_exchange {config : ValidationConfig} (hp : p.validate config = .ok ()) :
    q.validate config = .ok () :=
  validate_eq_ok_of (fun _ => IsContraction.exchange h) (fun _ => HasExtents.exchange h)
    (profile_exchange h) hp

/-- **The operation count** of an accepted problem stays the same, if sizes are checked. -/
theorem numFlops_exchange {config : ValidationConfig} (hcheck : config.checkSizes = true)
    (hp : p.validate config = .ok ()) : q.numFlops = p.numFlops := by
  obtain ⟨s, hs, hsizes, -⟩ := validate_eq_ok_iff_isContraction.1 hp
  obtain ⟨extent, hextent⟩ := hsizes hcheck
  rw [hs.numFlops_eq hextent, (hs.exchange h).numFlops_eq (hextent.exchange h), c_exchange h]

/-- The pairs hold the same positions, the other way around. -/
theorem summation_exchange (hsummed : q.summed = p.summed) :
    q.summation = p.summation.map SummationPair.swap := by
  rw [summation_eq, summation_eq, hsummed, usedA_exchange h, usedB_exchange h, List.map_map]
  rfl

end

/-- **Operands of the same rank can be exchanged**: both descriptions are refused for the same
reason, or both are those of problems. These have the same free and batch indices and the
same summation pairs, the other way around; validation accepts both or none; and if it
accepts them with sizes checked, they take as many operations. -/
theorem ofDescription_exchange (d : Description) (hrank : d.a.rank = d.b.rank)
    (hA : d.idsA.length = d.a.rank) (hB : d.idsB.length = d.b.rank) :
    (∃ e, ofDescription d = .error e ∧ ofDescription d.exchange = .error e) ∨
      ∃ p q, ofDescription d = .ok p ∧ ofDescription d.exchange = .ok q ∧
        q.free = p.free ∧ q.batch = p.batch ∧
        q.summation = p.summation.map SummationPair.swap ∧
        (∀ config, q.validate config = .ok () ↔ p.validate config = .ok ()) ∧
        ∀ config, config.checkSizes = true → p.validate config = .ok () →
          q.numFlops = p.numFlops := by
  have hlength : (d.idsA.map UInt64.toNat).length = (d.idsB.map UInt64.toNat).length := by
    rw [List.length_map, List.length_map, hA, hB, hrank]
  rcases ofDescription_of_useAlike d.exchange hA hB hB hA rfl (.exchange hlength) with
    herror | ⟨p, q, hp, hq, rfl, h, hfree, hbatch, hsummed⟩
  · exact .inl herror
  · refine .inr ⟨p, q, hp, hq, hfree, hbatch, summation_exchange h hsummed, fun config => ?_,
      fun config => numFlops_exchange h⟩
    exact ⟨validate_exchange (exchange_symm h), validate_exchange h⟩

/-- The batch of two products, the other way around, is accepted, and takes as many
operations. -/
theorem ofDescription_exchange_batchedProduct :
    ∃ q, ofDescription batchedProduct.toDescription.exchange = .ok q ∧
      q.summation = [⟨0, 2⟩] ∧ q.validate .standard = .ok () ∧ q.numFlops = 384 := by
  rcases ofDescription_exchange batchedProduct.toDescription rfl rfl rfl with
    ⟨e, he, -⟩ | ⟨p, q, hp, hq, -, -, hsummation, hvalidate, hflops⟩
  · cases he
  · cases hp
    exact ⟨q, hq, hsummation, (hvalidate .standard).2 rfl, hflops .standard rfl rfl⟩

end Problem

end TensorContraction
