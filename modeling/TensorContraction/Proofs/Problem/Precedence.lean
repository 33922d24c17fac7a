import TensorContraction.Proofs.Problem.Acceptance
import TensorContraction.Proofs.Problem.Blame

/-!
# What the settings of validation decide

Two settings can be made: whether sizes are compared, and how many devices a profile may hold.
Neither changes what a rule says, and the rules that depend on them come last. Of a problem
with several faults, the same one is thus reported whatever the settings are
(`TensorContraction.Problem.validate_precedence`):

1. a fault of the structure – ranks, counts or ids – under all settings;
2. of a problem with a sound structure, a size that disagrees, under all settings that compare
   sizes;
3. of a problem that passes all that is asked for, the number of devices.

**A size disagrees** if two dimensions carry the same id and differ in size
(`TensorContraction.Problem.SizesDisagree`). The rule on sizes compares a dimension of an
operand with one other dimension only; for a sound structure that is enough to find every
disagreement.
-/

namespace TensorContraction

namespace Problem

/-! ### Sizes that disagree -/

/-- A leg of one of the three tensors. -/
def IsLeg (p : Problem) (leg : Leg) : Prop :=
  leg ∈ p.legsC ∨ leg ∈ p.legsA ∨ leg ∈ p.legsB

/-- **Sizes disagree**: two legs have the same id and different sizes. -/
def SizesDisagree (p : Problem) : Prop :=
  ∃ leg leg', p.IsLeg leg ∧ p.IsLeg leg' ∧ leg.id = leg'.id ∧ leg.size ≠ leg'.size

/-- **Sizes that do not disagree** are those of extents. -/
theorem not_sizesDisagree_iff {p : Problem} :
    ¬p.SizesDisagree ↔ ∃ extent, p.HasExtents extent := by
  constructor
  · intro h
    have hsize : ∀ id, ∃ size, ∀ leg, p.IsLeg leg → leg.id = id → leg.size = size := by
      intro id
      by_cases hid : ∃ leg, p.IsLeg leg ∧ leg.id = id
      · obtain ⟨leg, hleg, rfl⟩ := hid
        refine ⟨leg.size, fun leg' hleg' hid' => ?_⟩
        by_contra hne
        exact h ⟨leg', leg, hleg', hleg, hid', hne⟩
      · exact ⟨0, fun leg hleg hid' => absurd ⟨leg, hleg, hid'⟩ hid⟩
    choose extent hextent using hsize
    exact ⟨extent, fun leg hleg => hextent leg.id leg hleg rfl⟩
  · rintro ⟨extent, hextent⟩ ⟨leg, leg', hleg, hleg', hid, hne⟩
    exact hne (by rw [hextent leg hleg, hextent leg' hleg', hid])

/-! ### Sound structures -/

/-- **A sound structure**: the rules on ranks, counts and ids find nothing. -/
structure IsSound (p : Problem) : Prop where
  /-- The operands have the same rank. -/
  ranks : p.validateRanks = .ok ()
  /-- The numbers of indices by role fit. -/
  counts : p.validateIndexCounts = .ok ()
  /-- The ids are in range. -/
  assignments : p.validateAssignments = .ok ()

variable {p : Problem} {config : ValidationConfig} {e : ValidationError}

/-- **A sound structure** is that of a contraction without gaps. -/
theorem isSound_iff : p.IsSound ↔ ∃ s, p.IsContraction s := by
  rw [exists_isContraction_iff]
  exact ⟨fun h => ⟨h.ranks, h.counts, h.assignments⟩, fun h => ⟨h.1, h.2.1, h.2.2⟩⟩

/-- **The rule on sizes** finds every disagreement. -/
theorem IsSound.validateSizes_eq_ok_iff (h : p.IsSound) :
    p.validateSizes = .ok () ↔ ¬p.SizesDisagree := by
  obtain ⟨s, hs⟩ := isSound_iff.1 h
  rw [hs.validateSizes_iff, not_sizesDisagree_iff]

/-- **A disagreement is reported** by its position. -/
theorem IsSound.exists_of_sizesDisagree (h : p.IsSound) (hsizes : p.SizesDisagree) :
    ∃ operand i, p.validateSizes = .error (.assignmentInvalid operand i) := by
  cases hcheck : p.validateSizes with
  | ok u => exact absurd hsizes (h.validateSizes_eq_ok_iff.1 hcheck)
  | error e =>
    obtain ⟨operand, i, rfl⟩ := exists_eq_of_validateSizes h.ranks h.counts hcheck
    exact ⟨operand, i, rfl⟩

/-! ### Rules and settings -/

/-- The rule on devices reports their number and the bound. -/
theorem validateDevices_eq_error_iff {maxDevices : UInt64} :
    p.validateDevices maxDevices = .error e ↔
      (p.profile.numDevices = 0 ∨ maxDevices.toNat < p.profile.numDevices) ∧
        e = .numDevicesInvalid p.profile.numDevices maxDevices.toNat := by
  rw [validateDevices, ← Nat.lt_one_iff (n := p.profile.numDevices)]
  by_cases h : p.profile.numDevices < 1 ∨ maxDevices.toNat < p.profile.numDevices
  · rw [if_pos h, Except.error.injEq, and_iff_right h, eq_comm]
  · rw [if_neg h]
    exact iff_of_false (fun heq => by cases heq) fun hand => h hand.1

/-- **A fault of structure** does not depend on the settings; it is not about devices. -/
theorem isSound_or_error (p : Problem) : p.IsSound ∨
    ∃ e, (∀ config, p.validate config = .error e) ∧ ∀ n max, e ≠ .numDevicesInvalid n max := by
  cases hranks : p.validateRanks with
  | error e =>
    refine .inr ⟨e, fun config => validate_eq_error_iff_rules.2 (.inl hranks), ?_⟩
    rintro n max rfl
    rw [validateRanks] at hranks
    split at hranks <;> cases hranks
  | ok u =>
    cases hcounts : p.validateIndexCounts with
    | error e =>
      refine .inr ⟨e, fun config => validate_eq_error_iff_rules.2 (.inr ⟨hranks, .inl hcounts⟩), ?_⟩
      rintro n max rfl
      rw [validateIndexCounts] at hcounts
      split_ifs at hcounts <;> cases hcounts
    | ok u =>
      cases hassignments : p.validateAssignments with
      | error e =>
        refine .inr ⟨e, fun config => validate_eq_error_iff_rules.2
          (.inr ⟨hranks, .inr ⟨hcounts, .inl hassignments⟩⟩), ?_⟩
        obtain ⟨operand, i, rfl⟩ := exists_eq_of_validateAssignments hranks hcounts hassignments
        intro n max heq
        cases heq
      | ok u => exact .inl ⟨hranks, hcounts, hassignments⟩

/-- **Of a sound structure** whose sizes agree, if they are compared, nothing is left to report
but devices. -/
theorem IsSound.validate_eq (h : p.IsSound)
    (hsizes : config.checkSizes = true → ¬p.SizesDisagree) :
    p.validate config = p.validateDevices config.maxDevices := by
  have hagree : config.checkSizes = true → p.validateSizes = .ok () := fun hcheck =>
    h.validateSizes_eq_ok_iff.2 (hsizes hcheck)
  cases hdevices : p.validateDevices config.maxDevices with
  | ok u =>
    exact validate_eq_ok_iff_rules.2 ⟨h.ranks, h.counts, h.assignments, hagree, hdevices⟩
  | error e =>
    exact validate_eq_error_iff_rules.2
      (.inr ⟨h.ranks, .inr ⟨h.counts, .inr ⟨h.assignments, .inr ⟨hagree, hdevices⟩⟩⟩⟩)

/-- **A disagreement is reported** under all settings that compare sizes. -/
theorem IsSound.validate_eq_of_sizesDisagree (h : p.IsSound) (hsizes : p.SizesDisagree) :
    ∃ operand i, ∀ config, config.checkSizes = true →
      p.validate config = .error (.assignmentInvalid operand i) := by
  obtain ⟨operand, i, herror⟩ := h.exists_of_sizesDisagree hsizes
  refine ⟨operand, i, fun config hcheck => validate_eq_error_iff_rules.2 ?_⟩
  exact .inr ⟨h.ranks, .inr ⟨h.counts, .inr ⟨h.assignments, .inl ⟨hcheck, herror⟩⟩⟩⟩

/-- **The number of devices is reported** of a problem that passes all that is asked for. -/
theorem validate_eq_numDevicesInvalid_iff {n max : Nat} :
    p.validate config = .error (.numDevicesInvalid n max) ↔
      p.IsSound ∧ (config.checkSizes = true → p.validateSizes = .ok ()) ∧
        (p.profile.numDevices = 0 ∨ config.maxDevices.toNat < p.profile.numDevices) ∧
          n = p.profile.numDevices ∧ max = config.maxDevices.toNat := by
  constructor
  · intro h
    rcases p.isSound_or_error with hsound | ⟨e, herror, hne⟩
    · have hsizes : config.checkSizes = true → ¬p.SizesDisagree := by
        intro hcheck hdisagree
        obtain ⟨operand, i, herror⟩ := hsound.validate_eq_of_sizesDisagree hdisagree
        rw [herror config hcheck] at h
        cases h
      rw [hsound.validate_eq hsizes, validateDevices_eq_error_iff] at h
      obtain ⟨hdevices, heq⟩ := h
      obtain ⟨rfl, rfl⟩ := ValidationError.numDevicesInvalid.inj heq
      exact ⟨hsound, fun hcheck => hsound.validateSizes_eq_ok_iff.2 (hsizes hcheck), hdevices,
        rfl, rfl⟩
    · rw [herror config] at h
      exact absurd (Except.error.inj h) (hne n max)
  · rintro ⟨hsound, hagree, hdevices, rfl, rfl⟩
    rw [hsound.validate_eq fun hcheck => hsound.validateSizes_eq_ok_iff.1 (hagree hcheck)]
    exact validateDevices_eq_error_iff.2 ⟨hdevices, rfl⟩

/-- **More permissive settings** accept what others do. -/
theorem validate_eq_ok_mono {config' : ValidationConfig}
    (hsizes : config'.checkSizes = true → config.checkSizes = true)
    (hdevices : config.maxDevices.toNat ≤ config'.maxDevices.toNat)
    (h : p.validate config = .ok ()) : p.validate config' = .ok () := by
  obtain ⟨hranks, hcounts, hassignments, hagree, haccept⟩ := validate_eq_ok_iff_rules.1 h
  obtain ⟨hpos, hle⟩ := validateDevices_eq_ok_iff.1 haccept
  exact validate_eq_ok_iff_rules.2 ⟨hranks, hcounts, hassignments, fun hcheck =>
    hagree (hsizes hcheck), validateDevices_eq_ok_iff.2 ⟨hpos, Nat.le_trans hle hdevices⟩⟩

/-! ### Precedence -/

/-- **Settings only filter, in a fixed precedence.** What is reported without a look at the
sizes, unless it is the number of devices, is reported under all settings. Otherwise the
structure is sound, and sizes disagree if and only if a position is reported, the same one
under all settings that compare sizes; where they agree or are not compared, the rule on
devices decides. The number of devices is reported if and only if all rules before find
nothing and the number is zero or above the bound. So a problem that is accepted stays so if
sizes are no longer compared or the bound is raised. -/
theorem validate_precedence (p : Problem) :
    (∀ relaxed : ValidationConfig, relaxed.checkSizes = false → ∀ e,
      p.validate relaxed = .error e → (∀ n max, e ≠ .numDevicesInvalid n max) →
        ∀ config, p.validate config = .error e) ∧
    (∀ relaxed : ValidationConfig, relaxed.checkSizes = false →
      (p.validate relaxed = .ok () ∨
        ∃ n max, p.validate relaxed = .error (.numDevicesInvalid n max)) →
        (p.SizesDisagree ↔ ∃ operand i, ∀ config, config.checkSizes = true →
          p.validate config = .error (.assignmentInvalid operand i)) ∧
        ∀ config, (config.checkSizes = true → ¬p.SizesDisagree) →
          p.validate config = p.validateDevices config.maxDevices) ∧
    (∀ config n max, p.validate config = .error (.numDevicesInvalid n max) ↔
      (p.validateRanks = .ok () ∧ p.validateIndexCounts = .ok () ∧
        p.validateAssignments = .ok () ∧
        (config.checkSizes = true → p.validateSizes = .ok ())) ∧
      (p.profile.numDevices = 0 ∨ config.maxDevices.toNat < p.profile.numDevices) ∧
      n = p.profile.numDevices ∧ max = config.maxDevices.toNat) ∧
    (∀ config config' : ValidationConfig,
      (config'.checkSizes = true → config.checkSizes = true) →
        config.maxDevices.toNat ≤ config'.maxDevices.toNat →
        p.validate config = .ok () → p.validate config' = .ok ()) := by
  have hunchecked {relaxed : ValidationConfig} (hrelaxed : relaxed.checkSizes = false) :
      relaxed.checkSizes = true → ¬p.SizesDisagree := by
    rw [hrelaxed]
    intro hcheck
    cases hcheck
  refine ⟨fun relaxed hrelaxed e he hne config => ?_, fun relaxed hrelaxed hverdict => ?_,
    fun config n max => ?_, fun config config' => validate_eq_ok_mono⟩
  · rcases p.isSound_or_error with hsound | ⟨e', herror, -⟩
    · rw [hsound.validate_eq (hunchecked hrelaxed), validateDevices_eq_error_iff] at he
      exact absurd he.2 (hne _ _)
    · rw [herror relaxed] at he
      rw [herror config, Except.error.inj he]
  · have hsound : p.IsSound := by
      refine p.isSound_or_error.resolve_right ?_
      rintro ⟨e, herror, hne⟩
      rw [herror relaxed] at hverdict
      rcases hverdict with h | ⟨n, max, h⟩
      · cases h
      · exact hne n max (Except.error.inj h)
    refine ⟨⟨hsound.validate_eq_of_sizesDisagree, ?_⟩, fun config => hsound.validate_eq⟩
    rintro ⟨operand, i, herror⟩
    by_contra hagree
    have hdevices := herror .standard rfl
    rw [hsound.validate_eq fun _ => hagree, validateDevices_eq_error_iff] at hdevices
    cases hdevices.2
  · rw [validate_eq_numDevicesInvalid_iff, ← and_assoc]
    refine and_congr_left' ⟨?_, ?_⟩
    · rintro ⟨hsound, hagree⟩
      exact ⟨hsound.ranks, hsound.counts, hsound.assignments, hagree⟩
    · rintro ⟨hranks, hcounts, hassignments, hagree⟩
      exact ⟨⟨hranks, hcounts, hassignments⟩, hagree⟩

/-- Problems with two faults, for settings that allow no device at all: a fault of structure and
one of sizes hide the number of devices, which is reported once sizes are not compared. -/
theorem validate_precedence_twoFaults :
    (∀ config, repeatedProduct.validate config = .error (.numFreeInvalid 3)) ∧
      disagreeingProduct.SizesDisagree ∧
      (∃ operand i, ∀ maxDevices,
        disagreeingProduct.validate ⟨maxDevices, true⟩ = .error (.assignmentInvalid operand i)) ∧
      disagreeingProduct.validate ⟨0, false⟩ = .error (.numDevicesInvalid 1 0) ∧
      batchedProduct.validate ⟨3, false⟩ = .ok () := by
  obtain ⟨hstructure, -, -, -⟩ := validate_precedence repeatedProduct
  obtain ⟨-, hsizes, hdevices, -⟩ := validate_precedence disagreeingProduct
  obtain ⟨-, -, -, hmono⟩ := validate_precedence batchedProduct
  have hdisagree : disagreeingProduct.SizesDisagree :=
    ⟨⟨3, 3⟩, ⟨3, 7⟩, .inr (.inl (.head _)), .inr (.inr (.tail _ (.head _))), rfl, by decide⟩
  obtain ⟨operand, i, herror⟩ := (hsizes .relaxed rfl (.inl rfl)).1.1 hdisagree
  refine ⟨hstructure .relaxed rfl _ rfl (fun n max h => by cases h), hdisagree,
    ⟨operand, i, fun maxDevices => herror ⟨maxDevices, true⟩ rfl⟩, ?_, ?_⟩
  · have hsound : disagreeingProduct.validateRanks = .ok () ∧
        disagreeingProduct.validateIndexCounts = .ok () ∧
        disagreeingProduct.validateAssignments = .ok () := ⟨rfl, rfl, rfl⟩
    exact (hdevices ⟨0, false⟩ 1 0).2
      ⟨⟨hsound.1, hsound.2.1, hsound.2.2, fun h => by cases h⟩, .inr (by decide), rfl, rfl⟩
  · exact hmono .standard ⟨3, false⟩ (fun h => by cases h) (by decide) rfl

end Problem

end TensorContraction
