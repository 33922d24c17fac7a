import TensorContraction.Proofs.Encoding.ReadBack
import TensorContraction.Proofs.Index.Partition

/-!
# The written parts of a problem

Part by part: the element that holds it is plain, so that it can be read at all, and
reading its attributes gives the part back. The devices are the one exception, since
their names are written in safe form: what is read is the profile under safe names
(`TensorContraction.Encoding.readProfile_profileElement`).

The lists of a problem are written with their lengths, and a length is read as a word.
So the lists must be no longer than words can count, which is what
`TensorContraction.Description.IsAddressable` says: it holds of every problem that a
machine can hold.
-/

namespace TensorContraction

/-- **What a machine can hold**: no list of the description is longer than words can
count. -/
structure Description.IsAddressable (d : Description) : Prop where
  /-- The rank of the output is a word. -/
  c : d.c.rank < UInt64.size
  /-- The rank of the left operand is a word. -/
  a : d.a.rank < UInt64.size
  /-- The rank of the right operand is a word. -/
  b : d.b.rank < UInt64.size
  /-- The number of devices is a word. -/
  profile : d.profile.numDevices < UInt64.size

namespace Encoding

open Markup

/-! ### Tags -/

theorem isWord_tag (part : Part) : isWord part.tag.toList = true := by
  cases part <;> decide

theorem isPlain_problemElement : problemElement.IsPlain where
  tag := isWord_tag .problem
  names := fun _ hattr => absurd hattr List.not_mem_nil
  values := fun _ hattr => absurd hattr List.not_mem_nil
  nodup := List.nodup_nil
  declares := List.not_mem_nil

/-! ### Tensors -/

theorem writesEntries_dimension : WritesEntries ["st", "sz"] dimensionAttributes where
  words := by decide
  noDigits := by decide
  nodup := by decide
  names := fun _ _ => rfl
  values := by
    intro k dimension attr hattr c hc
    simp only [dimensionAttributes, numeric, List.mem_cons, List.not_mem_nil, or_false] at hattr
    rcases hattr with rfl | rfl <;> exact isWordCharacter_of_mem_text hc

theorem holdsList_tensor {name : String} (hname : isWord ("T" ++ name).toList = true) (t : Tensor) :
    HoldsList (tensorElement name t) [numeric "t" t.dataType.tag] ["st", "sz"]
      dimensionAttributes t.dimensions where
  attributes := rfl
  writes := writesEntries_dimension
  tag := hname
  ownNames := by
    intro attr hattr
    obtain rfl := List.mem_singleton.1 hattr
    exact show isWord "t".toList = true ∧ isStem "t" = true by decide
  ownValues := by
    intro attr hattr c hc
    obtain rfl := List.mem_singleton.1 hattr
    exact isWordCharacter_of_mem_text hc
  ownNodup := show ["n", declaringLabel, "t"].Nodup by decide

/-- **A tensor is read back.** -/
theorem readTensor_tensorElement {name : String} (hname : isWord ("T" ++ name).toList = true)
    {t : Tensor} (ht : t.rank < UInt64.size) : readTensor (tensorElement name t) = .ok t := by
  have hlist := holdsList_tensor hname t
  have hnodup := hlist.isPlain.nodup
  have htype : dataType (tensorElement name t) "t" = .ok t.dataType :=
    dataType_eq hnodup List.mem_cons_self
  have hdimensions : readList (tensorElement name t) ["st", "sz"]
      (dimensionAt (tensorElement name t)) = .ok t.dimensions := by
    refine hlist.readList_eq ht fun k hk hmem => ?_
    have hstride := word_eq hnodup (hmem _ List.mem_cons_self)
    have hsize := word_eq hnodup (hmem _ (List.mem_cons_of_mem _ List.mem_cons_self))
    rw [dimensionAt, hstride, hsize]
    rfl
  rw [readTensor, htype, hdimensions]
  rfl

/-! ### Assignments -/

theorem writesEntries_index :
    WritesEntries ["i"] fun k (id : UInt64) => [numeric (entryName "i" k) id.toNat] where
  words := by decide
  noDigits := by decide
  nodup := by decide
  names := fun _ _ => rfl
  values := by
    intro k id attr hattr c hc
    obtain rfl := List.mem_singleton.1 hattr
    exact isWordCharacter_of_mem_text hc

theorem holdsList_assignment (part : Part) (ids : List UInt64) :
    HoldsList (assignmentElement part ids) [] ["i"]
      (fun k id => [numeric (entryName "i" k) id.toNat]) ids where
  attributes := rfl
  writes := writesEntries_index
  tag := isWord_tag part
  ownNames := fun _ hattr => absurd hattr List.not_mem_nil
  ownValues := fun _ hattr => absurd hattr List.not_mem_nil
  ownNodup := by decide

/-- **An assignment is read back.** -/
theorem readAssignment_assignmentElement (part : Part) {ids : List UInt64}
    (hids : ids.length < UInt64.size) :
    readAssignment (assignmentElement part ids) = .ok ids := by
  have hlist := holdsList_assignment part ids
  refine hlist.readList_eq hids fun k hk hmem => ?_
  exact word_eq hlist.isPlain.nodup (hmem _ List.mem_cons_self)

/-! ### Devices -/

/-- The characters of safe names are those of words. -/
theorem isWordCharacter_of_mem_safeName {name : String} {c : Char}
    (hc : c ∈ (safeName name).toList) : isWordCharacter c = true := by
  rw [safeName, String.toList_ofList] at hc
  obtain ⟨d, -, rfl⟩ := List.mem_map.1 hc
  rw [safeChar]
  split
  · next h => rw [isWordCharacter, h, Bool.true_or]
  · decide

theorem writesEntries_device : WritesEntries ["d", "CU", "MHz", "FPC"] deviceAttributes where
  words := by decide
  noDigits := by decide
  nodup := by decide
  names := fun _ _ => rfl
  values := by
    intro k device attr hattr c hc
    simp only [deviceAttributes, numeric, List.mem_cons, List.not_mem_nil, or_false] at hattr
    rcases hattr with rfl | rfl | rfl | rfl
    · exact isWordCharacter_of_mem_safeName hc
    all_goals exact isWordCharacter_of_mem_text hc

theorem holdsList_profile (profile : DeviceProfile) :
    HoldsList (profileElement profile) [] ["d", "CU", "MHz", "FPC"] deviceAttributes
      profile.devices where
  attributes := rfl
  writes := writesEntries_device
  tag := isWord_tag .profile
  ownNames := fun _ hattr => absurd hattr List.not_mem_nil
  ownValues := fun _ hattr => absurd hattr List.not_mem_nil
  ownNodup := by decide

/-- Safe names are written as they are. -/
theorem profileElement_withSafeNames (profile : DeviceProfile) :
    profileElement profile.withSafeNames = profileElement profile := by
  have hdevice : ∀ k device, deviceAttributes k (Device.withSafeName device) =
      deviceAttributes k device := by
    intro k device
    simp only [deviceAttributes, Device.withSafeName, safeName_safeName]
  have hentries : (profile.devices.map Device.withSafeName).mapIdx deviceAttributes =
      profile.devices.mapIdx deviceAttributes := by
    refine List.ext_getElem (by simp) fun k hk hk' => ?_
    simp [hdevice]
  simp only [profileElement, listAttributes, DeviceProfile.withSafeNames, hentries,
    List.length_map]

/-- **A profile is read back under safe names.** -/
theorem readProfile_profileElement {profile : DeviceProfile}
    (hprofile : profile.numDevices < UInt64.size) :
    readProfile (profileElement profile) = .ok profile.withSafeNames := by
  rw [← profileElement_withSafeNames]
  have hlist := holdsList_profile profile.withSafeNames
  have hnodup := hlist.isPlain.nodup
  have hlength : profile.withSafeNames.devices.length < UInt64.size := by
    rwa [DeviceProfile.withSafeNames, List.length_map]
  have hdevices : readList (profileElement profile.withSafeNames) ["d", "CU", "MHz", "FPC"]
      (deviceAt (profileElement profile.withSafeNames)) = .ok profile.withSafeNames.devices := by
    refine hlist.readList_eq hlength fun k hk hmem => ?_
    simp only [deviceAttributes, List.mem_cons, List.not_mem_nil, or_false, forall_eq_or_imp,
      forall_eq] at hmem
    obtain ⟨hname, hunits, hclock, hflops⟩ := hmem
    have hsafe : safeName profile.withSafeNames.devices[k].name =
        profile.withSafeNames.devices[k].name := by
      simp [DeviceProfile.withSafeNames, Device.withSafeName, safeName_safeName]
    rw [hsafe] at hname
    rw [deviceAt, valueOf_eq hnodup hname, halfWord_eq hnodup hunits, halfWord_eq hnodup hclock,
      halfWord_eq hnodup hflops]
    rfl
  rw [readProfile, hdevices]
  rfl

/-! ### The operation -/

theorem isPlain_operationElement (p : Problem) : (operationElement p).IsPlain where
  tag := isWord_tag .operation
  names := by
    have hnames : ∀ name ∈ ["t", "a", "b", "o", "nF", "nB", "nS"], isWord name.toList = true := by
      decide
    exact fun attr hattr => hnames attr.1 (List.mem_map_of_mem (f := Prod.fst) hattr)
  values := by
    intro attr hattr c hc
    simp only [operationElement, numeric, List.mem_cons, List.not_mem_nil, or_false] at hattr
    rcases hattr with rfl | rfl | rfl | rfl | rfl | rfl | rfl <;>
      exact isWordCharacter_of_mem_text hc
  nodup := show ["t", "a", "b", "o", "nF", "nB", "nS"].Nodup by decide
  declares := show declaringLabel ∉ ["t", "a", "b", "o", "nF", "nB", "nS"] by decide

theorem readSwitch?_text (b : Bool) : readSwitch? (Decimal.text b.toNat) = some b := by
  cases b <;> decide

/-- The counts that are written with a problem. -/
def countsOf (p : Problem) : Counts :=
  ⟨UInt64.ofNat p.free.length, UInt64.ofNat p.batch.length, UInt64.ofNat p.summation.length⟩

section

variable {p : Problem} (h : p.IsAddressable)
include h

/-- The counts of a problem are words, for no index has two roles. -/
theorem toNat_countsOf : (countsOf p).free.toNat = p.free.length ∧
    (countsOf p).batch.toNat = p.batch.length ∧
    (countsOf p).summation.toNat = p.summation.length :=
  ⟨UInt64.toNat_ofNat_of_lt' (p.length_free_le.trans_lt h.c),
    UInt64.toNat_ofNat_of_lt' (p.length_batch_le.trans_lt h.c),
    UInt64.toNat_ofNat_of_lt' (p.length_summation_le.trans_lt h.a)⟩

/-- **The operation is read back**, with the counts. -/
theorem readOperation_operationElement :
    readOperation (operationElement p) = .ok (p.operation, countsOf p) := by
  obtain ⟨hfree, hbatch, hsummation⟩ := toNat_countsOf h
  have hnodup := (isPlain_operationElement p).nodup
  have hattributes : (operationElement p).attributes =
      [numeric "t" p.operation.type.tag, numeric "a" p.operation.alpha.tag,
        numeric "b" p.operation.beta.tag, numeric "o" p.operation.useOffsets.toNat,
        numeric "nF" (countsOf p).free.toNat, numeric "nB" (countsOf p).batch.toNat,
        numeric "nS" (countsOf p).summation.toNat] := by
    rw [hfree, hbatch, hsummation]
    rfl
  have htype : operationType (operationElement p) "t" = .ok p.operation.type :=
    operationType_eq hnodup (by simp [hattributes])
  have halpha : dataType (operationElement p) "a" = .ok p.operation.alpha :=
    dataType_eq hnodup (by simp [hattributes])
  have hbeta : dataType (operationElement p) "b" = .ok p.operation.beta :=
    dataType_eq hnodup (by simp [hattributes])
  have hswitch : numeric "o" p.operation.useOffsets.toNat ∈ (operationElement p).attributes := by
    simp [hattributes]
  have hoffsets : parsed readSwitch? (operationElement p) "o" = .ok p.operation.useOffsets :=
    parsed_eq hnodup hswitch (readSwitch?_text _)
  have hF : word (operationElement p) "nF" = .ok (countsOf p).free :=
    word_eq hnodup (by simp [hattributes])
  have hB : word (operationElement p) "nB" = .ok (countsOf p).batch :=
    word_eq hnodup (by simp [hattributes])
  have hS : word (operationElement p) "nS" = .ok (countsOf p).summation :=
    word_eq hnodup (by simp [hattributes])
  rw [readOperation, htype, hoffsets, halpha, hbeta, hF, hB, hS]
  rfl

end

end Encoding

end TensorContraction
