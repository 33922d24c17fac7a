import TensorContraction.Proofs.Index.Name
import TensorContraction.Proofs.Problem.TotalOrder
import TensorContraction.Proofs.Problem.Volume

/-!
# What the formula of a problem tells

The formula is four lists between brackets. Names and numerals are made of letters and digits,
a sized index has one colon in it, and so no item of a list has a comma in it and no list has
the bracket that closes it: the text is taken apart in one way only
(`TensorContraction.Problem.formula_eq_iff_lists`).

What it tells of a problem is thus what the four lists do. The first one has the sizes of the
output, the last two the assignments, and from these the summation pairs follow. The second
list adds the sizes that `A` has at the positions of the pairs. Nothing else of a problem shows:
not the types and strides, not the sizes of `B`, not the operation and not the devices.

The second list is made by looking the positions of the pairs up in the assignment and in the
dimensions of `A`. Neither look-up ever fails
(`TensorContraction.Problem.formulaByPosition_eq`).
-/

namespace TensorContraction

/-! ### Taking a text apart -/

section

variable {α : Type} {c : α} {s s' t t' : List α}

/-- **A text is taken apart** at the first place where it has a certain character. -/
theorem append_cons_inj (hs : c ∉ s) (hs' : c ∉ s') :
    s ++ c :: t = s' ++ c :: t' ↔ s = s' ∧ t = t' := by
  constructor
  · intro h
    induction s generalizing s' with
    | nil =>
      cases s' with
      | nil => exact ⟨rfl, (List.cons.inj h).2⟩
      | cons d s' => exact absurd ((List.cons.inj h).1 ▸ List.mem_cons_self) hs'
    | cons d s ih =>
      rw [List.mem_cons, not_or] at hs
      cases s' with
      | nil => exact absurd (List.cons.inj h).1.symm hs.1
      | cons d' s' =>
        rw [List.mem_cons, not_or] at hs'
        obtain ⟨rfl, htail⟩ := List.cons.inj h
        obtain ⟨rfl, rfl⟩ := ih hs.2 hs'.2 htail
        exact ⟨rfl, rfl⟩
  · rintro ⟨rfl, rfl⟩
    rfl

end

/-- The characters that stand between the signs of a formula. -/
def isPlain (c : Char) : Bool :=
  c.isAlphanum || c == ':'

/-- **An item of a list** in a formula. -/
structure IsItem (s : String) : Prop where
  /-- There is something to be seen. -/
  ne_nil : s.toList ≠ []
  /-- It has no sign in it that has a meaning in a formula. -/
  isPlain : ∀ c ∈ s.toList, isPlain c = true

/-- A list in a formula has no sign in it but commas. -/
theorem notMem_intercalate {l : List String} (hl : ∀ s ∈ l, IsItem s) {c : Char}
    (hc : isPlain c = false) (hcomma : c ≠ ',') : c ∉ (",".intercalate l).toList := by
  induction l with
  | nil => exact List.not_mem_nil
  | cons s l ih =>
    have hs : c ∉ s.toList := fun hmem => by
      have hplain := (hl s List.mem_cons_self).isPlain c hmem
      rw [hc] at hplain
      cases hplain
    cases l with
    | nil => rwa [String.intercalate_singleton]
    | cons s' l =>
      have hrest := ih fun u hu => hl u (List.mem_cons_of_mem s hu)
      rw [String.intercalate_cons_cons, String.toList_append, String.toList_append,
        List.mem_append, List.mem_append, not_or, not_or]
      exact ⟨⟨hs, fun h => hcomma (List.mem_singleton.1 h)⟩, hrest⟩

/-- A list in a formula is empty if and only if nothing is to be seen of it. -/
theorem intercalate_eq_nil_iff {l : List String} (hl : ∀ s ∈ l, IsItem s) :
    (",".intercalate l).toList = [] ↔ l = [] := by
  cases l with
  | nil => exact iff_of_true rfl rfl
  | cons s l =>
    refine iff_of_false (fun h => (hl s List.mem_cons_self).ne_nil ?_) (List.cons_ne_nil s l)
    cases l with
    | nil => rwa [String.intercalate_singleton] at h
    | cons s' l =>
      rw [String.intercalate_cons_cons, String.toList_append, String.toList_append,
        List.append_eq_nil_iff, List.append_eq_nil_iff] at h
      exact h.1.1

/-- **The items of a list** are told by the list. -/
theorem intercalate_inj {l l' : List String} (hl : ∀ s ∈ l, IsItem s) (hl' : ∀ s ∈ l', IsItem s) :
    (",".intercalate l).toList = (",".intercalate l').toList ↔ l = l' := by
  refine ⟨fun h => ?_, fun h => h ▸ rfl⟩
  by_cases hne : l = []
  · rw [(intercalate_eq_nil_iff hl).2 hne, eq_comm, intercalate_eq_nil_iff hl'] at h
    rw [hne, h]
  · have hne' : l' ≠ [] := fun hnil => hne <| by
      rwa [(intercalate_eq_nil_iff hl').2 hnil, intercalate_eq_nil_iff hl] at h
    -- no item has a comma in it, so that splitting at commas gives the items back
    have hsplit : ∀ {m : List String}, (∀ s ∈ m, IsItem s) → m ≠ [] →
        (",".intercalate m).toList.splitOn ',' = m.map String.toList := by
      intro m hm hmne
      rw [String.toList_intercalate]
      refine List.splitOn_intercalate ',' ?_ (by simpa using hmne)
      intro item hitem hcomma
      obtain ⟨s, hs, rfl⟩ := List.mem_map.1 hitem
      exact absurd ((hm s hs).isPlain ',' hcomma) (by decide)
    have hlists := congrArg (List.splitOn ',') h
    rw [hsplit hl hne, hsplit hl' hne'] at hlists
    exact List.map_injective_iff.2 (fun _ _ => String.toList_inj.1) hlists

/-! ### Items -/

theorem isItem_indexName (id : Nat) : IsItem (indexName id) where
  ne_nil := by
    rw [toList_indexName]
    exact List.cons_ne_nil _ _
  isPlain c hc := by rw [isPlain, isAlphanum_of_mem_indexName hc, Bool.true_or]

namespace Problem

theorem toList_sizedIndex (leg : Leg) : (sizedIndex leg).toList =
    (indexName leg.id).toList ++ ':' :: (Decimal.text leg.size.toNat).toList := by
  rw [sizedIndex, String.toList_append, String.toList_append, List.append_assoc]
  rfl

theorem isItem_sizedIndex (leg : Leg) : IsItem (sizedIndex leg) where
  ne_nil := by
    rw [toList_sizedIndex]
    exact List.append_ne_nil_of_right_ne_nil _ (List.cons_ne_nil _ _)
  isPlain c hc := by
    rw [toList_sizedIndex, List.mem_append, List.mem_cons] at hc
    rcases hc with hc | rfl | hc
    · exact (isItem_indexName leg.id).isPlain c hc
    · rfl
    · simp [isPlain, Char.isAlphanum, Decimal.isDigit_of_mem_text hc]

/-- **An index with its size** tells both. -/
theorem sizedIndex_injective : Function.Injective sizedIndex := by
  have hcolon : ∀ id, ':' ∉ (indexName id).toList := fun id hmem =>
    absurd (isAlphanum_of_mem_indexName hmem) (by decide)
  rintro ⟨id, size⟩ ⟨id', size'⟩ h
  have hlist := congrArg String.toList h
  rw [toList_sizedIndex, toList_sizedIndex, append_cons_inj (hcolon id) (hcolon id')] at hlist
  obtain ⟨hname, htext⟩ := hlist
  obtain rfl : id = id' := indexName_injective (String.toList_inj.1 hname)
  obtain rfl : size = size' :=
    UInt64.toNat_inj.1 (Decimal.text_injective (String.toList_inj.1 htext))
  rfl

/-! ### The four lists -/

variable {p q : Problem}

theorem toList_formula (p : Problem) : p.formula.toList =
    "C[".toList ++ ((",".intercalate (p.legsC.map sizedIndex)).toList ++ ']' ::
      (" = Sum(".toList ++ ((",".intercalate (p.summedLegs.map sizedIndex)).toList ++ ')' ::
        (" A[".toList ++ ((operandIndices p.idsA).toList ++ ']' ::
          (" * B[".toList ++ ((operandIndices p.idsB).toList ++ [']']))))))) := by
  simp only [formula, String.toList_append, List.append_assoc]
  rfl

/-- **The formula tells its four lists.** -/
theorem formula_eq_iff_lists : p.formula = q.formula ↔
    p.legsC = q.legsC ∧ p.summedLegs = q.summedLegs ∧ p.idsA = q.idsA ∧ p.idsB = q.idsB := by
  have hlegs : ∀ l : List Leg, ∀ s ∈ l.map sizedIndex, IsItem s := fun l =>
    List.forall_mem_map.2 fun leg _ => isItem_sizedIndex leg
  have hids : ∀ l : List UInt64, ∀ s ∈ l.map fun id => indexName id.toNat, IsItem s := fun l =>
    List.forall_mem_map.2 fun id _ => isItem_indexName id.toNat
  have hname : Function.Injective fun id : UInt64 => indexName id.toNat := fun id id' h =>
    UInt64.toNat_inj.1 (indexName_injective h)
  have hsquare {l : List String} (hl : ∀ s ∈ l, IsItem s) : ']' ∉ (",".intercalate l).toList :=
    notMem_intercalate hl rfl (by decide)
  have hround {l : List String} (hl : ∀ s ∈ l, IsItem s) : ')' ∉ (",".intercalate l).toList :=
    notMem_intercalate hl rfl (by decide)
  rw [← String.toList_inj, toList_formula, toList_formula, operandIndices, operandIndices,
    operandIndices, operandIndices, List.append_cancel_left_eq,
    append_cons_inj (hsquare (hlegs _)) (hsquare (hlegs _)), List.append_cancel_left_eq,
    append_cons_inj (hround (hlegs _)) (hround (hlegs _)), List.append_cancel_left_eq,
    append_cons_inj (hsquare (hids _)) (hsquare (hids _)), List.append_cancel_left_eq,
    List.append_cancel_right_eq, intercalate_inj (hlegs _) (hlegs _),
    intercalate_inj (hlegs _) (hlegs _), intercalate_inj (hids _) (hids _),
    intercalate_inj (hids _) (hids _), List.map_inj_right sizedIndex_injective,
    List.map_inj_right sizedIndex_injective, List.map_inj_right hname, List.map_inj_right hname]

/-! ### The legs that are summed over -/

/-- **A summation pair is in range**: `A` has a dimension at its position. -/
theorem inA_lt_rank {pair : SummationPair} (h : pair ∈ p.summation) : pair.inA < p.a.rank := by
  rw [summation_eq] at h
  obtain ⟨id, hid, rfl⟩ := List.mem_map.1 h
  rw [← length_usedA]
  exact List.idxOf_lt_length_of_mem ((p.mem_summed.1 hid).2.2.1)

/-- A leg of `A` is made of the id and of the dimension at its position. -/
theorem getElem?_legsA (p : Problem) (i : Nat) : p.legsA[i]? = do
    let id ← p.idsA[i]?
    let dimension ← p.a.dimension? i
    return ⟨id.toNat, dimension.size⟩ := by
  rw [legsA, legs, List.getElem?_zipWith, Tensor.sizes, List.getElem?_map, Tensor.dimension?]
  cases p.idsA[i]? <;> cases p.a.dimensions[i]? <;> rfl

/-- **No pair is left out**: the legs that are summed over are those at the positions of the
pairs. -/
theorem map_some_summedLegs (p : Problem) :
    p.summedLegs.map some = p.summation.map fun pair => p.legsA[pair.inA]? := by
  rw [summedLegs, List.map_filterMap_some_eq_filter_map_isSome, List.filter_eq_self,
    List.forall_mem_map]
  intro pair hpair
  have hlt : pair.inA < p.legsA.length := by
    rw [length_legsA]
    exact inA_lt_rank hpair
  rw [List.getElem?_eq_getElem hlt, Option.isSome_some]

/-- **What the second list adds**: where outputs have the same rank and the assignments are
the same, the legs that are summed over are the same if and only if `A` has the same sizes at
the positions of the pairs. -/
theorem summedLegs_eq_iff (hc : p.c.rank = q.c.rank) (hA : p.idsA = q.idsA)
    (hB : p.idsB = q.idsB) : p.summedLegs = q.summedLegs ↔
      ∀ pair ∈ p.summation, p.a.sizes[pair.inA]? = q.a.sizes[pair.inA]? := by
  have hsummation : q.summation = p.summation :=
    congrArg Classification.summation (classification_eq_of_ids hc hA hB).symm
  rw [← List.map_inj_right (Option.some_injective Leg), map_some_summedLegs, map_some_summedLegs,
    hsummation, List.map_inj_left]
  refine forall₂_congr fun pair hpair => ?_
  -- both have an id and a dimension at the position, and the ids are the same
  have hlt : pair.inA < p.a.rank := inA_lt_rank hpair
  have hlt' : pair.inA < q.a.rank := by rwa [← q.length_idsA, ← hA, p.length_idsA]
  have hid : pair.inA < q.idsA.length := by rwa [q.length_idsA]
  rw [getElem?_legsA, getElem?_legsA, hA, List.getElem?_eq_getElem hid, Tensor.dimension?,
    Tensor.dimension?, List.getElem?_eq_getElem hlt, List.getElem?_eq_getElem hlt', Tensor.sizes,
    Tensor.sizes, List.getElem?_map, List.getElem?_map, List.getElem?_eq_getElem hlt,
    List.getElem?_eq_getElem hlt']
  simp

/-! ### The formula by positions -/

/-- An index with its size, the letter of the index looked up. -/
def sizedIndexByPosition (leg : Leg) : Option String := do
  let name ← indexNameByPosition leg.id
  return name ++ ":" ++ Decimal.text leg.size.toNat

/-- The leg at the position of a pair: the id that `A` is assigned there, and the dimension
that it has there. -/
def summedLegByPosition (p : Problem) (pair : SummationPair) : Option Leg := do
  let id ← p.idsA[pair.inA]?
  let dimension ← p.a.dimension? pair.inA
  return ⟨id.toNat, dimension.size⟩

/-- The indices of an operand, their letters looked up. -/
def operandIndicesByPosition (ids : List UInt64) : Option String := do
  let names ← ids.mapM fun id => indexNameByPosition id.toNat
  return ",".intercalate names

/-- **The formula by positions**: letters, assigned ids and dimensions are looked up by
position, and there is no formula where one of them is missing. -/
def formulaByPosition (p : Problem) : Option String := do
  let output ← p.legsC.mapM sizedIndexByPosition
  let summedLegs ← p.summation.mapM p.summedLegByPosition
  let summed ← summedLegs.mapM sizedIndexByPosition
  let left ← operandIndicesByPosition p.idsA
  let right ← operandIndicesByPosition p.idsB
  return "C[" ++ ",".intercalate output ++ "] = Sum(" ++ ",".intercalate summed ++
    ") A[" ++ left ++ "] * B[" ++ right ++ "]"

theorem mapM_sizedIndexByPosition (l : List Leg) :
    l.mapM sizedIndexByPosition = some (l.map sizedIndex) := by
  refine mapM_eq_some_map fun leg _ => ?_
  rw [sizedIndexByPosition, indexNameByPosition_eq]
  rfl

theorem operandIndicesByPosition_eq (ids : List UInt64) :
    operandIndicesByPosition ids = some (operandIndices ids) := by
  rw [operandIndicesByPosition, mapM_eq_some_map fun id _ => indexNameByPosition_eq id.toNat]
  rfl

/-- **The positions of the pairs are in range**, and lead to the legs that are summed over. -/
theorem mapM_summedLegByPosition (p : Problem) :
    p.summation.mapM p.summedLegByPosition = some p.summedLegs := by
  have hlegs : p.summedLegByPosition = fun pair => p.legsA[pair.inA]? :=
    funext fun pair => (p.getElem?_legsA pair.inA).symm
  calc p.summation.mapM p.summedLegByPosition
      = (p.summation.map fun pair => p.legsA[pair.inA]?).mapM id := by
        rw [hlegs, List.mapM_map]
        rfl
    _ = p.summedLegs.mapM some := by rw [← map_some_summedLegs, List.mapM_map]; rfl
    _ = some (p.summedLegs.map id) := mapM_eq_some_map fun _ _ => rfl
    _ = some p.summedLegs := by rw [List.map_id]

/-- **Nothing that is looked up for the formula is out of range.** -/
theorem formulaByPosition_eq (p : Problem) : p.formulaByPosition = some p.formula := by
  rw [formulaByPosition, mapM_sizedIndexByPosition, mapM_summedLegByPosition, Option.bind_eq_bind,
    Option.bind_some, Option.bind_eq_bind, Option.bind_some, mapM_sizedIndexByPosition,
    operandIndicesByPosition_eq, operandIndicesByPosition_eq]
  rfl

/-! ### What the formula tells -/

/-- **The formula is a faithful description.** Two problems have the same formula if and only
if their outputs have the same sizes, their operands the same assignments, and for each
summation pair the left operands the same size at its position. Looking up letters, ids and
dimensions by position gives the formula and never fails. -/
theorem formula_faithful (p q : Problem) :
    (p.formula = q.formula ↔
      p.c.sizes = q.c.sizes ∧ p.idsA = q.idsA ∧ p.idsB = q.idsB ∧
        ∀ pair ∈ p.summation, p.a.sizes[pair.inA]? = q.a.sizes[pair.inA]?) ∧
      p.formulaByPosition = some p.formula := by
  refine ⟨?_, p.formulaByPosition_eq⟩
  have hlegsC : p.legsC = q.legsC ↔ p.c.sizes = q.c.sizes := by
    constructor
    · intro h
      rw [← map_size_legsC, ← map_size_legsC, h]
    · intro h
      rw [legsC, legsC, h]
  rw [formula_eq_iff_lists, hlegsC]
  refine and_congr_right fun hsizes => ?_
  have hrank : p.c.rank = q.c.rank := by
    have hlength := congrArg List.length hsizes
    rwa [Tensor.sizes, Tensor.sizes, List.length_map, List.length_map] at hlength
  constructor
  · rintro ⟨hlegs, hA, hB⟩
    exact ⟨hA, hB, (summedLegs_eq_iff hrank hA hB).1 hlegs⟩
  · rintro ⟨hA, hB, hsummed⟩
    exact ⟨(summedLegs_eq_iff hrank hA hB).2 hsummed, hA, hB⟩

/-- The assignments of the batch of products, with other types, strides and devices, with
offsets, and with a right operand of other sizes. -/
def disguisedProduct : Problem where
  c := ⟨.double, [⟨5, 4⟩, ⟨0, 8⟩, ⟨5, 2⟩]⟩
  a := ⟨.half, [⟨7, 2⟩, ⟨1, 4⟩, ⟨100, 3⟩]⟩
  b := .packed .absent [0, 1, 18446744073709551615]
  idsA := batchedProduct.idsA
  idsB := batchedProduct.idsB
  operation := ⟨.correlation, .absent, .double, true⟩
  profile := ⟨[]⟩
  classification := batchedProduct.classification
  length_idsA := batchedProduct.length_idsA
  length_idsB := batchedProduct.length_idsB
  classify_eq := rfl

/-- None of this shows in the formula. -/
theorem formula_faithful_disguisedProduct :
    (∀ pair ∈ batchedProduct.summation,
        batchedProduct.a.sizes[pair.inA]? = disguisedProduct.a.sizes[pair.inA]?) ∧
      batchedProduct.formula = disguisedProduct.formula ∧
      disguisedProduct.formulaByPosition =
        some "C[i:4,j:8,k:2] = Sum(l:3) A[k,i,l] * B[l,j,k]" := by
  obtain ⟨hiff, -⟩ := formula_faithful batchedProduct disguisedProduct
  obtain ⟨-, hposition⟩ := formula_faithful disguisedProduct disguisedProduct
  have hsizes : ∀ pair ∈ batchedProduct.summation,
      batchedProduct.a.sizes[pair.inA]? = disguisedProduct.a.sizes[pair.inA]? := by decide
  exact ⟨hsizes, hiff.2 ⟨rfl, rfl, rfl, hsizes⟩, hposition.trans rfl⟩

end Problem

end TensorContraction
