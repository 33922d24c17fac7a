import TensorContraction.Index.Name
import TensorContraction.Proofs.Decimal

/-!
# Names tell indices apart

The name of an index is a letter with nothing or a numeral behind it. The letter says what the
id is modulo the size of the alphabet, the numeral how often the alphabet has been used up, and
the two together say what the id is (`TensorContraction.indexName_injective`). No name is left
out: every small letter, alone or with a numeral other than zero behind it, names an index
(`TensorContraction.exists_indexName_eq_iff`).

Letters are computed from the id. They can just as well be looked up in the alphabet as it is
run through, from `i` to `z` and on from `a` to `h`, and the place that is looked up is always
there (`TensorContraction.indexNameByPosition_eq`).
-/

namespace TensorContraction

/-! ### Letters -/

theorem toNat_indexLetter (id : Nat) : (indexLetter id).toNat = 97 + (id + 8) % alphabetSize := by
  have hall : ∀ k : Fin 26, (Char.ofNat ('a'.toNat + k.val)).toNat = 97 + k.val := by decide
  exact hall ⟨(id + 8) % alphabetSize, Nat.mod_lt _ (by decide)⟩

/-- The letter of an index is one of the small letters. -/
theorem indexLetter_bounds (id : Nat) :
    97 ≤ (indexLetter id).toNat ∧ (indexLetter id).toNat ≤ 122 := by
  have hlt : (id + 8) % alphabetSize < 26 := Nat.mod_lt _ (by decide)
  rw [toNat_indexLetter]
  omega

/-- **A letter tells the id** up to the size of the alphabet. -/
theorem mod_eq_of_indexLetter_eq {id id' : Nat} (h : indexLetter id = indexLetter id') :
    id % alphabetSize = id' % alphabetSize := by
  have hmod : (id + 8) % alphabetSize = (id' + 8) % alphabetSize := by
    have hcode := congrArg Char.toNat h
    rw [toNat_indexLetter, toNat_indexLetter] at hcode
    omega
  unfold alphabetSize at hmod ⊢
  omega

/-! ### Names -/

/-- What is behind the letter of a name. -/
def wrapNumeral (id : Nat) : String :=
  if id / alphabetSize = 0 then "" else Decimal.text (id / alphabetSize)

theorem toList_indexName (id : Nat) :
    (indexName id).toList = indexLetter id :: (wrapNumeral id).toList := by
  rw [indexName, String.toList_append, Char.toString_eq_singleton, String.toList_singleton]
  rfl

theorem isDigit_of_mem_wrapNumeral {id : Nat} {c : Char} (hc : c ∈ (wrapNumeral id).toList) :
    c.isDigit = true := by
  unfold wrapNumeral at hc
  split at hc
  · cases hc
  · exact Decimal.isDigit_of_mem_text hc

/-- **The numeral tells how often** the alphabet has been used up. -/
theorem div_eq_of_wrapNumeral_eq {id id' : Nat} (h : wrapNumeral id = wrapNumeral id') :
    id / alphabetSize = id' / alphabetSize := by
  -- no numeral is empty, so an empty one is that of a zero
  have hne : ∀ n, Decimal.text n ≠ "" := fun n hn =>
    Decimal.toList_text_ne_nil n (congrArg String.toList hn)
  unfold wrapNumeral at h
  split at h <;> split at h
  · omega
  · exact absurd h.symm (hne _)
  · exact absurd h (hne _)
  · exact Decimal.text_injective h

/-- **A name is that of one index.** -/
theorem indexName_injective : Function.Injective indexName := by
  intro id id' h
  have hlist := congrArg String.toList h
  rw [toList_indexName, toList_indexName, List.cons.injEq] at hlist
  obtain ⟨hletter, hnumeral⟩ := hlist
  have hmod := mod_eq_of_indexLetter_eq hletter
  have hdiv := div_eq_of_wrapNumeral_eq (String.toList_inj.1 hnumeral)
  rw [← Nat.div_add_mod id alphabetSize, hmod, hdiv, Nat.div_add_mod]

/-- A name is made of small letters and digits. -/
theorem isAlphanum_of_mem_indexName {id : Nat} {c : Char} (hc : c ∈ (indexName id).toList) :
    c.isAlphanum = true := by
  rw [toList_indexName, List.mem_cons] at hc
  rcases hc with rfl | hc
  · have hbounds := indexLetter_bounds id
    have hlower : (indexLetter id).isLower = true := by
      change (decide (97 ≤ (indexLetter id).val) && decide ((indexLetter id).val ≤ 122)) = true
      simp only [Bool.and_eq_true, decide_eq_true_eq, UInt32.le_iff_toNat_le]
      exact hbounds
    change ((indexLetter id).isUpper || (indexLetter id).isLower || (indexLetter id).isDigit) = true
    rw [hlower, Bool.or_true, Bool.true_or]
  · simp [Char.isAlphanum, isDigit_of_mem_wrapNumeral hc]

/-! ### What names look like -/

/-- **What a name looks like**: a small letter, with nothing behind it or with a decimal numeral
that does not begin with a zero. -/
inductive IsIndexName : List Char → Prop
  /-- A letter alone. -/
  | letter {c : Char} (hc : 'a' ≤ c ∧ c ≤ 'z') : IsIndexName [c]
  /-- A letter and a numeral. -/
  | numbered {c d : Char} {t : List Char} (hc : 'a' ≤ c ∧ c ≤ 'z')
    (hdigits : ∀ e ∈ d :: t, '0' ≤ e ∧ e ≤ '9') (hd : d ≠ '0') : IsIndexName (c :: d :: t)

theorem isDigit_iff_between {c : Char} : c.isDigit = true ↔ '0' ≤ c ∧ c ≤ '9' := by
  simp [Char.isDigit, Char.le_def]

/-- Every small letter is that of an index among the first ones. -/
theorem exists_indexLetter_eq {c : Char} (hc : 'a' ≤ c ∧ c ≤ 'z') :
    ∃ id < alphabetSize, indexLetter id = c := by
  have hbounds : 97 ≤ c.toNat ∧ c.toNat ≤ 122 := hc
  refine ⟨(c.toNat - 97 + 18) % alphabetSize, Nat.mod_lt _ (by decide), ?_⟩
  rw [← Char.toNat_inj, toNat_indexLetter]
  unfold alphabetSize
  omega

/-- An index by its letter and by how often the alphabet has been used up before it. -/
theorem toList_indexName_add_mul {id : Nat} (hid : id < alphabetSize) (wraps : Nat) :
    (indexName (id + alphabetSize * wraps)).toList =
      indexLetter id :: if wraps = 0 then [] else Nat.toDigits 10 wraps := by
  have hletter : indexLetter (id + alphabetSize * wraps) = indexLetter id := by
    rw [indexLetter, indexLetter, Nat.add_right_comm, Nat.add_mul_mod_self_left]
  have hwraps : (id + alphabetSize * wraps) / alphabetSize = wraps := by
    rw [Nat.add_mul_div_left _ _ (by decide), Nat.div_eq_of_lt hid, Nat.zero_add]
  rw [toList_indexName, hletter, wrapNumeral, hwraps]
  split
  · rfl
  · rw [Decimal.toList_text]

/-- A small letter names an index, with whatever numeral stands behind it. -/
theorem exists_indexName_of_letter {name : String} {c : Char} (hc : 'a' ≤ c ∧ c ≤ 'z')
    (wraps : Nat) (hname : name.toList = c :: if wraps = 0 then [] else Nat.toDigits 10 wraps) :
    ∃ id, indexName id = name := by
  obtain ⟨id, hid, rfl⟩ := exists_indexLetter_eq hc
  exact ⟨_, String.toList_inj.1 ((toList_indexName_add_mul hid wraps).trans hname.symm)⟩

/-- **The names of indices** are all that look like one. -/
theorem exists_indexName_eq_iff {name : String} :
    (∃ id, indexName id = name) ↔ IsIndexName name.toList := by
  constructor
  · rintro ⟨id, rfl⟩
    have hletter : 'a' ≤ indexLetter (id % alphabetSize) ∧ indexLetter (id % alphabetSize) ≤ 'z' :=
      indexLetter_bounds _
    rw [← Nat.mod_add_div id alphabetSize, toList_indexName_add_mul (Nat.mod_lt _ (by decide))]
    split
    · exact .letter hletter
    · next hwraps =>
      obtain ⟨d, t, hnumeral, hd⟩ := Decimal.toDigits_eq_cons (Nat.pos_of_ne_zero hwraps)
      rw [hnumeral]
      refine .numbered hletter (fun e he => isDigit_iff_between.1 ?_) hd
      rw [← hnumeral, ← Decimal.toList_text] at he
      exact Decimal.isDigit_of_mem_text he
  · intro h
    generalize hlist : name.toList = list at h
    cases h with
    | letter hc => exact exists_indexName_of_letter hc 0 hlist
    | @numbered c d t hc hdigits hd =>
      have hnumeral : Nat.toDigits 10 (Nat.ofDigitChars 10 (d :: t) 0) = d :: t :=
        Decimal.toDigits_ofDigitChars (fun e he => isDigit_iff_between.2 (hdigits e he)) hd
      -- the numeral of zero begins with a zero, so the alphabet has been used up
      have hwraps : Nat.ofDigitChars 10 (d :: t) 0 ≠ 0 := by
        intro hzero
        rw [hzero] at hnumeral
        exact hd (List.cons.inj hnumeral).1.symm
      refine exists_indexName_of_letter hc (Nat.ofDigitChars 10 (d :: t) 0) ?_
      rw [hlist, if_neg hwraps, hnumeral]

/-- **Names tell indices apart**: different indices, however large, have different names, and
what is a name of some index is a small letter with nothing or a numeral behind it. -/
theorem indexName_unique :
    (∀ id id', indexName id = indexName id' ↔ id = id') ∧
      ∀ name, (∃ id, indexName id = name) ↔ IsIndexName name.toList :=
  ⟨fun _ _ => indexName_injective.eq_iff, fun _ => exists_indexName_eq_iff⟩

/-! ### Looking letters up -/

/-- The letters of indices, in the order in which they are used. -/
def alphabet : List Char :=
  "ijklmnopqrstuvwxyzabcdefgh".toList

/-- The name of an index, with its letter looked up. -/
def indexNameByPosition (id : Nat) : Option String := do
  let letter ← alphabet[id % alphabetSize]?
  return letter.toString ++ wrapNumeral id

/-- **The letter of an index** is found in the alphabet. -/
theorem getElem?_alphabet (id : Nat) : alphabet[id % alphabetSize]? = some (indexLetter id) := by
  have hall : ∀ k : Fin 26, alphabet[k.val]? = some (indexLetter k.val) := by decide
  have hletter : indexLetter (id % alphabetSize) = indexLetter id := by
    rw [indexLetter, indexLetter, Nat.mod_add_mod]
  rw [hall ⟨id % alphabetSize, Nat.mod_lt _ (by decide)⟩, hletter]

/-- **Looking the letter up** never fails, and gives the name. -/
theorem indexNameByPosition_eq (id : Nat) : indexNameByPosition id = some (indexName id) := by
  rw [indexNameByPosition, getElem?_alphabet]
  rfl

end TensorContraction
