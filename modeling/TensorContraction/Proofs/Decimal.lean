import TensorContraction.Decimal

/-!
# What numerals are made of

Numbers are written next to letters, to each other and to signs of punctuation. To take such
a text apart again, two facts about numerals are enough: they have nothing but digits in them,
and every number has its own (`TensorContraction.Decimal.text_injective`).

A third fact says which digits make a numeral: those that do not begin with a zero
(`TensorContraction.Decimal.toDigits_ofDigitChars`). Zero itself is the exception.
-/

namespace TensorContraction

namespace Decimal

theorem toList_text (n : Nat) : (text n).toList = Nat.toDigits 10 n := by
  rw [text, String.toList_ofList]

theorem isDigit_of_mem_text {n : Nat} {c : Char} (hc : c ∈ (text n).toList) :
    c.isDigit = true := by
  rw [toList_text] at hc
  exact Nat.isDigit_of_mem_toDigits (by decide) (Nat.le_refl 10) hc

theorem toList_text_ne_nil (n : Nat) : (text n).toList ≠ [] := by
  rw [toList_text]
  exact Nat.toDigits_ne_nil

/-- **A number is written in one way.** -/
theorem text_injective : Function.Injective text := by
  intro m n h
  have hlist : Nat.toDigits 10 m = Nat.toDigits 10 n := by rw [← toList_text, h, toList_text]
  have hvalue := value?_toDigits m
  rw [hlist, value?_toDigits] at hvalue
  exact (Option.some.inj hvalue).symm

/-- Digits do not begin with a sign. -/
theorem unsigned_of_isDigit {cs : List Char} (h : ∀ c ∈ cs, c.isDigit = true) :
    unsigned cs = cs := by
  cases cs with
  | nil => rfl
  | cons c rest =>
    have hc : c ≠ '+' := by
      rintro rfl
      exact absurd (h '+' List.mem_cons_self) (by decide)
    rw [unsigned]
    simpa using hc

/-! ### Leading zeros -/

/-- The numeral of a number other than zero does not begin with a zero. -/
theorem toDigits_eq_cons {n : Nat} (h : 0 < n) :
    ∃ c t, Nat.toDigits 10 n = c :: t ∧ c ≠ '0' := by
  induction n using Nat.strongRecOn with
  | ind n ih =>
    rcases Nat.lt_or_ge n 10 with hn | hn
    · refine ⟨n.digitChar, [], Nat.toDigits_of_lt_base hn, fun hzero => ?_⟩
      rw [Nat.digitChar_eq_zero] at hzero
      omega
    · obtain ⟨c, t, hdigits, hc⟩ := ih (n / 10) (by omega) (by omega)
      refine ⟨c, t ++ [(n % 10).digitChar], ?_, hc⟩
      rw [Nat.toDigits_of_base_le (by decide) hn, hdigits, List.cons_append]

/-- A digit stands for a number below ten. -/
theorem exists_digitChar_eq {c : Char} (h : c.isDigit = true) :
    ∃ k < 10, c.toNat - '0'.toNat = k ∧ k.digitChar = c := by
  have hall : ∀ k : Fin 10, k.val.digitChar = Char.ofNat (48 + k.val) := by decide
  obtain ⟨hle, hge⟩ : 48 ≤ c.toNat ∧ c.toNat ≤ 57 := by
    simpa [Char.isDigit, UInt32.le_iff_toNat_le] using h
  refine ⟨c.toNat - 48, by omega, rfl, ?_⟩
  rw [hall ⟨c.toNat - 48, by omega⟩, Nat.add_sub_cancel' hle, Char.ofNat_toNat]

/-- Digits behind a numeral make a longer numeral. -/
theorem toDigits_ofDigitChars_append {n : Nat} (hn : 0 < n) {t : List Char}
    (ht : ∀ c ∈ t, c.isDigit = true) :
    Nat.toDigits 10 (Nat.ofDigitChars 10 t n) = Nat.toDigits 10 n ++ t := by
  induction t generalizing n with
  | nil => rw [Nat.ofDigitChars_nil, List.append_nil]
  | cons c t ih =>
    obtain ⟨k, hk, hvalue, hchar⟩ := exists_digitChar_eq (ht c List.mem_cons_self)
    have hdiv : (10 * n + k) / 10 = n := by omega
    have hmod : (10 * n + k) % 10 = k := by omega
    rw [Nat.ofDigitChars_cons, hvalue, ih (by omega) fun d hd => ht d (List.mem_cons_of_mem c hd),
      Nat.toDigits_of_base_le (by decide) (by omega), hdiv, hmod, hchar, List.append_assoc,
      List.singleton_append]

/-- **Digits are the numeral of their value**, unless they begin with a zero. -/
theorem toDigits_ofDigitChars {c : Char} {t : List Char} (hdigits : ∀ d ∈ c :: t, d.isDigit = true)
    (hc : c ≠ '0') : Nat.toDigits 10 (Nat.ofDigitChars 10 (c :: t) 0) = c :: t := by
  obtain ⟨k, hk, hvalue, hchar⟩ := exists_digitChar_eq (hdigits c List.mem_cons_self)
  have hpos : 0 < k := by
    refine Nat.pos_of_ne_zero fun hzero => hc ?_
    rw [← hchar, Nat.digitChar_eq_zero, hzero]
  rw [Nat.ofDigitChars_cons, hvalue, Nat.mul_zero, Nat.zero_add,
    toDigits_ofDigitChars_append hpos fun d hd => hdigits d (List.mem_cons_of_mem c hd),
    Nat.toDigits_of_lt_base hk, hchar, List.singleton_append]

end Decimal

end TensorContraction
