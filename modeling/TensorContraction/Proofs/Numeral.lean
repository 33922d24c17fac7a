import Mathlib.Data.Nat.Digits.Lemmas
import Mathlib.Data.Set.List
import TensorContraction.Proofs.Decimal

/-!
# Numerals and their values

What a numeral is can be said without a reader: an optional `+` and one or more of the ten digits,
any number of which may be leading zeros (`TensorContraction.Numeral`). Its value is that of the
digits by their places, and it has no bound; a text denotes a number if it is a numeral of that
value (`TensorContraction.Decimal.Denotes`).

A reader of words has a bound. The library's own readers compute the value, however great, and
compare it with the bound once, at the end. A machine cannot do that: it puts the digits into a
word one after the other, and has to stop where the word overflows
(`TensorContraction.Decimal.readInto?`). Both read the numerals below the bound, all of them and
nothing else (`TensorContraction.Decimal.readsNumerals_map_read?`,
`TensorContraction.Decimal.readsNumerals_readInto?`): the first overflow is not too early to stop,
since a value does not get smaller with more digits.
-/

namespace TensorContraction

/-- **A numeral**: decimal digits, at least one, with or without a `+`. -/
structure Numeral where
  /-- Whether there is a `+` before the digits. -/
  plus : Bool
  /-- The digits, from left to right. -/
  digits : List (Fin 10)
  /-- There is a digit. -/
  digits_ne_nil : digits ≠ []

namespace Decimal

/-- Digits as they are written. -/
def digitChars (digits : List (Fin 10)) : List Char :=
  digits.map fun d => d.val.digitChar

/-- The number that digits stand for: the last one counts as it is, and each of the others ten
times what it would count one place further to the right. -/
def placeValue (digits : List (Fin 10)) : Nat :=
  Nat.ofDigits 10 (digits.reverse.map Fin.val)

end Decimal

namespace Numeral

/-- A numeral as it is written. -/
def text (x : Numeral) : String :=
  String.ofList ((if x.plus then ['+'] else []) ++ Decimal.digitChars x.digits)

/-- The value of a numeral. -/
def value (x : Numeral) : Nat :=
  Decimal.placeValue x.digits

end Numeral

namespace Decimal

/-- **A text denotes a number** if it is a numeral with that number as its value. -/
def Denotes (s : String) (n : Nat) : Prop :=
  ∃ x : Numeral, x.text = s ∧ x.value = n

/-! ### Digits -/

theorem isDigit_iff_mem_range {c : Char} :
    c.isDigit = true ↔ c ∈ Set.range fun d : Fin 10 => d.val.digitChar := by
  constructor
  · intro hc
    obtain ⟨k, hk, -, hchar⟩ := exists_digitChar_eq hc
    exact ⟨⟨k, hk⟩, hchar⟩
  · rintro ⟨d, rfl⟩
    rw [Nat.isDigit_digitChar, decide_eq_true d.isLt]

/-- **Characters are written digits** if each of them is a digit. -/
theorem exists_digitChars_eq_iff {cs : List Char} :
    (∃ digits, digitChars digits = cs) ↔ ∀ c ∈ cs, c.isDigit = true := by
  have hrange := Set.range_list_map fun d : Fin 10 => d.val.digitChar
  simp only [isDigit_iff_mem_range]
  exact Set.ext_iff.1 hrange cs

/-- **Going through digits** from left to right gives their value, behind what has been read. -/
theorem ofDigitChars_digitChars (digits : List (Fin 10)) (n : Nat) :
    Nat.ofDigitChars 10 (digitChars digits) n = 10 ^ digits.length * n + placeValue digits := by
  induction digits generalizing n with
  | nil => simp [digitChars, placeValue]
  | cons d digits ih =>
    rw [digitChars, List.map_cons, Nat.ofDigitChars_cons_digitChar_of_lt_ten d.isLt, ← digitChars,
      ih, placeValue, placeValue, List.map_reverse, List.map_reverse, List.map_cons,
      Nat.ofDigits_reverse_cons, List.length_map, List.length_cons, pow_succ]
    ring

/-- With more digits a value does not get smaller. -/
theorem le_ofDigitChars (cs : List Char) (n : Nat) : n ≤ Nat.ofDigitChars 10 cs n := by
  rw [Nat.ofDigitChars_eq_ofDigitChars_zero]
  exact Nat.le_add_right_of_le (Nat.le_mul_of_pos_left n (Nat.pow_pos (by decide)))

/-- **The value of a word of digits.** -/
theorem value?_eq_some_iff {cs : List Char} {n : Nat} :
    value? cs = some n ↔
      cs ≠ [] ∧ (∀ c ∈ cs, c.isDigit = true) ∧ Nat.ofDigitChars 10 cs 0 = n := by
  have hdigits : (!cs.isEmpty && cs.all Char.isDigit) = true ↔
      cs ≠ [] ∧ ∀ c ∈ cs, c.isDigit = true := by
    rw [Bool.and_eq_true, Bool.not_eq_true', List.isEmpty_eq_false_iff, List.all_eq_true]
  rw [value?, Option.ite_none_right_eq_some, hdigits, and_assoc, Option.some_inj]

/-- Digits are a word with their value. -/
theorem value?_digitChars {digits : List (Fin 10)} (hne : digits ≠ []) :
    value? (digitChars digits) = some (placeValue digits) := by
  rw [value?_eq_some_iff, ofDigitChars_digitChars, Nat.mul_zero, Nat.zero_add]
  exact ⟨mt List.map_eq_nil_iff.1 hne, exists_digitChars_eq_iff.1 ⟨digits, rfl⟩, rfl⟩

/-! ### Signs -/

/-- All that is left out of a text is a `+` before the rest. -/
theorem exists_sign (cs : List Char) :
    ∃ plus : Bool, (if plus then ['+'] else []) ++ unsigned cs = cs := by
  unfold unsigned
  split
  · exact ⟨true, rfl⟩
  · exact ⟨false, rfl⟩

theorem unsigned_numeral (x : Numeral) : unsigned x.text.toList = digitChars x.digits := by
  have hdigits := exists_digitChars_eq_iff.1 ⟨x.digits, rfl⟩
  rw [Numeral.text, String.toList_ofList]
  cases x.plus with
  | true => rfl
  | false => exact unsigned_of_isDigit hdigits

/-- **What a text denotes** is the value of its digits, without the sign. -/
theorem denotes_iff {s : String} {n : Nat} : Denotes s n ↔ value? (unsigned s.toList) = some n := by
  constructor
  · rintro ⟨x, rfl, rfl⟩
    rw [unsigned_numeral]
    exact value?_digitChars x.digits_ne_nil
  · intro h
    obtain ⟨hne, hisDigit, -⟩ := value?_eq_some_iff.1 h
    obtain ⟨digits, hdigits⟩ := exists_digitChars_eq_iff.2 hisDigit
    obtain ⟨plus, hplus⟩ := exists_sign s.toList
    have hdigits_ne : digits ≠ [] := by
      rintro rfl
      exact hne hdigits.symm
    rw [← hdigits, value?_digitChars hdigits_ne] at h
    refine ⟨⟨plus, digits, hdigits_ne⟩, String.toList_inj.1 ?_, Option.some.inj h⟩
    rw [Numeral.text, String.toList_ofList, hdigits]
    exact hplus

/-- **A number is denoted by its own numeral.** -/
theorem denotes_text (n : Nat) : Denotes (text n) n := by
  rw [denotes_iff, unsigned_of_isDigit fun c hc => isDigit_of_mem_text hc, toList_text,
    value?_toDigits]

/-- **A text denotes one number** at most. -/
theorem Denotes.unique {s : String} {m n : Nat} (hm : Denotes s m) (hn : Denotes s n) : m = n := by
  rw [denotes_iff] at hm hn
  exact Option.some.inj (hm.symm.trans hn)

/-! ### Readers -/

/-- **A reader of numerals**: what it makes of a text stands for the number that the text denotes,
and it makes something of every text that denotes an allowed number, and of no other. -/
def ReadsNumerals {α : Type} (read? : String → Option α) (number : α → Nat)
    (allowed : Nat → Prop) : Prop :=
  ∀ s n, (∃ x, read? s = some x ∧ number x = n) ↔ Denotes s n ∧ allowed n

theorem read?_eq_some_iff {bound : Nat} {s : String} {n : Nat} :
    read? bound s = some n ↔ Denotes s n ∧ n < bound := by
  rw [read?, Option.filter_eq_some_iff, decide_eq_true_eq, denotes_iff]

/-- **Reading with a bound** reads the numerals below the bound, whatever the numbers are turned
into afterwards. -/
theorem readsNumerals_map_read? {α : Type} {bound : Nat} {f : Nat → α} {number : α → Nat}
    (hf : ∀ n < bound, number (f n) = n) :
    ReadsNumerals (fun s => (read? bound s).map f) number (· < bound) := by
  intro s n
  simp only [Option.map_eq_some_iff, read?_eq_some_iff]
  constructor
  · rintro ⟨_, ⟨m, ⟨hdenotes, hm⟩, rfl⟩, rfl⟩
    rw [hf m hm]
    exact ⟨hdenotes, hm⟩
  · rintro ⟨hdenotes, hn⟩
    exact ⟨f n, ⟨n, ⟨hdenotes, hn⟩, rfl⟩, hf n hn⟩

theorem readsNumerals_readWord? : ReadsNumerals readWord? UInt64.toNat (· < UInt64.size) :=
  readsNumerals_map_read? fun _ hn => UInt64.toNat_ofNat_of_lt' hn

theorem readsNumerals_readHalfWord? : ReadsNumerals readHalfWord? UInt32.toNat (· < UInt32.size) :=
  readsNumerals_map_read? fun _ hn => UInt32.toNat_ofNat_of_lt' hn

/-! ### Digits into a word -/

/-- A word with one more digit behind it. There is no such word if what is added is not a digit,
and none if moving the word by one place overflows, or adding the digit to what has been moved. -/
def pushDigit? {bits : Nat} (w : BitVec bits) (c : Char) : Option (BitVec bits) :=
  let ten := BitVec.ofNat bits 10
  let digit := BitVec.ofNat bits (c.toNat - '0'.toNat)
  if c.isDigit = false ∨ w.umulOverflow ten ∨ (w * ten).uaddOverflow digit then none
  else some (w * ten + digit)

/-- Reads a numeral into a word, digit by digit. -/
def readInto? (bits : Nat) (s : String) : Option (BitVec bits) :=
  match unsigned s.toList with
  | [] => none
  | digits => digits.foldlM pushDigit? (BitVec.ofNat bits 0)

section

variable {bits : Nat} (hbits : 4 ≤ bits)

include hbits in
theorem toNat_ofNat_of_le_ten {k : Nat} (hk : k ≤ 10) : (BitVec.ofNat bits k).toNat = k := by
  have hpow : 2 ^ 4 ≤ 2 ^ bits := Nat.pow_le_pow_right (by decide) hbits
  exact Nat.mod_eq_of_lt (by omega)

include hbits in
/-- **One of the two steps overflows** if the number does not fit in the word. -/
theorem overflows_iff {w : BitVec bits} {k : Nat} (hk : k < 10) :
    (w.umulOverflow (BitVec.ofNat bits 10) = true ∨
        (w * BitVec.ofNat bits 10).uaddOverflow (BitVec.ofNat bits k) = true) ↔
      2 ^ bits ≤ 10 * w.toNat + k := by
  have hmoved : w.umulOverflow (BitVec.ofNat bits 10) = true ↔ 2 ^ bits ≤ w.toNat * 10 := by
    rw [BitVec.umulOverflow, decide_eq_true_eq, toNat_ofNat_of_le_ten hbits (Nat.le_refl 10)]
  -- a word that overflows when it is moved does so whatever digit is due
  by_cases hmul : w.umulOverflow (BitVec.ofNat bits 10) = true
  · have hle := hmoved.1 hmul
    exact iff_of_true (.inl hmul) (by omega)
  · rw [or_iff_right hmul, BitVec.uaddOverflow, decide_eq_true_eq,
      BitVec.toNat_mul_of_not_umulOverflow hmul, toNat_ofNat_of_le_ten hbits (Nat.le_refl 10),
      toNat_ofNat_of_le_ten hbits hk.le, Nat.mul_comm]

include hbits in
/-- The word that results if none does. -/
theorem toNat_pushed {w : BitVec bits} {k : Nat} (hk : k < 10)
    (h : 10 * w.toNat + k < 2 ^ bits) :
    (w * BitVec.ofNat bits 10 + BitVec.ofNat bits k).toNat = 10 * w.toNat + k := by
  obtain ⟨hmul, hadd⟩ := not_or.1 (mt (overflows_iff hbits hk).1 (Nat.not_le.2 h))
  rw [BitVec.toNat_add_of_not_uaddOverflow hadd, BitVec.toNat_mul_of_not_umulOverflow hmul,
    toNat_ofNat_of_le_ten hbits (Nat.le_refl 10), toNat_ofNat_of_le_ten hbits hk.le, Nat.mul_comm]

include hbits in
/-- **A digit is pushed** if it is one and the number fits in the word. -/
theorem pushDigit?_eq_some_iff {w v : BitVec bits} {c : Char} :
    pushDigit? w c = some v ↔
      c.isDigit = true ∧ 10 * w.toNat + (c.toNat - '0'.toNat) = v.toNat := by
  cases hc : c.isDigit with
  | false => simp [pushDigit?, hc]
  | true =>
    obtain ⟨k, hk, hdigit, -⟩ := exists_digitChar_eq hc
    simp only [pushDigit?, hc, hdigit, Bool.true_eq_false, false_or, true_and,
      overflows_iff hbits hk]
    split
    · next hover =>
      refine iff_of_false nofun fun hv => ?_
      have hlt := v.isLt
      omega
    · next hfits =>
      rw [Option.some_inj, ← BitVec.toNat_inj, toNat_pushed hbits hk (Nat.not_le.1 hfits)]

include hbits in
/-- **Digits are pushed** one after the other if the number that they end in fits in the word.
The numbers on the way do, since they are no greater. -/
theorem foldlM_pushDigit?_eq_some_iff {cs : List Char} {w v : BitVec bits} :
    cs.foldlM pushDigit? w = some v ↔
      (∀ c ∈ cs, c.isDigit = true) ∧ Nat.ofDigitChars 10 cs w.toNat = v.toNat := by
  induction cs generalizing w with
  | nil => simp [BitVec.toNat_inj]
  | cons c cs ih =>
    simp only [List.foldlM_cons, Option.bind_eq_bind, Option.bind_eq_some_iff, ih,
      pushDigit?_eq_some_iff hbits, List.forall_mem_cons, Nat.ofDigitChars_cons]
    constructor
    · rintro ⟨u, ⟨hc, hu⟩, hcs, hv⟩
      rw [hu]
      exact ⟨⟨hc, hcs⟩, hv⟩
    -- there is a word after the first digit, since it is no greater than the one at the end
    · rintro ⟨⟨hc, hcs⟩, hv⟩
      have hle := le_ofDigitChars cs (10 * w.toNat + (c.toNat - '0'.toNat))
      have hlt : 10 * w.toNat + (c.toNat - '0'.toNat) < 2 ^ bits := by
        rw [hv] at hle
        exact Nat.lt_of_le_of_lt hle v.isLt
      exact ⟨BitVec.ofNatLT _ hlt, ⟨hc, rfl⟩, hcs, hv⟩

include hbits in
theorem readInto?_eq_some_iff {s : String} {v : BitVec bits} :
    readInto? bits s = some v ↔ Denotes s v.toNat := by
  rw [denotes_iff, value?_eq_some_iff, readInto?]
  split
  · next h => exact iff_of_false nofun fun hv => hv.1 h
  · next h =>
    rw [foldlM_pushDigit?_eq_some_iff hbits]
    exact ⟨fun hv => ⟨h, hv⟩, fun hv => hv.2⟩

include hbits in
/-- **Reading into a word** reads the numerals whose values fit in it. -/
theorem readsNumerals_readInto? : ReadsNumerals (readInto? bits) BitVec.toNat (· < 2 ^ bits) := by
  intro s n
  simp only [readInto?_eq_some_iff hbits]
  constructor
  · rintro ⟨v, hdenotes, rfl⟩
    exact ⟨hdenotes, v.isLt⟩
  · rintro ⟨hdenotes, hn⟩
    exact ⟨BitVec.ofNatLT n hn, hdenotes, rfl⟩

end

end Decimal

end TensorContraction
