/-!
# Decimal numerals

Every number that the library writes is a plain decimal numeral, without sign and
without leading zeros (`TensorContraction.Decimal.text`).

What it reads is a little wider (`TensorContraction.Decimal.read?`): one or more
of the ten ASCII digits, with any number of leading zeros, after an optional `+`.
Anything else is no numeral – no `-`, no blank, no digit of another script, no
empty text.
-/

namespace TensorContraction

namespace Decimal

/-- The numeral of a number: no sign, no leading zeros. -/
def text (n : Nat) : String :=
  String.ofList (Nat.toDigits 10 n)

/-- The value of a word over the ten digits, which must not be empty. -/
def value? (digits : List Char) : Option Nat :=
  if !digits.isEmpty && digits.all Char.isDigit then
    some (Nat.ofDigitChars 10 digits 0)
  else
    none

/-- The digits of a numeral: a leading `+` is left out. -/
def unsigned : List Char → List Char
  | '+' :: digits => digits
  | digits => digits

/-- Reads a numeral whose value is below `bound`. -/
def read? (bound : Nat) (s : String) : Option Nat :=
  (value? (unsigned s.toList)).filter (· < bound)

/-- Reads a 64-bit word. -/
def readWord? (s : String) : Option UInt64 :=
  (read? UInt64.size s).map UInt64.ofNat

/-- Reads a 32-bit word. -/
def readHalfWord? (s : String) : Option UInt32 :=
  (read? UInt32.size s).map UInt32.ofNat

/-- A number that has been written is read back, whenever it is below the bound. -/
theorem value?_toDigits (n : Nat) : value? (Nat.toDigits 10 n) = some n := by
  have hne : Nat.toDigits 10 n ≠ [] := Nat.toDigits_ne_nil
  have hall : (Nat.toDigits 10 n).all Char.isDigit = true := by
    rw [List.all_eq_true]
    intro c hc
    exact Nat.isDigit_of_mem_toDigits (by decide) (Nat.le_refl 10) hc
  simp [value?, hne, hall, Nat.ofDigitChars_ten_toDigits]

end Decimal

end TensorContraction
