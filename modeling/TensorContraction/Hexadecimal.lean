/-!
# Hexadecimal digits

Characters are given by number in two places, in references of tagged text and in
escapes of JSON strings. Both are hexadecimal, and both take the digits above nine
in either case (`TensorContraction.Hexadecimal.digit?`).
-/

namespace TensorContraction

namespace Hexadecimal

/-- The value of a hexadecimal digit, in either case. -/
def digit? (c : Char) : Option Nat :=
  if '0' ≤ c ∧ c ≤ '9' then some (c.toNat - '0'.toNat)
  else if 'a' ≤ c ∧ c ≤ 'f' then some (c.toNat - 'a'.toNat + 10)
  else if 'A' ≤ c ∧ c ≤ 'F' then some (c.toNat - 'A'.toNat + 10)
  else none

/-- The value of a word of hexadecimal digits, read after `value`. -/
def value? (value : Nat) : List Char → Option Nat
  | [] => some value
  | c :: rest => do value? (16 * value + (← digit? c)) rest

/-- The digits that are used in writing are read back. -/
theorem digit?_digitChar {n : Nat} (h : n < 16) : digit? (Nat.digitChar n) = some n := by
  have : ∀ m : Fin 16, digit? (Nat.digitChar m.val) = some m.val := by decide
  exact this ⟨n, h⟩

end Hexadecimal

end TensorContraction
