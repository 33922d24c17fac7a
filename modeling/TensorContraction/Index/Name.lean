import TensorContraction.Decimal

/-!
# Names of indices

In the formula of a problem, global indices go by letters, as in
`C[i,j] = Sum(k) A[k,i] * B[k,j]`. The names start at `i`, run on to `z` and from
there through `a` to `h`; from the twenty-seventh index on, the letter is followed
by the number of times the alphabet has been used up: `i1`, `j1`, …

Names are unique, since the letter tells the id modulo 26 and the number tells
the quotient.
-/

namespace TensorContraction

/-- How many letters there are to name indices. -/
def alphabetSize : Nat := 26

/-- The letter of an index: the alphabet is run through from `i`, and taken up
again at `a` after `z`. -/
def indexLetter (id : Nat) : Char :=
  Char.ofNat ('a'.toNat + (id + 8) % alphabetSize)

/-- The name of an index: its letter, followed by how many times the alphabet has
been used up before it, if it has. -/
def indexName (id : Nat) : String :=
  let wraps := id / alphabetSize
  (indexLetter id).toString ++ if wraps = 0 then "" else Decimal.text wraps

end TensorContraction
