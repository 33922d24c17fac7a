/-!
# Safe names

Names of devices are free text, but they end up in attribute values and in file
names. A **safe** name has ASCII letters, digits and `_` only, and every name is
made safe by writing `_` for each of its other characters: one for one, so that
the length stays and different names may meet.
-/

namespace TensorContraction

/-- The character that stands for `c` in a safe name: `c` itself if it is an
ASCII letter or digit, `_` otherwise. -/
def safeChar (c : Char) : Char :=
  if c.isAlphanum then c else '_'

/-- The safe form of a name. -/
def safeName (name : String) : String :=
  String.ofList (name.toList.map safeChar)

theorem safeChar_safeChar (c : Char) : safeChar (safeChar c) = safeChar c := by
  by_cases h : c.isAlphanum = true
  · simp [safeChar, h]
  · simp only [safeChar, if_neg h]
    decide

/-- A safe name is its own safe form. -/
theorem safeName_safeName (name : String) : safeName (safeName name) = safeName name := by
  simp [safeName, Function.comp_def, safeChar_safeChar]

end TensorContraction
