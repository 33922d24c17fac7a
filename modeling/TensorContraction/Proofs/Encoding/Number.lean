import TensorContraction.Proofs.Encoding.Reading
import TensorContraction.Proofs.Numeral

/-!
# Numbers in attributes

Sizes, indices and counts are read as 64-bit numbers, the figures of devices as 32-bit ones, and
types by tags of 8 bits. All of these readers do the same with the value of an attribute
(`TensorContraction.Encoding.ReadsNumbers`): they take the number that it denotes, if that is one
which the attribute may hold, and report the value as it stands there if not. What a value denotes
does not depend on the reader; the readers differ in the numbers that they allow, and that is all
(`TensorContraction.Encoding.readers_readNumbers`).
-/

namespace TensorContraction

namespace Encoding

open Markup

/-! ### One value, one outcome -/

/-- **A reader of numbers**: of an attribute that is there it gives what stands for the number
denoted by the value, if this is an allowed number. If the value denotes no allowed number, it
reports the element, the attribute and the value. -/
structure ReadsNumbers {α : Type} (reader : Element → String → Except DecodeError α)
    (number : α → Nat) (allowed : Nat → Prop) : Prop where
  /-- Which numbers are read. -/
  accepts {e : Element} {name value : String} (h : e.value? name = some value) (n : Nat) :
    (∃ x, reader e name = .ok x ∧ number x = n) ↔ Decimal.Denotes value n ∧ allowed n
  /-- What is reported, and when. -/
  refuses {e : Element} {name value : String} (h : e.value? name = some value)
    (error : DecodeError) : reader e name = .error error ↔
      error = .invalidValue e.tag name value ∧ ∀ n, Decimal.Denotes value n → ¬allowed n

/-- **An attribute is read as its value is.** -/
theorem readsNumbers_parsed {α : Type} {read? : String → Option α} {number : α → Nat}
    {allowed : Nat → Prop} (hread : Decimal.ReadsNumerals read? number allowed) :
    ReadsNumbers (parsed read?) number allowed where
  accepts {e name value} h n := by
    simp only [parsed_eq_ok_iff, h, Option.bind_some]
    exact hread value n
  refuses {e name value} h error := by
    have hnone : read? value = none ↔ ∀ n, Decimal.Denotes value n → ¬allowed n := by
      rw [Option.eq_none_iff_forall_ne_some]
      constructor
      · intro hne n hdenotes hallowed
        obtain ⟨x, hx, -⟩ := (hread value n).2 ⟨hdenotes, hallowed⟩
        exact hne x hx
      · intro hnot x hx
        obtain ⟨hdenotes, hallowed⟩ := (hread value (number x)).1 ⟨x, hx, rfl⟩
        exact hnot _ hdenotes hallowed
    rw [← hnone, parsed, valueOf, h]
    cases hvalue : read? value with
    | none => simp [hvalue, eq_comm]
    | some x => simp [hvalue]

/-! ### Tags -/

/-- **Reading a tag** reads the numerals below 256 that are tags. -/
theorem readsNumerals_readTag? {α : Type} {ofTag? : Nat → Option α} {tag : α → Nat}
    (hofTag : ∀ {n x}, ofTag? n = some x ↔ tag x = n) :
    Decimal.ReadsNumerals (readTag? ofTag?) tag fun n => n < UInt8.size ∧ ∃ x, tag x = n := by
  intro s n
  simp only [readTag?, Option.bind_eq_some_iff, Decimal.read?_eq_some_iff, hofTag]
  constructor
  · rintro ⟨x, ⟨m, ⟨hdenotes, hm⟩, rfl⟩, rfl⟩
    exact ⟨hdenotes, hm, x, rfl⟩
  · rintro ⟨hdenotes, hn, x, rfl⟩
    exact ⟨x, ⟨_, ⟨hdenotes, hn⟩, rfl⟩, rfl⟩

/-! ### All readers -/

/-- **Numbers are read exactly.** The readers of 64-bit and of 32-bit numbers read what is below
their bounds, and so does the reader of numbers of 8 bits, by which tags are read. A tag of an
element type or of a kind of operation must also be in use. And it makes no difference if the
digits are put into a word one after the other: whatever the width of the word, all that fits in
it in the end is read. -/
theorem readers_readNumbers :
    ReadsNumbers word UInt64.toNat (· < 2 ^ 64) ∧
      ReadsNumbers halfWord UInt32.toNat (· < 2 ^ 32) ∧
      ReadsNumbers (parsed (Decimal.read? UInt8.size)) id (· < 2 ^ 8) ∧
      ReadsNumbers dataType DataType.tag (fun n => n < 2 ^ 8 ∧ ∃ type : DataType, type.tag = n) ∧
      ReadsNumbers operationType OperationType.tag
        (fun n => n < 2 ^ 8 ∧ ∃ kind : OperationType, kind.tag = n) ∧
      ∀ bits, 4 ≤ bits →
        ReadsNumbers (parsed (Decimal.readInto? bits)) BitVec.toNat (· < 2 ^ bits) := by
  refine ⟨readsNumbers_parsed Decimal.readsNumerals_readWord?,
    readsNumbers_parsed Decimal.readsNumerals_readHalfWord?, readsNumbers_parsed ?_,
    readsNumbers_parsed (readsNumerals_readTag? DataType.ofTag?_eq_some_iff),
    readsNumbers_parsed (readsNumerals_readTag? OperationType.ofTag?_eq_some_iff),
    fun bits hbits => readsNumbers_parsed (Decimal.readsNumerals_readInto? hbits)⟩
  intro s n
  simpa using Decimal.read?_eq_some_iff

/-- A tensor with a size that does not fit in 32 bits, a rank without digits, and a tag that is not
one of an operation. -/
def oversizedTensor : Element :=
  ⟨"TA", [("t", "+010"), ("n", "+"), ("sz0", "+004294967296")]⟩

/-- A sign and zeros before the digits do not matter: the size is read as a 64-bit number, and it
is one too great for 32 bits, also if it is read into a word digit by digit. A sign alone is
nothing. The tag is that of a type, and no kind of operation has it. -/
theorem readers_readNumbers_oversized :
    (∃ x, word oversizedTensor "sz0" = .ok x ∧ x.toNat = 4294967296) ∧
      halfWord oversizedTensor "sz0" = .error (.invalidValue "TA" "sz0" "+004294967296") ∧
      parsed (Decimal.readInto? 32) oversizedTensor "sz0" =
        .error (.invalidValue "TA" "sz0" "+004294967296") ∧
      word oversizedTensor "n" = .error (.invalidValue "TA" "n" "+") ∧
      (∃ type, dataType oversizedTensor "t" = .ok type ∧ type.tag = 10) ∧
      operationType oversizedTensor "t" = .error (.invalidValue "TA" "t" "+010") := by
  obtain ⟨hword, hhalf, -, htype, hkind, hinto⟩ := readers_readNumbers
  have hsize : Decimal.Denotes "+004294967296" 4294967296 := Decimal.denotes_iff.2 (by decide)
  have htag : Decimal.Denotes "+010" 10 := Decimal.denotes_iff.2 (by decide)
  have hgreat : ∀ n, Decimal.Denotes "+004294967296" n → ¬n < 2 ^ 32 := by
    intro n hn
    rw [hn.unique hsize]
    decide
  have hnothing : ∀ n, ¬Decimal.Denotes "+" n := by
    intro n hn
    cases Decimal.denotes_iff.1 hn
  have hno : ∀ n, Decimal.Denotes "+010" n →
      ¬(n < 2 ^ 8 ∧ ∃ kind : OperationType, kind.tag = n) := by
    rintro n hn ⟨-, kind, hkind⟩
    rw [hn.unique htag] at hkind
    cases kind <;> cases hkind
  exact ⟨(hword.accepts rfl _).2 ⟨hsize, by decide⟩, (hhalf.refuses rfl _).2 ⟨rfl, hgreat⟩,
    ((hinto 32 (by decide)).refuses rfl _).2 ⟨rfl, hgreat⟩,
    (hword.refuses rfl _).2 ⟨rfl, fun n hn => absurd hn (hnothing n)⟩,
    (htype.accepts rfl _).2 ⟨htag, by decide, .absent, rfl⟩, (hkind.refuses rfl _).2 ⟨rfl, hno⟩⟩

end Encoding

end TensorContraction
