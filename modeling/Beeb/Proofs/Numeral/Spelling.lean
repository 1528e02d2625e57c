import Beeb.Proofs.Numeral.Reading

/-
  The ways to write a number for the reader of numerals:
  in decimal, in hexadecimal behind a mark, and as the
  assembler writes it.

  Main declarations:
    * `Numeral.Denotes`
    * `Numeral.Denotes.parse_eq`
    * `Numeral.Denotes.characters`
-/

------------------------------------------------------------
-- Forms Of A Number
------------------------------------------------------------

namespace Beeb

namespace Numeral

/- Whether characters are the hexadecimal digits of a number. -/
def AreHexDigits
    (digits : List Char)
    (n : Nat) : Prop :=
  digits.map Char.toLower = Nat.toDigits 16 n

instance
    (digits : List Char)
    (n : Nat) :
    Decidable (AreHexDigits digits n) := by
  unfold AreHexDigits
  infer_instance

/- Whether a text is a number in one of its forms. -/
inductive Denotes : String → Int → Prop
/- Its decimal text, unless that has too many digits. -/
| decimal
    (n : Int)
    (hShort :
      (Nat.toDigits 10 n.natAbs).length ≤ digitLimit) :
    Denotes (decimal n) n
/-
  A sign, the mark `0x`, and hexadecimal digits in either
  case.
-/
| marked
    (n : Int)
    (digits : List Char)
    (hDigits : AreHexDigits digits n.natAbs) :
    Denotes
      ((if n < 0 then "-0x" else "0x") ++
        String.ofList digits)
      n
/-
  The mark `&`, any number of zeros, and hexadecimal digits
  in either case.
-/
| assembler
    (n : Int)
    (zeros : Nat)
    (digits : List Char)
    (hPositive : 0 ≤ n)
    (hDigits : AreHexDigits digits n.natAbs) :
    Denotes
      ("&" ++
        String.ofList (List.replicate zeros '0' ++ digits))
      n

end Numeral

end Beeb

------------------------------------------------------------
-- Reading The Forms
------------------------------------------------------------

namespace Beeb

namespace Numeral

/- A number has a hexadecimal digit. -/
theorem AreHexDigits.ne_nil
    {digits : List Char}
    {n : Nat}
    (hDigits : AreHexDigits digits n) :
    digits ≠ [] := by
  rintro rfl
  exact Nat.toDigits_ne_nil hDigits.symm

/- Zeros may stand before the digits of a number. -/
theorem AreHexDigits.zeros
    {digits : List Char}
    {n : Nat}
    (hDigits : AreHexDigits digits n)
    (zeros : Nat) :
    value 16 (List.replicate zeros '0' ++ digits) = n ∧
      ∀ c ∈ List.replicate zeros '0' ++ digits,
        isDigitOf 16 c = true := by
  rcases value_of_toLower n digits hDigits with
    ⟨hValue, hAll⟩
  constructor
  · rw [value_replicate_append 16 zeros '0' digits rfl,
      hValue]
  · intro c hMem
    rcases List.mem_append.mp hMem with hZero | hDigit
    · rw [List.eq_of_mem_replicate hZero]
      rfl
    · exact hAll c hDigit

/- A number behind the mark `0x`. -/
theorem toList_marked
    (n : Int)
    (digits : List Char) :
    ((if n < 0 then "-0x" else "0x") ++
        String.ofList digits).toList =
      sign (decide (n < 0)) ++ '0' :: 'x' :: digits := by
  by_cases hNegative : n < 0 <;> simp [sign, hNegative]

/- A number behind the mark `&`. -/
theorem toList_assembler
    (digits : List Char) :
    ("&" ++ String.ofList digits).toList = '&' :: digits := by
  simp

/- A number is read in all its forms. -/
theorem Denotes.parse_eq
    {text : String}
    {n : Int}
    (hDenotes : Denotes text n) :
    parse text = .ok n := by
  cases hDenotes with
  | decimal n hShort => exact parse_decimal n hShort
  | marked n digits hDigits =>
    rcases value_of_toLower n.natAbs digits hDigits with
      ⟨hValue, hAll⟩
    rw [parse_marked _ _ digits hDigits.ne_nil hAll
        (toList_marked n digits),
      hValue, signed_natAbs]
  | assembler n zeros digits hPositive hDigits =>
    rcases hDigits.zeros zeros with ⟨hValue, hAll⟩
    have hSome : List.replicate zeros '0' ++ digits ≠ [] := by
      simp [hDigits.ne_nil]
    have hRead :=
      parse_hexadecimal
        ("&" ++
          String.ofList (List.replicate zeros '0' ++ digits))
        false _ hSome hAll (toList_assembler _)
    rw [hRead, hValue]
    simp [signed, Int.natAbs_of_nonneg hPositive]

end Numeral

end Beeb

------------------------------------------------------------
-- Characters Of The Forms
------------------------------------------------------------

namespace Beeb

namespace Numeral

/- A number is written in digits behind signs and marks. -/
theorem Denotes.characters
    {text : String}
    {n : Int}
    (hDenotes : Denotes text n) :
    text.toList ≠ [] ∧
      ∀ c ∈ text.toList,
        c ∈ ['-', 'x', '&'] ∨ isDigitOf 16 c = true := by
  cases hDenotes with
  | decimal n hShort =>
    have hSome : (Numeral.decimal n).toList ≠ [] := by
      simp [toList_decimal_eq, Nat.toDigits_ne_nil]
    refine ⟨hSome, fun c hMem => ?_⟩
    rcases mem_decimal n c hMem with rfl | hDigit
    · exact .inl (by simp)
    · exact .inr (isDigitOf_sixteen c hDigit)
  | marked n digits hDigits =>
    have hAll := (value_of_toLower _ digits hDigits).2
    rw [toList_marked]
    refine ⟨by simp, fun c hMem => ?_⟩
    simp only [List.mem_append, List.mem_cons] at hMem
    rcases hMem with hInSign | rfl | rfl | hInDigits
    · exact .inl (by rw [mem_sign _ c hInSign]; simp)
    · exact .inr rfl
    · exact .inl (by simp)
    · exact .inr (hAll c hInDigits)
  | assembler n zeros digits hPositive hDigits =>
    have hAll := (hDigits.zeros zeros).2
    rw [toList_assembler]
    refine ⟨by simp, fun c hMem => ?_⟩
    rcases List.mem_cons.mp hMem with rfl | hInDigits
    · exact .inl (by simp)
    · exact .inr (hAll c hInDigits)

end Numeral

end Beeb
