import Beeb.Numeral.Reader
import Beeb.Text.Hex

/-
  Digits that were written can be read back, whatever
  letters stand for the digits above nine.

  Main declarations:
    * `Numeral.value_toDigits`
    * `Numeral.value_of_toLower`
    * `Numeral.value_hexDigits`
    * `Numeral.length_hexDigits`
    * `Numeral.lt_length_toDigits`
-/

------------------------------------------------------------
-- Single Digits
------------------------------------------------------------

namespace Beeb

namespace Numeral

/- A digit as it is written has its value. -/
theorem digitValue?_digitChar
    (d : Nat)
    (hDigit : d < 16) :
    digitValue? (Nat.digitChar d) = some d := by
  have hAll :
      ∀ d < 16, digitValue? (Nat.digitChar d) = some d := by
    decide
  exact hAll d hDigit

/- So has a digit in upper case. -/
theorem digitValue?_toUpper
    (d : Nat)
    (hDigit : d < 16) :
    digitValue? (Nat.digitChar d).toUpper = some d := by
  have hAll :
      ∀ d < 16,
        digitValue? (Nat.digitChar d).toUpper = some d := by
    decide
  exact hAll d hDigit

/- The case of a digit does not matter. -/
theorem digitValue?_toLower
    (c : Char) :
    digitValue? c.toLower = digitValue? c := by
  have hCapitals :
      ∀ code ∈ List.range' 65 26,
        digitValue? (Char.ofNat code).toLower =
          digitValue? (Char.ofNat code) := by
    decide
  by_cases hCapital : c.toNat ∈ List.range' 65 26
  · have hHere := hCapitals c.toNat hCapital
    rwa [Char.ofNat_toNat] at hHere
  · have hSame : c.toLower = c := by
      rw [List.mem_range'_1] at hCapital
      unfold Char.toLower
      rw [dif_neg]
      rintro ⟨hFirst, hLast⟩
      have hAtLeast := UInt32.le_iff_toNat_le.mp hFirst
      have hAtMost := UInt32.le_iff_toNat_le.mp hLast
      exact hCapital ⟨hAtLeast, Nat.lt_succ_of_le hAtMost⟩
    rw [hSame]

/- A character with a value is a digit of larger bases. -/
theorem isDigitOf_of_digitValue?
    (base d : Nat)
    (c : Char)
    (hValue : digitValue? c = some d)
    (hDigit : d < base) :
    isDigitOf base c = true := by
  simp [isDigitOf, hValue, hDigit]

end Numeral

end Beeb

------------------------------------------------------------
-- Digits In A Row
------------------------------------------------------------

namespace Beeb

namespace Numeral

/- One more digit. -/
theorem value_append_singleton
    (base d : Nat)
    (run : List Char)
    (c : Char)
    (hValue : digitValue? c = some d) :
    value base (run ++ [c]) = value base run * base + d := by
  simp [value, hValue]

/- Zeros in front do not count. -/
theorem value_replicate_append
    (base count : Nat)
    (zero : Char)
    (run : List Char)
    (hZero : digitValue? zero = some 0) :
    value base (List.replicate count zero ++ run) =
      value base run := by
  have hNothing :
      ∀ count : Nat,
        (List.replicate count 0).foldl
          (fun n d => n * base + d) 0 = 0 := by
    intro count
    induction count with
    | zero => rfl
    | succ count ih => simpa [List.replicate_succ] using ih
  rw [value, List.filterMap_append,
    List.filterMap_replicate_of_some hZero, List.foldl_append,
    hNothing]
  rfl

variable (base : Nat)
variable (letter : Char → Char)

/-
  The digits of a number have it for their value, however
  they are lettered.
-/
theorem value_toDigits
    (hBase : 1 < base)
    (hLetter :
      ∀ d < base,
        digitValue? (letter (Nat.digitChar d)) = some d)
    (n : Nat) :
    value base ((Nat.toDigits base n).map letter) = n ∧
      ((Nat.toDigits base n).map letter).all
        (isDigitOf base) = true := by
  induction n using Nat.strongRecOn with
  | ind n ih =>
    rw [Nat.toDigits_eq_if hBase]
    by_cases hSmall : n < base
    · have hValue := hLetter n hSmall
      have hDigit :=
        isDigitOf_of_digitValue? base n _ hValue hSmall
      rw [if_pos hSmall]
      exact ⟨by simp [value, hValue], by simp [hDigit]⟩
    · have hRest : n / base < n :=
        Nat.div_lt_self (by omega) hBase
      have hLast : n % base < base :=
        Nat.mod_lt n (by omega)
      have hValue := hLetter (n % base) hLast
      have hDigit :=
        isDigitOf_of_digitValue? base _ _ hValue hLast
      rcases ih (n / base) hRest with ⟨hFirst, hAll⟩
      rw [if_neg hSmall, List.map_append, List.map_singleton]
      constructor
      · rw [value_append_singleton base _ _ _ hValue, hFirst,
          Nat.mul_comm]
        exact Nat.div_add_mod n base
      · rw [List.all_append, hAll]
        simp [hDigit]

/-
  Hexadecimal digits stand for a number whichever of them
  are capitals.
-/
theorem value_of_toLower
    (n : Nat)
    (digits : List Char)
    (hDigits : digits.map Char.toLower = Nat.toDigits 16 n) :
    value 16 digits = n ∧
      ∀ c ∈ digits, isDigitOf 16 c = true := by
  rcases value_toDigits 16 id (by decide)
      (fun d hDigit => digitValue?_digitChar d hDigit) n with
    ⟨hValue, hAll⟩
  rw [List.map_id, ← hDigits] at hValue hAll
  have hCase : digitValue? ∘ Char.toLower = digitValue? :=
    funext digitValue?_toLower
  constructor
  · rwa [value, List.filterMap_map, hCase] at hValue
  · intro c hMem
    have hLower :=
      List.all_eq_true.mp hAll _ (List.mem_map_of_mem hMem)
    rwa [isDigitOf, digitValue?_toLower] at hLower

/- A number that is not negative is written in digits. -/
theorem toList_decimal
    (n : Nat) :
    (decimal n).toList = Nat.toDigits 10 n := by
  have hSign : ¬ (n : Int) < 0 := by omega
  rw [decimal, if_neg hSign, String.toList_ofList]
  rfl

/- Hexadecimal text can be read back at any width. -/
theorem value_hexDigits
    (width n : Nat) :
    value 16 ((Text.hexDigits width n).map Char.toUpper) =
        n ∧
      ((Text.hexDigits width n).map Char.toUpper).all
        (isDigitOf 16) = true := by
  rcases value_toDigits 16 Char.toUpper (by decide)
      digitValue?_toUpper n with
    ⟨hValue, hAll⟩
  rw [Text.hexDigits, List.leftpad, List.map_append,
    List.map_replicate]
  constructor
  · rw [value_replicate_append 16 _ _ _ (by decide), hValue]
  · rw [List.all_append, hAll, Bool.and_true,
      List.all_replicate]
    split
    · rfl
    · decide

/- A number that fits a width is written in that width. -/
theorem length_hexDigits
    (width n : Nat)
    (hWidth : 0 < width)
    (hFits : n < Nat.pow 16 width) :
    ((Text.hexDigits width n).map Char.toUpper).length =
      width := by
  have hShort : (Nat.toDigits 16 n).length ≤ width :=
    (Nat.length_toDigits_le_iff (by decide) hWidth).mpr hFits
  rw [List.length_map, Text.hexDigits, List.length_leftpad]
  omega

/- Powers of ten have more digits than their exponent. -/
theorem lt_length_toDigits
    (n exponent : Nat)
    (hPositive : 0 < exponent)
    (hLarge : Nat.pow 10 exponent ≤ n) :
    exponent < (Nat.toDigits 10 n).length := by
  rw [← Nat.not_le,
    Nat.length_toDigits_le_iff (by decide) hPositive]
  exact Nat.not_lt.mpr hLarge

end Numeral

end Beeb
