import Beeb.Text.Quoted

/-
  Numerals: the ways to fail, and decimal text.

  Decimal numerals are read and written up to a limit of
  4300 digits.  Numerals whose base is a power of two have
  no limit.

  Key definitions include:
    * `Beeb.Numeral.Radix`
    * `Beeb.NumeralError`
    * `Beeb.NumeralError.message`
    * `Beeb.Numeral.decimal?`
-/

------------------------------------------------------------
-- Errors
------------------------------------------------------------

namespace Beeb

namespace Numeral

/- The most digits a decimal numeral may have. -/
def digitLimit : Nat := 4300

/- How the base of a numeral is found. -/
inductive Radix where
/- By the mark `0x`, `0o` or `0b`; ten without a mark. -/
| marked
/- Sixteen; the mark `0x` may be given. -/
| hexadecimal
deriving DecidableEq, Repr

/-
  The base named in messages; zero stands for "by the mark".
-/
def Radix.base : Radix → Nat
| .marked => 0
| .hexadecimal => 16

end Numeral

/- Why a numeral could not be read or written. -/
inductive NumeralError where
| malformed (radix : Numeral.Radix) (text : String)
| tooManyDigits (count : Nat)
| tooLongToWrite
deriving DecidableEq, Repr

namespace NumeralError

/- At most 200 characters of a malformed numeral are shown. -/
def shown
    (text : String) : String :=
  String.ofList ((Text.quote text).toList.take 200)

/- The wording of a numeral error. -/
def message : NumeralError → String
| .malformed radix text =>
  "invalid literal for int() with base " ++
    Nat.repr radix.base ++ ": " ++ shown text
| .tooManyDigits count =>
  "Exceeds the limit (" ++ Nat.repr Numeral.digitLimit ++
    " digits) for integer string conversion: value has " ++
    Nat.repr count ++
    " digits; use sys.set_int_max_str_digits() to increase the limit"
| .tooLongToWrite =>
  "Exceeds the limit (" ++ Nat.repr Numeral.digitLimit ++
    " digits) for integer string conversion; " ++
    "use sys.set_int_max_str_digits() to increase the limit"

end NumeralError

end Beeb

------------------------------------------------------------
-- Decimal Text
------------------------------------------------------------

namespace Beeb

namespace Numeral

/-
  The decimal digits of an integer, after a minus sign if it
  is negative.
-/
def decimal
    (n : Int) : String :=
  if n < 0 then
    "-" ++ String.ofList (Nat.toDigits 10 n.natAbs)
  else
    String.ofList (Nat.toDigits 10 n.natAbs)

/- Decimal text within the digit limit. -/
def decimal?
    (n : Int) : Except NumeralError String :=
  if (Nat.toDigits 10 n.natAbs).length ≤ digitLimit then
    .ok (decimal n)
  else .error .tooLongToWrite

/- Which integers have decimal text within the limit. -/
theorem decimal?_eq_ok_iff
    (n : Int)
    (text : String) :
    decimal? n = .ok text ↔
      (Nat.toDigits 10 n.natAbs).length ≤ digitLimit ∧
        text = decimal n := by
  unfold decimal?
  split <;> simp [*, eq_comm]

end Numeral

end Beeb
