import Beeb.Numeral.Basic
import Beeb.Text.Blank
import Beeb.Text.DecimalDigit

/-
  Reading numerals.

  A numeral is a sign, a mark of the base, and digits that
  single underscores may separate, with blanks around it
  all.  Decimal digits of every script count.  An assembler
  numeral is hexadecimal after `&` and has its base marked
  otherwise.

  Key definitions include:
    * `Beeb.Numeral.plain`
    * `Beeb.Numeral.Body`
    * `Beeb.Numeral.wellSpaced`
    * `Beeb.Numeral.value`
    * `Beeb.Numeral.read`
    * `Beeb.Numeral.parse`
-/

------------------------------------------------------------
-- Digits
------------------------------------------------------------

namespace Beeb

namespace Numeral

/-
  The ASCII form of a character: digits of every script are
  ASCII digits, and white space beyond ASCII is a space.
-/
def plain
    (c : Char) : Char :=
  if c.toNat < 128 then c
  else if Text.isBlank c then ' '
  else
    match Text.decimalDigit? c with
    | some d => Nat.digitChar d
    | none => c

/- The blanks allowed beside a numeral, in ASCII form. -/
def isPad
    (c : Char) : Bool :=
  c = ' ' || (9 ≤ c.toNat && c.toNat ≤ 13)

/- The value of a hexadecimal digit in either case. -/
def digitValue?
    (c : Char) : Option Nat :=
  if '0' ≤ c && c ≤ '9' then some (c.toNat - 48)
  else if 'a' ≤ c && c ≤ 'f' then some (c.toNat - 87)
  else if 'A' ≤ c && c ≤ 'F' then some (c.toNat - 55)
  else none

/- Whether a character is a digit of a base. -/
def isDigitOf
    (base : Nat)
    (c : Char) : Bool :=
  (digitValue? c).any (· < base)

/-
  Whether digits follow on each underscore and come before
  it.
-/
def spacedAfter
    (separated : Bool) : List Char → Bool
| [] => !separated
| c :: cs =>
  if c = '_' then !separated && spacedAfter true cs
  else spacedAfter false cs

/-
  Digits, at least one, with single underscores between them
  only.
-/
def wellSpaced
    (run : List Char) : Bool :=
  spacedAfter true run

/-
  The number that digits stand for; underscores do not
  count.
-/
def value
    (base : Nat)
    (run : List Char) : Nat :=
  (run.filterMap digitValue?).foldl
    (fun n d => n * base + d) 0

end Numeral

end Beeb

------------------------------------------------------------
-- Signs And Marks
------------------------------------------------------------

namespace Beeb

namespace Numeral

/- What the digits of a numeral mean. -/
structure Body where
  /- The base of the digits. -/
  base : Nat
  /- A decimal numeral that begins with zero must be zero. -/
  onlyZero : Bool
  /- The digits and all that follows them. -/
  rest : List Char

/- Split off a sign; true for a minus. -/
def splitSign : List Char → Bool × List Char
| '+' :: cs => (false, cs)
| '-' :: cs => (true, cs)
| cs => (false, cs)

/- One underscore may follow a mark. -/
def afterMark : List Char → List Char
| '_' :: cs => cs
| cs => cs

/- Find the base, and drop its mark. -/
def splitMark
    (radix : Radix)
    (cs : List Char) : Body :=
  match radix, cs with
  | _, '0' :: 'x' :: cs => ⟨16, false, afterMark cs⟩
  | _, '0' :: 'X' :: cs => ⟨16, false, afterMark cs⟩
  | .marked, '0' :: 'o' :: cs => ⟨8, false, afterMark cs⟩
  | .marked, '0' :: 'O' :: cs => ⟨8, false, afterMark cs⟩
  | .marked, '0' :: 'b' :: cs => ⟨2, false, afterMark cs⟩
  | .marked, '0' :: 'B' :: cs => ⟨2, false, afterMark cs⟩
  | .marked, '0' :: cs => ⟨10, true, '0' :: cs⟩
  | .marked, cs => ⟨10, false, cs⟩
  | .hexadecimal, cs => ⟨16, false, cs⟩

end Numeral

end Beeb

------------------------------------------------------------
-- Numerals
------------------------------------------------------------

namespace Beeb

namespace Numeral

/-
  Read a numeral. The digit limit is checked once the digits
  are known to be well spaced, before what follows them is
  looked at.
-/
def read
    (radix : Radix)
    (text : String) : Except NumeralError Int :=
  let (negative, cs) :=
    splitSign ((text.toList.map plain).dropWhile isPad)
  let body := splitMark radix cs
  let inRun := fun c => isDigitOf body.base c || c = '_'
  let run := body.rest.takeWhile inRun
  let after := body.rest.dropWhile inRun
  let count := (run.filter (· ≠ '_')).length
  let magnitude := value body.base run
  if !wellSpaced run then
    .error (.malformed radix text)
  else if body.base = 10 && digitLimit < count then
    .error (.tooManyDigits count)
  else if body.onlyZero && magnitude ≠ 0 then
    .error (.malformed radix text)
  else if !after.all isPad then
    .error (.malformed radix text)
  else
    .ok (if negative then -magnitude else magnitude)

/-
  Read an assembler numeral: hexadecimal after `&`, else
  with a marked base.
-/
def parse
    (text : String) : Except NumeralError Int :=
  let trimmed := Text.trim text
  match trimmed.toList with
  | '&' :: cs => read .hexadecimal (String.ofList cs)
  | _ => read .marked trimmed

end Numeral

end Beeb
