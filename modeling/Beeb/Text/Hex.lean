/-
  Hexadecimal digits in columns of a least width.

  Key definitions include:
    * `Beeb.Text.hexDigits`
    * `Beeb.Text.hex`
-/

------------------------------------------------------------
-- Hexadecimal Text
------------------------------------------------------------

namespace Beeb

namespace Text

/-
  Lower case hexadecimal digits, filled up with zeros to a
  width.
-/
def hexDigits
    (width : Nat)
    (n : Nat) : List Char :=
  (Nat.toDigits 16 n).leftpad width '0'

/-
  Upper case hexadecimal text of at least `width`
  characters. A minus sign is one of them.
-/
def hex
    (width : Nat)
    (n : Int) : String :=
  if n < 0 then
    "-" ++ String.ofList
      ((hexDigits (width - 1) n.natAbs).map Char.toUpper)
  else
    String.ofList
      ((hexDigits width n.natAbs).map Char.toUpper)

/- The text of a number that is not negative. -/
theorem toList_hex
    (width : Nat)
    (n : Int)
    (hPositive : 0 ≤ n) :
    (hex width n).toList =
      (hexDigits width n.toNat).map Char.toUpper := by
  have hSign : ¬ n < 0 := by omega
  have hAbs : n.natAbs = n.toNat := by omega
  rw [hex, if_neg hSign, hAbs, String.toList_ofList]

end Text

end Beeb
