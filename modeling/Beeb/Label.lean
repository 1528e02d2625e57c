import Beeb.Numeral.Basic
import Std.Data.TreeMap

/-
  Labels: numbered names for addresses.

  A label can be written as long as its number can.

  Key definitions include:
    * `Beeb.Label`
    * `Beeb.Label.ofIndex`
    * `Beeb.Label.name`
    * `Beeb.Labels`
    * `Beeb.Labels.number`
-/

------------------------------------------------------------
-- Labels
------------------------------------------------------------

namespace Beeb

/- A label, by its number. -/
inductive Label where
| numbered (index : Int)
/- A label whose number has too many digits to be written. -/
| overlong (index : Int)
deriving DecidableEq, Repr

namespace Label

/- The label of a number. -/
def ofIndex
    (index : Int) : Label :=
  match Numeral.decimal? index with
  | .ok _ => .numbered index
  | .error _ => .overlong index

/- The number of a label. -/
def index : Label → Int
| .numbered index
| .overlong index => index

/- The name of a label. -/
def name : Label → Except NumeralError String
| .numbered index => .ok ("label_" ++ Numeral.decimal index)
| .overlong _ => .error .tooLongToWrite

/- The name of the label of a number. -/
theorem name_ofIndex
    (index : Int) :
    (ofIndex index).name =
      (Numeral.decimal? index).map ("label_" ++ ·) := by
  by_cases hShort :
      (Nat.toDigits 10 index.natAbs).length ≤
        Numeral.digitLimit <;>
    simp [ofIndex, Numeral.decimal?, hShort, name, Except.map]

end Label

end Beeb

------------------------------------------------------------
-- Labelled Addresses
------------------------------------------------------------

namespace Beeb

/- The labels of addresses. -/
abbrev Labels := Std.TreeMap Int Label

/-
  Number addresses in the order given. No program has so
  many that a number could become too long.
-/
def Labels.number
    (addresses : List Int) : Labels :=
  Std.TreeMap.ofList
    (addresses.zipIdx.map fun (address, index) =>
      (address, Label.numbered index))

end Beeb
