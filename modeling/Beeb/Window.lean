import Beeb.Report
import Std.Data.TreeSet

/-
  Windows: the part of a program to disassemble.

  A window is given by positions in the program.  Adding
  `adjust` to a position gives the address that the byte
  has when the program runs.

  Key definitions include:
    * `Beeb.AddressSet`
    * `Beeb.Window`
    * `Beeb.WindowError`
    * `Beeb.Window.validate`
    * `Beeb.Window.hints`
    * `Beeb.Window.strays`
-/

------------------------------------------------------------
-- Windows
------------------------------------------------------------

namespace Beeb

/- A set of addresses or positions. -/
abbrev AddressSet := Std.TreeSet Int

/-
  A range of positions, and the way from positions to
  addresses.
-/
structure Window where
  offset : Int
  length : Int
  adjust : Int := 0
deriving DecidableEq, Repr

namespace Window

/- The position past the window. -/
def stop
    (w : Window) : Int :=
  w.offset + w.length

/- The address of a position. -/
def address
    (w : Window)
    (position : Int) : Int :=
  position + w.adjust

end Window

end Beeb

------------------------------------------------------------
-- Validation
------------------------------------------------------------

namespace Beeb

/- Why a window does not fit a program. -/
inductive WindowError where
| offsetBeforeStart
| negativeLength
| negativeAdjust
| offsetPastEnd
| exceedsProgram (offset stop size : Int)
deriving DecidableEq, Repr

/-
  The wording of the bounds of a window that exceeds a
  program.
-/
def WindowError.bounds
    (offset stop size : Int) : Except NumeralError String := do
  let first ← Numeral.decimal? offset
  let last ← Numeral.decimal? stop
  let size ← Numeral.decimal? size
  return "window [" ++ first ++ ", " ++ last ++
    ") exceeds program size " ++ size

/- The wording of a window error. -/
def WindowError.message : WindowError → String
| .offsetBeforeStart => "offset cannot be before start of program"
| .negativeLength => "length cannot be negative"
| .negativeAdjust => "branch adjustment cannot be negative"
| .offsetPastEnd => "offset cannot be past end of program"
| .exceedsProgram offset stop size =>
  match bounds offset stop size with
  | .ok text => text
  | .error e => e.message

namespace Window

/- Check a window against the size of a program. -/
def validate
    (w : Window)
    (size : Int) : Except WindowError Unit :=
  if w.offset < 0 then .error .offsetBeforeStart
  else if w.length < 0 then .error .negativeLength
  else if w.adjust < 0 then .error .negativeAdjust
  else if w.length ≠ 0 ∧ size ≤ w.offset then
    .error .offsetPastEnd
  else if size < w.stop then
    .error (.exceedsProgram w.offset w.stop size)
  else .ok ()

/- Which windows fit a program. -/
theorem validate_eq_ok_iff
    (w : Window)
    (size : Int) :
    w.validate size = .ok () ↔
      0 ≤ w.offset ∧ 0 ≤ w.length ∧ 0 ≤ w.adjust ∧
        w.stop ≤ size := by
  unfold validate stop
  repeat' split
  all_goals
    simp
    omega

end Window

end Beeb

------------------------------------------------------------
-- Code Addresses
------------------------------------------------------------

namespace Beeb

namespace Window

/-
  The positions of known code addresses, in ascending order
  and each once. Those before the window can never be
  reached and are left out.
-/
def hints
    (w : Window)
    (addresses : List Int) : List Int :=
  (Std.TreeSet.ofList
    ((addresses.map (· - w.adjust)).filter
      (w.offset ≤ ·))).toList

/- Which positions are known code positions. -/
theorem mem_hints
    (w : Window)
    (addresses : List Int)
    (position : Int) :
    position ∈ w.hints addresses ↔
      w.offset ≤ position ∧
        w.address position ∈ addresses := by
  rw [hints, Std.TreeSet.mem_toList, Std.TreeSet.mem_ofList]
  simp [address]
  grind

/- Known code positions ascend, so none occurs twice. -/
theorem hints_ascending
    (w : Window)
    (addresses : List Int) :
    (w.hints addresses).Pairwise (· < ·) :=
  Std.TreeSet.ordered_toList.imp fun hLess =>
    Int.compare_eq_lt.mp hLess

/- The known code addresses that lie before the window. -/
def strays
    (w : Window)
    (addresses : List Int) : List Int :=
  addresses.filter fun address => address - w.adjust < w.offset

/- The reports on known code addresses before the window. -/
def reports
    (w : Window)
    (addresses : List Int) : List Report :=
  (w.strays addresses).map .strayAddress

end Window

end Beeb
