import Beeb.Text.Split
import Beeb.Variable

/-
  Arguments of the command that disassembles a file.

  Key definitions include:
    * `Beeb.Command.ArgumentError`
    * `Beeb.Command.readNumber`
    * `Beeb.Command.resolveWindow`
    * `Beeb.Command.readLoadAddress`
    * `Beeb.Command.readCodeAddresses`
    * `Beeb.Command.readDefinitions`
-/

------------------------------------------------------------
-- Errors
------------------------------------------------------------

namespace Beeb

namespace Command

/- Why an argument is refused. -/
inductive ArgumentError where
/- A text that is no number; `what` says what it should be. -/
| notANumber (what : String)
| offsetBeforeStart
| offsetPastEnd
| negativeLength
| negativeLoadAddress
| negativeAddress
| definition (e : VariableError)
deriving DecidableEq, Repr

/- The wording of an argument error. -/
def ArgumentError.message : ArgumentError → String
| .notANumber what => "Could not parse " ++ what
| .offsetBeforeStart => "offset cannot be before start of file"
| .offsetPastEnd => "offset cannot be past end of file"
| .negativeLength => "length cannot be negative"
| .negativeLoadAddress => "load address cannot be negative"
| .negativeAddress => "Invalid address"
| .definition e => e.message

/- Read a number. -/
def readNumber
    (what text : String) : Except ArgumentError Int :=
  (Numeral.parse text).mapError fun _ => .notANumber what

end Command

end Beeb

------------------------------------------------------------
-- Windows
------------------------------------------------------------

namespace Beeb

namespace Command

/-
  The offset in a file of a given size; a missing one is
  zero.
-/
def resolveOffset
    (size : Int) :
    Option String → Except ArgumentError Int
| none => .ok 0
| some text => do
  let offset ← readNumber "offset" text
  if offset < 0 then .error .offsetBeforeStart
  else if size ≤ offset then .error .offsetPastEnd
  else return offset

/- The length of what is wanted; there may be less of it. -/
def resolveLength
    (available : Int) :
    Option String → Except ArgumentError Int
| none => .ok available
| some text => do
  let length ← readNumber "length" text
  if length < 0 then .error .negativeLength
  else return min length available

/-
  The offset and the length of the window in a file of a
  given size.
-/
def resolveWindow
    (size : Int)
    (offset length : Option String) :
    Except ArgumentError (Int × Int) := do
  let offset ← resolveOffset size offset
  let length ← resolveLength (size - offset) length
  return (offset, length)

end Command

end Beeb

------------------------------------------------------------
-- Addresses And Definitions
------------------------------------------------------------

namespace Beeb

namespace Command

/- The load address. -/
def readLoadAddress
    (text : String) : Except ArgumentError Int := do
  let address ← readNumber "load address" text
  if address < 0 then .error .negativeLoadAddress
  else return address

/- One code address. -/
def readCodeAddress
    (text : String) : Except ArgumentError Int := do
  let address ← readNumber "address" text
  if address < 0 then .error .negativeAddress
  else return address

/- Code addresses between commas; blank parts do not count. -/
def readCodeAddresses
    (text : String) : Except ArgumentError (List Int) :=
  ((Text.split ',' text).filter
      (!·.toList.all Text.isBlank)).mapM readCodeAddress

/- Variables given by definitions. -/
def readDefinitions
    (definitions : List String) :
    Except ArgumentError (List Variable) :=
  definitions.mapM fun definition =>
    (Variable.parse definition).mapError .definition

end Command

end Beeb
