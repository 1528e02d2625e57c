import Beeb.Operand

/-
  The header of a listing.

  It names the program that wrote the listing and defines
  the operating system symbols in use and all variables.
  It sets the origin unless the program loads at zero.

  Key definitions include:
    * `Beeb.Listing.Symbol`
    * `Beeb.Listing.Header`
    * `Beeb.Listing.HeaderError`
    * `Beeb.Listing.Header.create`
    * `Beeb.Listing.Header.lines`
-/

------------------------------------------------------------
-- Headers
------------------------------------------------------------

namespace Beeb

namespace Listing

/- An operating system address and its name. -/
structure Symbol where
  name : String
  address : Int
deriving DecidableEq, Repr

/- What a header defines. -/
structure Header where
  calls : List Symbol
  vectors : List Symbol
  vars : List Variable
  origin : Int
deriving DecidableEq, Repr

/- Why a header cannot be written. -/
inductive HeaderError where
/- An operating system address that has no name. -/
| unnamed (address : Int)
/- A variable whose value is too long. -/
| unwritable (e : NumeralError)
deriving DecidableEq, Repr

/- The wording of a header error. -/
def HeaderError.message : HeaderError → String
| .unnamed address => Numeral.decimal address
| .unwritable e => e.message

/- The symbol of an address. -/
def Symbol.find
    (names : Mos.Names)
    (address : Int) : Except HeaderError Symbol :=
  match names.find? address with
  | some name => .ok ⟨name, address⟩
  | none => .error (.unnamed address)

/-
  The header for system addresses in use, which it lists in
  order of address.
-/
def Header.create
    (calls vectors : AddressSet)
    (vars : List Variable)
    (origin : Int) : Except HeaderError Header := do
  let calls ← calls.toList.mapM (Symbol.find Mos.calls)
  let vectors ← vectors.toList.mapM (Symbol.find Mos.vectors)
  return { calls, vectors, vars, origin }

end Listing

end Beeb

------------------------------------------------------------
-- Blocks
------------------------------------------------------------

namespace Beeb

namespace Listing

/- The rule above and below the title. -/
def banner : String :=
  "\\ " ++ String.ofList (List.replicate 78 '*')

/- The title lines. -/
def title : List String :=
  [banner, "\\",
    "\\ This disassembly was produced by bbcdisasm",
    "\\", banner, ""]

/-
  A heading, lines, and an empty line; nothing at all if
  there are no lines.
-/
def block
    (heading : String) : List String → List String
| [] => []
| lines => ("\\ " ++ heading) :: lines ++ [""]

/- The definition of a symbol, its name filled up to a width. -/
def Symbol.definition
    (width : Nat)
    (s : Symbol) : String :=
  String.ofList (s.name.toList.rightpad width ' ') ++
    " = " ++ Operand.number 0 s.address

/- The lines that set an origin; none for the origin zero. -/
def originLines
    (origin : Int) : List String :=
  if origin = 0 then []
  else
    ["CODE% = " ++ Operand.number 0 origin, "",
      "ORG CODE%", ""]

end Listing

end Beeb

------------------------------------------------------------
-- Header Lines
------------------------------------------------------------

namespace Beeb

namespace Listing

namespace Header

/- The lines of a header. -/
def lines
    (h : Header) : Except HeaderError (List String) :=
  ((h.vars.mapM Variable.render).mapError
      .unwritable).map
    fun definitions =>
      title ++
        block "OS Call Addresses"
          (h.calls.map (Symbol.definition 6)) ++
        block "OS Vector Addresses"
          (h.vectors.map (Symbol.definition 5)) ++
        block "Variables" definitions ++
        originLines h.origin

end Header

/-
  The lines before the body of a listing that uses system
  addresses and variables.
-/
def headerLines
    (calls vectors : AddressSet)
    (vars : List Variable)
    (origin : Int) : Except HeaderError (List String) :=
  (Header.create calls vectors vars origin).bind
    Header.lines

end Listing

end Beeb
