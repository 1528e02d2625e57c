import Beeb.Assembler.Output
import Beeb.Listing.Line

/-
  What a listing says, read off its lines: the symbols it
  defines, the origin it sets, and where its lines stand.

  A label stands for the address of the line after it.  A
  definition in the header is read the way the user writes
  one.

  Key definitions include:
    * `Beeb.Instruction.encoded?`
    * `Beeb.Listing.isWord`
    * `Beeb.Listing.isDistance`
    * `Beeb.Listing.Line.address?`
    * `Beeb.Listing.Line.size`
    * `Beeb.Listing.Line.absoluteWord?`
    * `Beeb.Listing.symbols`
    * `Beeb.Listing.Resolves`
    * `Beeb.Listing.names`
    * `Beeb.Listing.systemNames`
    * `Beeb.Listing.labelNames`
    * `Beeb.Listing.blockUnder`
    * `Beeb.Listing.variableBlock`
    * `Beeb.Listing.origin`
    * `Beeb.Listing.runningAddress`
-/

------------------------------------------------------------
-- Operands
------------------------------------------------------------

namespace Beeb

/-
  The address that an instruction encodes: the target of a
  branch, or an absolute operand.
-/
def Instruction.encoded?
    (i : Instruction)
    (address : Int) : List UInt8 → Option Int
| [_, b] =>
  if i.flow = .branch then
    some (address + (b.toInt8.toInt + 2))
  else none
| [_, low, high] =>
  if i.mode = some .absolute then
    some (low.toNat + 256 * high.toNat : Int)
  else none
| _ => none

namespace Listing

/- Whether a text is a number of four hexadecimal digits. -/
def isWord
    (text : String) : Bool :=
  match text.toList with
  | '&' :: digits =>
    digits.length = 4 && digits.all (Numeral.isDigitOf 16)
  | _ => false

/- Whether a text is a signed distance from `P%`. -/
def isDistance
    (text : String) : Bool :=
  match text.toList with
  | 'P' :: '%' :: sign :: digits =>
    (sign = '+' || sign = '-') && !digits.isEmpty &&
      digits.all (Numeral.isDigitOf 10)
  | _ => false

end Listing

end Beeb

------------------------------------------------------------
-- Single Lines
------------------------------------------------------------

namespace Beeb

namespace Listing

namespace Line

/- The address in the comment of a line. -/
def address? : Line → Option Int
| .instruction _ _ address _
| .data _ address _ => some address
| .header _ | .label _ => none

/- How many bytes a line assembles to. -/
def size : Line → Int
| .instruction _ _ _ bytes
| .data bytes _ _ => bytes.length
| .header _ | .label _ => 0

/-
  The absolute operand in the bytes of an instruction that
  does not jump: the number that a variable can stand for.
-/
def absoluteWord? : Line → Option Int
| .instruction _ _ _ bytes =>
  (bytes.head?.bind (Instruction.ofOpcode? ·.toNat)).bind
    fun i =>
      if i.flow ≠ .jump ∧ i.mode = some .absolute then
        (Instruction.operandWord bytes).toOption
      else none
| .header _ | .label _ | .data .. => none

/- The operand that the line of an instruction shows. -/
def operand? : Line → Option String
| .instruction _ operand _ _ => some operand
| .header _ | .label _ | .data .. => none

/- The text of a line of the header. -/
def headerText? : Line → Option String
| .header text => some text
| .label _ | .instruction .. | .data .. => none

/- The name in the definition of a label. -/
def labelName? : Line → Option String
| .label name => some name
| .header _ | .instruction .. | .data .. => none

end Line

end Listing

end Beeb

------------------------------------------------------------
-- Symbols
------------------------------------------------------------

namespace Beeb

namespace Listing

open Assembler

/- The symbol that a text defines, and its value. -/
def definition?
    (text : String) : Option (String × Int) :=
  match Variable.parse text with
  | .ok v => some (v.name, v.value)
  | .error _ => none

/- The symbols that lines define, and their values. -/
def symbols : List Line → Symbols
| [] => []
| .header text :: rest =>
  (definition? text).toList ++ symbols rest
| .label name :: rest =>
  ((rest.head?.bind Line.address?).map (name, ·)).toList ++
    symbols rest
| .instruction .. :: rest
| .data .. :: rest => symbols rest

/-
  How an operand names a value: by a symbol that has it, or
  by the symbol of the value before it.
-/
inductive Resolves
    (symbols : Symbols) : String → Int → Prop where
| exact
    {name : String}
    {value : Int}
    (hName : Variable.isName name = true)
    (hDefined : (name, value) ∈ symbols) :
    Resolves symbols name value
| next
    {name : String}
    {value : Int}
    (hName : Variable.isName name = true)
    (hDefined : (name, value) ∈ symbols) :
    Resolves symbols (name ++ "+1") (value + 1)

/- The names that lines of the header define. -/
def headerNames
    (lines : List Line) : List String :=
  ((lines.filterMap Line.headerText?).filterMap
    definition?).map Prod.fst

/- The names that label lines define. -/
def labelNames
    (lines : List Line) : List String :=
  lines.filterMap Line.labelName?

/- All names that lines define. -/
def names
    (lines : List Line) : List String :=
  headerNames lines ++ labelNames lines

/-
  The names of the operating system that lines of the header
  define. Their values are hexadecimal, those of variables
  are decimal.
-/
def systemNames
    (lines : List Line) : List String :=
  ((lines.filterMap Line.headerText?).filterMap
    readDefinition?).map Prod.fst

/-
  The lines of the header under a heading, up to the next
  empty line.
-/
def blockUnder
    (heading : String)
    (lines : List Line) : List String :=
  let texts := lines.filterMap Line.headerText?
  ((texts.dropWhile (· ≠ "\\ " ++ heading)).drop 1).takeWhile
    (· ≠ "")

/-
  The lines of the header under the heading of the
  variables.
-/
def variableBlock
    (lines : List Line) : List String :=
  blockUnder "Variables" lines

end Listing

end Beeb

------------------------------------------------------------
-- Addresses
------------------------------------------------------------

namespace Beeb

namespace Listing

/- What stands before the value of an origin. -/
def originMark : List Char :=
  "CODE% = &".toList

/- The origin that a text sets. -/
def readOrigin?
    (text : String) : Option Int :=
  let cs := text.toList
  if originMark.isPrefixOf cs then
    (Assembler.readDigits? 16
      (cs.drop originMark.length)).map Int.ofNat
  else none

/-
  The address at which lines begin to assemble: the origin
  that the header sets, or zero.
-/
def origin
    (lines : List Line) : Int :=
  (((lines.filterMap Line.headerText?).filterMap
    readOrigin?).head?).getD 0

/- The address past lines that begin at an address. -/
def runningAddress
    (start : Int) : List Line → Int
| [] => start
| line :: rest => runningAddress (start + line.size) rest

end Listing

end Beeb
