import Beeb.Assembler.Source
import Beeb.Instruction.Table

/-
  Assembly: from source to bytes.

  The first pass gives every label its address.  It takes a
  symbol that is not known yet for a wide address.  The
  second pass encodes each line; it refuses a line whose
  size has changed since the first pass.  The zero page form
  of an instruction is chosen whenever its operand allows.

  Key definitions include:
    * `Beeb.Assembler.Symbols`
    * `Beeb.Assembler.Form.modes`
    * `Beeb.Assembler.select?`
    * `Beeb.Assembler.layout?`
    * `Beeb.Assembler.encode?`
    * `Beeb.Assembler.assemble?`
-/

------------------------------------------------------------
-- Choosing Instructions
------------------------------------------------------------

namespace Beeb

namespace Assembler

/- The values of symbols. -/
abbrev Symbols := List (String × Int)

/- The value of an operand of an instruction at an address. -/
def evaluate?
    (symbols : Symbols)
    (address : Int) : Value → Option Int
| .number n => some n
| .symbol name plus => (symbols.lookup name).map (· + plus)
| .here distance => some (address + distance)

/-
  The modes that a form stands for: one for operands in the
  zero page, if there is one, and one for all others.
-/
def Form.modes : Form → Option Mode × Mode
| .absent => (none, .implicit)
| .accumulator => (none, .accumulator)
| .immediate => (none, .immediate)
| .direct => (some .zeroPage, .absolute)
| .directX => (some .zeroPageX, .absoluteX)
| .directY => (some .zeroPageY, .absoluteY)
| .indirect => (none, .indirect)
| .indirectX => (none, .indirectX)
| .indirectY => (none, .indirectY)

/- The documented instruction of a mnemonic and a mode. -/
def find?
    (mnemonic : String)
    (mode : Mode) : Option Instruction :=
  Instruction.table.find? fun i =>
    i.mnemonic = mnemonic && i.mode = some mode &&
      i.documented && i.flow ≠ .branch

/- The branch of a mnemonic. -/
def findBranch?
    (mnemonic : String) : Option Instruction :=
  Instruction.table.find? fun i =>
    i.mnemonic = mnemonic && i.flow = .branch

/- Whether the value of an operand lies in the zero page. -/
def inZeroPage
    (value : Option Int) : Bool :=
  value.any fun v => 0 ≤ v && v < 0x100

/-
  The instruction that a line stands for. A value that is
  not known is taken for a wide address.
-/
def select?
    (mnemonic : String)
    (form : Form)
    (value : Option Int) : Option Instruction :=
  match findBranch? mnemonic with
  | some i => if form = .direct then some i else none
  | none =>
    let (short, wide) := form.modes
    let shortened :=
      if inZeroPage value then short.bind (find? mnemonic)
      else none
    shortened <|> find? mnemonic wide

end Assembler

end Beeb

------------------------------------------------------------
-- First Pass
------------------------------------------------------------

namespace Beeb

namespace Assembler

/- The size of a statement at an address. -/
def size?
    (symbols : Symbols)
    (address : Int) : Statement → Option Int
| .label _ => some 0
| .bytes data => some data.length
| .instruction mnemonic form value =>
  (select? mnemonic form (evaluate? symbols address value)).map
    (·.length)

/-
  The symbols with all labels added, and the sizes of the
  statements. No symbol may be defined twice.
-/
def layout? :
    Symbols → Int → List Statement →
      Option (Symbols × List Int)
| symbols, _, [] => some (symbols, [])
| symbols, address, statement :: rest => do
  let size ← size? symbols address statement
  let known ←
    match statement with
    | .label name =>
      if (symbols.lookup name).isSome then none
      else some (symbols ++ [(name, address)])
    | _ => some symbols
  let (symbols, sizes) ← layout? known (address + size) rest
  return (symbols, size :: sizes)

end Assembler

end Beeb

------------------------------------------------------------
-- Second Pass
------------------------------------------------------------

namespace Beeb

namespace Assembler

/- A value of one byte. -/
def byte?
    (value : Int) : Option (List UInt8) :=
  if 0 ≤ value ∧ value < 0x100 then
    some [UInt8.ofNat value.toNat]
  else none

/- A value of two bytes, low byte first. -/
def word?
    (value : Int) : Option (List UInt8) :=
  if 0 ≤ value ∧ value < 0x10000 then
    some
      [UInt8.ofNat (value.toNat % 256),
        UInt8.ofNat (value.toNat / 256)]
  else none

/- The operand byte of a branch from an address. -/
def branchByte?
    (address target : Int) : Option (List UInt8) :=
  let distance := target - (address + 2)
  if -128 ≤ distance ∧ distance < 128 then
    some [UInt8.ofNat (distance % 256).toNat]
  else none

/- The operand bytes of an instruction at an address. -/
def operandBytes?
    (i : Instruction)
    (address value : Int) : Option (List UInt8) :=
  if i.flow = .branch then branchByte? address value
  else if i.length = 1 then some []
  else if i.length = 2 then byte? value
  else word? value

/- The bytes of a statement at an address. -/
def encode?
    (symbols : Symbols)
    (address : Int) : Statement → Option (List UInt8)
| .label _ => some []
| .bytes data => some data
| .instruction mnemonic form value => do
  let value ← evaluate? symbols address value
  let i ← select? mnemonic form (some value)
  let operand ← operandBytes? i address value
  return UInt8.ofNat i.opcode.toNat :: operand

/-
  The bytes of all statements. Each must have the size that
  the first pass found.
-/
def encodeAll?
    (symbols : Symbols) :
    Int → List (Statement × Int) → Option (List UInt8)
| _, [] => some []
| address, (statement, size) :: rest => do
  let bytes ← encode? symbols address statement
  if bytes.length = size then
    return bytes ++
      (← encodeAll? symbols (address + size) rest)
  else none

end Assembler

end Beeb

------------------------------------------------------------
-- Programs
------------------------------------------------------------

namespace Beeb

namespace Assembler

/-
  The bytes that lines assemble to from an origin on, with
  symbols that are defined beforehand.
-/
def assemble?
    (symbols : Symbols)
    (origin : Int)
    (lines : List String) : Option (List UInt8) := do
  let statements ← lines.mapM readLine?
  let (symbols, sizes) ← layout? symbols origin statements
  encodeAll? symbols origin (statements.zip sizes)

end Assembler

end Beeb
