import Beeb.Analysis
import Beeb.Variable

/-
  Operands as the assembler reads them.

  A jump shows the operating system call or the label it
  goes to, a branch its label, and any other absolute
  operand the variable or vector of that value.  A branch
  with no label is written relative to `P%`, the address of
  the instruction, since a bare number would be absolute.

  Key definitions include:
    * `Beeb.OperandError`
    * `Beeb.Operand.jumpTarget`
    * `Beeb.Operand.branchTarget`
    * `Beeb.Operand.absolute`
    * `Beeb.Operand.text`
-/

------------------------------------------------------------
-- Addresses As Operands
------------------------------------------------------------

namespace Beeb

/- Why an instruction has no operand text. -/
inductive OperandError where
/- The instruction has too few bytes. -/
| fetch (e : FetchError)
/- The label has no name. -/
| label (e : NumeralError)
/- The form of the operand is unknown. -/
| unknownMode
deriving DecidableEq, Repr

/- The wording of an operand error. -/
def OperandError.message : OperandError → String
| .fetch e => e.message
| .label e => e.message
| .unknownMode => "unsupported addressing mode None"

namespace Operand

/- A number in the assembler's hexadecimal form. -/
def number
    (width : Nat)
    (n : Int) : String :=
  "&" ++ Text.hex width n

/- The text of a number that is not negative. -/
theorem toList_number
    (width : Nat)
    (n : Int)
    (hPositive : 0 ≤ n) :
    (number width n).toList =
      '&' ::
        (Text.hexDigits width n.toNat).map Char.toUpper := by
  rw [number, String.toList_append,
    Text.toList_hex width n hPositive]
  rfl

/- A distance from the address of the instruction. -/
def relative
    (distance : Int) : String :=
  "P%" ++ (if distance < 0 then "-" else "+") ++
    Numeral.decimal distance.natAbs

/- The target of a jump. -/
def jumpTarget
    (target : Int)
    (labels : Labels) : Except NumeralError String :=
  match Mos.callName? target with
  | some name => .ok name
  | none =>
    match labels[target]? with
    | some label => label.name
    | none => .ok (number 4 target)

/- The target of a branch at an address. -/
def branchTarget
    (address distance : Int)
    (labels : Labels) : Except NumeralError String :=
  match labels[address + distance]? with
  | some label => label.name
  | none => .ok (relative distance)

/-
  An absolute operand of an instruction that does not jump.
-/
def absolute
    (value : Int)
    (vars : List Variable) : String :=
  match Variable.find? vars value with
  | some v => v.name
  | none =>
    match Mos.vectorName? value with
    | some name => name
    | none =>
      match Mos.vectorName? (Mos.evenBase value) with
      | some name => name ++ "+1"
      | none => number 4 value

end Operand

end Beeb

------------------------------------------------------------
-- Operand Text
------------------------------------------------------------

namespace Beeb

namespace Operand

/- The text of an operand whose form says all. -/
def ofMode
    (mode : Mode)
    (data : List UInt8)
    (vars : List Variable) : Except FetchError String :=
  let byte := Instruction.operandByte data
  let word := Instruction.operandWord data
  match mode with
  | .implicit => .ok ""
  | .accumulator => .ok "A"
  | .immediate => byte.map fun b => "#" ++ number 2 b
  | .absolute => word.map fun w => absolute w vars
  | .zeroPage => byte.map fun b => number 2 b
  | .zeroPageX => byte.map fun b => number 2 b ++ ",X"
  | .zeroPageY => byte.map fun b => number 2 b ++ ",Y"
  | .indirect => word.map fun w => "(" ++ number 4 w ++ ")"
  | .absoluteX => word.map fun w => number 4 w ++ ",X"
  | .absoluteY => word.map fun w => number 4 w ++ ",Y"
  | .indirectX => byte.map fun b => "(" ++ number 2 b ++ ",X)"
  | .indirectY => byte.map fun b => "(" ++ number 2 b ++ "),Y"

/- The operand text of an instruction at an address. -/
def text
    (i : Instruction)
    (data : List UInt8)
    (address : Int)
    (labels : Labels)
    (vars : List Variable) : Except OperandError String :=
  match i.flow, i.mode with
  | .jump, some .absolute => do
    let target ←
      (Instruction.operandWord data).mapError .fetch
    (jumpTarget target labels).mapError .label
  | .branch, _ => do
    let distance ←
      (Instruction.displacement data).mapError .fetch
    (branchTarget address distance labels).mapError .label
  | _, some mode => (ofMode mode data vars).mapError .fetch
  | _, none => .error .unknownMode

end Operand

end Beeb
