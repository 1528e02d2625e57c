import Beeb.Bytes
import Beeb.Text.Hex

/-
  Instructions of the 6502, each known by its opcode byte.

  Branches are listed with no operand form of their own:
  their operand is a displacement, and `Instruction.flow`
  tells them apart.

  Key definitions include:
    * `Beeb.Mode`
    * `Beeb.Flow`
    * `Beeb.Instruction`
    * `Beeb.Instruction.documented`
    * `Beeb.Instruction.flow`
    * `Beeb.Instruction.operandWord`
    * `Beeb.Instruction.displacement`
    * `Beeb.Instruction.reassembles`
    * `Beeb.Instruction.tableOf`
-/

------------------------------------------------------------
-- Modes And Flow
------------------------------------------------------------

namespace Beeb

/- The form of an operand. -/
inductive Mode where
/- No operand, as in `RTS`. -/
| implicit
/- The accumulator, as in `ASL A`. -/
| accumulator
/- A constant byte, as in `LDA #&FF`. -/
| immediate
/- A 16-bit address, as in `LDA &1234`. -/
| absolute
/- An 8-bit address, as in `LDA &12`. -/
| zeroPage
/- An 8-bit address plus X, as in `LDA &12,X`. -/
| zeroPageX
/- An 8-bit address plus Y, as in `LDX &12,Y`. -/
| zeroPageY
/- An address held in memory, as in `JMP (&1234)`. -/
| indirect
/- A 16-bit address plus X, as in `LDA &1234,X`. -/
| absoluteX
/- A 16-bit address plus Y, as in `LDA &1234,Y`. -/
| absoluteY
/- A pointer in a zero page table, as in `LDA (&80,X)`. -/
| indirectX
/- A zero page pointer plus Y, as in `LDA (&80),Y`. -/
| indirectY
deriving DecidableEq, Repr

/-
  The modes whose operand is a 16-bit address that an
  assembler may shorten.
-/
def Mode.isAbsolute : Mode → Bool
| .absolute | .absoluteX | .absoluteY => true
| _ => false

/- The part of an instruction in the flow of control. -/
inductive Flow where
| branch
| jump
| neither
deriving DecidableEq, Repr

/-
  An instruction: its opcode, its name, its length in bytes
  with the opcode, and the form of its operand (`none` when
  that is unknown).
-/
structure Instruction where
  opcode : Int
  mnemonic : String
  length : Int
  mode : Option Mode
deriving DecidableEq, Repr

end Beeb

------------------------------------------------------------
-- Classification
------------------------------------------------------------

namespace Beeb

namespace Instruction

/- The undocumented instructions that real programs use. -/
def undocumentedMnemonics : List String :=
  ["ANC", "SRE", "SLO"]

/- The conditional branches. -/
def branchMnemonics : List String :=
  ["BPL", "BMI", "BVC", "BVS", "BCC", "BCS", "BNE", "BEQ"]

/- The jumps and the subroutine call. -/
def jumpMnemonics : List String :=
  ["JMP", "JSR"]

/- Whether assemblers know the instruction. -/
def documented
    (i : Instruction) : Bool :=
  !undocumentedMnemonics.contains i.mnemonic

/- The part an instruction has in the flow of control. -/
def flow
    (i : Instruction) : Flow :=
  if branchMnemonics.contains i.mnemonic then .branch
  else if jumpMnemonics.contains i.mnemonic then .jump
  else .neither

end Instruction

end Beeb

------------------------------------------------------------
-- Operand Bytes
------------------------------------------------------------

namespace Beeb

namespace Instruction

/- The operand byte of an instruction of two or more bytes. -/
def operandByte : List UInt8 → Except FetchError Int
| _ :: b :: _ => .ok b.toNat
| _ => .error ⟨1⟩

/-
  The operand word of an instruction of three bytes, low
  byte first.
-/
def operandWord : List UInt8 → Except FetchError Int
| _ :: low :: high :: _ => .ok (low.toNat + 256 * high.toNat : Nat)
| [_, _] => .error ⟨2⟩
| _ => .error ⟨1⟩

/-
  The distance from a branch to its target. The operand byte
  is signed and counts from the end of the branch, which is
  two bytes long.
-/
def displacement : List UInt8 → Except FetchError Int
| _ :: b :: _ =>
  .ok (if b.toNat > 127 then (b.toNat : Int) - 254 else b.toNat + 2)
| _ => .error ⟨1⟩

/-
  Whether an assembler gives an instruction's text the same
  bytes again. It would shorten an absolute operand below
  `&100` to the zero page form.
-/
def reassembles
    (i : Instruction)
    (data : List UInt8) : Except FetchError Bool :=
  match i.mode with
  | some mode =>
    if mode.isAbsolute then
      (operandWord data).map fun word => !(decide (word < 0x100))
    else .ok true
  | none => .ok true

end Instruction

end Beeb

------------------------------------------------------------
-- Tables
------------------------------------------------------------

namespace Beeb

/- An opcode listed twice in one table. -/
inductive TableError where
| duplicate (opcode : Int)
deriving DecidableEq, Repr

/- The wording of a table error. -/
def TableError.message : TableError → String
| .duplicate opcode =>
  "duplicate opcode definition 0x" ++ Text.hex 2 opcode

namespace Instruction

/- Add instructions to a table one by one. -/
def addAll
    (table : List Instruction) :
    List Instruction → Except TableError (List Instruction)
| [] => .ok table
| i :: rest =>
  if table.any (·.opcode = i.opcode) then
    .error (.duplicate i.opcode)
  else
    addAll (table ++ [i]) rest

/- A table of instructions in which no opcode occurs twice. -/
def tableOf
    (rows : List Instruction) :
    Except TableError (List Instruction) :=
  addAll [] rows

/- Instructions of different opcodes are all added. -/
theorem addAll_of_nodup
    (table rows : List Instruction)
    (hNodup : ((table ++ rows).map opcode).Nodup) :
    addAll table rows = .ok (table ++ rows) := by
  induction rows generalizing table with
  | nil => simp [addAll]
  | cons i rows ih =>
    have hFresh :
        table.any (·.opcode = i.opcode) = false := by
      simp [List.nodup_append] at hNodup ⊢
      grind
    rw [addAll, hFresh]
    simpa using ih (table ++ [i]) (by simpa using hNodup)

end Instruction

end Beeb
