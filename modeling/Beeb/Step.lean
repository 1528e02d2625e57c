import Beeb.Instruction.Table

/-
  Steps: one advance through a program.

  A step covers an instruction or a few bytes of data.  An
  instruction counts as code only if an assembler gives its
  text the same bytes again; all else is listed as data.

  Key definitions include:
    * `Beeb.Verdict`
    * `Beeb.Step`
    * `Beeb.Step.straddles`
    * `Beeb.Step.classify`
-/

------------------------------------------------------------
-- Verdicts
------------------------------------------------------------

namespace Beeb

/- What the bytes of a step are, and why. -/
inductive Verdict where
/- An instruction that reassembles to its own bytes. -/
| code (instruction : Instruction)
/- A byte that begins no known instruction. -/
| unknownOpcode
/- An instruction that assemblers do not know. -/
| undocumented (instruction : Instruction)
/-
  An absolute operand that would be shortened to the zero
  page.
-/
| zeroPageFold (instruction : Instruction)
/-
  An instruction that would run across a known code
  position.
-/
| straddlesCode (instruction : Instruction)
/- An instruction cut off by the end of the program. -/
| endOfProgram (instruction : Instruction)
deriving DecidableEq, Repr

/- The instruction that the first byte of a step begins. -/
def Verdict.instruction? : Verdict → Option Instruction
| .code i
| .undocumented i
| .zeroPageFold i
| .straddlesCode i
| .endOfProgram i => some i
| .unknownOpcode => none

/- One advance of the cursor. -/
structure Step where
  verdict : Verdict
  data : List UInt8
deriving DecidableEq, Repr

end Beeb

------------------------------------------------------------
-- Views Of A Step
------------------------------------------------------------

namespace Beeb

namespace Step

/- How far the step advances. -/
def length
    (s : Step) : Int :=
  s.data.length

/- Whether the step is listed as an instruction. -/
def isCode
    (s : Step) : Bool :=
  match s.verdict with
  | .code _ => true
  | _ => false

/- The instruction of a step that covers all of its bytes. -/
def complete?
    (s : Step) : Option Instruction :=
  s.verdict.instruction?.filter (s.length = ·.length)

/-
  Whether the step begins with an instruction that
  assemblers do not know.
-/
def isUndocumented
    (s : Step) : Bool :=
  s.verdict.instruction?.any (!·.documented)

end Step

end Beeb

------------------------------------------------------------
-- Classification
------------------------------------------------------------

namespace Beeb

namespace Step

/-
  The next known code position, if bytes from a cursor on
  run past it.
-/
def cut?
    (cursor length : Int)
    (pending : Option Int) : Option Int :=
  pending.filter (· < cursor + length)

/-
  Whether bytes from a cursor on run past the next known
  code position.
-/
def straddles
    (cursor length : Int)
    (pending : Option Int) : Bool :=
  (cut? cursor length pending).isSome

/-
  The verdict on an instruction that stands clear of known
  code positions.
-/
def judge
    (i : Instruction)
    (data : List UInt8) : Except FetchError Verdict :=
  if (data.length : Int) < i.length then .ok (.endOfProgram i)
  else if !i.documented then .ok (.undocumented i)
  else
    (i.reassembles data).map fun same =>
      if same then .code i else .zeroPageFold i

/-
  The step that begins with a known instruction. If it would
  run across the next known code position, it ends there.
-/
def ofInstruction
    (program : Bytes)
    (cursor : Int)
    (pending : Option Int)
    (i : Instruction) : Except FetchError Step :=
  match cut? cursor i.length pending with
  | some target =>
    .ok ⟨.straddlesCode i, (program.slice cursor target).toList⟩
  | none =>
    let data :=
      (program.slice cursor (cursor + i.length)).toList
    (judge i data).map fun verdict => ⟨verdict, data⟩

/-
  The step that begins at a cursor. `pending` is the next
  known code position, which no step may run across.
-/
def classify
    (program : Bytes)
    (cursor : Int)
    (pending : Option Int) : Except FetchError Step :=
  (program.fetch cursor).bind fun first =>
    match Instruction.ofOpcode? first.toNat with
    | some i => ofInstruction program cursor pending i
    | none =>
      .ok ⟨.unknownOpcode,
        (program.slice cursor (cursor + 1)).toList⟩

end Step

end Beeb
