import Beeb.Text.Split
import Beeb.Variable

/-
  Assembler source: what the lines of a listing say to an
  assembler.

  A backslash begins a comment.  A line defines a label,
  defines bytes, or holds an instruction after one space.

  Key definitions include:
    * `Beeb.Assembler.Value`
    * `Beeb.Assembler.Form`
    * `Beeb.Assembler.Statement`
    * `Beeb.Assembler.readValue?`
    * `Beeb.Assembler.readOperand?`
    * `Beeb.Assembler.readLine?`
    * `Beeb.Assembler.readDefinition?`
-/

------------------------------------------------------------
-- Statements
------------------------------------------------------------

namespace Beeb

namespace Assembler

/- A value in an operand. -/
inductive Value where
| number (n : Nat)
/- A symbol, and what is added to it. -/
| symbol (name : String) (plus : Nat)
/- A distance from the address of the instruction. -/
| here (distance : Int)
deriving DecidableEq, Repr

/- How an operand is written. -/
inductive Form where
| absent
| accumulator
| immediate
| direct
| directX
| directY
| indirect
| indirectX
| indirectY
deriving DecidableEq, Repr

/- What one line says. -/
inductive Statement where
| label (name : String)
| bytes (data : List UInt8)
| instruction
    (mnemonic : String)
    (form : Form)
    (value : Value)
deriving DecidableEq, Repr

end Assembler

end Beeb

------------------------------------------------------------
-- Operands
------------------------------------------------------------

namespace Beeb

namespace Assembler

/- The number that digits of a base stand for. -/
def readDigits?
    (base : Nat)
    (cs : List Char) : Option Nat :=
  if cs ≠ [] ∧ cs.all (Numeral.isDigitOf base) then
    some (Numeral.value base cs)
  else none

/- A symbol, which may have a number added to it. -/
def readSymbol?
    (cs : List Char) : Option Value :=
  let name := String.ofList (cs.takeWhile (· ≠ '+'))
  if !Variable.isName name then none
  else
    match cs.dropWhile (· ≠ '+') with
    | [] => some (.symbol name 0)
    | _ :: plus => (readDigits? 10 plus).map (.symbol name ·)

/- A number, a distance from `P%`, or a symbol. -/
def readValue? : List Char → Option Value
| '&' :: cs => (readDigits? 16 cs).map .number
| 'P' :: '%' :: '+' :: cs =>
  (readDigits? 10 cs).map fun n => .here n
| 'P' :: '%' :: '-' :: cs =>
  (readDigits? 10 cs).map fun n => .here (-n)
| cs => readSymbol? cs

/- What stands before a closing bracket at the end. -/
def beforeBracket?
    (cs : List Char) : Option (List Char) :=
  if cs.getLast? = some ')' then some cs.dropLast else none

/- An operand, by its punctuation. -/
def readOperand?
    (cs : List Char) : Option (Form × Value) :=
  match cs with
  | [] => some (.absent, .number 0)
  | ['A'] => some (.accumulator, .number 0)
  | '#' :: cs => (readValue? cs).map (.immediate, ·)
  | '(' :: cs =>
    match Text.splitChars ',' cs with
    | [v] =>
      ((beforeBracket? v).bind readValue?).map (.indirect, ·)
    | [v, ['X', ')']] => (readValue? v).map (.indirectX, ·)
    | [v, ['Y']] =>
      ((beforeBracket? v).bind readValue?).map (.indirectY, ·)
    | _ => none
  | cs =>
    match Text.splitChars ',' cs with
    | [v] => (readValue? v).map (.direct, ·)
    | [v, ['X']] => (readValue? v).map (.directX, ·)
    | [v, ['Y']] => (readValue? v).map (.directY, ·)
    | _ => none

end Assembler

end Beeb

------------------------------------------------------------
-- Lines
------------------------------------------------------------

namespace Beeb

namespace Assembler

/- A byte in hexadecimal. -/
def readByte? : List Char → Option UInt8
| '&' :: cs =>
  ((readDigits? 16 cs).filter (· < 256)).map UInt8.ofNat
| _ => none

/- The statement of a mnemonic and the text behind it. -/
def readStatement?
    (mnemonic operand : List Char) : Option Statement :=
  if mnemonic = ['E', 'Q', 'U', 'B'] then
    ((Text.splitChars ',' operand).mapM readByte?).map .bytes
  else
    (readOperand? operand).map fun (form, value) =>
      .instruction (String.ofList mnemonic) form value

/- A line without its comment and the blanks before that. -/
def code
    (line : List Char) : List Char :=
  Text.dropEnd (· = ' ') (line.takeWhile (· ≠ '\\'))

/- What a line says. -/
def readLine?
    (line : String) : Option Statement :=
  match code line.toList with
  | '.' :: name => some (.label (String.ofList name))
  | ' ' :: cs =>
    readStatement? (cs.takeWhile (· ≠ ' '))
      ((cs.dropWhile (· ≠ ' ')).drop 1)
  | _ => none

/-
  The symbol that a line of a header defines, and its value;
  an equals sign and a space stand between them.
-/
def readDefinition?
    (line : String) : Option (String × Int) :=
  let cs := line.toList
  let name :=
    String.ofList
      (Text.dropEnd (· = ' ') (cs.takeWhile (· ≠ '=')))
  match cs.dropWhile (· ≠ '=') with
  | '=' :: ' ' :: value =>
    if !Variable.isName name then none
    else
      match readValue? value with
      | some (.number n) => some (name, n)
      | _ => none
  | _ => none

end Assembler

end Beeb
