import Beeb.Operand

/-
  The lines of a listing.

  Instructions and data are followed by a comment, which
  begins at a fixed column and shows the address and the
  bytes; a further column shows the bytes as characters.

  Key definitions include:
    * `Beeb.Listing.pad`
    * `Beeb.Listing.printable`
    * `Beeb.Listing.Line`
    * `Beeb.Listing.Line.render`
-/

------------------------------------------------------------
-- Columns
------------------------------------------------------------

namespace Beeb

namespace Listing

/- The column at which comments begin. -/
def commentColumn : Nat := 24

/- The column at which bytes are shown as characters. -/
def printableColumn : Nat := 44

/- Fill a text up to a column, with one space at least. -/
def pad
    (text : String)
    (column : Nat) : String :=
  text ++ String.ofList
    (List.replicate (max (column - text.length) 1) ' ')

/- How long a text is that was filled up to a column. -/
theorem length_pad
    (text : String)
    (column : Nat) :
    (pad text column).length = max column (text.length + 1) := by
  simp [pad]
  omega

/-
  Bytes as characters, with a dot for what is not plain
  ASCII.
-/
def printable
    (data : List UInt8) : String :=
  String.ofList
    (data.map fun b =>
      if 32 ≤ b.toNat ∧ b.toNat ≤ 126 then Char.ofNat b.toNat
      else '.')

/- A byte as two hexadecimal digits. -/
def byteText
    (b : UInt8) : String :=
  Text.hex 2 b.toNat

end Listing

end Beeb

------------------------------------------------------------
-- Lines
------------------------------------------------------------

namespace Beeb

namespace Listing

/- A line of a listing. -/
inductive Line where
/- A line of the header. -/
| header (text : String)
/- The definition of a label. -/
| label (name : String)
/- An instruction; the operand is empty if there is none. -/
| instruction
    (mnemonic operand : String)
    (address : Int)
    (bytes : List UInt8)
/-
  Data; an undocumented instruction is named in the comment.
-/
| data
    (bytes : List UInt8)
    (address : Int)
    (undocumented : String)
deriving DecidableEq, Repr

namespace Line

/- The statement that an instruction assembles from. -/
def statement
    (mnemonic operand : String) : String :=
  if operand.isEmpty then " " ++ mnemonic
  else " " ++ mnemonic ++ " " ++ operand

/- The statement that defines bytes. -/
def byteStatement
    (bytes : List UInt8) : String :=
  " EQUB " ++ ",".intercalate (bytes.map ("&" ++ byteText ·))

/- A statement, its comment, and its bytes as characters. -/
def columns
    (statement comment : String)
    (bytes : List UInt8) : String :=
  pad (pad statement commentColumn ++ "\\ " ++ comment)
      printableColumn ++
    printable bytes

/- The text of a line. -/
def render : Line → String
| .header text => text
| .label name => "." ++ name
| .instruction mnemonic operand address bytes =>
  columns (statement mnemonic operand)
    (" ".intercalate
      (Operand.number 4 address :: bytes.map byteText))
    bytes
| .data bytes address undocumented =>
  columns (byteStatement bytes)
    (Operand.number 4 address ++ " " ++
      (if undocumented.isEmpty then ""
        else "UD " ++ undocumented))
    bytes

end Line

end Listing

end Beeb
