import Beeb.Text.Hex
import Beeb.Text.Printable

/-
  Texts quoted for an error message.

  A quoted text shows on one line whatever the text holds:
  what cannot be printed is escaped by its code point.

  Key definitions include:
    * `Beeb.Text.quoteMark`
    * `Beeb.Text.escape`
    * `Beeb.Text.quote`
-/

------------------------------------------------------------
-- Quoting
------------------------------------------------------------

namespace Beeb

namespace Text

/-
  The mark around a quoted text: a single quote, unless the
  text holds one and a double quote would need no escape.
-/
def quoteMark
    (cs : List Char) : Char :=
  if cs.contains '\'' && !cs.contains '"' then '"' else '\''

/- One character between quotes. -/
def escape
    (mark : Char)
    (c : Char) : List Char :=
  if c = '\\' || c = mark then ['\\', c]
  else if c = '\n' then ['\\', 'n']
  else if c = '\r' then ['\\', 'r']
  else if c = '\t' then ['\\', 't']
  else if isPrintable c then [c]
  else if c.toNat < 0x100 then '\\' :: 'x' :: hexDigits 2 c.toNat
  else if c.toNat < 0x10000 then '\\' :: 'u' :: hexDigits 4 c.toNat
  else '\\' :: 'U' :: hexDigits 8 c.toNat

/- A text between quotes. -/
def quote
    (text : String) : String :=
  let mark := quoteMark text.toList
  String.ofList
    (mark :: text.toList.flatMap (escape mark) ++ [mark])

end Text

end Beeb
