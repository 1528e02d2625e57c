import Beeb.Numeral.Basic

/-
  Reports: remarks that stand beside a result.

  Key definitions include:
    * `Beeb.Level`
    * `Beeb.Report`
    * `Beeb.Report.level`
    * `Beeb.Report.channel`
    * `Beeb.Report.text`
    * `Beeb.Report.line`
-/

------------------------------------------------------------
-- Reports
------------------------------------------------------------

namespace Beeb

/- How much a report matters. -/
inductive Level where
| debug
| info
| warning
deriving DecidableEq, Repr

/- The word for a level. -/
def Level.word : Level → String
| .debug => "DEBUG"
| .info => "INFO"
| .warning => "WARNING"

/- What there is to remark. -/
inductive Report where
/- A code address that lies before the window. -/
| strayAddress (address : Int)
/- The counts of a finished analysis. -/
| analysed (starts candidates labelled rejected : Nat)
/- The last instruction runs past the window. -/
| overrun (count : Int)
/- A file whose data is not all in the disc image. -/
| entryPastEnd (name : String)
/- A file was copied from a disc image. -/
| extracted (name : String) (size : Nat) (path : String)
/- A file was written. -/
| wrote (path : String)
deriving DecidableEq, Repr

namespace Report

/- How much a report matters. -/
def level : Report → Level
| .strayAddress _ | .entryPastEnd _ => .warning
| .wrote _ => .info
| .analysed .. | .overrun _ | .extracted .. => .debug

/- The part of the program that reports. -/
def channel : Report → String
| .strayAddress _ | .analysed .. => "bbcdisasm.analysis"
| .overrun _ => "bbcdisasm.disassembler"
| .entryPastEnd _ | .extracted .. => "bbcdisasm.dfs"
| .wrote _ => "bbcdisasm.cli"

/- The wording of a report. -/
def text : Report → String
| .strayAddress address =>
  "ignoring code address &" ++ Text.hex 4 address ++
    " before the disassembly window"
| .analysed starts candidates labelled rejected =>
  "branch analysis: " ++ Nat.repr starts ++
    " instruction starts, " ++ Nat.repr candidates ++
    " candidate targets, " ++ Nat.repr labelled ++
    " labelled, " ++ Nat.repr rejected ++ " rejected"
| .overrun count =>
  "final instruction extends " ++ Numeral.decimal count ++
    " byte(s) past the requested window"
| .entryPastEnd name =>
  "catalog entry " ++ name ++ " runs past the end of the image"
| .extracted name size path =>
  "extracted " ++ name ++ " (" ++ Nat.repr size ++
    " bytes) to " ++ path
| .wrote path => "wrote " ++ path

/- A report on one line. -/
def line
    (r : Report) : String :=
  r.level.word ++ " " ++ r.channel ++ ": " ++ r.text

end Report

end Beeb
