import Beeb.Analysis
import Beeb.Variable

/-
  Disassemblies: a program, the window to list, and what
  the user says about it.

  A disassembly holds a window that fits its program.  Only
  its variables can change.

  Key definitions include:
    * `Beeb.Disassembly`
    * `Beeb.Disassembly.create`
    * `Beeb.Disassembly.add`
    * `Beeb.Disassembly.addDefinition`
    * `Beeb.Disassembly.steps`
    * `Beeb.Disassembly.analysis`
-/

------------------------------------------------------------
-- Disassemblies
------------------------------------------------------------

namespace Beeb

/-
  A window into a program, known code addresses, and
  variables.
-/
structure Disassembly where
  program : Bytes
  window : Window
  codeAddresses : List Int
  vars : List Variable
  fits : window.validate program.size = .ok ()

namespace Disassembly

/- All of a program from an offset on. -/
def restLength
    (program : Bytes)
    (offset : Int) : Int :=
  max (program.size - offset) 0

/- From where on the rest of a program can be listed. -/
theorem validate_restLength_iff
    (program : Bytes)
    (offset adjust : Int) :
    Window.validate
        ⟨offset, restLength program offset, adjust⟩
        program.size = .ok () ↔
      0 ≤ offset ∧ offset ≤ program.size ∧ 0 ≤ adjust := by
  rw [Window.validate_eq_ok_iff]
  simp only [restLength, Window.stop]
  omega

/- A disassembly, if the window fits the program. -/
def create
    (program : Bytes)
    (window : Window)
    (codeAddresses : List Int)
    (vars : List Variable) :
    Except WindowError Disassembly :=
  match fits : window.validate program.size with
  | .ok () =>
    .ok
      { program, window, codeAddresses, fits
        vars := Variable.merge vars }
  | .error e => .error e

/- The address at which the program is loaded. -/
def loadAddress
    (d : Disassembly) : Int :=
  d.window.adjust

/- Add a variable. -/
def add
    (d : Disassembly)
    (v : Variable) : Disassembly :=
  { d with vars := Variable.merge (d.vars ++ [v]) }

/- Add a variable given by a definition. -/
def addDefinition
    (d : Disassembly)
    (definition : String) :
    Except VariableError Disassembly :=
  (Variable.parse definition).map d.add

end Disassembly

end Beeb

------------------------------------------------------------
-- Walk And Analysis
------------------------------------------------------------

namespace Beeb

namespace Disassembly

/- The known code positions ahead. -/
def hints
    (d : Disassembly) : List Int :=
  d.window.hints d.codeAddresses

/- The steps through the window. -/
def steps
    (d : Disassembly) : List Placed :=
  (Walk.all d.program d.window d.hints).steps

/- The labels and system symbols of the window. -/
def analysis
    (d : Disassembly) : Analysis :=
  .ofSteps d.window.adjust d.steps

/-
  The reports on code addresses that lie before the window.
-/
def strayReports
    (d : Disassembly) : List Report :=
  d.window.reports d.codeAddresses

end Disassembly

end Beeb
