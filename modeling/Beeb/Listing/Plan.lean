import Beeb.Disassembly
import Beeb.Listing.Header
import Beeb.Listing.Line

/-
  Plans: what a listing will say, before variables are
  looked up.

  A plan is made from an analysis.  It stops with an error
  where the steps and the analysis do not agree.

  Key definitions include:
    * `Beeb.Listing.ListingError`
    * `Beeb.Listing.Item`
    * `Beeb.Listing.Item.ofStep`
    * `Beeb.Listing.closing`
    * `Beeb.Listing.body`
    * `Beeb.Listing.plan`
-/

------------------------------------------------------------
-- Errors
------------------------------------------------------------

namespace Beeb

namespace Listing

/- Why a listing cannot be finished. -/
inductive ListingError where
| header (e : HeaderError)
| operand (e : OperandError)
/- A label that has no name. -/
| label (e : NumeralError)
/- A step that the analysis knows nothing of. -/
| unseen (address : Int)
/- A number of labels that the analysis does not have. -/
| labelCount (emitted produced : Nat)
deriving DecidableEq, Repr

/- The wording of a listing error. -/
def ListingError.message : ListingError → String
| .header e => e.message
| .operand e => e.message
| .label e => e.message
| .unseen address =>
  "instruction at &" ++ Text.hex 4 address ++
    " was not seen by branch analysis"
| .labelCount emitted produced =>
  "emitted " ++ Nat.repr emitted ++
    " labels but analysis produced " ++ Nat.repr produced

end Listing

end Beeb

------------------------------------------------------------
-- Items
------------------------------------------------------------

namespace Beeb

namespace Listing

/- A part of a plan. -/
inductive Item where
/- A line that no variable can change. -/
| line (l : Line)
/-
  A line of an instruction whose operand is still to be
  written.
-/
| instruction
    (i : Instruction)
    (address : Int)
    (data : List UInt8)
/- A remark beside the listing. -/
| remark (r : Report)
/- The point at which the listing fails. -/
| stop (e : ListingError)
deriving DecidableEq, Repr

/-
  The line that defines the label of an address, if it has
  one.
-/
def labelItems
    (labels : Labels)
    (address : Int) : List Item :=
  match labels[address]?.map Label.name with
  | some (.ok name) => [.line (.label name)]
  | some (.error e) => [.stop (.label e)]
  | none => []

/- The line of a step. -/
def Item.ofStep
    (adjust : Int)
    (p : Placed) : Item :=
  let address := p.address adjust
  match p.step.verdict with
  | .code i => .instruction i address p.step.data
  | .undocumented i
  | .zeroPageFold i
  | .straddlesCode i
  | .endOfProgram i =>
    .line
      (.data p.step.data address
        (if i.documented then "" else i.mnemonic))
  | .unknownOpcode => .line (.data p.step.data address "")

/- The label line and the line of a step. -/
def stepItems
    (labels : Labels)
    (adjust : Int)
    (p : Placed) : List Item :=
  labelItems labels (p.address adjust) ++ [.ofStep adjust p]

end Listing

end Beeb

------------------------------------------------------------
-- Plans
------------------------------------------------------------

namespace Beeb

namespace Listing

/-
  The checks after the last step, and the remark on an
  instruction that runs past the window.
-/
def closing
    (labels : Labels)
    (w : Window)
    (steps : List Placed) : List Item :=
  let emitted :=
    steps.countP fun p => labels.contains (p.address w.adjust)
  let consumed := (steps.getLast?.map Placed.stop).getD 0
  if emitted ≠ labels.size then
    [.stop (.labelCount emitted labels.size)]
  else if w.stop < consumed then
    [.remark (.overrun (consumed - w.stop))]
  else []

/- The plan of the lines after the header. -/
def body
    (a : Analysis)
    (w : Window)
    (steps : List Placed) : List Item :=
  let seen := fun (p : Placed) =>
    a.reachable.contains (p.address w.adjust)
  (steps.takeWhile seen).flatMap (stepItems a.labels w.adjust) ++
    match steps.dropWhile seen with
    | p :: _ => [.stop (.unseen (p.address w.adjust))]
    | [] => closing a.labels w steps

/-
  The plan of a listing; a header that cannot be written is
  all there is to it.
-/
def plan
    (d : Disassembly)
    (a : Analysis) : List Item :=
  match
    headerLines a.calls a.vectors d.vars
      d.loadAddress with
  | .ok lines =>
    lines.map (.line ∘ .header) ++ body a d.window d.steps
  | .error e => [.stop (.header e)]

end Listing

end Beeb
