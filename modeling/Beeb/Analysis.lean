import Beeb.Label
import Beeb.Mos
import Beeb.Walk

/-
  Analysis: what has to be known before the first line of a
  listing.

  A target gets a label if some step begins at it.  Labels
  are numbered by address.  A target inside an instruction
  or outside the window is rejected: often it comes from
  data that looks like a branch.

  Key definitions include:
    * `Beeb.Placed.target?`
    * `Beeb.Placed.call?`
    * `Beeb.Placed.vector?`
    * `Beeb.Analysis`
    * `Beeb.Analysis.ofSteps`
    * `Beeb.Analysis.analyse`
-/

------------------------------------------------------------
-- What One Step Refers To
------------------------------------------------------------

namespace Beeb

namespace Placed

/- The address at which a step begins. -/
def address
    (p : Placed)
    (adjust : Int) : Int :=
  p.position + adjust

/- The operand word of a step, if it is long enough. -/
def word?
    (p : Placed) : Option Int :=
  (Instruction.operandWord p.step.data).toOption

/- The target of a branch or of a jump to a given address. -/
def target?
    (p : Placed)
    (adjust : Int) : Option Int :=
  p.step.complete?.bind fun i =>
    match i.flow with
    | .branch =>
      (Instruction.displacement p.step.data).toOption.map
        (p.address adjust + ·)
    | .jump =>
      if i.mode = some .indirect then none else p.word?
    | .neither => none

/-
  The entry point of the operating system that a step jumps
  to.
-/
def call?
    (p : Placed) : Option Int :=
  p.step.complete?.bind fun i =>
    if i.flow = .jump ∧ i.mode ≠ some .indirect then
      p.word?.filter fun word => (Mos.callName? word).isSome
    else none

/-
  The vector of the operating system that a step refers to.
-/
def vector?
    (p : Placed) : Option Int :=
  p.step.complete?.bind fun i =>
    if i.flow = .neither ∧ i.mode = some .absolute then
      p.word?.bind Mos.vectorBase?
    else none

end Placed

end Beeb

------------------------------------------------------------
-- Analyses
------------------------------------------------------------

namespace Beeb

/- The labels and system symbols of a program. -/
structure Analysis where
  /- The label of each target at which a step begins. -/
  labels : Labels := ∅
  /- The addresses at which steps begin. -/
  reachable : AddressSet := ∅
  /- The entry points that are jumped to. -/
  calls : AddressSet := ∅
  /- The vectors that are referred to. -/
  vectors : AddressSet := ∅
  /- The targets at which no step begins. -/
  rejected : AddressSet := ∅

namespace Analysis

/- The analysis of the steps of a walk. -/
def ofSteps
    (adjust : Int)
    (steps : List Placed) : Analysis :=
  let reachable : AddressSet :=
    Std.TreeSet.ofList (steps.map (·.address adjust))
  let targets : AddressSet :=
    Std.TreeSet.ofList (steps.filterMap (·.target? adjust))
  { labels := .number (targets.toList.filter reachable.contains)
    reachable := reachable
    calls := Std.TreeSet.ofList (steps.filterMap (·.call?))
    vectors := Std.TreeSet.ofList (steps.filterMap (·.vector?))
    rejected :=
      Std.TreeSet.ofList
        (targets.toList.filter fun address =>
          !reachable.contains address) }

/- The report on a finished analysis. -/
def report
    (a : Analysis) : Report :=
  .analysed a.reachable.size (a.labels.size + a.rejected.size)
    a.labels.size a.rejected.size

/-
  Analyse the walk through a window, which may not fit the
  program.
-/
def analyse
    (program : Bytes)
    (w : Window)
    (hints : List Int) : Except FetchError Analysis :=
  let walk := Walk.all program w hints
  match walk.fault with
  | some e => .error e
  | none => .ok (ofSteps w.adjust walk.steps)

end Analysis

end Beeb
