import Beeb.Proofs.Listing.Reading

/-
  Changes of steps that no listing shows.

  A listing shows of a step its address, its bytes, whether
  it is an instruction, and which.  Where these stay as they
  are, so do the analysis and the plan.

  Main declarations:
    * `Listing.Preserves`
    * `Listing.Preserves.ofSteps_map`
    * `Listing.Preserves.stepLines_change`
    * `Listing.Preserves.body_map`
-/

------------------------------------------------------------
-- Changes Of Steps
------------------------------------------------------------

namespace Beeb

namespace Listing

/-
  A change of steps keeps what is shown of each. What is
  added to the positions may change as well.
-/
structure Preserves
    (adjust adjust' : Int)
    (change : Placed → Placed) : Prop where
  address_eq : ∀ p,
    (change p).address adjust' = p.address adjust
  data_eq : ∀ p, (change p).step.data = p.step.data
  complete?_eq : ∀ p,
    (change p).step.complete? = p.step.complete?
  ofStep_eq : ∀ p,
    Item.ofStep adjust' (change p) = Item.ofStep adjust p

namespace Preserves

variable {adjust adjust' : Int}
variable {change : Placed → Placed}
variable (hPreserves : Preserves adjust adjust' change)
variable (p : Placed)

include hPreserves

/- The operand word is read off the bytes. -/
theorem word?_eq :
    (change p).word? = p.word? := by
  unfold Placed.word?
  rw [hPreserves.data_eq]

/- A branch or a jump has the target that it had. -/
theorem target?_eq :
    (change p).target? adjust' = p.target? adjust := by
  unfold Placed.target?
  rw [hPreserves.complete?_eq, hPreserves.data_eq,
    hPreserves.address_eq, hPreserves.word?_eq]

/- It makes the system call that it made. -/
theorem call?_eq :
    (change p).call? = p.call? := by
  unfold Placed.call?
  rw [hPreserves.complete?_eq, hPreserves.word?_eq]

/- A step refers to the vector that it referred to. -/
theorem vector?_eq :
    (change p).vector? = p.vector? := by
  unfold Placed.vector?
  rw [hPreserves.complete?_eq, hPreserves.word?_eq]

/- The address past a step is the same. -/
theorem stop_add :
    (change p).stop + adjust' = p.stop + adjust := by
  have hAddress := hPreserves.address_eq p
  simp only [Placed.address] at hAddress
  simp only [Placed.stop, Step.length, hPreserves.data_eq]
  omega

end Preserves

end Listing

end Beeb

------------------------------------------------------------
-- Analyses And Plans
------------------------------------------------------------

namespace Beeb

namespace Listing

namespace Preserves

variable {adjust adjust' : Int}
variable {change : Placed → Placed}
variable (hPreserves : Preserves adjust adjust' change)
variable (labels : Labels)

include hPreserves

/- Steps that were changed are analysed as before. -/
theorem ofSteps_map
    (steps : List Placed) :
    Analysis.ofSteps adjust' (steps.map change) =
      Analysis.ofSteps adjust steps := by
  unfold Analysis.ofSteps
  simp only [List.map_map, List.filterMap_map,
    Function.comp_def, hPreserves.address_eq,
    hPreserves.target?_eq, hPreserves.call?_eq,
    hPreserves.vector?_eq]

/- The plan of the lines of a step is the same. -/
theorem stepItems_change
    (p : Placed) :
    stepItems labels adjust' (change p) =
      stepItems labels adjust p := by
  unfold stepItems
  rw [hPreserves.address_eq, hPreserves.ofStep_eq]

/- So are the lines themselves. -/
theorem stepLines_change
    (vars : List Variable)
    (p : Placed) :
    stepLines labels vars adjust' (change p) =
      stepLines labels vars adjust p := by
  rw [stepLines, hPreserves.stepItems_change, stepLines]

end Preserves

namespace Preserves

variable {w w' : Window}
variable {change : Placed → Placed}
variable (hPreserves : Preserves w.adjust w'.adjust change)
variable (hStop : w'.stop + w'.adjust = w.stop + w.adjust)
variable (hPositive : 0 ≤ w.stop)
variable (hPositive' : 0 ≤ w'.stop)

include hPreserves hStop hPositive hPositive'

/-
  If the windows end at one address, the checks after the
  last step find the same. With no step the positions count
  from zero, so neither window may end before it.
-/
theorem closing_map
    (labels : Labels)
    (steps : List Placed) :
    closing labels w' (steps.map change) =
      closing labels w steps := by
  have hEmitted :
      (steps.map change).countP
          (fun p => labels.contains (p.address w'.adjust)) =
        steps.countP fun p =>
          labels.contains (p.address w.adjust) := by
    rw [List.countP_map]
    congr 1
    funext p
    exact
      congrArg labels.contains (hPreserves.address_eq p)
  unfold closing
  simp only
  rw [hEmitted, List.getLast?_map]
  cases steps.getLast? with
  | none =>
    simp only [Option.map_none, Option.getD_none]
    rw [if_neg (c := w.stop < 0) (by omega),
      if_neg (c := w'.stop < 0) (by omega)]
  | some p =>
    have hLast := hPreserves.stop_add p
    have hBoth :
        w'.stop < (change p).stop ↔ w.stop < p.stop := by
      omega
    have hPast :
        (change p).stop - w'.stop = p.stop - w.stop := by
      omega
    simp only [Option.map_some, Option.getD_some, hBoth,
      hPast]

/- The plan of the lines after the header is the same. -/
theorem body_map
    (a : Analysis)
    (steps : List Placed) :
    body a w' (steps.map change) = body a w steps := by
  have hClosing :=
    hPreserves.closing_map hStop hPositive hPositive' a.labels
      steps
  unfold body
  simp only [List.takeWhile_map, List.dropWhile_map,
    List.flatMap_map, Function.comp_def,
    hPreserves.address_eq, hPreserves.stepItems_change,
    hClosing]
  cases
    steps.dropWhile fun p =>
      a.reachable.contains (p.address w.adjust) with
  | nil => rfl
  | cons p after =>
    simp only [List.map_cons, hPreserves.address_eq]

end Preserves

end Listing

end Beeb
