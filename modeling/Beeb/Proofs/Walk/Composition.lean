import Beeb.Proofs.Analysis
import Beeb.Proofs.Walk.Course

/-
  Windows are put together from parts: where a step begins,
  a walk can be broken off and taken up again.

  What a walk has to remember at such a place is the known
  code positions that are still ahead, so the steps of the
  window are those of its two parts, and its analysis knows
  what those of the two parts know.

  Main declarations:
    * `Window.front`
    * `Window.back`
    * `Walk.Course.divide`
    * `Analysis.Joins`
    * `Walk.windows_compose`
-/

------------------------------------------------------------
-- Parts Of A Window
------------------------------------------------------------

namespace Beeb

namespace Window

variable (w : Window)
variable (position : Int)

/- The part of a window before a position. -/
def front : Window :=
  ⟨w.offset, position - w.offset, w.adjust⟩

/- The part of a window from a position on. -/
def back : Window :=
  ⟨position, w.stop - position, w.adjust⟩

/- The front of a window ends at the position. -/
theorem stop_front :
    (w.front position).stop = position := by
  simp only [stop, front]
  omega

/- The back of a window ends where the window does. -/
theorem stop_back :
    (w.back position).stop = w.stop := by
  simp only [stop, back]
  omega

/- Both parts fit a program that the window fits. -/
theorem validate_parts
    (size : Int)
    (hFits : w.validate size = .ok ())
    (hFrom : w.offset ≤ position)
    (hInside : position ≤ w.stop) :
    (w.front position).validate size = .ok () ∧
      (w.back position).validate size = .ok () := by
  rw [validate_eq_ok_iff] at hFits
  rw [validate_eq_ok_iff, validate_eq_ok_iff, stop_front,
    stop_back]
  simp only [front, back]
  omega

end Window

end Beeb

------------------------------------------------------------
-- Parts Of A Course
------------------------------------------------------------

namespace Beeb

namespace Walk

/-
  From a position on, the known code positions before it are
  of no account.
-/
theorem pending?_filter_le
    (hints : List Int)
    (position cursor : Int)
    (hFrom : position ≤ cursor) :
    pending? (hints.filter (position ≤ ·)) cursor =
      pending? hints cursor := by
  unfold pending?
  rw [List.find?_filter]
  congr 1
  funext hint
  simp only [decide_eq_true_eq, decide_eq_decide]
  omega

/-
  A course divides at each of its steps: the steps before it
  are a course up to it, and the others a course from it on.
  The induction finds the step.
-/
theorem Course.divide
    {program : Bytes}
    {stop cursor final : Int}
    {hints : List Int}
    {steps : List Placed}
    (hCourse : Course program stop hints cursor steps final)
    (p : Placed)
    (hMem : p ∈ steps) :
    ∃ before after,
      steps = before ++ after ∧
        Course program p.position hints cursor before
          p.position ∧
        Course program stop hints p.position after final := by
  induction hCourse with
  | ended => simp at hMem
  | @step cursor final s rest hBefore hRegular hRest ih =>
    rcases List.mem_cons.mp hMem with rfl | hLater
    · exact
        ⟨[], ⟨cursor, s⟩ :: rest, rfl,
          .ended (Int.le_refl cursor),
          .step hBefore hRegular hRest⟩
    · rcases ih hLater with
        ⟨before, after, rfl, hFront, hBack⟩
      have hAdvances : 0 < s.length := hRegular.advances
      have hFrom := (hRest.regular p hLater).2.1
      refine
        ⟨⟨cursor, s⟩ :: before, after, rfl, ?_, hBack⟩
      exact .step (by omega) hRegular hFront

end Walk

end Beeb

------------------------------------------------------------
-- Parts Of An Analysis
------------------------------------------------------------

namespace Beeb

namespace Analysis

/-
  The targets that an analysis has met: those with a label,
  and those it rejects.
-/
def targets
    (a : Analysis) : Set Int :=
  {address | address ∈ a.labels ∨ address ∈ a.rejected}

/-
  An analysis knows what two others know. Which of the
  targets have labels is another matter: a part may go to a
  step of the other.
-/
structure Joins
    (whole first second : Analysis) : Prop where
  reachable : ∀ address,
    address ∈ whole.reachable ↔
      address ∈ first.reachable ∨ address ∈ second.reachable
  calls : ∀ address,
    address ∈ whole.calls ↔
      address ∈ first.calls ∨ address ∈ second.calls
  vectors : ∀ address,
    address ∈ whole.vectors ↔
      address ∈ first.vectors ∨ address ∈ second.vectors
  targets : whole.targets = first.targets ∪ second.targets

/- What is true of some step is true of one in a part. -/
theorem exists_mem_append_iff
    (before after : List Placed)
    (holds : Placed → Prop) :
    (∃ p ∈ before ++ after, holds p) ↔
      (∃ p ∈ before, holds p) ∨ ∃ p ∈ after, holds p := by
  simp only [List.mem_append, or_and_right, exists_or]

/- Steps in a row are analysed as their parts are. -/
theorem joins_append
    (adjust : Int)
    (before after : List Placed) :
    (ofSteps adjust (before ++ after)).Joins
      (ofSteps adjust before) (ofSteps adjust after) := by
  constructor
  · intro address
    simp only [mem_reachable_iff, exists_mem_append_iff]
  · intro address
    simp only [mem_calls_iff, exists_mem_append_iff]
  · intro address
    simp only [mem_vectors_iff, exists_mem_append_iff]
  · apply Set.ext
    intro address
    simp only [targets, Set.mem_ofPred_eq, Set.mem_union,
      labelled_or_rejected_iff, exists_mem_append_iff]

end Analysis

end Beeb

------------------------------------------------------------
-- Windows In Parts
------------------------------------------------------------

namespace Beeb

namespace Walk

/-
  A window can be cut in two wherever one of its steps
  begins. Both parts are windows that fit the program. The
  steps of the window are those of the front, then those of
  the back, for which only the known code positions from the
  cut on are given; and the analysis of the window joins
  those of the parts.
-/
theorem windows_compose
    (program : Bytes)
    (w : Window)
    (hints : List Int)
    (p : Placed)
    (hFits : w.validate program.size = .ok ())
    (hAscending : hints.Pairwise (· < ·))
    (hWithin : ∀ hint ∈ hints, w.offset ≤ hint)
    (hStep : p ∈ (all program w hints).steps) :
    let front := w.front p.position
    let back := w.back p.position
    let ahead := hints.filter (p.position ≤ ·)
    front.validate program.size = .ok () ∧
      back.validate program.size = .ok () ∧
      all program w hints =
        ⟨(all program front hints).steps ++
          (all program back ahead).steps, none⟩ ∧
      ∃ whole first second,
        Analysis.analyse program w hints = .ok whole ∧
          Analysis.analyse program front hints = .ok first ∧
          Analysis.analyse program back ahead = .ok second ∧
          whole.Joins first second := by
  intro front back ahead
  rcases course_all program w hints hFits hAscending hWithin
    with ⟨final, hCourse, hFault⟩
  rcases hCourse.regular p hStep with ⟨-, hFrom, hInside⟩
  rcases w.validate_parts p.position program.size hFits hFrom
      (Int.le_of_lt hInside) with
    ⟨hFront, hBack⟩
  rcases hCourse.divide p hStep with
    ⟨before, after, hSteps, hBefore, hAfter⟩
  -- The walks through the parts are courses as well, and
  -- there is but one course from a position.
  rcases course_all program front hints hFront hAscending
      hWithin with
    ⟨_, hFirst, hFirstFault⟩
  have hAhead : ∀ hint ∈ ahead, back.offset ≤ hint := by
    intro hint hMem
    exact of_decide_eq_true (List.mem_filter.mp hMem).2
  rcases course_all program back ahead hBack
      (hAscending.filter _) hAhead with
    ⟨_, hSecond, hSecondFault⟩
  rw [w.stop_front p.position] at hFirst
  rw [w.stop_back p.position] at hSecond
  have hFirstSteps :
      (all program front hints).steps = before := by
    apply hBefore.eq_of_classified hFirst
    intro q hq
    exact (hBefore.regular q hq).1.classified
  have hSecondSteps :
      (all program back ahead).steps = after := by
    apply hAfter.eq_of_classified hSecond
    intro q hq
    rcases hAfter.regular q hq with ⟨hRegular, hPast, -⟩
    rw [pending?_filter_le hints p.position q.position hPast]
    exact hRegular.classified
  have hAll :
      all program w hints = ⟨before ++ after, none⟩ := by
    rw [← hSteps, ← hFault]
  refine ⟨hFront, hBack, ?_, ?_⟩
  · rw [hAll, hFirstSteps, hSecondSteps]
  · refine
      ⟨.ofSteps w.adjust (before ++ after),
        .ofSteps w.adjust before, .ofSteps w.adjust after,
        ?_, ?_, ?_, Analysis.joins_append _ _ _⟩
    · simp only [Analysis.analyse, hAll]
    · simp only [Analysis.analyse, hFirstFault, hFirstSteps]
      rfl
    · simp only [Analysis.analyse, hSecondFault,
        hSecondSteps]
      rfl

/-
  A window cut in two at a known code position, which begins
  a jump that the next one cuts short. The branch at its end
  goes back to the front.
-/
theorem windows_compose_at_jump :
    let program : Bytes :=
      #[0x20, 0xF4, 0xFF, 0x4C, 0x00, 0x60, 0xD0, 0xF8]
    let w : Window := ⟨0, 8, 0x1900⟩
    let jump : Instruction :=
      ⟨0x4C, "JMP", 3, some .absolute⟩
    let p : Placed := ⟨3, .straddlesCode jump, [0x4C, 0x00]⟩
    w.validate program.size = .ok () ∧
      [3, 5].Pairwise (fun a b : Int => a < b) ∧
      (∀ hint ∈ [3, 5], w.offset ≤ hint) ∧
      p ∈ (all program w [3, 5]).steps ∧
      all program w [3, 5] =
        ⟨(all program (w.front 3) [3, 5]).steps ++
          (all program (w.back 3) [3, 5]).steps, none⟩ := by
  intro program w jump p
  have hStep : p ∈ (all program w [3, 5]).steps := by
    decide +kernel
  have hCompose :=
    windows_compose program w [3, 5] p rfl (by decide)
      (by decide) hStep
  exact
    ⟨rfl, by decide, by decide, hStep, hCompose.2.2.1⟩

end Walk

end Beeb
