import Beeb.Proofs.Walk.Course

/-
  The walk cuts what it covers into steps: no byte is lost,
  repeated or moved.

  Main declarations:
    * `Walk.Contiguous`
    * `Walk.Course.final_bounds`
    * `Walk.walk_partitions_window`
-/

------------------------------------------------------------
-- Steps Without Gaps
------------------------------------------------------------

namespace Beeb

namespace Walk

/-
  The first step begins at a position, every later one where
  the one before it ends, and the last one ends at another
  position.
-/
def Contiguous :
    Int → List Placed → Int → Prop
| start, [], stop => start = stop
| start, p :: rest, stop =>
  p.position = start ∧ Contiguous p.stop rest stop

namespace Course

variable {program : Bytes}
variable {stop : Int}
variable {hints : List Int}

/- The steps of a course leave no gaps. -/
theorem contiguous
    {cursor final : Int}
    {steps : List Placed}
    (hCourse : Course program stop hints cursor steps final) :
    Contiguous cursor steps final := by
  induction hCourse with
  | ended => rfl
  | step hBefore hRegular hRest ih => exact ⟨rfl, ih⟩

/-
  A course ends in the program, at most two bytes past the
  window.
-/
theorem final_bounds
    {cursor final : Int}
    {steps : List Placed}
    (hCourse : Course program stop hints cursor steps final)
    (hInside : cursor ≤ program.size)
    (hNear : cursor ≤ stop + 2) :
    cursor ≤ final ∧ stop ≤ final ∧
      final ≤ min (stop + 2) program.size := by
  induction hCourse with
  | ended hStop => omega
  | @step cursor final s rest hBefore hRegular hRest ih =>
    have hAdvances : 0 < s.length := hRegular.advances
    have hShort : s.length ≤ 3 := hRegular.short
    have hNext : cursor + s.length ≤ program.size :=
      hRegular.inside
    rcases ih hNext (by omega) with ⟨hOn, hBounds⟩
    exact ⟨by omega, hBounds⟩

/- The bytes of the steps are those that a course covers. -/
theorem data_eq
    {cursor final : Int}
    {steps : List Placed}
    (hCourse : Course program stop hints cursor steps final)
    (hStart : 0 ≤ cursor)
    (hInside : cursor ≤ program.size)
    (hNear : cursor ≤ stop + 2) :
    steps.flatMap (·.step.data) =
      (program.slice cursor final).toList := by
  induction hCourse with
  | @ended cursor hStop =>
    rw [Bytes.toList_slice program cursor cursor hStart
      (Int.le_refl cursor)]
    simp
  | @step cursor final s rest hBefore hRegular hRest ih =>
    have hAdvances : 0 < s.length := hRegular.advances
    have hShort : s.length ≤ 3 := hRegular.short
    have hNext : cursor + s.length ≤ program.size :=
      hRegular.inside
    have hOn :=
      (hRest.final_bounds hNext (by omega)).1
    rw [List.flatMap_cons, ih (by omega) hNext (by omega),
      hRegular.data_eq]
    exact
      Bytes.slice_append_slice program cursor _ final hStart
        (by simp only [Placed.stop]; omega) hOn

end Course

end Walk

end Beeb

------------------------------------------------------------
-- The Walk Through A Window
------------------------------------------------------------

namespace Beeb

namespace Walk

/-
  The walk through a window that fits the program, whatever
  code addresses are known: it ends by itself after no more
  steps than the window has bytes, and it cuts the program
  from the offset on into steps that are not empty and begin
  in the window. The last one may reach two bytes past the
  window, but not past the program.
-/
theorem walk_partitions_window
    (program : Bytes)
    (w : Window)
    (addresses : List Int)
    (hFits : w.validate program.size = .ok ()) :
    ∃ steps final,
      (steps.length : Int) ≤ w.length ∧
        (∀ limit : Nat,
          w.length ≤ limit →
            take limit program w (w.hints addresses) =
              ⟨steps, none⟩) ∧
        all program w (w.hints addresses) = ⟨steps, none⟩ ∧
        Contiguous w.offset steps final ∧
        (∀ p ∈ steps,
          p.position < w.stop ∧ 0 < p.step.length ∧
            p.step.data =
              (program.slice p.position
                (p.position + p.step.length)).toList) ∧
        w.stop ≤ final ∧
        final ≤ min (w.stop + 2) program.size ∧
        steps.flatMap (·.step.data) =
          (program.slice w.offset final).toList := by
  rcases (Window.validate_eq_ok_iff w program.size).mp hFits
    with ⟨hOffset, hLength, -, hSize⟩
  have hStop : w.stop = w.offset + w.length := rfl
  rcases take_eq program w (w.hints addresses) hFits
      (w.hints_ascending addresses)
      (fun hint hMem =>
        ((w.mem_hints addresses hint).mp hMem).1) with
    ⟨steps, final, hCourse, hCount, hTake⟩
  have hAll :
      all program w (w.hints addresses) = ⟨steps, none⟩ :=
    hTake _ (by omega)
  have hSteps :
      ∀ p ∈ steps,
        p.position < w.stop ∧ 0 < p.step.length ∧
          p.step.data =
            (program.slice p.position
              (p.position + p.step.length)).toList := by
    intro p hMem
    rcases hCourse.regular p hMem with
      ⟨hRegular, -, hInside⟩
    exact ⟨hInside, hRegular.advances, hRegular.data_eq⟩
  rcases hCourse.final_bounds (by omega) (by omega) with
    ⟨-, hReached, hBound⟩
  have hData :=
    hCourse.data_eq hOffset (by omega) (by omega)
  exact
    ⟨steps, final, hCount, hTake, hAll, hCourse.contiguous,
      hSteps, hReached, hBound, hData⟩

/-
  A jump whose last two bytes lie past a window of one byte,
  with code addresses before, in and past the window.
-/
theorem walk_partitions_window_at_jump :
    Window.validate ⟨1, 1, 0x1900⟩ 5 = .ok () ∧
      ∃ steps final,
        all #[0x60, 0x4C, 0x01, 0x19, 0x60] ⟨1, 1, 0x1900⟩
            (Window.hints ⟨1, 1, 0x1900⟩
              [0x1990, 0x1901, 7, 0x1901]) =
            ⟨steps, none⟩ ∧
          Contiguous 1 steps final ∧
          2 ≤ final ∧
          final ≤ 4 ∧
          steps.flatMap (·.step.data) =
            (Bytes.slice #[0x60, 0x4C, 0x01, 0x19, 0x60]
              1 final).toList := by
  have hFits :
      Window.validate ⟨1, 1, 0x1900⟩ 5 = .ok () := rfl
  rcases walk_partitions_window #[0x60, 0x4C, 0x01, 0x19, 0x60]
      ⟨1, 1, 0x1900⟩ [0x1990, 0x1901, 7, 0x1901] hFits with
    ⟨steps, final, -, -, hAll, hContiguous, -, hReached,
      hBound, hData⟩
  refine
    ⟨hFits, steps, final, hAll, hContiguous, hReached, ?_,
      hData⟩
  exact Int.le_trans hBound (by decide)

end Walk

end Beeb
