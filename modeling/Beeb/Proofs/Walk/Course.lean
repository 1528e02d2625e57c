import Beeb.Proofs.Step
import Beeb.Walk
import Mathlib.Data.List.Forall2

/-
  Courses: the steps of a walk, told by its cursor alone.

  A walk remembers which known code positions it has taken
  up.  When they ascend, those ahead of the cursor are all
  there is to remember, so each step is told by the place
  at which it begins.

  Main declarations:
    * `Walk.pending?`
    * `Walk.Course`
    * `Placed.Regular`
    * `Walk.run_eq_of_course`
    * `Walk.exists_course`
    * `Walk.take_eq`
    * `Walk.course_all`
    * `Walk.Course.keepPace`
-/

------------------------------------------------------------
-- Known Code Positions Ahead
------------------------------------------------------------

namespace Beeb

namespace Walk

/- The first known code position past a cursor. -/
def pending?
    (hints : List Int)
    (cursor : Int) : Option Int :=
  hints.find? (cursor < ·)

/- The first of the positions past a cursor is the least. -/
theorem pending?_eq_some
    (hints : List Int)
    (cursor target : Int)
    (hAscending : hints.Pairwise (· < ·))
    (hPending : pending? hints cursor = some target) :
    target ∈ hints ∧ cursor < target ∧
      ∀ hint ∈ hints, cursor < hint → target ≤ hint := by
  rcases List.find?_eq_some_iff_append.mp hPending with
    ⟨hPast, before, after, rfl, hBefore⟩
  simp only [decide_eq_true_eq, Bool.not_eq_true',
    decide_eq_false_iff_not] at hPast hBefore
  rw [List.pairwise_append, List.pairwise_cons]
    at hAscending
  refine ⟨by simp, hPast, ?_⟩
  intro hint hMem hHint
  rcases List.mem_append.mp hMem with hEarly | hLate
  · exact absurd hHint (hBefore hint hEarly)
  · rcases List.mem_cons.mp hLate with rfl | hLater
    · exact Int.le_refl hint
    · exact Int.le_of_lt (hAscending.2.1.1 hint hLater)

/- When no known code position lies past a cursor. -/
theorem pending?_eq_none_iff
    (hints : List Int)
    (cursor : Int) :
    pending? hints cursor = none ↔
      ∀ hint ∈ hints, hint ≤ cursor := by
  simp [pending?]

end Walk

end Beeb

------------------------------------------------------------
-- The State Of A Walk
------------------------------------------------------------

namespace Beeb

namespace Walk

namespace State

/-
  A walk has taken up the known code positions before its
  cursor and no others.
-/
structure Keeps
    (hints : List Int)
    (s : State) : Prop where
  previous_le : s.previous ≤ s.cursor
  ahead : s.hints = hints.filter (s.cursor ≤ ·)

/- A walk that starts has all known code positions ahead. -/
theorem keeps_start
    (w : Window)
    (hints : List Int)
    (hWithin : ∀ hint ∈ hints, w.offset ≤ hint) :
    (State.start w hints).Keeps hints := by
  refine ⟨Int.le_refl _, ?_⟩
  have hAll : hints.filter (w.offset ≤ ·) = hints := by
    simpa using hWithin
  exact hAll.symm

/-
  Taking up a code position leaves the cursor where it is;
  what lies ahead are the positions past the cursor.
-/
theorem settle_eq
    (hints : List Int)
    (s : State)
    (hAscending : hints.Pairwise (· < ·))
    (hKeeps : s.Keeps hints) :
    s.settle =
      ⟨s.cursor, s.cursor,
        hints.filter (s.cursor < ·)⟩ := by
  have hPast :
      hints.filter (s.cursor < ·) =
        s.hints.filter (s.cursor < ·) := by
    rw [hKeeps.ahead, List.filter_filter]
    congr 1
    funext hint
    grind
  have hFrom : ∀ hint ∈ s.hints, s.cursor ≤ hint := by
    intro hint hMem
    rw [hKeeps.ahead] at hMem
    simpa using (List.mem_filter.mp hMem).2
  have hOrder : s.hints.Pairwise (· < ·) := by
    rw [hKeeps.ahead]
    exact hAscending.filter _
  rw [hPast]
  unfold settle
  cases hAhead : s.hints with
  | nil => rfl
  | cons target rest =>
    rw [hAhead] at hFrom hOrder
    have hTarget := hFrom target (by simp)
    have hRest :
        rest.filter (s.cursor < ·) = rest := by
      rw [List.filter_eq_self]
      intro hint hMem
      have hLater :=
        (List.pairwise_cons.mp hOrder).1 hint hMem
      simp only [decide_eq_true_eq]
      omega
    have hPrevious := hKeeps.previous_le
    by_cases hReached : target ≤ s.cursor
    · have hHere : target = s.cursor := by omega
      simp [hHere, hPrevious, hRest]
    · have hBeyond : s.cursor < target := by omega
      simp [hReached, hBeyond, hRest]

end State

/- The step that a walk takes is told by its cursor. -/
theorem next_eq
    (program : Bytes)
    (stop : Int)
    (hints : List Int)
    (s : State)
    (step : Step)
    (hAscending : hints.Pairwise (· < ·))
    (hKeeps : s.Keeps hints)
    (hBefore : s.cursor < stop)
    (hStep :
      Step.classify program s.cursor
          (pending? hints s.cursor) =
        .ok step) :
    next program stop s =
      .step ⟨s.cursor, step⟩
        ⟨s.cursor + step.length, s.cursor,
          hints.filter (s.cursor < ·)⟩ := by
  unfold next
  rw [if_neg (by omega),
    State.settle_eq hints s hAscending hKeeps]
  unfold pending? at hStep
  simp only [List.head?_filter, hStep]

end Walk

end Beeb

------------------------------------------------------------
-- Regular Steps
------------------------------------------------------------

namespace Beeb

/-
  A step where it belongs: it is the one that its position
  gives, it advances within the program, and it does not run
  across a known code position.
-/
structure Placed.Regular
    (program : Bytes)
    (hints : List Int)
    (p : Placed) : Prop where
  starts : 0 ≤ p.position
  classified :
    Step.classify program p.position
        (Walk.pending? hints p.position) =
      .ok p.step
  length_eq : ∃ first,
    program.fetch p.position = .ok first ∧
      p.step.length =
        Step.reach (Instruction.ofOpcode? first.toNat)
          p.position (Walk.pending? hints p.position)
          program.size
  advances : 0 < p.step.length
  short : p.step.length ≤ 3
  inside : p.stop ≤ program.size
  clear : ∀ hint ∈ hints, p.position < hint → p.stop ≤ hint
  data_eq :
    p.step.data = (program.slice p.position p.stop).toList
  faithful : p.step.Faithful

/- A regular step begins in the program. -/
theorem Placed.Regular.position_lt
    {program : Bytes}
    {hints : List Int}
    {p : Placed}
    (hRegular : p.Regular program hints) :
    p.position < program.size := by
  have hAdvances := hRegular.advances
  have hInside := hRegular.inside
  unfold Placed.stop at hInside
  omega

/- A regular step begins at every position of a program. -/
theorem Placed.exists_regular
    (program : Bytes)
    (hints : List Int)
    (cursor : Int)
    (hAscending : hints.Pairwise (· < ·))
    (hStart : 0 ≤ cursor)
    (hEnd : cursor < program.size) :
    ∃ s : Step, Placed.Regular program hints ⟨cursor, s⟩ := by
  have hPending :
      ∀ target ∈ Walk.pending? hints cursor,
        cursor < target := by
    intro target hTarget
    exact
      (Walk.pending?_eq_some hints cursor target hAscending
        hTarget).2.1
  rcases Step.classify_eq_ok program cursor _ hStart hEnd
      hPending
    with ⟨first, s, hFetch, hStep, hReach, hData, hFaithful⟩
  rcases Step.reach_bounds first.toNat cursor _ program.size
      hEnd hPending with
    ⟨hAdvances, hShort, hInside, hClear⟩
  rw [← hReach] at hAdvances hShort hInside hClear
  refine
    ⟨s, hStart, hStep, ⟨first, hFetch, hReach⟩, hAdvances,
      hShort, hInside, ?_, hData, hFaithful⟩
  intro hint hMem hPast
  cases hNext : Walk.pending? hints cursor with
  | none =>
    have hNone :=
      (Walk.pending?_eq_none_iff hints cursor).mp hNext hint
        hMem
    simp only at hPast
    omega
  | some target =>
    have hLeast :=
      (Walk.pending?_eq_some hints cursor target hAscending
        hNext).2.2 hint hMem hPast
    exact Int.le_trans (hClear target hNext) hLeast

end Beeb

------------------------------------------------------------
-- Courses
------------------------------------------------------------

namespace Beeb

namespace Walk

/-
  The steps from a cursor on, each of which begins where the
  one before it ends, and the position at which they leave
  the window.
-/
inductive Course
    (program : Bytes)
    (stop : Int)
    (hints : List Int) :
    Int → List Placed → Int → Prop where
| ended
    {cursor : Int}
    (hStop : stop ≤ cursor) :
    Course program stop hints cursor [] cursor
| step
    {cursor final : Int}
    {s : Step}
    {rest : List Placed}
    (hBefore : cursor < stop)
    (hRegular : Placed.Regular program hints ⟨cursor, s⟩)
    (hRest :
      Course program stop hints (cursor + s.length) rest
        final) :
    Course program stop hints cursor (⟨cursor, s⟩ :: rest)
      final

/- There is a course, and every step of it advances. -/
theorem exists_course
    (program : Bytes)
    (stop : Int)
    (hints : List Int)
    (hAscending : hints.Pairwise (· < ·))
    (hSize : stop ≤ program.size)
    (distance : Nat)
    (cursor : Int)
    (hStart : 0 ≤ cursor)
    (hDistance : stop - cursor ≤ distance) :
    ∃ steps final,
      Course program stop hints cursor steps final ∧
        steps.length ≤ distance := by
  induction distance generalizing cursor with
  | zero => exact ⟨[], cursor, .ended (by omega), by simp⟩
  | succ distance ih =>
    by_cases hBefore : cursor < stop
    · rcases Placed.exists_regular program hints cursor
          hAscending
          hStart (by omega) with
        ⟨s, hRegular⟩
      have hAdvances : 0 < s.length := hRegular.advances
      rcases ih (cursor + s.length) (by omega) (by omega)
        with ⟨rest, final, hRest, hCount⟩
      refine ⟨⟨cursor, s⟩ :: rest, final,
        .step hBefore hRegular hRest, ?_⟩
      simp only [List.length_cons]
      omega
    · exact ⟨[], cursor, .ended (by omega), by simp⟩

/-
  A walk takes the steps of a course, from any state that
  stands at its beginning. The invariant is `State.Keeps`.
-/
theorem run_eq_of_course
    (program : Bytes)
    (stop : Int)
    (hints : List Int)
    (hAscending : hints.Pairwise (· < ·))
    (cursor final : Int)
    (steps : List Placed)
    (hCourse : Course program stop hints cursor steps final)
    (s : State)
    (hCursor : s.cursor = cursor)
    (hKeeps : s.Keeps hints)
    (limit : Nat)
    (hLimit : steps.length ≤ limit) :
    run program stop limit s [] = ⟨steps, none⟩ := by
  induction hCourse generalizing s limit with
  | ended hStop =>
    cases limit with
    | zero => rfl
    | succ limit => simp [run, next, hCursor, hStop]
  | @step cursor final step rest hBefore hRegular hRest ih =>
    subst hCursor
    cases limit with
    | zero => simp at hLimit
    | succ limit =>
      have hAdvances : 0 < step.length := hRegular.advances
      have hNextKeeps :
          State.Keeps hints
            ⟨s.cursor + step.length, s.cursor,
              hints.filter (s.cursor < ·)⟩ := by
        refine ⟨by simp only; omega, ?_⟩
        apply List.filter_congr
        intro hint hMem
        have hClear := hRegular.clear hint hMem
        simp only [Placed.stop] at hClear
        simp only [decide_eq_decide]
        omega
      rw [run,
        next_eq program stop hints s step hAscending hKeeps
          hBefore hRegular.classified]
      simp only
      rw [run_eq,
        ih _ rfl hNextKeeps limit (by simpa using hLimit)]
      simp

/-
  The walk through a window that fits the program: however
  many more steps it is allowed than the window has bytes,
  it takes those of a course and ends.
-/
theorem take_eq
    (program : Bytes)
    (w : Window)
    (hints : List Int)
    (hFits : w.validate program.size = .ok ())
    (hAscending : hints.Pairwise (· < ·))
    (hWithin : ∀ hint ∈ hints, w.offset ≤ hint) :
    ∃ steps final,
      Course program w.stop hints w.offset steps final ∧
        (steps.length : Int) ≤ w.length ∧
        ∀ limit : Nat,
          w.length ≤ limit →
            take limit program w hints = ⟨steps, none⟩ := by
  rcases (Window.validate_eq_ok_iff w program.size).mp hFits
    with ⟨hOffset, hLength, -, hSize⟩
  have hDistance : w.stop - w.offset ≤ w.length.toNat := by
    unfold Window.stop
    omega
  rcases exists_course program w.stop hints hAscending hSize
      w.length.toNat w.offset hOffset hDistance with
    ⟨steps, final, hCourse, hCount⟩
  refine ⟨steps, final, hCourse, by omega, ?_⟩
  intro limit hLimit
  exact
    run_eq_of_course program w.stop hints hAscending w.offset
      final steps hCourse (.start w hints) rfl
      (State.keeps_start w hints hWithin) limit (by omega)

/- The whole walk through a window is a course. -/
theorem course_all
    (program : Bytes)
    (w : Window)
    (hints : List Int)
    (hFits : w.validate program.size = .ok ())
    (hAscending : hints.Pairwise (· < ·))
    (hWithin : ∀ hint ∈ hints, w.offset ≤ hint) :
    ∃ final,
      Course program w.stop hints w.offset
        (all program w hints).steps final ∧
      (all program w hints).fault = none := by
  rcases take_eq program w hints hFits hAscending hWithin
    with ⟨steps, final, hCourse, -, hTake⟩
  rcases (Window.validate_eq_ok_iff w program.size).mp hFits
    with ⟨hOffset, hLength, -, hSize⟩
  have hAll : all program w hints = ⟨steps, none⟩ := by
    apply hTake
    unfold Window.stop at hSize
    omega
  rw [hAll]
  exact ⟨final, hCourse, rfl⟩

end Walk

end Beeb

------------------------------------------------------------
-- The Steps Of A Course
------------------------------------------------------------

namespace Beeb

namespace Walk

namespace Course

variable {program : Bytes}
variable {stop : Int}
variable {hints : List Int}

/-
  The steps of a course are regular and begin in the window.
-/
theorem regular
    {cursor final : Int}
    {steps : List Placed}
    (hCourse : Course program stop hints cursor steps final)
    (p : Placed)
    (hMem : p ∈ steps) :
    p.Regular program hints ∧ cursor ≤ p.position ∧
      p.position < stop := by
  induction hCourse with
  | ended => simp at hMem
  | @step cursor final s rest hBefore hRegular hRest ih =>
    have hAdvances : 0 < s.length := hRegular.advances
    rcases List.mem_cons.mp hMem with rfl | hLater
    · exact ⟨hRegular, Int.le_refl cursor, hBefore⟩
    · rcases ih hLater with ⟨hLaterRegular, hFrom, hInside⟩
      exact ⟨hLaterRegular, by omega, hInside⟩

/- No two steps of a course begin at one position. -/
theorem ascending
    {cursor final : Int}
    {steps : List Placed}
    (hCourse : Course program stop hints cursor steps final) :
    (steps.map Placed.position).Pairwise (· < ·) := by
  induction hCourse with
  | ended => simp
  | @step cursor final s rest hBefore hRegular hRest ih =>
    rw [List.map_cons, List.pairwise_cons]
    refine ⟨?_, ih⟩
    intro position hMem
    rcases List.mem_map.mp hMem with ⟨p, hp, rfl⟩
    have hFrom := (hRest.regular p hp).2.1
    have hAdvances : 0 < s.length := hRegular.advances
    show cursor < p.position
    omega

/- No step of a course begins inside another. -/
theorem stop_le_of_lt
    {cursor final : Int}
    {steps : List Placed}
    (hCourse : Course program stop hints cursor steps final)
    (p q : Placed)
    (hp : p ∈ steps)
    (hq : q ∈ steps)
    (hLess : p.position < q.position) :
    p.stop ≤ q.position := by
  induction hCourse with
  | ended => simp at hp
  | @step cursor final s rest hBefore hRegular hRest ih =>
    have hAdvances : 0 < s.length := hRegular.advances
    rcases List.mem_cons.mp hp with rfl | hpLater
    · rcases List.mem_cons.mp hq with rfl | hqLater
      · omega
      · exact (hRest.regular q hqLater).2.1
    · have hFrom := (hRest.regular p hpLater).2.1
      rcases List.mem_cons.mp hq with rfl | hqLater
      · simp only at hLess
        omega
      · exact ih hpLater hqLater

end Course

end Walk

end Beeb

------------------------------------------------------------
-- Courses Side By Side
------------------------------------------------------------

namespace Beeb

namespace Walk

/-
  Two courses, a distance apart, keep pace if wherever the
  first takes a step the other takes one as long. Then they
  pair off step by step, and every pair is related as the
  steps at one position are. The induction is on the first
  of them.
-/
theorem Course.keepPace
    {p q : Bytes}
    {stop cursor final final' : Int}
    {hints hints' : List Int}
    {steps steps' : List Placed}
    (distance : Int)
    (related : Placed → Placed → Prop)
    (hCourse : Course p stop hints cursor steps final)
    (hOther :
      Course q (stop + distance) hints' (cursor + distance)
        steps' final')
    (hSame :
      ∀ placed ∈ steps, ∀ s,
        Step.classify q (placed.position + distance)
            (pending? hints' (placed.position + distance)) =
          .ok s →
        s.length = placed.step.length ∧
          related placed ⟨placed.position + distance, s⟩) :
    List.Forall₂ related steps steps' := by
  induction hCourse generalizing steps' with
  | ended hStop =>
    cases hOther with
    | ended hStop' => exact .nil
    | step hBefore' hRegular' hRest' => omega
  | @step cursor final s rest hBefore hRegular hRest ih =>
    cases hOther with
    | ended hStop' => omega
    | @step _ _ s' rest' hBefore' hRegular' hRest' =>
      rcases hSame ⟨cursor, s⟩ (by simp) s'
          hRegular'.classified with
        ⟨hLength, hRelated⟩
      rw [hLength, Int.add_right_comm] at hRest'
      refine .cons hRelated (ih hRest' ?_)
      intro placed hMem
      exact hSame placed (List.mem_cons_of_mem _ hMem)

/-
  A walk takes the steps of a course if these are the ones
  that its own known code positions give.
-/
theorem Course.eq_of_classified
    {program : Bytes}
    {stop cursor final final' : Int}
    {hints hints' : List Int}
    {steps steps' : List Placed}
    (hCourse : Course program stop hints cursor steps final)
    (hOther :
      Course program stop hints' cursor steps' final')
    (hSame :
      ∀ p ∈ steps,
        Step.classify program p.position
            (pending? hints' p.position) =
          .ok p.step) :
    steps' = steps := by
  have hPairs : List.Forall₂ Eq steps steps' := by
    apply hCourse.keepPace 0
    · rwa [Int.add_zero, Int.add_zero]
    · intro p hMem s hStep
      rw [Int.add_zero, hSame p hMem, Except.ok.injEq]
        at hStep
      rw [← hStep, Int.add_zero]
      exact ⟨rfl, rfl⟩
  rw [List.forall₂_eq_eq_eq] at hPairs
  exact hPairs.symm

end Walk

end Beeb
