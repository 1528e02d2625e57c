import Beeb.Step
import Beeb.Window

/-
  Walks: the steps through a window.

  Known code positions are given in ascending order.  A
  step never runs across the next of them, and the cursor
  takes each one up when it gets there.

  Key definitions include:
    * `Beeb.Placed`
    * `Beeb.Walk.State`
    * `Beeb.Walk.State.settle`
    * `Beeb.Walk.next`
    * `Beeb.Walk.take`
    * `Beeb.Walk.all`
-/

------------------------------------------------------------
-- One Step Of A Walk
------------------------------------------------------------

namespace Beeb

/- A step and the position at which it begins. -/
structure Placed where
  position : Int
  step : Step
deriving DecidableEq, Repr

/- The position past a step. -/
def Placed.stop
    (p : Placed) : Int :=
  p.position + p.step.length

namespace Walk

/-
  Where a walk stands: its cursor, where its last step
  began, and the known code positions ahead.
-/
structure State where
  cursor : Int
  previous : Int
  hints : List Int
deriving DecidableEq, Repr

/- The start of a walk. -/
def State.start
    (w : Window)
    (hints : List Int) : State :=
  ⟨w.offset, w.offset, hints⟩

/-
  Take up the next code position if the last step has
  reached it.
-/
def State.settle
    (s : State) : State :=
  match s.hints with
  | target :: rest =>
    if s.previous ≤ target ∧ target ≤ s.cursor then
      ⟨target, target, rest⟩
    else ⟨s.cursor, s.cursor, s.hints⟩
  | [] => ⟨s.cursor, s.cursor, []⟩

/-
  What becomes of a walk: it is over, it fails, or it takes
  a step.
-/
inductive Advance where
| ended
| fault (e : FetchError)
| step (placed : Placed) (state : State)
deriving DecidableEq, Repr

/- Take one step, unless the cursor has left the window. -/
def next
    (program : Bytes)
    (stop : Int)
    (s : State) : Advance :=
  if stop ≤ s.cursor then .ended
  else
    let s := s.settle
    match Step.classify program s.cursor s.hints.head? with
    | .error e => .fault e
    | .ok step =>
      .step ⟨s.cursor, step⟩
        { s with cursor := s.cursor + step.length }

end Walk

end Beeb

------------------------------------------------------------
-- Whole Walks
------------------------------------------------------------

namespace Beeb

/- The steps of a walk, and what stopped it before its end. -/
structure Walk where
  steps : List Placed
  fault : Option FetchError
deriving DecidableEq, Repr

namespace Walk

/-
  Go on with a walk for a number of steps; `done` holds the
  steps before, latest first.
-/
def run
    (program : Bytes)
    (stop : Int) :
    Nat → State → List Placed → Walk
| 0, _, done => ⟨done.reverse, none⟩
| limit + 1, s, done =>
  match next program stop s with
  | .ended => ⟨done.reverse, none⟩
  | .fault e => ⟨done.reverse, some e⟩
  | .step placed s => run program stop limit s (placed :: done)

/- The steps before do not matter to those that follow. -/
theorem run_eq
    (program : Bytes)
    (stop : Int)
    (limit : Nat)
    (s : State)
    (done : List Placed) :
    run program stop limit s done =
      ⟨done.reverse ++ (run program stop limit s []).steps,
        (run program stop limit s []).fault⟩ := by
  induction limit generalizing s done with
  | zero => simp [run]
  | succ limit ih =>
    rw [run, run]
    cases next program stop s with
    | ended => simp
    | fault e => simp
    | step placed s =>
      simp only
      rw [ih s (placed :: done), ih s [placed]]
      simp

/- The first steps of the walk through a window. -/
def take
    (limit : Nat)
    (program : Bytes)
    (w : Window)
    (hints : List Int) : Walk :=
  run program w.stop limit (.start w hints) []

/-
  The walk through a window. Steps never begin before an
  earlier one, each begins at one of the positions of the
  program, counted from either end, and one that advances
  nothing is followed by a step at a code position taken up;
  so a walk that ends takes no more steps than this bound.
-/
def all
    (program : Bytes)
    (w : Window)
    (hints : List Int) : Walk :=
  take (2 * program.size + hints.length + 2) program w hints

end Walk

end Beeb
