import Beeb.Proofs.Listing.Reading

/-
  The two passes agree: a listing can fail only before its
  first line, and only over a variable that is too long.

  Main declarations:
    * `Disassembly.take_eq_steps`
    * `Disassembly.analyse_eq_ok`
    * `Disassembly.read_of_overlong`
    * `Disassembly.read_fails_only_in_header`
-/

------------------------------------------------------------
-- The First Pass
------------------------------------------------------------

namespace Beeb

namespace Disassembly

/-
  The walk of both passes finds all its bytes and ends by
  itself.
-/
theorem take_eq_steps
    (d : Disassembly)
    (limit : Nat)
    (hLimit : d.window.length ≤ limit) :
    Walk.take limit d.program d.window d.hints =
      ⟨d.steps, none⟩ := by
  rcases (Window.validate_eq_ok_iff d.window
      d.program.size).mp d.fits with
    ⟨hOffset, -, -, hSize⟩
  rcases Walk.take_eq d.program d.window d.hints d.fits
      (d.window.hints_ascending d.codeAddresses)
      fun hint hMem =>
        ((d.window.mem_hints d.codeAddresses hint).mp hMem).1
    with ⟨steps, final, -, -, hTake⟩
  have hAll :
      Walk.all d.program d.window d.hints =
        ⟨steps, none⟩ := by
    apply hTake
    unfold Window.stop at hSize
    omega
  have hSteps : d.steps = steps := congrArg Walk.steps hAll
  rw [hTake limit hLimit, hSteps]

/- The first pass does not fail. -/
theorem analyse_eq_ok
    (d : Disassembly) :
    Analysis.analyse d.program d.window d.hints =
      .ok d.analysis := by
  rcases d.exists_course with ⟨final, -, hFault⟩
  unfold Analysis.analyse
  simp only [hFault]
  rfl

end Disassembly

end Beeb

------------------------------------------------------------
-- Counting Lines
------------------------------------------------------------

namespace Beeb

/-
  Parts that each have one member of a kind, or none, have
  as many of them as there are parts with one.
-/
theorem countP_flatMap_eq_countP
    {α β : Type}
    (part : α → List β)
    (kind : β → Bool)
    (has : α → Bool)
    (xs : List α)
    (hParts :
      ∀ x ∈ xs,
        (part x).countP kind = if has x then 1 else 0) :
    (xs.flatMap part).countP kind = xs.countP has := by
  induction xs with
  | nil => rfl
  | cons x xs ih =>
    rw [List.flatMap_cons, List.countP_append,
      hParts x (by simp),
      ih fun y hy => hParts y (by simp [hy]),
      List.countP_cons, Nat.add_comm]

namespace Disassembly

open Listing

/- How many lines of each kind the body has. -/
theorem countP_bodyLines
    (d : Disassembly) :
    d.bodyLines.countP Line.isLabel =
        d.analysis.labels.size ∧
      d.bodyLines.countP Line.isStep = d.steps.length := by
  have hParts :
      ∀ p ∈ d.steps, _ :=
    fun p hp =>
      countP_stepLines d.analysis.labels d.vars
        d.window.adjust p (d.faithful_of_mem_steps p hp)
        d.labels_writable
  constructor
  · have hLabels :=
      Analysis.countP_labels_eq_size d.window.adjust d.steps
        d.steps_ascending
    rw [bodyLines,
      countP_flatMap_eq_countP _ _ _ d.steps fun p hp =>
        (hParts p hp).1]
    exact hLabels
  · rw [bodyLines,
      countP_flatMap_eq_countP _ _ (fun _ => true) d.steps
        fun p hp => (hParts p hp).2.1]
    exact congrFun List.countP_true d.steps

end Disassembly

end Beeb

------------------------------------------------------------
-- Failures
------------------------------------------------------------

namespace Beeb

namespace Disassembly

open Listing

/- A variable that is too long stops the listing at once. -/
theorem read_of_overlong
    (d : Disassembly)
    (hLong : ∃ v ∈ d.vars, v.Overlong) :
    d.read.failure =
        some (.header (.unwritable .tooLongToWrite)) ∧
      d.read.lines = [] := by
  have hPlan := plan_of_overlong d hLong
  simp [Disassembly.read, Reader.drain, Reader.resume, hPlan,
    Listing.read, readOnto]

/- A listing that is written has no variable too long. -/
theorem short_of_written
    (d : Disassembly)
    (hWritten : d.read.failure = none)
    (v : Variable)
    (hMem : v ∈ d.vars) :
    ¬ v.Overlong := by
  intro hOverlong
  rw [(d.read_of_overlong ⟨v, hMem, hOverlong⟩).1]
    at hWritten
  cases hWritten

/-
  The two passes of a listing agree whatever the program,
  the window, the known code addresses and the variables
  are. The walk that both share finds every byte it asks
  for and ends, and the analysis succeeds. The listing fails
  if and only if a variable has too many digits, for this
  reason and with no line written. Otherwise there is a
  label line for each label and a further line for each
  step.
-/
theorem read_fails_only_in_header
    (d : Disassembly) :
    (∀ limit : Nat,
      d.window.length ≤ limit →
        Walk.take limit d.program d.window d.hints =
          ⟨d.steps, none⟩) ∧
      Analysis.analyse d.program d.window d.hints =
        .ok d.analysis ∧
      (d.read.failure ≠ none ↔ ∃ v ∈ d.vars, v.Overlong) ∧
      (d.read.failure ≠ none →
        d.read.failure =
            some (.header (.unwritable .tooLongToWrite)) ∧
          d.read.lines = []) ∧
      (d.read.failure = none →
        d.read.lines.countP Line.isLabel =
            d.analysis.labels.size ∧
          d.read.lines.countP Line.isStep =
            d.steps.length) := by
  refine ⟨d.take_eq_steps, d.analyse_eq_ok, ?_⟩
  by_cases hLong : ∃ v ∈ d.vars, v.Overlong
  · rcases d.read_of_overlong hLong with ⟨hFailure, hLines⟩
    refine ⟨?_, ?_, ?_⟩
    · simp [hFailure, hLong]
    · exact fun _ => ⟨hFailure, hLines⟩
    · intro hNone
      rw [hNone] at hFailure
      cases hFailure
  · have hShort : ∀ v ∈ d.vars, ¬ v.Overlong :=
      fun v hv hOverlong => hLong ⟨v, hv, hOverlong⟩
    rcases d.read_eq hShort with ⟨hLines, hFailure⟩
    rcases d.countP_bodyLines with ⟨hLabels, hSteps⟩
    have hHeader :
        ∀ text : List String,
          (text.map Line.header).countP Line.isLabel = 0 ∧
            (text.map Line.header).countP Line.isStep = 0 := by
      intro text
      simp [List.countP_map, Function.comp_def, Line.isLabel,
        Line.isStep]
    refine ⟨?_, ?_, ?_⟩
    · simp [hFailure, hLong]
    · exact fun hFails => absurd hFailure hFails
    · intro _
      rw [hLines, List.countP_append, List.countP_append,
        (hHeader _).1, (hHeader _).2, hLabels, hSteps]
      simp

end Disassembly

end Beeb
