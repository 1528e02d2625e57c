import Beeb.Proofs.Listing.Agreement
import Beeb.Proofs.Listing.Preservation
import Beeb.Proofs.Walk.Cuts
import Beeb.Proofs.Walk.Hints

/-
  Which code addresses a listing depends on: those that a
  step of the window can meet, and of these only the ones at
  which no step begins anyway.

  Main declarations:
    * `Listing.preserves_blurred`
    * `Disassembly.read_eq_of_blurred`
    * `Disassembly.read_eq_of_known_eq`
    * `Disassembly.read_insert_boundary`
-/

------------------------------------------------------------
-- Steps That Look Alike
------------------------------------------------------------

namespace Beeb

/- No listing tells why an instruction is cut short. -/
theorem Listing.preserves_blurred
    (adjust : Int) :
    Preserves adjust adjust Placed.blurred := by
  constructor
  · exact fun p => rfl
  · exact fun p => rfl
  · rintro ⟨position, verdict, data⟩
    cases verdict with
    | _ => rfl
  · rintro ⟨position, verdict, data⟩
    cases verdict with
    | _ => rfl

namespace Disassembly

open Listing

variable (d e : Disassembly)
variable (hWindow : e.window = d.window)
variable (hVars : e.vars = d.vars)
variable (hSteps :
  d.steps.map Placed.blurred = e.steps.map Placed.blurred)

include hWindow hSteps

/- Steps that look alike have one analysis. -/
theorem analysis_eq_of_blurred :
    e.analysis = d.analysis := by
  have hPreserves := preserves_blurred d.window.adjust
  unfold analysis
  rw [hWindow, ← hPreserves.ofSteps_map d.steps, hSteps,
    hPreserves.ofSteps_map]

/- They have one plan of the lines after the header. -/
theorem body_eq_of_blurred
    (a : Analysis) :
    body a e.window e.steps = body a d.window d.steps := by
  have hPreserves := preserves_blurred d.window.adjust
  have hStop : 0 ≤ d.window.stop := by
    have hBounds :=
      (Window.validate_eq_ok_iff _ _).mp d.fits
    unfold Window.stop
    omega
  rw [hWindow, ← hPreserves.body_map rfl hStop hStop a,
    ← hSteps, hPreserves.body_map rfl hStop hStop a]

include hVars

/-
  They have one listing. What may differ are the reports on
  code addresses before the window.
-/
theorem read_eq_of_blurred :
    ∃ noted : List Report,
      d.read.reports = d.strayReports ++ noted ∧
        e.read =
          { d.read with
            reports := e.strayReports ++ noted } := by
  have hAnalysis :=
    analysis_eq_of_blurred d e hWindow hSteps
  have hBody :=
    body_eq_of_blurred d e hWindow hSteps d.analysis
  have hPlan : plan e d.analysis = plan d d.analysis := by
    unfold plan loadAddress
    rw [hBody, hVars, hWindow]
  unfold Disassembly.read Reader.drain Reader.resume
  simp only
  rw [hAnalysis, hPlan, hVars]
  exact ⟨_, List.append_assoc _ _ _, by rw [List.append_assoc]⟩

end Disassembly

end Beeb

------------------------------------------------------------
-- Code Addresses That No Step Can Meet
------------------------------------------------------------

namespace Beeb

namespace Window

/-
  Addresses that name the same positions up to a bound are
  taken up in the same order.
-/
theorem filter_hints_eq
    (w : Window)
    (addresses addresses' : List Int)
    (bound : Int)
    (hSame :
      {position ∈ w.known addresses | position < bound} =
        {position ∈ w.known addresses' | position < bound}) :
    (w.hints addresses).filter (· < bound) =
      (w.hints addresses').filter (· < bound) := by
  apply List.Pairwise.eq_of_mem_iff (r := (· < ·))
    ((w.hints_ascending addresses).filter _)
    ((w.hints_ascending addresses').filter _)
  intro position
  have hIff := Set.ext_iff.mp hSame position
  simp only [Set.mem_sep_iff] at hIff
  simp only [List.mem_filter, decide_eq_true_eq,
    mem_hints_iff_mem_known, hIff]

end Window

namespace Disassembly

open Listing

/-
  A listing depends on the code addresses as on a set, and
  only on those whose positions are in the program and lie
  in the window or in the two bytes past it. Their order
  does not matter, nor how often each is given, nor those
  that are elsewhere, but for the reports on those before
  the window.
-/
theorem read_eq_of_known_eq
    (program : Bytes)
    (w : Window)
    (addresses addresses' : List Int)
    (vars : List Variable)
    (hFits : w.validate program.size = .ok ())
    (hSame :
      {position ∈ w.known addresses |
          position < min (w.stop + 2) program.size} =
        {position ∈ w.known addresses' |
          position < min (w.stop + 2) program.size}) :
    let d : Disassembly :=
      ⟨program, w, addresses, vars, hFits⟩
    let e : Disassembly :=
      ⟨program, w, addresses', vars, hFits⟩
    e.read.lines = d.read.lines ∧
      e.read.failure = d.read.failure ∧
      ∃ noted,
        d.read.reports = d.strayReports ++ noted ∧
          e.read.reports = e.strayReports ++ noted := by
  intro d e
  rcases d.exists_course with ⟨final, hCourse, -⟩
  rcases e.exists_course with ⟨final', hOther, -⟩
  have hSteps :
      d.steps.map Placed.blurred =
        e.steps.map Placed.blurred := by
    apply hCourse.blurred_eq hOther
    · exact w.hints_ascending addresses
    · exact w.hints_ascending addresses'
    · exact w.filter_hints_eq addresses addresses' _ hSame
  rcases read_eq_of_blurred d e rfl rfl hSteps with
    ⟨noted, hReports, hRead⟩
  rw [hRead]
  exact ⟨rfl, rfl, noted, hReports, rfl⟩

/-
  A jump that runs past a window of one byte, and past the
  program. Of the addresses given the second time one lies
  before the window, one past the program, and one is given
  twice.
-/
theorem read_eq_of_known_eq_at_jump :
    let program : Bytes := #[0xEA, 0x4C, 0x01]
    let w : Window := ⟨1, 1, 0x1900⟩
    ∃ hFits : w.validate program.size = .ok (),
      {position ∈ w.known [0x1901] |
            position < min (w.stop + 2) program.size} =
          {position ∈ w.known [0x1903, 0x1901, 7, 0x1901] |
            position < min (w.stop + 2) program.size} ∧
        (Disassembly.read
            ⟨program, w, [0x1903, 0x1901, 7, 0x1901], [],
              hFits⟩).lines =
          (Disassembly.read
            ⟨program, w, [0x1901], [], hFits⟩).lines := by
  intro program w
  have hSame :
      {position ∈ w.known [0x1901] |
          position < min (w.stop + 2) program.size} =
        {position ∈ w.known [0x1903, 0x1901, 7, 0x1901] |
          position < min (w.stop + 2) program.size} := by
    apply Set.ext
    intro position
    simp [Window.known, w, program, Window.stop]
    omega
  exact
    ⟨rfl, hSame,
      (read_eq_of_known_eq program w [0x1901]
        [0x1903, 0x1901, 7, 0x1901] [] rfl hSame).1⟩

end Disassembly

end Beeb

------------------------------------------------------------
-- Code Addresses At Which Steps Begin
------------------------------------------------------------

namespace Beeb

namespace Window

variable (w : Window)
variable (before after : List Int)
variable (position : Int)

/- One more address names one more position. -/
theorem mem_hints_insert
    (hFrom : w.offset ≤ position)
    (hint : Int) :
    hint ∈
        w.hints (before ++ w.address position :: after) ↔
      hint ∈ w.hints (before ++ after) ∨
        hint = position := by
  have hAddress :
      w.address hint = w.address position ↔
        hint = position := by
    unfold address
    omega
  simp only [mem_hints, List.mem_append, List.mem_cons,
    hAddress]
  grind

/- An address in the window is not reported. -/
theorem reports_insert
    (hFrom : w.offset ≤ position) :
    w.reports (before ++ w.address position :: after) =
      w.reports (before ++ after) := by
  have hInside :
      ¬ w.address position - w.adjust < w.offset := by
    unfold address
    omega
  simp only [reports, strays, List.filter_append,
    List.filter_cons, hInside, decide_false,
    Bool.false_eq_true, if_false]

end Window

namespace Disassembly

open Listing

/-
  A code address at which a step begins anyway changes
  nothing, wherever it stands among the others: the listing,
  its reports and its failure are what they were.
-/
theorem read_insert_boundary
    (program : Bytes)
    (w : Window)
    (before after : List Int)
    (vars : List Variable)
    (address : Int)
    (hFits : w.validate program.size = .ok ())
    (hBoundary :
      ∃ p ∈
          Disassembly.steps
            ⟨program, w, before ++ after, vars, hFits⟩,
        p.address w.adjust = address) :
    Disassembly.read
        ⟨program, w, before ++ address :: after, vars,
          hFits⟩ =
      Disassembly.read
        ⟨program, w, before ++ after, vars, hFits⟩ := by
  let d : Disassembly :=
    ⟨program, w, before ++ after, vars, hFits⟩
  let e : Disassembly :=
    ⟨program, w, before ++ address :: after, vars, hFits⟩
  rcases hBoundary with ⟨p, hMem, rfl⟩
  rcases d.exists_course with ⟨final, hCourse, -⟩
  rcases e.exists_course with ⟨final', hOther, -⟩
  have hFrom : w.offset ≤ p.position :=
    (hCourse.regular p hMem).2.1
  have hSteps : e.steps = d.steps := by
    apply hCourse.insert_boundary hOther
      (w.hints_ascending _) (w.hints_ascending _) p hMem
    exact w.mem_hints_insert before after p.position hFrom
  have hStrays : e.strayReports = d.strayReports :=
    w.reports_insert before after p.position hFrom
  rcases read_eq_of_blurred d e rfl rfl (by rw [hSteps]) with
    ⟨noted, hReports, hRead⟩
  show e.read = d.read
  rw [hRead, hStrays, ← hReports]

/-
  The code address of the second of three steps is added; it
  lies before the one that was given.
-/
theorem read_insert_boundary_at_load :
    let program : Bytes :=
      #[0x20, 0xF4, 0xFF, 0xA9, 0x00, 0x60]
    let w : Window := ⟨0, 6, 0x1900⟩
    ∃ hFits : w.validate program.size = .ok (),
      (∃ p ∈
          Disassembly.steps
            ⟨program, w, [] ++ [0x1905], [], hFits⟩,
        p.address w.adjust = 0x1903) ∧
      Disassembly.read
          ⟨program, w, [] ++ 0x1903 :: [0x1905], [],
            hFits⟩ =
        Disassembly.read
          ⟨program, w, [] ++ [0x1905], [], hFits⟩ := by
  intro program w
  have hBoundary :
      ∃ p ∈
          Disassembly.steps
            ⟨program, w, [] ++ [0x1905], [], rfl⟩,
        p.address w.adjust = 0x1903 := by
    decide +kernel
  exact
    ⟨rfl, hBoundary,
      read_insert_boundary program w [] [0x1905] [] 0x1903
        rfl hBoundary⟩

end Disassembly

end Beeb
