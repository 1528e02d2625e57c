import Beeb.Proofs.Listing.Agreement
import Beeb.Proofs.Listing.Preservation
import Beeb.Proofs.Walk.Relocation

/-
  What a listing does not depend on: the bytes that it does
  not cover, and where in its program those that it covers
  lie.

  Two disassemblies that show the same bytes at the same
  addresses have the same steps, a distance apart, and so
  the same analysis and the same body.

  Main declarations:
    * `Listing.preserves_moved`
    * `Disassembly.Relocated`
    * `Disassembly.Relocated.steps_eq`
    * `Disassembly.Relocated.plan_eq`
    * `Disassembly.read_eq_of_slice_eq`
    * `Disassembly.read_append_front`
-/

------------------------------------------------------------
-- Moved Steps
------------------------------------------------------------

namespace Beeb

/- A step that was moved has the address it had. -/
theorem Placed.address_moved
    (p : Placed)
    (adjust distance : Int) :
    (p.moved distance).address (adjust - distance) =
      p.address adjust := by
  simp only [address, moved]
  omega

/- So no listing shows that steps were moved. -/
theorem Listing.preserves_moved
    (adjust distance : Int) :
    Preserves adjust (adjust - distance)
      (Placed.moved distance) := by
  constructor
  · exact fun p => p.address_moved adjust distance
  · exact fun p => rfl
  · exact fun p => rfl
  · intro p
    unfold Item.ofStep
    rw [Placed.address_moved]
    rfl

end Beeb

------------------------------------------------------------
-- Disassemblies A Distance Apart
------------------------------------------------------------

namespace Beeb

namespace Disassembly

open Listing

/-
  Two disassemblies show the same bytes at the same
  addresses: the window of one, with the two bytes past it,
  lies a distance further on in the other.
-/
structure Relocated
    (d e : Disassembly)
    (distance : Int) : Prop where
  window_eq : e.window = d.window.moved distance
  codeAddresses_eq : e.codeAddresses = d.codeAddresses
  vars_eq : e.vars = d.vars
  sameBytes :
    d.program.SameBytes e.program d.window.offset
      (d.window.stop + 2) distance

namespace Relocated

variable {d e : Disassembly}
variable {distance : Int}
variable (hRelocated : Relocated d e distance)

include hRelocated

/- Both windows lie in their programs. -/
theorem bounds :
    0 ≤ d.window.offset ∧
      0 ≤ d.window.offset + distance ∧
      d.window.offset ≤ d.window.stop ∧
      d.window.stop ≤ d.program.size := by
  have hFits :=
    (Window.validate_eq_ok_iff _ _).mp d.fits
  have hMoved :=
    (Window.validate_eq_ok_iff _ _).mp e.fits
  rw [hRelocated.window_eq] at hMoved
  simp only [Window.moved, Window.stop] at hFits hMoved ⊢
  omega

/- The known code positions are that distance apart. -/
theorem hints_eq :
    e.hints = d.hints.map (· + distance) := by
  unfold hints
  rw [hRelocated.window_eq, hRelocated.codeAddresses_eq,
    Window.hints_moved]

/- So are the steps. -/
theorem steps_eq :
    e.steps = d.steps.map (Placed.moved distance) := by
  rcases hRelocated.bounds with
    ⟨hOffset, hMoved, hOrder, hSize⟩
  rcases d.exists_course with ⟨final, hCourse, -⟩
  rcases e.exists_course with ⟨final', hOther, -⟩
  rw [hRelocated.window_eq, Window.stop_moved] at hOther
  refine hCourse.eq_moved distance ?_ hOther
  intro position hFrom hInside
  have hThree :
      d.program.SameBytes e.program position (position + 3)
        distance :=
    hRelocated.sameBytes.narrow hOffset hMoved position
      (position + 3) hFrom (by omega) (by omega)
  have hPending :
      ∀ target ∈ Walk.pending? d.hints position,
        position < target :=
    fun target hTarget =>
      (Walk.pending?_eq_some _ _ _
        (d.window.hints_ascending _) hTarget).2.1
  rw [hRelocated.hints_eq, Walk.pending?_moved]
  exact
    Step.classify_eq hThree (by omega) (by omega) _ hPending
      (by omega)

/- No listing shows the difference. -/
theorem preserves :
    Preserves d.window.adjust e.window.adjust
      (Placed.moved distance) := by
  rw [hRelocated.window_eq, Window.adjust_moved]
  exact preserves_moved d.window.adjust distance

/- Both have one analysis. -/
theorem analysis_eq :
    e.analysis = d.analysis := by
  unfold analysis
  rw [hRelocated.steps_eq, hRelocated.preserves.ofSteps_map]

/- Both have one plan of the lines after the header. -/
theorem body_eq :
    body e.analysis e.window e.steps =
      body d.analysis d.window d.steps := by
  have hBounds := hRelocated.bounds
  have hStop :
      e.window.stop = d.window.stop + distance := by
    rw [hRelocated.window_eq, Window.stop_moved]
  have hAdjust :
      e.window.adjust = d.window.adjust - distance := by
    rw [hRelocated.window_eq, Window.adjust_moved]
  rw [hRelocated.analysis_eq, hRelocated.steps_eq]
  apply hRelocated.preserves.body_map
  · omega
  · omega
  · omega

/- And the lines themselves are the same. -/
theorem bodyLines_eq :
    e.bodyLines = d.bodyLines := by
  unfold bodyLines
  rw [hRelocated.analysis_eq, hRelocated.vars_eq,
    hRelocated.steps_eq, List.flatMap_map]
  simp only [hRelocated.preserves.stepLines_change]

/- Without a distance they have one plan. -/
theorem plan_eq
    (hNone : distance = 0) :
    plan e e.analysis = plan d d.analysis := by
  subst hNone
  have hOrigin : e.loadAddress = d.loadAddress := by
    unfold loadAddress
    rw [hRelocated.window_eq, Window.moved_zero]
  unfold plan
  rw [hRelocated.body_eq, hRelocated.analysis_eq,
    hRelocated.vars_eq, hOrigin]

end Relocated

end Disassembly

end Beeb

------------------------------------------------------------
-- Bytes That Are Not Covered
------------------------------------------------------------

namespace Beeb

namespace Disassembly

open Listing

/-
  A listing depends only on the bytes it covers: those of
  the window, and the two bytes past it that the last
  instruction may reach. Two programs that the window fits
  and that have these in common have the same listing, with
  the same reports, whatever stands before the window and
  past those two bytes, and however long the programs are.
-/
theorem read_eq_of_slice_eq
    (p q : Bytes)
    (w : Window)
    (addresses : List Int)
    (vars : List Variable)
    (hFits : w.validate p.size = .ok ())
    (hOther : w.validate q.size = .ok ())
    (hSame :
      p.slice w.offset (w.stop + 2) =
        q.slice w.offset (w.stop + 2)) :
    Disassembly.read ⟨p, w, addresses, vars, hFits⟩ =
      Disassembly.read ⟨q, w, addresses, vars, hOther⟩ := by
  let d : Disassembly := ⟨p, w, addresses, vars, hFits⟩
  let e : Disassembly := ⟨q, w, addresses, vars, hOther⟩
  have hRelocated : Relocated d e 0 := by
    refine ⟨(w.moved_zero).symm, rfl, rfl, ?_⟩
    unfold Bytes.SameBytes
    rw [Int.add_zero, Int.add_zero]
    exact congrArg Array.toList hSame.symm
  have hPlan := hRelocated.plan_eq rfl
  have hAnalysis := hRelocated.analysis_eq
  show d.read = e.read
  unfold Disassembly.read Reader.drain
  simp only
  rw [← hPlan, ← hAnalysis]
  rfl

/-
  Programs that differ before the window and past the jump
  that begins on its last byte.
-/
theorem read_eq_of_slice_eq_at_jump :
    let w : Window := ⟨1, 1, 0x1900⟩
    let p : Bytes := #[0x60, 0x4C, 0x01, 0x19, 0x60]
    let q : Bytes := #[0xEA, 0x4C, 0x01, 0x19]
    ∃ hFits : w.validate p.size = .ok (),
      ∃ hOther : w.validate q.size = .ok (),
        p.slice w.offset (w.stop + 2) =
            q.slice w.offset (w.stop + 2) ∧
          Disassembly.read ⟨p, w, [0x1903], [], hFits⟩ =
            Disassembly.read ⟨q, w, [0x1903], [], hOther⟩ := by
  intro w p q
  have hSame :
      p.slice w.offset (w.stop + 2) =
        q.slice w.offset (w.stop + 2) := by
    decide
  exact
    ⟨rfl, rfl, hSame,
      read_eq_of_slice_eq p q w [0x1903] [] rfl rfl hSame⟩

end Disassembly

end Beeb

------------------------------------------------------------
-- Bytes In Front
------------------------------------------------------------

namespace Beeb

namespace Bytes

/- Bytes in front move the others on, as they are. -/
theorem sameBytes_append
    (front program : Bytes)
    (start stop : Int)
    (hStart : 0 ≤ start)
    (hOrder : start ≤ stop) :
    SameBytes program (front ++ program) start stop
      front.size := by
  unfold SameBytes
  rw [toList_slice _ _ _ (by omega) (by omega),
    toList_slice _ _ _ hStart hOrder, Array.toList_append,
    Int.add_sub_add_right]
  have hDrop :
      (start + front.size).toNat =
        front.toList.length + start.toNat := by
    rw [Array.length_toList]
    omega
  rw [hDrop, List.drop_length_add_append]

end Bytes

namespace Disassembly

open Listing

/- The lines that set the origin end the header. -/
theorem headerText_eq_append
    (a : Analysis)
    (vars : List Variable)
    (origin : Int) :
    headerText a vars origin =
      headerText a vars 0 ++ originLines origin := by
  have hNone : originLines 0 = [] := rfl
  simp only [headerText, hNone, List.append_nil]

/-
  Only the addresses at which a program runs matter to its
  listing, not the positions of its bytes. If bytes are put
  in front of it, and the window and what is added to its
  positions are moved by as much, then the window fits again
  and the listing fails or not as before. Its body is the
  same line by line, and so are the blocks of its header
  that define symbols and variables; the lines that set the
  origin alone follow what is added to the positions.
-/
theorem read_append_front
    (front program : Bytes)
    (w : Window)
    (addresses : List Int)
    (vars : List Variable)
    (hFits : w.validate program.size = .ok ())
    (hRoom : front.size ≤ w.adjust) :
    ∃ hMoved :
        (w.moved front.size).validate
            (front ++ program).size = .ok (),
      let d : Disassembly :=
        ⟨program, w, addresses, vars, hFits⟩
      let e : Disassembly :=
        ⟨front ++ program, w.moved front.size, addresses,
          vars, hMoved⟩
      e.read.failure = d.read.failure ∧
        (d.read.failure ≠ none →
          d.read.lines = [] ∧ e.read.lines = []) ∧
        (d.read.failure = none →
          ∃ blocks body,
            (∀ line ∈ body, line.isHeader = false) ∧
              d.read.lines =
                (blocks ++ originLines w.adjust).map
                    .header ++ body ∧
              e.read.lines =
                (blocks ++
                      originLines
                        (w.adjust - front.size)).map
                    .header ++ body) := by
  have hMoved :
      (w.moved front.size).validate
          (front ++ program).size = .ok () := by
    rw [Window.validate_eq_ok_iff] at hFits ⊢
    rw [Window.stop_moved, Array.size_append]
    simp only [Window.moved]
    omega
  refine ⟨hMoved, ?_⟩
  intro d e
  have hRelocated : Relocated d e front.size := by
    refine ⟨rfl, rfl, rfl, ?_⟩
    rcases (Window.validate_eq_ok_iff _ _).mp hFits with
      ⟨hOffset, hLength, -, -⟩
    apply Bytes.sameBytes_append
    · exact hOffset
    · simp only [d, Window.stop]
      omega
  rcases Variable.overlong_or_short vars with
    hLong | hShort
  · rcases d.read_of_overlong hLong with ⟨hFailure, hLines⟩
    rcases e.read_of_overlong hLong with
      ⟨hOtherFailure, hOtherLines⟩
    rw [hFailure, hOtherFailure]
    exact
      ⟨rfl, fun _ => ⟨hLines, hOtherLines⟩, fun hNone => by
        cases hNone⟩
  · rcases d.read_eq hShort with ⟨hLines, hFailure⟩
    rcases e.read_eq hShort with ⟨hOtherLines, hOtherFailure⟩
    rw [hRelocated.bodyLines_eq, hRelocated.analysis_eq,
      headerText_eq_append] at hOtherLines
    rw [headerText_eq_append] at hLines
    refine ⟨by rw [hFailure, hOtherFailure], ?_, fun _ => ?_⟩
    · exact fun hFails => absurd hFailure hFails
    · exact
        ⟨_, d.bodyLines, d.isHeader_of_mem_bodyLines, hLines,
          hOtherLines⟩

/- A branch back to a call, with three bytes in front of it. -/
theorem read_append_front_call :
    let front : Bytes := #[1, 2, 3]
    let program : Bytes := #[0x20, 0xF4, 0xFF, 0xD0, 0xFB]
    let w : Window := ⟨0, 5, 0x1900⟩
    ∃ hFits : w.validate program.size = .ok (),
      ∃ hMoved :
          (w.moved front.size).validate
              (front ++ program).size = .ok (),
        (front.size : Int) ≤ w.adjust ∧
          ∃ blocks body,
            Listing.originLines w.adjust ≠
                originLines (w.adjust - front.size) ∧
              (Disassembly.read
                    ⟨program, w, [], [], hFits⟩).lines =
                (blocks ++ originLines w.adjust).map
                    .header ++ body ∧
              (Disassembly.read
                    ⟨front ++ program, w.moved front.size, [],
                      [], hMoved⟩).lines =
                (blocks ++
                      originLines
                        (w.adjust - front.size)).map
                    .header ++ body := by
  intro front program w
  rcases read_append_front front program w [] [] rfl
      (by decide) with
    ⟨hMoved, hFailure, -, hLines⟩
  rcases hLines (by decide +kernel) with
    ⟨blocks, body, -, hBefore, hAfter⟩
  exact
    ⟨rfl, hMoved, by decide, blocks, body, by decide +kernel,
      hBefore, hAfter⟩

end Disassembly

end Beeb
