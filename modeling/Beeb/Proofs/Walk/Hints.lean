import Beeb.Proofs.Walk.Course
import Mathlib.Order.Bounds.Basic

/-
  Known code addresses are honoured: a step begins at each
  of them in the window, none runs across one, and nothing
  else but the end of the program cuts an instruction short.

  Main declarations:
    * `Window.known`
    * `Walk.Course.exists_step_at`
    * `Walk.hints_honoured`
-/

------------------------------------------------------------
-- Known Positions
------------------------------------------------------------

namespace Beeb

namespace Window

/-
  The positions of known code addresses, those before the
  window left out.
-/
def known
    (w : Window)
    (addresses : List Int) : Set Int :=
  {position | w.offset ≤ position ∧
    ∃ address ∈ addresses, address - w.adjust = position}

/- The positions that a walk is given are the known ones. -/
theorem mem_hints_iff_mem_known
    (w : Window)
    (addresses : List Int)
    (position : Int) :
    position ∈ w.hints addresses ↔
      position ∈ w.known addresses := by
  rw [mem_hints]
  apply and_congr_right
  intro hFrom
  constructor
  · intro hMem
    refine ⟨w.address position, hMem, ?_⟩
    unfold Window.address
    omega
  · rintro ⟨address, hMem, rfl⟩
    have hAddress :
        w.address (address - w.adjust) = address := by
      unfold Window.address
      omega
    rwa [hAddress]

end Window

end Beeb

------------------------------------------------------------
-- Steps And Known Positions
------------------------------------------------------------

namespace Beeb

namespace Walk

namespace Course

variable {program : Bytes}
variable {stop : Int}
variable {hints : List Int}

/-
  A step begins at every known code position in the window.
  No step runs across the position, so the cursor gets there.
-/
theorem exists_step_at
    {cursor final : Int}
    {steps : List Placed}
    (hCourse : Course program stop hints cursor steps final)
    (hint : Int)
    (hMem : hint ∈ hints)
    (hFrom : cursor ≤ hint)
    (hInside : hint < stop) :
    ∃ p ∈ steps, p.position = hint := by
  induction hCourse with
  | ended hStop => omega
  | @step cursor final s rest hBefore hRegular hRest ih =>
    by_cases hHere : cursor = hint
    · exact ⟨⟨cursor, s⟩, by simp, hHere⟩
    · have hPast : cursor < hint := by omega
      have hClear : cursor + s.length ≤ hint :=
        hRegular.clear hint hMem hPast
      rcases ih hClear with ⟨p, hp, hPosition⟩
      exact ⟨p, List.mem_cons_of_mem _ hp, hPosition⟩

/- One step at most begins at a position. -/
theorem countP_position
    {cursor final : Int}
    {steps : List Placed}
    (hCourse : Course program stop hints cursor steps final)
    (p : Placed)
    (hMem : p ∈ steps) :
    steps.countP (·.position = p.position) = 1 := by
  have hNodup : (steps.map Placed.position).Nodup :=
    hCourse.ascending.imp Int.ne_of_lt
  have hCount :
      (steps.map Placed.position).count p.position = 1 := by
    rw [hNodup.count, if_pos (List.mem_map_of_mem hMem)]
  rw [← hCount, List.count, List.countP_map]
  rfl

end Course

end Walk

namespace Placed

variable {program : Bytes}
variable {hints : List Int}

/- How long the step of an instruction is. -/
theorem Regular.length_of_instruction
    {p : Placed}
    (hRegular : p.Regular program hints)
    (i : Instruction)
    (first : UInt8)
    (hFetch : program.fetch p.position = .ok first)
    (hFind : Instruction.ofOpcode? first.toNat = some i) :
    p.step.length =
      Step.reach (some i) p.position
        (Walk.pending? hints p.position) program.size := by
  rcases hRegular.length_eq with ⟨byte, hByte, hLength⟩
  rw [hFetch] at hByte
  cases hByte
  rw [hLength, hFind]

/-
  What cuts an instruction short, in terms of the next known
  code position.
-/
theorem Regular.length_of_isLeast
    {p : Placed}
    (hRegular : p.Regular program hints)
    (hAscending : hints.Pairwise (· < ·))
    (i : Instruction)
    (first : UInt8)
    (hFetch : program.fetch p.position = .ok first)
    (hFind : Instruction.ofOpcode? first.toNat = some i)
    (target : Int)
    (hLeast :
      IsLeast {hint | hint ∈ hints ∧ p.position < hint}
        target) :
    p.step.length =
      min (min i.length (target - p.position))
        (program.size - p.position) := by
  rcases hLeast with ⟨⟨hMem, hPast⟩, hBelow⟩
  rw [hRegular.length_of_instruction i first hFetch hFind]
  cases hPending : Walk.pending? hints p.position with
  | none =>
    have hNone :=
      (Walk.pending?_eq_none_iff hints p.position).mp
        hPending target hMem
    omega
  | some next =>
    rcases Walk.pending?_eq_some hints p.position next
        hAscending
        hPending with
      ⟨hNextMem, hNextPast, hNextLeast⟩
    have hSame : next = target :=
      Int.le_antisymm (hNextLeast target hMem hPast)
        (hBelow ⟨hNextMem, hNextPast⟩)
    rw [hSame]
    rfl

/- With no known code position ahead only the end counts. -/
theorem Regular.length_of_forall_le
    {p : Placed}
    (hRegular : p.Regular program hints)
    (i : Instruction)
    (first : UInt8)
    (hFetch : program.fetch p.position = .ok first)
    (hFind : Instruction.ofOpcode? first.toNat = some i)
    (hBehind : ∀ hint ∈ hints, hint ≤ p.position) :
    p.step.length =
      min i.length (program.size - p.position) := by
  have hPending : Walk.pending? hints p.position = none :=
    (Walk.pending?_eq_none_iff hints p.position).mpr hBehind
  rw [hRegular.length_of_instruction i first hFetch hFind,
    hPending]
  rfl

/-
  An instruction that is cut short ends at a known code
  position or at the end of the program.
-/
theorem Regular.stop_of_length_lt
    {p : Placed}
    (hRegular : p.Regular program hints)
    (hAscending : hints.Pairwise (· < ·))
    (i : Instruction)
    (first : UInt8)
    (hFetch : program.fetch p.position = .ok first)
    (hFind : Instruction.ofOpcode? first.toNat = some i)
    (hShort : p.step.length < i.length) :
    p.stop ∈ hints ∨ p.stop = program.size := by
  have hLength :=
    hRegular.length_of_instruction i first hFetch hFind
  unfold Placed.stop
  cases hPending : Walk.pending? hints p.position with
  | none =>
    simp only [hPending, Step.reach] at hLength
    exact .inr (by omega)
  | some target =>
    simp only [hPending, Step.reach] at hLength
    by_cases hCut :
        target - p.position ≤ program.size - p.position
    · have hStop : p.position + p.step.length = target := by
        omega
      rw [hStop]
      exact
        .inl
          (Walk.pending?_eq_some hints p.position target
            hAscending hPending).1
    · exact .inr (by omega)

end Placed

end Beeb

------------------------------------------------------------
-- Honouring Known Positions
------------------------------------------------------------

namespace Beeb

namespace Walk

/-
  What the walk through a window does at the known code
  addresses. It begins exactly one step at each that lies in
  the window, and runs across none, be it in the window or
  past it. A step takes one byte if no instruction begins
  there; else it takes the instruction up to the next known
  code position and the end of the program, and nothing else
  cuts it short.
-/
theorem hints_honoured
    (program : Bytes)
    (w : Window)
    (addresses : List Int)
    (hFits : w.validate program.size = .ok ()) :
    let walk := all program w (w.hints addresses)
    let known := w.known addresses
    walk.fault = none ∧
      (∀ hint ∈ known,
        hint < w.stop →
          walk.steps.countP (·.position = hint) = 1) ∧
      (∀ p ∈ walk.steps,
        ∀ hint ∈ known,
          ¬ (p.position < hint ∧
            hint < p.position + p.step.length)) ∧
      ∀ p ∈ walk.steps,
        ∃ first,
          program.fetch p.position = .ok first ∧
            (Instruction.ofOpcode? first.toNat = none →
              p.step.length = 1) ∧
            ∀ i,
              Instruction.ofOpcode? first.toNat = some i →
                (∀ hint,
                  IsLeast
                      {hint | hint ∈ known ∧
                        p.position < hint}
                      hint →
                    p.step.length =
                      min (min i.length (hint - p.position))
                        (program.size - p.position)) ∧
                ((∀ hint ∈ known, hint ≤ p.position) →
                  p.step.length =
                    min i.length
                      (program.size - p.position)) ∧
                (p.step.length < i.length →
                  p.stop ∈ known ∨ p.stop = program.size) := by
  intro walk known
  have hAscending := w.hints_ascending addresses
  rcases course_all program w (w.hints addresses) hFits
      hAscending
      (fun hint hMem =>
        ((w.mem_hints addresses hint).mp hMem).1) with
    ⟨final, hCourse, hFault⟩
  have hKnown :
      ∀ hint, hint ∈ w.hints addresses ↔ hint ∈ known :=
    w.mem_hints_iff_mem_known addresses
  refine ⟨hFault, ?_, ?_, ?_⟩
  · intro hint hMem hInside
    rcases hCourse.exists_step_at hint ((hKnown hint).mpr hMem)
        hMem.1 hInside with
      ⟨p, hp, rfl⟩
    exact hCourse.countP_position p hp
  · rintro p hp hint hMem ⟨hPast, hWithin⟩
    have hClear :=
      (hCourse.regular p hp).1.clear hint
        ((hKnown hint).mpr hMem) hPast
    unfold Placed.stop at hClear
    omega
  · intro p hp
    have hRegular := (hCourse.regular p hp).1
    rcases hRegular.length_eq with ⟨first, hFetch, hLength⟩
    refine ⟨first, hFetch, ?_, ?_⟩
    · intro hNone
      rw [hLength, hNone]
      rfl
    · intro i hFind
      refine ⟨?_, ?_, ?_⟩
      · intro hint hLeast
        simp only [← hKnown] at hLeast
        exact
          hRegular.length_of_isLeast hAscending i first hFetch
            hFind hint hLeast
      · intro hBehind
        simp only [← hKnown] at hBehind
        exact
          hRegular.length_of_forall_le i first hFetch hFind
            hBehind
      · intro hShort
        rw [← hKnown]
        exact
          hRegular.stop_of_length_lt hAscending i first hFetch
            hFind hShort

/-
  A jump whose operand bytes are known code addresses: one
  step begins at the last of them, and the jump is cut down
  to its first byte.
-/
theorem hints_honoured_in_jump :
    Window.validate ⟨0, 4, 0x1900⟩ 4 = .ok () ∧
      (all #[0x20, 0x60, 0x60, 0x60] ⟨0, 4, 0x1900⟩
          (Window.hints ⟨0, 4, 0x1900⟩
            [0x1902, 7, 0x1901])).steps.countP
        (·.position = 2) = 1 ∧
      ∀ p ∈
          (all #[0x20, 0x60, 0x60, 0x60] ⟨0, 4, 0x1900⟩
            (Window.hints ⟨0, 4, 0x1900⟩
              [0x1902, 7, 0x1901])).steps,
        ¬ (p.position < 1 ∧
          1 < p.position + p.step.length) := by
  have hFits :
      Window.validate ⟨0, 4, 0x1900⟩ 4 = .ok () := rfl
  rcases hints_honoured #[0x20, 0x60, 0x60, 0x60] ⟨0, 4, 0x1900⟩
      [0x1902, 7, 0x1901] hFits with
    ⟨-, hBegins, hClear, -⟩
  refine ⟨hFits, ?_, ?_⟩
  · exact
      hBegins 2 ⟨by decide, 0x1902, by simp, by decide⟩
        (by decide)
  · intro p hp
    exact
      hClear p hp 1 ⟨by decide, 0x1901, by simp, by decide⟩

end Walk

end Beeb
