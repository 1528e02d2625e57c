import Beeb.Assembler.Output
import Beeb.Proofs.Listing.Content

/-
  Where a listing assembles to, against the addresses that
  it shows.

  The header sets the origin to where the whole program
  loads, but the first line of the body shows the byte at
  the offset of the window.  So every address shown is past
  the address that the line assembles to, by the offset.

  Main declarations:
    * `Disassembly.shown_address`
    * `Disassembly.label_address`
    * `Disassembly.exists_shown_iff`
    * `Disassembly.addresses_exceed_by_offset`
-/

------------------------------------------------------------
-- Shown Addresses
------------------------------------------------------------

namespace Beeb

namespace Disassembly

open Listing

variable (d : Disassembly)
variable (before after : List Line)

/- The address that the line of a step shows. -/
theorem shown_address
    (line : Line)
    (address : Int)
    (hSplit : d.read.lines = before ++ line :: after)
    (hAddress : line.address? = some address) :
    address =
      runningAddress (origin d.read.lines) before +
        d.window.offset := by
  have hShort := d.short_of_line before after line hSplit
  have hNoHeader :=
    line.headerText?_of_address? address hAddress
  rcases d.place_read before after line hSplit hNoHeader with
    ⟨p, -, hPosition, hPresents⟩
  cases hPresents with
  | shown hShows =>
    rw [hShows.address?_eq] at hAddress
    rw [← Option.some.inj hAddress, Placed.address, hPosition,
      d.origin_read hShort, ← runningAddress_add,
      ← runningAddress_add, Int.add_comm]
  | label => cases hAddress

/- The address that the analysis has for a label line. -/
theorem label_address
    (name : String)
    (hSplit : d.read.lines = before ++ .label name :: after) :
    ∃ address label,
      d.analysis.labels[address]? = some label ∧
        label.name = .ok name ∧
        address =
          runningAddress (origin d.read.lines) before +
            d.window.offset := by
  have hShort := d.short_of_line before after _ hSplit
  rcases d.place_read before after _ hSplit rfl with
    ⟨p, -, hPosition, hPresents⟩
  cases hPresents with
  | shown hShows => cases hShows.address?_eq
  | label hSymbol hNext =>
    rcases Assembler.labelSymbol?_label _ _ p _ hSymbol with
      ⟨label, hLabel, hName⟩
    refine ⟨_, label, hLabel, hName, ?_⟩
    rw [Placed.address, hPosition, d.origin_read hShort,
      ← runningAddress_add, ← runningAddress_add,
      Int.add_comm]

end Disassembly

end Beeb

------------------------------------------------------------
-- Addresses And The Origin
------------------------------------------------------------

namespace Beeb

namespace Disassembly

open Listing

/- There are steps unless the window is empty. -/
theorem steps_eq_nil_iff
    (d : Disassembly) :
    d.steps = [] ↔ d.window.length = 0 := by
  rcases d.exists_course with ⟨final, hCourse, -⟩
  have hLength :=
    ((Window.validate_eq_ok_iff _ _).mp d.fits).2.1
  generalize d.steps = steps at hCourse
  unfold Window.stop at hCourse
  cases hCourse with
  | ended hStop =>
    simp only [true_iff]
    omega
  | step hBefore hRegular hRest =>
    simp only [reduceCtorEq, false_iff]
    omega

/- When a listing has a line that shows an address. -/
theorem exists_shown_iff
    (d : Disassembly) :
    (∃ before line after address,
      d.read.lines = before ++ line :: after ∧
        line.address? = some address) ↔
      d.window.length ≠ 0 ∧ d.read.failure = none := by
  rw [ne_eq, ← d.steps_eq_nil_iff]
  constructor
  · rintro ⟨before, line, after, address, hSplit, hAddress⟩
    have hShort := d.short_of_line before after line hSplit
    rcases d.place_read before after line hSplit
        (line.headerText?_of_address? address hAddress) with
      ⟨p, hp, -⟩
    exact ⟨List.ne_nil_of_mem hp, (d.read_eq hShort).2⟩
  · rintro ⟨hSome, hWritten⟩
    have hShort := d.short_of_written hWritten
    rcases List.exists_mem_of_ne_nil _ hSome with ⟨p, hp⟩
    rcases d.listed_bodyLines.exists_line p hp with
      ⟨line, hBody, hShows⟩
    have hLine : line ∈ d.read.lines := by
      rw [(d.read_eq hShort).1]
      exact List.mem_append_right _ hBody
    rcases List.append_of_mem hLine with
      ⟨before, after, hSplit⟩
    exact
      ⟨before, line, after, _, hSplit, hShows.address?_eq⟩

/-
  The addresses that a listing shows exceed those that it
  assembles to from its origin, by the offset of the window.
  So does the address of every label in the analysis. The
  two agree only where the offset is zero, or where no step
  is listed because the window is empty or the header fails.
-/
theorem addresses_exceed_by_offset
    (d : Disassembly) :
    let start := origin d.read.lines
    (∀ before line after address,
      d.read.lines = before ++ line :: after →
        line.address? = some address →
          address =
            runningAddress start before + d.window.offset) ∧
      (∀ before name after,
        d.read.lines = before ++ .label name :: after →
          ∃ address label,
            d.analysis.labels[address]? = some label ∧
              label.name = .ok name ∧
              address =
                runningAddress start before +
                  d.window.offset) ∧
      ((∀ before line after address,
        d.read.lines = before ++ line :: after →
          line.address? = some address →
            address = runningAddress start before) ↔
        d.window.offset = 0 ∨ d.window.length = 0 ∨
          d.read.failure ≠ none) := by
  intro start
  have hShown :
      ∀ before line after address,
        d.read.lines = before ++ line :: after →
          line.address? = some address →
            address =
              runningAddress start before +
                d.window.offset :=
    fun before line after address =>
      d.shown_address before after line address
  refine
    ⟨hShown,
      fun before name after =>
        d.label_address before after name,
      ?_⟩
  constructor
  · intro hAgree
    by_contra hNot
    simp only [not_or, not_not] at hNot
    rcases hNot with ⟨hOffset, hSome⟩
    rcases d.exists_shown_iff.mpr hSome with
      ⟨before, line, after, address, hSplit, hAddress⟩
    have hHere :=
      hAgree before line after address hSplit hAddress
    have hThere :=
      hShown before line after address hSplit hAddress
    omega
  · intro hCases before line after address hSplit hAddress
    have hThere :=
      hShown before line after address hSplit hAddress
    rcases d.exists_shown_iff.mp
        ⟨before, line, after, address, hSplit, hAddress⟩ with
      ⟨hLength, hWritten⟩
    rcases hCases with hOffset | hEmpty | hFails
    · rw [hThere, hOffset, Int.add_zero]
    · exact absurd hEmpty hLength
    · exact absurd hWritten hFails

/-
  With an offset, the listing of a jump to itself shows the
  jump at an address past the one it assembles to. So the
  jump assembles to other bytes than its own.
-/
theorem origin_misses_offset :
    let d : Disassembly :=
      ⟨#[0x60, 0x4C, 0x01, 0x19], ⟨1, 3, 0x1900⟩, [], [],
        rfl⟩
    (∃ before line,
      d.read.lines = before ++ [line] ∧
        line.address? = some 0x1901 ∧
        runningAddress (origin d.read.lines) before =
          0x1900) ∧
      Assembler.assemble? [] (origin d.read.lines)
          ((d.read.lines.filter (!·.isHeader)).map
            Line.render) =
        some [0x4C, 0x00, 0x19] := by
  intro d
  let line : Line :=
    .instruction "JMP" "label_0" 0x1901 [0x4C, 0x01, 0x19]
  have hLines :
      d.read.lines = d.read.lines.dropLast ++ [line] ∧
        runningAddress (origin d.read.lines)
            d.read.lines.dropLast =
          0x1900 := by
    decide +kernel
  exact
    ⟨⟨_, line, hLines.1, rfl, hLines.2⟩, by decide +kernel⟩

end Disassembly

end Beeb
