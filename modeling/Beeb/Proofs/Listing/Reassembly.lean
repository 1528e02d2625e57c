import Beeb.Proofs.Assembler.Passes

/-
  Reassembly: an assembler makes the bytes of the program
  out of its listing.

  Main declarations:
    * `Disassembly.assemble?_bodyLines`
    * `Disassembly.listing_reassembles`
-/

------------------------------------------------------------
-- Whole Listings
------------------------------------------------------------

namespace Beeb

namespace Disassembly

open Assembler Listing

/-
  The body of a listing with no variables is assembled to
  the bytes of its steps, with the symbols of its header.
-/
theorem assemble?_bodyLines
    (d : Disassembly)
    (final : Int)
    (hVars : d.vars = [])
    (hContiguous :
      Walk.Contiguous d.window.offset d.steps final) :
    assemble? (headerSymbols d.analysis)
        (d.window.address d.window.offset)
        (d.bodyLines.map Line.render) =
      some (d.steps.flatMap (·.step.data)) := by
  have hNumbered : d.analysis.labels.Numbered :=
    Analysis.labels_numbered d.window.adjust d.steps
  have hEach :
      ∀ p ∈ d.steps, ∃ statement,
        Prepared d.analysis d.window.adjust statement p := by
    intro p hp
    exact
      exists_statement d.analysis d.window.adjust p
        (d.faithful_of_mem_steps p hp) hNumbered
        (Analysis.covered_of_mem d.window.adjust d.steps p hp)
  have hSome : Nonempty Statement := ⟨.bytes []⟩
  choose! statement hPrepared using hEach
  have hRead :=
    mapM_readLine? d.analysis d.window.adjust statement
      d.steps hNumbered hPrepared
  have hDefines :=
    defines_headerSymbols d.window.adjust d.steps
      d.steps_ascending
  have hLayout :=
    layout?_stepStatements d.analysis d.window.adjust
      statement d.steps d.window.offset final
      (headerSymbols d.analysis) hContiguous hPrepared
      hDefines
      (nodup_symbols d.window.adjust d.steps
        d.steps_ascending)
  have hEncode :=
    encodeAll?_stepStatements d.analysis d.window.adjust
      statement _
      (hDefines.append
        (labelSymbols d.analysis.labels d.window.adjust
          d.steps))
      (places_labelSymbols d.window.adjust d.steps
        d.steps_ascending)
      d.steps d.window.offset final hContiguous hPrepared
  unfold assemble? bodyLines Window.address
  rw [hVars, hRead]
  simp only [Option.bind_eq_bind, Option.bind_some, hLayout]
  exact hEncode

/-
  A listing with no variables is faithful, whatever the
  program, the window and the known code addresses are. It
  is written to its end. An assembler that is given the
  system symbols of its header accepts every line of its
  body, and makes out of them the bytes of the program from
  the offset on to the end of the last step.
-/
theorem listing_reassembles
    (program : Bytes)
    (w : Window)
    (addresses : List Int)
    (hFits : w.validate program.size = .ok ()) :
    let d : Disassembly := ⟨program, w, addresses, [], hFits⟩
    ∃ header body final,
      d.read.failure = none ∧
        d.read.lines = header ++ body ∧
        (∀ line ∈ header, line.isHeader = true) ∧
        (∀ line ∈ body, line.isHeader = false) ∧
        Walk.Contiguous w.offset d.steps final ∧
        w.stop ≤ final ∧
        final ≤ min (w.stop + 2) program.size ∧
        assemble?
            (header.filterMap (readDefinition? ·.render))
            (w.address w.offset)
            (body.map Line.render) =
          some (program.slice w.offset final).toList := by
  intro d
  rcases d.exists_course with ⟨final, hCourse, -⟩
  rcases (Window.validate_eq_ok_iff w program.size).mp hFits
    with ⟨hOffset, hLength, -, hSize⟩
  have hStop : w.stop = w.offset + w.length := rfl
  rcases d.read_eq (by simp [d]) with ⟨hLines, hFailure⟩
  have hBounds :=
    hCourse.final_bounds (by simp only [d]; omega)
      (by simp only [d]; omega)
  have hData :=
    hCourse.data_eq hOffset (by simp only [d]; omega)
      (by simp only [d]; omega)
  have hAssembled :=
    d.assemble?_bodyLines final rfl hCourse.contiguous
  have hSymbols :
      ((headerText d.analysis d.vars d.loadAddress).map
          Line.header).filterMap (readDefinition? ·.render) =
        headerSymbols d.analysis := by
    rw [List.filterMap_map]
    exact filterMap_headerText w.adjust d.steps w.adjust
  refine
    ⟨_, _, final, hFailure, hLines, ?_,
      d.isHeader_of_mem_bodyLines, hCourse.contiguous,
      hBounds.2.1, hBounds.2.2, ?_⟩
  · intro line hMem
    rcases List.mem_map.mp hMem with ⟨text, -, rfl⟩
    rfl
  · rw [hSymbols, ← hData]
    exact hAssembled

/- A call of the operating system and a branch back to it. -/
theorem listing_reassembles_call :
    ∃ hFits : Window.validate ⟨0, 5, 0x1900⟩ 5 = .ok (),
      let d : Disassembly :=
        ⟨#[0x20, 0xF4, 0xFF, 0xD0, 0xFB], ⟨0, 5, 0x1900⟩, [],
          [], hFits⟩
      let header : List Line :=
        (title ++
          ["\\ OS Call Addresses", "OSBYTE = &FFF4", "",
            "CODE% = &1900", "", "ORG CODE%", ""]).map .header
      let body : List Line :=
        [.label "label_0",
          .instruction "JSR" "OSBYTE" 0x1900
            [0x20, 0xF4, 0xFF],
          .instruction "BNE" "label_0" 0x1903 [0xD0, 0xFB]]
      d.read.failure = none ∧
        d.read.lines = header ++ body ∧
        assemble?
            (header.filterMap (readDefinition? ·.render))
            0x1900
            (body.map Line.render) =
          some [0x20, 0xF4, 0xFF, 0xD0, 0xFB] := by
  refine ⟨rfl, ?_⟩
  intro d header body
  have hRead : d.read.lines = header ++ body := by
    decide +kernel
  rcases listing_reassembles
      #[0x20, 0xF4, 0xFF, 0xD0, 0xFB] ⟨0, 5, 0x1900⟩ [] rfl
    with
    ⟨front, back, final, hFailure, hLines, hFront, hBack, -,
      hReached, hBound, hBytes⟩
  rcases filter_isHeader_append front back hFront hBack with
    ⟨hHeaders, hOthers⟩
  rw [← hLines, hRead] at hHeaders hOthers
  obtain rfl : header = front := hHeaders
  obtain rfl : body = back := hOthers
  obtain rfl : final = 5 :=
    Int.le_antisymm (Int.le_trans hBound (by decide)) hReached
  exact ⟨hFailure, hRead, hBytes⟩

end Disassembly

end Beeb
