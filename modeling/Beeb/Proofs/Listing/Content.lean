import Beeb.Listing.Content
import Beeb.Proofs.Listing.Agreement
import Beeb.Proofs.Listing.Body
import Beeb.Proofs.Variable.Rendering

/-
  What a listing says, in terms of the analysis and the
  steps that it was made from.

  The header defines the system symbols in use and the
  variables, and sets the origin.  The body defines the
  labels.

  Main declarations:
    * `Listing.filterMap_definition?`
    * `Listing.filterMap_readDefinition?`
    * `Listing.filterMap_readOrigin?`
    * `Disassembly.place_read`
    * `Disassembly.origin_read`
    * `Disassembly.labelNames_read`
    * `Disassembly.instruction_mem_read_iff`
    * `Disassembly.symbols_read`
-/

------------------------------------------------------------
-- Definitions In The Header
------------------------------------------------------------

namespace Beeb

namespace Listing

open Assembler

/- The title and the headings define nothing. -/
theorem definition?_rubrics :
    ∀ text ∈ rubrics, definition? text = none := by
  decide +kernel

/- The definition of a system symbol is understood. -/
theorem definition?_symbol
    (width : Nat)
    (entry : Int × String)
    (hEntry : entry ∈ Mos.calls ++ Mos.vectors) :
    definition?
        (Symbol.definition width ⟨entry.2, entry.1⟩) =
      some (entry.2, entry.1) := by
  have hText :
      (Symbol.definition width ⟨entry.2, entry.1⟩).toList =
        (String.ofList
            (entry.2.toList.rightpad width ' ' ++
              [' '])).toList ++
          '=' :: (" " ++ Operand.number 0 entry.1).toList := by
    simp [Symbol.definition]
  have hValue :
      Numeral.parse (" " ++ Operand.number 0 entry.1) =
        .ok entry.1 := by
    rw [Numeral.parse_of_pads _ (Operand.number 0 entry.1)
      ⟨[' '], [], rfl, rfl, by simp⟩]
    exact Numeral.parse_number 0 entry.1
  have hParse :=
    Variable.parse_of_parts _ _ _ entry.2 entry.1 hText
      (isName_of_mem_system entry hEntry).1
      (Text.Pads.of_rightpad width entry.2) hValue
  rw [definition?, hParse]

/- So is the definition of a variable. -/
theorem definition?_variable
    (v : Variable)
    (hName : Variable.isName v.name = true)
    (hShort : ¬ v.Overlong) :
    definition? v.definition = some (v.name, v.value) := by
  rw [definition?, v.parse_definition hName hShort]

/- The lines that set an origin define no symbol. -/
theorem filterMap_definition?_originLines
    (origin : Int) :
    (originLines origin).filterMap definition? = [] := by
  have hOrigin :
      definition? ("CODE% = " ++ Operand.number 0 origin) =
        none := by
    have hSplit :=
      Variable.splitDefinition?_eq
        ("CODE% = " ++ Operand.number 0 origin) "CODE% "
        (" " ++ Operand.number 0 origin)
        (by simp) (by decide)
    have hTrim : Text.trim "CODE% " = "CODE%" := rfl
    have hNoName : Variable.isName "CODE%" = false := rfl
    rw [definition?, Variable.parse, hSplit]
    simp [hTrim, hNoName]
  have hOthers :
      definition? "" = none ∧
        definition? "ORG CODE%" = none :=
    ⟨rfl, rfl⟩
  unfold originLines
  split
  · rfl
  · simp [hOrigin, hOthers]

/- A text that begins like no name is no symbol. -/
theorem readSymbol?_of_not_beginsName
    (c : Char)
    (cs : List Char)
    (hNoName : Variable.beginsName c = false) :
    readSymbol? (c :: cs) = none := by
  have hName :
      Variable.isName
          (String.ofList
            ((c :: cs).takeWhile (· ≠ '+'))) =
        false := by
    by_cases hPlus : c = '+'
    · subst hPlus
      rfl
    · simp [hPlus, Variable.isName, hNoName]
  rw [readSymbol?, hName]
  rfl

/- Decimal definitions are told from hexadecimal ones. -/
theorem readDefinition?_variable
    (v : Variable)
    (hName : Variable.isName v.name = true) :
    readDefinition? v.definition = none := by
  rcases Variable.exists_head_decimal v.value with
    ⟨c, cs, hDecimal, hNoName, hNoMark⟩
  have hNoP : c ≠ 'P' := by
    rintro rfl
    cases hNoName
  have hValue : readValue? (c :: cs) = none := by
    rw [readValue?]
    · exact readSymbol?_of_not_beginsName c cs hNoName
    · exact fun _ hIs => hNoMark (List.cons.inj hIs).1
    · exact fun _ hIs => hNoP (List.cons.inj hIs).1
    · exact fun _ hIs => hNoP (List.cons.inj hIs).1
  have hText :
      v.definition.toList =
        (v.name.toList ++ [' ']) ++
          '=' :: ' ' :: c :: cs := by
    simp [Variable.definition, hDecimal]
  have hNone : '=' ∉ v.name.toList ++ [' '] := by
    rw [List.mem_append]
    rintro (hInName | hInBlank)
    · exact
        Variable.notMem_of_isName v.name hName '=' rfl hInName
    · exact absurd hInBlank (by decide)
  rcases Text.cut_of_notMem '=' _ (' ' :: c :: cs) hNone with
    ⟨-, hAfter⟩
  rw [readDefinition?, hText]
  simp only [hAfter]
  simp [hValue]

variable (adjust : Int)
variable (steps : List Placed)
variable (vars : List Variable)
variable (hNames : ∀ v ∈ vars, Variable.isName v.name = true)

include hNames

/-
  The header defines the system symbols in use, and the
  variables after them.
-/
theorem filterMap_definition?
    (hShort : ∀ v ∈ vars, ¬ v.Overlong)
    (origin : Int) :
    let a := Analysis.ofSteps adjust steps
    (headerText a vars origin).filterMap definition? =
      headerSymbols a ++
        vars.map fun v => (v.name, v.value) := by
  intro a
  have hVars :
      (vars.map Variable.definition).filterMap definition? =
        vars.map fun v => (v.name, v.value) := by
    rw [List.filterMap_map, ← List.filterMap_eq_map]
    apply List.filterMap_congr
    intro v hv
    exact definition?_variable v (hNames v hv) (hShort v hv)
  rw [filterMap_headerText_of_reads definition? some
      definition?_rubrics definition?_symbol a vars origin
      (Analysis.named_ofSteps adjust steps),
    hVars, filterMap_definition?_originLines,
    List.append_nil, List.filterMap_some]

/-
  The system symbols are told from the variables by their
  hexadecimal values.
-/
theorem filterMap_readDefinition?
    (origin : Int) :
    let a := Analysis.ofSteps adjust steps
    (headerText a vars origin).filterMap readDefinition? =
      headerSymbols a := by
  intro a
  have hVars :
      (vars.map Variable.definition).filterMap
          readDefinition? = [] := by
    rw [List.filterMap_eq_nil_iff]
    intro text hMem
    rcases List.mem_map.mp hMem with ⟨v, hv, rfl⟩
    exact readDefinition?_variable v (hNames v hv)
  rw [filterMap_headerText_of_reads readDefinition? some
      readDefinition?_rubrics readDefinition?_symbol a vars
      origin (Analysis.named_ofSteps adjust steps),
    hVars, filterMap_originLines, List.append_nil,
    List.append_nil, List.filterMap_some]

end Listing

end Beeb

------------------------------------------------------------
-- The Origin
------------------------------------------------------------

namespace Beeb

namespace Listing

open Assembler

/- The title and the headings set no origin. -/
theorem readOrigin?_rubrics :
    ∀ text ∈ rubrics, readOrigin? text = none := by
  decide +kernel

/- Nor does the definition of a system symbol. -/
theorem readOrigin?_symbol
    (width : Nat)
    (entry : Int × String)
    (hEntry : entry ∈ Mos.calls ++ Mos.vectors) :
    readOrigin? (Symbol.definition width ⟨entry.2, entry.1⟩) =
      none := by
  have hName := (isName_of_mem_system entry hEntry).1
  have hBefore :
      (Symbol.definition width
          ⟨entry.2, entry.1⟩).toList.takeWhile (· ≠ '=') =
        entry.2.toList.rightpad width ' ' ++ [' '] :=
    (cut_definition width ⟨entry.2, entry.1⟩ hName).1
  unfold readOrigin?
  simp only
  split
  · rename_i hPrefix
    rcases List.isPrefixOf_iff_prefix.mp hPrefix with
      ⟨digits, hDigits⟩
    have hMark :
        originMark ++ digits =
          ['C', 'O', 'D', 'E', '%', ' '] ++
            '=' :: ' ' :: '&' :: digits :=
      rfl
    rw [← hDigits, hMark,
      (Text.cut_of_notMem '=' _ _ (by decide)).1] at hBefore
    -- The mark has a percent sign before its equals sign.
    have hPercent :
        '%' ∈ entry.2.toList.rightpad width ' ' ++ [' '] := by
      rw [← hBefore]
      simp
    rw [List.rightpad, List.append_assoc, List.mem_append]
      at hPercent
    rcases hPercent with hInName | hInBlanks
    · exact
        absurd hInName
          (Variable.notMem_of_isName entry.2 hName '%' rfl)
    · simp at hInBlanks
  · rfl

/-
  Nor does the definition of a variable, whatever its name
  is: after its last equals sign stands no hexadecimal
  number.
-/
theorem readOrigin?_variable
    (v : Variable) :
    readOrigin? v.definition = none := by
  rcases Variable.exists_head_decimal v.value with
    ⟨c, cs, hDecimal, -, hNoMark⟩
  have hText :
      v.definition.toList =
        (v.name.toList ++ [' ']) ++
          '=' :: ' ' :: c :: cs := by
    simp [Variable.definition, hDecimal]
  unfold readOrigin?
  simp only
  split
  · rename_i hPrefix
    rcases List.isPrefixOf_iff_prefix.mp hPrefix with
      ⟨digits, hDigits⟩
    have hRest :
        v.definition.toList.drop originMark.length =
          digits := by
      rw [← hDigits, List.drop_left]
    rw [hRest, Option.map_eq_none_iff, readDigits?]
    refine if_neg ?_
    rintro ⟨-, hAll⟩
    have hNoEquals : '=' ∉ ' ' :: '&' :: digits := by
      intro hMem
      simp only [List.mem_cons] at hMem
      rcases hMem with hSpace | hMark | hInDigits
      · exact absurd hSpace (by decide)
      · exact absurd hMark (by decide)
      · exact
          absurd (List.all_eq_true.mp hAll '=' hInDigits)
            (by decide)
    have hParts :
        "CODE% ".toList ++ '=' :: ' ' :: '&' :: digits =
          (v.name.toList ++ [' ']) ++
            '=' :: ' ' :: c :: cs := by
      rw [← hText, ← hDigits]
      rfl
    rcases (List.append_cons_inj_of_notMem (by decide)
        hNoEquals).mp hParts with
      ⟨-, -, hValue⟩
    exact hNoMark (by cases hValue; rfl)
  · rfl

/- The lines that set an origin are read back. -/
theorem filterMap_readOrigin?_originLines
    (origin : Int)
    (hPositive : 0 ≤ origin) :
    (originLines origin).filterMap readOrigin? =
      if origin = 0 then [] else [origin] := by
  have hOrigin :
      readOrigin? ("CODE% = " ++ Operand.number 0 origin) =
        some origin := by
    have hText :
        ("CODE% = " ++ Operand.number 0 origin).toList =
          originMark ++
            (Text.hexDigits 0 origin.toNat).map
              Char.toUpper := by
      rw [String.toList_append,
        Operand.toList_number 0 origin hPositive]
      rfl
    rw [readOrigin?, hText]
    simp only [List.isPrefixOf_iff_prefix,
      List.prefix_append, if_true, List.drop_left,
      (readDigits?_hexDigits 0 origin.toNat).1,
      Option.map_some, Int.ofNat_eq_natCast,
      Int.toNat_of_nonneg hPositive]
  have hOthers :
      readOrigin? "" = none ∧
        readOrigin? "ORG CODE%" = none :=
    ⟨rfl, rfl⟩
  unfold originLines
  split
  · rfl
  · simp [hOrigin, hOthers]

/- A header sets its origin unless that is zero. -/
theorem filterMap_readOrigin?
    (adjust : Int)
    (steps : List Placed)
    (vars : List Variable)
    (origin : Int)
    (hPositive : 0 ≤ origin) :
    let a := Analysis.ofSteps adjust steps
    (headerText a vars origin).filterMap readOrigin? =
      if origin = 0 then [] else [origin] := by
  intro a
  have hVars :
      (vars.map Variable.definition).filterMap readOrigin? =
        [] := by
    rw [List.filterMap_eq_nil_iff]
    intro text hMem
    rcases List.mem_map.mp hMem with ⟨v, -, rfl⟩
    exact readOrigin?_variable v
  rw [filterMap_headerText_of_reads readOrigin? (fun _ => none)
      readOrigin?_rubrics readOrigin?_symbol a vars origin
      (Analysis.named_ofSteps adjust steps),
    hVars,
    filterMap_readOrigin?_originLines origin hPositive]
  simp

end Listing

end Beeb

------------------------------------------------------------
-- Blocks Of The Header
------------------------------------------------------------

namespace Beeb

namespace Listing

/- Every definition of a variable has an equals sign. -/
theorem equals_mem_variables
    (vars : List Variable) :
    ∀ text ∈ vars.map Variable.definition,
      '=' ∈ text.toList := by
  intro text hMem
  rcases List.mem_map.mp hMem with ⟨v, -, rfl⟩
  simp [Variable.definition]

/- So has every definition of a symbol. -/
theorem equals_mem_symbols
    (width : Nat)
    (symbols : List Symbol) :
    ∀ text ∈ symbols.map (Symbol.definition width),
      '=' ∈ text.toList := by
  intro text hMem
  rcases List.mem_map.mp hMem with ⟨symbol, -, rfl⟩
  simp [Symbol.definition]

/- A heading is not in the block under another. -/
theorem heading_notMem_block
    (heading other : String)
    (entries : List String)
    (hEntries : ∀ text ∈ entries, '=' ∈ text.toList)
    (hPlain : '=' ∉ ("\\ " ++ heading).toList)
    (hDiffer : "\\ " ++ heading ≠ "\\ " ++ other) :
    "\\ " ++ heading ∉ block other entries := by
  intro hMem
  cases entries with
  | nil => cases hMem
  | cons entry entries =>
    rw [block] at hMem
    · rcases List.mem_append.mp hMem with hInside | hEnd
      · rcases List.mem_cons.mp hInside with hIs | hEntry
        · exact hDiffer hIs
        · exact hPlain (hEntries _ hEntry)
      · simp at hEnd
    · intro hNil
      cases hNil

/- A heading does not set the origin. -/
theorem heading_notMem_originLines
    (heading : String)
    (origin : Int)
    (hPlain : '=' ∉ ("\\ " ++ heading).toList) :
    "\\ " ++ heading ∉ originLines origin := by
  intro hMem
  unfold originLines at hMem
  split at hMem
  · cases hMem
  · have hOrg : "\\ " ++ heading ≠ "ORG CODE%" := by
      intro hSame
      have hFirst :=
        congrArg (fun text => text.toList.head?) hSame
      simp at hFirst
    have hCode :
        "\\ " ++ heading ≠
          "CODE% = " ++ Operand.number 0 origin := by
      intro hSame
      rw [hSame] at hPlain
      simp at hPlain
    simp [hCode, hOrg] at hMem

/-
  The block under a heading that stands nowhere else in the
  header.
-/
theorem blockUnder_eq
    (heading : String)
    (lines : List Line)
    (before entries after : List String)
    (hTexts :
      lines.filterMap Line.headerText? =
        before ++ block heading entries ++ after)
    (hBefore : "\\ " ++ heading ∉ before)
    (hAfter : "\\ " ++ heading ∉ after)
    (hEntries : ∀ text ∈ entries, '=' ∈ text.toList) :
    blockUnder heading lines = entries := by
  have hOther :
      ∀ texts : List String,
        "\\ " ++ heading ∉ texts →
          ∀ text ∈ texts,
            decide (text ≠ "\\ " ++ heading) = true := by
    intro texts hNot text hMem
    rw [decide_eq_true_eq]
    rintro rfl
    exact hNot hMem
  have hSome :
      ∀ text ∈ entries, decide (text ≠ "") = true := by
    intro text hMem
    rw [decide_eq_true_eq]
    rintro rfl
    cases hEntries "" hMem
  rw [blockUnder, hTexts, List.append_assoc,
    List.dropWhile_append_of_pos (hOther before hBefore)]
  cases entries with
  | nil =>
    rw [block, List.nil_append,
      List.dropWhile_eq_nil_iff.mpr (hOther after hAfter)]
    rfl
  | cons entry entries =>
    rw [block, List.append_assoc, List.cons_append,
      List.dropWhile_cons_of_neg (by simp), List.drop_one,
      List.tail_cons,
      List.takeWhile_append_of_pos hSome]
    · simp
    · intro hNil
      cases hNil

/-
  What stands under the headings of a header: the definitions
  of its calls, of its vectors and of its variables.
-/
theorem blocks_of_headerTexts
    (a : Analysis)
    (vars : List Variable)
    (origin : Int)
    (lines : List Line)
    (hTexts :
      lines.filterMap Line.headerText? =
        headerText a vars origin) :
    blockUnder "OS Call Addresses" lines =
        (a.calls.toList.map (.ofAddress Mos.calls)).map
          (Symbol.definition 6) ∧
      blockUnder "OS Vector Addresses" lines =
        (a.vectors.toList.map (.ofAddress Mos.vectors)).map
          (Symbol.definition 5) ∧
      variableBlock lines = vars.map Variable.definition := by
  have hCalls :=
    equals_mem_symbols 6
      (a.calls.toList.map (.ofAddress Mos.calls))
  have hVectors :=
    equals_mem_symbols 5
      (a.vectors.toList.map (.ofAddress Mos.vectors))
  have hVars := equals_mem_variables vars
  rw [headerText] at hTexts
  generalize
    (a.calls.toList.map (.ofAddress Mos.calls)).map
        (Symbol.definition 6) = calls at *
  generalize
    (a.vectors.toList.map (.ofAddress Mos.vectors)).map
        (Symbol.definition 5) = vectors at *
  generalize vars.map Variable.definition = definitions at *
  refine ⟨?_, ?_, ?_⟩
  · refine
      blockUnder_eq _ lines title calls
        (block "OS Vector Addresses" vectors ++
          block "Variables" definitions ++ originLines origin)
        (by simpa only [List.append_assoc] using hTexts)
        (by decide) ?_ hCalls
    simp only [List.mem_append, not_or]
    exact
      ⟨⟨heading_notMem_block _ _ _ hVectors (by decide)
            (by decide),
          heading_notMem_block _ _ _ hVars (by decide)
            (by decide)⟩,
        heading_notMem_originLines _ origin (by decide)⟩
  · refine
      blockUnder_eq _ lines
        (title ++ block "OS Call Addresses" calls) vectors
        (block "Variables" definitions ++ originLines origin)
        (by simpa only [List.append_assoc] using hTexts)
        ?_ ?_ hVectors
    · simp only [List.mem_append, not_or]
      exact
        ⟨by decide,
          heading_notMem_block _ _ _ hCalls (by decide)
            (by decide)⟩
    · simp only [List.mem_append, not_or]
      exact
        ⟨heading_notMem_block _ _ _ hVars (by decide)
            (by decide),
          heading_notMem_originLines _ origin (by decide)⟩
  · refine
      blockUnder_eq "Variables" lines
        (title ++ block "OS Call Addresses" calls ++
          block "OS Vector Addresses" vectors)
        definitions (originLines origin) hTexts ?_
        (heading_notMem_originLines _ origin (by decide))
        hVars
    simp only [List.mem_append, not_or]
    exact
      ⟨⟨by decide,
          heading_notMem_block _ _ _ hCalls (by decide)
            (by decide)⟩,
        heading_notMem_block _ _ _ hVectors (by decide)
          (by decide)⟩

end Listing

end Beeb

------------------------------------------------------------
-- Whole Listings
------------------------------------------------------------

namespace Beeb

namespace Listing

/- The symbols of a header, and those of the lines after. -/
theorem symbols_append
    (texts : List String)
    (lines : List Line) :
    symbols (texts.map Line.header ++ lines) =
      texts.filterMap definition? ++ symbols lines := by
  induction texts with
  | nil => rfl
  | cons text texts ih =>
    rw [List.map_cons, List.cons_append, symbols, ih,
      ← List.append_assoc]
    congr 1
    cases hText : definition? text with
    | none => rw [List.filterMap_cons_none hText]; rfl
    | some symbol => rw [List.filterMap_cons_some hText]; rfl

/- A line that is not in the header is in what follows. -/
theorem exists_split
    (texts : List String)
    (lines before after : List Line)
    (line : Line)
    (hSplit :
      texts.map Line.header ++ lines =
        before ++ line :: after)
    (hNoHeader : line.headerText? = none) :
    ∃ ahead,
      before = texts.map Line.header ++ ahead ∧
        lines = ahead ++ line :: after := by
  induction texts generalizing before with
  | nil => exact ⟨before, rfl, hSplit⟩
  | cons text texts ih =>
    rw [List.map_cons, List.cons_append,
      List.cons_eq_append_iff] at hSplit
    rcases hSplit with ⟨-, hLine⟩ | ⟨before, rfl, hSplit⟩
    · rw [(List.cons.inj hLine).1] at hNoHeader
      cases hNoHeader
    · rcases ih before hSplit with ⟨ahead, rfl, hRest⟩
      exact ⟨ahead, rfl, hRest⟩

/- The texts of a header are those of its lines. -/
theorem filterMap_headerText?_map
    (texts : List String) :
    (texts.map Line.header).filterMap Line.headerText? =
      texts := by
  rw [List.filterMap_map]
  exact List.filterMap_some

/- The lines of a header take no room. -/
theorem runningAddress_header_append
    (start : Int)
    (texts : List String)
    (lines : List Line) :
    runningAddress start
        (texts.map Line.header ++ lines) =
      runningAddress start lines := by
  induction texts generalizing start with
  | nil => rfl
  | cons text texts ih =>
    rw [List.map_cons, List.cons_append, runningAddress, ih,
      Line.size, Int.add_zero]

/- Where lines begin is added to what they take. -/
theorem runningAddress_add
    (start distance : Int)
    (lines : List Line) :
    runningAddress (start + distance) lines =
      runningAddress start lines + distance := by
  induction lines generalizing start with
  | nil => rfl
  | cons line lines ih =>
    rw [runningAddress, runningAddress, ← ih,
      Int.add_right_comm]

end Listing

namespace Disassembly

open Assembler Listing

variable (d : Disassembly)

/- A listing that has a line has no variable too long. -/
theorem short_of_line
    (before after : List Line)
    (line : Line)
    (hSplit : d.read.lines = before ++ line :: after)
    (v : Variable)
    (hMem : v ∈ d.vars) :
    ¬ v.Overlong := by
  intro hOverlong
  rw [(d.read_of_overlong ⟨v, hMem, hOverlong⟩).2] at hSplit
  simp at hSplit

/-
  Where a line of the body stands: the sizes of all lines
  before it lead to the step that it presents.
-/
theorem place_read
    (before after : List Line)
    (line : Line)
    (hSplit : d.read.lines = before ++ line :: after)
    (hNoHeader : line.headerText? = none) :
    ∃ p ∈ d.steps,
      p.position = runningAddress d.window.offset before ∧
        Presents d.analysis.labels d.vars d.window.adjust p
          (line :: after) := by
  have hShort := d.short_of_line before after line hSplit
  rcases d.exists_course with ⟨final, hCourse, -⟩
  rw [(d.read_eq hShort).1] at hSplit
  rcases exists_split _ _ before after line hSplit hNoHeader
    with ⟨ahead, rfl, hBody⟩
  rw [runningAddress_header_append]
  exact
    d.listed_bodyLines.place hCourse.contiguous ahead after
      line hBody

variable (hShort : ∀ v ∈ d.vars, ¬ v.Overlong)

include hShort

/- The lines of the header of a listing. -/
theorem headerTexts_read :
    d.read.lines.filterMap Line.headerText? =
      headerText d.analysis d.vars d.loadAddress := by
  rw [(d.read_eq hShort).1, List.filterMap_append,
    filterMap_headerText?_map,
    d.listed_bodyLines.headerTexts_eq_nil, List.append_nil]

/- A listing begins at the address the program loads at. -/
theorem origin_read :
    origin d.read.lines = d.window.adjust := by
  have hPositive :=
    ((Window.validate_eq_ok_iff _ _).mp d.fits).2.2.1
  have hOrigin :=
    filterMap_readOrigin? d.window.adjust d.steps d.vars
      d.loadAddress hPositive
  rw [origin, d.headerTexts_read hShort, analysis, hOrigin]
  unfold loadAddress
  split
  · simp [*]
  · rfl

/- The labels of the steps are defined in order. -/
theorem labelNames_read :
    labelNames d.read.lines =
      (labelSymbols d.analysis.labels d.window.adjust
        d.steps).map Prod.fst := by
  rw [← d.listed_bodyLines.labelNames_eq,
    (d.read_eq hShort).1]
  unfold labelNames
  rw [List.filterMap_append, List.filterMap_map]
  simp [Function.comp_def, Line.labelName?]

/-
  The line of a step that is code shows its operand, and no
  other line shows one for it.
-/
theorem instruction_mem_read_iff
    (p : Placed)
    (i : Instruction)
    (operand text : String)
    (hMem : p ∈ d.steps)
    (hCode : p.step.verdict = .code i)
    (hText :
      Operand.text i p.step.data (p.address d.window.adjust)
          d.analysis.labels d.vars = .ok operand) :
    .instruction i.mnemonic text
          (p.address d.window.adjust) p.step.data ∈
        d.read.lines ↔
      text = operand := by
  have hShown :=
    shows_of_code d.analysis.labels d.vars d.window.adjust p
      i operand hCode hText
  rw [(d.read_eq hShort).1, List.mem_append]
  constructor
  · rintro (hHeader | hBody)
    · rcases List.mem_map.mp hHeader with ⟨_, -, hIs⟩
      cases hIs
    · rcases d.listed_bodyLines.exists_shows _ hBody rfl with
        ⟨q, hq, hShows⟩
      have hAddress := hShows.address?_eq
      have hPositions :
          p.position = q.position := by
        have hSame := Option.some.inj hAddress
        unfold Placed.address at hSame
        omega
      have hNodup :
          (d.steps.map Placed.position).Nodup :=
        d.steps_ascending.imp Int.ne_of_lt
      have hStep :=
        List.inj_on_of_nodup_map hNodup hMem hq hPositions
      subst hStep
      exact (Line.instruction.inj (hShows.unique hShown)).2.1
  · rintro rfl
    rcases d.listed_bodyLines.exists_line p hMem with
      ⟨line, hLine, hShows⟩
    rw [hShows.unique hShown] at hLine
    exact .inr hLine

variable
  (hNames : ∀ v ∈ d.vars, Variable.isName v.name = true)

include hNames

/-
  A listing defines the system symbols in use, its variables
  and its labels, in this order.
-/
theorem symbols_read :
    symbols d.read.lines =
      headerSymbols d.analysis ++
        (d.vars.map fun v => (v.name, v.value)) ++
        labelSymbols d.analysis.labels d.window.adjust
          d.steps := by
  have hHeader :=
    filterMap_definition? d.window.adjust d.steps d.vars
      hNames hShort d.loadAddress
  rw [(d.read_eq hShort).1, symbols_append,
    d.listed_bodyLines.symbols_eq, analysis, hHeader]

/- The names of system symbols and variables. -/
theorem headerNames_read :
    headerNames d.read.lines =
      (headerSymbols d.analysis).map Prod.fst ++
        d.vars.map Variable.name := by
  have hHeader :=
    filterMap_definition? d.window.adjust d.steps d.vars
      hNames hShort d.loadAddress
  rw [headerNames, d.headerTexts_read hShort, analysis,
    hHeader, List.map_append, List.map_map]
  rfl

/- The names of system symbols alone. -/
theorem systemNames_read :
    systemNames d.read.lines =
      (headerSymbols d.analysis).map Prod.fst := by
  have hHeader :=
    filterMap_readDefinition? d.window.adjust d.steps d.vars
      hNames d.loadAddress
  rw [systemNames, d.headerTexts_read hShort, analysis,
    hHeader]

end Disassembly

end Beeb
