import Beeb.Listing.Content
import Beeb.Proofs.Assembler.Symbols
import Beeb.Proofs.Listing.Reading
import Beeb.Proofs.Walk.Partition

/-
  The lines of a body, one step after the other: each step
  has one line, with the line of its label before it if it
  has one.

  Main declarations:
    * `Listing.Shows`
    * `Listing.Shows.line_eq`
    * `Listing.Presents`
    * `Listing.Listed`
    * `Listing.Listed.symbols_eq`
    * `Listing.Listed.shows_filter`
    * `Listing.Listed.place`
    * `Disassembly.listed_bodyLines`
-/

------------------------------------------------------------
-- The Line Of A Step
------------------------------------------------------------

namespace Beeb

namespace Listing

/- A line that shows an address is no line of a header. -/
theorem Line.headerText?_of_address?
    (line : Line)
    (address : Int)
    (hAddress : line.address? = some address) :
    line.headerText? = none := by
  cases line with
  | header text | label name => cases hAddress
  | _ => rfl

variable (labels : Labels)
variable (vars : List Variable)
variable (adjust : Int)

/- A line shows a step: it is the one line of that step. -/
def Shows
    (p : Placed)
    (line : Line) : Prop :=
  (Item.ofStep adjust p).lines labels vars = [line]

namespace Shows

variable {labels : Labels}
variable {vars : List Variable}
variable {adjust : Int}
variable {p : Placed}
variable {line : Line}

/-
  A line that shows a step has the address and the bytes of
  it, and the operand if the step is code.
-/
theorem line_eq
    (hShows : Shows labels vars adjust p line) :
    (∃ i operand,
      p.step.verdict = .code i ∧
        Operand.text i p.step.data (p.address adjust) labels
            vars = .ok operand ∧
        line =
          .instruction i.mnemonic operand (p.address adjust)
            p.step.data) ∨
      (∀ i, p.step.verdict ≠ .code i) ∧
        line =
          .data p.step.data (p.address adjust)
            (dataName p.step.verdict) := by
  unfold Shows at hShows
  by_cases hCode : ∃ i, p.step.verdict = .code i
  · rcases hCode with ⟨i, hCode⟩
    rw [ofStep_of_code adjust p i hCode] at hShows
    simp only [Item.lines, instructionLine] at hShows
    cases hText :
        Operand.text i p.step.data (p.address adjust) labels
          vars with
    | ok operand =>
      rw [hText] at hShows
      cases hShows
      exact .inl ⟨i, operand, hCode, hText, rfl⟩
    | error e =>
      rw [hText] at hShows
      cases hShows
  · have hData : ∀ i, p.step.verdict ≠ .code i :=
      fun i hIs => hCode ⟨i, hIs⟩
    rw [ofStep_of_data adjust p hData] at hShows
    cases hShows
    exact .inr ⟨hData, rfl⟩

/- The line of a step shows where the step is. -/
theorem address?_eq
    (hShows : Shows labels vars adjust p line) :
    line.address? = some (p.address adjust) := by
  rcases hShows.line_eq with
    ⟨i, operand, -, -, rfl⟩ | ⟨-, rfl⟩
  · rfl
  · rfl

/- The line of a step is as long as the step. -/
theorem size_eq
    (hShows : Shows labels vars adjust p line) :
    line.size = p.step.length := by
  rcases hShows.line_eq with
    ⟨i, operand, -, -, rfl⟩ | ⟨-, rfl⟩
  · rfl
  · rfl

/- The line of a step defines no symbol. -/
theorem symbols_cons
    (hShows : Shows labels vars adjust p line)
    (rest : List Line) :
    line.headerText? = none ∧ line.labelName? = none ∧
      symbols (line :: rest) = symbols rest := by
  rcases hShows.line_eq with
    ⟨i, operand, -, -, rfl⟩ | ⟨-, rfl⟩
  · exact ⟨rfl, rfl, rfl⟩
  · exact ⟨rfl, rfl, rfl⟩

/- A step is shown in one way only. -/
theorem unique
    {other : Line}
    (hShows : Shows labels vars adjust p line)
    (hOther : Shows labels vars adjust p other) :
    line = other := by
  unfold Shows at hShows hOther
  rw [hShows] at hOther
  exact List.head_eq_of_cons_eq hOther

end Shows

/- A step that is code is shown with its operand. -/
theorem shows_of_code
    (p : Placed)
    (i : Instruction)
    (operand : String)
    (hCode : p.step.verdict = .code i)
    (hText :
      Operand.text i p.step.data (p.address adjust) labels
          vars = .ok operand) :
    Shows labels vars adjust p
      (.instruction i.mnemonic operand (p.address adjust)
        p.step.data) := by
  unfold Shows
  rw [ofStep_of_code adjust p i hCode]
  simp [Item.lines, instructionLine, hText, Except.map,
    Except.toOption]

end Listing

end Beeb

------------------------------------------------------------
-- The Lines Of Steps
------------------------------------------------------------

namespace Beeb

namespace Listing

open Assembler

variable (labels : Labels)
variable (vars : List Variable)
variable (adjust : Int)

/- The line that defines the label of a step, if any. -/
def labelLines
    (p : Placed) : List Line :=
  (labelSymbol? labels adjust p).toList.map fun symbol =>
    .label symbol.1

/- The lines of a step: that of its label, and its own. -/
theorem stepLines_eq
    (p : Placed)
    (line : Line)
    (hShows : Shows labels vars adjust p line) :
    stepLines labels vars adjust p =
      labelLines labels adjust p ++ [line] := by
  unfold Shows at hShows
  rw [stepLines, stepItems, List.flatMap_append,
    List.flatMap_singleton, hShows]
  congr 1
  unfold labelItems labelLines labelSymbol?
  cases labels[p.address adjust]? with
  | none => rfl
  | some label =>
    cases hName : label.name with
    | ok name => simp [hName, Item.lines]
    | error e => simp [hName, Item.lines]

/-
  What the first of some lines says of a step: it shows it,
  or it defines the label of it and the next line shows it.
-/
inductive Presents
    (p : Placed) : List Line → Prop where
| shown
    {line : Line}
    {after : List Line}
    (hShows : Shows labels vars adjust p line) :
    Presents p (line :: after)
| label
    {symbol : String × Int}
    {next : Line}
    {after : List Line}
    (hSymbol : labelSymbol? labels adjust p = some symbol)
    (hNext : Shows labels vars adjust p next) :
    Presents p (.label symbol.1 :: next :: after)

/- Lines that show steps, each behind its label. -/
inductive Listed : List Placed → List Line → Prop where
| ended :
    Listed [] []
| step
    {p : Placed}
    {line : Line}
    {steps : List Placed}
    {lines : List Line}
    (hShows : Shows labels vars adjust p line)
    (hRest : Listed steps lines) :
    Listed (p :: steps)
      (labelLines labels adjust p ++ line :: lines)

/- Steps that can be written are listed. -/
theorem listed_flatMap
    (steps : List Placed)
    (hFaithful : ∀ p ∈ steps, p.step.Faithful)
    (hWritable : labels.Writable) :
    Listed labels vars adjust steps
      (steps.flatMap (stepLines labels vars adjust)) := by
  induction steps with
  | nil => exact .ended
  | cons p steps ih =>
    rcases lines_ofStep labels vars adjust p
        (hFaithful p (by simp)) hWritable with
      ⟨-, line, -, hShows⟩
    have hRest := ih fun q hq => hFaithful q (by simp [hq])
    rw [List.flatMap_cons,
      stepLines_eq labels vars adjust p line hShows,
      List.append_assoc, List.singleton_append]
    exact .step hShows hRest

namespace Listed

variable {labels : Labels}
variable {vars : List Variable}
variable {adjust : Int}
variable {steps : List Placed}
variable {lines : List Line}

/- Lines that show steps are no lines of a header. -/
theorem headerTexts_eq_nil
    (hListed : Listed labels vars adjust steps lines) :
    lines.filterMap Line.headerText? = [] := by
  induction hListed with
  | ended => rfl
  | @step p line steps lines hShows hRest ih =>
    have hLabels :
        (labelLines labels adjust p).filterMap
          Line.headerText? = [] := by
      rw [labelLines, List.filterMap_map,
        List.filterMap_eq_nil_iff]
      exact fun symbol _ => rfl
    rw [List.filterMap_append, hLabels, List.nil_append,
      List.filterMap_cons_none (hShows.symbols_cons []).1,
      ih]

/- The labels of the steps are defined in order. -/
theorem labelNames_eq
    (hListed : Listed labels vars adjust steps lines) :
    labelNames lines =
      (labelSymbols labels adjust steps).map Prod.fst := by
  unfold labelNames
  induction hListed with
  | ended => rfl
  | @step p line steps lines hShows hRest ih =>
    have hLabels :
        (labelLines labels adjust p).filterMap
            Line.labelName? =
          (labelSymbol? labels adjust p).toList.map
            Prod.fst := by
      rw [labelLines, List.filterMap_map,
        ← List.filterMap_eq_map]
      rfl
    rw [List.filterMap_append, hLabels,
      List.filterMap_cons_none
        (hShows.symbols_cons []).2.1,
      ih, labelSymbols_cons, List.map_append]

/-
  A label line stands before the line of its step, so it
  defines the address of that step.
-/
theorem symbols_eq
    (hListed : Listed labels vars adjust steps lines) :
    symbols lines = labelSymbols labels adjust steps := by
  induction hListed with
  | ended => rfl
  | @step p line steps lines hShows hRest ih =>
    have hLine := (hShows.symbols_cons lines).2.2
    rw [labelSymbols_cons, ← ih, labelLines]
    cases hSymbol : labelSymbol? labels adjust p with
    | none => simpa using hLine
    | some symbol =>
      have hValue :=
        labelSymbol?_value labels adjust p symbol hSymbol
      have hHere :
          symbols (.label symbol.1 :: line :: lines) =
            symbol :: symbols lines := by
        rw [symbols, hLine, List.head?_cons,
          Option.bind_some, hShows.address?_eq, ← hValue]
        rfl
      simpa using hHere

/- A line that is no label line shows one of the steps. -/
theorem exists_shows
    (hListed : Listed labels vars adjust steps lines)
    (line : Line)
    (hMem : line ∈ lines)
    (hNoLabel : line.labelName? = none) :
    ∃ p ∈ steps, Shows labels vars adjust p line := by
  induction hListed with
  | ended => simp at hMem
  | @step p shown steps lines hShows hRest ih =>
    rcases List.mem_append.mp hMem with hLabel | hMem
    · rcases List.mem_map.mp hLabel with ⟨symbol, -, rfl⟩
      cases hNoLabel
    rcases List.mem_cons.mp hMem with rfl | hLater
    · exact ⟨p, by simp, hShows⟩
    · rcases ih hLater with ⟨q, hq, hOther⟩
      exact ⟨q, by simp [hq], hOther⟩

/- The lines that define no label show the steps in order. -/
theorem shows_filter
    (hListed : Listed labels vars adjust steps lines) :
    List.Forall₂ (Shows labels vars adjust) steps
      (lines.filter (!·.isLabel)) := by
  induction hListed with
  | ended => exact .nil
  | @step p line steps lines hShows hRest ih =>
    have hLabels :
        (labelLines labels adjust p).filter (!·.isLabel) =
          [] := by
      rw [labelLines, List.filter_map, List.map_eq_nil_iff,
        List.filter_eq_nil_iff]
      intro symbol _ hNot
      cases hNot
    have hNoLabel : line.isLabel = false := by
      rcases hShows.line_eq with
        ⟨i, operand, -, -, rfl⟩ | ⟨-, rfl⟩
      · rfl
      · rfl
    rw [List.filter_append, hLabels, List.nil_append,
      List.filter_cons_of_pos (by rw [hNoLabel]; rfl)]
    exact .cons hShows ih

/- Every step is shown. -/
theorem exists_line
    (hListed : Listed labels vars adjust steps lines)
    (p : Placed)
    (hMem : p ∈ steps) :
    ∃ line ∈ lines, Shows labels vars adjust p line := by
  induction hListed with
  | ended => simp at hMem
  | @step q line steps lines hShows hRest ih =>
    rcases List.mem_cons.mp hMem with rfl | hLater
    · exact ⟨line, by simp, hShows⟩
    · rcases ih hLater with ⟨other, hOther, hOtherShows⟩
      exact ⟨other, by simp [hOther], hOtherShows⟩

/-
  Where a line stands: the sizes of the lines before it lead
  to the step that it presents. The induction is on the
  steps, which leave no gaps.
-/
theorem place
    {start final : Int}
    (hListed : Listed labels vars adjust steps lines)
    (hContiguous : Walk.Contiguous start steps final)
    (before after : List Line)
    (line : Line)
    (hSplit : lines = before ++ line :: after) :
    ∃ p ∈ steps,
      p.position = runningAddress start before ∧
        Presents labels vars adjust p (line :: after) := by
  induction hListed generalizing start before with
  | ended => simp at hSplit
  | @step p shown steps lines hShows hRest ih =>
    rcases hContiguous with ⟨hStart, hContiguous⟩
    have hSize := hShows.size_eq
    -- A line behind that of the first step is one of the
    -- lines of the other steps.
    have hLater :
        ∀ ahead : List Line,
          lines = ahead ++ line :: after →
            runningAddress start before =
                runningAddress p.stop ahead →
              ∃ q ∈ p :: steps,
                q.position = runningAddress start before ∧
                  Presents labels vars adjust q
                    (line :: after) := by
      intro ahead hAhead hSame
      rcases ih hContiguous ahead hAhead with
        ⟨q, hq, hPosition, hPresents⟩
      exact
        ⟨q, by simp [hq], hPosition.trans hSame.symm,
          hPresents⟩
    cases hSymbol : labelSymbol? labels adjust p with
    | none =>
      simp only [labelLines, hSymbol, Option.toList_none,
        List.map_nil, List.nil_append,
        List.cons_eq_append_iff] at hSplit
      rcases hSplit with
        ⟨rfl, hLine⟩ | ⟨ahead, rfl, hAhead⟩
      · cases hLine
        exact ⟨p, by simp, hStart, .shown hShows⟩
      · apply hLater ahead hAhead
        rw [runningAddress, hSize, ← hStart, Placed.stop]
    | some symbol =>
      have hNoSize : (Line.label symbol.1).size = 0 := rfl
      simp only [labelLines, hSymbol, Option.toList_some,
        List.map_cons, List.map_nil, List.singleton_append,
        List.cons_eq_append_iff] at hSplit
      rcases hSplit with
        ⟨rfl, hLine⟩ |
          ⟨_, rfl, ⟨rfl, hLine⟩ | ⟨ahead, rfl, hAhead⟩⟩
      · cases hLine
        exact ⟨p, by simp, hStart, .label hSymbol hShows⟩
      · cases hLine
        refine ⟨p, by simp, ?_, .shown hShows⟩
        rw [runningAddress, hNoSize, Int.add_zero]
        exact hStart
      · apply hLater ahead hAhead
        rw [runningAddress, runningAddress, hNoSize, hSize,
          Int.add_zero, ← hStart, Placed.stop]

end Listed

end Listing

namespace Disassembly

open Listing

/- The body of a listing shows the steps of the walk. -/
theorem listed_bodyLines
    (d : Disassembly) :
    Listed d.analysis.labels d.vars d.window.adjust d.steps
      d.bodyLines :=
  listed_flatMap _ _ _ d.steps d.faithful_of_mem_steps
    d.labels_writable

end Disassembly

end Beeb
