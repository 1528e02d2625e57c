import Beeb.Listing.Reader
import Beeb.Proofs.Listing.Header
import Beeb.Proofs.Operand
import Beeb.Proofs.Walk.Course
import Mathlib.Data.List.TakeWhile

/-
  Reading a listing to its end: the lines of a plan one
  after the other, as long as all of it can be written.

  Main declarations:
    * `Listing.Item.lines`
    * `Listing.Item.failure?`
    * `Listing.read_append`
    * `Listing.read_of_sound`
    * `Listing.read_of_stopped`
    * `Listing.stepLines`
    * `Disassembly.exists_course`
    * `Disassembly.bodyLines`
    * `Listing.plan_eq`
    * `Disassembly.read_eq`
-/

------------------------------------------------------------
-- Reading A Plan To Its End
------------------------------------------------------------

namespace Beeb

namespace Listing

variable (labels : Labels)
variable (vars : List Variable)

namespace Item

/- The lines that a part of a plan gives: one or none. -/
def lines : Item → List Line
| .line l => [l]
| .instruction i address data =>
  (instructionLine labels vars i address data).toOption.toList
| .remark _ | .stop _ => []

/- Why a part of a plan cannot be written. -/
def failure? : Item → Option ListingError
| .line _ | .remark _ => none
| .instruction i address data =>
  match instructionLine labels vars i address data with
  | .ok _ => none
  | .error e => some (.operand e)
| .stop e => some e

/- A part of a plan gives one line at most. -/
theorem length_lines_le
    (item : Item) :
    (item.lines labels vars).length ≤ 1 := by
  cases item with
  | instruction i address data =>
    simp only [lines]
    cases instructionLine labels vars i address data <;>
      simp [Except.toOption]
  | _ => simp [lines]

end Item

/- The lines of a header are as they were planned. -/
theorem flatMap_lines_header
    (texts : List String) :
    (texts.map (Item.line ∘ Line.header)).flatMap
        (Item.lines labels vars) =
      texts.map .header := by
  rw [List.flatMap_map]
  exact List.map_eq_flatMap.symm

/- Reading on after a part that can be written. -/
theorem read_cons
    (limit : Nat)
    (item : Item)
    (rest : List Item)
    (hSound : item.failure? labels vars = none) :
    let shown := item.lines labels vars
    let chunk :=
      read labels vars (limit + 1 - shown.length) rest
    (read labels vars (limit + 1) (item :: rest)).lines =
        shown ++ chunk.lines ∧
      (read labels vars (limit + 1) (item :: rest)).failure =
        chunk.failure ∧
      (read labels vars (limit + 1) (item :: rest)).rest =
        chunk.rest := by
  cases item with
  | line l =>
    simp only [read, readOnto, Item.lines]
    rw [readOnto_eq]
    simp [read]
  | instruction i address data =>
    simp only [Item.failure?] at hSound
    simp only [read, readOnto, Item.lines]
    cases hLine :
        instructionLine labels vars i address data with
    | ok l =>
      simp only [Except.toOption]
      rw [readOnto_eq]
      simp [read]
    | error e =>
      rw [hLine] at hSound
      simp at hSound
  | remark r =>
    simp only [read, readOnto, Item.lines]
    rw [readOnto_eq]
    simp [read]
  | stop e => simp [Item.failure?] at hSound

/-
  Parts that can be written are read line by line, and what
  follows them is read on with as much of the limit as they
  leave.
-/
theorem read_append
    (limit : Nat)
    (items rest : List Item)
    (hSound :
      ∀ item ∈ items, item.failure? labels vars = none)
    (hLimit : items.length < limit) :
    ∃ left,
      0 < left ∧
        (read labels vars limit (items ++ rest)).lines =
          items.flatMap (Item.lines labels vars) ++
            (read labels vars left rest).lines ∧
        (read labels vars limit (items ++ rest)).failure =
          (read labels vars left rest).failure := by
  induction items generalizing limit with
  | nil => exact ⟨limit, hLimit, rfl, rfl⟩
  | cons item items ih =>
    rcases Nat.exists_eq_add_one_of_ne_zero
        (Nat.ne_zero_of_lt hLimit) with
      ⟨limit, rfl⟩
    have hShown := item.length_lines_le labels vars
    simp only [List.length_cons] at hLimit
    rcases read_cons labels vars limit item (items ++ rest)
        (hSound item (by simp)) with
      ⟨hLines, hFailure, -⟩
    rcases ih (limit + 1 - (item.lines labels vars).length)
        (fun other hMem => hSound other (by simp [hMem]))
        (by omega) with
      ⟨left, hLeft, hRestLines, hRestFailure⟩
    refine ⟨left, hLeft, ?_, hFailure.trans hRestFailure⟩
    rw [List.cons_append, hLines, hRestLines,
      List.flatMap_cons, List.append_assoc]

/-
  A plan that can be written as a whole is read without a
  failure, line by line.
-/
theorem read_of_sound
    (limit : Nat)
    (items : List Item)
    (hSound :
      ∀ item ∈ items, item.failure? labels vars = none)
    (hLimit : items.length < limit) :
    (read labels vars limit items).lines =
        items.flatMap (Item.lines labels vars) ∧
      (read labels vars limit items).failure = none := by
  rcases read_append labels vars limit items [] hSound hLimit
    with ⟨left, -, hLines, hFailure⟩
  rw [List.append_nil] at hLines hFailure
  rw [hLines, hFailure]
  cases left <;> simp [read, readOnto]

/-
  A plan is read up to the first part that cannot be
  written, and stops there for the reason that this part
  has.
-/
theorem read_of_stopped
    (limit : Nat)
    (items : List Item)
    (item : Item)
    (rest : List Item)
    (e : ListingError)
    (hSound :
      ∀ item ∈ items, item.failure? labels vars = none)
    (hStops : item.failure? labels vars = some e)
    (hLimit : items.length < limit) :
    (read labels vars limit (items ++ item :: rest)).lines =
        items.flatMap (Item.lines labels vars) ∧
      (read labels vars limit
          (items ++ item :: rest)).failure = some e := by
  rcases read_append labels vars limit items (item :: rest)
      hSound hLimit with
    ⟨left, hLeft, hLines, hFailure⟩
  rcases Nat.exists_eq_add_one_of_ne_zero
      (Nat.ne_zero_of_lt hLeft) with
    ⟨left, rfl⟩
  have hHere :
      (read labels vars (left + 1) (item :: rest)).lines =
          [] ∧
        (read labels vars (left + 1)
            (item :: rest)).failure = some e := by
    cases item with
    | line l => cases hStops
    | remark r => cases hStops
    | stop e => exact ⟨rfl, hStops⟩
    | instruction i address data =>
      simp only [Item.failure?] at hStops
      simp only [read, readOnto]
      cases hLine :
          instructionLine labels vars i address data with
      | ok l =>
        rw [hLine] at hStops
        cases hStops
      | error e =>
        rw [hLine] at hStops
        exact ⟨rfl, hStops⟩
  rw [hLines, hFailure, hHere.1, hHere.2, List.append_nil]
  exact ⟨rfl, rfl⟩

end Listing

end Beeb

------------------------------------------------------------
-- The Lines Of A Step
------------------------------------------------------------

namespace Beeb

namespace Listing

namespace Line

/- Whether a line belongs to the header. -/
def isHeader : Line → Bool
| .header _ => true
| _ => false

/- Whether a line defines a label. -/
def isLabel : Line → Bool
| .label _ => true
| _ => false

/- Whether a line shows an instruction or data. -/
def isStep : Line → Bool
| .instruction .. | .data .. => true
| _ => false

end Line

/-
  Lines of a header and lines of a body can be told apart
  again when they stand one after the other.
-/
theorem filter_isHeader_append
    (header body : List Line)
    (hHeader : ∀ line ∈ header, line.isHeader = true)
    (hBody : ∀ line ∈ body, line.isHeader = false) :
    (header ++ body).filter Line.isHeader = header ∧
      (header ++ body).filter (!·.isHeader) = body := by
  have hFront : header.filter Line.isHeader = header :=
    List.filter_eq_self.mpr hHeader
  have hNoFront : header.filter (!·.isHeader) = [] :=
    List.filter_eq_nil_iff.mpr fun line hMem => by
      simp [hHeader line hMem]
  have hNoBack : body.filter Line.isHeader = [] :=
    List.filter_eq_nil_iff.mpr fun line hMem => by
      simp [hBody line hMem]
  have hBack : body.filter (!·.isHeader) = body :=
    List.filter_eq_self.mpr fun line hMem => by
      simp [hBody line hMem]
  rw [List.filter_append, List.filter_append, hFront,
    hNoFront, hNoBack, hBack]
  exact ⟨List.append_nil header, List.nil_append body⟩

variable (labels : Labels)
variable (vars : List Variable)
variable (adjust : Int)

/- The label line and the line of a step. -/
def stepLines
    (p : Placed) : List Line :=
  (stepItems labels adjust p).flatMap (Item.lines labels vars)

/- A labelled address has one label line, others none. -/
theorem labelItems_eq
    (address : Int)
    (hWritable : labels.Writable) :
    (labels.contains address = false ∧
        labelItems labels address = []) ∨
      ∃ label name,
        labels[address]? = some label ∧
          labels.contains address = true ∧
          label.name = .ok name ∧
          labelItems labels address =
            [.line (.label name)] := by
  unfold labelItems
  rw [Std.TreeMap.contains_eq_isSome_getElem?]
  cases hLabel : labels[address]? with
  | none => exact .inl ⟨rfl, rfl⟩
  | some label =>
    rcases hWritable address label hLabel with ⟨name, hName⟩
    refine .inr ⟨label, name, rfl, rfl, hName, ?_⟩
    simp [hName]

/-
  An instruction that a step shows as code is in the table,
  has all its bytes and begins with its opcode.
-/
theorem mem_table_of_code
    (s : Step)
    (i : Instruction)
    (hFaithful : s.Faithful)
    (hCode : s.verdict = .code i) :
    i ∈ Instruction.table ∧ s.length = i.length := by
  rcases hFaithful.opening with
    ⟨first, rest, -, hInstruction⟩
  rw [hCode] at hInstruction
  exact
    ⟨((Instruction.ofOpcode?_eq_some_iff _ i).mp
        hInstruction.symm).1,
      (hFaithful.code i hCode).1⟩

/-
  The name that the line of data shows: that of an
  instruction that assemblers do not know.
-/
def dataName
    (verdict : Verdict) : String :=
  match verdict.instruction? with
  | some i => if i.documented then "" else i.mnemonic
  | none => ""

/- The line of a step that shows data. -/
theorem ofStep_of_data
    (p : Placed)
    (hData : ∀ i, p.step.verdict ≠ .code i) :
    Item.ofStep adjust p =
      .line
        (.data p.step.data (p.address adjust)
          (dataName p.step.verdict)) := by
  unfold Item.ofStep
  cases hVerdict : p.step.verdict with
  | code i => exact absurd hVerdict (hData i)
  | _ => rfl

/- The line of a step that shows code. -/
theorem ofStep_of_code
    (p : Placed)
    (i : Instruction)
    (hCode : p.step.verdict = .code i) :
    Item.ofStep adjust p =
      .instruction i (p.address adjust) p.step.data := by
  unfold Item.ofStep
  rw [hCode]

/- The line of a step can be written. -/
theorem lines_ofStep
    (p : Placed)
    (hFaithful : p.step.Faithful)
    (hWritable : labels.Writable) :
    (Item.ofStep adjust p).failure? labels vars = none ∧
      ∃ line : Line,
        line.isStep = true ∧
          (Item.ofStep adjust p).lines labels vars =
            [line] := by
  by_cases hCode : ∃ i, p.step.verdict = .code i
  · rcases hCode with ⟨i, hCode⟩
    rcases mem_table_of_code p.step i hFaithful hCode with
      ⟨hTable, hLength⟩
    rcases Operand.exists_text i p.step.data (p.address adjust)
        labels vars hTable hLength hWritable with
      ⟨operand, hOperand⟩
    rw [ofStep_of_code adjust p i hCode]
    have hLine :
        instructionLine labels vars i (p.address adjust)
            p.step.data =
          .ok
            (.instruction i.mnemonic operand
              (p.address adjust) p.step.data) := by
      rw [instructionLine, hOperand]
      rfl
    refine
      ⟨?_,
        .instruction i.mnemonic operand (p.address adjust)
          p.step.data,
        rfl, ?_⟩
    · simp [Item.failure?, hLine]
    · simp [Item.lines, hLine, Except.toOption]
  · rw [ofStep_of_data adjust p fun i hIs => hCode ⟨i, hIs⟩]
    exact ⟨rfl, _, rfl, rfl⟩

/- The part of a plan that a step makes can be written. -/
theorem failure?_stepItems
    (p : Placed)
    (hFaithful : p.step.Faithful)
    (hWritable : labels.Writable)
    (item : Item)
    (hMem : item ∈ stepItems labels adjust p) :
    item.failure? labels vars = none := by
  rcases List.mem_append.mp hMem with hLabel | hStep
  · rcases labelItems_eq labels (p.address adjust)
        hWritable with
      ⟨-, hNone⟩ | ⟨label, name, -, -, -, hOne⟩
    · rw [hNone] at hLabel
      simp at hLabel
    · rw [hOne] at hLabel
      rw [List.mem_singleton.mp hLabel]
      rfl
  · rw [List.mem_singleton.mp hStep]
    exact (lines_ofStep labels vars adjust p hFaithful
      hWritable).1

/- The lines of a step: its label if it has one, and it. -/
theorem countP_stepLines
    (p : Placed)
    (hFaithful : p.step.Faithful)
    (hWritable : labels.Writable) :
    (stepLines labels vars adjust p).countP Line.isLabel =
        (if labels.contains (p.address adjust) then 1
          else 0) ∧
      (stepLines labels vars adjust p).countP Line.isStep =
        1 ∧
      (stepLines labels vars adjust p).countP Line.isHeader =
        0 := by
  rcases lines_ofStep labels vars adjust p hFaithful hWritable
    with ⟨-, line, hIsStep, hLines⟩
  have hShown :
      line.isLabel = false ∧ line.isHeader = false := by
    cases line <;> simp_all [Line.isStep, Line.isLabel,
      Line.isHeader]
  have hLabelLine :
      ∀ name,
        (Line.label name).isLabel = true ∧
          (Line.label name).isStep = false ∧
          (Line.label name).isHeader = false :=
    fun name => ⟨rfl, rfl, rfl⟩
  rw [stepLines, stepItems, List.flatMap_append,
    List.flatMap_singleton, hLines]
  rcases labelItems_eq labels (p.address adjust)
      hWritable with
    ⟨hNot, hNone⟩ | ⟨label, name, -, hIs, -, hOne⟩
  · simp [hNone, hNot, hIsStep, hShown]
  · simp [hOne, hIs, hIsStep, hShown, Item.lines,
      hLabelLine]

end Listing

end Beeb

------------------------------------------------------------
-- Disassemblies
------------------------------------------------------------

namespace Beeb

namespace Disassembly

/- The steps of a disassembly are a course. -/
theorem exists_course
    (d : Disassembly) :
    ∃ final,
      Walk.Course d.program d.window.stop d.hints
        d.window.offset d.steps final ∧
      (Walk.all d.program d.window d.hints).fault = none :=
  Walk.course_all d.program d.window d.hints d.fits
    (d.window.hints_ascending d.codeAddresses)
    fun hint hMem =>
      ((d.window.mem_hints d.codeAddresses hint).mp hMem).1

/- Every step of a disassembly is faithful to its bytes. -/
theorem faithful_of_mem_steps
    (d : Disassembly)
    (p : Placed)
    (hMem : p ∈ d.steps) :
    p.step.Faithful := by
  rcases d.exists_course with ⟨final, hCourse, -⟩
  exact (hCourse.regular p hMem).1.faithful

/- No two steps of a disassembly begin at one position. -/
theorem steps_ascending
    (d : Disassembly) :
    (d.steps.map Placed.position).Pairwise (· < ·) := by
  rcases d.exists_course with ⟨final, hCourse, -⟩
  exact hCourse.ascending

/- The labels of an analysis have names. -/
theorem labels_writable
    (d : Disassembly) :
    d.analysis.labels.Writable :=
  (Analysis.labels_numbered d.window.adjust d.steps).writable

/- The lines after the header. -/
def bodyLines
    (d : Disassembly) : List Listing.Line :=
  d.steps.flatMap
    (Listing.stepLines d.analysis.labels d.vars
      d.window.adjust)

/- No line of the body belongs to the header. -/
theorem isHeader_of_mem_bodyLines
    (d : Disassembly)
    (line : Listing.Line)
    (hMem : line ∈ d.bodyLines) :
    line.isHeader = false := by
  rcases List.mem_flatMap.mp hMem with ⟨p, hp, hLine⟩
  have hNone :=
    (Listing.countP_stepLines d.analysis.labels d.vars
      d.window.adjust p (d.faithful_of_mem_steps p hp)
      d.labels_writable).2.2
  simpa using List.countP_eq_zero.mp hNone line hLine

end Disassembly

end Beeb

------------------------------------------------------------
-- Whole Listings
------------------------------------------------------------

namespace Beeb

namespace Listing

/-
  The checks after the last step are passed if as many
  labels were shown as there are.
-/
theorem closing_of_count
    (labels : Labels)
    (w : Window)
    (steps : List Placed)
    (hCount :
      (steps.countP fun p =>
          labels.contains (p.address w.adjust)) =
        labels.size) :
    closing labels w steps = [] ∨
      ∃ r, closing labels w steps = [.remark r] := by
  unfold closing
  simp only
  rw [if_neg (fun hDiffer => hDiffer hCount)]
  split
  · exact .inr ⟨_, rfl⟩
  · exact .inl rfl

/- A disassembly passes them. -/
theorem closing_eq
    (d : Disassembly) :
    closing d.analysis.labels d.window d.steps = [] ∨
      ∃ r,
        closing d.analysis.labels d.window d.steps =
          [.remark r] :=
  closing_of_count d.analysis.labels d.window d.steps
    (Analysis.countP_labels_eq_size d.window.adjust d.steps
      d.steps_ascending)

/- A body whose steps are all seen ends with the checks. -/
theorem body_of_seen
    (a : Analysis)
    (w : Window)
    (steps : List Placed)
    (hSeen :
      ∀ p ∈ steps, p.address w.adjust ∈ a.reachable) :
    body a w steps =
      steps.flatMap (stepItems a.labels w.adjust) ++
        closing a.labels w steps := by
  have hContains :
      ∀ p ∈ steps,
        a.reachable.contains (p.address w.adjust) = true :=
    fun p hMem =>
      Std.TreeSet.contains_iff_mem.mpr (hSeen p hMem)
  unfold body
  simp only
  rw [List.takeWhile_eq_self_iff.mpr hContains,
    List.dropWhile_eq_nil_iff.mpr hContains]

/- Every step is known to the analysis. -/
theorem body_eq
    (d : Disassembly) :
    body d.analysis d.window d.steps =
      d.steps.flatMap
          (stepItems d.analysis.labels d.window.adjust) ++
        closing d.analysis.labels d.window d.steps :=
  body_of_seen d.analysis d.window d.steps fun p hMem =>
    (Analysis.mem_reachable_iff _ _ _).mpr ⟨p, hMem, rfl⟩

/-
  A plan whose variables are not too long begins with the
  header, if the system symbols of its analysis have names.
-/
theorem plan_of_named
    (d : Disassembly)
    (a : Analysis)
    (hNamed : a.Named)
    (hShort : ∀ v ∈ d.vars, ¬ v.Overlong) :
    plan d a =
      (headerText a d.vars d.loadAddress).map
          (.line ∘ .header) ++
        body a d.window d.steps := by
  have hHeader :=
    headerLines_of_named a d.vars d.loadAddress hNamed hShort
  unfold plan
  rw [hHeader]

/- A variable that is too long stops a plan at once. -/
theorem plan_of_overlong
    (d : Disassembly)
    (hLong : ∃ v ∈ d.vars, v.Overlong) :
    plan d d.analysis =
      [.stop (.header (.unwritable .tooLongToWrite))] := by
  have hHeader :=
    headerLines_eq_error d.window.adjust d.steps d.vars
      d.loadAddress hLong
  simp only at hHeader
  unfold plan Disassembly.analysis
  rw [hHeader]

variable (d : Disassembly)
variable (hShort : ∀ v ∈ d.vars, ¬ v.Overlong)

include hShort

/-
  The plan of a listing whose variables are not too long:
  its header, its steps, and no failure after the last.
-/
theorem plan_eq :
    plan d d.analysis =
      (headerText d.analysis d.vars d.loadAddress).map
          (.line ∘ .header) ++
        (d.steps.flatMap
            (stepItems d.analysis.labels d.window.adjust) ++
          closing d.analysis.labels d.window d.steps) := by
  rw [← body_eq]
  exact
    plan_of_named d d.analysis
      (Analysis.named_ofSteps d.window.adjust d.steps) hShort

/-
  Every part of such a plan can be written, also with other
  variables than those in its header.
-/
theorem failure?_plan
    (vars : List Variable)
    (item : Item)
    (hMem : item ∈ plan d d.analysis) :
    item.failure? d.analysis.labels vars = none := by
  rw [plan_eq d hShort] at hMem
  rcases List.mem_append.mp hMem with hHeader | hBody
  · rcases List.mem_map.mp hHeader with ⟨text, -, rfl⟩
    rfl
  rcases List.mem_append.mp hBody with hStep | hClosing
  · rcases List.mem_flatMap.mp hStep with ⟨p, hp, hItem⟩
    exact
      failure?_stepItems _ _ _ p (d.faithful_of_mem_steps p hp)
        d.labels_writable item hItem
  · rcases closing_eq d with hNone | ⟨r, hRemark⟩
    · simp [hNone] at hClosing
    · rw [hRemark, List.mem_singleton] at hClosing
      rw [hClosing]
      rfl

/- The lines of such a plan. -/
theorem flatMap_lines_plan :
    (plan d d.analysis).flatMap
        (Item.lines d.analysis.labels d.vars) =
      (headerText d.analysis d.vars d.loadAddress).map
          .header ++
        d.bodyLines := by
  have hClosing :
      (closing d.analysis.labels d.window d.steps).flatMap
          (Item.lines d.analysis.labels d.vars) = [] := by
    rcases closing_eq d with hNone | ⟨r, hRemark⟩
    · simp [hNone]
    · simp [hRemark, Item.lines]
  rw [plan_eq d hShort, List.flatMap_append,
    List.flatMap_append, flatMap_lines_header, hClosing,
    List.append_nil, List.flatMap_assoc]
  rfl

end Listing

namespace Disassembly

open Listing

/-
  A listing whose variables are not too long is read without
  a failure: its header, then the lines of its steps.
-/
theorem read_eq
    (d : Disassembly)
    (hShort : ∀ v ∈ d.vars, ¬ v.Overlong) :
    d.read.lines =
        (headerText d.analysis d.vars d.loadAddress).map
            .header ++
          d.bodyLines ∧
      d.read.failure = none := by
  rcases read_of_sound d.analysis.labels d.vars
      ((plan d d.analysis).length + 1) (plan d d.analysis)
      (failure?_plan d hShort d.vars) (by omega) with
    ⟨hLines, hFailure⟩
  rw [flatMap_lines_plan d hShort] at hLines
  exact ⟨hLines, hFailure⟩

end Disassembly

end Beeb
