import Beeb.Listing.Content
import Beeb.Listing.Session
import Beeb.Proofs.Listing.Reading

/-
  What a session shows: one plan, read part by part, each
  line written with the variables of its time.

  The plan is made when the first line is read, and only its
  header depends on the variables of that moment.

  Main declarations:
    * `Listing.Reads`
    * `Listing.Item.InBody`
    * `Listing.Session.Progress`
    * `Listing.Session.progress`
    * `Listing.Reads.header_or_body`
    * `Listing.Session.body_shown`
-/

------------------------------------------------------------
-- Readings Of A Plan
------------------------------------------------------------

namespace Beeb

namespace Listing

variable {labels : Labels}

/-
  What readings of a plan show and leave: each part that was
  read gave its lines, with the variables of its time.
-/
inductive Reads
    (labels : Labels) :
    List Item → List Shown → List Item → Prop where
| nothing (items : List Item) :
  Reads labels items [] items
| part
    (item : Item)
    (vars : List Variable)
    {items left : List Item}
    {shown : List Shown}
    (hRest : Reads labels items shown left) :
  Reads labels (item :: items)
    ((item.lines labels vars).map (⟨·, vars⟩) ++ shown) left

namespace Reads

/- A reading goes on where another one stopped. -/
theorem trans
    {items middle left : List Item}
    {shown more : List Shown}
    (hFirst : Reads labels items shown middle)
    (hThen : Reads labels middle more left) :
    Reads labels items (shown ++ more) left := by
  induction hFirst with
  | nothing items => exact hThen
  | part item vars hRest ih =>
    rw [List.append_assoc]
    exact .part item vars (ih hThen)

/- What is left is the end of the plan. -/
theorem suffix
    {items left : List Item}
    {shown : List Shown}
    (hReads : Reads labels items shown left) :
    left <:+ items := by
  induction hReads with
  | nothing items => exact List.suffix_rfl
  | part item vars hRest ih =>
    exact ih.trans (List.suffix_cons ..)

/- Every line that was shown is a line of some part. -/
theorem exists_item
    {items left : List Item}
    {shown : List Shown}
    (hReads : Reads labels items shown left)
    (s : Shown)
    (hMem : s ∈ shown) :
    ∃ item ∈ items, s.line ∈ item.lines labels s.vars := by
  induction hReads with
  | nothing items => cases hMem
  | part item vars hRest ih =>
    rcases List.mem_append.mp hMem with hHere | hLater
    · rcases List.mem_map.mp hHere with ⟨line, hLine, rfl⟩
      exact ⟨item, by simp, hLine⟩
    · rcases ih hLater with ⟨other, hOther, hLine⟩
      exact ⟨other, by simp [hOther], hLine⟩

/-
  A plan in two halves: the reading stopped in the first, or
  went on to the second.
-/
theorem of_append
    (before after left : List Item)
    (shown : List Shown)
    (hReads : Reads labels (before ++ after) shown left) :
    (∃ rest,
      rest ≠ [] ∧
        Reads labels before shown rest ∧
        left = rest ++ after) ∨
      ∃ first second,
        shown = first ++ second ∧
          Reads labels before first [] ∧
          Reads labels after second left := by
  induction before generalizing shown with
  | nil => exact .inr ⟨[], shown, rfl, .nothing [], hReads⟩
  | cons item before ih =>
    cases hReads with
    | nothing =>
      exact
        .inl
          ⟨item :: before, List.cons_ne_nil _ _, .nothing _, rfl⟩
    | part _ vars hRest =>
      rcases ih _ hRest with
        ⟨rest, hSome, hBefore, hLeft⟩ |
          ⟨first, second, hSplit, hBefore, hAfter⟩
      · exact
          .inl ⟨rest, hSome, .part item vars hBefore, hLeft⟩
      · refine
          .inr
            ⟨_, second, ?_, .part item vars hBefore, hAfter⟩
        rw [hSplit, List.append_assoc]

/- Nothing is shown of an empty plan. -/
theorem of_nil
    {left : List Item}
    {shown : List Shown}
    (hReads : Reads labels [] shown left) :
    shown = [] ∧ left = [] := by
  cases hReads
  exact ⟨rfl, rfl⟩

/- Lines that no variable can change are shown as they are. -/
theorem of_lines
    (lines : List Line)
    (left : List Item)
    (shown : List Shown)
    (hReads : Reads labels (lines.map .line) shown left) :
    ∃ rest,
      lines = shown.map Shown.line ++ rest ∧
        left = rest.map .line := by
  induction lines generalizing shown with
  | nil =>
    cases hReads
    exact ⟨[], rfl, rfl⟩
  | cons line lines ih =>
    cases hReads with
    | nothing => exact ⟨line :: lines, rfl, rfl⟩
    | part _ vars hRest =>
      rcases ih _ hRest with ⟨rest, hLines, hLeft⟩
      exact ⟨rest, by simp [Item.lines, hLines], hLeft⟩

end Reads

/- One reading of a plan that can be written. -/
theorem reads_of_read
    (vars : List Variable)
    (limit : Nat)
    (items : List Item)
    (hSound :
      ∀ item ∈ items, item.failure? labels vars = none) :
    let chunk := read labels vars limit items
    Reads labels items (chunk.lines.map (⟨·, vars⟩))
      chunk.rest := by
  induction items generalizing limit with
  | nil => cases limit <;> exact .nothing []
  | cons item items ih =>
    cases limit with
    | zero => exact .nothing (item :: items)
    | succ limit =>
      rcases read_cons labels vars limit item items
          (hSound item (by simp)) with
        ⟨hLines, -, hRest⟩
      simp only [hLines, hRest, List.map_append]
      exact
        .part item vars
          (ih _ fun other hMem => hSound other (by simp [hMem]))

end Listing

end Beeb

------------------------------------------------------------
-- The Body Of A Plan
------------------------------------------------------------

namespace Beeb

namespace Listing

/- A part of a plan after its header. -/
inductive Item.InBody : Item → Prop where
| label (name : String) :
  InBody (.line (.label name))
| data
    (bytes : List UInt8)
    (address : Int)
    (undocumented : String) :
  InBody (.line (.data bytes address undocumented))
| instruction
    (i : Instruction)
    (address : Int)
    (data : List UInt8)
    (hFirst :
      data.head?.bind (Instruction.ofOpcode? ·.toNat) =
        some i)
    (hLength : (data.length : Int) = i.length) :
  InBody (.instruction i address data)
| remark (r : Report) : InBody (.remark r)

/- An instruction that a first byte gives is in the table. -/
theorem mem_table_of_first
    (i : Instruction)
    (data : List UInt8)
    (hFirst :
      data.head?.bind (Instruction.ofOpcode? ·.toNat) =
        some i) :
    i ∈ Instruction.table := by
  rcases Option.bind_eq_some_iff.mp hFirst with ⟨first, -, hIs⟩
  exact ((Instruction.ofOpcode?_eq_some_iff _ i).mp hIs).1

namespace Item

variable {labels : Labels}

/- The line of an instruction, if it has one. -/
theorem exists_operand_of_mem_lines
    (i : Instruction)
    (address : Int)
    (data : List UInt8)
    (vars : List Variable)
    (line : Line)
    (hLine :
      line ∈
        (Item.instruction i address data).lines labels vars) :
    ∃ operand,
      Operand.text i data address labels vars = .ok operand ∧
        line =
          .instruction i.mnemonic operand address data := by
  simp only [lines, instructionLine] at hLine
  cases hText : Operand.text i data address labels vars with
  | error e =>
    simp [hText, Except.map, Except.toOption] at hLine
  | ok operand =>
    simp only [hText, Except.map, Except.toOption,
      Option.toList_some, List.mem_singleton] at hLine
    exact ⟨operand, rfl, hLine⟩

/- No part of a body gives a line of a header. -/
theorem InBody.isHeader_eq_false
    {item : Item}
    (hBody : item.InBody)
    (vars : List Variable)
    (line : Line)
    (hLine : line ∈ item.lines labels vars) :
    line.isHeader = false := by
  cases hBody with
  | instruction i address data hFirst hLength =>
    rcases exists_operand_of_mem_lines i address data vars line
        hLine with
      ⟨operand, -, rfl⟩
    rfl
  | label name =>
    rw [List.mem_singleton.mp hLine]
    rfl
  | data bytes address undocumented =>
    rw [List.mem_singleton.mp hLine]
    rfl
  | remark r => cases hLine

end Item

/- The label and the line of a step belong to a body. -/
theorem inBody_of_mem_stepItems
    (labels : Labels)
    (adjust : Int)
    (p : Placed)
    (item : Item)
    (hFaithful : p.step.Faithful)
    (hWritable : labels.Writable)
    (hMem : item ∈ stepItems labels adjust p) :
    item.InBody := by
  rcases List.mem_append.mp hMem with hLabel | hStep
  · rcases labelItems_eq labels (p.address adjust)
        hWritable with
      ⟨-, hNone⟩ | ⟨label, name, -, -, -, hOne⟩
    · rw [hNone] at hLabel
      cases hLabel
    · rw [hOne] at hLabel
      rw [List.mem_singleton.mp hLabel]
      exact .label name
  rw [List.mem_singleton.mp hStep]
  by_cases hCode : ∃ i, p.step.verdict = .code i
  · rcases hCode with ⟨i, hCode⟩
    rcases mem_table_of_code p.step i hFaithful hCode with
      ⟨-, hLength⟩
    rcases hFaithful.opening with
      ⟨first, rest, hData, hInstruction⟩
    rw [ofStep_of_code adjust p i hCode]
    refine .instruction i _ _ ?_ hLength
    rw [hCode] at hInstruction
    rw [hData]
    exact hInstruction.symm
  · rw [ofStep_of_data adjust p fun i hIs => hCode ⟨i, hIs⟩]
    exact .data _ _ _

/- All parts of the plan of a body belong to it. -/
theorem inBody_of_mem_body
    (d : Disassembly)
    (item : Item)
    (hMem : item ∈ body d.analysis d.window d.steps) :
    item.InBody := by
  rw [body_eq d] at hMem
  rcases List.mem_append.mp hMem with hStep | hClosing
  · rcases List.mem_flatMap.mp hStep with ⟨p, hp, hItem⟩
    exact
      inBody_of_mem_stepItems _ _ p item
        (d.faithful_of_mem_steps p hp) d.labels_writable hItem
  · rcases closing_eq d with hNone | ⟨r, hRemark⟩
    · rw [hNone] at hClosing
      cases hClosing
    · rw [hRemark] at hClosing
      rw [List.mem_singleton.mp hClosing]
      exact .remark r

end Listing

end Beeb

------------------------------------------------------------
-- Runs Of A Session
------------------------------------------------------------

namespace Beeb

namespace Listing

namespace Session

/-
  How far a session has come that began with a fresh reader.
  The variables are those in `possible`, and the first line
  is shown with the variables that the plan was made with.
-/
inductive Progress
    (d : Disassembly)
    (possible : List Variable) :
    List Shown → Reader → Prop where
| unread : Progress d possible [] .fresh
| failed
    (labels : Labels)
    (v : Variable)
    (hHeld : v ∈ possible)
    (hLong : v.Overlong) :
  Progress d possible [] (.reading labels [])
| reading
    (vars : List Variable)
    {shown : List Shown}
    {left : List Item}
    (hHeld : vars ⊆ possible)
    (hShort : ∀ v ∈ vars, ¬ v.Overlong)
    (hReads :
      Reads d.analysis.labels
        (plan { d with vars } d.analysis) shown left)
    (hFirst : ∀ s ∈ shown.head?, s.vars = vars) :
  Progress d possible shown (.reading d.analysis.labels left)

/- A reading shows the lines that the reader gives. -/
theorem transcript_read
    (s : Session)
    (count : Nat)
    (actions : List Action)
    (result : Reader.Result)
    (hNext : s.reader.next s.disassembly count = result) :
    s.transcript (.read count :: actions) =
      result.lines.map (⟨·, s.disassembly.vars⟩) ++
        { s with reader := result.reader }.transcript
          actions := by
  rw [← hNext]
  rfl

/- The session goes on with the reader after it. -/
theorem run_read
    (s : Session)
    (count : Nat)
    (actions : List Action)
    (result : Reader.Result)
    (hNext : s.reader.next s.disassembly count = result) :
    s.run (.read count :: actions) =
      { s with reader := result.reader }.run actions := by
  rw [← hNext]
  rfl

/-
  A session that reads on in a plan that can be written
  shows the lines of the plan.
-/
theorem reads_transcript
    (s : Session)
    (actions : List Action)
    (labels : Labels)
    (items : List Item)
    (hReader : s.reader = .reading labels items)
    (hSound :
      ∀ item ∈ items,
        ∀ vars, item.failure? labels vars = none) :
    ∃ left,
      Reads labels items (s.transcript actions) left ∧
        (s.run actions).reader = .reading labels left := by
  induction actions generalizing s items with
  | nil => exact ⟨items, .nothing items, hReader⟩
  | cons action actions ih =>
    -- Changes of variables show nothing and leave the plan.
    have hChange :
        ∀ result,
          ∃ left,
            Reads labels items
                ((s.change result).transcript actions) left ∧
              ((s.change result).run actions).reader =
                .reading labels left := by
      intro result
      apply ih (s.change result) items _ hSound
      cases result <;> exact hReader
    cases action with
    | add v => exact hChange (.ok (s.disassembly.add v))
    | define definition =>
      exact hChange (s.disassembly.addDefinition definition)
    | read count =>
      have hRead :=
        reads_of_read s.disassembly.vars count items
          fun item hMem => hSound item hMem _
      have hNext :
          s.reader.next s.disassembly count =
            Reader.resume labels s.disassembly.vars count
              items [] := by
        rw [hReader]
        rfl
      rw [s.transcript_read count actions _ hNext,
        s.run_read count actions _ hNext]
      rcases ih { s with reader := .reading labels _ } _ rfl
          (fun item hMem =>
            hSound item (hRead.suffix.subset hMem)) with
        ⟨left, hLater, hLast⟩
      exact ⟨left, hRead.trans hLater, hLast⟩

/-
  The progress of a session from which this one differs in
  its variables only.
-/
theorem Progress.of_vars
    {d : Disassembly}
    {possible possible' : List Variable}
    {shown : List Shown}
    {reader : Reader}
    (vars : List Variable)
    (hSubset : possible ⊆ possible')
    (hProgress :
      Progress { d with vars } possible shown reader) :
    Progress d possible' shown reader := by
  cases hProgress with
  | unread => exact .unread
  | failed labels v hHeld hLong =>
    exact .failed labels v (hSubset hHeld) hLong
  | reading vars hHeld hShort hReads hFirst =>
    exact
      .reading vars (List.Subset.trans hHeld hSubset) hShort
        hReads hFirst

/- A variable that is added now is held from now on. -/
theorem Progress.of_add
    {d : Disassembly}
    {later : List Variable}
    {shown : List Shown}
    {reader : Reader}
    (v : Variable)
    (hProgress :
      Progress (d.add v) ((d.add v).vars ++ later) shown
        reader) :
    Progress d (d.vars ++ v :: later) shown reader := by
  refine
    .of_vars (Variable.merge (d.vars ++ [v])) ?_ hProgress
  have hMerged :
      Variable.merge (d.vars ++ [v]) ⊆ d.vars ++ [v] :=
    fun w => Variable.mem_of_mem_merge _ w
  rw [List.append_cons]
  exact List.append_subset.mpr
    ⟨List.Subset.trans hMerged (List.subset_append_left _ _),
      List.subset_append_right _ _⟩

/- The first reading makes the plan. -/
theorem first_reading
    (s : Session)
    (hFresh : s.reader = .fresh)
    (count : Nat)
    (actions : List Action)
    (hSome : count ≠ 0) :
    let d := s.disassembly
    let labels := d.analysis.labels
    let chunk :=
      Listing.read labels d.vars count (plan d d.analysis)
    let after : Session := ⟨d, .reading labels chunk.rest⟩
    s.transcript (.read count :: actions) =
        chunk.lines.map (⟨·, d.vars⟩) ++
          after.transcript actions ∧
      s.run (.read count :: actions) = after.run actions := by
  intro d labels chunk after
  have hNext :
      s.reader.next d count =
        Reader.resume labels d.vars count
          (plan d d.analysis)
          (d.strayReports ++ [d.analysis.report]) := by
    rw [hFresh, Reader.next, if_neg hSome]
  exact
    ⟨s.transcript_read count actions _ hNext,
      s.run_read count actions _ hNext⟩

/- It shows a line, if there is one to be shown. -/
theorem exists_first_line
    (d : Disassembly)
    (hShort : ∀ v ∈ d.vars, ¬ v.Overlong)
    (count : Nat)
    (hSome : count ≠ 0) :
    ∃ line rest,
      (Listing.read d.analysis.labels d.vars count
        (plan d d.analysis)).lines = line :: rest := by
  rcases Nat.exists_eq_add_one_of_ne_zero hSome with
    ⟨limit, rfl⟩
  have hPlan :
      plan d d.analysis =
        .line (.header banner) ::
          (plan d d.analysis).tail := by
    rw [plan_eq d hShort]
    rfl
  rw [hPlan]
  have hRead :=
    read_cons d.analysis.labels d.vars limit
      (.line (.header banner)) (plan d d.analysis).tail rfl
  exact ⟨_, _, hRead.1⟩

/-
  All later readings go on in the plan that the first one
  made.
-/
theorem progress_of_read
    (s : Session)
    (hFresh : s.reader = .fresh)
    (count : Nat)
    (actions : List Action)
    (hSome : count ≠ 0) :
    let all := Action.read count :: actions
    Progress s.disassembly s.disassembly.vars
      (s.transcript all) (s.run all).reader := by
  intro all
  let d := s.disassembly
  let labels := d.analysis.labels
  let chunk :=
    Listing.read labels d.vars count (plan d d.analysis)
  let after : Session := ⟨d, .reading labels chunk.rest⟩
  rcases s.first_reading hFresh count actions hSome with
    ⟨hTranscript, hRun⟩
  rw [hTranscript, hRun]
  rcases Variable.overlong_or_short d.vars with
    hLong | hShort
  · have hChunk : chunk.lines = [] ∧ chunk.rest = [] := by
      rcases Nat.exists_eq_add_one_of_ne_zero hSome with
        ⟨limit, rfl⟩
      simp [chunk, plan_of_overlong d hLong, Listing.read,
        readOnto]
    rcases after.reads_transcript actions labels chunk.rest
        rfl (by simp [hChunk.2]) with
      ⟨left, hReads, hReader⟩
    rw [hChunk.2] at hReads
    rcases hReads.of_nil with ⟨hNone, rfl⟩
    rw [hReader, hChunk.1, hNone]
    rcases hLong with ⟨v, hv, hOverlong⟩
    exact .failed labels v hv hOverlong
  · have hSound := failure?_plan d hShort
    have hRead :
        Reads labels (plan d d.analysis)
          (chunk.lines.map (⟨·, d.vars⟩)) chunk.rest :=
      reads_of_read d.vars count _ (hSound d.vars)
    rcases after.reads_transcript actions labels chunk.rest
        rfl
        (fun item hMem vars =>
          hSound vars item (hRead.suffix.subset hMem)) with
      ⟨left, hReads, hReader⟩
    rw [hReader]
    refine
      .reading d.vars (List.Subset.refl _) hShort
        (hRead.trans hReads) ?_
    rcases exists_first_line d hShort count hSome with
      ⟨line, rest, hLines⟩
    intro first hFirst
    rw [hLines] at hFirst
    cases hFirst
    rfl

/- How far any session comes that begins with a fresh reader. -/
theorem progress
    (s : Session)
    (hFresh : s.reader = .fresh)
    (actions : List Action) :
    Progress s.disassembly
      (s.disassembly.vars ++ actions.flatMap Action.added)
      (s.transcript actions) (s.run actions).reader := by
  induction actions generalizing s with
  | nil =>
    rw [show (s.run []).reader = .fresh from hFresh]
    exact .unread
  | cons action actions ih =>
    have hAdd := fun v =>
      (ih (s.change (.ok (s.disassembly.add v)))
        hFresh).of_add v
    cases action with
    | add v => exact hAdd v
    | define definition =>
      have hDefinition :
          s.disassembly.addDefinition definition =
            (Variable.parse definition).map
              s.disassembly.add :=
        rfl
      cases hParse : Variable.parse definition with
      | ok v =>
        rw [hParse] at hDefinition
        simpa [transcript, run, act, hDefinition, Action.added,
          hParse, Except.map, Except.toOption] using hAdd v
      | error e =>
        rw [hParse] at hDefinition
        simpa [transcript, run, act, change, hDefinition,
          Action.added, hParse, Except.map, Except.toOption]
          using ih s hFresh
    | read count =>
      by_cases hSome : count = 0
      · subst hSome
        have hNext :
            s.reader.next s.disassembly 0 =
              ⟨[], [], none, .fresh⟩ := by
          rw [hFresh]
          rfl
        rw [s.transcript_read 0 actions _ hNext,
          s.run_read 0 actions _ hNext]
        exact ih { s with reader := .fresh } rfl
      · exact
          (s.progress_of_read hFresh count actions hSome).of_vars
            s.disassembly.vars (List.subset_append_left _ _)

end Session

end Listing

end Beeb

------------------------------------------------------------
-- The Body That A Session Reads
------------------------------------------------------------

namespace Beeb

namespace Listing

/- What is shown without the lines of the header. -/
def bodyOf
    (shown : List Shown) : List Shown :=
  shown.filter (!·.line.isHeader)

/- Without it no text of the header is left. -/
theorem headerTexts_bodyOf
    (shown : List Shown) :
    ((bodyOf shown).map Shown.line).filterMap
      Line.headerText? = [] := by
  rw [List.filterMap_map, List.filterMap_eq_nil_iff]
  intro s hs
  have hNoHeader : s.line.isHeader = false := by
    simpa using (List.mem_filter.mp hs).2
  cases hLine : s.line with
  | header text =>
    rw [hLine] at hNoHeader
    cases hNoHeader
  | _ => simp [hLine, Line.headerText?]

/- Nothing of a body is in the lines of a header. -/
theorem bodyOf_of_header
    (texts : List String)
    (shown : List Shown)
    (rest : List Line)
    (hLines :
      texts.map Line.header =
        shown.map Shown.line ++ rest) :
    bodyOf shown = [] := by
  refine List.filter_eq_nil_iff.mpr fun s hs => ?_
  have hMem : s.line ∈ texts.map Line.header := by
    rw [hLines]
    exact List.mem_append_left _ (List.mem_map_of_mem hs)
  rcases List.mem_map.mp hMem with ⟨text, -, hText⟩
  simp [← hText, Line.isHeader]

/- All that is read off a body belongs to it. -/
theorem Reads.bodyOf_eq
    {labels : Labels}
    {items left : List Item}
    {shown : List Shown}
    (hReads : Reads labels items shown left)
    (hItems : ∀ item ∈ items, item.InBody) :
    bodyOf shown = shown := by
  refine List.filter_eq_self.mpr fun s hs => ?_
  rcases hReads.exists_item s hs with ⟨item, hItem, hLine⟩
  simpa using
    (hItems item hItem).isHeader_eq_false s.vars s.line hLine

/-
  A plan that can be written shows its header with the
  variables it was made with, and then its body.
-/
theorem Reads.header_or_body
    {d : Disassembly}
    {shown : List Shown}
    {left : List Item}
    (hShort : ∀ v ∈ d.vars, ¬ v.Overlong)
    (hReads :
      Reads d.analysis.labels (plan d d.analysis) shown left) :
    (bodyOf shown = [] ∧ left ≠ []) ∨
      ∃ header,
        shown = header ++ bodyOf shown ∧
          header.map Shown.line =
            (headerText d.analysis d.vars d.loadAddress).map
              .header ∧
          Reads d.analysis.labels
            (body d.analysis d.window d.steps)
            (bodyOf shown) left := by
  let texts := headerText d.analysis d.vars d.loadAddress
  have hPlan :
      plan d d.analysis =
        (texts.map Line.header).map .line ++
          body d.analysis d.window d.steps := by
    rw [plan_eq d hShort, body_eq d, List.map_map]
  rw [hPlan] at hReads
  rcases Reads.of_append _ _ _ _ hReads with
    ⟨rest, hSome, hFirst, rfl⟩ |
      ⟨header, second, rfl, hFirst, hSecond⟩
  · rcases Reads.of_lines _ _ _ hFirst with
      ⟨lines, hLines, -⟩
    exact
      .inl
        ⟨bodyOf_of_header texts shown lines hLines,
          List.append_ne_nil_of_left_ne_nil hSome _⟩
  · rcases Reads.of_lines _ _ _ hFirst with
      ⟨lines, hLines, hEnd⟩
    have hSplit : bodyOf (header ++ second) = second := by
      rw [bodyOf, List.filter_append, ← bodyOf, ← bodyOf,
        bodyOf_of_header texts header lines hLines,
        hSecond.bodyOf_eq (inBody_of_mem_body d),
        List.nil_append]
    have hAll : lines = [] := List.map_eq_nil_iff.mp hEnd.symm
    rw [hAll, List.append_nil] at hLines
    rw [hSplit]
    exact .inr ⟨header, rfl, hLines.symm, hSecond⟩

namespace Session

/-
  The body that a session shows is read off a plan that does
  not depend on any variables.
-/
theorem body_shown
    (d : Disassembly)
    (vars : List Variable)
    (actions : List Action)
    (hShort :
      ∀ v ∈ vars ++ actions.flatMap Action.added,
        ¬ v.Overlong) :
    let s : Session := { disassembly := { d with vars } }
    ∃ left,
      Reads d.analysis.labels
          (body d.analysis d.window d.steps)
          (bodyOf (s.transcript actions)) left ∧
        ((s.run actions).reader.ended = true → left = []) := by
  intro s
  have hProgress := s.progress rfl actions
  generalize s.transcript actions = shown at *
  generalize (s.run actions).reader = reader at *
  cases hProgress with
  | unread =>
    exact ⟨_, .nothing _, fun hEnded => by cases hEnded⟩
  | failed labels v hHeld hLong =>
    exact absurd hLong (hShort v hHeld)
  | reading planned hHeld hSound hReads hFirst =>
    rcases hReads.header_or_body (d := { d with vars := planned })
        hSound with
      ⟨hNone, hSome⟩ | ⟨header, -, -, hBody⟩
    · rw [hNone]
      refine ⟨_, .nothing _, fun hEnded => ?_⟩
      exact absurd (List.isEmpty_iff.mp hEnded) hSome
    · exact ⟨_, hBody, fun hEnded => List.isEmpty_iff.mp hEnded⟩

end Session

end Listing

end Beeb
