import Beeb.Proofs.Listing.Content
import Beeb.Proofs.Listing.Session

/-
  What variables do to a listing that is read in parts while
  they change: they name operands that have their values,
  and nothing else.

  The header defines the variables of the moment at which
  the first line is read.  A name is defined if its variable
  was held then.

  Main declarations:
    * `Listing.Shown.Agrees`
    * `Listing.Session.variables_change_only_operands`
    * `Listing.variableBlock_headerText`
    * `Listing.Session.substitution_defined_iff`
-/

------------------------------------------------------------
-- Two Sessions
------------------------------------------------------------

namespace Beeb

namespace Listing

/-
  Two lines differ in nothing but an operand, and in this
  only if a variable of either time has its value.
-/
inductive Shown.Agrees : Shown → Shown → Prop where
| label
    (name : String)
    (vars vars' : List Variable) :
  Agrees ⟨.label name, vars⟩ ⟨.label name, vars'⟩
| data
    (bytes : List UInt8)
    (address : Int)
    (undocumented : String)
    (vars vars' : List Variable) :
  Agrees ⟨.data bytes address undocumented, vars⟩
    ⟨.data bytes address undocumented, vars'⟩
| instruction
    (mnemonic operand operand' : String)
    (address : Int)
    (bytes : List UInt8)
    (vars vars' : List Variable)
    (hOperand :
      operand ≠ operand' →
        ∃ v ∈ vars ++ vars',
          Line.absoluteWord?
              (.instruction mnemonic operand address bytes) =
            some v.value) :
  Agrees ⟨.instruction mnemonic operand address bytes, vars⟩
    ⟨.instruction mnemonic operand' address bytes, vars'⟩

/- Different variables agree on an instruction. -/
theorem agrees_instruction
    (i : Instruction)
    (operand operand' : String)
    (address : Int)
    (data : List UInt8)
    (labels : Labels)
    (vars vars' : List Variable)
    (hFirst :
      data.head?.bind (Instruction.ofOpcode? ·.toNat) = some i)
    (hText :
      Operand.text i data address labels vars = .ok operand)
    (hText' :
      Operand.text i data address labels vars' =
        .ok operand') :
    Shown.Agrees
      ⟨.instruction i.mnemonic operand address data, vars⟩
      ⟨.instruction i.mnemonic operand' address data,
        vars'⟩ := by
  refine .instruction i.mnemonic _ _ address data _ _ ?_
  intro hDiffer
  by_contra hNone
  apply hDiffer
  have hSame :=
    Operand.text_eq_of_unnamed i data address labels vars vars'
      (by
        rintro word hNoJump hMode hWord v hv rfl
        refine hNone ⟨v, hv, ?_⟩
        simp [Line.absoluteWord?, hFirst, hNoJump, hMode,
          hWord, Except.toOption])
  rw [hText, hText'] at hSame
  exact Except.ok.inj hSame

/-
  Different variables agree on a part of a body: it has no
  line, or one line for each.
-/
theorem Item.InBody.agrees
    {labels : Labels}
    {item : Item}
    (hBody : item.InBody)
    (hWritable : labels.Writable)
    (vars vars' : List Variable) :
    (item.lines labels vars = [] ∧
        item.lines labels vars' = []) ∨
      ∃ line line',
        item.lines labels vars = [line] ∧
          item.lines labels vars' = [line'] ∧
          Shown.Agrees ⟨line, vars⟩ ⟨line', vars'⟩ := by
  cases hBody with
  | label name =>
    exact .inr ⟨_, _, rfl, rfl, .label name vars vars'⟩
  | data bytes address undocumented =>
    exact
      .inr
        ⟨_, _, rfl, rfl,
          .data bytes address undocumented vars vars'⟩
  | remark r => exact .inl ⟨rfl, rfl⟩
  | instruction i address data hFirst hLength =>
    have hTable := mem_table_of_first i data hFirst
    have hText := fun held : List Variable =>
      Operand.exists_text i data address labels held hTable
        hLength hWritable
    rcases hText vars with ⟨operand, hHere⟩
    rcases hText vars' with ⟨operand', hThere⟩
    refine
      .inr
        ⟨_, _, ?_, ?_,
          agrees_instruction i operand operand' address data
            labels vars vars' hFirst hHere hThere⟩
    · simp [Item.lines, instructionLine, hHere, Except.map,
        Except.toOption]
    · simp [Item.lines, instructionLine, hThere, Except.map,
        Except.toOption]

/-
  Two readings of a body agree as far as both have come, and
  have come equally far if they have left nothing.
-/
theorem Reads.agrees
    {labels : Labels}
    {items left left' : List Item}
    {shown shown' : List Shown}
    (hWritable : labels.Writable)
    (hItems : ∀ item ∈ items, item.InBody)
    (hReads : Reads labels items shown left)
    (hReads' : Reads labels items shown' left') :
    (∀ pair ∈ shown.zip shown', pair.1.Agrees pair.2) ∧
      (left = [] → left' = [] →
        shown.length = shown'.length) := by
  induction items generalizing shown shown' with
  | nil =>
    rw [hReads.of_nil.1, hReads'.of_nil.1]
    simp
  | cons item items ih =>
    cases hReads with
    | nothing => simp
    | part _ vars hRest =>
      cases hReads' with
      | nothing => simp
      | part _ vars' hRest' =>
        rcases ih
            (fun other hMem => hItems other (by simp [hMem]))
            hRest hRest' with
          ⟨hPairs, hLengths⟩
        rcases (hItems item (by simp)).agrees hWritable vars
            vars' with
          ⟨hNone, hNone'⟩ | ⟨line, line', hOne, hOne', hAgrees⟩
        · rw [hNone, hNone']
          exact ⟨hPairs, hLengths⟩
        · simp only [hOne, hOne', List.map_singleton,
            List.singleton_append, List.zip_cons_cons,
            List.length_cons]
          refine ⟨?_, fun h h' => ?_⟩
          · intro pair hMem
            rcases List.mem_cons.mp hMem with rfl | hLater
            · exact hAgrees
            · exact hPairs pair hLater
          · rw [hLengths h h']

namespace Session

/-
  Variables change nothing in a listing but the absolute
  operands that have their values. Two users read the
  listing of one program, from different variables and
  adding others at any time, a few lines at a time. All the
  variables can be written. Without the header, the lines of
  both agree as far as both have read, but for operands that
  are the value of a variable that either has when the line
  is written. If both have read to the end, they have read
  equally many lines.
-/
theorem variables_change_only_operands
    (d : Disassembly)
    (vars vars' : List Variable)
    (actions actions' : List Action)
    (hShort :
      ∀ v ∈ vars ++ actions.flatMap Action.added,
        ¬ v.Overlong)
    (hShort' :
      ∀ v ∈ vars' ++ actions'.flatMap Action.added,
        ¬ v.Overlong) :
    let s : Session := { disassembly := { d with vars } }
    let s' : Session :=
      { disassembly := { d with vars := vars' } }
    let shown := bodyOf (s.transcript actions)
    let shown' := bodyOf (s'.transcript actions')
    (∀ pair ∈ shown.zip shown', pair.1.Agrees pair.2) ∧
      ((s.run actions).reader.ended = true →
        (s'.run actions').reader.ended = true →
          shown.length = shown'.length) := by
  intro s s' shown shown'
  rcases body_shown d vars actions hShort with
    ⟨left, hReads, hEnd⟩
  rcases body_shown d vars' actions' hShort' with
    ⟨left', hReads', hEnd'⟩
  rcases hReads.agrees d.labels_writable
      (inBody_of_mem_body d) hReads' with
    ⟨hPairs, hLengths⟩
  exact
    ⟨hPairs, fun hEnded hEnded' =>
      hLengths (hEnd hEnded) (hEnd' hEnded')⟩

/-
  A program read at once without variables, and in two parts
  with one variable more in between.
-/
theorem variables_change_only_operands_late :
    let d : Disassembly :=
      ⟨#[0xAD, 0x00, 0x30, 0x20, 0xE7, 0xFF, 0x60],
        ⟨0, 7, 0x1900⟩, [], [], rfl⟩
    let actions : List Action := [.read 40]
    let actions' : List Action :=
      [.read 3, .define "screen=&3000", .read 40]
    let s : Session := { disassembly := { d with vars := [] } }
    let s' : Session :=
      { disassembly :=
          { d with vars := [⟨"exit", 0xFFE7⟩] } }
    let shown := bodyOf (s.transcript actions)
    let shown' := bodyOf (s'.transcript actions')
    (∀ v ∈ actions.flatMap Action.added, ¬ v.Overlong) ∧
      (∀ v ∈
          ⟨"exit", 0xFFE7⟩ :: actions'.flatMap Action.added,
        ¬ v.Overlong) ∧
      (s.run actions).reader.ended = true ∧
      (s'.run actions').reader.ended = true ∧
      (∀ pair ∈ shown.zip shown', pair.1.Agrees pair.2) ∧
      shown.length = shown'.length := by
  intro d actions actions' s s' shown shown'
  have hShort :
      ∀ v ∈ actions.flatMap Action.added, ¬ v.Overlong := by
    unfold Variable.Overlong
    decide +kernel
  have hShort' :
      ∀ v ∈
          ⟨"exit", 0xFFE7⟩ :: actions'.flatMap Action.added,
        ¬ v.Overlong := by
    unfold Variable.Overlong
    decide +kernel
  have hEnded : (s.run actions).reader.ended = true := by
    decide +kernel
  have hEnded' : (s'.run actions').reader.ended = true := by
    decide +kernel
  rcases variables_change_only_operands d []
      [⟨"exit", 0xFFE7⟩] actions actions' hShort hShort' with
    ⟨hPairs, hLengths⟩
  exact
    ⟨hShort, hShort', hEnded, hEnded', hPairs,
      hLengths hEnded hEnded'⟩

end Session

end Listing

end Beeb

------------------------------------------------------------
-- Definitions Of Variables
------------------------------------------------------------

namespace Beeb

/- Texts that end in words without a space end alike. -/
theorem eq_of_append_space_eq
    (before before' word word' : List Char)
    (hWord : ' ' ∉ word)
    (hWord' : ' ' ∉ word')
    (hSame : before ++ ' ' :: word = before' ++ ' ' :: word') :
    before = before' ∧ word = word' := by
  rcases List.append_eq_append_iff.mp hSame with
    ⟨extra, hBefore, hRest⟩ | ⟨extra, hBefore, hRest⟩
  · cases extra with
    | nil => simp_all
    | cons c cs =>
      rw [(List.cons.inj hRest).2] at hWord
      simp at hWord
  · cases extra with
    | nil => simp_all
    | cons c cs =>
      rw [(List.cons.inj hRest).2] at hWord'
      simp at hWord'

namespace Numeral

/- Decimal text is a word. -/
theorem space_notMem_decimal
    (n : Int) :
    ' ' ∉ (decimal n).toList := by
  intro hMem
  rcases mem_decimal n ' ' hMem with hSign | hDigit
  · cases hSign
  · cases hDigit

/- Different numbers have different decimal texts. -/
theorem decimal_inj
    (m n : Int) :
    decimal m = decimal n ↔ m = n := by
  refine ⟨fun hSame => ?_, congrArg decimal⟩
  have hSplit :
      ∀ k : Int,
        splitSign
            (((decimal k).toList.map plain).dropWhile isPad) =
          (decide (k < 0), Nat.toDigits 10 k.natAbs) := by
    intro k
    have hDigits := (value_decimalDigits k.natAbs).2
    rw [toList_decimal_eq]
    exact
      splitSign_sign 10 _ _ (map_plain_of_digits 10 _ hDigits)
        fun c hHead => hDigits c (List.mem_of_mem_head? hHead)
  have hParts := hSplit m
  rw [hSame, hSplit n, Prod.mk.injEq] at hParts
  have hAbs : m.natAbs = n.natAbs := by
    rw [← (value_decimalDigits m.natAbs).1, ← hParts.2,
      (value_decimalDigits n.natAbs).1]
  rw [← signed_natAbs m, ← signed_natAbs n, hParts.1, hAbs]

end Numeral

namespace Variable

/- Different variables have different definitions. -/
theorem definition_inj
    (v w : Variable) :
    v.definition = w.definition ↔ v = w := by
  refine ⟨fun hSame => ?_, congrArg definition⟩
  have hTexts :=
    eq_of_append_space_eq (v.name.toList ++ [' ', '='])
      (w.name.toList ++ [' ', '='])
      (Numeral.decimal v.value).toList
      (Numeral.decimal w.value).toList
      (Numeral.space_notMem_decimal v.value)
      (Numeral.space_notMem_decimal w.value)
      (by simpa [definition] using congrArg String.toList hSame)
  have hName : v.name = w.name :=
    String.toList_inj.mp (List.append_cancel_right hTexts.1)
  have hValue : v.value = w.value :=
    (Numeral.decimal_inj _ _).mp (String.toList_inj.mp hTexts.2)
  cases v
  cases w
  simp_all

end Variable

namespace Listing

/-
  The header defines its variables, one on each line under
  their heading.
-/
theorem variableBlock_headerText
    (a : Analysis)
    (vars : List Variable)
    (origin : Int)
    (body : List Line)
    (hBody : body.filterMap Line.headerText? = []) :
    variableBlock
        ((headerText a vars origin).map .header ++ body) =
      vars.map Variable.definition := by
  apply (blocks_of_headerTexts a vars origin _ ?_).2.2
  rw [List.filterMap_append, hBody, List.append_nil,
    filterMap_headerText?_map]

/- An absolute operand is written with the variables. -/
theorem Item.InBody.line_of_absoluteWord?
    {labels : Labels}
    {item : Item}
    (hBody : item.InBody)
    (vars : List Variable)
    (line : Line)
    (word : Int)
    (hLine : line ∈ item.lines labels vars)
    (hWord : line.absoluteWord? = some word) :
    ∃ mnemonic address bytes,
      line =
        .instruction mnemonic (Operand.absolute word vars)
          address bytes := by
  cases hBody with
  | label name =>
    rw [List.mem_singleton.mp hLine] at hWord
    cases hWord
  | data bytes address undocumented =>
    rw [List.mem_singleton.mp hLine] at hWord
    cases hWord
  | remark r => cases hLine
  | instruction i address data hFirst hLength =>
    rcases Item.exists_operand_of_mem_lines i address data vars
        line hLine with
      ⟨operand, hText, rfl⟩
    simp only [Line.absoluteWord?, hFirst, Option.bind_some,
      Option.ite_none_right_eq_some] at hWord
    rcases hWord with ⟨⟨hNoJump, hMode⟩, hWord⟩
    have hNoBranch :=
      i.flow_of_isAbsolute .absolute
        (mem_table_of_first i data hFirst) hMode rfl
    have hOk : Instruction.operandWord data = .ok word := by
      cases hData : Instruction.operandWord data with
      | error e =>
        rw [hData] at hWord
        cases hWord
      | ok other =>
        rw [hData] at hWord
        rw [Option.some.inj hWord]
    rw [Operand.text_of_mode i data address labels vars
      .absolute hNoBranch hMode fun hIs => hNoJump hIs.1]
      at hText
    rw [Operand.ofMode, hOk] at hText
    have hOperand : Operand.absolute word vars = operand :=
      Except.ok.inj hText
    exact ⟨i.mnemonic, address, data, by rw [hOperand]⟩

end Listing

end Beeb

------------------------------------------------------------
-- Names In Place Of Operands
------------------------------------------------------------

namespace Beeb

namespace Listing

namespace Session

/-
  A line of the body is written with the variables of its
  time, after a header with those of the first line.
-/
theorem Progress.of_mem_body
    {d : Disassembly}
    {possible : List Variable}
    {shown : List Shown}
    {reader : Reader}
    (hProgress : Progress d possible shown reader)
    (later : Shown)
    (hMem : later ∈ bodyOf shown) :
    (∃ first,
      shown.head? = some first ∧
        variableBlock (shown.map Shown.line) =
          first.vars.map Variable.definition) ∧
      ∃ item : Item,
        item.InBody ∧
          later.line ∈
            item.lines d.analysis.labels later.vars := by
  cases hProgress with
  | unread => cases hMem
  | failed labels v hHeld hLong => cases hMem
  | reading planned hHeld hShort hReads hFirst =>
    rcases hReads.header_or_body
        (d := { d with vars := planned }) hShort with
      ⟨hNone, -⟩ | ⟨header, hSplit, hHeader, hBody⟩
    · rw [hNone] at hMem
      cases hMem
    constructor
    · have hSome : shown ≠ [] :=
        List.ne_nil_of_mem (List.mem_filter.mp hMem).1
      refine
        ⟨shown.head hSome, List.head?_eq_some_head hSome, ?_⟩
      rw [hFirst _ (List.head?_eq_some_head hSome)]
      rw [hSplit, List.map_append, hHeader]
      exact
        variableBlock_headerText _ planned _ _
          (headerTexts_bodyOf shown)
    · rcases hBody.exists_item later hMem with
        ⟨item, hItem, hLine⟩
      exact ⟨item, inBody_of_mem_body _ item hItem, hLine⟩

/-
  A name that is written in place of an operand is that of a
  variable with the value of the operand. Wherever the user
  changes the variables and reads on, the header above it
  defines the variables that were held when its first line
  was read. So it defines the name with this value if and
  only if the variable was held then; it does if the
  variables did not change from the first line to the one
  with the name.
-/
theorem substitution_defined_iff
    (s : Session)
    (actions : List Action)
    (shown : Shown)
    (word : Int)
    (v : Variable)
    (hFresh : s.reader = .fresh)
    (hMem : shown ∈ s.transcript actions)
    (hWord : shown.line.absoluteWord? = some word)
    (hFound : Variable.find? shown.vars word = some v) :
    let lines := (s.transcript actions).map Shown.line
    ∃ first,
      (s.transcript actions).head? = some first ∧
        (∃ mnemonic address bytes,
          shown.line =
            .instruction mnemonic v.name address bytes) ∧
        v.value = word ∧
        variableBlock lines =
          first.vars.map Variable.definition ∧
        (v.definition ∈ variableBlock lines ↔
          v ∈ first.vars) ∧
        (first.vars = shown.vars →
          v.definition ∈ variableBlock lines) := by
  intro lines
  have hValue : v.value = word := by
    simpa using List.find?_some hFound
  have hNoHeader : shown.line.isHeader = false := by
    cases hLine : shown.line with
    | header text => simp [hLine, Line.absoluteWord?] at hWord
    | _ => rfl
  have hInBody : shown ∈ bodyOf (s.transcript actions) :=
    List.mem_filter.mpr ⟨hMem, by simp [hNoHeader]⟩
  rcases (s.progress hFresh actions).of_mem_body shown
      hInBody with
    ⟨⟨first, hHead, hBlock⟩, item, hBody, hLine⟩
  rcases hBody.line_of_absoluteWord? shown.vars shown.line
      word hLine hWord with
    ⟨mnemonic, address, bytes, hShown⟩
  have hOperand : Operand.absolute word shown.vars = v.name := by
    rw [Operand.absolute, hFound]
  have hDefined :
      v.definition ∈ variableBlock lines ↔ v ∈ first.vars := by
    rw [hBlock]
    constructor
    · intro hBlockMem
      rcases List.mem_map.mp hBlockMem with ⟨w, hw, hSame⟩
      rwa [← (Variable.definition_inj w v).mp hSame]
    · exact List.mem_map_of_mem
  rw [hOperand] at hShown
  refine
    ⟨first, hHead, ⟨mnemonic, address, bytes, hShown⟩, hValue,
      hBlock, hDefined, fun hHeld => ?_⟩
  rw [hDefined, hHeld]
  exact List.mem_of_find?_eq_some hFound

/- One variable is held from the first line on. -/
theorem substitution_defined_iff_held :
    let s : Session :=
      { disassembly :=
          ⟨#[0xAD, 0x34, 0x12], ⟨0, 3, 0⟩, [],
            [⟨"flag", 0x1234⟩], rfl⟩ }
    let actions : List Action :=
      [.read 3, .add ⟨"limit", 0x1235⟩, .read 20]
    let shown := s.transcript actions
    ∃ first later,
      shown.head? = some first ∧
        later ∈ shown ∧
        later.line.absoluteWord? = some 0x1234 ∧
        Variable.find? later.vars 0x1234 =
          some ⟨"flag", 0x1234⟩ ∧
        (Variable.definition ⟨"flag", 0x1234⟩ ∈
            variableBlock (shown.map Shown.line) ↔
          ⟨"flag", 0x1234⟩ ∈ first.vars) := by
  intro s actions shown
  let later : Shown :=
    ⟨.instruction "LDA" "flag" 0 [0xAD, 0x34, 0x12],
      [⟨"flag", 0x1234⟩, ⟨"limit", 0x1235⟩]⟩
  have hMem : later ∈ shown := by decide +kernel
  have hWord : later.line.absoluteWord? = some 0x1234 := by
    decide +kernel
  have hFound :
      Variable.find? later.vars 0x1234 =
        some ⟨"flag", 0x1234⟩ := by
    decide +kernel
  rcases s.substitution_defined_iff actions later 0x1234 _ rfl
      hMem hWord hFound with
    ⟨first, hHead, -, -, -, hDefined, -⟩
  exact ⟨first, later, hHead, hMem, hWord, hFound, hDefined⟩

/-
  A name need not be defined: here its variable is added
  after the first line of the header was read.
-/
theorem late_variable_undefined :
    let s : Session :=
      { disassembly :=
          ⟨#[0xAD, 0x34, 0x12], ⟨0, 3, 0⟩, [], [], rfl⟩ }
    let shown :=
      s.transcript
        [.read 1, .add ⟨"flag", 0x1234⟩, .read 20]
    let later : Shown :=
      ⟨.instruction "LDA" "flag" 0 [0xAD, 0x34, 0x12],
        [⟨"flag", 0x1234⟩]⟩
    later ∈ shown ∧
      later.line.absoluteWord? = some 0x1234 ∧
      Variable.find? later.vars 0x1234 =
        some ⟨"flag", 0x1234⟩ ∧
      Variable.definition ⟨"flag", 0x1234⟩ ∉
        variableBlock (shown.map Shown.line) := by
  decide +kernel

end Session

end Listing

end Beeb
