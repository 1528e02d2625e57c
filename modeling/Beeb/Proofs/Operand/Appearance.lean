import Beeb.Proofs.Assembler.Operand
import Beeb.Proofs.Attempts
import Beeb.Proofs.Instruction
import Beeb.Proofs.Operand
import Beeb.Proofs.Variable

/-
  How operands look, and what their looks tell.

  An operand is a number of digits between marks, or a name.
  The marks and the length tell the mode of a number, and a
  name is an absolute operand.  One name alone looks like an
  operand of another mode: that of the accumulator.

  Main declarations:
    * `Mode.frame`
    * `Operand.Looks`
    * `Operand.Looks.mode_eq`
    * `Operand.looks_text`
    * `Operand.Mistakable`
    * `Operand.mistakable_iff`
    * `Operand.same_text_iff`
-/

------------------------------------------------------------
-- Frames
------------------------------------------------------------

namespace Beeb

/-
  What stands before and after the digits of an operand, and
  how many hexadecimal digits there are.
-/
structure Frame where
  opening : List Char
  digits : Nat
  closing : List Char

/- The frame of an operand that is no name. -/
def Mode.frame : Mode → Frame
| .implicit => ⟨[], 0, []⟩
| .accumulator => ⟨['A'], 0, []⟩
| .immediate => ⟨['#', '&'], 2, []⟩
| .absolute => ⟨['&'], 4, []⟩
| .zeroPage => ⟨['&'], 2, []⟩
| .zeroPageX => ⟨['&'], 2, [',', 'X']⟩
| .zeroPageY => ⟨['&'], 2, [',', 'Y']⟩
| .indirect => ⟨['(', '&'], 4, [')']⟩
| .absoluteX => ⟨['&'], 4, [',', 'X']⟩
| .absoluteY => ⟨['&'], 4, [',', 'Y']⟩
| .indirectX => ⟨['(', '&'], 2, [',', 'X', ')']⟩
| .indirectY => ⟨['(', '&'], 2, [')', ',', 'Y']⟩

/- The text of a frame with its digits filled in. -/
def Frame.fill
    (f : Frame)
    (digits : List Char) : List Char :=
  f.opening ++ digits ++ f.closing

/- The characters of a text that are no digits. -/
def marks
    (text : List Char) : List Char :=
  text.filter (!Numeral.isDigitOf 16 ·)

/- The marks of a frame, and the length of its texts. -/
def Frame.key
    (f : Frame) : List Char × Nat :=
  (marks (f.opening ++ f.closing),
    f.opening.length + f.digits + f.closing.length)

/- The key of a frame can be read off any text in it. -/
theorem Frame.key_fill
    (f : Frame)
    (digits : List Char)
    (hDigits : digits.all (Numeral.isDigitOf 16) = true)
    (hCount : digits.length = f.digits) :
    f.key =
      (marks (f.fill digits), (f.fill digits).length) := by
  have hNone : marks digits = [] := by
    rw [marks, List.filter_eq_nil_iff]
    intro c hMem
    simp [List.all_eq_true.mp hDigits c hMem]
  have hMarks :
      marks (f.fill digits) =
        marks (f.opening ++ f.closing) := by
    simp only [marks] at hNone
    simp only [marks, fill, List.filter_append, hNone,
      List.append_nil]
  rw [hMarks, key, fill, List.length_append,
    List.length_append, hCount]

/- All modes. -/
def Mode.all : List Mode :=
  [.implicit, .accumulator, .immediate, .absolute, .zeroPage,
    .zeroPageX, .zeroPageY, .indirect, .absoluteX, .absoluteY,
    .indirectX, .indirectY]

/- No two modes have frames of one key. -/
theorem Mode.key_injective
    (mode mode' : Mode)
    (hKey : mode.frame.key = mode'.frame.key) :
    mode = mode' := by
  have hAll : ∀ mode : Mode, mode ∈ all := by
    intro mode
    cases mode with
    | _ => decide
  have hNodup : (all.map fun mode => mode.frame.key).Nodup := by
    decide
  exact
    List.inj_on_of_nodup_map hNodup (hAll mode) (hAll mode')
      hKey

end Beeb

------------------------------------------------------------
-- Looks
------------------------------------------------------------

namespace Beeb

namespace Operand

/- How an operand of a mode can look. -/
inductive Looks : Mode → List Char → Prop
/- A number of digits between the marks of the mode. -/
| framed
    (mode : Mode)
    (digits : List Char)
    (hDigits : digits.all (Numeral.isDigitOf 16) = true)
    (hCount : digits.length = mode.frame.digits) :
    Looks mode (mode.frame.fill digits)
/- A name for the whole of the operand. -/
| named
    (first : Char)
    (rest : List Char)
    (hFirst : Variable.beginsName first = true) :
    Looks .absolute (first :: rest)

/- Where an operand could be taken for a name. -/
theorem eq_of_frame_begins_name
    (mode : Mode)
    (digits : List Char)
    (first : Char)
    (rest : List Char)
    (hCount : digits.length = mode.frame.digits)
    (hFirst : Variable.beginsName first = true)
    (hSame : mode.frame.fill digits = first :: rest) :
    mode = .accumulator ∧ first :: rest = ['A'] := by
  have hMarks :
      ['#', '&', '('].all fun c =>
        c.toNat < 128 && !(c.isAlpha || c = '_') := by
    decide
  have hNoMark : first ∉ ['#', '&', '('] := by
    intro hMem
    have hMark := List.all_eq_true.mp hMarks first hMem
    simp only [Bool.and_eq_true, decide_eq_true_eq,
      Bool.not_eq_true'] at hMark
    rw [Variable.beginsName_of_ascii first hMark.1, hMark.2]
      at hFirst
    cases hFirst
  cases mode with
  | implicit =>
    rw [List.length_eq_zero_iff.mp hCount] at hSame
    cases hSame
  | accumulator =>
    rw [List.length_eq_zero_iff.mp hCount] at hSame
    exact ⟨rfl, hSame.symm⟩
  | _ =>
    have hHead := congrArg List.head? hSame
    simp only [Mode.frame, Frame.fill, List.cons_append,
      List.head?_cons, Option.some.injEq] at hHead
    rw [← hHead] at hNoMark
    exact absurd (by simp) hNoMark

/-
  An operand tells its mode by its looks, unless it is the
  single letter of the accumulator.
-/
theorem Looks.mode_eq
    {mode mode' : Mode}
    {text : List Char}
    (hLooks : Looks mode text)
    (hLooks' : Looks mode' text) :
    mode = mode' ∨
      text = ['A'] ∧
        (mode = .accumulator ∧ mode' = .absolute ∨
          mode' = .accumulator ∧ mode = .absolute) := by
  generalize hText : text = text' at hLooks'
  cases hLooks with
  | framed mode digits hDigits hCount =>
    cases hLooks' with
    | framed mode' digits' hDigits' hCount' =>
      left
      apply Mode.key_injective
      rw [Frame.key_fill _ digits hDigits hCount,
        Frame.key_fill _ digits' hDigits' hCount', hText]
    | named first rest hFirst =>
      rcases eq_of_frame_begins_name mode digits first rest
          hCount hFirst hText with
        ⟨rfl, hLetter⟩
      exact .inr ⟨hLetter, .inl ⟨rfl, rfl⟩⟩
  | named first rest hFirst =>
    cases hLooks' with
    | framed mode' digits' hDigits' hCount' =>
      rcases eq_of_frame_begins_name mode' digits' first rest
          hCount' hFirst hText.symm with
        ⟨rfl, hLetter⟩
      exact .inr ⟨hText.symm.trans hLetter, .inr ⟨rfl, rfl⟩⟩
    | named first' rest' hFirst' => exact .inl rfl

end Operand

end Beeb

------------------------------------------------------------
-- How Operands Look
------------------------------------------------------------

namespace Beeb

namespace Operand

/- A number between the marks of a mode looks like it. -/
theorem looks_number
    (mode : Mode)
    (width : Nat)
    (n : Int)
    (text : List Char)
    (hWidth : 0 < width)
    (hPositive : 0 ≤ n)
    (hFits : n < Nat.pow 16 width)
    (hDigits : mode.frame.digits = width)
    (hText :
      text =
        mode.frame.fill
          ((Text.hexDigits width n.toNat).map
            Char.toUpper)) :
    Looks mode text := by
  have hSmall : n.toNat < Nat.pow 16 width := by omega
  rw [hText]
  apply Looks.framed
  · exact (Numeral.value_hexDigits width n.toNat).2
  · rw [hDigits]
    exact Numeral.length_hexDigits width n.toNat hWidth hSmall

/- A name looks absolute, whatever comes behind it. -/
theorem looks_name
    (name suffix : String)
    (hName : Variable.isName name = true) :
    Looks .absolute (name ++ suffix).toList := by
  rw [String.toList_append]
  simp only [Variable.isName, Bool.and_eq_true] at hName
  cases hList : name.toList with
  | nil =>
    rw [hList] at hName
    cases hName.1
  | cons first rest =>
    rw [hList] at hName
    exact .named first (rest ++ suffix.toList) hName.1

/- A word of four digits looks absolute. -/
theorem looks_word
    (word : Int)
    (hPositive : 0 ≤ word)
    (hWord : word < 0x10000) :
    Looks .absolute (number 4 word).toList := by
  apply looks_number .absolute 4 word
  · decide
  · exact hPositive
  · exact hWord
  · rfl
  · simp [toList_number 4 word hPositive, Mode.frame,
      Frame.fill]

/- So does the name of a system symbol. -/
theorem looks_system
    (names : Mos.Names)
    (address : Int)
    (name suffix : String)
    (hNames : names ⊆ Mos.calls ++ Mos.vectors)
    (hName : names.find? address = some name) :
    Looks .absolute (name ++ suffix).toList := by
  have hMem := names.mem_of_find? address name hName
  apply looks_name
  exact (Assembler.isName_of_mem_system _ (hNames hMem)).1

/- The operand of a jump looks absolute. -/
theorem looks_jumpTarget
    (target : Int)
    (labels : Labels)
    (operand : String)
    (hPositive : 0 ≤ target)
    (hWord : target < 0x10000)
    (hText : jumpTarget target labels = .ok operand) :
    Looks .absolute operand.toList := by
  unfold jumpTarget at hText
  cases hName : Mos.callName? target with
  | some name =>
    rw [hName] at hText
    cases hText
    rw [← String.append_empty (s := operand)]
    apply looks_system Mos.calls target
    · exact List.subset_append_left _ _
    · exact hName
  | none =>
    rw [hName] at hText
    cases hLabel : labels[target]? with
    | none =>
      simp only [hLabel, Except.ok.injEq] at hText
      rw [← hText]
      exact looks_word target hPositive hWord
    | some label =>
      simp only [hLabel] at hText
      cases label with
      | overlong index => cases hText
      | numbered index =>
        rw [Label.name, Except.ok.injEq] at hText
        rw [← hText]
        exact looks_name "label_" _ rfl

/- Any other absolute operand looks absolute. -/
theorem looks_absolute
    (word : Int)
    (vars : List Variable)
    (hPositive : 0 ≤ word)
    (hWord : word < 0x10000)
    (hNames : ∀ v ∈ vars, Variable.isName v.name = true) :
    Looks .absolute (absolute word vars).toList := by
  unfold absolute
  cases hVariable : Variable.find? vars word with
  | some v =>
    have hMem := List.mem_of_find?_eq_some hVariable
    simp only
    rw [← String.append_empty (s := v.name)]
    exact looks_name v.name "" (hNames v hMem)
  | none =>
    cases hName : Mos.vectorName? word with
    | some name =>
      simp only
      rw [← String.append_empty (s := name)]
      apply looks_system Mos.vectors word
      · exact List.subset_append_right _ _
      · exact hName
    | none =>
      cases hBase : Mos.vectorName? (Mos.evenBase word) with
      | some name =>
        apply looks_system Mos.vectors (Mos.evenBase word)
        · exact List.subset_append_right _ _
        · exact hBase
      | none => exact looks_word word hPositive hWord

/- An operand whose form says all looks like its form. -/
theorem looks_ofMode
    (mode : Mode)
    (data : List UInt8)
    (vars : List Variable)
    (operand : String)
    (hNames : ∀ v ∈ vars, Variable.isName v.name = true)
    (hText : ofMode mode data vars = .ok operand) :
    Looks mode operand.toList := by
  cases mode with
  | implicit =>
    cases hText
    exact .framed .implicit [] rfl rfl
  | accumulator =>
    cases hText
    exact .framed .accumulator [] rfl rfl
  | absolute =>
    cases hWord : Instruction.operandWord data with
    | error e => simp [ofMode, hWord, Except.map] at hText
    | ok word =>
      rcases Instruction.operandWord_bounds data word hWord
        with ⟨hPositive, hShort⟩
      simp only [ofMode, hWord, Except.map,
        Except.ok.injEq] at hText
      rw [← hText]
      exact looks_absolute word vars hPositive hShort hNames
  | indirect | absoluteX | absoluteY =>
    cases hWord : Instruction.operandWord data with
    | error e => simp [ofMode, hWord, Except.map] at hText
    | ok word =>
      rcases Instruction.operandWord_bounds data word hWord
        with ⟨hPositive, hShort⟩
      simp only [ofMode, hWord, Except.map,
        Except.ok.injEq] at hText
      rw [← hText]
      apply looks_number _ 4 word
      · decide
      · exact hPositive
      · exact hShort
      · rfl
      · simp [toList_number 4 word hPositive, Mode.frame,
          Frame.fill]
  | _ =>
    cases hByte : Instruction.operandByte data with
    | error e => simp [ofMode, hByte, Except.map] at hText
    | ok b =>
      rcases Instruction.operandByte_bounds data b hByte with
        ⟨hPositive, hShort⟩
      simp only [ofMode, hByte, Except.map,
        Except.ok.injEq] at hText
      rw [← hText]
      apply looks_number _ 2 b
      · decide
      · exact hPositive
      · exact hShort
      · rfl
      · simp [toList_number 2 b hPositive, Mode.frame,
          Frame.fill]

/-
  The operand of an instruction that is no branch looks like
  its mode.
-/
theorem looks_text
    (i : Instruction)
    (data : List UInt8)
    (address : Int)
    (labels : Labels)
    (vars : List Variable)
    (operand : String)
    (hTable : i ∈ Instruction.table)
    (hBranch : i.flow ≠ .branch)
    (hNames : ∀ v ∈ vars, Variable.isName v.name = true)
    (hText : text i data address labels vars = .ok operand) :
    ∃ mode, i.mode = some mode ∧ Looks mode operand.toList := by
  rcases cases_of_text i data address labels vars operand
      hTable hText with
    ⟨distance, hFlow, -⟩ | ⟨target, hMode, hWord, hTarget⟩ |
      ⟨mode, hMode, hOf⟩
  · exact absurd hFlow hBranch
  · rcases Instruction.operandWord_bounds data target hWord
      with ⟨hPositive, hShort⟩
    exact
      ⟨.absolute, hMode,
        looks_jumpTarget target labels operand hPositive hShort
          hTarget⟩
  · exact
      ⟨mode, hMode,
        looks_ofMode mode data vars operand hNames hOf⟩

end Operand

end Beeb

------------------------------------------------------------
-- One Text For Two Modes
------------------------------------------------------------

namespace Beeb

namespace Operand

/-
  The second of two instructions could be taken for the
  first: the first works on the accumulator, and the address
  of the second is written as a variable with the name `A`.
-/
structure Mistakable
    (vars : List Variable)
    (i j : Instruction)
    (data : List UInt8) : Prop where
  accumulator : i.mode = some .accumulator
  absolute : j.mode = some .absolute
  named :
    ∃ word v,
      Instruction.operandWord data = .ok word ∧
        Variable.find? vars word = some v ∧ v.name = "A"

/- Only a variable can be named like the accumulator. -/
theorem exists_variable_of_letter
    (word : Int)
    (vars : List Variable)
    (hPositive : 0 ≤ word)
    (hLetter : absolute word vars = "A") :
    ∃ v, Variable.find? vars word = some v ∧ v.name = "A" := by
  have hVectors :
      ∀ entry ∈ Mos.vectors,
        entry.2 ≠ "A" ∧ entry.2 ++ "+1" ≠ "A" := by
    decide +kernel
  unfold absolute at hLetter
  cases hVariable : Variable.find? vars word with
  | some v =>
    rw [hVariable] at hLetter
    exact ⟨v, rfl, hLetter⟩
  | none =>
    cases hName : Mos.vectorName? word with
    | some name =>
      have hMem := Mos.vectors.mem_of_find? word name hName
      simp only [hVariable, hName] at hLetter
      exact absurd hLetter (hVectors _ hMem).1
    | none =>
      cases hBase : Mos.vectorName? (Mos.evenBase word) with
      | some name =>
        have hMem := Mos.vectors.mem_of_find? _ name hBase
        simp only [hVariable, hName, hBase] at hLetter
        exact absurd hLetter (hVectors _ hMem).2
      | none =>
        simp only [hVariable, hName, hBase] at hLetter
        have hMark := congrArg String.toList hLetter
        rw [toList_number 4 word hPositive] at hMark
        cases hMark

/-
  An address is written as `A` if and only if a variable of
  that name is found for it.
-/
theorem text_eq_letter_iff
    (i : Instruction)
    (data : List UInt8)
    (address : Int)
    (labels : Labels)
    (vars : List Variable)
    (hFlow : i.flow = .neither)
    (hMode : i.mode = some .absolute) :
    text i data address labels vars = .ok "A" ↔
      ∃ word v,
        Instruction.operandWord data = .ok word ∧
          Variable.find? vars word = some v ∧
          v.name = "A" := by
  rw [text_of_mode i data address labels vars .absolute
    (by simp [hFlow]) hMode (by simp [hFlow]),
    mapError_eq_ok_iff]
  cases hWord : Instruction.operandWord data with
  | error e => simp [ofMode, hWord, Except.map]
  | ok word =>
    have hPositive :=
      (Instruction.operandWord_bounds data word hWord).1
    simp only [ofMode, hWord, Except.map, Except.ok.injEq]
    constructor
    · intro hLetter
      rcases exists_variable_of_letter word vars hPositive
          hLetter with
        ⟨v, hFind, hName⟩
      exact ⟨word, v, rfl, hFind, hName⟩
    · rintro ⟨_, v, rfl, hFind, hName⟩
      rw [absolute, hFind]
      exact hName

/- The two have different modes. -/
theorem Mistakable.mode_ne
    {vars : List Variable}
    {i j : Instruction}
    {data : List UInt8}
    (hMistakable : Mistakable vars i j data) :
    i.mode ≠ j.mode := by
  rw [hMistakable.accumulator, hMistakable.absolute]
  decide

/-
  Among the instructions of one mnemonic, an address could
  be taken for the accumulator if and only if both are
  written as the same text.
-/
theorem mistakable_iff
    (i j : Instruction)
    (data data' : List UInt8)
    (address address' : Int)
    (labels : Labels)
    (vars : List Variable)
    (hTable : i ∈ Instruction.table)
    (hMnemonic : i.mnemonic = j.mnemonic) :
    Mistakable vars i j data' ↔
      i.mode = some .accumulator ∧
        j.mode = some .absolute ∧
        ∃ operand,
          text i data address labels vars = .ok operand ∧
            text j data' address' labels vars =
              .ok operand := by
  have hText :
      i.mode = some .accumulator →
        text i data address labels vars = .ok "A" := by
    intro hAccumulator
    have hFlow := i.flow_of_accumulator hTable hAccumulator
    rw [text_of_mode i data address labels vars .accumulator
      (by simp [hFlow]) hAccumulator (by simp)]
    rfl
  have hLetter :
      i.mode = some .accumulator →
        j.mode = some .absolute →
          (text j data' address' labels vars = .ok "A" ↔
            ∃ word v,
              Instruction.operandWord data' = .ok word ∧
                Variable.find? vars word = some v ∧
                v.name = "A") := by
    intro hAccumulator hAbsolute
    apply text_eq_letter_iff
    · rw [← i.flow_of_accumulator hTable hAccumulator,
        Instruction.flow, Instruction.flow, hMnemonic]
    · exact hAbsolute
  constructor
  · rintro ⟨hAccumulator, hAbsolute, hNamed⟩
    have hText' := (hLetter hAccumulator hAbsolute).mpr hNamed
    exact
      ⟨hAccumulator, hAbsolute, "A", hText hAccumulator,
        hText'⟩
  · rintro ⟨hAccumulator, hAbsolute, operand, hOne, hOther⟩
    rw [hText hAccumulator, Except.ok.injEq] at hOne
    rw [← hOne, hLetter hAccumulator hAbsolute] at hOther
    exact ⟨hAccumulator, hAbsolute, hOther⟩

/-
  The operand text tells the mode among the instructions of
  one mnemonic, unless a variable has the name `A`.  Two
  instructions have one text and different modes if and only
  if one of them works on the accumulator, and the address
  of the other is written as a variable of that name.  The
  variables are any that were read from definitions.
-/
theorem same_text_iff
    (parsed : List Variable)
    (hParsed : ∀ v ∈ parsed,
      ∃ definition, Variable.parse definition = .ok v)
    (i j : Instruction)
    (data data' : List UInt8)
    (address address' : Int)
    (labels : Labels)
    (hTable : i ∈ Instruction.table)
    (hTable' : j ∈ Instruction.table)
    (hMnemonic : i.mnemonic = j.mnemonic) :
    let vars := Variable.merge parsed
    (i.mode ≠ j.mode ∧
        ∃ operand,
          text i data address labels vars = .ok operand ∧
            text j data' address' labels vars =
              .ok operand) ↔
      Mistakable vars i j data' ∨
        Mistakable vars j i data := by
  intro vars
  have hNames :
      ∀ v ∈ vars, Variable.isName v.name = true := by
    intro v hv
    apply Variable.isName_of_parsed parsed hParsed
    exact Variable.mem_of_mem_merge parsed v hv
  have hFlow : i.flow = j.flow := by
    rw [Instruction.flow, Instruction.flow, hMnemonic]
  have hOne :=
    mistakable_iff i j data data' address address' labels vars
      hTable hMnemonic
  have hOther :=
    mistakable_iff j i data' data address' address labels vars
      hTable' hMnemonic.symm
  constructor
  · rintro ⟨hDiffer, operand, hText, hText'⟩
    have hBranch : i.flow ≠ .branch := by
      intro hIs
      rw [i.mode_of_branch hTable hIs,
        j.mode_of_branch hTable' (hFlow ▸ hIs)] at hDiffer
      exact hDiffer rfl
    rcases looks_text i data address labels vars operand hTable
        hBranch hNames hText with
      ⟨mode, hMode, hLooks⟩
    rcases looks_text j data' address' labels vars operand
        hTable' (hFlow ▸ hBranch) hNames hText' with
      ⟨mode', hMode', hLooks'⟩
    rcases hLooks.mode_eq hLooks' with hSame | ⟨-, hLetter⟩
    · rw [hMode, hMode', hSame] at hDiffer
      exact absurd rfl hDiffer
    · rcases hLetter with ⟨rfl, rfl⟩ | ⟨rfl, rfl⟩
      · left
        exact hOne.mpr ⟨hMode, hMode', operand, hText, hText'⟩
      · right
        exact
          hOther.mpr ⟨hMode', hMode, operand, hText', hText⟩
  · rintro (hMistakable | hMistakable)
    · rcases hOne.mp hMistakable with ⟨-, -, hSame⟩
      exact ⟨hMistakable.mode_ne, hSame⟩
    · rcases hOther.mp hMistakable with
        ⟨-, -, operand, hText', hText⟩
      exact
        ⟨hMistakable.mode_ne.symm, operand, hText, hText'⟩

/- A shift of the accumulator, and one of a variable. -/
theorem same_text_iff_shift :
    let i : Instruction := ⟨0x0A, "ASL", 1, some .accumulator⟩
    let j : Instruction := ⟨0x0E, "ASL", 3, some .absolute⟩
    let vars := Variable.merge [⟨"A", 0x1234⟩]
    (i.mode ≠ j.mode ∧
        ∃ operand,
          text i [0x0A] 0 ∅ vars = .ok operand ∧
            text j [0x0E, 0x34, 0x12] 1 ∅ vars =
              .ok operand) ↔
      Mistakable vars i j [0x0E, 0x34, 0x12] ∨
        Mistakable vars j i [0x0A] := by
  apply same_text_iff
  · intro v hv
    rw [List.mem_singleton.mp hv]
    exact ⟨"A=&1234", by decide +kernel⟩
  · decide +kernel
  · decide +kernel
  · rfl

/-
  The text need not tell the mode: here a variable that can
  be read has the name `A`, and both shifts are written as
  `ASL A`.
-/
theorem accumulator_mistaken :
    let i : Instruction := ⟨0x0A, "ASL", 1, some .accumulator⟩
    let j : Instruction := ⟨0x0E, "ASL", 3, some .absolute⟩
    let vars := Variable.merge [⟨"A", 0x1234⟩]
    Variable.parse "A=&1234" = .ok ⟨"A", 0x1234⟩ ∧
      i ∈ Instruction.table ∧
      j ∈ Instruction.table ∧
      i.documented = true ∧
      j.documented = true ∧
      i.mnemonic = j.mnemonic ∧
      text i [0x0A] 0 ∅ vars = .ok "A" ∧
      text j [0x0E, 0x34, 0x12] 1 ∅ vars = .ok "A" ∧
      i.mode ≠ j.mode := by
  decide +kernel

end Operand

end Beeb
