import Beeb.Proofs.Assembler.Code
import Beeb.Proofs.Listing.Content

/-
  Names in a listing: every name that an operand shows is
  defined in the same listing, with the value that the bytes
  of the instruction encode, and no name is defined twice
  unless the user takes one that the listing needs.

  Main declarations:
    * `Instruction.encoded?_of_branch`
    * `Instruction.encoded?_of_absolute`
    * `Listing.Tells`
    * `Disassembly.tells_text`
    * `Disassembly.operands_resolve`
    * `Disassembly.nodup_names_iff`
-/

------------------------------------------------------------
-- What The Bytes Encode
------------------------------------------------------------

namespace Beeb

/- A byte as a signed number. -/
theorem toInt_toInt8
    (b : UInt8) :
    b.toInt8.toInt =
      if b.toNat > 127 then (b.toNat : Int) - 256
      else b.toNat := by
  have hByte := b.toNat_lt
  have hMod : b.toInt8.toInt = (b.toNat : Int).bmod 256 :=
    BitVec.toInt_eq_toNat_bmod b.toBitVec
  rw [hMod, Int.bmod_def]
  split <;> split <;> omega

namespace Instruction

/- A branch encodes where its displacement leads. -/
theorem encoded?_of_branch
    (i : Instruction)
    (address : Int)
    (data : List UInt8)
    (hTable : i ∈ table)
    (hFlow : i.flow = .branch)
    (hLength : (data.length : Int) = i.length) :
    ∃ opcode b : UInt8,
      data = [opcode, b] ∧
        displacement data = .ok (b.toInt8.toInt + 2) ∧
        i.encoded? address data =
          some (address + (b.toInt8.toInt + 2)) := by
  have hTwo := i.length_of_branch hTable hFlow
  rcases operandByte_eq_ok data (by omega) with
    ⟨opcode, b, rfl, -⟩
  refine ⟨opcode, b, rfl, ?_, by simp [encoded?, hFlow]⟩
  rw [toInt_toInt8, displacement]
  congr 1
  split <;> omega

/- An absolute operand is encoded as a word. -/
theorem encoded?_of_absolute
    (i : Instruction)
    (address : Int)
    (data : List UInt8)
    (hTable : i ∈ table)
    (hMode : i.mode = some .absolute)
    (hLength : (data.length : Int) = i.length) :
    ∃ opcode low high : UInt8,
      data = [opcode, low, high] ∧
        operandWord data =
          .ok (low.toNat + 256 * high.toNat) ∧
        i.encoded? address data =
          some (low.toNat + 256 * high.toNat : Int) := by
  have hNoBranch :=
    i.flow_of_isAbsolute .absolute hTable hMode rfl
  rcases i.length_eq_size hTable hNoBranch with
    ⟨mode, hIs, hSize⟩
  rw [hMode] at hIs
  cases hIs
  simp only [Mode.size] at hSize
  rcases operandWord_eq_ok data (by omega) with
    ⟨opcode, low, high, rfl, hWord⟩
  exact
    ⟨opcode, low, high, rfl, hWord, by simp [encoded?, hMode]⟩

end Instruction

end Beeb

------------------------------------------------------------
-- Operands Without A Name
------------------------------------------------------------

namespace Beeb

namespace Listing

/- A word is written in four hexadecimal digits. -/
theorem isWord_number
    (word : Int)
    (hPositive : 0 ≤ word)
    (hWord : word < 0x10000) :
    isWord (Operand.number 4 word) = true := by
  have hSmall : word.toNat < 0x10000 := by omega
  have hLength :=
    Numeral.length_hexDigits 4 word.toNat (by decide) hSmall
  rw [isWord, Operand.toList_number 4 word hPositive]
  simp only [hLength, decide_true, Bool.true_and]
  exact (Numeral.value_hexDigits 4 word.toNat).2

/- A distance has a sign and decimal digits. -/
theorem isDistance_relative
    (distance : Int) :
    isDistance (Operand.relative distance) = true := by
  have hDigits :=
    List.all_eq_true.mpr
      (Numeral.value_decimalDigits distance.natAbs).2
  have hSome :
      (Nat.toDigits 10 distance.natAbs).isEmpty = false := by
    simp [Nat.toDigits_ne_nil]
  rw [isDistance, Assembler.toList_relative]
  simp only [hDigits, hSome]
  split
  · rfl
  · rfl

/-
  An operand tells its value: it is a number, a distance, or
  names a symbol that has the value.
-/
def Tells
    (symbols : Assembler.Symbols)
    (operand : String)
    (value : Int) : Prop :=
  isWord operand = true ∨ isDistance operand = true ∨
    Resolves symbols operand value

end Listing

end Beeb

------------------------------------------------------------
-- Symbols That Operands Need
------------------------------------------------------------

namespace Beeb

namespace Disassembly

open Assembler Listing

variable (d : Disassembly)
variable (hShort : ∀ v ∈ d.vars, ¬ v.Overlong)
variable
  (hNames : ∀ v ∈ d.vars, Variable.isName v.name = true)

include hShort hNames

/- A listing defines the system symbols of its steps. -/
theorem system_mem_symbols
    (names : Mos.Names)
    (address : Int)
    (name : String)
    (hName : names.find? address = some name)
    (hUsed :
      (names = Mos.calls ∧ address ∈ d.analysis.calls) ∨
        (names = Mos.vectors ∧
          address ∈ d.analysis.vectors)) :
    Variable.isName name = true ∧
      (name, address) ∈ symbols d.read.lines := by
  have hEntry := names.mem_of_find? address name hName
  rw [d.symbols_read hShort hNames, headerSymbols]
  rcases hUsed with ⟨rfl, hMem⟩ | ⟨rfl, hMem⟩
  · constructor
    · exact
        (isName_of_mem_system _
          (List.mem_append_left _ hEntry)).1
    · have hSymbol :=
        mem_systemSymbols _ _ address name hMem hName
      simp [hSymbol]
  · constructor
    · exact
        (isName_of_mem_system _
          (List.mem_append_right _ hEntry)).1
    · have hSymbol :=
        mem_systemSymbols _ _ address name hMem hName
      simp [hSymbol]

/- It defines every label at the address of the label. -/
theorem label_mem_symbols
    (address : Int)
    (label : Label)
    (hLabel : d.analysis.labels[address]? = some label) :
    ∃ name,
      label.name = .ok name ∧
        Variable.isName name = true ∧
        (name, address) ∈ symbols d.read.lines := by
  rcases (Analysis.getElem?_labels d.window.adjust d.steps
      _ _).mp hLabel with
    ⟨index, hIndex, rfl⟩
  refine ⟨_, rfl, isName_label index, ?_⟩
  rw [d.symbols_read hShort hNames]
  apply List.mem_append_right
  exact
    mem_labelSymbols d.window.adjust d.steps index address
      hIndex

/- It defines every variable. -/
theorem variable_mem_symbols
    (v : Variable)
    (hMem : v ∈ d.vars) :
    (v.name, v.value) ∈ symbols d.read.lines := by
  rw [d.symbols_read hShort hNames]
  apply List.mem_append_left
  apply List.mem_append_right
  exact List.mem_map.mpr ⟨v, hMem, rfl⟩

end Disassembly

end Beeb

------------------------------------------------------------
-- Operands That Name Symbols
------------------------------------------------------------

namespace Beeb

namespace Disassembly

open Assembler Listing

variable (d : Disassembly)
variable (hShort : ∀ v ∈ d.vars, ¬ v.Overlong)
variable
  (hNames : ∀ v ∈ d.vars, Variable.isName v.name = true)

include hShort hNames

/- The operand of a branch tells its target. -/
theorem tells_branchTarget
    (address distance : Int) :
    ∃ operand,
      Operand.branchTarget address distance
          d.analysis.labels = .ok operand ∧
        Tells (symbols d.read.lines) operand
          (address + distance) := by
  unfold Operand.branchTarget
  cases hLabel : d.analysis.labels[address + distance]? with
  | none =>
    exact ⟨_, rfl, .inr (.inl (isDistance_relative _))⟩
  | some label =>
    rcases d.label_mem_symbols hShort hNames _ label hLabel
      with ⟨name, hName, hIs, hDefined⟩
    exact ⟨name, hName, .inr (.inr (.exact hIs hDefined))⟩

/- The operand of a jump tells its target. -/
theorem tells_jumpTarget
    (target : Int)
    (hPositive : 0 ≤ target)
    (hWord : target < 0x10000)
    (hCall :
      (Mos.callName? target).isSome = true →
        target ∈ d.analysis.calls) :
    ∃ operand,
      Operand.jumpTarget target d.analysis.labels =
          .ok operand ∧
        Tells (symbols d.read.lines) operand target := by
  unfold Operand.jumpTarget
  cases hName : Mos.callName? target with
  | some name =>
    rcases d.system_mem_symbols hShort hNames Mos.calls
        target name hName
        (.inl ⟨rfl, hCall (by simp [hName])⟩) with
      ⟨hIs, hDefined⟩
    exact ⟨name, rfl, .inr (.inr (.exact hIs hDefined))⟩
  | none =>
    cases hLabel : d.analysis.labels[target]? with
    | none =>
      exact
        ⟨_, rfl, .inl (isWord_number _ hPositive hWord)⟩
    | some label =>
      rcases d.label_mem_symbols hShort hNames _ label hLabel
        with ⟨name, hName, hIs, hDefined⟩
      exact ⟨name, hName, .inr (.inr (.exact hIs hDefined))⟩

/- Any other absolute operand tells its word. -/
theorem tells_absolute
    (word : Int)
    (hPositive : 0 ≤ word)
    (hWord : word < 0x10000)
    (hVector : ∀ base,
      Mos.vectorBase? word = some base →
        base ∈ d.analysis.vectors) :
    Tells (symbols d.read.lines)
      (Operand.absolute word d.vars) word := by
  unfold Operand.absolute
  cases hVariable : Variable.find? d.vars word with
  | some v =>
    have hValue : v.value = word := by
      simpa using List.find?_some hVariable
    have hMem := List.mem_of_find?_eq_some hVariable
    have hDefined :=
      d.variable_mem_symbols hShort hNames v hMem
    rw [hValue] at hDefined
    exact .inr (.inr (.exact (hNames v hMem) hDefined))
  | none =>
    cases hName : Mos.vectorName? word with
    | some name =>
      have hMem :=
        hVector word (by simp [Mos.vectorBase?, hName])
      rcases d.system_mem_symbols hShort hNames Mos.vectors
          word name hName (.inr ⟨rfl, hMem⟩) with
        ⟨hIs, hDefined⟩
      exact .inr (.inr (.exact hIs hDefined))
    | none =>
      cases hBase : Mos.vectorName? (Mos.evenBase word) with
      | none => exact .inl (isWord_number _ hPositive hWord)
      | some name =>
        have hMem :=
          hVector (Mos.evenBase word)
            (by simp [Mos.vectorBase?, hName, hBase])
        rcases d.system_mem_symbols hShort hNames Mos.vectors
            _ name hBase (.inr ⟨rfl, hMem⟩) with
          ⟨hIs, hDefined⟩
        have hNext := Resolves.next hIs hDefined
        rw [Mos.evenBase_add_one word name hName hBase]
          at hNext
        exact .inr (.inr hNext)

/-
  A step of code with an address in its operand has an
  operand text, which tells the address that its bytes
  encode.
-/
theorem tells_text
    (p : Placed)
    (i : Instruction)
    (hMem : p ∈ d.steps)
    (hCode : p.step.verdict = .code i)
    (hRefers :
      i.flow = .branch ∨ i.mode = some .absolute) :
    ∃ operand target,
      i.encoded? (p.address d.window.adjust) p.step.data =
          some target ∧
        Operand.text i p.step.data
            (p.address d.window.adjust) d.analysis.labels
            d.vars = .ok operand ∧
        Tells (symbols d.read.lines) operand target := by
  have hFaithful := d.faithful_of_mem_steps p hMem
  have hCovered : p.Covered d.analysis :=
    Analysis.covered_of_mem d.window.adjust d.steps p hMem
  have hComplete := p.step.complete?_of_code i hFaithful hCode
  rcases mem_table_of_code p.step i hFaithful hCode with
    ⟨hTable, hLength⟩
  by_cases hBranch : i.flow = .branch
  · rcases i.encoded?_of_branch (p.address d.window.adjust)
        p.step.data hTable hBranch hLength with
      ⟨opcode, b, -, hDistance, hTarget⟩
    rcases d.tells_branchTarget hShort hNames
        (p.address d.window.adjust) (b.toInt8.toInt + 2) with
      ⟨operand, hOperand, hTells⟩
    refine ⟨operand, _, hTarget, ?_, hTells⟩
    rw [Operand.text_of_branch i _ _ _ _ _ hBranch hDistance,
      hOperand]
    rfl
  have hMode : i.mode = some .absolute :=
    hRefers.resolve_left hBranch
  rcases i.encoded?_of_absolute (p.address d.window.adjust)
      p.step.data hTable hMode hLength with
    ⟨opcode, low, high, -, hWord, hTarget⟩
  rcases Instruction.word_bounds low high with
    ⟨hPositive, hShortWord⟩
  generalize
    (low.toNat + 256 * high.toNat : Int) = word at *
  by_cases hJump : i.flow = .jump
  · have hCall :
        (Mos.callName? word).isSome = true →
          word ∈ d.analysis.calls :=
      fun hNamed =>
        hCovered.call word
          (p.call?_of_jump i word hComplete hMode hWord hJump
            hNamed)
    rcases d.tells_jumpTarget hShort hNames word hPositive
        hShortWord hCall with
      ⟨operand, hOperand, hTells⟩
    refine ⟨operand, word, hTarget, ?_, hTells⟩
    rw [Operand.text_of_jump i _ _ _ _ word hJump hMode hWord,
      hOperand]
    rfl
  · have hFlow : i.flow = .neither := by
      cases hFlowIs : i.flow with
      | branch => exact absurd hFlowIs hBranch
      | jump => exact absurd hFlowIs hJump
      | neither => rfl
    have hVector :
        ∀ base,
          Mos.vectorBase? word = some base →
            base ∈ d.analysis.vectors := by
      intro base hBase
      apply hCovered.vector
      rw [← hBase]
      exact
        p.vector?_of_absolute i word hComplete hMode hWord
          hFlow
    refine
      ⟨_, word, hTarget, ?_,
        d.tells_absolute hShort hNames word hPositive
          hShortWord hVector⟩
    rw [Operand.text_of_mode i _ _ _ _ .absolute hBranch hMode
      (fun hIs => hJump hIs.1)]
    simp only [Operand.ofMode, hWord]
    rfl

end Disassembly

end Beeb

------------------------------------------------------------
-- Defined Names
------------------------------------------------------------

namespace Beeb

namespace Disassembly

open Listing

/-
  Every name in a listing is defined there. The variables
  are any that were read from definitions and can be
  written. The line of a branch, of an absolute jump, and of
  any other instruction with an absolute operand shows one
  operand. If that is no number and no distance, then it is
  a name, or a name and `+1`, and the listing defines the
  name with the value that makes up the address which the
  bytes of the instruction encode.
-/
theorem operands_resolve
    (d : Disassembly)
    (hParsed : ∀ v ∈ d.vars,
      ∃ definition, Variable.parse definition = .ok v)
    (hShort : ∀ v ∈ d.vars, ¬ v.Overlong)
    (p : Placed)
    (i : Instruction)
    (hMem : p ∈ d.steps)
    (hCode : p.step.verdict = .code i)
    (hRefers :
      i.flow = .branch ∨ i.mode = some .absolute) :
    ∃ operand target,
      d.read.failure = none ∧
        i.encoded? (p.address d.window.adjust) p.step.data =
          some target ∧
        (∀ text,
          .instruction i.mnemonic text
                (p.address d.window.adjust) p.step.data ∈
              d.read.lines ↔
            text = operand) ∧
        (isWord operand = false →
          isDistance operand = false →
            Resolves (symbols d.read.lines) operand
              target) := by
  have hNames := Variable.isName_of_parsed d.vars hParsed
  rcases d.tells_text hShort hNames p i hMem hCode hRefers
    with ⟨operand, target, hTarget, hText, hTells⟩
  refine
    ⟨operand, target, (d.read_eq hShort).2, hTarget,
      fun text =>
        d.instruction_mem_read_iff hShort p i operand text
          hMem hCode hText,
      ?_⟩
  intro hNoWord hNoDistance
  rcases hTells with hIsWord | hIsDistance | hResolves
  · rw [hNoWord] at hIsWord
    cases hIsWord
  · rw [hNoDistance] at hIsDistance
    cases hIsDistance
  · exact hResolves

/- A store into the second byte of a vector. -/
theorem operands_resolve_vector :
    ∃ hFits : Window.validate ⟨0, 3, 0x1900⟩ 3 = .ok (),
      let d : Disassembly :=
        ⟨#[0x8D, 0x03, 0x02], ⟨0, 3, 0x1900⟩, [],
          [⟨"screen", 0x3000⟩], hFits⟩
      ∃ operand,
        (∀ text,
          .instruction "STA" text 0x1900 [0x8D, 0x03, 0x02] ∈
              d.read.lines ↔
            text = operand) ∧
          (isWord operand = false →
            isDistance operand = false →
              Resolves (symbols d.read.lines) operand
                0x203) := by
  let d : Disassembly :=
    ⟨#[0x8D, 0x03, 0x02], ⟨0, 3, 0x1900⟩, [],
      [⟨"screen", 0x3000⟩], rfl⟩
  let i : Instruction := ⟨0x8D, "STA", 3, some .absolute⟩
  have hMem :
      ⟨0, .code i, [0x8D, 0x03, 0x02]⟩ ∈ d.steps := by
    decide +kernel
  have hParsed :
      ∀ v ∈ d.vars,
        ∃ definition, Variable.parse definition = .ok v := by
    intro v hv
    rw [List.mem_singleton.mp hv]
    exact ⟨"screen=&3000", by decide +kernel⟩
  have hShort : ∀ v ∈ d.vars, ¬ v.Overlong := by
    intro v hv
    rw [List.mem_singleton.mp hv]
    unfold Variable.Overlong
    decide +kernel
  rcases d.operands_resolve hParsed hShort _ i hMem rfl
      (.inr rfl) with
    ⟨operand, target, -, hTarget, hShown, hResolves⟩
  cases hTarget
  exact ⟨rfl, operand, hShown, hResolves⟩

end Disassembly

end Beeb

------------------------------------------------------------
-- Different Names
------------------------------------------------------------

namespace Beeb

/-
  Names that are added in the middle of others are different
  from these if all of them are different.
-/
theorem nodup_append_middle_iff
    {α : Type}
    (before middle after : List α)
    (hOuter : (before ++ after).Nodup)
    (hInner : middle.Nodup) :
    (before ++ middle ++ after).Nodup ↔
      ∀ x ∈ middle, x ∉ before ++ after := by
  have hSwap :
      List.Perm (before ++ middle ++ after)
        (middle ++ (before ++ after)) := by
    rw [← List.append_assoc]
    exact List.perm_append_comm.append_right after
  rw [hSwap.nodup_iff, List.nodup_append]
  constructor
  · rintro ⟨-, -, hApart⟩ x hx hOther
    exact hApart x hx x hOther rfl
  · intro hApart
    refine ⟨hInner, hOuter, ?_⟩
    rintro x hx y hy rfl
    exact hApart x hx hy

namespace Disassembly

open Assembler Listing

/-
  The system symbols and the labels of a listing have
  different names, and so have its variables if they were
  read from definitions and merged. No name of the listing
  is defined twice if and only if no variable has the name
  of a system symbol or of a label that the listing defines.
-/
theorem nodup_names_iff
    (d : Disassembly)
    (vars : List Variable)
    (hMerged : d.vars = Variable.merge vars)
    (hParsed : ∀ v ∈ vars,
      ∃ definition, Variable.parse definition = .ok v) :
    let lines := d.read.lines
    (systemNames lines ++ labelNames lines).Nodup ∧
      (d.vars.map Variable.name).Nodup ∧
      (d.read.failure = none →
        headerNames lines =
          systemNames lines ++ d.vars.map Variable.name) ∧
      ((names lines).Nodup ↔
        ∀ v ∈ d.vars,
          v.name ∉ systemNames lines ++ labelNames lines) := by
  intro lines
  have hVars : (d.vars.map Variable.name).Nodup := by
    rw [hMerged]
    exact Variable.nodup_merge vars
  by_cases hLong : ∃ v ∈ d.vars, v.Overlong
  · rcases d.read_of_overlong hLong with ⟨hFailure, hLines⟩
    have hNone : lines = [] := hLines
    rw [hNone]
    refine ⟨by simp [systemNames, labelNames], hVars, ?_, ?_⟩
    · intro hWritten
      rw [hWritten] at hFailure
      cases hFailure
    · simp [names, headerNames, systemNames, labelNames]
  have hShort : ∀ v ∈ d.vars, ¬ v.Overlong :=
    fun v hv hOverlong => hLong ⟨v, hv, hOverlong⟩
  have hNames :
      ∀ v ∈ d.vars, Variable.isName v.name = true := by
    intro v hv
    rw [hMerged] at hv
    exact
      Variable.isName_of_parsed vars hParsed v
        (Variable.mem_of_mem_merge vars v hv)
  have hSystem := d.systemNames_read hShort hNames
  have hHeader := d.headerNames_read hShort hNames
  have hOuter :
      (systemNames lines ++ labelNames lines).Nodup := by
    rw [hSystem, d.labelNames_read hShort, ← List.map_append]
    exact
      nodup_symbols d.window.adjust d.steps d.steps_ascending
  rw [← hSystem] at hHeader
  refine ⟨hOuter, hVars, fun _ => hHeader, ?_⟩
  rw [names, hHeader, nodup_append_middle_iff _ _ _ hOuter
    hVars]
  simp

/- A variable that takes no name of a call beside it. -/
theorem nodup_names_iff_call :
    ∃ hFits : Window.validate ⟨0, 3, 0⟩ 3 = .ok (),
      let d : Disassembly :=
        ⟨#[0x20, 0xE7, 0xFF], ⟨0, 3, 0⟩, [],
          Variable.merge [⟨"screen", 0x3000⟩], hFits⟩
      (names d.read.lines).Nodup ↔
        ∀ v ∈ d.vars,
          v.name ∉
            systemNames d.read.lines ++
              labelNames d.read.lines := by
  refine ⟨rfl, ?_⟩
  exact
    (nodup_names_iff
      ⟨#[0x20, 0xE7, 0xFF], ⟨0, 3, 0⟩, [],
        Variable.merge [⟨"screen", 0x3000⟩], rfl⟩
      [⟨"screen", 0x3000⟩] rfl
      (by
        intro v hv
        rw [List.mem_singleton.mp hv]
        exact ⟨"screen=&3000", by decide +kernel⟩)).2.2.2

/-
  Names can be defined twice: here by a variable that has
  the name of the call in the program.
-/
theorem name_defined_twice :
    let d : Disassembly :=
      ⟨#[0x20, 0xE7, 0xFF], ⟨0, 3, 0⟩, [],
        Variable.merge [⟨"OSNEWL", 0xFFE7⟩], rfl⟩
    Variable.parse "OSNEWL=&FFE7" =
        .ok ⟨"OSNEWL", 0xFFE7⟩ ∧
      names d.read.lines = ["OSNEWL", "OSNEWL"] ∧
      ¬ (names d.read.lines).Nodup := by
  decide +kernel

end Disassembly

end Beeb
