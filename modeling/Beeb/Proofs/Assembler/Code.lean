import Beeb.Proofs.Assembler.Encoding

/-
  Instructions listed as code: the text of every one of them
  is read as an operand that gives its bytes again.

  Main declarations:
    * `Placed.Covered`
    * `Assembler.Reassembles`
    * `Assembler.reassembles_of_code`
-/

------------------------------------------------------------
-- Operands By Their Mode
------------------------------------------------------------

namespace Beeb

namespace Assembler

/- An operand byte is written in the form of its mode. -/
theorem writes_ofMode_of_byte
    (mode : Mode)
    (opcode b : UInt8)
    (hSize : mode.size = 2) :
    ∃ operand,
      Operand.ofMode mode [opcode, b] [] = .ok operand ∧
        Writes operand.toList (Form.ofMode mode)
          (.number b.toNat) := by
  have hSpells :
      Spells (Operand.number 2 b.toNat).toList
        (.number b.toNat) :=
    spells_number 2 b.toNat (by omega)
  cases mode with
  | immediate =>
    refine ⟨_, rfl, ?_⟩
    rw [String.toList_append]
    exact .immediate hSpells
  | zeroPage => exact ⟨_, rfl, .direct hSpells⟩
  | zeroPageX =>
    refine ⟨_, rfl, ?_⟩
    rw [String.toList_append]
    exact .directX hSpells
  | zeroPageY =>
    refine ⟨_, rfl, ?_⟩
    rw [String.toList_append]
    exact .directY hSpells
  | indirectX =>
    refine ⟨_, rfl, ?_⟩
    rw [String.toList_append, String.toList_append]
    exact .indirectX hSpells
  | indirectY =>
    refine ⟨_, rfl, ?_⟩
    rw [String.toList_append, String.toList_append]
    exact .indirectY hSpells
  | _ => simp [Mode.size] at hSize

/- So is an operand word that no name can stand for. -/
theorem writes_ofMode_of_word
    (mode : Mode)
    (opcode low high : UInt8)
    (hSize : mode.size = 3)
    (hUnnamed : mode ≠ .absolute) :
    ∃ operand,
      Operand.ofMode mode [opcode, low, high] [] =
          .ok operand ∧
        Writes operand.toList (Form.ofMode mode)
          (.number (low.toNat + 256 * high.toNat)) := by
  have hSpells :
      Spells
        (Operand.number 4
          (low.toNat + 256 * high.toNat : Nat)).toList
        (.number (low.toNat + 256 * high.toNat)) :=
    spells_number 4 _ (by omega)
  cases mode with
  | absolute => exact absurd rfl hUnnamed
  | indirect =>
    refine ⟨_, rfl, ?_⟩
    rw [String.toList_append, String.toList_append]
    exact .indirect hSpells
  | absoluteX =>
    refine ⟨_, rfl, ?_⟩
    rw [String.toList_append]
    exact .directX hSpells
  | absoluteY =>
    refine ⟨_, rfl, ?_⟩
    rw [String.toList_append]
    exact .directY hSpells
  | _ => simp [Mode.size] at hSize

/- Operands below `&100` are the ones in the zero page. -/
theorem inZeroPage_some
    (n : Int) :
    inZeroPage (some n) = true ↔ 0 ≤ n ∧ n < 0x100 := by
  simp [inZeroPage]

/-
  An instruction is encoded in its own mode if its operand
  has the size of that mode.
-/
theorem yields_of_mode
    (a : Analysis)
    (address value : Int)
    (i : Instruction)
    (mode : Mode)
    (operand : Value)
    (first : UInt8)
    (rest : List UInt8)
    (hTable : i ∈ Instruction.table)
    (hDocumented : i.documented = true)
    (hFlow : i.flow ≠ .branch)
    (hMode : i.mode = some mode)
    (hOpcode : i.opcode = first.toNat)
    (hLength : ((first :: rest).length : Int) = i.length)
    (hValue : ∀ symbols,
      Defines a symbols →
        evaluate? symbols address operand = some value)
    (hShort :
      mode.size = 2 → 0 ≤ value ∧ value < 0x100)
    (hWide : mode.isAbsolute = true → 0x100 ≤ value)
    (hBytes : operandBytes? i address value = some rest) :
    Yields a address
      (.instruction i.mnemonic (Form.ofMode mode) operand)
      (first :: rest) := by
  apply yields_instruction a address value i _ operand first
    rest hOpcode hLength _ _ hBytes
  · intro symbols hDefines
    rw [hValue symbols hDefines]
    apply select?_of_mode i hTable mode _ hDocumented hFlow
      hMode
    · intro hForm
      apply (inZeroPage_some value).mpr
      apply hShort
      cases mode with
      | zeroPage | zeroPageX | zeroPageY => rfl
      | _ => simp [Form.ofMode, Form.modes] at hForm
    · intro hAbsolute
      have hOutside := hWide hAbsolute
      rw [← Bool.not_eq_true, inZeroPage_some]
      omega
  · intro symbols hDefines _
    exact hValue symbols hDefines

end Assembler

end Beeb

------------------------------------------------------------
-- Instructions
------------------------------------------------------------

namespace Beeb

/- An analysis lists the system symbols of a step. -/
structure Placed.Covered
    (a : Analysis)
    (p : Placed) : Prop where
  call : ∀ address, p.call? = some address → address ∈ a.calls
  vector : ∀ address,
    p.vector? = some address → address ∈ a.vectors

/- An analysis lists the system symbols of all its steps. -/
theorem Analysis.covered_of_mem
    (adjust : Int)
    (steps : List Placed)
    (p : Placed)
    (hMem : p ∈ steps) :
    p.Covered (ofSteps adjust steps) := by
  constructor
  · intro address hCall
    exact
      (mem_calls_iff adjust steps address).mpr
        ⟨p, hMem, hCall⟩
  · intro address hVector
    exact
      (mem_vectors_iff adjust steps address).mpr
        ⟨p, hMem, hVector⟩

namespace Assembler

/-
  An instruction at an address has an operand text, which is
  read as an operand that gives the bytes of the instruction.
-/
def Reassembles
    (a : Analysis)
    (address : Int)
    (i : Instruction)
    (data : List UInt8) : Prop :=
  ∃ operand form value,
    Operand.text i data address a.labels [] = .ok operand ∧
      Writes operand.toList form value ∧
      Yields a address (.instruction i.mnemonic form value)
        data

variable (a : Analysis)
variable (address : Int)
variable (i : Instruction)
variable (first : UInt8)
variable (rest : List UInt8)
variable (hTable : i ∈ Instruction.table)
variable (hOpcode : i.opcode = first.toNat)
variable (hLength : ((first :: rest).length : Int) = i.length)

include hTable hOpcode hLength

/- A branch, to a label or past a distance. -/
theorem reassembles_of_branch
    (hFlow : i.flow = .branch)
    (hNumbered : a.labels.Numbered) :
    Reassembles a address i (first :: rest) := by
  have hTwo := i.length_of_branch hTable hFlow
  match rest, hLength with
  | [b], hLength =>
    rcases hDistance :
        Instruction.displacement [first, b] with
      e | distance
    · simp [Instruction.displacement] at hDistance
    rcases exists_spells_branchTarget a address distance
        hNumbered with
      ⟨operand, value, hTarget, hSpells, hValue⟩
    refine
      ⟨operand, .direct, value, ?_, .direct hSpells, ?_⟩
    · rw [Operand.text_of_branch i _ address a.labels []
        distance hFlow hDistance, hTarget]
      rfl
    · apply yields_instruction a address (address + distance)
        i .direct value first [b] hOpcode hLength
      · intro symbols _
        exact select?_of_branch i hTable _ hFlow
      · intro symbols _
        exact hValue symbols
      · exact
          operandBytes?_of_branch i address first b distance
            hFlow hDistance
  | [], hLength | _ :: _ :: _, hLength =>
    simp only [List.length_cons, List.length_nil] at hLength
    omega

/- A jump, to an entry point, a label or a number. -/
theorem reassembles_of_jump
    (hDocumented : i.documented = true)
    (hFlow : i.flow = .jump)
    (hMode : i.mode = some .absolute)
    (hNumbered : a.labels.Numbered)
    (hCall : ∀ target,
      Instruction.operandWord (first :: rest) = .ok target →
        (Mos.callName? target).isSome = true →
          target ∈ a.calls) :
    Reassembles a address i (first :: rest) := by
  have hNoBranch : i.flow ≠ .branch := by simp [hFlow]
  rcases i.length_eq_size hTable hNoBranch with
    ⟨mode, hModeIs, hSize⟩
  rw [hMode] at hModeIs
  cases hModeIs
  rw [hSize] at hLength
  simp only [Mode.size] at hLength hSize
  rcases Instruction.operandWord_eq_ok (first :: rest)
      (by omega) with
    ⟨opcode, low, high, hData, hWord⟩
  rcases List.cons.inj hData with ⟨rfl, rfl⟩
  rcases exists_spells_jumpTarget a address _ (by omega)
      hNumbered (hCall _ hWord) with
    ⟨operand, value, hTarget, hSpells, hValue⟩
  refine ⟨operand, .direct, value, ?_, .direct hSpells, ?_⟩
  · rw [Operand.text_of_jump i _ address a.labels [] _ hFlow
      hMode hWord, hTarget]
    rfl
  · apply yields_instruction a address _ i .direct value first
      [low, high] hOpcode (by simp [hSize]) _ hValue
    · exact
        operandBytes?_of_word i address low high hNoBranch
          hSize
    · intro symbols _
      exact
        select?_of_jump i hTable _ hDocumented hFlow hMode

/- An instruction with no operand bytes. -/
theorem reassembles_of_none
    (mode : Mode)
    (hDocumented : i.documented = true)
    (hFlow : i.flow ≠ .branch)
    (hMode : i.mode = some mode)
    (hSize : mode.size = 1)
    (hLengthIs : i.length = mode.size) :
    Reassembles a address i (first :: rest) := by
  rw [hLengthIs, hSize, List.length_cons] at hLength
  have hEmpty : rest = [] :=
    List.eq_nil_of_length_eq_zero (by omega)
  subst hEmpty
  have hNoJump : ¬ (i.flow = .jump ∧ mode = .absolute) := by
    rintro ⟨-, rfl⟩
    simp [Mode.size] at hSize
  have hWrites :
      ∃ operand,
        Operand.ofMode mode [first] [] = .ok operand ∧
          Writes operand.toList (Form.ofMode mode)
            (.number 0) := by
    cases mode with
    | implicit => exact ⟨_, rfl, .absent⟩
    | accumulator => exact ⟨_, rfl, .accumulator⟩
    | _ => simp [Mode.size] at hSize
  rcases hWrites with ⟨operand, hOperand, hWrites⟩
  refine ⟨operand, _, _, ?_, hWrites, ?_⟩
  · rw [Operand.text_of_mode i [first] address a.labels []
      mode hFlow hMode hNoJump, hOperand]
    rfl
  · apply yields_of_mode a address 0 i mode _ first []
      hTable hDocumented hFlow hMode hOpcode
    · rw [hLengthIs, hSize]
      rfl
    · intro symbols _
      rfl
    · omega
    · intro hAbsolute
      have hThree := mode.size_of_isAbsolute hAbsolute
      omega
    · simp [operandBytes?, hFlow, hLengthIs, hSize]

/- An instruction with an operand byte. -/
theorem reassembles_of_byte
    (mode : Mode)
    (hDocumented : i.documented = true)
    (hFlow : i.flow ≠ .branch)
    (hMode : i.mode = some mode)
    (hSize : mode.size = 2)
    (hLengthIs : i.length = mode.size) :
    Reassembles a address i (first :: rest) := by
  have hTwo : i.length = 2 := by omega
  rcases Instruction.operandByte_eq_ok (first :: rest)
      (by omega) with
    ⟨opcode, b, hData, -⟩
  rcases List.cons.inj hData with ⟨rfl, rfl⟩
  have hNoJump : ¬ (i.flow = .jump ∧ mode = .absolute) := by
    rintro ⟨-, rfl⟩
    simp [Mode.size] at hSize
  have hByte := b.toNat_lt
  rcases writes_ofMode_of_byte mode first b hSize with
    ⟨operand, hOperand, hWrites⟩
  refine ⟨operand, _, _, ?_, hWrites, ?_⟩
  · rw [Operand.text_of_mode i _ address a.labels [] mode
      hFlow hMode hNoJump, hOperand]
    rfl
  · apply yields_of_mode a address b.toNat i mode _ first [b]
      hTable hDocumented hFlow hMode hOpcode hLength
    · intro symbols _
      rfl
    · omega
    · intro hAbsolute
      have hThree := mode.size_of_isAbsolute hAbsolute
      omega
    · exact operandBytes?_of_byte i address b hFlow hTwo

/-
  An instruction with an operand word that is not the target
  of a jump.
-/
theorem reassembles_of_word
    (mode : Mode)
    (hDocumented : i.documented = true)
    (hFlow : i.flow ≠ .branch)
    (hMode : i.mode = some mode)
    (hNoJump : ¬ (i.flow = .jump ∧ mode = .absolute))
    (hSize : mode.size = 3)
    (hLengthIs : i.length = mode.size)
    (hSame : i.reassembles (first :: rest) = .ok true)
    (hVector : ∀ word base,
      mode = .absolute →
        Instruction.operandWord (first :: rest) = .ok word →
          Mos.vectorBase? word = some base →
            base ∈ a.vectors) :
    Reassembles a address i (first :: rest) := by
  have hThree : i.length = 3 := by omega
  rcases Instruction.operandWord_eq_ok (first :: rest)
      (by omega) with
    ⟨opcode, low, high, hData, hWord⟩
  rcases List.cons.inj hData with ⟨rfl, rfl⟩
  have hWrites :
      ∃ operand value,
        Operand.ofMode mode [first, low, high] [] =
            .ok operand ∧
          Writes operand.toList (Form.ofMode mode) value ∧
          ∀ symbols,
            Defines a symbols →
              evaluate? symbols address value =
                some (low.toNat + 256 * high.toNat : Nat) := by
    by_cases hNamed : mode = .absolute
    · subst hNamed
      rcases exists_spells_absolute a address _ (by omega)
          (fun base => hVector _ base rfl hWord) with
        ⟨value, hSpells, hValue⟩
      exact ⟨_, value, rfl, .direct hSpells, hValue⟩
    · rcases writes_ofMode_of_word mode first low high hSize
          hNamed with
        ⟨operand, hOperand, hWrites⟩
      exact ⟨operand, _, hOperand, hWrites, fun _ _ => rfl⟩
  rcases hWrites with
    ⟨operand, value, hOperand, hWrites, hValue⟩
  refine ⟨operand, _, value, ?_, hWrites, ?_⟩
  · rw [Operand.text_of_mode i _ address a.labels [] mode
      hFlow hMode hNoJump, hOperand]
    rfl
  · apply yields_of_mode a address _ i mode value first
      [low, high] hTable hDocumented hFlow hMode hOpcode
      hLength hValue
    · omega
    · intro hAbsolute
      simp only [Instruction.reassembles, hMode, hAbsolute,
        if_true, hWord, Except.map, Except.ok.injEq,
        Bool.not_eq_true', decide_eq_false_iff_not,
        Int.not_lt] at hSame
      exact hSame
    · exact
        operandBytes?_of_word i address low high hFlow hThree

end Assembler

end Beeb

------------------------------------------------------------
-- Steps Of Code
------------------------------------------------------------

namespace Beeb

namespace Placed

variable (p : Placed)
variable (i : Instruction)
variable (word : Int)
variable (hComplete : p.step.complete? = some i)
variable (hMode : i.mode = some .absolute)
variable
  (hWord : Instruction.operandWord p.step.data = .ok word)

include hComplete hMode hWord

/- A jump to an address has it for its target. -/
theorem target?_of_jump
    (adjust : Int)
    (hFlow : i.flow = .jump) :
    p.target? adjust = some word := by
  simp [target?, word?, hComplete, hFlow, hMode, hWord,
    Except.toOption]

/- A jump to an entry point calls it. -/
theorem call?_of_jump
    (hFlow : i.flow = .jump)
    (hNamed : (Mos.callName? word).isSome = true) :
    p.call? = some word := by
  simp [call?, word?, hComplete, hFlow, hMode, hWord, hNamed,
    Except.toOption]

/- An absolute operand refers to the vector that it is in. -/
theorem vector?_of_absolute
    (hFlow : i.flow = .neither) :
    p.vector? = Mos.vectorBase? word := by
  simp [vector?, word?, hComplete, hFlow, hMode, hWord,
    Except.toOption]

end Placed

namespace Assembler

/- Every step that is listed as code reassembles. -/
theorem reassembles_of_code
    (a : Analysis)
    (address : Int)
    (p : Placed)
    (i : Instruction)
    (hFaithful : p.step.Faithful)
    (hCode : p.step.verdict = .code i)
    (hNumbered : a.labels.Numbered)
    (hCovered : p.Covered a) :
    Reassembles a address i p.step.data := by
  rcases hFaithful.opening with
    ⟨first, rest, hData, hInstruction⟩
  rcases hFaithful.code i hCode with
    ⟨hLength, hDocumented, hSame⟩
  have hComplete := p.step.complete?_of_code i hFaithful hCode
  rw [hCode] at hInstruction
  rcases (Instruction.ofOpcode?_eq_some_iff _ i).mp
      hInstruction.symm with
    ⟨hTable, hOpcode⟩
  rw [Step.length, hData] at hLength
  rw [hData] at hSame ⊢
  by_cases hBranch : i.flow = .branch
  · exact
      reassembles_of_branch a address i first rest hTable
        hOpcode hLength hBranch hNumbered
  rcases i.length_eq_size hTable hBranch with
    ⟨mode, hMode, hSize⟩
  by_cases hJump : i.flow = .jump ∧ mode = .absolute
  · rcases hJump with ⟨hFlow, rfl⟩
    apply reassembles_of_jump a address i first rest hTable
      hOpcode hLength hDocumented hFlow hMode hNumbered
    intro target hWord hNamed
    rw [← hData] at hWord
    apply hCovered.call
    exact
      p.call?_of_jump i target hComplete hMode hWord hFlow
        hNamed
  have hVector :
      ∀ word base,
        mode = .absolute →
          Instruction.operandWord (first :: rest) =
              .ok word →
            Mos.vectorBase? word = some base →
              base ∈ a.vectors := by
    rintro word base rfl hWord hBase
    have hFlow : i.flow = .neither := by
      cases hFlowIs : i.flow with
      | branch => exact absurd hFlowIs hBranch
      | jump => exact absurd ⟨hFlowIs, rfl⟩ hJump
      | neither => rfl
    rw [← hData] at hWord
    apply hCovered.vector
    rw [← hBase]
    exact
      p.vector?_of_absolute i word hComplete hMode hWord hFlow
  cases mode with
  | implicit | accumulator =>
    exact
      reassembles_of_none a address i first rest hTable
        hOpcode hLength _ hDocumented hBranch hMode rfl hSize
  | immediate
  | zeroPage
  | zeroPageX
  | zeroPageY
  | indirectX
  | indirectY =>
    exact
      reassembles_of_byte a address i first rest hTable
        hOpcode hLength _ hDocumented hBranch hMode rfl hSize
  | absolute | indirect | absoluteX | absoluteY =>
    exact
      reassembles_of_word a address i first rest hTable
        hOpcode hLength _ hDocumented hBranch hMode hJump rfl
        hSize hSame hVector

end Assembler

end Beeb
