import Beeb.Assembler.Output
import Beeb.Proofs.Assembler.Operand
import Beeb.Proofs.Operand
import Beeb.Proofs.Analysis
import Beeb.Proofs.Step

/-
  The assembler chooses the instruction that was disassembled
  and gives it the operand bytes that it had.

  Main declarations:
    * `Assembler.select?_of_mode`
    * `Assembler.Defines`
    * `Assembler.Places`
    * `Assembler.Yields`
    * `Assembler.yields_instruction`
-/

------------------------------------------------------------
-- Choosing The Same Instruction
------------------------------------------------------------

namespace Beeb

namespace Assembler

/- The form in which a mode is written. -/
def Form.ofMode : Mode → Form
| .implicit => .absent
| .accumulator => .accumulator
| .immediate => .immediate
| .absolute | .zeroPage => .direct
| .absoluteX | .zeroPageX => .directX
| .absoluteY | .zeroPageY => .directY
| .indirect => .indirect
| .indirectX => .indirectX
| .indirectY => .indirectY

variable (i : Instruction)

/- A mnemonic that is no branch stands for none. -/
theorem findBranch?_of_not_branch
    (hFlow : i.flow ≠ .branch) :
    findBranch? i.mnemonic = none := by
  rw [findBranch?, List.find?_eq_none]
  intro j hMem hSame
  simp only [Bool.and_eq_true, decide_eq_true_eq] at hSame
  rcases hSame with ⟨hMnemonic, hBranch⟩
  rw [Instruction.flow, hMnemonic] at hBranch
  exact hFlow hBranch

variable (hTable : i ∈ Instruction.table)

include hTable

/- The mnemonic of a branch stands for it alone. -/
theorem findBranch?_of_branch
    (hFlow : i.flow = .branch) :
    findBranch? i.mnemonic = some i := by
  have hAll :
      ∀ i ∈ Instruction.table,
        i.flow = .branch →
          findBranch? i.mnemonic = some i := by
    decide +kernel
  exact hAll i hTable hFlow

/- A mnemonic and a mode stand for one instruction. -/
theorem find?_of_mode
    (mode : Mode)
    (hDocumented : i.documented = true)
    (hFlow : i.flow ≠ .branch)
    (hMode : i.mode = some mode) :
    find? i.mnemonic mode = some i := by
  have hAll :
      ∀ i ∈ Instruction.table,
        i.documented = true →
          i.flow ≠ .branch →
            i.mode.bind (find? i.mnemonic) = some i := by
    decide +kernel
  simpa [hMode] using hAll i hTable hDocumented hFlow

/- Jumps do not go to the zero page. -/
theorem find?_of_jump
    (hFlow : i.flow = .jump) :
    find? i.mnemonic .zeroPage = none := by
  have hAll :
      ∀ i ∈ Instruction.table,
        i.flow = .jump →
          find? i.mnemonic .zeroPage = none := by
    decide +kernel
  exact hAll i hTable hFlow

/- A branch is chosen whatever its target is. -/
theorem select?_of_branch
    (value : Option Int)
    (hFlow : i.flow = .branch) :
    select? i.mnemonic .direct value = some i := by
  rw [select?, findBranch?_of_branch i hTable hFlow]
  rfl

/- So is a jump. -/
theorem select?_of_jump
    (value : Option Int)
    (hDocumented : i.documented = true)
    (hFlow : i.flow = .jump)
    (hMode : i.mode = some .absolute) :
    select? i.mnemonic .direct value = some i := by
  have hNoBranch : i.flow ≠ .branch := by simp [hFlow]
  rw [select?,
    findBranch?_of_not_branch i hNoBranch]
  simp [Form.modes, find?_of_jump i hTable hFlow,
    find?_of_mode i hTable .absolute hDocumented hNoBranch
      hMode]

/-
  Any other instruction is chosen if its operand lies in the
  zero page when its mode says so, and not when its mode is
  one that might be shortened.
-/
theorem select?_of_mode
    (mode : Mode)
    (value : Option Int)
    (hDocumented : i.documented = true)
    (hFlow : i.flow ≠ .branch)
    (hMode : i.mode = some mode)
    (hShort :
      (Form.ofMode mode).modes.1 = some mode →
        inZeroPage value = true)
    (hWide :
      mode.isAbsolute = true → inZeroPage value = false) :
    select? i.mnemonic (Form.ofMode mode) value = some i := by
  have hFind :=
    find?_of_mode i hTable mode hDocumented hFlow hMode
  rw [select?, findBranch?_of_not_branch i hFlow]
  cases mode with
  | implicit
  | accumulator
  | immediate
  | indirect
  | indirectX
  | indirectY => simp [Form.ofMode, Form.modes, hFind]
  | zeroPage | zeroPageX | zeroPageY =>
    have hInside := hShort rfl
    simp [Form.ofMode, Form.modes, hFind, hInside]
  | absolute | absoluteX | absoluteY =>
    have hOutside := hWide rfl
    simp [Form.ofMode, Form.modes, hFind, hOutside]

end Assembler

end Beeb

------------------------------------------------------------
-- Known Symbols
------------------------------------------------------------

namespace Beeb

namespace Assembler

/- Symbols give the system names in use their addresses. -/
structure Defines
    (a : Analysis)
    (symbols : Symbols) : Prop where
  calls : ∀ address ∈ a.calls, ∀ name,
    Mos.callName? address = some name →
      symbols.lookup name = some address
  vectors : ∀ address ∈ a.vectors, ∀ name,
    Mos.vectorName? address = some name →
      symbols.lookup name = some address

/- Symbols give every label its address. -/
def Places
    (labels : Labels)
    (symbols : Symbols) : Prop :=
  ∀ (address : Int) (label : Label) (name : String),
    labels[address]? = some label →
      label.name = .ok name →
        symbols.lookup name = some address

/-
  A statement at an address gives bytes. How many they are
  is known before the labels are.
-/
structure Yields
    (a : Analysis)
    (address : Int)
    (statement : Statement)
    (data : List UInt8) : Prop where
  size : ∀ symbols,
    Defines a symbols →
      size? symbols address statement =
        some (data.length : Int)
  bytes : ∀ symbols,
    Defines a symbols →
      Places a.labels symbols →
        encode? symbols address statement = some data

/-
  An instruction is encoded if it is chosen before and after
  the labels are known, and its operand comes out right.
-/
theorem yields_instruction
    (a : Analysis)
    (address value : Int)
    (i : Instruction)
    (form : Form)
    (operand : Value)
    (first : UInt8)
    (rest : List UInt8)
    (hOpcode : i.opcode = first.toNat)
    (hLength : ((first :: rest).length : Int) = i.length)
    (hChosen : ∀ symbols,
      Defines a symbols →
        select? i.mnemonic form
          (evaluate? symbols address operand) = some i)
    (hValue : ∀ symbols,
      Defines a symbols →
        Places a.labels symbols →
          evaluate? symbols address operand = some value)
    (hBytes : operandBytes? i address value = some rest) :
    Yields a address
      (.instruction i.mnemonic form operand)
      (first :: rest) := by
  constructor
  · intro symbols hDefines
    rw [size?, hChosen symbols hDefines, hLength]
    rfl
  · intro symbols hDefines hPlaces
    have hSelect := hChosen symbols hDefines
    rw [hValue symbols hDefines hPlaces] at hSelect
    simp only [encode?, hValue symbols hDefines hPlaces,
      Option.bind_eq_bind, Option.bind_some, hSelect, hBytes,
      hOpcode, Int.toNat_natCast, UInt8.ofNat_toNat]
    rfl

end Assembler

end Beeb

------------------------------------------------------------
-- Operand Bytes
------------------------------------------------------------

namespace Beeb

namespace Assembler

variable (i : Instruction)
variable (address : Int)

/- The operand byte of a branch tells its target. -/
theorem operandBytes?_of_branch
    (opcode b : UInt8)
    (distance : Int)
    (hFlow : i.flow = .branch)
    (hDistance :
      Instruction.displacement [opcode, b] = .ok distance) :
    operandBytes? i address (address + distance) =
      some [b] := by
  have hByte : b.toNat < 256 := b.toNat_lt
  simp only [Instruction.displacement, Except.ok.injEq]
    at hDistance
  have hBounds :
      -128 ≤ address + distance - (address + 2) ∧
        address + distance - (address + 2) < 128 := by
    split at hDistance <;> omega
  have hSame :
      ((address + distance - (address + 2)) % 256).toNat =
        b.toNat := by
    split at hDistance <;> omega
  rw [operandBytes?, if_pos hFlow, branchByte?]
  simp only [hBounds, and_self, if_true, hSame,
    UInt8.ofNat_toNat]

/- The operand byte of an instruction of two bytes. -/
theorem operandBytes?_of_byte
    (b : UInt8)
    (hFlow : i.flow ≠ .branch)
    (hLength : i.length = 2) :
    operandBytes? i address b.toNat = some [b] := by
  have hByte : (b.toNat : Int) < 0x100 := by
    have hLess := b.toNat_lt
    omega
  simp [operandBytes?, hFlow, hLength, byte?, hByte]

/- The operand word of an instruction of three bytes. -/
theorem operandBytes?_of_word
    (low high : UInt8)
    (hFlow : i.flow ≠ .branch)
    (hLength : i.length = 3) :
    operandBytes? i address
        (low.toNat + 256 * high.toNat : Nat) =
      some [low, high] := by
  have hLow : low.toNat < 256 := low.toNat_lt
  have hHigh : high.toNat < 256 := high.toNat_lt
  have hWord :
      low.toNat + 256 * high.toNat < 0x10000 := by
    omega
  have hLowIs :
      (low.toNat + 256 * high.toNat) % 256 = low.toNat := by
    omega
  have hHighIs :
      (low.toNat + 256 * high.toNat) / 256 =
        high.toNat := by
    omega
  have hRange :
      (0 : Int) ≤ (low.toNat + 256 * high.toNat : Nat) ∧
        ((low.toNat + 256 * high.toNat : Nat) : Int) <
          0x10000 := by
    omega
  rw [operandBytes?, if_neg hFlow, if_neg (by omega),
    if_neg (by omega), word?, if_pos hRange,
    Int.toNat_natCast, hLowIs, hHighIs, UInt8.ofNat_toNat,
    UInt8.ofNat_toNat]

end Assembler

end Beeb

------------------------------------------------------------
-- Targets And Addresses
------------------------------------------------------------

namespace Beeb

namespace Assembler

variable (a : Analysis)
variable (address : Int)

/- The name of a label stands for where the label is. -/
theorem exists_spells_label
    (target : Int)
    (label : Label)
    (hNumbered : a.labels.Numbered)
    (hLabel : a.labels[target]? = some label) :
    ∃ text,
      label.name = .ok text ∧
        Spells text.toList (.symbol text 0) ∧
        ∀ symbols,
          Places a.labels symbols →
            evaluate? symbols address (.symbol text 0) =
              some target := by
  rcases hNumbered target label hLabel with ⟨index, rfl⟩
  refine ⟨_, rfl, spells_label index, ?_⟩
  intro symbols hPlaces
  simp [evaluate?, hPlaces target _ _ hLabel rfl]

/- The text of a branch stands for its target. -/
theorem exists_spells_branchTarget
    (distance : Int)
    (hNumbered : a.labels.Numbered) :
    ∃ text value,
      Operand.branchTarget address distance a.labels =
          .ok text ∧
        Spells text.toList value ∧
        ∀ symbols,
          Places a.labels symbols →
            evaluate? symbols address value =
              some (address + distance) := by
  unfold Operand.branchTarget
  cases hLabel : a.labels[address + distance]? with
  | none =>
    refine ⟨_, _, rfl, spells_relative distance, ?_⟩
    intro symbols _
    rfl
  | some label =>
    rcases exists_spells_label a address _ label hNumbered
        hLabel with
      ⟨text, hName, hSpells, hValue⟩
    exact ⟨text, _, hName, hSpells, hValue⟩

/- The text of a jump stands for its target. -/
theorem exists_spells_jumpTarget
    (target : Int)
    (hPositive : 0 ≤ target)
    (hNumbered : a.labels.Numbered)
    (hCall :
      (Mos.callName? target).isSome = true →
        target ∈ a.calls) :
    ∃ text value,
      Operand.jumpTarget target a.labels = .ok text ∧
        Spells text.toList value ∧
        ∀ symbols,
          Defines a symbols →
            Places a.labels symbols →
              evaluate? symbols address value =
                some target := by
  unfold Operand.jumpTarget
  cases hName : Mos.callName? target with
  | some name =>
    have hSpells := spells_callName target name hName
    refine ⟨name, _, rfl, hSpells, ?_⟩
    intro symbols hDefines _
    have hMem := hCall (by simp [hName])
    simp [evaluate?,
      hDefines.calls target hMem name hName]
  | none =>
    cases hLabel : a.labels[target]? with
    | some label =>
      rcases exists_spells_label a address _ label hNumbered
          hLabel with
        ⟨text, hText, hSpells, hValue⟩
      exact
        ⟨text, _, hText, hSpells, fun symbols _ =>
          hValue symbols⟩
    | none =>
      refine
        ⟨_, _, rfl, spells_number 4 target hPositive, ?_⟩
      intro symbols _ _
      simp [evaluate?, Int.toNat_of_nonneg hPositive]

/-
  The text of an absolute operand stands for it: a vector,
  the second byte of a vector, or a number.
-/
theorem exists_spells_absolute
    (word : Int)
    (hPositive : 0 ≤ word)
    (hVector : ∀ base,
      Mos.vectorBase? word = some base →
        base ∈ a.vectors) :
    ∃ value,
      Spells (Operand.absolute word []).toList value ∧
        ∀ symbols,
          Defines a symbols →
            evaluate? symbols address value =
              some word := by
  have hNoVariable : Variable.find? [] word = none := rfl
  unfold Operand.absolute
  rw [hNoVariable]
  cases hName : Mos.vectorName? word with
  | some name =>
    refine ⟨_, (spells_vectorName word name hName).1, ?_⟩
    intro symbols hDefines
    have hMem :=
      hVector word (by simp [Mos.vectorBase?, hName])
    simp [evaluate?, hDefines.vectors word hMem name hName]
  | none =>
    cases hBase : Mos.vectorName? (Mos.evenBase word) with
    | some name =>
      refine
        ⟨_, (spells_vectorName _ name hBase).2, ?_⟩
      intro symbols hDefines
      have hMem :=
        hVector (Mos.evenBase word)
          (by simp [Mos.vectorBase?, hName, hBase])
      have hOdd :=
        Mos.evenBase_add_one word name hName hBase
      simp [evaluate?,
        hDefines.vectors _ hMem name hBase, hOdd]
    | none =>
      refine ⟨_, spells_number 4 word hPositive, ?_⟩
      intro symbols _
      simp [evaluate?, Int.toNat_of_nonneg hPositive]

end Assembler

end Beeb
