import Beeb.Operand
import Beeb.Proofs.Analysis
import Beeb.Proofs.Attempts
import Beeb.Proofs.Instruction

/-
  Operand texts exist: an instruction that has all its bytes
  can be written wherever the labels can.

  Main declarations:
    * `Labels.Writable`
    * `Operand.cases_of_text`
    * `Operand.text_eq_of_unnamed`
    * `Operand.exists_text`
-/

------------------------------------------------------------
-- Labels That Can Be Written
------------------------------------------------------------

namespace Beeb

/- Every label has a name. -/
def Labels.Writable
    (labels : Labels) : Prop :=
  ∀ (address : Int) (label : Label),
    labels[address]? = some label →
      ∃ name, label.name = .ok name

/- Labels that have numbers have names. -/
theorem Labels.Numbered.writable
    {labels : Labels}
    (hNumbered : labels.Numbered) :
    labels.Writable := by
  intro address label hLabel
  rcases hNumbered address label hLabel with ⟨index, rfl⟩
  exact ⟨_, rfl⟩

namespace Operand

/- A jump can be written. -/
theorem exists_jumpTarget
    (target : Int)
    (labels : Labels)
    (hWritable : labels.Writable) :
    ∃ text, jumpTarget target labels = .ok text := by
  unfold jumpTarget
  cases Mos.callName? target with
  | some name => exact ⟨name, rfl⟩
  | none =>
    cases hLabel : labels[target]? with
    | none => exact ⟨_, rfl⟩
    | some label => exact hWritable target label hLabel

/- A branch can be written. -/
theorem exists_branchTarget
    (address distance : Int)
    (labels : Labels)
    (hWritable : labels.Writable) :
    ∃ text,
      branchTarget address distance labels = .ok text := by
  unfold branchTarget
  cases hLabel : labels[address + distance]? with
  | none => exact ⟨_, rfl⟩
  | some label =>
    exact hWritable (address + distance) label hLabel

/- An operand can be written if all its bytes are there. -/
theorem exists_ofMode
    (mode : Mode)
    (data : List UInt8)
    (vars : List Variable)
    (hLength : (data.length : Int) = mode.size) :
    ∃ text, ofMode mode data vars = .ok text := by
  cases mode with
  | implicit | accumulator => exact ⟨_, rfl⟩
  | immediate
  | zeroPage
  | zeroPageX
  | zeroPageY
  | indirectX
  | indirectY =>
    simp only [Mode.size] at hLength
    rcases Instruction.operandByte_eq_ok data (by omega)
      with ⟨opcode, b, rfl, hByte⟩
    exact ⟨_, by simp only [ofMode, hByte, Except.map]; rfl⟩
  | absolute | indirect | absoluteX | absoluteY =>
    simp only [Mode.size] at hLength
    rcases Instruction.operandWord_eq_ok data (by omega)
      with ⟨opcode, low, high, rfl, hWord⟩
    exact ⟨_, by simp only [ofMode, hWord, Except.map]; rfl⟩

end Operand

end Beeb

------------------------------------------------------------
-- Operand Texts
------------------------------------------------------------

namespace Beeb

namespace Operand

variable (i : Instruction)
variable (data : List UInt8)
variable (address : Int)
variable (labels : Labels)
variable (vars : List Variable)

/- The operand of a branch. -/
theorem text_of_branch
    (distance : Int)
    (hFlow : i.flow = .branch)
    (hDistance :
      Instruction.displacement data = .ok distance) :
    text i data address labels vars =
      (branchTarget address distance labels).mapError
        .label := by
  unfold text
  rw [hFlow, hDistance]
  rfl

/- The operand of a jump to an address. -/
theorem text_of_jump
    (target : Int)
    (hFlow : i.flow = .jump)
    (hMode : i.mode = some .absolute)
    (hWord : Instruction.operandWord data = .ok target) :
    text i data address labels vars =
      (jumpTarget target labels).mapError .label := by
  unfold text
  rw [hFlow, hMode, hWord]
  rfl

/- The operand of any other instruction. -/
theorem text_of_mode
    (mode : Mode)
    (hFlow : i.flow ≠ .branch)
    (hMode : i.mode = some mode)
    (hNoJump : ¬ (i.flow = .jump ∧ mode = .absolute)) :
    text i data address labels vars =
      (ofMode mode data vars).mapError .fetch := by
  unfold text
  rw [hMode]
  cases hFlowIs : i.flow with
  | branch => exact absurd hFlowIs hFlow
  | jump =>
    cases mode with
    | absolute => exact absurd ⟨hFlowIs, rfl⟩ hNoJump
    | _ => rfl
  | neither => rfl

/-
  How an instruction came by its operand: by the distance of
  its branch, by the target of its jump, or by its mode.
-/
theorem cases_of_text
    (operand : String)
    (hTable : i ∈ Instruction.table)
    (hText :
      text i data address labels vars = .ok operand) :
    (∃ distance,
        i.flow = .branch ∧
          Instruction.displacement data = .ok distance ∧
          branchTarget address distance labels =
            .ok operand) ∨
      (∃ target,
        i.mode = some .absolute ∧
          Instruction.operandWord data = .ok target ∧
          jumpTarget target labels = .ok operand) ∨
        ∃ mode,
          i.mode = some mode ∧
            ofMode mode data vars = .ok operand := by
  by_cases hBranch : i.flow = .branch
  · cases hDistance : Instruction.displacement data with
    | error e =>
      simp [text, hBranch, hDistance, Except.mapError, bind,
        Except.bind] at hText
    | ok distance =>
      rw [text_of_branch i data address labels vars distance
        hBranch hDistance, mapError_eq_ok_iff] at hText
      exact .inl ⟨distance, hBranch, rfl, hText⟩
  rcases i.length_eq_size hTable hBranch with
    ⟨mode, hMode, -⟩
  by_cases hJump : i.flow = .jump ∧ mode = .absolute
  · rcases hJump with ⟨hFlow, rfl⟩
    cases hWord : Instruction.operandWord data with
    | error e =>
      simp [text, hFlow, hMode, hWord, Except.mapError,
        bind, Except.bind] at hText
    | ok target =>
      rw [text_of_jump i data address labels vars target hFlow
        hMode hWord, mapError_eq_ok_iff] at hText
      exact .inr (.inl ⟨target, hMode, rfl, hText⟩)
  · rw [text_of_mode i data address labels vars mode hBranch
      hMode hJump, mapError_eq_ok_iff] at hText
    exact .inr (.inr ⟨mode, hMode, hText⟩)

/-
  Variables matter only to an absolute operand that does not
  jump, and only if its word is the value of one.
-/
theorem text_eq_of_unnamed
    (vars' : List Variable)
    (hUnnamed :
      ∀ word,
        i.flow ≠ .jump →
          i.mode = some .absolute →
            Instruction.operandWord data = .ok word →
              ∀ v ∈ vars ++ vars', v.value ≠ word) :
    text i data address labels vars =
      text i data address labels vars' := by
  have hMode :
      ∀ mode,
        i.mode = some mode →
          ¬ (i.flow = .jump ∧ mode = .absolute) →
            ofMode mode data vars = ofMode mode data vars' := by
    intro mode hIs hNoJump
    cases mode with
    | absolute =>
      simp only [ofMode]
      cases hWord : Instruction.operandWord data with
      | error e => rfl
      | ok word =>
        have hNone :=
          hUnnamed word (fun hFlow => hNoJump ⟨hFlow, rfl⟩) hIs
            hWord
        have hFind :
            ∀ held : List Variable,
              held ⊆ vars ++ vars' →
                Variable.find? held word = none := by
          intro held hHeld
          unfold Variable.find?
          rw [List.find?_eq_none]
          intro v hv
          simpa using hNone v (hHeld hv)
        simp only [Except.map, absolute,
          hFind vars (List.subset_append_left _ _),
          hFind vars' (List.subset_append_right _ _)]
    | _ => rfl
  by_cases hBranch : i.flow = .branch
  · unfold text
    rw [hBranch]
  cases hIs : i.mode with
  | none =>
    unfold text
    rw [hIs]
    cases i.flow <;> rfl
  | some mode =>
    by_cases hJump : i.flow = .jump ∧ mode = .absolute
    · rcases hJump with ⟨hFlow, rfl⟩
      unfold text
      rw [hFlow, hIs]
    · rw [text_of_mode i data address labels vars mode hBranch
          hIs hJump,
        text_of_mode i data address labels vars' mode hBranch
          hIs hJump,
        hMode mode hIs hJump]

/-
  An instruction of the table that has all its bytes has an
  operand text.
-/
theorem exists_text
    (hTable : i ∈ Instruction.table)
    (hLength : (data.length : Int) = i.length)
    (hWritable : labels.Writable) :
    ∃ operand,
      text i data address labels vars = .ok operand := by
  by_cases hBranch : i.flow = .branch
  · have hTwo := i.length_of_branch hTable hBranch
    rcases Instruction.operandByte_eq_ok data (by omega)
      with ⟨opcode, b, rfl, -⟩
    rcases exists_branchTarget address _ labels hWritable
      with ⟨operand, hOperand⟩
    refine ⟨operand, ?_⟩
    rw [text_of_branch i _ address labels vars _ hBranch rfl,
      hOperand]
    rfl
  rcases i.length_eq_size hTable hBranch with
    ⟨mode, hMode, hSize⟩
  by_cases hJump : i.flow = .jump ∧ mode = .absolute
  · rcases hJump with ⟨hFlow, rfl⟩
    simp only [Mode.size] at hSize
    rcases Instruction.operandWord_eq_ok data (by omega)
      with ⟨opcode, low, high, rfl, hWord⟩
    rcases exists_jumpTarget _ labels hWritable with
      ⟨operand, hOperand⟩
    refine ⟨operand, ?_⟩
    rw [text_of_jump i _ address labels vars _ hFlow hMode
      hWord, hOperand]
    rfl
  · rcases exists_ofMode mode data vars (by omega) with
      ⟨operand, hOperand⟩
    refine ⟨operand, ?_⟩
    rw [text_of_mode i data address labels vars mode hBranch
      hMode hJump, hOperand]
    rfl

end Operand

end Beeb
