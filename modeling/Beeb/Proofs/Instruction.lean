import Beeb.Instruction.Table

/-
  What holds of every instruction in the table: how long it
  is, and that its operand can be read off its bytes.

  Main declarations:
    * `Mode.size`
    * `Instruction.Coherent`
    * `Instruction.coherent_of_mem`
    * `Instruction.length_bounds`
    * `Instruction.length_eq_size`
    * `Instruction.reassembles_eq_ok`
-/

------------------------------------------------------------
-- Lengths
------------------------------------------------------------

namespace Beeb

/- How long an instruction is whose operand has a form. -/
def Mode.size : Mode → Int
| .implicit | .accumulator => 1
| .immediate
| .zeroPage
| .zeroPageX
| .zeroPageY
| .indirectX
| .indirectY => 2
| .absolute | .indirect | .absoluteX | .absoluteY => 3

/- An operand that may be shortened has two bytes. -/
theorem Mode.size_of_isAbsolute
    (mode : Mode)
    (hAbsolute : mode.isAbsolute) :
    mode.size = 3 := by
  cases mode <;> simp_all [isAbsolute, size]

namespace Instruction

/-
  What the part of an instruction in the flow of control and
  the form of its operand tell about it.
-/
structure Coherent
    (i : Instruction) : Prop where
  bounds : 1 ≤ i.length ∧ i.length ≤ 3
  branch :
    i.flow = .branch →
      i.length = 2 ∧ i.mode = some .implicit
  /- The form of any other operand tells the length. -/
  size :
    i.flow ≠ .branch →
      (i.mode.any fun mode => i.length = mode.size) = true
  wide : i.mode.any Mode.isAbsolute = true → i.flow ≠ .branch
  jump :
    i.flow = .jump →
      i.documented = true ∧
        (i.mode = some .absolute ∨ i.mode = some .indirect)
  accumulator :
    i.mode = some .accumulator → i.flow = .neither

instance (i : Instruction) : Decidable (Coherent i) :=
  decidable_of_iff
    ((1 ≤ i.length ∧ i.length ≤ 3) ∧
      (i.flow = .branch →
        i.length = 2 ∧ i.mode = some .implicit) ∧
      (i.flow ≠ .branch →
        (i.mode.any fun mode => i.length = mode.size) =
          true) ∧
      (i.mode.any Mode.isAbsolute = true →
        i.flow ≠ .branch) ∧
      (i.flow = .jump →
        i.documented = true ∧
          (i.mode = some .absolute ∨
            i.mode = some .indirect)) ∧
      (i.mode = some .accumulator → i.flow = .neither))
    ⟨fun ⟨hBounds, hBranch, hSize, hWide, hJump, hOwn⟩ =>
        ⟨hBounds, hBranch, hSize, hWide, hJump, hOwn⟩,
      fun h =>
        ⟨h.bounds, h.branch, h.size, h.wide, h.jump,
          h.accumulator⟩⟩

/- Every instruction in the table is coherent. -/
theorem coherent_of_mem
    (i : Instruction)
    (hTable : i ∈ table) :
    Coherent i := by
  have hAll : ∀ i ∈ table, Coherent i := by
    decide +kernel
  exact hAll i hTable

/- A branch has no form of operand that may be shortened. -/
theorem flow_of_isAbsolute
    (i : Instruction)
    (mode : Mode)
    (hTable : i ∈ table)
    (hMode : i.mode = some mode)
    (hAbsolute : mode.isAbsolute) :
    i.flow ≠ .branch := by
  apply (coherent_of_mem i hTable).wide
  simp [hMode, hAbsolute]

variable (i : Instruction)
variable (hTable : i ∈ table)

include hTable

/- Instructions have one to three bytes. -/
theorem length_bounds :
    1 ≤ i.length ∧ i.length ≤ 3 :=
  (coherent_of_mem i hTable).bounds

/- A branch has one operand byte. -/
theorem length_of_branch
    (hBranch : i.flow = .branch) :
    i.length = 2 :=
  ((coherent_of_mem i hTable).branch hBranch).1

/- The form of the operand of any other tells its length. -/
theorem length_eq_size
    (hFlow : i.flow ≠ .branch) :
    ∃ mode, i.mode = some mode ∧ i.length = mode.size := by
  have hSize := (coherent_of_mem i hTable).size hFlow
  simpa [Option.any_eq_true] using hSize

/- A jump has an address for its operand, or a pointer. -/
theorem mode_of_jump
    (hFlow : i.flow = .jump) :
    i.mode = some .absolute ∨ i.mode = some .indirect :=
  ((coherent_of_mem i hTable).jump hFlow).2

/- A branch has no form of operand of its own. -/
theorem mode_of_branch
    (hFlow : i.flow = .branch) :
    i.mode = some .implicit :=
  ((coherent_of_mem i hTable).branch hFlow).2

/- What works on the accumulator goes nowhere. -/
theorem flow_of_accumulator
    (hMode : i.mode = some .accumulator) :
    i.flow = .neither :=
  (coherent_of_mem i hTable).accumulator hMode

/- Assemblers know every jump. -/
theorem documented_of_jump
    (hFlow : i.flow = .jump) :
    i.documented = true :=
  ((coherent_of_mem i hTable).jump hFlow).1

/- A mnemonic has three letters. -/
theorem length_mnemonic :
    i.mnemonic.length = 3 := by
  have hAll : ∀ i ∈ table, i.mnemonic.length = 3 := by
    decide +kernel
  exact hAll i hTable

end Instruction

end Beeb

------------------------------------------------------------
-- Operand Bytes
------------------------------------------------------------

namespace Beeb

namespace Instruction

/- The operand byte of an instruction of two bytes. -/
theorem operandByte_eq_ok
    (data : List UInt8)
    (hLength : data.length = 2) :
    ∃ opcode b : UInt8,
      data = [opcode, b] ∧
        operandByte data = .ok b.toNat := by
  match data, hLength with
  | [opcode, b], _ => exact ⟨opcode, b, rfl, rfl⟩

/- The operand word of an instruction of three bytes. -/
theorem operandWord_eq_ok
    (data : List UInt8)
    (hLength : data.length = 3) :
    ∃ opcode low high : UInt8,
      data = [opcode, low, high] ∧
        operandWord data =
          .ok (low.toNat + 256 * high.toNat : Nat) := by
  match data, hLength with
  | [opcode, low, high], _ =>
    exact ⟨opcode, low, high, rfl, rfl⟩

/- How large a word of two bytes can be. -/
theorem word_bounds
    (low high : UInt8) :
    (0 : Int) ≤ low.toNat + 256 * high.toNat ∧
      (low.toNat + 256 * high.toNat : Int) < 0x10000 := by
  have hLow := low.toNat_lt
  have hHigh := high.toNat_lt
  omega

/- An operand byte is a byte. -/
theorem operandByte_bounds
    (data : List UInt8)
    (b : Int)
    (hByte : operandByte data = .ok b) :
    0 ≤ b ∧ b < 0x100 := by
  match data with
  | _ :: byte :: _ =>
    rw [operandByte, Except.ok.injEq] at hByte
    have hLess := byte.toNat_lt
    omega
  | [_] | [] => cases hByte

/- An operand word is a word. -/
theorem operandWord_bounds
    (data : List UInt8)
    (word : Int)
    (hWord : operandWord data = .ok word) :
    0 ≤ word ∧ word < 0x10000 := by
  match data with
  | _ :: low :: high :: _ =>
    rw [operandWord, Except.ok.injEq] at hWord
    have hBounds := word_bounds low high
    omega
  | [_, _] | [_] | [] => cases hWord

/-
  There is an answer to whether an instruction that has all
  its bytes reassembles.
-/
theorem reassembles_eq_ok
    (i : Instruction)
    (data : List UInt8)
    (hTable : i ∈ table)
    (hLength : (data.length : Int) = i.length) :
    ∃ same, i.reassembles data = .ok same := by
  unfold reassembles
  cases hMode : i.mode with
  | none => exact ⟨true, rfl⟩
  | some mode =>
    cases hAbsolute : mode.isAbsolute with
    | false => exact ⟨true, by simp [hAbsolute]⟩
    | true =>
      rcases length_eq_size i hTable
          (flow_of_isAbsolute i mode hTable hMode hAbsolute)
        with ⟨form, hForm, hSize⟩
      rw [hMode] at hForm
      cases hForm
      have hThree := mode.size_of_isAbsolute hAbsolute
      rcases operandWord_eq_ok data (by omega) with
        ⟨-, low, high, -, hWord⟩
      simp only [hAbsolute, hWord, if_true]
      exact ⟨_, rfl⟩

end Instruction

end Beeb
