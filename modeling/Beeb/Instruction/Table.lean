import Beeb.Instruction.Basic

/-
  The instruction table of the 6502.

  It holds the documented instructions and the undocumented
  `ANC`, `SLO` and `SRE`.  A byte that is not in it is data.

  Key definitions include:
    * `Beeb.Instruction.table`
    * `Beeb.Instruction.ofOpcode?`
-/

------------------------------------------------------------
-- The Table
------------------------------------------------------------

namespace Beeb

namespace Instruction

/- All known instructions, by mnemonic and then by mode. -/
def table : List Instruction := [
  ⟨0x69, "ADC", 2, some .immediate⟩,
  ⟨0x65, "ADC", 2, some .zeroPage⟩,
  ⟨0x75, "ADC", 2, some .zeroPageX⟩,
  ⟨0x6D, "ADC", 3, some .absolute⟩,
  ⟨0x7D, "ADC", 3, some .absoluteX⟩,
  ⟨0x79, "ADC", 3, some .absoluteY⟩,
  ⟨0x61, "ADC", 2, some .indirectX⟩,
  ⟨0x71, "ADC", 2, some .indirectY⟩,
  ⟨0x0B, "ANC", 2, some .immediate⟩,
  ⟨0x2B, "ANC", 2, some .immediate⟩,
  ⟨0x29, "AND", 2, some .immediate⟩,
  ⟨0x25, "AND", 2, some .zeroPage⟩,
  ⟨0x35, "AND", 2, some .zeroPageX⟩,
  ⟨0x2D, "AND", 3, some .absolute⟩,
  ⟨0x3D, "AND", 3, some .absoluteX⟩,
  ⟨0x39, "AND", 3, some .absoluteY⟩,
  ⟨0x21, "AND", 2, some .indirectX⟩,
  ⟨0x31, "AND", 2, some .indirectY⟩,
  ⟨0x0A, "ASL", 1, some .accumulator⟩,
  ⟨0x06, "ASL", 2, some .zeroPage⟩,
  ⟨0x16, "ASL", 2, some .zeroPageX⟩,
  ⟨0x0E, "ASL", 3, some .absolute⟩,
  ⟨0x1E, "ASL", 3, some .absoluteX⟩,
  ⟨0x24, "BIT", 2, some .zeroPage⟩,
  ⟨0x2C, "BIT", 3, some .absolute⟩,
  ⟨0x10, "BPL", 2, some .implicit⟩,
  ⟨0x30, "BMI", 2, some .implicit⟩,
  ⟨0x50, "BVC", 2, some .implicit⟩,
  ⟨0x70, "BVS", 2, some .implicit⟩,
  ⟨0x90, "BCC", 2, some .implicit⟩,
  ⟨0xB0, "BCS", 2, some .implicit⟩,
  ⟨0xD0, "BNE", 2, some .implicit⟩,
  ⟨0xF0, "BEQ", 2, some .implicit⟩,
  ⟨0x00, "BRK", 1, some .implicit⟩,
  ⟨0xC9, "CMP", 2, some .immediate⟩,
  ⟨0xC5, "CMP", 2, some .zeroPage⟩,
  ⟨0xD5, "CMP", 2, some .zeroPageX⟩,
  ⟨0xCD, "CMP", 3, some .absolute⟩,
  ⟨0xDD, "CMP", 3, some .absoluteX⟩,
  ⟨0xD9, "CMP", 3, some .absoluteY⟩,
  ⟨0xC1, "CMP", 2, some .indirectX⟩,
  ⟨0xD1, "CMP", 2, some .indirectY⟩,
  ⟨0xE0, "CPX", 2, some .immediate⟩,
  ⟨0xE4, "CPX", 2, some .zeroPage⟩,
  ⟨0xEC, "CPX", 3, some .absolute⟩,
  ⟨0xC0, "CPY", 2, some .immediate⟩,
  ⟨0xC4, "CPY", 2, some .zeroPage⟩,
  ⟨0xCC, "CPY", 3, some .absolute⟩,
  ⟨0xC6, "DEC", 2, some .zeroPage⟩,
  ⟨0xD6, "DEC", 2, some .zeroPageX⟩,
  ⟨0xCE, "DEC", 3, some .absolute⟩,
  ⟨0xDE, "DEC", 3, some .absoluteX⟩,
  ⟨0x49, "EOR", 2, some .immediate⟩,
  ⟨0x45, "EOR", 2, some .zeroPage⟩,
  ⟨0x55, "EOR", 2, some .zeroPageX⟩,
  ⟨0x4D, "EOR", 3, some .absolute⟩,
  ⟨0x5D, "EOR", 3, some .absoluteX⟩,
  ⟨0x59, "EOR", 3, some .absoluteY⟩,
  ⟨0x41, "EOR", 2, some .indirectX⟩,
  ⟨0x51, "EOR", 2, some .indirectY⟩,
  ⟨0x18, "CLC", 1, some .implicit⟩,
  ⟨0x38, "SEC", 1, some .implicit⟩,
  ⟨0x58, "CLI", 1, some .implicit⟩,
  ⟨0x78, "SEI", 1, some .implicit⟩,
  ⟨0xB8, "CLV", 1, some .implicit⟩,
  ⟨0xD8, "CLD", 1, some .implicit⟩,
  ⟨0xF8, "SED", 1, some .implicit⟩,
  ⟨0xE6, "INC", 2, some .zeroPage⟩,
  ⟨0xF6, "INC", 2, some .zeroPageX⟩,
  ⟨0xEE, "INC", 3, some .absolute⟩,
  ⟨0xFE, "INC", 3, some .absoluteX⟩,
  ⟨0x4C, "JMP", 3, some .absolute⟩,
  ⟨0x6C, "JMP", 3, some .indirect⟩,
  ⟨0x20, "JSR", 3, some .absolute⟩,
  ⟨0xA9, "LDA", 2, some .immediate⟩,
  ⟨0xA5, "LDA", 2, some .zeroPage⟩,
  ⟨0xB5, "LDA", 2, some .zeroPageX⟩,
  ⟨0xAD, "LDA", 3, some .absolute⟩,
  ⟨0xBD, "LDA", 3, some .absoluteX⟩,
  ⟨0xB9, "LDA", 3, some .absoluteY⟩,
  ⟨0xA1, "LDA", 2, some .indirectX⟩,
  ⟨0xB1, "LDA", 2, some .indirectY⟩,
  ⟨0xA2, "LDX", 2, some .immediate⟩,
  ⟨0xA6, "LDX", 2, some .zeroPage⟩,
  ⟨0xB6, "LDX", 2, some .zeroPageY⟩,
  ⟨0xAE, "LDX", 3, some .absolute⟩,
  ⟨0xBE, "LDX", 3, some .absoluteY⟩,
  ⟨0xA0, "LDY", 2, some .immediate⟩,
  ⟨0xA4, "LDY", 2, some .zeroPage⟩,
  ⟨0xB4, "LDY", 2, some .zeroPageX⟩,
  ⟨0xAC, "LDY", 3, some .absolute⟩,
  ⟨0xBC, "LDY", 3, some .absoluteX⟩,
  ⟨0x4A, "LSR", 1, some .accumulator⟩,
  ⟨0x46, "LSR", 2, some .zeroPage⟩,
  ⟨0x56, "LSR", 2, some .zeroPageX⟩,
  ⟨0x4E, "LSR", 3, some .absolute⟩,
  ⟨0x5E, "LSR", 3, some .absoluteX⟩,
  ⟨0xEA, "NOP", 1, some .implicit⟩,
  ⟨0x09, "ORA", 2, some .immediate⟩,
  ⟨0x05, "ORA", 2, some .zeroPage⟩,
  ⟨0x15, "ORA", 2, some .zeroPageX⟩,
  ⟨0x0D, "ORA", 3, some .absolute⟩,
  ⟨0x1D, "ORA", 3, some .absoluteX⟩,
  ⟨0x19, "ORA", 3, some .absoluteY⟩,
  ⟨0x01, "ORA", 2, some .indirectX⟩,
  ⟨0x11, "ORA", 2, some .indirectY⟩,
  ⟨0xAA, "TAX", 1, some .implicit⟩,
  ⟨0x8A, "TXA", 1, some .implicit⟩,
  ⟨0xCA, "DEX", 1, some .implicit⟩,
  ⟨0xE8, "INX", 1, some .implicit⟩,
  ⟨0xA8, "TAY", 1, some .implicit⟩,
  ⟨0x98, "TYA", 1, some .implicit⟩,
  ⟨0x88, "DEY", 1, some .implicit⟩,
  ⟨0xC8, "INY", 1, some .implicit⟩,
  ⟨0x2A, "ROL", 1, some .accumulator⟩,
  ⟨0x26, "ROL", 2, some .zeroPage⟩,
  ⟨0x36, "ROL", 2, some .zeroPageX⟩,
  ⟨0x2E, "ROL", 3, some .absolute⟩,
  ⟨0x3E, "ROL", 3, some .absoluteX⟩,
  ⟨0x6A, "ROR", 1, some .accumulator⟩,
  ⟨0x66, "ROR", 2, some .zeroPage⟩,
  ⟨0x76, "ROR", 2, some .zeroPageX⟩,
  ⟨0x6E, "ROR", 3, some .absolute⟩,
  ⟨0x7E, "ROR", 3, some .absoluteX⟩,
  ⟨0x40, "RTI", 1, some .implicit⟩,
  ⟨0x60, "RTS", 1, some .implicit⟩,
  ⟨0xE9, "SBC", 2, some .immediate⟩,
  ⟨0xE5, "SBC", 2, some .zeroPage⟩,
  ⟨0xF5, "SBC", 2, some .zeroPageX⟩,
  ⟨0xED, "SBC", 3, some .absolute⟩,
  ⟨0xFD, "SBC", 3, some .absoluteX⟩,
  ⟨0xF9, "SBC", 3, some .absoluteY⟩,
  ⟨0xE1, "SBC", 2, some .indirectX⟩,
  ⟨0xF1, "SBC", 2, some .indirectY⟩,
  ⟨0x47, "SRE", 2, some .zeroPage⟩,
  ⟨0x57, "SRE", 2, some .zeroPageX⟩,
  ⟨0x4F, "SRE", 3, some .absolute⟩,
  ⟨0x5F, "SRE", 3, some .absoluteX⟩,
  ⟨0x5B, "SRE", 3, some .absoluteY⟩,
  ⟨0x43, "SRE", 2, some .indirectX⟩,
  ⟨0x53, "SRE", 2, some .indirectY⟩,
  ⟨0x85, "STA", 2, some .zeroPage⟩,
  ⟨0x95, "STA", 2, some .zeroPageX⟩,
  ⟨0x8D, "STA", 3, some .absolute⟩,
  ⟨0x9D, "STA", 3, some .absoluteX⟩,
  ⟨0x99, "STA", 3, some .absoluteY⟩,
  ⟨0x81, "STA", 2, some .indirectX⟩,
  ⟨0x91, "STA", 2, some .indirectY⟩,
  ⟨0x9A, "TXS", 1, some .implicit⟩,
  ⟨0xBA, "TSX", 1, some .implicit⟩,
  ⟨0x48, "PHA", 1, some .implicit⟩,
  ⟨0x68, "PLA", 1, some .implicit⟩,
  ⟨0x08, "PHP", 1, some .implicit⟩,
  ⟨0x28, "PLP", 1, some .implicit⟩,
  ⟨0x07, "SLO", 2, some .zeroPage⟩,
  ⟨0x17, "SLO", 2, some .zeroPageX⟩,
  ⟨0x0F, "SLO", 3, some .absolute⟩,
  ⟨0x1F, "SLO", 3, some .absoluteX⟩,
  ⟨0x1B, "SLO", 3, some .absoluteY⟩,
  ⟨0x03, "SLO", 2, some .indirectX⟩,
  ⟨0x13, "SLO", 2, some .indirectY⟩,
  ⟨0x86, "STX", 2, some .zeroPage⟩,
  ⟨0x96, "STX", 2, some .zeroPageY⟩,
  ⟨0x8E, "STX", 3, some .absolute⟩,
  ⟨0x84, "STY", 2, some .zeroPage⟩,
  ⟨0x94, "STY", 2, some .zeroPageX⟩,
  ⟨0x8C, "STY", 3, some .absolute⟩]

/- The instruction of an opcode. -/
def ofOpcode?
    (opcode : Int) : Option Instruction :=
  table.find? (·.opcode = opcode)

/- No opcode occurs twice in the table. -/
theorem nodup_opcodes :
    (table.map opcode).Nodup := by
  decide +kernel

/- The table is a table. -/
theorem tableOf_table :
    tableOf table = .ok table :=
  addAll_of_nodup [] table nodup_opcodes

/- The instruction of an opcode is the one in the table. -/
theorem ofOpcode?_eq_some_iff
    (opcode : Int)
    (i : Instruction) :
    ofOpcode? opcode = some i ↔
      i ∈ table ∧ i.opcode = opcode := by
  constructor
  · intro hFind
    exact
      ⟨List.mem_of_find?_eq_some hFind,
        by simpa using List.find?_some hFind⟩
  · rintro ⟨hMem, rfl⟩
    unfold ofOpcode?
    rw [List.find?_eq_some_iff_append]
    rcases List.append_of_mem hMem with
      ⟨before, after, hSplit⟩
    refine ⟨by simp, before, after, hSplit, ?_⟩
    intro j hj
    have hNodup := nodup_opcodes
    rw [hSplit] at hNodup
    simp only [List.map_append, List.map_cons,
      List.nodup_append, List.mem_map, List.mem_cons] at hNodup
    simpa using hNodup.2.2 j.opcode ⟨j, hj, rfl⟩ _ (.inl rfl)

end Instruction

end Beeb
