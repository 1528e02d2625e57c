import Beeb.Proofs.Listing.Symbols

/-
  System symbols in use: what becomes of the steps that the
  header defines them for.

  A jump to an entry point is always listed with its name.
  An operand in a vector need not be: the instruction may be
  one that assemblers do not know, and a variable of the
  same value comes first.

  Main declarations:
    * `Disassembly.code_of_absolute`
    * `Listing.Refers`
    * `Disassembly.exists_line_of_call`
    * `Disassembly.exists_line_of_vector`
    * `Disassembly.system_symbols_used`
-/

------------------------------------------------------------
-- Addresses With Names
------------------------------------------------------------

namespace Beeb

namespace Mos

/- No address with a name fits the zero page. -/
theorem lower_bound_of_find?
    (names : Names)
    (address : Int)
    (hNames : names = calls ∨ names = vectors)
    (hNamed : (names.find? address).isSome = true) :
    0x100 ≤ address := by
  have hAll :
      ∀ entry ∈ calls ++ vectors, 0x100 ≤ entry.1 := by
    decide +kernel
  rcases Option.isSome_iff_exists.mp hNamed with
    ⟨name, hName⟩
  have hEntry := names.mem_of_find? address name hName
  refine hAll (address, name) (List.mem_append.mpr ?_)
  rcases hNames with rfl | rfl
  · exact .inl hEntry
  · exact .inr hEntry

/- Nor does any address in a vector. -/
theorem lower_bound_of_vectorBase?
    (address base : Int)
    (hBase : vectorBase? address = some base) :
    0x100 ≤ address := by
  unfold vectorBase? at hBase
  split at hBase
  · rename_i hNamed
    exact lower_bound_of_find? vectors _ (.inr rfl) hNamed
  split at hBase
  · rename_i hNamed
    have hBound :=
      lower_bound_of_find? vectors _ (.inr rfl) hNamed
    unfold evenBase at hBound
    omega
  · cases hBase

end Mos

end Beeb

------------------------------------------------------------
-- Lines That Show Symbols
------------------------------------------------------------

namespace Beeb

namespace Listing

/-
  How the line of a step that refers to a vector shows this.
-/
inductive Refers
    (vars : List Variable)
    (name : String)
    (p : Placed)
    (line : Line) : Prop where
/- By the name of the vector. -/
| low
    (hOperand : line.operand? = some name)
/- By that name, one byte further on. -/
| high
    (hOperand : line.operand? = some (name ++ "+1"))
/- By a variable that has the value of the operand. -/
| substituted
    (v : Variable)
    (hMem : v ∈ vars)
    (hWord : p.word? = some v.value)
    (hOperand : line.operand? = some v.name)
/- Not at all: assemblers do not know the instruction. -/
| data
    (hUndocumented : p.step.isUndocumented = true)
    (hOperand : line.operand? = none)

end Listing

namespace Disassembly

open Listing

variable (d : Disassembly)

/-
  A complete step of a documented instruction is code if its
  absolute operand is past the zero page.
-/
theorem code_of_absolute
    (p : Placed)
    (i : Instruction)
    (word : Int)
    (hMem : p ∈ d.steps)
    (hComplete : p.step.complete? = some i)
    (hDocumented : i.documented = true)
    (hMode : i.mode = some .absolute)
    (hWord : Instruction.operandWord p.step.data = .ok word)
    (hPast : 0x100 ≤ word) :
    p.step.verdict = .code i := by
  rcases d.exists_course with ⟨final, hCourse, -⟩
  have hRegular := (hCourse.regular p hMem).1
  have hStart := hRegular.starts
  have hAdvances := hRegular.advances
  have hInside := hRegular.inside
  unfold Placed.stop at hInside
  have hSame : i.reassembles p.step.data = .ok true := by
    have hAbsolute : Mode.absolute.isAbsolute = true := rfl
    have hNoFold : ¬ word < 0x100 := by omega
    simp [Instruction.reassembles, hMode, hAbsolute, hWord,
      Except.map, hNoFold]
  exact
    Step.code_of_complete d.program p.position _ p.step i
      hStart (by omega)
      (fun target hTarget =>
        (Walk.pending?_eq_some _ _ _
          (d.window.hints_ascending _) hTarget).2.1)
      hRegular.classified hComplete hDocumented hSame

/- The instruction of a complete step is in the table. -/
theorem mem_table_of_complete
    (p : Placed)
    (i : Instruction)
    (hMem : p ∈ d.steps)
    (hComplete : p.step.complete? = some i) :
    i ∈ Instruction.table := by
  rcases (d.faithful_of_mem_steps p hMem).opening with
    ⟨first, rest, -, hInstruction⟩
  rw [((p.step.complete?_eq_some_iff i).mp hComplete).1]
    at hInstruction
  exact
    ((Instruction.ofOpcode?_eq_some_iff _ i).mp
      hInstruction.symm).1

variable (hShort : ∀ v ∈ d.vars, ¬ v.Overlong)

include hShort

/- A step that makes a system call shows the name of it. -/
theorem exists_line_of_call
    (p : Placed)
    (address : Int)
    (name : String)
    (hMem : p ∈ d.steps)
    (hCall : p.call? = some address)
    (hName : Mos.callName? address = some name) :
    ∃ line ∈ d.read.lines, line.operand? = some name := by
  rcases p.exists_of_call? address hCall with
    ⟨i, hComplete, hFlow, hMode, hWord, hNamed⟩
  have hTable := d.mem_table_of_complete p i hMem hComplete
  have hAbsolute :=
    (i.mode_of_jump hTable hFlow).resolve_right hMode
  have hCode :=
    d.code_of_absolute p i address hMem hComplete
      (i.documented_of_jump hTable hFlow) hAbsolute hWord
      (Mos.lower_bound_of_find? Mos.calls _ (.inl rfl) hNamed)
  have hText :
      Operand.text i p.step.data (p.address d.window.adjust)
          d.analysis.labels d.vars = .ok name := by
    rw [Operand.text_of_jump i _ _ _ _ address hFlow hAbsolute
      hWord, Operand.jumpTarget, hName]
    rfl
  exact
    ⟨_,
      (d.instruction_mem_read_iff hShort p i name name hMem
        hCode hText).mpr rfl,
      rfl⟩

/- A step that is not code has a line without an operand. -/
theorem exists_line_of_data
    (p : Placed)
    (hMem : p ∈ d.steps)
    (hData : ∀ i, p.step.verdict ≠ .code i) :
    ∃ line ∈ d.read.lines,
      line.address? = some (p.address d.window.adjust) ∧
        line.operand? = none := by
  rcases d.listed_bodyLines.exists_line p hMem with
    ⟨line, hLine, hShows⟩
  have hRead : line ∈ d.read.lines := by
    rw [(d.read_eq hShort).1]
    exact List.mem_append_right _ hLine
  refine ⟨line, hRead, hShows.address?_eq, ?_⟩
  rcases hShows.line_eq with
    ⟨i, operand, hCode, -, -⟩ | ⟨-, rfl⟩
  · exact absurd hCode (hData i)
  · rfl

/-
  A step that refers to a vector has a line, which shows the
  name of the vector unless a variable or the instruction
  prevents it.
-/
theorem exists_line_of_vector
    (p : Placed)
    (base : Int)
    (name : String)
    (hMem : p ∈ d.steps)
    (hVector : p.vector? = some base)
    (hName : Mos.vectorName? base = some name) :
    ∃ line ∈ d.read.lines,
      line.address? = some (p.address d.window.adjust) ∧
        Refers d.vars name p line := by
  rcases p.exists_of_vector? base hVector with
    ⟨i, word, hComplete, hFlow, hMode, hWord, hBase⟩
  by_cases hDocumented : i.documented = true
  · have hCode :=
      d.code_of_absolute p i word hMem hComplete hDocumented
        hMode hWord
        (Mos.lower_bound_of_vectorBase? word base hBase)
    have hText :
        Operand.text i p.step.data
            (p.address d.window.adjust) d.analysis.labels
            d.vars =
          .ok (Operand.absolute word d.vars) := by
      rw [Operand.text_of_mode i _ _ _ _ .absolute
        (by simp [hFlow]) hMode (by simp [hFlow])]
      simp only [Operand.ofMode, hWord]
      rfl
    refine
      ⟨_,
        (d.instruction_mem_read_iff hShort p i _ _ hMem hCode
          hText).mpr rfl,
        rfl, ?_⟩
    rw [Operand.absolute]
    cases hVariable : Variable.find? d.vars word with
    | some v =>
      have hValue : v.value = word := by
        simpa using List.find?_some hVariable
      refine
        .substituted v (List.mem_of_find?_eq_some hVariable)
          ?_ rfl
      rw [p.word?_eq_some_iff, hValue]
      exact hWord
    | none =>
      unfold Mos.vectorBase? at hBase
      cases hHere : Mos.vectorName? word with
      | some other =>
        rw [hHere] at hBase
        cases hBase
        rw [hName] at hHere
        cases hHere
        exact .low rfl
      | none =>
        rw [hHere] at hBase
        simp only [Option.isSome_none, Bool.false_eq_true,
          if_false, Option.ite_none_right_eq_some,
          Option.some.injEq] at hBase
        rw [hBase.2, hName]
        exact .high rfl
  · have hInstruction :=
      ((p.step.complete?_eq_some_iff i).mp hComplete).1
    have hUndocumented : p.step.isUndocumented = true := by
      simp [Step.isUndocumented, hInstruction, hDocumented]
    have hData : ∀ j, p.step.verdict ≠ .code j := by
      intro j hCode
      have hKnown :=
        ((d.faithful_of_mem_steps p hMem).code j hCode).2.1
      rw [hCode] at hInstruction
      cases hInstruction
      exact hDocumented hKnown
    rcases d.exists_line_of_data hShort p hMem hData with
      ⟨line, hLine, hAddress, hOperand⟩
    exact ⟨line, hLine, hAddress, .data hUndocumented hOperand⟩

end Disassembly

end Beeb

------------------------------------------------------------
-- Symbols That A Header Defines
------------------------------------------------------------

namespace Beeb

namespace Listing

/- A definition in a block is one of an address in use. -/
theorem exists_of_mem_definitions
    (names : Mos.Names)
    (width : Nat)
    (addresses : AddressSet)
    (hNames : names ⊆ Mos.calls ++ Mos.vectors)
    (hNamed : ∀ address ∈ addresses,
      (names.find? address).isSome = true)
    (text : String)
    (hMem :
      text ∈
        (addresses.toList.map (.ofAddress names)).map
          (Symbol.definition width)) :
    ∃ name address,
      address ∈ addresses ∧
        names.find? address = some name ∧
        definition? text = some (name, address) := by
  rw [List.map_map] at hMem
  rcases List.mem_map.mp hMem with ⟨address, hAddress, rfl⟩
  have hUsed := Std.TreeSet.mem_toList.mp hAddress
  rcases Option.isSome_iff_exists.mp
      (hNamed address hUsed) with
    ⟨name, hName⟩
  refine ⟨name, address, hUsed, hName, ?_⟩
  have hEntry := names.mem_of_find? address name hName
  have hDefined :=
    definition?_symbol width (address, name) (hNames hEntry)
  simpa [Symbol.ofAddress, hName] using hDefined

end Listing

namespace Disassembly

open Listing

/-
  The header defines system symbols that the program refers
  to. The name of every entry point under its heading is the
  operand of an instruction in the same listing. Every
  vector under its heading is referred to by some step. The
  line of each such step shows the name of the vector, or the
  name and `+1`, unless assemblers do not know the
  instruction, or a variable has the value of its operand
  and so is shown in its place.
-/
theorem system_symbols_used
    (d : Disassembly) :
    let lines := d.read.lines
    (∀ text ∈ blockUnder "OS Call Addresses" lines,
      ∃ name address,
        definition? text = some (name, address) ∧
          Mos.callName? address = some name ∧
          ∃ line ∈ lines, line.operand? = some name) ∧
      ∀ text ∈ blockUnder "OS Vector Addresses" lines,
        ∃ name base,
          definition? text = some (name, base) ∧
            Mos.vectorName? base = some name ∧
            (∃ p ∈ d.steps, p.vector? = some base) ∧
            ∀ p ∈ d.steps,
              p.vector? = some base →
                ∃ line ∈ lines,
                  line.address? =
                      some (p.address d.window.adjust) ∧
                    Refers d.vars name p line := by
  intro lines
  rcases Variable.overlong_or_short d.vars with
    hLong | hShort
  · have hNone : lines = [] := (d.read_of_overlong hLong).2
    rw [hNone]
    constructor
    · intro text hMem
      cases hMem
    · intro text hMem
      cases hMem
  rcases blocks_of_headerTexts d.analysis d.vars d.loadAddress
      lines (d.headerTexts_read hShort) with
    ⟨hCalls, hVectors, -⟩
  have hNamed : d.analysis.Named :=
    Analysis.named_ofSteps d.window.adjust d.steps
  rw [hCalls, hVectors]
  constructor
  · intro text hMem
    rcases exists_of_mem_definitions _ _ _
        (List.subset_append_left _ _) hNamed.calls text hMem
      with ⟨name, address, hUsed, hName, hDefined⟩
    rcases (Analysis.mem_calls_iff _ _ _).mp hUsed with
      ⟨p, hp, hCall⟩
    exact
      ⟨name, address, hDefined, hName,
        d.exists_line_of_call hShort p address name hp hCall
          hName⟩
  · intro text hMem
    rcases exists_of_mem_definitions _ _ _
        (List.subset_append_right _ _) hNamed.vectors text
        hMem with
      ⟨name, base, hUsed, hName, hDefined⟩
    exact
      ⟨name, base, hDefined, hName,
        (Analysis.mem_vectors_iff _ _ _).mp hUsed,
        fun p hp hVector =>
          d.exists_line_of_vector hShort p base name hp
            hVector hName⟩

/-
  A vector need not be shown by its name: here a variable has
  its value, and there assemblers do not know the
  instruction.
-/
theorem vector_not_shown :
    let d : Disassembly :=
      ⟨#[0xAD, 0x00, 0x02], ⟨0, 3, 0⟩, [],
        [⟨"screen", 0x200⟩], rfl⟩
    let e : Disassembly :=
      ⟨#[0x0F, 0x00, 0x02], ⟨0, 3, 0⟩, [], [], rfl⟩
    definition? "USERV = &200" = some ("USERV", 0x200) ∧
      blockUnder "OS Vector Addresses" d.read.lines =
        ["USERV = &200"] ∧
      d.read.lines.filterMap Line.operand? = ["screen"] ∧
      blockUnder "OS Vector Addresses" e.read.lines =
        ["USERV = &200"] ∧
      e.read.lines.filterMap Line.operand? = [] := by
  decide +kernel

end Disassembly

end Beeb
