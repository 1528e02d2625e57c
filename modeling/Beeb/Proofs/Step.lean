import Beeb.Proofs.Instruction
import Beeb.Step

/-
  Steps inside a program: what classification gives at a
  position of the program.

  A step takes one byte if no instruction begins there.
  Otherwise it takes the instruction, cut off at the next
  known code position and at the end of the program.

  Main declarations:
    * `Bytes.slice_append_slice`
    * `Step.reach`
    * `Step.Faithful`
    * `Step.straddlesCode_iff`
    * `Step.classify_eq_ok`
    * `Step.code_of_complete`
-/

------------------------------------------------------------
-- Positions In A Program
------------------------------------------------------------

namespace Beeb

namespace Bytes

/- Every position of a program has a byte. -/
theorem fetch_eq_ok
    (bytes : Bytes)
    (position : Int)
    (hStart : 0 ≤ position)
    (hEnd : position < bytes.size) :
    ∃ b,
      bytes.toList[position.toNat]? = some b ∧
        bytes.fetch position = .ok b := by
  have hIndex : position.toNat < bytes.size := by omega
  refine ⟨bytes[position.toNat], by simp [hIndex], ?_⟩
  have hPositive : ¬ position < 0 := by omega
  simp [fetch, hPositive, hIndex]

/- A slice as a part of the list of all bytes. -/
theorem toList_slice
    (bytes : Bytes)
    (start stop : Int)
    (hStart : 0 ≤ start)
    (hOrder : start ≤ stop) :
    (bytes.slice start stop).toList =
      (bytes.toList.drop start.toNat).take
        (stop - start).toNat := by
  have hStartPositive : ¬ start < 0 := by omega
  have hStopPositive : ¬ stop < 0 := by omega
  simp only [slice, clamp, hStartPositive, hStopPositive,
    if_false, Array.toList_extract, List.extract]
  by_cases hInside : start.toNat ≤ bytes.size
  · rw [Nat.min_eq_left hInside]
    apply List.ext_getElem?
    intro index
    simp only [List.getElem?_take, List.getElem?_drop]
    split <;> split <;> grind
  · have hShort : bytes.toList.length ≤ start.toNat := by
      simp only [Array.length_toList]
      omega
    rw [List.drop_eq_nil_of_le hShort]
    simp
    omega

/- How many bytes a slice has. -/
theorem length_slice
    (bytes : Bytes)
    (start stop : Int)
    (hStart : 0 ≤ start)
    (hOrder : start ≤ stop)
    (hInside : start ≤ bytes.size) :
    ((bytes.slice start stop).toList.length : Int) =
      min stop bytes.size - start := by
  rw [toList_slice bytes start stop hStart hOrder]
  simp only [List.length_take, List.length_drop,
    Array.length_toList]
  omega

/- A slice begins with the byte at its start. -/
theorem head?_slice
    (bytes : Bytes)
    (start stop : Int)
    (hStart : 0 ≤ start)
    (hOrder : start < stop) :
    (bytes.slice start stop).toList.head? =
      bytes.toList[start.toNat]? := by
  rw [toList_slice bytes start stop hStart (by omega),
    List.head?_take, List.head?_drop]
  have hSome : (stop - start).toNat ≠ 0 := by omega
  simp [hSome]

/- A slice past the end of the program is cut off there. -/
theorem slice_eq_slice_min
    (bytes : Bytes)
    (start stop : Int)
    (hStop : 0 ≤ stop) :
    bytes.slice start stop =
      bytes.slice start (min stop bytes.size) := by
  have hClamp :
      clamp bytes.size stop =
        clamp bytes.size (min stop bytes.size) := by
    unfold clamp
    split <;> split <;> omega
  rw [slice, slice, hClamp]

/- A slice is told by its start and by how long it is. -/
theorem slice_eq_slice_add_length
    (bytes : Bytes)
    (start stop : Int)
    (hStart : 0 ≤ start)
    (hOrder : start ≤ stop)
    (hInside : start ≤ bytes.size) :
    bytes.slice start stop =
      bytes.slice start
        (start + (bytes.slice start stop).toList.length) := by
  rw [length_slice bytes start stop hStart hOrder hInside,
    slice_eq_slice_min bytes start stop (by omega)]
  congr 1
  omega

/- Slices that meet make up one slice. -/
theorem slice_append_slice
    (bytes : Bytes)
    (start middle stop : Int)
    (hStart : 0 ≤ start)
    (hFirst : start ≤ middle)
    (hSecond : middle ≤ stop) :
    (bytes.slice start middle).toList ++
        (bytes.slice middle stop).toList =
      (bytes.slice start stop).toList := by
  rw [toList_slice bytes start middle hStart hFirst,
    toList_slice bytes middle stop (by omega) hSecond,
    toList_slice bytes start stop hStart (by omega)]
  have hMiddle :
      middle.toNat = start.toNat + (middle - start).toNat := by
    omega
  have hLength :
      (stop - start).toNat =
        (middle - start).toNat + (stop - middle).toNat := by
    omega
  rw [hMiddle, hLength, ← List.drop_drop, List.take_add]

end Bytes

end Beeb

------------------------------------------------------------
-- The Length Of A Step
------------------------------------------------------------

namespace Beeb

namespace Step

/-
  How far a step goes that begins at a cursor: one byte if no
  instruction begins there, else as far as the instruction,
  the next known code position and the program allow.
-/
def reach
    (instruction? : Option Instruction)
    (cursor : Int)
    (pending : Option Int)
    (size : Int) : Int :=
  match instruction?, pending with
  | none, _ => 1
  | some i, none => min i.length (size - cursor)
  | some i, some target =>
    min (min i.length (target - cursor)) (size - cursor)

/-
  A step advances, and stays within the program and before
  the next known code position.
-/
theorem reach_bounds
    (opcode cursor : Int)
    (pending : Option Int)
    (size : Int)
    (hEnd : cursor < size)
    (hPending : ∀ target ∈ pending, cursor < target) :
    let length :=
      reach (Instruction.ofOpcode? opcode) cursor pending size
    0 < length ∧ length ≤ 3 ∧ cursor + length ≤ size ∧
      ∀ target ∈ pending, cursor + length ≤ target := by
  cases hFind : Instruction.ofOpcode? opcode with
  | none =>
    refine ⟨by simp [reach], by simp [reach], ?_, ?_⟩
    · simp only [reach]
      omega
    · intro target hTarget
      have hAhead := hPending target hTarget
      simp only [reach]
      omega
  | some i =>
    have hTable :=
      ((Instruction.ofOpcode?_eq_some_iff opcode i).mp hFind).1
    have hLength := Instruction.length_bounds i hTable
    cases pending with
    | none =>
      simp only [reach]
      refine ⟨by omega, by omega, by omega, by simp⟩
    | some target =>
      have hAhead := hPending target rfl
      simp only [reach, Option.mem_def, Option.some.injEq,
        forall_eq']
      omega

end Step

end Beeb

------------------------------------------------------------
-- Classification
------------------------------------------------------------

namespace Beeb

namespace Step

/-
  What a step says of its bytes: the first of them tells the
  instruction, and code is an instruction that is all there
  and reassembles.
-/
structure Faithful
    (s : Step) : Prop where
  opening : ∃ first rest,
    s.data = first :: rest ∧
      s.verdict.instruction? =
        Instruction.ofOpcode? first.toNat
  code : ∀ i,
    s.verdict = .code i →
      s.length = i.length ∧ i.documented = true ∧
        i.reassembles s.data = .ok true

/- Which steps are listed as instructions. -/
theorem isCode_iff
    (s : Step) :
    s.isCode = true ↔ ∃ i, s.verdict = .code i := by
  unfold isCode
  cases s.verdict <;> simp

/- All others are listed as data. -/
theorem isCode_eq_false
    (s : Step)
    (hData : ∀ i, s.verdict ≠ .code i) :
    s.isCode = false := by
  rw [← Bool.not_eq_true, s.isCode_iff]
  exact fun ⟨i, hCode⟩ => hData i hCode

/- Code covers all of its instruction. -/
theorem complete?_of_code
    (s : Step)
    (i : Instruction)
    (hFaithful : s.Faithful)
    (hCode : s.verdict = .code i) :
    s.complete? = some i := by
  have hLength := (hFaithful.code i hCode).1
  simp [complete?, Verdict.instruction?, hCode, hLength]

/- The verdict on an instruction is about that instruction. -/
theorem judge_eq_ok
    (i : Instruction)
    (data : List UInt8)
    (hTable : i ∈ Instruction.table)
    (hLength : (data.length : Int) ≤ i.length) :
    ∃ verdict,
      judge i data = .ok verdict ∧
        verdict.instruction? = some i ∧
        ∀ j, verdict = .code j →
          j = i ∧ (data.length : Int) = i.length ∧
            i.documented = true ∧
            i.reassembles data = .ok true := by
  unfold judge
  by_cases hShort : (data.length : Int) < i.length
  · exact ⟨.endOfProgram i, by simp [hShort], rfl, by simp⟩
  by_cases hDocumented : i.documented = true
  · have hWhole : (data.length : Int) = i.length := by omega
    rcases Instruction.reassembles_eq_ok i data hTable hWhole
      with ⟨same, hSame⟩
    cases same with
    | true =>
      refine ⟨.code i, ?_, rfl, ?_⟩
      · simp [hShort, hDocumented, hSame, Except.map]
      · rintro j hCode
        cases hCode
        exact ⟨rfl, hWhole, hDocumented, hSame⟩
    | false =>
      refine ⟨.zeroPageFold i, ?_, rfl, by simp⟩
      simp [hShort, hDocumented, hSame, Except.map]
  · refine ⟨.undocumented i, ?_, rfl, by simp⟩
    simp [hShort, hDocumented]

/- A verdict on the bytes alone is not about positions. -/
theorem judge_ne_straddlesCode
    (i j : Instruction)
    (data : List UInt8) :
    judge i data ≠ .ok (.straddlesCode j) := by
  unfold judge
  split
  · simp
  split
  · simp
  cases i.reassembles data with
  | error e => simp [Except.map]
  | ok same => cases same <;> simp [Except.map]

/-
  The next known code position cuts an instruction off if
  and only if its bytes would run past this position.
-/
theorem straddlesCode_iff
    (program : Bytes)
    (cursor : Int)
    (pending : Option Int)
    (i : Instruction)
    (s : Step)
    (hStep : ofInstruction program cursor pending i = .ok s) :
    s.verdict = .straddlesCode i ↔
      straddles cursor i.length pending = true := by
  unfold ofInstruction at hStep
  unfold straddles
  cases hCut : cut? cursor i.length pending with
  | some target =>
    rw [hCut] at hStep
    cases hStep
    simp
  | none =>
    simp only [hCut] at hStep
    cases hJudge :
        judge i
          (program.slice cursor (cursor + i.length)).toList with
    | error e =>
      rw [hJudge] at hStep
      cases hStep
    | ok verdict =>
      rw [hJudge] at hStep
      cases hStep
      have hOther : verdict ≠ .straddlesCode i := by
        rintro rfl
        exact judge_ne_straddlesCode i i _ hJudge
      simp [hOther]

/-
  The step of an instruction, if it begins inside the program
  and before the next known code position.
-/
theorem ofInstruction_eq_ok
    (program : Bytes)
    (cursor : Int)
    (pending : Option Int)
    (i : Instruction)
    (hTable : i ∈ Instruction.table)
    (hStart : 0 ≤ cursor)
    (hEnd : cursor < program.size)
    (hPending : ∀ target ∈ pending, cursor < target) :
    ∃ verdict stop,
      ofInstruction program cursor pending i =
          .ok ⟨verdict, (program.slice cursor stop).toList⟩ ∧
        cursor < stop ∧
        min stop program.size - cursor =
          reach (some i) cursor pending program.size ∧
        verdict.instruction? = some i ∧
        ∀ j, verdict = .code j →
          j = i ∧
            ((program.slice cursor stop).toList.length : Int) =
              i.length ∧
            i.documented = true ∧
            i.reassembles (program.slice cursor stop).toList =
              .ok true := by
  have hLength := Instruction.length_bounds i hTable
  unfold ofInstruction
  cases hCut : cut? cursor i.length pending with
  | some target =>
    simp only [cut?, Option.filter_eq_some_iff,
      decide_eq_true_eq] at hCut
    have hAhead := hPending target hCut.1
    refine ⟨.straddlesCode i, target, rfl, hAhead, ?_, rfl,
      by simp⟩
    simp only [reach, hCut.1]
    omega
  | none =>
    simp only [cut?, Option.filter_eq_none_iff,
      decide_eq_true_eq] at hCut
    have hShort :
        ((program.slice cursor
          (cursor + i.length)).toList.length : Int) ≤
            i.length := by
      rw [Bytes.length_slice _ _ _ hStart (by omega)
        (by omega)]
      omega
    rcases judge_eq_ok i _ hTable hShort with
      ⟨verdict, hJudge, hInstruction, hCode⟩
    refine ⟨verdict, cursor + i.length, ?_, by omega, ?_,
      hInstruction, hCode⟩
    · simp [hJudge, Except.map]
    · cases pending with
      | none =>
        simp only [reach]
        omega
      | some target =>
        have hClear := hCut target rfl
        simp only [reach]
        omega

/-
  There is a step at every position of the program. Its
  bytes are those of the program from there on.
-/
theorem classify_eq_ok
    (program : Bytes)
    (cursor : Int)
    (pending : Option Int)
    (hStart : 0 ≤ cursor)
    (hEnd : cursor < program.size)
    (hPending : ∀ target ∈ pending, cursor < target) :
    ∃ first s,
      program.fetch cursor = .ok first ∧
        classify program cursor pending = .ok s ∧
        s.length =
          reach (Instruction.ofOpcode? first.toNat) cursor
            pending program.size ∧
        s.data =
          (program.slice cursor (cursor + s.length)).toList ∧
        s.Faithful := by
  rcases Bytes.fetch_eq_ok program cursor hStart hEnd with
    ⟨first, hFirst, hFetch⟩
  -- Whatever the verdict, the bytes are a slice that begins
  -- with the byte fetched.
  have hSlice :
      ∀ verdict stop,
        cursor < stop →
          let s : Step :=
            ⟨verdict, (program.slice cursor stop).toList⟩
          s.length = min stop program.size - cursor ∧
            s.data =
              (program.slice cursor
                (cursor + s.length)).toList ∧
            s.data.head? = some first := by
    intro verdict stop hStop
    refine ⟨?_, ?_, ?_⟩
    · exact Bytes.length_slice _ _ _ hStart (by omega)
        (by omega)
    · exact congrArg Array.toList
        (Bytes.slice_eq_slice_add_length _ _ _ hStart
          (by omega) (by omega))
    · rw [← hFirst]
      exact Bytes.head?_slice _ _ _ hStart hStop
  refine ⟨first, ?_⟩
  unfold classify
  rw [hFetch]
  simp only [Except.bind]
  cases hFind : Instruction.ofOpcode? first.toNat with
  | none =>
    rcases hSlice .unknownOpcode (cursor + 1) (by omega)
      with ⟨hLength, hData, hHead⟩
    rcases List.head?_eq_some_iff.mp hHead with
      ⟨rest, hRest⟩
    refine ⟨_, trivial, rfl, ?_, hData, ?_, by simp⟩
    · rw [hLength, reach]
      omega
    · exact ⟨first, rest, hRest, hFind.symm⟩
  | some i =>
    have hTable :=
      ((Instruction.ofOpcode?_eq_some_iff _ i).mp hFind).1
    rcases ofInstruction_eq_ok program cursor pending i hTable
        hStart hEnd hPending with
      ⟨verdict, stop, hStep, hStop, hReach, hInstruction,
        hCode⟩
    rcases hSlice verdict stop hStop with
      ⟨hLength, hData, hHead⟩
    rcases List.head?_eq_some_iff.mp hHead with
      ⟨rest, hRest⟩
    refine ⟨_, trivial, hStep, ?_, hData, ?_, ?_⟩
    · rw [hLength, hReach]
    · exact
        ⟨first, rest, hRest, hInstruction.trans hFind.symm⟩
    · intro j hVerdict
      rcases hCode j hVerdict with ⟨rfl, hWhole⟩
      exact hWhole

end Step

end Beeb

------------------------------------------------------------
-- Complete Steps
------------------------------------------------------------

namespace Beeb

namespace Step

/- What a complete step is about is its instruction. -/
theorem complete?_eq_some_iff
    (s : Step)
    (i : Instruction) :
    s.complete? = some i ↔
      s.verdict.instruction? = some i ∧
        s.length = i.length := by
  rw [complete?, Option.filter_eq_some_iff,
    decide_eq_true_eq]

/- So is the verdict on an instruction that is all there. -/
theorem code_of_judge
    (data : List UInt8)
    (i j : Instruction)
    (verdict : Verdict)
    (hJudge : judge j data = .ok verdict)
    (hInstruction : verdict.instruction? = some i)
    (hLength : (data.length : Int) = i.length)
    (hDocumented : i.documented = true)
    (hSame : i.reassembles data = .ok true) :
    verdict = .code i := by
  unfold judge at hJudge
  split at hJudge
  · rename_i hShort
    cases hJudge
    cases hInstruction
    omega
  split at hJudge
  · rename_i hUnknown
    cases hJudge
    cases hInstruction
    rw [hDocumented] at hUnknown
    cases hUnknown
  cases hAgain : j.reassembles data with
  | error e =>
    rw [hAgain] at hJudge
    cases hJudge
  | ok same =>
    rw [hAgain] at hJudge
    cases same with
    | true =>
      cases hJudge
      cases hInstruction
      rfl
    | false =>
      cases hJudge
      cases hInstruction
      rw [hSame] at hAgain
      cases hAgain

/-
  A complete step is code if assemblers know its instruction
  and give it the same bytes again.
-/
theorem code_of_complete
    (program : Bytes)
    (cursor : Int)
    (pending : Option Int)
    (s : Step)
    (i : Instruction)
    (hStart : 0 ≤ cursor)
    (hEnd : cursor < program.size)
    (hPending : ∀ target ∈ pending, cursor < target)
    (hStep : classify program cursor pending = .ok s)
    (hComplete : s.complete? = some i)
    (hDocumented : i.documented = true)
    (hSame : i.reassembles s.data = .ok true) :
    s.verdict = .code i := by
  rcases (s.complete?_eq_some_iff i).mp hComplete with
    ⟨hInstruction, hLength⟩
  rcases program.fetch_eq_ok cursor hStart hEnd with
    ⟨first, -, hFetch⟩
  unfold classify at hStep
  rw [hFetch] at hStep
  simp only [Except.bind] at hStep
  cases hFind : Instruction.ofOpcode? first.toNat with
  | none =>
    rw [hFind] at hStep
    cases hStep
    cases hInstruction
  | some j =>
    rw [hFind] at hStep
    simp only [ofInstruction] at hStep
    cases hCut : cut? cursor j.length pending with
    | some target =>
      -- A step that is cut off is too short.
      rw [hCut] at hStep
      cases hStep
      cases hInstruction
      simp only [cut?, Option.filter_eq_some_iff,
        decide_eq_true_eq] at hCut
      have hAhead := hPending target hCut.1
      have hShort :=
        program.length_slice cursor target hStart (by omega)
          (by omega)
      simp only [length] at hLength
      omega
    | none =>
      rw [hCut] at hStep
      simp only at hStep
      cases hJudge :
          judge j
            (program.slice cursor
              (cursor + j.length)).toList with
      | error e =>
        rw [hJudge] at hStep
        cases hStep
      | ok verdict =>
        rw [hJudge] at hStep
        cases hStep
        exact
          code_of_judge _ i j verdict hJudge hInstruction
            hLength hDocumented hSame

end Step

end Beeb
