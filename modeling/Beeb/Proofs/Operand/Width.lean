import Beeb.Proofs.Operand.Appearance

/-
  How long operands are.

  Without variables only the name of a label can be longer
  than a few characters: it holds a number, which is no
  larger than the address of the label.

  Main declarations:
    * `Labels.NamesWithin`
    * `Operand.Looks.length_le`
    * `Operand.length_ofMode_le`
    * `Operand.length_text_le`
    * `Analysis.namesWithin_labels`
-/

------------------------------------------------------------
-- Names
------------------------------------------------------------

namespace Beeb

/- No label has a name that is longer than a width. -/
def Labels.NamesWithin
    (labels : Labels)
    (width : Nat) : Prop :=
  ∀ (address : Int) (label : Label) (name : String),
    labels[address]? = some label →
      label.name = .ok name → name.length ≤ width

/- The names of system symbols are short. -/
theorem Mos.Names.length_le_of_find?
    (names : Mos.Names)
    (address : Int)
    (name : String)
    (hNames : names ⊆ Mos.calls ++ Mos.vectors)
    (hName : names.find? address = some name) :
    name.length ≤ 6 := by
  have hAll :
      ∀ entry ∈ Mos.calls ++ Mos.vectors,
        entry.2.length ≤ 6 := by
    decide
  exact
    hAll (address, name)
      (hNames (names.mem_of_find? address name hName))

end Beeb

------------------------------------------------------------
-- Operands
------------------------------------------------------------

namespace Beeb

namespace Operand

/- A number that fits a width. -/
theorem length_number
    (width : Nat)
    (n : Int)
    (hWidth : 0 < width)
    (hPositive : 0 ≤ n)
    (hFits : n < Nat.pow 16 width) :
    (number width n).length = width + 1 := by
  have hSmall : n.toNat < Nat.pow 16 width := by omega
  rw [← String.length_toList,
    toList_number width n hPositive, List.length_cons,
    Numeral.length_hexDigits width n.toNat hWidth hSmall]

/- A distance that a branch can go. -/
theorem length_relative_le
    (distance : Int)
    (hDistance : distance.natAbs < 1000) :
    (relative distance).length ≤ 6 := by
  have hDigits :
      (Nat.toDigits 10 distance.natAbs).length ≤ 3 :=
    (Nat.length_toDigits_le_iff (by decide) (by decide)).mpr
      hDistance
  rw [← String.length_toList, Assembler.toList_relative]
  simp only [List.length_cons]
  omega

/- A branch goes less than 130 bytes. -/
theorem natAbs_displacement_lt
    (data : List UInt8)
    (distance : Int)
    (hDistance :
      Instruction.displacement data = .ok distance) :
    distance.natAbs < 130 := by
  match data with
  | _ :: b :: _ =>
    have hByte := b.toNat_lt
    rw [Instruction.displacement, Except.ok.injEq]
      at hDistance
    split at hDistance <;> omega
  | [_] | [] => cases hDistance

/- An operand that looks like any mode but absolute. -/
theorem Looks.length_le
    {mode : Mode}
    {text : List Char}
    (hLooks : Looks mode text)
    (hMode : mode ≠ .absolute) :
    text.length ≤ 7 := by
  cases hLooks with
  | framed mode digits hDigits hCount =>
    rw [Frame.fill, List.length_append, List.length_append,
      hCount]
    cases mode with
    | _ => decide
  | named first rest hFirst => exact absurd rfl hMode

/- An absolute operand that no variable stands for. -/
theorem length_absolute_le
    (word : Int)
    (hPositive : 0 ≤ word)
    (hWord : word < 0x10000) :
    (absolute word []).length ≤ 8 := by
  have hVectors : Mos.vectors ⊆ Mos.calls ++ Mos.vectors :=
    List.subset_append_right _ _
  have hNumber :=
    length_number 4 word (by decide) hPositive hWord
  have hNone : Variable.find? [] word = none := rfl
  unfold absolute
  rw [hNone]
  cases hName : Mos.vectorName? word with
  | some name =>
    have hLength :=
      Mos.vectors.length_le_of_find? word name hVectors hName
    simp only
    omega
  | none =>
    cases hBase : Mos.vectorName? (Mos.evenBase word) with
    | some name =>
      have hLength :=
        Mos.vectors.length_le_of_find? _ name hVectors hBase
      have hSuffix : "+1".length = 2 := rfl
      simp only [String.length_append]
      omega
    | none =>
      simp only
      omega

/- An operand whose form says all. -/
theorem length_ofMode_le
    (mode : Mode)
    (data : List UInt8)
    (operand : String)
    (hText : ofMode mode data [] = .ok operand) :
    operand.length ≤ 8 := by
  by_cases hMode : mode = .absolute
  · subst hMode
    cases hWord : Instruction.operandWord data with
    | error e => simp [ofMode, hWord, Except.map] at hText
    | ok word =>
      rcases Instruction.operandWord_bounds data word hWord
        with ⟨hPositive, hShort⟩
      simp only [ofMode, hWord, Except.map,
        Except.ok.injEq] at hText
      rw [← hText]
      exact length_absolute_le word hPositive hShort
  · have hLooks :=
      looks_ofMode mode data [] operand (by simp) hText
    have hLength := hLooks.length_le hMode
    rw [String.length_toList] at hLength
    omega

variable (labels : Labels)
variable (operand : String)
variable (width : Nat)
variable (hWidth : 8 ≤ width)
variable (hNames : labels.NamesWithin width)

include hWidth hNames

/- The target of a branch. -/
theorem length_branchTarget_le
    (address distance : Int)
    (hDistance : distance.natAbs < 1000)
    (hText :
      branchTarget address distance labels = .ok operand) :
    operand.length ≤ width := by
  unfold branchTarget at hText
  cases hLabel : labels[address + distance]? with
  | some label =>
    rw [hLabel] at hText
    exact hNames _ label operand hLabel hText
  | none =>
    rw [hLabel] at hText
    cases hText
    have hLength := length_relative_le distance hDistance
    omega

/- The target of a jump. -/
theorem length_jumpTarget_le
    (target : Int)
    (hPositive : 0 ≤ target)
    (hWord : target < 0x10000)
    (hText : jumpTarget target labels = .ok operand) :
    operand.length ≤ width := by
  unfold jumpTarget at hText
  cases hName : Mos.callName? target with
  | some name =>
    rw [hName] at hText
    cases hText
    have hLength :=
      Mos.calls.length_le_of_find? target operand
        (List.subset_append_left _ _) hName
    omega
  | none =>
    rw [hName] at hText
    cases hLabel : labels[target]? with
    | some label =>
      simp only [hLabel] at hText
      exact hNames target label operand hLabel hText
    | none =>
      simp only [hLabel, Except.ok.injEq] at hText
      rw [← hText,
        length_number 4 target (by decide) hPositive hWord]
      omega

/-
  The operand of an instruction is no longer than the names
  of labels are, or than a few characters.
-/
theorem length_text_le
    (i : Instruction)
    (data : List UInt8)
    (address : Int)
    (hTable : i ∈ Instruction.table)
    (hText : text i data address labels [] = .ok operand) :
    operand.length ≤ width := by
  rcases cases_of_text i data address labels [] operand hTable
      hText with
    ⟨distance, -, hDistance, hTarget⟩ |
      ⟨target, -, hWord, hTarget⟩ | ⟨mode, -, hOf⟩
  · have hNear := natAbs_displacement_lt data _ hDistance
    exact
      length_branchTarget_le labels operand width hWidth
        hNames address distance (by omega) hTarget
  · rcases Instruction.operandWord_bounds data target hWord
      with ⟨hPositive, hShort⟩
    exact
      length_jumpTarget_le labels operand width hWidth hNames
        target hPositive hShort hTarget
  · have hLength := length_ofMode_le mode data operand hOf
    omega

end Operand

end Beeb

------------------------------------------------------------
-- Names Of Labels
------------------------------------------------------------

namespace Beeb

/-
  Ascending addresses leave their place behind, one after
  the other.
-/
theorem add_le_of_ascending
    (addresses : List Int)
    (start : Int)
    (hAscending : addresses.Pairwise (· < ·))
    (hStart : ∀ address ∈ addresses, start ≤ address)
    (index : Nat)
    (address : Int)
    (hIndex : addresses[index]? = some address) :
    start + index ≤ address := by
  induction addresses generalizing start index with
  | nil => simp at hIndex
  | cons first rest ih =>
    rw [List.pairwise_cons] at hAscending
    rcases hAscending with ⟨hFirst, hRest⟩
    have hHere := hStart first (by simp)
    cases index with
    | zero =>
      rw [List.getElem?_cons_zero, Option.some.injEq]
        at hIndex
      omega
    | succ index =>
      rw [List.getElem?_cons_succ] at hIndex
      have hLater :=
        ih (start + 1) hRest
          (fun other hMem => by
            have hLess := hFirst other hMem
            omega)
          index hIndex
      omega

/-
  The number of a label is not larger than its address, so
  its name is short if the address is.
-/
theorem Analysis.namesWithin_labels
    (adjust : Int)
    (steps : List Placed)
    (digits : Nat)
    (hDigits : 0 < digits)
    (hSteps :
      ∀ p ∈ steps,
        0 ≤ p.address adjust ∧
          p.address adjust < Nat.pow 10 digits) :
    (ofSteps adjust steps).labels.NamesWithin
      (6 + digits) := by
  intro address label name hLabel hName
  have hBounds :
      ∀ address ∈ survivors adjust steps,
        0 ≤ address ∧ address < Nat.pow 10 digits := by
    intro address hMem
    rcases ((mem_survivors_iff adjust steps address).mp
        hMem).2 with
      ⟨p, hp, rfl⟩
    exact hSteps p hp
  rcases (getElem?_labels adjust steps address label).mp
      hLabel with
    ⟨index, hIndex, rfl⟩
  have hIndexLe :=
    add_le_of_ascending _ 0 (survivors_ascending adjust steps)
      (fun other hMem => (hBounds other hMem).1) index address
      hIndex
  have hAddress :=
    hBounds address (List.mem_of_getElem? hIndex)
  have hSmall : index < Nat.pow 10 digits := by omega
  have hNumber :
      (Nat.toDigits 10 index).length ≤ digits :=
    (Nat.length_toDigits_le_iff (by decide) hDigits).mpr
      hSmall
  rw [Label.name, Except.ok.injEq] at hName
  rw [← hName, ← String.length_toList, Assembler.toList_label,
    List.length_append]
  exact Nat.add_le_add_left hNumber 6

end Beeb
