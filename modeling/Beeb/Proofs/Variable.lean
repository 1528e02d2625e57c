import Beeb.Proofs.Numeral.Reading
import Beeb.Text.Split
import Beeb.Variable

/-
  Definitions that are written can be read: a name, blanks,
  an equals sign and a number.

  Main declarations:
    * `Variable.isName_of_parse`
    * `Variable.parse_of_parts`
    * `Variable.exists_head_decimal`
-/

------------------------------------------------------------
-- Names
------------------------------------------------------------

namespace Beeb

namespace Variable

/- The code points of white space. -/
def blankCodes : List Nat :=
  List.range' 9 5 ++ List.range' 0x1C 5 ++
    List.range' 0x2000 11 ++
    [0x85, 0xA0, 0x1680, 0x2028, 0x2029, 0x202F, 0x205F,
      0x3000]

/- Names hold no white space. -/
theorem isBlank_of_continuesName
    (c : Char)
    (hName : continuesName c = true) :
    Text.isBlank c = false := by
  have hAll :
      ∀ n ∈ blankCodes,
        continuesName (Char.ofNat n) = false := by
    decide +kernel
  rw [← Bool.not_eq_true]
  intro hBlank
  have hCode : c.toNat ∈ blankCodes := by
    simp only [Text.isBlank, Bool.or_eq_true,
      Bool.and_eq_true, decide_eq_true_eq, beq_iff_eq]
      at hBlank
    simp only [blankCodes, List.mem_append,
      List.mem_range'_1, List.mem_cons, List.not_mem_nil,
      or_false]
    omega
  have hNone := hAll c.toNat hCode
  rw [Char.ofNat_toNat, hName] at hNone
  cases hNone

/- What may begin a name in the first half of the codes. -/
theorem beginsName_of_ascii
    (c : Char)
    (hAscii : c.toNat < 128) :
    beginsName c = (c.isAlpha || c = '_') := by
  rw [beginsName, Text.isLetter, if_pos hAscii]

/- What begins a name may also continue it. -/
theorem toList_of_isName
    (name : String)
    (hName : isName name = true) :
    name.toList ≠ [] ∧
      ∀ c ∈ name.toList, continuesName c = true := by
  simp only [isName, Bool.and_eq_true] at hName
  refine ⟨?_, List.all_eq_true.mp hName.2⟩
  intro hEmpty
  rw [hEmpty] at hName
  cases hName.1

/- A name does not hold what may not continue one. -/
theorem notMem_of_isName
    (name : String)
    (hName : isName name = true)
    (other : Char)
    (hOther : continuesName other = false) :
    other ∉ name.toList := by
  intro hMem
  rw [(toList_of_isName name hName).2 other hMem] at hOther
  cases hOther

end Variable

end Beeb

------------------------------------------------------------
-- Definitions
------------------------------------------------------------

namespace Beeb

namespace Variable

/- A variable that is read has a name. -/
theorem isName_of_parse
    (definition : String)
    (v : Variable)
    (hParse : parse definition = .ok v) :
    isName v.name = true := by
  unfold parse at hParse
  split at hParse
  · cases hParse
  · simp only at hParse
    split at hParse
    · cases hParse
    · split at hParse
      · cases hParse
      · rename_i hName
        split at hParse
        · cases hParse
          simpa using hName
        · cases hParse

/- So have variables that are read from many definitions. -/
theorem isName_of_parsed
    (vars : List Variable)
    (hParsed : ∀ v ∈ vars,
      ∃ definition, parse definition = .ok v)
    (v : Variable)
    (hMem : v ∈ vars) :
    isName v.name = true := by
  rcases hParsed v hMem with ⟨definition, hParse⟩
  exact isName_of_parse definition v hParse

/- The texts before and after the first equals sign. -/
theorem splitDefinition?_eq
    (definition before after : String)
    (hText :
      definition.toList =
        before.toList ++ '=' :: after.toList)
    (hNone : '=' ∉ before.toList) :
    splitDefinition? definition = some (before, after) := by
  rcases Text.cut_of_notMem '=' _ after.toList hNone with
    ⟨hBefore, hAfter⟩
  rw [splitDefinition?, hText]
  simp only [hBefore, hAfter]
  simp

/- The white space around a name is dropped. -/
theorem trim_of_pads
    (padded name : String)
    (hName : isName name = true)
    (hPads : Text.Pads padded name) :
    Text.trim padded = name := by
  have hContinues := (toList_of_isName name hName).2
  rw [hPads.trim_eq]
  exact
    Text.trim_of_solid name fun c hMem =>
      isBlank_of_continuesName c (hContinues c hMem)

/-
  A definition is read if its number is; there may be white
  space around its name.
-/
theorem parse_of_parts
    (definition before after name : String)
    (n : Int)
    (hText :
      definition.toList =
        before.toList ++ '=' :: after.toList)
    (hName : isName name = true)
    (hPads : Text.Pads before name)
    (hValue : Numeral.parse after = .ok n) :
    parse definition = .ok ⟨name, n⟩ := by
  have hSome := (toList_of_isName name hName).1
  have hTrim := trim_of_pads before name hName hPads
  have hNoEquals : '=' ∉ before.toList := by
    rcases hPads with ⟨front, back, hFront, hBack, hBefore⟩
    rw [hBefore, List.mem_append, List.mem_append]
    rintro ((hInFront | hInName) | hInBack)
    · cases List.all_eq_true.mp hFront '=' hInFront
    · exact notMem_of_isName name hName '=' rfl hInName
    · cases List.all_eq_true.mp hBack '=' hInBack
  have hNotEmpty : name.isEmpty = false := by
    simpa using hSome
  rw [parse,
    splitDefinition?_eq definition before after hText
      hNoEquals]
  simp only [hTrim, hNotEmpty, hName, hValue]
  rfl

/- Decimal text begins like no name. -/
theorem exists_head_decimal
    (n : Int) :
    ∃ c cs,
      (Numeral.decimal n).toList = c :: cs ∧
        beginsName c = false ∧ c ≠ '&' := by
  have hDigit :
      ∀ c ∈ Nat.toDigits 10 n.natAbs,
        beginsName c = false ∧ c ≠ '&' := by
    intro c hMem
    have hIs :=
      Nat.isDigit_of_mem_toDigits (by decide) (by decide) hMem
    have hAll :
        ∀ code ∈ List.range' 48 10,
          beginsName (Char.ofNat code) = false ∧
            Char.ofNat code ≠ '&' := by
      decide
    have hRange : c.toNat ∈ List.range' 48 10 := by
      simp only [Char.isDigit, Bool.and_eq_true,
        decide_eq_true_eq] at hIs
      have hFirst := UInt32.le_iff_toNat_le.mp hIs.1
      have hLast := UInt32.le_iff_toNat_le.mp hIs.2
      rw [List.mem_range'_1]
      exact ⟨hFirst, Nat.lt_succ_of_le hLast⟩
    have hHere := hAll c.toNat hRange
    rwa [Char.ofNat_toNat] at hHere
  by_cases hNegative : n < 0
  · refine
      ⟨'-', Nat.toDigits 10 n.natAbs, ?_, rfl,
        by decide⟩
    simp [Numeral.decimal, hNegative]
  · rw [Numeral.decimal, if_neg hNegative,
      String.toList_ofList]
    cases hDigits : Nat.toDigits 10 n.natAbs with
    | nil => exact absurd hDigits Nat.toDigits_ne_nil
    | cons c cs =>
      exact ⟨c, cs, rfl, hDigit c (by simp [hDigits])⟩

end Variable

end Beeb
