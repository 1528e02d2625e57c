import Beeb.Proofs.Listing.Header
import Beeb.Proofs.Variable

/-
  Variables that are read from a definition can be written
  and read again, unless their values are too long.

  Main declarations:
    * `Variable.characters_of_isName`
    * `Variable.parse_definition`
    * `Variable.rendered_variable_read`
-/

------------------------------------------------------------
-- Characters Of Names
------------------------------------------------------------

namespace Beeb

namespace Variable

/- What separates, ends or comments a definition. -/
def separators : List Char :=
  ['=', ',', '\\', '\n', '\r']

/- A name begins with a letter or an underscore. -/
theorem exists_first_of_isName
    (name : String)
    (hName : isName name = true) :
    ∃ first rest,
      name.toList = first :: rest ∧
        (Text.isLetter first = true ∨ first = '_') := by
  simp only [isName, Bool.and_eq_true] at hName
  cases hText : name.toList with
  | nil =>
    rw [hText] at hName
    cases hName.1
  | cons first rest =>
    rw [hText] at hName
    refine ⟨first, rest, rfl, ?_⟩
    simpa [beginsName] using hName.1

/-
  A name holds letters, digits and underscores, and so
  neither white space nor a separator.
-/
theorem characters_of_isName
    (name : String)
    (hName : isName name = true)
    (c : Char)
    (hMem : c ∈ name.toList) :
    (Text.isAlphanumeric c = true ∨ c = '_') ∧
      Text.isBlank c = false ∧ c ∉ separators := by
  have hNone :
      ∀ c ∈ separators, continuesName c = false := by
    simp only [separators, List.forall_mem_cons]
    exact ⟨rfl, rfl, rfl, rfl, rfl, by simp⟩
  have hContinues := (toList_of_isName name hName).2 c hMem
  refine
    ⟨by simpa [continuesName] using hContinues,
      isBlank_of_continuesName c hContinues,
      fun hSeparator => ?_⟩
  rw [hNone c hSeparator] at hContinues
  cases hContinues

end Variable

end Beeb

------------------------------------------------------------
-- Written Definitions
------------------------------------------------------------

namespace Beeb

namespace Variable

/-
  A name and a decimal number are read with any white space
  around each of them.
-/
theorem parse_of_pads
    (v : Variable)
    (name value : String)
    (hName : isName v.name = true)
    (hShort : ¬ v.Overlong)
    (hNamePads : Text.Pads name v.name)
    (hValuePads : Text.Pads value (Numeral.decimal v.value)) :
    parse (name ++ "=" ++ value) = .ok v := by
  have hValue : Numeral.parse value = .ok v.value := by
    rw [Numeral.parse_of_pads value _ hValuePads]
    exact Numeral.parse_decimal v.value (Nat.not_lt.mp hShort)
  exact
    parse_of_parts _ name value v.name v.value (by simp) hName
      hNamePads hValue

/- The definition of a variable is read. -/
theorem parse_definition
    (v : Variable)
    (hName : isName v.name = true)
    (hShort : ¬ v.Overlong) :
    parse v.definition = .ok v := by
  have hText :
      v.definition =
        v.name ++ " " ++ "=" ++
          (" " ++ Numeral.decimal v.value) := by
    rw [← String.toList_inj]
    simp [definition]
  rw [hText]
  apply parse_of_pads v _ _ hName hShort
  · exact ⟨[], [' '], rfl, rfl, by simp⟩
  · exact ⟨[' '], [], rfl, rfl, by simp⟩

/-
  What is read from a definition has a proper name. If its
  value is not too long it is written as a definition of
  itself, which white space around the name and the value
  does not change; else it cannot be written.
-/
theorem rendered_variable_read
    (text : String)
    (v : Variable)
    (hParse : parse text = .ok v) :
    (∃ first rest,
      v.name.toList = first :: rest ∧
        (Text.isLetter first = true ∨ first = '_')) ∧
    (∀ c ∈ v.name.toList,
      (Text.isAlphanumeric c = true ∨ c = '_') ∧
        Text.isBlank c = false ∧ c ∉ separators) ∧
    (¬ v.Overlong →
      v.render =
          .ok (v.name ++ " = " ++ Numeral.decimal v.value) ∧
        parse (v.name ++ " = " ++ Numeral.decimal v.value) =
          .ok v ∧
        ∀ name value : String,
          Text.Pads name v.name →
            Text.Pads value (Numeral.decimal v.value) →
              parse (name ++ "=" ++ value) = .ok v) ∧
    (v.Overlong → v.render = .error .tooLongToWrite) := by
  have hName := isName_of_parse text v hParse
  refine ⟨exists_first_of_isName v.name hName,
    characters_of_isName v.name hName, fun hShort => ?_,
    v.render_eq_error⟩
  refine ⟨v.render_eq_ok hShort,
    parse_definition v hName hShort, ?_⟩
  exact fun name value => v.parse_of_pads name value hName hShort

/-
  A variable that is read back, and one that can be defined
  in hexadecimal but has too many decimal digits to be
  written.
-/
theorem rendered_variable_read_long :
    (let v : Variable := ⟨"größe_2", -255⟩
    parse " größe_2 =\t-0xfF" = .ok v ∧
      v.render = .ok "größe_2 = -255" ∧
      parse "größe_2 = -255" = .ok v ∧
      parse "größe_2\n=  -255 " = .ok v) ∧
    ∃ text v,
      parse text = .ok v ∧ v.render = .error .tooLongToWrite := by
  constructor
  · intro v
    have hParse : parse " größe_2 =\t-0xfF" = .ok v := rfl
    have hShort : ¬ v.Overlong := by
      unfold Overlong
      decide
    have hText :
        v.name ++ " = " ++ Numeral.decimal v.value =
          "größe_2 = -255" := by
      decide +kernel
    rcases (rendered_variable_read _ v hParse).2.2.1 hShort with
      ⟨hRender, hRead, hPadded⟩
    rw [hText] at hRender hRead
    refine ⟨hParse, hRender, hRead, ?_⟩
    exact
      hPadded "größe_2\n" "  -255 " ⟨[], ['\n'], by decide⟩
        ⟨[' ', ' '], [' '], by decide⟩
  · have hLong :
        ∀ n : Nat,
          Numeral.digitLimit < (Nat.toDigits 10 n).length →
            ∃ text v,
              parse text = .ok v ∧
                v.render = .error .tooLongToWrite := by
      intro n hDigits
      have hParse :
          parse ("A=" ++ Operand.number 0 n) =
            .ok ⟨"A", n⟩ :=
        parse_of_parts _ "A" _ "A" n (by simp) rfl
          (Text.Pads.refl "A")
          (Numeral.parse_number 0 n)
      exact
        ⟨_, _, hParse,
          (rendered_variable_read _ _ hParse).2.2.2 hDigits⟩
    exact
      hLong _
        (Numeral.lt_length_toDigits _ _ (by decide) Nat.le.refl)

end Variable

end Beeb
