import Beeb.Proofs.Command.Arguments
import Beeb.Proofs.Numeral.Spelling

/-
  Lists of code addresses: they are read part by part, and
  addresses in any form that are put between commas are read
  back.

  Main declarations:
    * `Command.readCodeAddresses_append`
    * `Command.Lists`
    * `Command.Lists.read`
    * `Command.address_list_read`
-/

------------------------------------------------------------
-- Parts
------------------------------------------------------------

namespace Beeb

namespace Command

/- The parts on both sides of a comma are read in order. -/
theorem readCodeAddresses_append
    (s t : String) :
    readCodeAddresses (s ++ "," ++ t) =
      (do
        let first ← readCodeAddresses s
        let later ← readCodeAddresses t
        return first ++ later) := by
  have hText :
      (s ++ "," ++ t).toList = s.toList ++ ',' :: t.toList := by
    simp
  have hParts :
      Text.split ',' (s ++ "," ++ t) =
        Text.split ',' s ++ Text.split ',' t := by
    rw [Text.split, hText, Text.splitChars_append,
      List.map_append]
    rfl
  rw [readCodeAddresses, hParts, List.filter_append,
    List.mapM_append]
  rfl

/- A text without a comma is one part. -/
theorem readCodeAddresses_part
    (part : String)
    (hNone : ',' ∉ part.toList) :
    readCodeAddresses part =
      if part.toList.all Text.isBlank then .ok []
      else (readCodeAddress part).map fun n => [n] := by
  have hParts : Text.split ',' part = [part] := by
    rw [Text.split, Text.splitChars_of_notMem ',' _ hNone]
    simp
  rw [readCodeAddresses, hParts]
  split
  · rename_i hBlank
    simp [hBlank, pure, Except.pure]
  · rename_i hSome
    rw [List.filter_cons_of_pos (by simpa using hSome)]
    cases hRead : readCodeAddress part <;>
      simp [hRead, bind, Except.bind, pure, Except.pure, Except.map]

end Command

end Beeb

------------------------------------------------------------
-- Written Lists
------------------------------------------------------------

namespace Beeb

namespace Command

/-
  Whether parts, to be put between commas, list addresses:
  blank parts, and numbers in any form with white space
  around them.
-/
inductive Lists : List String → List Int → Prop
| nil : Lists [] []
| blank
    (part : String)
    {parts : List String}
    {addresses : List Int}
    (hBlank : part.toList.all Text.isBlank = true)
    (hRest : Lists parts addresses) :
    Lists (part :: parts) addresses
| address
    (part text : String)
    (n : Int)
    {parts : List String}
    {addresses : List Int}
    (hPositive : 0 ≤ n)
    (hDenotes : Numeral.Denotes text n)
    (hPads : Text.Pads part text)
    (hRest : Lists parts addresses) :
    Lists (part :: parts) (n :: addresses)

/- There is no comma in white space. -/
theorem comma_notMem_of_blank
    (blanks : List Char)
    (hBlank : blanks.all Text.isBlank = true) :
    ',' ∉ blanks := by
  intro hMem
  cases List.all_eq_true.mp hBlank ',' hMem

/- A blank part lists no address. -/
theorem readCodeAddresses_blank
    (part : String)
    (hBlank : part.toList.all Text.isBlank = true) :
    readCodeAddresses part = .ok [] := by
  rw [readCodeAddresses_part part
      (comma_notMem_of_blank _ hBlank),
    if_pos hBlank]

/- A number lists one address, whatever its form. -/
theorem readCodeAddresses_number
    (part text : String)
    (n : Int)
    (hPositive : 0 ≤ n)
    (hDenotes : Numeral.Denotes text n)
    (hPads : Text.Pads part text) :
    readCodeAddresses part = .ok [n] := by
  rcases hDenotes.characters with ⟨hSome, hCharacters⟩
  have hParse : Numeral.parse part = .ok n := by
    rw [Numeral.parse_of_pads part text hPads,
      hDenotes.parse_eq]
  rcases hPads with ⟨before, after, hBefore, hAfter, hText⟩
  have hNoComma : ',' ∉ part.toList := by
    rw [hText]
    simp only [List.mem_append, not_or]
    refine
      ⟨⟨comma_notMem_of_blank before hBefore, ?_⟩,
        comma_notMem_of_blank after hAfter⟩
    intro hMem
    rcases hCharacters ',' hMem with hMark | hDigit
    · simp at hMark
    · cases hDigit
  have hSolid : ∀ c ∈ text.toList, Text.isBlank c = false := by
    have hMarks :
        ∀ c ∈ ['-', 'x', '&'], Text.isBlank c = false := by
      simp only [List.forall_mem_cons]
      exact ⟨rfl, rfl, rfl, by simp⟩
    intro c hMem
    rcases hCharacters c hMem with hMark | hDigit
    · exact hMarks c hMark
    · exact Numeral.isBlank_of_isDigitOf 16 c hDigit
  have hNotBlank : ¬ part.toList.all Text.isBlank = true := by
    intro hBlank
    rcases List.exists_mem_of_ne_nil _ hSome with ⟨c, hMem⟩
    have hHere := List.all_eq_true.mp hBlank c (by simp [hText, hMem])
    rw [hSolid c hMem] at hHere
    cases hHere
  rw [readCodeAddresses_part part hNoComma, if_neg hNotBlank,
    (readCodeAddress_eq_ok_iff part n).mpr
      ⟨hParse, hPositive⟩]
  rfl

/- One part before others. -/
theorem readCodeAddresses_cons
    (part : String)
    (parts : List String) :
    readCodeAddresses (",".intercalate (part :: parts)) =
      (do
        let first ← readCodeAddresses part
        let later ← readCodeAddresses (",".intercalate parts)
        return first ++ later) := by
  by_cases hLast : parts = []
  · have hNone : readCodeAddresses "" = .ok [] :=
      readCodeAddresses_blank "" rfl
    rw [hLast, String.intercalate_singleton,
      String.intercalate_nil, hNone]
    cases readCodeAddresses part <;>
      simp [bind, Except.bind, pure, Except.pure]
  · rw [String.intercalate_cons_of_ne_nil hLast,
      readCodeAddresses_append]

/- Addresses that are listed are read. -/
theorem Lists.read
    {parts : List String}
    {addresses : List Int}
    (hLists : Lists parts addresses) :
    readCodeAddresses (",".intercalate parts) =
      .ok addresses := by
  induction hLists with
  | nil => exact readCodeAddresses_blank "" rfl
  | blank part hBlank hRest ih =>
    rw [readCodeAddresses_cons, ih,
      readCodeAddresses_blank part hBlank]
    rfl
  | address part text n hPositive hDenotes hPads hRest ih =>
    rw [readCodeAddresses_cons, ih,
      readCodeAddresses_number part text n hPositive hDenotes
        hPads]
    rfl

/-
  Two lists of code addresses with a comma between them give
  the addresses of both, or the failure of the first of them
  that fails; and written addresses are read back.
-/
theorem address_list_read :
    (∀ s t : String,
      readCodeAddresses (s ++ "," ++ t) =
        match readCodeAddresses s, readCodeAddresses t with
        | .error e, _ => .error e
        | .ok _, .error e => .error e
        | .ok first, .ok later => .ok (first ++ later)) ∧
    (∀ (parts : List String) (addresses : List Int),
      Lists parts addresses →
        readCodeAddresses (",".intercalate parts) =
          .ok addresses) := by
  refine ⟨fun s t => ?_, fun parts addresses => Lists.read⟩
  rw [readCodeAddresses_append]
  cases readCodeAddresses s with
  | error e => rfl
  | ok first =>
    cases readCodeAddresses t with
    | error e => rfl
    | ok later => rfl

/- Three forms, and blank parts between and after them. -/
theorem address_list_read_forms :
    readCodeAddresses " 10,, &00fE\t,0x1F, " =
      .ok [10, 254, 31] := by
  have hLists :
      Lists [" 10", "", " &00fE\t", "0x1F", " "]
        [10, 254, 31] :=
    .address " 10" "10" 10 (by decide)
      (.decimal 10 (by decide)) ⟨[' '], [], by decide⟩
      (.blank "" rfl
        (.address " &00fE\t" "&00fE" 254 (by decide)
          (.assembler 254 2 ['f', 'E'] (by decide) (by decide))
          ⟨[' '], ['\t'], by decide⟩
          (.address "0x1F" "0x1F" 31 (by decide)
            (.marked 31 ['1', 'F'] (by decide))
            (Text.Pads.refl _)
            (.blank " " rfl .nil))))
  exact address_list_read.2 _ _ hLists

end Command

end Beeb
