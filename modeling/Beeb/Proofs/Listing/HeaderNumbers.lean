import Beeb.Proofs.Assembler.Symbols
import Beeb.Proofs.Numeral.Spelling
import Beeb.Proofs.Variable

/-
  Numbers as they are written: whatever its form, a number
  is read back, and so is every hexadecimal value in the
  header of a listing.

  Main declarations:
    * `Listing.hexadecimal?`
    * `Listing.addressSymbols`
    * `Listing.filterMap_hexadecimal?`
    * `Listing.written_numbers_read`
-/

------------------------------------------------------------
-- Hexadecimal Values
------------------------------------------------------------

namespace Beeb

namespace Listing

open Assembler

/-
  The name and the hexadecimal value at the end of a line:
  what stands before and behind its last equals sign, if a
  space and `&` follow on that.
-/
def hexadecimal?
    (line : String) : Option (String × String) :=
  let back := line.toList.reverse
  match (back.takeWhile (· ≠ '=')).reverse,
    back.dropWhile (· ≠ '=') with
  | ' ' :: '&' :: digits, '=' :: name =>
    some (Text.trim (String.ofList name.reverse),
      String.ofList ('&' :: digits))
  | _, _ => none

/- A line is cut at its last equals sign. -/
theorem cut_at_last_equals
    (line : String)
    (name value : List Char)
    (hText : line.toList = name ++ '=' :: value)
    (hNone : '=' ∉ value) :
    (line.toList.reverse.takeWhile (· ≠ '=')).reverse = value ∧
      line.toList.reverse.dropWhile (· ≠ '=') =
        '=' :: name.reverse := by
  have hBack :
      line.toList.reverse =
        value.reverse ++ '=' :: name.reverse := by
    rw [hText]
    simp
  rcases Text.cut_of_notMem '=' value.reverse name.reverse
      (fun hMem => hNone (List.mem_reverse.mp hMem)) with
    ⟨hValue, hName⟩
  rw [hBack, hValue, hName, List.reverse_reverse]
  exact ⟨rfl, rfl⟩

/- A hexadecimal value is found behind its name. -/
theorem hexadecimal?_number
    (line : String)
    (name : List Char)
    (n : Int)
    (hText :
      line.toList =
        name ++ '=' :: ' ' :: (Operand.number 0 n).toList) :
    hexadecimal? line =
      some (Text.trim (String.ofList name),
        Operand.number 0 n) := by
  rcases Numeral.exists_toList_number 0 n with
    ⟨width, hNumber⟩
  have hNone :
      '=' ∉ ' ' :: (Operand.number 0 n).toList := by
    rw [List.mem_cons]
    rintro (hSpace | hMem)
    · cases hSpace
    · rcases Numeral.mem_number 0 n '=' hMem with
        hMark | hSign | hDigit
      · cases hMark
      · cases hSign
      · cases hDigit
  rcases cut_at_last_equals line name _ hText hNone with
    ⟨hValue, hName⟩
  rw [hexadecimal?]
  simp only [hValue, hName, hNumber, List.reverse_reverse]
  rw [← hNumber, String.ofList_toList]

/- A decimal value is none. -/
theorem hexadecimal?_variable
    (v : Variable) :
    hexadecimal? v.definition = none := by
  rcases Variable.exists_head_decimal v.value with
    ⟨c, cs, hDecimal, -, hNoMark⟩
  have hText :
      v.definition.toList =
        (v.name.toList ++ [' ']) ++
          '=' :: ' ' :: (Numeral.decimal v.value).toList := by
    simp [Variable.definition]
  have hNone :
      '=' ∉ ' ' :: (Numeral.decimal v.value).toList := by
    rw [List.mem_cons]
    rintro (hSpace | hMem)
    · cases hSpace
    · rcases Numeral.mem_decimal v.value '=' hMem with
        hSign | hDigit
      · cases hSign
      · cases hDigit
  rcases cut_at_last_equals _ _ _ hText hNone with
    ⟨hValue, hName⟩
  rw [hexadecimal?]
  simp only [hValue, hName, hDecimal]
  simp [hNoMark]

end Listing

end Beeb

------------------------------------------------------------
-- Addresses In The Header
------------------------------------------------------------

namespace Beeb

namespace Listing

open Assembler

/- The title and the headings hold no value. -/
theorem hexadecimal?_rubrics :
    ∀ text ∈ rubrics, hexadecimal? text = none := by
  decide +kernel

/- The definition of a system symbol holds its address. -/
theorem hexadecimal?_symbol
    (width : Nat)
    (entry : Int × String)
    (hEntry : entry ∈ Mos.calls ++ Mos.vectors) :
    hexadecimal?
        (Symbol.definition width ⟨entry.2, entry.1⟩) =
      some (entry.2, Operand.number 0 entry.1) := by
  have hTrim :=
    Variable.trim_of_pads _ entry.2
      (isName_of_mem_system entry hEntry).1
      (Text.Pads.of_rightpad width entry.2)
  rw [hexadecimal?_number _
      (entry.2.toList.rightpad width ' ' ++ [' ']) entry.1
      (by simp [Symbol.definition]),
    hTrim]

/- The line that sets an origin holds it. -/
theorem filterMap_hexadecimal?_originLines
    (origin : Int) :
    (originLines origin).filterMap hexadecimal? =
      if origin = 0 then []
      else [("CODE%", Operand.number 0 origin)] := by
  have hOrigin :
      hexadecimal? ("CODE% = " ++ Operand.number 0 origin) =
        some ("CODE%", Operand.number 0 origin) := by
    have hTrim :
        Text.trim (String.ofList "CODE% ".toList) =
          "CODE%" :=
      rfl
    rw [hexadecimal?_number _ "CODE% ".toList origin (by simp),
      hTrim]
  have hOthers :
      hexadecimal? "" = none ∧
        hexadecimal? "ORG CODE%" = none :=
    ⟨rfl, rfl⟩
  unfold originLines
  split
  · rfl
  · simp [hOrigin, hOthers]

/-
  The addresses that a header defines: those of the system
  symbols in use, and the origin unless it is zero.
-/
def addressSymbols
    (a : Analysis)
    (origin : Int) : Symbols :=
  headerSymbols a ++
    if origin = 0 then [] else [("CODE%", origin)]

/- The hexadecimal values of a header are its addresses. -/
theorem filterMap_hexadecimal?
    (a : Analysis)
    (vars : List Variable)
    (origin : Int)
    (hNamed : a.Named) :
    (headerText a vars origin).filterMap hexadecimal? =
      (addressSymbols a origin).map fun symbol =>
        (symbol.1, Operand.number 0 symbol.2) := by
  have hVars :
      (vars.map Variable.definition).filterMap hexadecimal? =
        [] := by
    rw [List.filterMap_eq_nil_iff]
    intro text hMem
    rcases List.mem_map.mp hMem with ⟨v, -, rfl⟩
    exact hexadecimal?_variable v
  have hOrigin :
      (if origin = 0 then []
        else [("CODE%", Operand.number 0 origin)]) =
        ((if origin = 0 then [] else [("CODE%", origin)] :
          Symbols).map fun symbol =>
            (symbol.1, Operand.number 0 symbol.2)) := by
    split <;> rfl
  rw [filterMap_headerText_of_reads hexadecimal?
      (fun symbol => some (symbol.1, Operand.number 0 symbol.2))
      hexadecimal?_rubrics hexadecimal?_symbol a vars origin
      hNamed,
    hVars, filterMap_hexadecimal?_originLines, hOrigin,
    addressSymbols, List.filterMap_eq_map']
  simp

end Listing

end Beeb

------------------------------------------------------------
-- Written Numbers
------------------------------------------------------------

namespace Beeb

namespace Listing

open Assembler

/-
  A number is read back in all its forms, whatever white
  space is around it, and decimal text of too many digits is
  refused. So every hexadecimal value in a header is read
  back as the address that its name stands for.
-/
theorem written_numbers_read :
    (∀ (n : Int) (text padded : String),
      Numeral.Denotes text n →
        Text.Pads padded text →
          Numeral.parse padded = .ok n) ∧
    (∀ (n : Int) (padded : String),
      Numeral.digitLimit <
          (Nat.toDigits 10 n.natAbs).length →
        Text.Pads padded (Numeral.decimal n) →
          Numeral.parse padded =
            .error
              (.tooManyDigits
                (Nat.toDigits 10 n.natAbs).length)) ∧
    (∀ (a : Analysis) (vars : List Variable) (origin : Int)
        (lines : List String),
      headerLines a.calls a.vectors vars origin =
          .ok lines →
        List.Forall₂
          (fun written symbol =>
            written.1 = symbol.1 ∧
              Numeral.parse written.2 = .ok symbol.2)
          (lines.filterMap hexadecimal?)
          (addressSymbols a origin)) := by
  refine ⟨?_, ?_, ?_⟩
  · intro n text padded hDenotes hPads
    rw [Numeral.parse_of_pads padded text hPads,
      hDenotes.parse_eq]
  · intro n padded hLong hPads
    rw [Numeral.parse_of_pads padded _ hPads,
      Numeral.parse_decimal_eq, if_pos hLong]
  · intro a vars origin lines hLines
    rcases eq_headerText_of_headerLines a vars origin lines
        hLines with
      ⟨hNamed, rfl⟩
    rw [filterMap_hexadecimal? a vars origin hNamed,
      List.forall₂_map_left_iff, List.forall₂_same]
    exact fun symbol _ =>
      ⟨rfl, Numeral.parse_number 0 symbol.2⟩

/-
  A negative number in hexadecimal, the first number that is
  too long in decimal, and the header of a program that
  loads at `&1900` and calls `OSWRCH`.
-/
theorem written_numbers_read_origin :
    Numeral.parse "\t-0x1F \n" = .ok (-31) ∧
    Numeral.parse
        (Numeral.decimal (Nat.pow 10 Numeral.digitLimit)) =
      .error
        (.tooManyDigits
          (Nat.toDigits 10
            (Nat.pow 10 Numeral.digitLimit)).length) ∧
    (let a : Analysis := { calls := .ofList [(0xFFEE : Int)] }
    let lines := headerText a [⟨"CR = &D", 13⟩] 0x1900
    headerLines a.calls a.vectors [⟨"CR = &D", 13⟩] 0x1900 =
        .ok lines ∧
      List.Forall₂
        (fun written symbol =>
          written.1 = symbol.1 ∧
            Numeral.parse written.2 = .ok symbol.2)
        (lines.filterMap hexadecimal?)
        [("OSWRCH", 0xFFEE), ("CODE%", 0x1900)]) := by
  refine ⟨?_, ?_, ?_⟩
  · apply written_numbers_read.1 (-31) "-0x1F"
    · exact .marked (-31) ['1', 'F'] (by decide)
    · exact ⟨['\t'], [' ', '\n'], by decide⟩
  · have hRefused :
        ∀ n : Nat,
          Numeral.digitLimit < (Nat.toDigits 10 n).length →
            Numeral.parse (Numeral.decimal n) =
              .error
                (.tooManyDigits (Nat.toDigits 10 n).length) :=
      fun n hLong =>
        written_numbers_read.2.1 n _ hLong (Text.Pads.refl _)
    exact
      hRefused _
        (Numeral.lt_length_toDigits _ _ (by decide) Nat.le.refl)
  · intro a lines
    have hNamed : a.Named := by
      constructor
      · intro address hMem
        have hCalls : a.calls.toList = [0xFFEE] := rfl
        rw [← Std.TreeSet.mem_toList, hCalls,
          List.mem_singleton] at hMem
        rw [hMem]
        rfl
      · intro address hMem
        simp [a] at hMem
    have hShort : ¬ Variable.Overlong ⟨"CR = &D", 13⟩ := by
      unfold Variable.Overlong
      decide
    have hLines :
        headerLines a.calls a.vectors [⟨"CR = &D", 13⟩] 0x1900 =
          .ok lines :=
      headerLines_of_named a _ _ hNamed
        (List.forall_mem_singleton.mpr hShort)
    refine ⟨hLines, ?_⟩
    have hSymbols :
        addressSymbols a 0x1900 =
          [("OSWRCH", 0xFFEE), ("CODE%", 0x1900)] :=
      rfl
    rw [← hSymbols]
    exact written_numbers_read.2.2 a _ _ lines hLines

end Listing

end Beeb
