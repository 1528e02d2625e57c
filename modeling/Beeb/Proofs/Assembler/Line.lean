import Beeb.Listing.Line
import Beeb.Proofs.Assembler.Operand

/-
  Lines of a listing as an assembler reads them: the comment
  and the columns behind a statement do not matter.

  Main declarations:
    * `Assembler.code_columns`
    * `Assembler.readLine?_label`
    * `Assembler.readLine?_instruction`
    * `Assembler.readLine?_data`
-/

------------------------------------------------------------
-- Statements And Comments
------------------------------------------------------------

namespace Beeb

namespace Assembler

open Listing

/- The statement of a line with a comment, or without one. -/
theorem code_append
    (statement rest : List Char)
    (blanks : Nat)
    (hPlain : ∀ c ∈ statement, c ≠ '\\')
    (hLast : ∀ c ∈ statement.getLast?, c ≠ ' ')
    (hRest : rest.takeWhile (· ≠ '\\') = []) :
    code
        (statement ++ (List.replicate blanks ' ' ++ rest)) =
      statement := by
  have hStatement :
      ∀ c ∈ statement, decide (c ≠ '\\') = true := by
    simpa using hPlain
  have hBlanks :
      ∀ c ∈ List.replicate blanks ' ',
        decide (c ≠ '\\') = true := by
    intro c hMem
    rw [List.eq_of_mem_replicate hMem]
    rfl
  rw [code, List.takeWhile_append_of_pos hStatement,
    List.takeWhile_append_of_pos hBlanks, hRest,
    List.append_nil, Text.dropEnd_append _ _ _ (by simp)]
  apply Text.dropEnd_of_getLast?
  simpa using hLast

/- The statement before the columns of a line. -/
theorem code_columns
    (statement comment : String)
    (bytes : List UInt8)
    (hPlain : ∀ c ∈ statement.toList, c ≠ '\\')
    (hLast : ∀ c ∈ statement.toList.getLast?, c ≠ ' ') :
    code (Line.columns statement comment bytes).toList =
      statement.toList := by
  have hText :
      ∃ rest,
        (Line.columns statement comment bytes).toList =
          statement.toList ++
            (List.replicate
                (max (commentColumn - statement.length) 1)
                ' ' ++
              '\\' :: rest) := by
    apply Exists.intro
    simp only [Line.columns, pad, String.toList_append,
      String.toList_ofList, List.append_assoc]
    rfl
  rcases hText with ⟨rest, hText⟩
  rw [hText]
  exact
    code_append statement.toList ('\\' :: rest) _ hPlain
      hLast rfl

/-
  A line with columns says what the word and the operand
  before them say.
-/
theorem readLine?_columns
    (statement comment : String)
    (bytes : List UInt8)
    (word operand : List Char)
    (hWord : Unbroken word)
    (hOperand : Unbroken operand)
    (hText :
      statement.toList = ' ' :: (word ++ ' ' :: operand))
    (hSome : operand ≠ []) :
    readLine? (Line.columns statement comment bytes) =
      readStatement? word operand := by
  have hPlain : ∀ c ∈ statement.toList, c ≠ '\\' := by
    rw [hText]
    intro c hMem
    simp only [List.mem_cons, List.mem_append] at hMem
    rcases hMem with rfl | hInWord | rfl | hInOperand
    · decide
    · exact (hWord c hInWord).2
    · decide
    · exact (hOperand c hInOperand).2
  have hLast : ∀ c ∈ statement.toList.getLast?, c ≠ ' ' := by
    rw [hText, List.getLast?_cons_of_ne_nil (by simp),
      List.getLast?_append,
      List.getLast?_cons_of_ne_nil hSome,
      List.getLast?_eq_some_getLast hSome, Option.some_or]
    rintro c ⟨⟩
    exact (hOperand _ (List.getLast_mem hSome)).1
  rcases Text.cut_of_notMem ' ' word operand
      (fun hMem => (hWord ' ' hMem).1 rfl) with
    ⟨hBefore, hAfter⟩
  rw [readLine?,
    code_columns statement comment bytes hPlain hLast, hText]
  simp only [hBefore, hAfter]
  simp

/- The same for a word that has no operand. -/
theorem readLine?_columns_word
    (statement comment : String)
    (bytes : List UInt8)
    (word : List Char)
    (hWord : Unbroken word)
    (hText : statement.toList = ' ' :: word)
    (hSome : word ≠ []) :
    readLine? (Line.columns statement comment bytes) =
      readStatement? word [] := by
  have hPlain : ∀ c ∈ statement.toList, c ≠ '\\' := by
    rw [hText]
    intro c hMem
    rcases List.mem_cons.mp hMem with rfl | hInWord
    · decide
    · exact (hWord c hInWord).2
  have hLast : ∀ c ∈ statement.toList.getLast?, c ≠ ' ' := by
    rw [hText, List.getLast?_cons_of_ne_nil hSome]
    intro c hMem
    exact (hWord c (List.mem_of_getLast? hMem)).1
  have hNoSpace :
      ∀ c ∈ word, decide (c ≠ ' ') = true := by
    intro c hMem
    simpa using (hWord c hMem).1
  rw [readLine?,
    code_columns statement comment bytes hPlain hLast, hText]
  simp only [List.takeWhile_eq_self_iff.mpr hNoSpace,
    List.dropWhile_eq_nil_iff.mpr hNoSpace, List.drop_nil]

end Assembler

end Beeb

------------------------------------------------------------
-- Lines Of Labels And Instructions
------------------------------------------------------------

namespace Beeb

namespace Assembler

open Listing

/- A line that defines a label. -/
theorem readLine?_label
    (name : String)
    (hPlain : name.toList.all isPlain = true) :
    readLine? (Line.label name).render =
      some (.label name) := by
  have hUnbroken : Unbroken ('.' :: name.toList) := by
    apply unbroken_of_isPlain
    rw [List.all_cons, hPlain]
    rfl
  have hText :
      (Line.label name).render.toList =
        '.' :: name.toList := by
    simp [Line.render]
  have hCode :=
    code_append ('.' :: name.toList) [] 0
      (fun c hMem => (hUnbroken c hMem).2)
      (fun c hMem =>
        (hUnbroken c (List.mem_of_getLast? hMem)).1) rfl
  rw [List.replicate_zero, List.append_nil, List.append_nil]
    at hCode
  rw [readLine?, hText, hCode]
  simp

/- A mnemonic is a word other than the one for bytes. -/
theorem mnemonic_plain
    (i : Instruction)
    (hTable : i ∈ Instruction.table) :
    i.mnemonic.toList.all isPlain = true ∧
      i.mnemonic.toList ≠ [] ∧
      i.mnemonic.toList ≠ ['E', 'Q', 'U', 'B'] := by
  have hAll :
      ∀ i ∈ Instruction.table,
        i.mnemonic.toList.all isPlain = true ∧
          i.mnemonic.toList ≠ [] ∧
          i.mnemonic.toList ≠ ['E', 'Q', 'U', 'B'] := by
    decide +kernel
  exact hAll i hTable

/- A line that shows an instruction. -/
theorem readLine?_instruction
    (i : Instruction)
    (operand : String)
    (address : Int)
    (data : List UInt8)
    (form : Form)
    (value : Value)
    (hTable : i ∈ Instruction.table)
    (hWrites : Writes operand.toList form value) :
    readLine?
        (Line.instruction i.mnemonic operand address
          data).render =
      some (.instruction i.mnemonic form value) := by
  rcases mnemonic_plain i hTable with
    ⟨hPlain, hSome, hNoBytes⟩
  have hWord := unbroken_of_isPlain _ hPlain
  have hRead :
      readStatement? i.mnemonic.toList operand.toList =
        some (.instruction i.mnemonic form value) := by
    rw [readStatement?, if_neg hNoBytes, hWrites.read]
    simp
  rw [Line.render, ← hRead]
  by_cases hEmpty : operand.toList = []
  · have hNone : operand.isEmpty = true := by
      simpa using hEmpty
    rw [hEmpty]
    apply readLine?_columns_word _ _ _ _ hWord _ hSome
    simp [Line.statement, hNone]
  · have hNone : operand.isEmpty = false := by
      simpa using hEmpty
    apply readLine?_columns _ _ _ _ _ hWord hWrites.unbroken
      _ hEmpty
    simp [Line.statement, hNone]

end Assembler

end Beeb

------------------------------------------------------------
-- Lines Of Data
------------------------------------------------------------

namespace Beeb

namespace Assembler

open Listing

/- The text of a byte in a line of data. -/
def byteChars
    (b : UInt8) : List Char :=
  '&' :: (Text.hexDigits 2 b.toNat).map Char.toUpper

/- A byte is read back, and its text is plain. -/
theorem readByte?_byteChars
    (b : UInt8) :
    readByte? (byteChars b) = some b ∧
      (byteChars b).all isPlain = true := by
  rcases readDigits?_hexDigits 2 b.toNat with
    ⟨hRead, hPlain⟩
  have hByte : b.toNat < 256 := b.toNat_lt
  constructor
  · rw [byteChars, readByte?, hRead,
      Option.filter_some_pos (by simpa using hByte),
      Option.map_some, UInt8.ofNat_toNat]
  · rw [byteChars, List.all_cons, hPlain]
    rfl

/- The bytes of a line of data. -/
def bytesChars
    (bytes : List UInt8) : List Char :=
  [','].intercalate (bytes.map byteChars)

/- The statement that defines bytes. -/
theorem toList_byteStatement
    (bytes : List UInt8) :
    (Line.byteStatement bytes).toList =
      ' ' ::
        (['E', 'Q', 'U', 'B'] ++
          ' ' :: bytesChars bytes) := by
  have hBytes :
      (bytes.map ("&" ++ byteText ·)).map String.toList =
        bytes.map byteChars := by
    rw [List.map_map]
    apply List.map_congr_left
    intro b _
    have hSign : ¬ (b.toNat : Int) < 0 := by omega
    simp [byteText, byteChars, Text.hex, hSign]
  rw [Line.byteStatement, String.toList_append,
    String.toList_intercalate, hBytes]
  rfl

/- The bytes of a line of data are not parted by spaces. -/
theorem bytesChars_unbroken
    (bytes : List UInt8) :
    Unbroken (bytesChars bytes) := by
  have hByte : ∀ b, Unbroken (byteChars b) :=
    fun b => unbroken_of_isPlain _ (readByte?_byteChars b).2
  unfold bytesChars
  induction bytes with
  | nil => simp [Unbroken]
  | cons b bytes ih =>
    by_cases hLast : bytes = []
    · rw [hLast, List.map_singleton,
        List.intercalate_singleton]
      exact hByte b
    · rw [List.map_cons,
        List.intercalate_cons_of_ne_nil
          (by simpa using hLast)]
      intro c hMem
      simp only [List.mem_append, List.mem_singleton] at hMem
      rcases hMem with (hFirst | rfl) | hRest
      · exact hByte b c hFirst
      · decide
      · exact ih c hRest

/- The bytes of a line of data are read back. -/
theorem mapM_readByte?
    (bytes : List UInt8)
    (hSome : bytes ≠ []) :
    (Text.splitChars ',' (bytesChars bytes)).mapM readByte? =
      some bytes := by
  have hNoComma :
      ∀ part ∈ bytes.map byteChars, ',' ∉ part := by
    intro part hMem hComma
    rcases List.mem_map.mp hMem with ⟨b, -, rfl⟩
    have hc :=
      List.all_eq_true.mp (readByte?_byteChars b).2 ',' hComma
    cases hc
  have hEach :
      (bytes.map byteChars).mapM readByte? = some bytes := by
    clear hSome hNoComma
    induction bytes with
    | nil => rfl
    | cons b bytes ih =>
      rw [List.map_cons, List.mapM_cons, ih,
        (readByte?_byteChars b).1]
      rfl
  rw [bytesChars,
    Text.splitChars_intercalate ',' _ (by simpa using hSome)
      hNoComma,
    hEach]

/- A line that shows data. -/
theorem readLine?_data
    (data : List UInt8)
    (address : Int)
    (undocumented : String)
    (hSome : data ≠ []) :
    readLine? (Line.data data address undocumented).render =
      some (.bytes data) := by
  have hRead :
      readStatement? ['E', 'Q', 'U', 'B'] (bytesChars data) =
        some (.bytes data) := by
    rw [readStatement?, if_pos rfl, mapM_readByte? data hSome]
    rfl
  have hNotEmpty : bytesChars data ≠ [] := by
    intro hEmpty
    rw [hEmpty] at hRead
    cases hRead
  have hWord : Unbroken ['E', 'Q', 'U', 'B'] :=
    unbroken_of_isPlain _ rfl
  rw [Line.render, ← hRead]
  exact
    readLine?_columns _ _ _ _ _ hWord
      (bytesChars_unbroken data) (toList_byteStatement data)
      hNotEmpty

end Assembler

end Beeb
