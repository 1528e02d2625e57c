import Beeb.Assembler.Source
import Beeb.Operand
import Beeb.Proofs.Variable
import Mathlib.Data.List.TakeWhile

/-
  Operands that an assembler understands: how the texts of
  numbers, distances, labels and system symbols are read,
  and how each form of operand is read around them.

  Main declarations:
    * `Assembler.Spells`
    * `Assembler.Writes`
    * `Assembler.Writes.read`
    * `Assembler.Writes.unbroken`
-/

------------------------------------------------------------
-- Texts Of Values
------------------------------------------------------------

namespace Beeb

namespace Assembler

/- A character that neither parts nor ends an operand. -/
def isPlain
    (c : Char) : Bool :=
  c ≠ ' ' && c ≠ '\\' && c ≠ ','

/- A text that no space parts and no comment ends. -/
def Unbroken
    (cs : List Char) : Prop :=
  ∀ c ∈ cs, c ≠ ' ' ∧ c ≠ '\\'

/- Plain texts are unbroken. -/
theorem unbroken_of_isPlain
    (cs : List Char)
    (hPlain : cs.all isPlain = true) :
    Unbroken cs := by
  intro c hMem
  have hc := List.all_eq_true.mp hPlain c hMem
  simp only [isPlain, Bool.and_eq_true, decide_eq_true_eq]
    at hc
  exact hc.1

/- A text that stands for a value wherever one may stand. -/
structure Spells
    (text : List Char)
    (value : Value) : Prop where
  reads : readValue? text = some value
  plain : text.all isPlain = true
  unmarked :
    text.head?.all (fun c => c ≠ '#' && c ≠ '(') = true
  /- So it is not the accumulator. -/
  long : 2 ≤ text.length

instance (text : List Char) (value : Value) :
    Decidable (Spells text value) :=
  decidable_of_iff
    (readValue? text = some value ∧
      text.all isPlain = true ∧
      text.head?.all (fun c => c ≠ '#' && c ≠ '(') = true ∧
      2 ≤ text.length)
    ⟨fun ⟨hReads, hPlain, hUnmarked, hLong⟩ =>
        ⟨hReads, hPlain, hUnmarked, hLong⟩,
      fun hSpells =>
        ⟨hSpells.reads, hSpells.plain, hSpells.unmarked,
          hSpells.long⟩⟩

/- Digits are plain. -/
theorem isPlain_of_isDigitOf
    (base : Nat)
    (c : Char)
    (hDigit : Numeral.isDigitOf base c = true) :
    isPlain c = true := by
  have hNot :
      ∀ c ∈ [' ', '\\', ','],
        Numeral.isDigitOf base c = false := by
    intro c hMem
    simp only [List.mem_cons, List.not_mem_nil, or_false]
      at hMem
    rcases hMem with rfl | rfl | rfl <;> rfl
  simp only [isPlain, Bool.and_eq_true, decide_eq_true_eq]
  grind

/- A number that digits spell is read, and they are plain. -/
theorem readDigits?_eq_some
    (base n : Nat)
    (digits : List Char)
    (hSome : digits ≠ [])
    (hAll : digits.all (Numeral.isDigitOf base) = true)
    (hValue : Numeral.value base digits = n) :
    readDigits? base digits = some n ∧
      digits.all isPlain = true := by
  constructor
  · simp [readDigits?, hSome, hAll, hValue]
  · rw [List.all_eq_true] at hAll ⊢
    intro c hMem
    exact isPlain_of_isDigitOf base c (hAll c hMem)

/- Decimal digits are read back. -/
theorem readDigits?_toDigits
    (n : Nat) :
    readDigits? 10 (Nat.toDigits 10 n) = some n ∧
      (Nat.toDigits 10 n).all isPlain = true := by
  rcases Numeral.value_toDigits 10 id (by decide)
      (fun d hDigit =>
        Numeral.digitValue?_digitChar d (by omega)) n with
    ⟨hValue, hAll⟩
  rw [List.map_id] at hValue hAll
  exact
    readDigits?_eq_some 10 n _ Nat.toDigits_ne_nil hAll hValue

/- Hexadecimal digits are read back. -/
theorem readDigits?_hexDigits
    (width n : Nat) :
    let digits := (Text.hexDigits width n).map Char.toUpper
    readDigits? 16 digits = some n ∧
      digits.all isPlain = true := by
  rcases Numeral.value_hexDigits width n with ⟨hValue, hAll⟩
  apply readDigits?_eq_some 16 n _ _ hAll hValue
  simp [Text.hexDigits, List.leftpad, Nat.toDigits_ne_nil]

/- The text of a number that is not negative. -/
theorem spells_number
    (width : Nat)
    (n : Int)
    (hPositive : 0 ≤ n) :
    Spells (Operand.number width n).toList
      (.number n.toNat) := by
  rcases readDigits?_hexDigits width n.toNat with
    ⟨hRead, hPlain⟩
  have hSome :
      0 < ((Text.hexDigits width n.toNat).map
        Char.toUpper).length := by
    have hDigits :=
      @Nat.length_toDigits_pos 16 n.toNat
    simp [Text.hexDigits, List.leftpad]
    omega
  rw [Operand.toList_number width n hPositive]
  constructor
  · rw [readValue?, hRead]
    rfl
  · rw [List.all_cons, hPlain]
    rfl
  · rfl
  · rw [List.length_cons]
    omega

/- The characters of a distance from the instruction. -/
theorem toList_relative
    (distance : Int) :
    (Operand.relative distance).toList =
      'P' :: '%' ::
        (if distance < 0 then '-' else '+') ::
          Nat.toDigits 10 distance.natAbs := by
  by_cases hNegative : distance < 0
  · simp only [Operand.relative, hNegative, if_true,
      String.toList_append, Numeral.toList_decimal]
    rfl
  · simp only [Operand.relative, hNegative, if_false,
      String.toList_append, Numeral.toList_decimal]
    rfl

/- The text of a distance from the instruction. -/
theorem spells_relative
    (distance : Int) :
    Spells (Operand.relative distance).toList
      (.here distance) := by
  rcases readDigits?_toDigits distance.natAbs with
    ⟨hRead, hPlain⟩
  rw [toList_relative]
  by_cases hNegative : distance < 0
  · have hValue : -(distance.natAbs : Int) = distance := by
      omega
    rw [if_pos hNegative]
    constructor
    · rw [readValue?, hRead]
      exact congrArg (fun n => some (Value.here n)) hValue
    · simp only [List.all_cons, hPlain]
      rfl
    · rfl
    · simp
  · have hValue : (distance.natAbs : Int) = distance := by
      omega
    rw [if_neg hNegative]
    constructor
    · rw [readValue?, hRead]
      exact congrArg (fun n => some (Value.here n)) hValue
    · simp only [List.all_cons, hPlain]
      rfl
    · rfl
    · simp

end Assembler

end Beeb

------------------------------------------------------------
-- Texts Of Symbols
------------------------------------------------------------

namespace Beeb

/- A name that is found is in the list of names. -/
theorem Mos.Names.mem_of_find?
    (names : Mos.Names)
    (address : Int)
    (name : String)
    (hName : names.find? address = some name) :
    (address, name) ∈ names := by
  rcases List.lookup_eq_some_iff.mp hName with
    ⟨before, after, hSplit, -⟩
  rw [hSplit]
  simp

namespace Assembler

/- A decimal digit may continue a name. -/
theorem continuesName_of_isDigit
    (c : Char)
    (hDigit : c.isDigit = true) :
    Variable.continuesName c = true := by
  have hAscii : c.toNat < 128 := by
    simp only [Char.isDigit, Bool.and_eq_true,
      decide_eq_true_eq] at hDigit
    have hLast := UInt32.le_iff_toNat_le.mp hDigit.2
    exact Nat.lt_of_le_of_lt hLast (by decide)
  simp [Variable.continuesName, Text.isAlphanumeric, hAscii,
    hDigit]

/- A name by itself is read as a symbol. -/
theorem readSymbol?_of_isName
    (name : String)
    (hName : Variable.isName name = true) :
    readSymbol? name.toList = some (.symbol name 0) := by
  have hAll :
      ∀ c ∈ name.toList, decide (c ≠ '+') = true := by
    intro c hMem
    simp only [decide_eq_true_eq]
    rintro rfl
    exact Variable.notMem_of_isName name hName '+' rfl hMem
  rw [readSymbol?, List.takeWhile_eq_self_iff.mpr hAll,
    List.dropWhile_eq_nil_iff.mpr hAll, String.ofList_toList]
  simp [hName]

/- So is a name to which one is added. -/
theorem readSymbol?_plus_one
    (name : String)
    (hName : Variable.isName name = true) :
    readSymbol? (name ++ "+1").toList =
      some (.symbol name 1) := by
  have hText :
      (name ++ "+1").toList = name.toList ++ '+' :: ['1'] := by
    simp
  rcases Text.cut_of_notMem '+' name.toList ['1']
      (Variable.notMem_of_isName name hName '+' rfl) with
    ⟨hBefore, hAfter⟩
  have hOne : readDigits? 10 ['1'] = some 1 := rfl
  rw [readSymbol?, hText, hBefore, hAfter, String.ofList_toList]
  simp [hName, hOne]

/-
  A text that begins with a name and is read as a symbol
  stands for it, if it is longer than the accumulator.
-/
theorem spells_of_isName
    (name : String)
    (suffix : List Char)
    (value : Value)
    (hName : Variable.isName name = true)
    (hReads :
      readSymbol? (name.toList ++ suffix) = some value)
    (hPlain : suffix.all isPlain = true)
    (hPercent : '%' ∉ suffix)
    (hLong : 2 ≤ name.toList.length) :
    Spells (name.toList ++ suffix) value := by
  have hNot := Variable.notMem_of_isName name hName
  have hNoPercent : '%' ∉ name.toList ++ suffix := by
    rw [List.mem_append]
    rintro (hInName | hInSuffix)
    · exact hNot '%' rfl hInName
    · exact hPercent hInSuffix
  have hHead :
      ∀ other ∈ (name.toList ++ suffix).head?,
        other ∈ name.toList := by
    intro other hFirst
    rw [List.head?_append_of_ne_nil _
      (List.ne_nil_of_length_pos (by omega))] at hFirst
    exact List.mem_of_mem_head? hFirst
  constructor
  · rw [readValue?]
    · exact hReads
    · intro cs hIs
      exact hNot '&' rfl (hHead '&' (by rw [hIs]; rfl))
    · intro cs hIs
      exact hNoPercent (by rw [hIs]; simp)
    · intro cs hIs
      exact hNoPercent (by rw [hIs]; simp)
  · rw [List.all_append, hPlain, Bool.and_true,
      List.all_eq_true]
    intro c hMem
    simp only [isPlain, Bool.and_eq_true, decide_eq_true_eq]
    refine ⟨⟨?_, ?_⟩, ?_⟩
    · rintro rfl
      exact hNot ' ' rfl hMem
    · rintro rfl
      exact hNot '\\' rfl hMem
    · rintro rfl
      exact hNot ',' rfl hMem
  · rw [Option.all_eq_true]
    intro c hFirst
    simp only [Bool.and_eq_true, decide_eq_true_eq]
    constructor
    · rintro rfl
      exact hNot '#' rfl (hHead '#' hFirst)
    · rintro rfl
      exact hNot '(' rfl (hHead '(' hFirst)
  · rw [List.length_append]
    omega

/- A name by itself stands for its symbol. -/
theorem spells_name
    (name : String)
    (hName : Variable.isName name = true)
    (hLong : 2 ≤ name.toList.length) :
    Spells name.toList (.symbol name 0) := by
  have hSpells :=
    spells_of_isName name [] _ hName
      (by rw [List.append_nil, readSymbol?_of_isName _ hName])
      rfl (by simp) hLong
  rwa [List.append_nil] at hSpells

/- A name to which one is added stands for that. -/
theorem spells_plus_one
    (name : String)
    (hName : Variable.isName name = true)
    (hLong : 2 ≤ name.toList.length) :
    Spells (name ++ "+1").toList (.symbol name 1) := by
  rw [String.toList_append]
  apply spells_of_isName name "+1".toList _ hName
  · rw [← String.toList_append]
    exact readSymbol?_plus_one name hName
  · rfl
  · decide
  · exact hLong

/- The characters of the name of a label. -/
theorem toList_label
    (index : Nat) :
    ("label_" ++ Numeral.decimal index).toList =
      ['l', 'a', 'b', 'e', 'l', '_'] ++
        Nat.toDigits 10 index := by
  rw [String.toList_append, Numeral.toList_decimal]
  rfl

/- The name of a label is a name. -/
theorem isName_label
    (index : Nat) :
    Variable.isName ("label_" ++ Numeral.decimal index) =
      true := by
  have hFirst : Variable.beginsName 'l' = true := rfl
  rw [Variable.isName, toList_label, List.all_append,
    Bool.and_eq_true, Bool.and_eq_true]
  refine ⟨hFirst, rfl, ?_⟩
  rw [List.all_eq_true]
  intro c hMem
  exact
    continuesName_of_isDigit c
      (Nat.isDigit_of_mem_toDigits (by decide) (by decide)
        hMem)

/- The text of the name of a label. -/
theorem spells_label
    (index : Nat) :
    Spells
      ("label_" ++ Numeral.decimal index).toList
      (.symbol ("label_" ++ Numeral.decimal index) 0) := by
  apply spells_name _ (isName_label index)
  simp

/-
  System symbols have names that are longer than that of the
  accumulator, and addresses to write.
-/
theorem isName_of_mem_system
    (entry : Int × String)
    (hEntry : entry ∈ Mos.calls ++ Mos.vectors) :
    Variable.isName entry.2 = true ∧
      2 ≤ entry.2.toList.length ∧ 0 ≤ entry.1 := by
  have hAll :
      ∀ entry ∈ Mos.calls ++ Mos.vectors,
        Variable.isName entry.2 = true ∧
          2 ≤ entry.2.toList.length ∧ 0 ≤ entry.1 := by
    decide +kernel
  exact hAll entry hEntry

/- The name of an entry point. -/
theorem spells_callName
    (address : Int)
    (name : String)
    (hName : Mos.callName? address = some name) :
    Spells name.toList (.symbol name 0) := by
  have hEntry := Mos.Names.mem_of_find? _ address name hName
  rcases isName_of_mem_system _
      (List.mem_append_left _ hEntry) with
    ⟨hIs, hLong, -⟩
  exact spells_name name hIs hLong

/- The name of a vector, for its low and its high byte. -/
theorem spells_vectorName
    (address : Int)
    (name : String)
    (hName : Mos.vectorName? address = some name) :
    Spells name.toList (.symbol name 0) ∧
      Spells (name ++ "+1").toList (.symbol name 1) := by
  have hEntry := Mos.Names.mem_of_find? _ address name hName
  rcases isName_of_mem_system _
      (List.mem_append_right _ hEntry) with
    ⟨hIs, hLong, -⟩
  exact
    ⟨spells_name name hIs hLong, spells_plus_one name hIs hLong⟩

end Assembler

end Beeb

------------------------------------------------------------
-- Forms Of Operands
------------------------------------------------------------

namespace Beeb

namespace Assembler

/- How an operand is written that has a form and a value. -/
inductive Writes :
    List Char → Form → Value → Prop where
| absent :
    Writes [] .absent (.number 0)
| accumulator :
    Writes ['A'] .accumulator (.number 0)
| immediate
    {text : List Char}
    {value : Value}
    (hSpells : Spells text value) :
    Writes ('#' :: text) .immediate value
| direct
    {text : List Char}
    {value : Value}
    (hSpells : Spells text value) :
    Writes text .direct value
| directX
    {text : List Char}
    {value : Value}
    (hSpells : Spells text value) :
    Writes (text ++ [',', 'X']) .directX value
| directY
    {text : List Char}
    {value : Value}
    (hSpells : Spells text value) :
    Writes (text ++ [',', 'Y']) .directY value
| indirect
    {text : List Char}
    {value : Value}
    (hSpells : Spells text value) :
    Writes ('(' :: text ++ [')']) .indirect value
| indirectX
    {text : List Char}
    {value : Value}
    (hSpells : Spells text value) :
    Writes ('(' :: text ++ [',', 'X', ')']) .indirectX value
| indirectY
    {text : List Char}
    {value : Value}
    (hSpells : Spells text value) :
    Writes ('(' :: text ++ [')', ',', 'Y']) .indirectY value

namespace Spells

variable {text : List Char}
variable {value : Value}

/- A value has no comma in it. -/
theorem comma_notMem
    (hSpells : Spells text value) :
    ',' ∉ text := by
  intro hMem
  have hPlain :=
    List.all_eq_true.mp hSpells.plain ',' hMem
  simp [isPlain] at hPlain

/- What a value is part of is not parted inside it. -/
theorem splitChars_append
    (hSpells : Spells text value)
    (rest : List Char) :
    Text.splitChars ',' (text ++ ',' :: rest) =
      text :: Text.splitChars ',' rest := by
  rw [Text.splitChars_append,
    Text.splitChars_of_notMem ',' text hSpells.comma_notMem]
  rfl

/- Nothing that begins with a value is of another form. -/
theorem unmarked_append
    (hSpells : Spells text value)
    (rest : List Char) :
    text ++ rest ≠ [] ∧ text ++ rest ≠ ['A'] ∧
      (∀ cs, text ++ rest ≠ '#' :: cs) ∧
      ∀ cs, text ++ rest ≠ '(' :: cs := by
  match text, hSpells.unmarked, hSpells.long with
  | first :: second :: others, hUnmarked, _ =>
    simp only [List.head?_cons, Option.all_some,
      Bool.and_eq_true, decide_eq_true_eq] at hUnmarked
    simp [hUnmarked]

/- What begins with a value is read by its parts. -/
theorem readOperand?_append
    (hSpells : Spells text value)
    (rest : List Char)
    (form : Form)
    (hParts :
      (Text.splitChars ',' (text ++ rest), form) ∈
        [([text], .direct), ([text, ['X']], .directX),
          ([text, ['Y']], .directY)]) :
    readOperand? (text ++ rest) = some (form, value) := by
  rcases hSpells.unmarked_append rest with
    ⟨hSome, hNoA, hNoHash, hNoBracket⟩
  rw [readOperand?]
  · simp only [List.mem_cons, List.not_mem_nil, or_false,
      Prod.mk.injEq] at hParts
    rcases hParts with
      ⟨hSplit, rfl⟩ | ⟨hSplit, rfl⟩ | ⟨hSplit, rfl⟩
    · simp [hSplit, hSpells.reads]
    · simp [hSplit, hSpells.reads]
    · simp [hSplit, hSpells.reads]
  · exact hSome
  · exact hNoA
  · exact hNoHash
  · exact hNoBracket

end Spells

/- What is before a closing bracket. -/
theorem beforeBracket?_append
    (text : List Char) :
    beforeBracket? (text ++ [')']) = some text := by
  simp [beforeBracket?]

/- An operand is read as it was written. -/
theorem Writes.read
    {text : List Char}
    {form : Form}
    {value : Value}
    (hWrites : Writes text form value) :
    readOperand? text = some (form, value) := by
  cases hWrites with
  | absent | accumulator => rfl
  | immediate hSpells =>
    rw [readOperand?, hSpells.reads]
    rfl
  | direct hSpells =>
    rw [← List.append_nil text]
    apply hSpells.readOperand?_append
    rw [List.append_nil,
      Text.splitChars_of_notMem ',' _ hSpells.comma_notMem]
    simp
  | directX hSpells =>
    apply hSpells.readOperand?_append
    rw [hSpells.splitChars_append]
    simp [Text.splitChars]
  | directY hSpells =>
    apply hSpells.readOperand?_append
    rw [hSpells.splitChars_append]
    simp [Text.splitChars]
  | @indirect text value hSpells =>
    have hComma : ',' ∉ text ++ [')'] := by
      simpa using hSpells.comma_notMem
    rw [List.cons_append, readOperand?,
      Text.splitChars_of_notMem ',' _ hComma]
    simp [beforeBracket?_append, hSpells.reads]
  | indirectX hSpells =>
    rw [List.cons_append, readOperand?,
      hSpells.splitChars_append]
    simp [Text.splitChars, hSpells.reads]
  | @indirectY text value hSpells =>
    have hComma : ',' ∉ text ++ [')'] := by
      simpa using hSpells.comma_notMem
    have hSplit :
        Text.splitChars ',' (text ++ [')', ',', 'Y']) =
          [text ++ [')'], ['Y']] := by
      have hParts :=
        Text.splitChars_append ',' (text ++ [')']) ['Y']
      rw [Text.splitChars_of_notMem ',' _ hComma] at hParts
      simpa [Text.splitChars] using hParts
    rw [List.cons_append, readOperand?, hSplit]
    simp [beforeBracket?_append, hSpells.reads]

/- An operand is not parted, and it begins no comment. -/
theorem Writes.unbroken
    {text : List Char}
    {form : Form}
    {value : Value}
    (hWrites : Writes text form value) :
    Unbroken text := by
  cases hWrites with
  | absent | accumulator => simp [Unbroken]
  | direct hSpells =>
    exact unbroken_of_isPlain _ hSpells.plain
  | immediate hSpells
  | directX hSpells
  | directY hSpells
  | indirect hSpells
  | indirectX hSpells
  | indirectY hSpells =>
    intro c hMem
    have hInside := unbroken_of_isPlain _ hSpells.plain c
    simp only [List.mem_cons, List.cons_append,
      List.mem_append, List.not_mem_nil, or_false] at hMem
    grind

end Assembler

end Beeb
