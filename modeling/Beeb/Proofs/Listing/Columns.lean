import Beeb.Proofs.Assembler.Code
import Beeb.Proofs.Assembler.Line
import Beeb.Proofs.Listing.Body
import Beeb.Proofs.Operand.Width

/-
  The columns of a listing: where the comments begin, and
  where the bytes are shown as characters.

  A line leaves its columns only if its statement or its
  comment is too long.  Without variables every statement is
  short: names of labels are the only texts in it that grow,
  and they grow with the addresses.  So does the address in
  the comment.

  Main declarations:
    * `Listing.KeepsColumns`
    * `Listing.keepsColumns_columns`
    * `Step.remark`
    * `Step.length_remark_le`
    * `Listing.keepsColumns_of_code`
    * `Listing.keepsColumns_of_data`
    * `Listing.Shows.keepsColumns`
    * `Disassembly.body_keeps_columns`
-/

------------------------------------------------------------
-- Texts In Columns
------------------------------------------------------------

namespace Beeb

namespace Listing

/- A byte as a character: itself if it is plain, or a dot. -/
def shownByte
    (b : UInt8) : Char :=
  if 32 ≤ b.toNat ∧ b.toNat ≤ 126 then Char.ofNat b.toNat
  else '.'

/-
  A comment: its mark, an address of four digits at least,
  and a remark.
-/
def commentText
    (address : Int)
    (remark : List Char) : List Char :=
  ['\\', ' ', '&'] ++
    (Text.hexDigits 4 address.toNat).map Char.toUpper ++
    ' ' :: remark

/-
  A text keeps its columns: its comment begins in column 24
  and is followed by spaces up to column 44, of which there
  is one at least; all that comes then are the bytes.
-/
structure KeepsColumns
    (address : Int)
    (remark : List Char)
    (bytes : List UInt8)
    (text : List Char) : Prop where
  marker : text.idxOf '\\' = 24
  comment :
    (text.drop 24).take 20 =
      (commentText address remark).rightpad 20 ' '
  gap : (commentText address remark).length < 20
  printed : text.drop 44 = bytes.map shownByte

instance
    (address : Int)
    (remark : List Char)
    (bytes : List UInt8)
    (text : List Char) :
    Decidable (KeepsColumns address remark bytes text) :=
  decidable_of_iff
    (text.idxOf '\\' = 24 ∧
      (text.drop 24).take 20 =
        (commentText address remark).rightpad 20 ' ' ∧
      (commentText address remark).length < 20 ∧
      text.drop 44 = bytes.map shownByte)
    ⟨fun ⟨hMarker, hComment, hGap, hPrinted⟩ =>
        ⟨hMarker, hComment, hGap, hPrinted⟩,
      fun h => ⟨h.marker, h.comment, h.gap, h.printed⟩⟩

/- Bytes as characters, one by one. -/
theorem toList_printable
    (bytes : List UInt8) :
    (printable bytes).toList = bytes.map shownByte :=
  String.toList_ofList

/- A text that is filled up because it is short. -/
theorem toList_pad
    (text : String)
    (column : Nat)
    (hShort : text.length < column) :
    (pad text column).toList =
      text.toList.rightpad column ' ' := by
  have hMax :
      max (column - text.length) 1 =
        column - text.length := by
    omega
  rw [pad, String.toList_append, String.toList_ofList, hMax,
    List.rightpad, String.length_toList]

/- A line whose parts are short is filled up twice. -/
theorem toList_columns
    (statement comment : String)
    (bytes : List UInt8)
    (hStatement : statement.length < 24)
    (hComment : comment.length + 2 < 20) :
    (Line.columns statement comment bytes).toList =
      statement.toList.rightpad 24 ' ' ++
        (('\\' :: ' ' :: comment.toList).rightpad 20 ' ' ++
          bytes.map shownByte) := by
  have hFirst :
      (pad statement commentColumn).toList =
        statement.toList.rightpad 24 ' ' :=
    toList_pad statement commentColumn hStatement
  have hFirstLength :
      (pad statement commentColumn).length = 24 := by
    rw [length_pad, commentColumn]
    omega
  have hLength :
      (pad statement commentColumn ++ "\\ " ++
          comment).length =
        26 + comment.length := by
    rw [String.length_append, String.length_append,
      hFirstLength]
    rfl
  have hGap :
      44 - (26 + comment.length) =
        20 - (comment.length + 2) := by
    omega
  rw [Line.columns, String.toList_append,
    toList_pad _ _ (by rw [hLength, printableColumn]; omega),
    List.rightpad, String.length_toList, hLength,
    printableColumn, hGap, String.toList_append,
    String.toList_append, hFirst, toList_printable]
  simp [List.rightpad, String.length_toList]

/-
  A line keeps its columns if its statement is short and has
  no comment in it, and if its comment is short as well.
-/
theorem keepsColumns_columns
    (statement comment : String)
    (address : Int)
    (remark : List Char)
    (bytes : List UInt8)
    (hPlain : '\\' ∉ statement.toList)
    (hStatement : statement.length < 24)
    (hComment :
      '\\' :: ' ' :: comment.toList =
        commentText address remark)
    (hShort : (commentText address remark).length < 20) :
    KeepsColumns address remark bytes
      (Line.columns statement comment bytes).toList := by
  have hCommentShort : comment.length + 2 < 20 := by
    rwa [← hComment, List.length_cons, List.length_cons,
      String.length_toList] at hShort
  have hFirst :
      (statement.toList.rightpad 24 ' ').length = 24 := by
    rw [List.length_rightpad, String.length_toList]
    omega
  have hSecond :
      ((commentText address remark).rightpad 20
        ' ').length = 20 := by
    rw [List.length_rightpad]
    omega
  have hNotIn :
      '\\' ∉ statement.toList.rightpad 24 ' ' := by
    rw [List.rightpad, List.mem_append]
    rintro (hMem | hMem)
    · exact hPlain hMem
    · simp at hMem
  have hMark :
      ((commentText address remark).rightpad 20 ' ' ++
          bytes.map shownByte).idxOf '\\' = 0 := by
    simp [commentText, List.rightpad]
  rw [toList_columns statement comment bytes hStatement
    hCommentShort, hComment]
  constructor
  · rw [List.idxOf_append_of_notMem hNotIn, hFirst, hMark]
  · rw [List.drop_left' hFirst, List.take_left' hSecond]
  · exact hShort
  · have hBoth : (44 : Nat) = 24 + 20 := rfl
    rw [hBoth, ← List.drop_drop, List.drop_left' hFirst,
      List.drop_left' hSecond]

/- A line of data, with the name of what it begins with. -/
example :
    KeepsColumns 0xFFFFFFF ['U', 'D', ' ', 'S', 'L', 'O'] [7]
      (Line.columns " EQUB &07" "&FFFFFFF UD SLO"
        [7]).toList := by
  decide

end Listing

end Beeb

------------------------------------------------------------
-- Remarks
------------------------------------------------------------

namespace Beeb

/-
  How long texts of one width are that are parted by single
  characters.
-/
theorem length_intercalate
    (c : Char)
    (width : Nat)
    (parts : List (List Char))
    (hWidth : ∀ part ∈ parts, part.length = width) :
    ([c].intercalate parts).length =
      (width + 1) * parts.length - 1 := by
  induction parts with
  | nil => simp
  | cons part parts ih =>
    have hPart := hWidth part (by simp)
    have hParts :=
      ih fun other hMem => hWidth other (by simp [hMem])
    cases parts with
    | nil => simp [hPart]
    | cons next parts =>
      have hSome :
          0 < (width + 1) * (next :: parts).length :=
        Nat.mul_pos (by omega) (by simp)
      have hCount :
          (part :: next :: parts).length =
            (next :: parts).length + 1 :=
        rfl
      rw [List.intercalate_cons_of_ne_nil (by simp),
        List.length_append, List.length_append, hParts, hPart,
        List.length_singleton, hCount, Nat.mul_succ]
      omega

namespace Listing

/- A byte in a comment: two hexadecimal digits. -/
def byteDigits
    (b : UInt8) : List Char :=
  (Text.hexDigits 2 b.toNat).map Char.toUpper

/- There are two of them. -/
theorem length_byteDigits
    (b : UInt8) :
    (byteDigits b).length = 2 :=
  Numeral.length_hexDigits 2 b.toNat (by decide) b.toNat_lt

/- The bytes of a comment. -/
theorem toList_byteText
    (b : UInt8) :
    (byteText b).toList = byteDigits b :=
  Text.toList_hex 2 b.toNat (by omega)

/- A comment with an address and a short remark is short. -/
theorem length_commentText_lt
    (address : Int)
    (remark : List Char)
    (hPositive : 0 ≤ address)
    (hAddress : address < 0x10000000)
    (hRemark : remark.length ≤ 8) :
    (commentText address remark).length < 20 := by
  have hSmall : address.toNat < Nat.pow 16 7 := by
    have hPower : Nat.pow 16 7 = 0x10000000 := rfl
    omega
  have hDigits : (Nat.toDigits 16 address.toNat).length ≤ 7 :=
    (Nat.length_toDigits_le_iff (by decide) (by decide)).mpr
      hSmall
  simp only [commentText, Text.hexDigits, List.length_append,
    List.length_cons, List.length_nil, List.length_map,
    List.length_leftpad]
  omega

end Listing

namespace Step

/-
  What a comment says of a step behind its address: the bytes
  of an instruction; of data, the name of the instruction
  that it begins with if assemblers do not know it.
-/
def remark
    (s : Step) : List Char :=
  if s.isCode then
    [' '].intercalate (s.data.map Listing.byteDigits)
  else
    match
      s.data.head?.bind (Instruction.ofOpcode? ·.toNat) with
    | some i =>
      if i.documented then []
      else ['U', 'D', ' '] ++ i.mnemonic.toList
    | none => []

/- A remark is short, as steps are. -/
theorem length_remark_le
    (s : Step)
    (hShort : s.length ≤ 3) :
    s.remark.length ≤ 8 := by
  unfold remark
  split
  · have hData : s.data.length ≤ 3 := by
      unfold length at hShort
      omega
    have hLength :=
      length_intercalate ' ' 2 (s.data.map Listing.byteDigits)
        (by
          intro part hMem
          rcases List.mem_map.mp hMem with ⟨b, -, rfl⟩
          exact Listing.length_byteDigits b)
    rw [hLength, List.length_map]
    omega
  · split
    · rename_i i hFirst
      rcases Option.bind_eq_some_iff.mp hFirst with
        ⟨first, -, hInstruction⟩
      have hTable :=
        ((Instruction.ofOpcode?_eq_some_iff _ i).mp
          hInstruction).1
      split
      · simp
      · rw [List.length_append, String.length_toList,
          i.length_mnemonic hTable]
        decide
    · simp

/- The remark on data is the name that its line shows. -/
theorem remark_of_data
    (s : Step)
    (hFaithful : s.Faithful)
    (hData : ∀ i, s.verdict ≠ .code i) :
    s.remark =
      (if (Listing.dataName s.verdict).isEmpty then ""
        else "UD " ++ Listing.dataName s.verdict).toList := by
  have hNoCode : ¬ s.isCode = true := by
    rw [s.isCode_eq_false hData]
    decide
  rcases hFaithful.opening with
    ⟨first, rest, hBytes, hInstruction⟩
  have hFirst :
      s.data.head?.bind (Instruction.ofOpcode? ·.toNat) =
        s.verdict.instruction? := by
    rw [hBytes, hInstruction]
    rfl
  rw [remark, if_neg hNoCode, hFirst, Listing.dataName]
  cases hIs : s.verdict.instruction? with
  | none => rfl
  | some i =>
    rw [hIs] at hInstruction
    have hTable :=
      ((Instruction.ofOpcode?_eq_some_iff _ i).mp
        hInstruction.symm).1
    by_cases hDocumented : i.documented = true
    · simp [hDocumented]
    · have hName : i.mnemonic.isEmpty = false := by
        rw [← Bool.not_eq_true, String.isEmpty_iff]
        intro hEmpty
        have hThree := i.length_mnemonic hTable
        rw [hEmpty] at hThree
        cases hThree
      simp [hDocumented, hName]

end Step

end Beeb

------------------------------------------------------------
-- Lines Of Steps
------------------------------------------------------------

namespace Beeb

namespace Listing

open Assembler

/- The comment of an instruction holds its bytes. -/
theorem comment_of_bytes
    (address : Int)
    (bytes : List UInt8)
    (hPositive : 0 ≤ address)
    (hSome : bytes ≠ []) :
    '\\' :: ' ' ::
        (" ".intercalate
          (Operand.number 4 address ::
            bytes.map byteText)).toList =
      commentText address
        ([' '].intercalate (bytes.map byteDigits)) := by
  have hBytes :
      (bytes.map byteText).map String.toList =
        bytes.map byteDigits := by
    rw [List.map_map]
    exact List.map_congr_left fun b _ => toList_byteText b
  rw [String.toList_intercalate, List.map_cons, hBytes,
    List.intercalate_cons_of_ne_nil (by simpa using hSome),
    Operand.toList_number 4 address hPositive]
  simp [commentText]

/- The comment of data holds a name, or nothing. -/
theorem comment_of_name
    (address : Int)
    (name : String)
    (hPositive : 0 ≤ address) :
    '\\' :: ' ' ::
        (Operand.number 4 address ++ " " ++ name).toList =
      commentText address name.toList := by
  rw [String.toList_append, String.toList_append,
    Operand.toList_number 4 address hPositive]
  simp [commentText]

/- A statement with a short operand is short. -/
theorem length_statement_le
    (mnemonic operand : String) :
    (Line.statement mnemonic operand).length ≤
      mnemonic.length + operand.length + 2 := by
  have hSpace : " ".length = 1 := rfl
  unfold Line.statement
  split <;> simp only [String.length_append] <;> omega

/- A statement begins no comment if its parts do not. -/
theorem statement_plain
    (mnemonic operand : String)
    (hMnemonic : '\\' ∉ mnemonic.toList)
    (hOperand : '\\' ∉ operand.toList) :
    '\\' ∉ (Line.statement mnemonic operand).toList := by
  unfold Line.statement
  split <;> simp [hMnemonic, hOperand]

/- The statement that defines the bytes of a step. -/
theorem byteStatement_fits
    (bytes : List UInt8)
    (hShort : bytes.length ≤ 3) :
    '\\' ∉ (Line.byteStatement bytes).toList ∧
      (Line.byteStatement bytes).length < 24 := by
  have hByte : ∀ b : UInt8, (byteChars b).length = 3 := by
    intro b
    rw [byteChars, List.length_cons]
    exact congrArg (· + 1) (length_byteDigits b)
  have hLength :
      (bytesChars bytes).length ≤ 11 := by
    rw [bytesChars,
      length_intercalate ',' 3 (bytes.map byteChars)
        (by
          intro part hMem
          rcases List.mem_map.mp hMem with ⟨b, -, rfl⟩
          exact hByte b),
      List.length_map]
    omega
  have hPlain : '\\' ∉ bytesChars bytes := by
    intro hMem
    exact (bytesChars_unbroken bytes '\\' hMem).2 rfl
  rw [← String.length_toList, toList_byteStatement]
  constructor
  · simp [hPlain]
  · simp only [List.length_cons, List.length_append,
      List.length_nil]
    omega

variable (adjust : Int)
variable (p : Placed)
variable (hFaithful : p.step.Faithful)
variable (hShort : p.step.length ≤ 3)
variable (hPositive : 0 ≤ p.address adjust)
variable (hAddress : p.address adjust < 0x10000000)

include hFaithful hShort hPositive hAddress

/- The line of an instruction keeps its columns. -/
theorem keepsColumns_of_code
    (i : Instruction)
    (operand : String)
    (hCode : p.step.verdict = .code i)
    (hPlain : '\\' ∉ operand.toList)
    (hOperand : operand.length ≤ 15) :
    KeepsColumns (p.address adjust) p.step.remark p.step.data
      (Line.instruction i.mnemonic operand (p.address adjust)
        p.step.data).render.toList := by
  have hTable :=
    (mem_table_of_code p.step i hFaithful hCode).1
  have hMnemonic : '\\' ∉ i.mnemonic.toList := by
    intro hMem
    have hUnbroken :=
      unbroken_of_isPlain _ (mnemonic_plain i hTable).1
    exact (hUnbroken '\\' hMem).2 rfl
  have hStatement := length_statement_le i.mnemonic operand
  have hThree := i.length_mnemonic hTable
  have hIsCode := p.step.isCode_iff.mpr ⟨i, hCode⟩
  have hSome : p.step.data ≠ [] := by
    rcases hFaithful.opening with ⟨first, rest, hData, -⟩
    simp [hData]
  have hRemark :
      p.step.remark =
        [' '].intercalate (p.step.data.map byteDigits) := by
    rw [Step.remark, if_pos hIsCode]
  rw [Line.render]
  apply keepsColumns_columns
  · exact statement_plain _ _ hMnemonic hPlain
  · omega
  · rw [hRemark]
    exact comment_of_bytes _ _ hPositive hSome
  · exact
      length_commentText_lt _ _ hPositive hAddress
        (p.step.length_remark_le hShort)

/- So does the line of data. -/
theorem keepsColumns_of_data
    (hData : ∀ i, p.step.verdict ≠ .code i) :
    KeepsColumns (p.address adjust) p.step.remark p.step.data
      (Line.data p.step.data (p.address adjust)
        (dataName p.step.verdict)).render.toList := by
  have hBytes : p.step.data.length ≤ 3 := by
    unfold Step.length at hShort
    omega
  rcases byteStatement_fits p.step.data hBytes with
    ⟨hPlain, hStatement⟩
  rw [Line.render]
  apply keepsColumns_columns
  · exact hPlain
  · exact hStatement
  · rw [p.step.remark_of_data hFaithful hData]
    exact comment_of_name _ _ hPositive
  · exact
      length_commentText_lt _ _ hPositive hAddress
        (p.step.length_remark_le hShort)

end Listing

end Beeb

------------------------------------------------------------
-- Bodies
------------------------------------------------------------

namespace Beeb

namespace Listing

open Assembler

/-
  The line of a step keeps its columns if no label has a
  long name and the address is small.
-/
theorem Shows.keepsColumns
    (a : Analysis)
    (adjust : Int)
    (p : Placed)
    (line : Line)
    (hFaithful : p.step.Faithful)
    (hShort : p.step.length ≤ 3)
    (hPositive : 0 ≤ p.address adjust)
    (hAddress : p.address adjust < 0x10000000)
    (hNumbered : a.labels.Numbered)
    (hNames : a.labels.NamesWithin 15)
    (hCovered : p.Covered a)
    (hShows : Shows a.labels [] adjust p line) :
    line.operand?.isSome = p.step.isCode ∧
      KeepsColumns (p.address adjust) p.step.remark
        p.step.data line.render.toList := by
  rcases hShows.line_eq with
    ⟨i, operand, hCode, hText, rfl⟩ | ⟨hData, rfl⟩
  · rcases reassembles_of_code a (p.address adjust) p i
        hFaithful hCode hNumbered hCovered with
      ⟨written, form, value, hWritten, hWrites, -⟩
    rw [hText] at hWritten
    cases hWritten
    have hPlain : '\\' ∉ operand.toList :=
      fun hMem => (hWrites.unbroken '\\' hMem).2 rfl
    have hOperand :=
      Operand.length_text_le a.labels operand 15 (by decide)
        hNames i p.step.data (p.address adjust)
        (mem_table_of_code p.step i hFaithful hCode).1 hText
    exact
      ⟨(p.step.isCode_iff.mpr ⟨i, hCode⟩).symm,
        keepsColumns_of_code adjust p hFaithful hShort
          hPositive hAddress i operand hCode hPlain hOperand⟩
  · exact
      ⟨(p.step.isCode_eq_false hData).symm,
        keepsColumns_of_data adjust p hFaithful hShort
          hPositive hAddress hData⟩

end Listing

namespace Disassembly

open Listing

/-
  The body of a listing with no variables keeps its columns,
  whatever the program, the window and the known code
  addresses are, as long as the addresses stay small: every
  line that defines no label is that of a step, with the
  comment and the characters of that step in their places.
-/
theorem body_keeps_columns
    (program : Bytes)
    (w : Window)
    (addresses : List Int)
    (hFits : w.validate program.size = .ok ())
    (hLow : w.stop + w.adjust ≤ 0x10000000) :
    let d : Disassembly := ⟨program, w, addresses, [], hFits⟩
    ∃ header body,
      d.read.failure = none ∧
        d.read.lines = header ++ body ∧
        (∀ line ∈ header, line.isHeader = true) ∧
        (∀ line ∈ body, line.isHeader = false) ∧
        List.Forall₂
          (fun p line =>
            line.operand?.isSome = p.step.isCode ∧
              KeepsColumns (p.address w.adjust) p.step.remark
                p.step.data line.render.toList)
          d.steps (body.filter (!·.isLabel)) := by
  intro d
  rcases d.read_eq (by simp [d]) with ⟨hLines, hFailure⟩
  rcases d.exists_course with ⟨final, hCourse, -⟩
  rcases (Window.validate_eq_ok_iff w program.size).mp hFits
    with ⟨-, -, hAdjust, -⟩
  have hPlaces :
      ∀ p ∈ d.steps,
        0 ≤ p.address w.adjust ∧
          p.address w.adjust < 0x10000000 := by
    intro p hp
    rcases hCourse.regular p hp with ⟨hRegular, -, hBefore⟩
    have hStarts := hRegular.starts
    have hStop : p.position < w.stop := hBefore
    unfold Placed.address
    omega
  have hNames : d.analysis.labels.NamesWithin 15 := by
    apply Analysis.namesWithin_labels w.adjust d.steps 9
    · decide
    · intro p hp
      rcases hPlaces p hp with ⟨hPositive, hAddress⟩
      have hPower : Nat.pow 10 9 = 1000000000 := rfl
      exact ⟨hPositive, by rw [hPower]; omega⟩
  refine
    ⟨_, d.bodyLines, hFailure, hLines, ?_,
      d.isHeader_of_mem_bodyLines, ?_⟩
  · intro line hMem
    rcases List.mem_map.mp hMem with ⟨text, -, rfl⟩
    rfl
  · have hShows := d.listed_bodyLines.shows_filter
    rw [List.forall₂_iff_zip] at hShows ⊢
    refine ⟨hShows.1, ?_⟩
    intro p line hMem
    have hp := (List.of_mem_zip hMem).1
    rcases hPlaces p hp with ⟨hPositive, hAddress⟩
    exact
      (hShows.2 hMem).keepsColumns d.analysis w.adjust p line
        (d.faithful_of_mem_steps p hp)
        (hCourse.regular p hp).1.short hPositive hAddress
        (Analysis.labels_numbered w.adjust d.steps) hNames
        (Analysis.covered_of_mem w.adjust d.steps p hp)

/-
  A call, a branch back to it, and an instruction that
  assemblers do not know, which is cut off by the end of the
  program: all at the highest addresses.
-/
theorem body_keeps_columns_at_limit :
    ∃ hFits : Window.validate ⟨0, 6, 0xFFFFFFA⟩ 6 = .ok (),
      let d : Disassembly :=
        ⟨#[0x20, 0xF4, 0xFF, 0xD0, 0xFB, 0x07],
          ⟨0, 6, 0xFFFFFFA⟩, [], [], hFits⟩
      let header : List Line :=
        (title ++
          ["\\ OS Call Addresses", "OSBYTE = &FFF4", "",
            "CODE% = &FFFFFFA", "", "ORG CODE%",
            ""]).map .header
      let shown : List Line :=
        [.instruction "JSR" "OSBYTE" 0xFFFFFFA
            [0x20, 0xF4, 0xFF],
          .instruction "BNE" "label_0" 0xFFFFFFD [0xD0, 0xFB],
          .data [0x07] 0xFFFFFFF "SLO"]
      d.window.stop + d.window.adjust ≤ 0x10000000 ∧
        d.read.failure = none ∧
        d.read.lines = header ++ .label "label_0" :: shown ∧
        List.Forall₂
          (fun p line =>
            line.operand?.isSome = p.step.isCode ∧
              KeepsColumns (p.address 0xFFFFFFA)
                p.step.remark p.step.data
                (Line.render line).toList)
          d.steps shown := by
  have hLow :
      Window.stop ⟨0, 6, 0xFFFFFFA⟩ + 0xFFFFFFA ≤
        0x10000000 := by
    decide
  refine ⟨rfl, ?_⟩
  intro d header shown
  have hRead :
      d.read.lines = header ++ .label "label_0" :: shown := by
    decide +kernel
  rcases body_keeps_columns
      #[0x20, 0xF4, 0xFF, 0xD0, 0xFB, 0x07]
      ⟨0, 6, 0xFFFFFFA⟩ [] rfl hLow with
    ⟨front, back, hFailure, hLines, hFront, hBack, hColumns⟩
  have hOthers :=
    (filter_isHeader_append front back hFront hBack).2
  rw [← hLines, hRead] at hOthers
  obtain rfl : .label "label_0" :: shown = back := hOthers
  exact ⟨hLow, hFailure, hRead, hColumns⟩

end Disassembly

end Beeb
