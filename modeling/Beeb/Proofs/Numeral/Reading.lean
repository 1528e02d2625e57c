import Beeb.Operand
import Beeb.Proofs.Numeral.Digits
import Mathlib.Data.List.Basic
import Mathlib.Data.List.TakeWhile

/-
  Numbers that are written can be read by the reader of
  numerals: decimal text within the digit limit, and
  hexadecimal text behind a mark or as the assembler writes
  it.

  Main declarations:
    * `Numeral.read_signed`
    * `Numeral.parse_of_pads`
    * `Numeral.parse_decimal_eq`
    * `Numeral.parse_marked`
    * `Numeral.parse_hexadecimal`
    * `Numeral.parse_number`
-/

------------------------------------------------------------
-- Characters Of Numerals
------------------------------------------------------------

namespace Beeb

namespace Numeral

variable (base : Nat)
variable (c : Char)
variable (hDigit : isDigitOf base c = true)

include hDigit

/- Digits are ASCII digits and letters. -/
theorem toNat_of_isDigitOf :
    (48 ≤ c.toNat ∧ c.toNat ≤ 57) ∨
      (97 ≤ c.toNat ∧ c.toNat ≤ 102) ∨
      (65 ≤ c.toNat ∧ c.toNat ≤ 70) := by
  have hRange :
      ∀ first last : Char,
        (decide (first ≤ c) && decide (c ≤ last)) = true →
          first.toNat ≤ c.toNat ∧ c.toNat ≤ last.toNat := by
    intro first last hBetween
    simp only [Bool.and_eq_true, decide_eq_true_eq]
      at hBetween
    exact
      ⟨UInt32.le_iff_toNat_le.mp hBetween.1,
        UInt32.le_iff_toNat_le.mp hBetween.2⟩
  unfold isDigitOf digitValue? at hDigit
  split at hDigit
  · rename_i hBetween
    exact .inl (hRange '0' '9' hBetween)
  · split at hDigit
    · rename_i hBetween
      exact .inr (.inl (hRange 'a' 'f' hBetween))
    · split at hDigit
      · rename_i hBetween
        exact .inr (.inr (hRange 'A' 'F' hBetween))
      · simp at hDigit

/- Digits have no other form in ASCII. -/
theorem plain_of_isDigitOf :
    plain c = c := by
  have hRange := toNat_of_isDigitOf base c hDigit
  have hAscii : c.toNat < 128 := by omega
  simp [plain, hAscii]

/- Digits are told from all that may surround them. -/
theorem ne_of_isDigitOf
    (other : Char)
    (hOther : isDigitOf base other = false) :
    c ≠ other := by
  rintro rfl
  rw [hOther] at hDigit
  cases hDigit

/- Digits are no white space. -/
theorem isBlank_of_isDigitOf :
    Text.isBlank c = false := by
  have hRange := toNat_of_isDigitOf base c hDigit
  simp only [Text.isBlank, Bool.or_eq_false_iff,
    Bool.and_eq_false_iff, decide_eq_false_iff_not,
    beq_eq_false_iff_ne]
  omega

/- Digits do not pad a numeral. -/
theorem isPad_of_isDigitOf :
    isPad c = false := by
  have hRange := toNat_of_isDigitOf base c hDigit
  have hSpace :=
    ne_of_isDigitOf base c hDigit ' ' rfl
  simp only [isPad, hSpace, decide_false, Bool.false_or,
    Bool.and_eq_false_iff, decide_eq_false_iff_not]
  omega

end Numeral

end Beeb

------------------------------------------------------------
-- Signs
------------------------------------------------------------

namespace Beeb

namespace Numeral

/- The minus sign of a number that has one. -/
def sign
    (negative : Bool) : List Char :=
  if negative then ['-'] else []

/- A distance from zero, with a sign. -/
def signed
    (negative : Bool)
    (magnitude : Nat) : Int :=
  if negative then -magnitude else magnitude

/- An integer is its distance from zero with its sign. -/
theorem signed_natAbs
    (n : Int) :
    signed (decide (n < 0)) n.natAbs = n := by
  by_cases hNegative : n < 0
  · simp only [signed, hNegative, decide_true, if_true]
    omega
  · simp only [signed, hNegative, decide_false,
      Bool.false_eq_true, if_false]
    omega

/- A sign is a minus sign. -/
theorem mem_sign
    (negative : Bool)
    (c : Char)
    (hMem : c ∈ sign negative) :
    c = '-' := by
  cases negative with
  | true => exact List.mem_singleton.mp hMem
  | false => cases hMem

/- A sign before a digit is split off. -/
theorem splitSign_sign
    (base : Nat)
    (negative : Bool)
    (cs : List Char)
    (hPlain : cs.map plain = cs)
    (hFirst : ∀ c ∈ cs.head?, isDigitOf base c = true) :
    splitSign
        (((sign negative ++ cs).map plain).dropWhile isPad) =
      (negative, cs) := by
  cases negative with
  | true =>
    rw [List.map_append, hPlain]
    rfl
  | false =>
    simp only [sign, Bool.false_eq_true, if_false,
      List.nil_append, hPlain]
    cases cs with
    | nil => rfl
    | cons c cs =>
      have hDigit := hFirst c rfl
      have hPlus := ne_of_isDigitOf base c hDigit '+' rfl
      have hMinus := ne_of_isDigitOf base c hDigit '-' rfl
      rw [List.dropWhile_cons_of_neg
        (by simp [isPad_of_isDigitOf base c hDigit])]
      simp [splitSign, hPlus, hMinus]

end Numeral

end Beeb

------------------------------------------------------------
-- Runs Of Digits
------------------------------------------------------------

namespace Beeb

namespace Numeral

/- A row of digits has no other form in ASCII. -/
theorem map_plain_of_digits
    (base : Nat)
    (digits : List Char)
    (hDigits : ∀ c ∈ digits, isDigitOf base c = true) :
    digits.map plain = digits := by
  rw [List.map_congr_left (g := id) fun c hMem =>
    plain_of_isDigitOf base c (hDigits c hMem)]
  exact List.map_id digits

/- Digits without underscores are well spaced. -/
theorem wellSpaced_of_notMem
    (run : List Char)
    (hSome : run ≠ [])
    (hNone : '_' ∉ run) :
    wellSpaced run = true := by
  have hAfter :
      ∀ cs : List Char, '_' ∉ cs →
        spacedAfter false cs = true := by
    intro cs hCs
    induction cs with
    | nil => rfl
    | cons c cs ih =>
      simp only [List.mem_cons, not_or] at hCs
      rw [spacedAfter, if_neg (Ne.symm hCs.1), ih hCs.2]
  cases run with
  | nil => exact absurd rfl hSome
  | cons c cs =>
    simp only [List.mem_cons, not_or] at hNone
    rw [wellSpaced, spacedAfter, if_neg (Ne.symm hNone.1),
      hAfter cs hNone.2]

/-
  How the digits behind a sign and a mark are read: there
  may be too many of them, and a number in base ten must not
  begin with a zero.
-/
theorem read_signed
    (radix : Radix)
    (text : String)
    (negative : Bool)
    (cs : List Char)
    (body : Body)
    (hText : text.toList = sign negative ++ cs)
    (hPlain : cs.map plain = cs)
    (hFirst : ∀ c ∈ cs.head?, isDigitOf 16 c = true)
    (hMark : splitMark radix cs = body)
    (hSome : body.rest ≠ [])
    (hDigits :
      ∀ c ∈ body.rest, isDigitOf body.base c = true) :
    read radix text =
      if body.base = 10 ∧ digitLimit < body.rest.length then
        .error (.tooManyDigits body.rest.length)
      else if body.onlyZero = true ∧
          value body.base body.rest ≠ 0 then
        .error (.malformed radix text)
      else
        .ok (signed negative (value body.base body.rest)) := by
  have hNone : '_' ∉ body.rest := by
    intro hMem
    exact
      ne_of_isDigitOf body.base '_' (hDigits _ hMem) '_' rfl
        rfl
  have hRun :
      ∀ c ∈ body.rest,
        (isDigitOf body.base c || decide (c = '_')) =
          true := by
    intro c hMem
    rw [hDigits c hMem]
    rfl
  have hCount :
      (body.rest.filter (· ≠ '_')).length =
        body.rest.length := by
    congr 1
    rw [List.filter_eq_self]
    intro c hMem
    simp only [ne_eq, decide_eq_true_eq]
    rintro rfl
    exact hNone hMem
  simp only [read, hText,
    splitSign_sign 16 negative cs hPlain hFirst, hMark,
    List.takeWhile_eq_self_iff.mpr hRun,
    List.dropWhile_eq_nil_iff.mpr hRun,
    wellSpaced_of_notMem body.rest hSome hNone, hCount,
    signed, Bool.and_eq_true, decide_eq_true_eq]
  simp

end Numeral

end Beeb

------------------------------------------------------------
-- White Space
------------------------------------------------------------

namespace Beeb

namespace Numeral

/- White space around a numeral does not count. -/
theorem parse_of_pads
    (padded text : String)
    (hPads : Text.Pads padded text) :
    parse padded = parse text := by
  rw [parse, parse, hPads.trim_eq]

/-
  A numeral without white space that begins with a sign or a
  digit has its base marked.
-/
theorem parse_eq_read
    (text : String)
    (negative : Bool)
    (cs : List Char)
    (hText : text.toList = sign negative ++ cs)
    (hFirst : ∀ c ∈ cs.head?, isDigitOf 16 c = true)
    (hSolid : ∀ c ∈ cs, Text.isBlank c = false) :
    parse text = read .marked text := by
  have hTrim : Text.trim text = text := by
    apply Text.trim_of_solid
    intro c hMem
    rw [hText, List.mem_append] at hMem
    rcases hMem with hInSign | hInDigits
    · rw [mem_sign negative c hInSign]
      rfl
    · exact hSolid c hInDigits
  have hNoMark : ∀ rest, text.toList ≠ '&' :: rest := by
    intro rest hMark
    rw [hText] at hMark
    cases negative with
    | true => cases hMark
    | false =>
      have hHead : cs.head? = some '&' :=
        congrArg List.head? hMark
      exact
        ne_of_isDigitOf 16 '&' (hFirst '&' hHead) '&' rfl rfl
  rw [parse, hTrim]
  split
  · rename_i rest hMark
    exact absurd hMark (hNoMark rest)
  · rfl

end Numeral

end Beeb

------------------------------------------------------------
-- Decimal Numbers
------------------------------------------------------------

namespace Beeb

namespace Numeral

/- Decimal digits are digits of base ten. -/
theorem value_decimalDigits
    (n : Nat) :
    value 10 (Nat.toDigits 10 n) = n ∧
      ∀ c ∈ Nat.toDigits 10 n, isDigitOf 10 c = true := by
  have hDigits :=
    value_toDigits 10 id (by decide)
      (fun d hDigit =>
        digitValue?_digitChar d (by omega)) n
  rw [List.map_id] at hDigits
  exact ⟨hDigits.1, List.all_eq_true.mp hDigits.2⟩

/- Only zero is written with a zero in front. -/
theorem eq_zero_of_head?_toDigits
    (n : Nat)
    (hHead : (Nat.toDigits 10 n).head? = some '0') :
    n = 0 := by
  induction n using Nat.strongRecOn with
  | ind n ih =>
    rw [Nat.toDigits_eq_if (by decide)] at hHead
    by_cases hSmall : n < 10
    · rw [if_pos hSmall, List.head?_cons,
        Option.some.injEq] at hHead
      have hValue := digitValue?_digitChar n (by omega)
      rw [hHead] at hValue
      exact (Option.some.inj hValue).symm
    · rw [if_neg hSmall,
        List.head?_append_of_ne_nil _ Nat.toDigits_ne_nil]
        at hHead
      have hTens := ih (n / 10) (by omega) hHead
      omega

/- Decimal digits have no mark of another base. -/
theorem splitMark_toDigits
    (n : Nat) :
    ∃ onlyZero,
      splitMark .marked (Nat.toDigits 10 n) =
          ⟨10, onlyZero, Nat.toDigits 10 n⟩ ∧
        (onlyZero = true → n = 0) := by
  have hDigits := (value_decimalDigits n).2
  have hZero := eq_zero_of_head?_toDigits n
  revert hDigits hZero
  generalize Nat.toDigits 10 n = digits
  intro hDigits hZero
  -- The marks are letters behind a zero.
  have hNoMark :
      ∀ letter cs,
        isDigitOf 10 letter = false →
          digits ≠ '0' :: letter :: cs := by
    rintro letter cs hLetter rfl
    have hDigit := hDigits letter (by simp)
    rw [hLetter] at hDigit
    cases hDigit
  unfold splitMark
  split
  · exact absurd rfl (hNoMark 'x' _ rfl)
  · exact absurd rfl (hNoMark 'X' _ rfl)
  · exact absurd rfl (hNoMark 'o' _ rfl)
  · exact absurd rfl (hNoMark 'O' _ rfl)
  · exact absurd rfl (hNoMark 'b' _ rfl)
  · exact absurd rfl (hNoMark 'B' _ rfl)
  · exact ⟨true, rfl, fun _ => hZero rfl⟩
  · exact ⟨false, rfl, by simp⟩
  · contradiction

/- Decimal text is a sign and digits. -/
theorem toList_decimal_eq
    (n : Int) :
    (decimal n).toList =
      sign (decide (n < 0)) ++ Nat.toDigits 10 n.natAbs := by
  by_cases hNegative : n < 0 <;>
    simp [decimal, sign, hNegative]

/- The characters of decimal text. -/
theorem mem_decimal
    (n : Int)
    (c : Char)
    (hMem : c ∈ (decimal n).toList) :
    c = '-' ∨ isDigitOf 10 c = true := by
  rw [toList_decimal_eq, List.mem_append] at hMem
  rcases hMem with hInSign | hInDigits
  · exact .inl (mem_sign _ c hInSign)
  · exact .inr ((value_decimalDigits _).2 c hInDigits)

/- Decimal digits are hexadecimal digits too. -/
theorem isDigitOf_sixteen
    (c : Char)
    (hDigit : isDigitOf 10 c = true) :
    isDigitOf 16 c = true := by
  rw [isDigitOf, Option.any_eq_true] at hDigit
  rcases hDigit with ⟨d, hValue, hLess⟩
  apply isDigitOf_of_digitValue? 16 d c hValue
  have hTen : d < 10 := of_decide_eq_true hLess
  omega

/- Decimal text is read back unless it is too long. -/
theorem parse_decimal_eq
    (n : Int) :
    parse (decimal n) =
      if digitLimit < (Nat.toDigits 10 n.natAbs).length then
        .error
          (.tooManyDigits (Nat.toDigits 10 n.natAbs).length)
      else .ok n := by
  rcases value_decimalDigits n.natAbs with ⟨hValue, hDigits⟩
  rcases splitMark_toDigits n.natAbs with
    ⟨onlyZero, hMark, hZero⟩
  have hFirst :
      ∀ c ∈ (Nat.toDigits 10 n.natAbs).head?,
        isDigitOf 16 c = true :=
    fun c hHead =>
      isDigitOf_sixteen c
        (hDigits c (List.mem_of_mem_head? hHead))
  have hRead :=
    read_signed .marked (decimal n) (decide (n < 0)) _ _
      (toList_decimal_eq n)
      (map_plain_of_digits 10 _ hDigits) hFirst hMark
      Nat.toDigits_ne_nil hDigits
  have hWhole : ¬ (onlyZero = true ∧ n.natAbs ≠ 0) :=
    fun ⟨hOnlyZero, hNot⟩ => hNot (hZero hOnlyZero)
  rw [parse_eq_read (decimal n) (decide (n < 0)) _
    (toList_decimal_eq n) hFirst
    fun c hMem => isBlank_of_isDigitOf 10 c (hDigits c hMem)]
  simpa only [hValue, hWhole, if_false, true_and,
    signed_natAbs] using hRead

/- Decimal text within the limit is read back. -/
theorem parse_decimal
    (n : Int)
    (hShort :
      (Nat.toDigits 10 n.natAbs).length ≤ digitLimit) :
    parse (decimal n) = .ok n := by
  rw [parse_decimal_eq, if_neg (Nat.not_lt.mpr hShort)]

end Numeral

end Beeb

------------------------------------------------------------
-- Hexadecimal Numbers
------------------------------------------------------------

namespace Beeb

namespace Numeral

/- Hexadecimal digits have no mark. -/
theorem splitMark_hexDigits
    (digits : List Char)
    (hDigits : ∀ c ∈ digits, isDigitOf 16 c = true) :
    splitMark .hexadecimal digits =
      ⟨16, false, digits⟩ := by
  unfold splitMark
  split
  case h_1 => exact absurd (hDigits 'x' (by simp)) (by decide)
  case h_2 => exact absurd (hDigits 'X' (by simp)) (by decide)
  case h_9 => rfl
  all_goals contradiction

variable (text : String)
variable (negative : Bool)
variable (digits : List Char)
variable (hSome : digits ≠ [])
variable (hDigits : ∀ c ∈ digits, isDigitOf 16 c = true)

include hSome hDigits

/- Hexadecimal digits behind the mark `0x` are read. -/
theorem parse_marked
    (hText :
      text.toList = sign negative ++ '0' :: 'x' :: digits) :
    parse text = .ok (signed negative (value 16 digits)) := by
  have hPlain :
      ('0' :: 'x' :: digits).map plain =
        '0' :: 'x' :: digits := by
    rw [List.map_cons, List.map_cons,
      map_plain_of_digits 16 digits hDigits]
    rfl
  have hFirst :
      ∀ c ∈ ('0' :: 'x' :: digits).head?,
        isDigitOf 16 c = true := by
    simp [isDigitOf, digitValue?]
  have hSolid :
      ∀ c ∈ '0' :: 'x' :: digits, Text.isBlank c = false := by
    simp only [List.forall_mem_cons]
    exact
      ⟨rfl, rfl, fun c hMem =>
        isBlank_of_isDigitOf 16 c (hDigits c hMem)⟩
  have hMark :
      splitMark .marked ('0' :: 'x' :: digits) =
        ⟨16, false, digits⟩ := by
    cases digits with
    | nil => exact absurd rfl hSome
    | cons c cs =>
      have hNone :=
        ne_of_isDigitOf 16 c (hDigits c (by simp)) '_' rfl
      simp [splitMark, afterMark, hNone]
  rw [parse_eq_read text negative _ hText hFirst hSolid,
    read_signed .marked text negative _ _ hText hPlain hFirst
      hMark hSome hDigits]
  simp

/- Hexadecimal digits behind `&` are read. -/
theorem parse_hexadecimal
    (hText : text.toList = '&' :: (sign negative ++ digits)) :
    parse text = .ok (signed negative (value 16 digits)) := by
  have hTrim : Text.trim text = text := by
    apply Text.trim_of_solid
    intro c hMem
    rw [hText, List.mem_cons, List.mem_append] at hMem
    rcases hMem with rfl | hInSign | hInDigits
    · rfl
    · rw [mem_sign negative c hInSign]
      rfl
    · exact isBlank_of_isDigitOf 16 c (hDigits c hInDigits)
  have hRead :=
    read_signed .hexadecimal
      (String.ofList (sign negative ++ digits)) negative digits
      _ String.toList_ofList
      (map_plain_of_digits 16 digits hDigits)
      (fun c hHead =>
        hDigits c (List.mem_of_mem_head? hHead))
      (splitMark_hexDigits digits hDigits) hSome hDigits
  rw [parse, hTrim, hText]
  simpa using hRead

end Numeral

end Beeb

------------------------------------------------------------
-- Numbers Of The Assembler
------------------------------------------------------------

namespace Beeb

namespace Numeral

/- A number is `&`, a sign and capital digits. -/
theorem exists_toList_number
    (width : Nat)
    (n : Int) :
    ∃ width',
      (Operand.number width n).toList =
        '&' ::
          (sign (decide (n < 0)) ++
            (Text.hexDigits width' n.natAbs).map
              Char.toUpper) := by
  by_cases hNegative : n < 0
  · refine ⟨width - 1, ?_⟩
    simp [Operand.number, Text.hex, sign, hNegative]
  · refine ⟨width, ?_⟩
    simp [Operand.number, Text.hex, sign, hNegative]

/- The characters of a number. -/
theorem mem_number
    (width : Nat)
    (n : Int)
    (c : Char)
    (hMem : c ∈ (Operand.number width n).toList) :
    c = '&' ∨ c = '-' ∨ isDigitOf 16 c = true := by
  rcases exists_toList_number width n with ⟨width', hText⟩
  have hDigits :=
    List.all_eq_true.mp (value_hexDigits width' n.natAbs).2
  rw [hText, List.mem_cons, List.mem_append] at hMem
  rcases hMem with rfl | hInSign | hInDigits
  · exact .inl rfl
  · exact .inr (.inl (mem_sign _ c hInSign))
  · exact .inr (.inr (hDigits c hInDigits))

/- Hexadecimal text of the assembler is read back. -/
theorem parse_number
    (width : Nat)
    (n : Int) :
    parse (Operand.number width n) = .ok n := by
  rcases exists_toList_number width n with ⟨width', hText⟩
  rcases value_hexDigits width' n.natAbs with ⟨hValue, hAll⟩
  have hSome :
      (Text.hexDigits width' n.natAbs).map Char.toUpper ≠
        [] := by
    simp [Text.hexDigits, List.leftpad, Nat.toDigits_ne_nil]
  rw [parse_hexadecimal _ (decide (n < 0)) _ hSome
    (List.all_eq_true.mp hAll) hText, hValue, signed_natAbs]

end Numeral

end Beeb
