/-
  Texts cut at a separator.

  Key definitions include:
    * `Beeb.Text.splitChars`
    * `Beeb.Text.split`
-/

------------------------------------------------------------
-- Splitting
------------------------------------------------------------

namespace Beeb

namespace Text

/-
  The parts between separators; one more than there are
  separators.
-/
def splitChars
    (separator : Char) : List Char → List (List Char)
| [] => [[]]
| c :: cs =>
  match splitChars separator cs with
  | part :: parts =>
    if c = separator then [] :: part :: parts
    else (c :: part) :: parts
  | [] => [[c]]

/- There is always a part. -/
theorem splitChars_ne_nil
    (separator : Char)
    (cs : List Char) :
    splitChars separator cs ≠ [] := by
  cases cs with
  | nil => simp [splitChars]
  | cons c cs =>
    rw [splitChars]
    split
    · split <;> simp
    · simp

/- A text without a separator is one part. -/
theorem splitChars_of_notMem
    (separator : Char)
    (cs : List Char)
    (hNone : separator ∉ cs) :
    splitChars separator cs = [cs] := by
  induction cs with
  | nil => rfl
  | cons c cs ih =>
    have hc : c ≠ separator := fun hIs => hNone (by simp [hIs])
    rw [splitChars, ih fun hMem => hNone (by simp [hMem])]
    simp [hc]

/- The parts on both sides of a separator. -/
theorem splitChars_append
    (separator : Char)
    (cs ds : List Char) :
    splitChars separator (cs ++ separator :: ds) =
      splitChars separator cs ++ splitChars separator ds := by
  induction cs with
  | nil =>
    cases hParts : splitChars separator ds with
    | nil =>
      exact absurd hParts (splitChars_ne_nil separator ds)
    | cons part parts => simp [splitChars, hParts]
  | cons c cs ih =>
    cases hParts : splitChars separator cs with
    | nil =>
      exact absurd hParts (splitChars_ne_nil separator cs)
    | cons part parts =>
      by_cases hc : c = separator <;>
        simp [splitChars, ih, hParts, hc]

/- Parts that were put together come apart again. -/
theorem splitChars_intercalate
    (separator : Char)
    (parts : List (List Char))
    (hSome : parts ≠ [])
    (hNone : ∀ part ∈ parts, separator ∉ part) :
    splitChars separator ([separator].intercalate parts) =
      parts := by
  induction parts with
  | nil => exact absurd rfl hSome
  | cons part parts ih =>
    have hPart := hNone part (by simp)
    by_cases hLast : parts = []
    · rw [hLast, List.intercalate_singleton]
      exact splitChars_of_notMem separator part hPart
    · rw [List.intercalate_cons_of_ne_nil hLast,
        List.append_assoc, List.singleton_append,
        splitChars_append,
        splitChars_of_notMem separator part hPart,
        ih hLast fun other hMem => hNone other (by simp [hMem])]
      rfl

/- A text is cut at the first separator in it. -/
theorem cut_of_notMem
    (separator : Char)
    (before after : List Char)
    (hNone : separator ∉ before) :
    (before ++ separator :: after).takeWhile
          (· ≠ separator) =
        before ∧
      (before ++ separator :: after).dropWhile
          (· ≠ separator) =
        separator :: after := by
  have hBefore :
      ∀ c ∈ before, decide (c ≠ separator) = true := by
    intro c hMem
    simp only [decide_eq_true_eq]
    rintro rfl
    exact hNone hMem
  rw [List.takeWhile_append_of_pos hBefore,
    List.dropWhile_append_of_pos hBefore]
  simp

/- The parts of a text between separators. -/
def split
    (separator : Char)
    (text : String) : List String :=
  (splitChars separator text.toList).map String.ofList

end Text

end Beeb
