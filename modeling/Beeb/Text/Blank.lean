/-
  White space, and the removal of what surrounds a text.

  Key definitions include:
    * `Beeb.Text.isBlank`
    * `Beeb.Text.dropEnd`
    * `Beeb.Text.trim`
    * `Beeb.Text.Pads`
-/

------------------------------------------------------------
-- Blank Characters
------------------------------------------------------------

namespace Beeb

namespace Text

/-
  White space: the ASCII controls that move the cursor or
  separate records, the space, and the spaces and line ends
  of Unicode 14.
-/
def isBlank
    (c : Char) : Bool :=
  let n := c.toNat
  (9 ≤ n && n ≤ 13) ||
    (0x1C ≤ n && n ≤ 0x20) ||
    n == 0x85 ||
    n == 0xA0 ||
    n == 0x1680 ||
    (0x2000 ≤ n && n ≤ 0x200A) ||
    n == 0x2028 ||
    n == 0x2029 ||
    n == 0x202F ||
    n == 0x205F ||
    n == 0x3000

end Text

end Beeb

------------------------------------------------------------
-- Trimming
------------------------------------------------------------

namespace Beeb

namespace Text

/-
  Drop the longest end of a text whose characters all
  satisfy `p`.
-/
def dropEnd
    (p : Char → Bool)
    (cs : List Char) : List Char :=
  (cs.reverse.dropWhile p).reverse

/- Nothing is left if everything is dropped. -/
theorem dropWhile_of_all
    (p : Char → Bool)
    (cs : List Char)
    (hAll : cs.all p = true) :
    cs.dropWhile p = [] := by
  rw [← List.append_nil cs,
    List.dropWhile_append_of_pos (List.all_eq_true.mp hAll)]
  rfl

/- What is dropped anyway may follow. -/
theorem dropEnd_append
    (p : Char → Bool)
    (cs ds : List Char)
    (hAll : ds.all p) :
    dropEnd p (cs ++ ds) = dropEnd p cs := by
  have hDrop : ds.reverse.dropWhile p = [] :=
    dropWhile_of_all p ds.reverse (by simpa using hAll)
  simp [dropEnd, List.dropWhile_append, hDrop]

/- What is dropped is the end of the text. -/
theorem exists_dropEnd_append
    (p : Char → Bool)
    (cs : List Char) :
    ∃ ds, cs = dropEnd p cs ++ ds ∧ ∀ c ∈ ds, p c = true := by
  refine ⟨(cs.reverse.takeWhile p).reverse, ?_, ?_⟩
  · rw [dropEnd, ← List.reverse_append,
      List.takeWhile_append_dropWhile, List.reverse_reverse]
  · intro c hMem
    have hAll := List.all_takeWhile (p := p) (l := cs.reverse)
    exact
      List.all_eq_true.mp hAll c (List.mem_reverse.mp hMem)

/- What is left ends differently. -/
theorem getLast?_dropEnd
    (p : Char → Bool)
    (cs : List Char) :
    ∀ c ∈ (dropEnd p cs).getLast?, p c = false := by
  intro c hLast
  have hHead := List.head?_dropWhile_not p cs.reverse
  rw [dropEnd, List.getLast?_reverse] at hLast
  rw [hLast] at hHead
  exact hHead

/- Nothing is dropped from a text that ends differently. -/
theorem dropEnd_of_getLast?
    (p : Char → Bool)
    (cs : List Char)
    (hLast : ∀ c ∈ cs.getLast?, p c = false) :
    dropEnd p cs = cs := by
  rw [← List.head?_reverse] at hLast
  have hDrop : cs.reverse.dropWhile p = cs.reverse := by
    cases hReverse : cs.reverse with
    | nil => rfl
    | cons c rest =>
      have hEnd := hLast c (by simp [hReverse])
      simp [hEnd]
  rw [dropEnd, hDrop, List.reverse_reverse]

/- Drop the white space around a text. -/
def trim
    (text : String) : String :=
  String.ofList
    (dropEnd isBlank (text.toList.dropWhile isBlank))

/- Nothing is dropped from a text without white space. -/
theorem trim_of_solid
    (text : String)
    (hSolid : ∀ c ∈ text.toList, isBlank c = false) :
    trim text = text := by
  have hDrop :
      text.toList.dropWhile isBlank = text.toList := by
    cases hText : text.toList with
    | nil => rfl
    | cons c cs =>
      have hc := hSolid c (by simp [hText])
      rw [List.dropWhile_cons_of_neg (by simp [hc])]
  have hLast :
      ∀ c ∈ text.toList.getLast?, isBlank c = false :=
    fun c hIs => hSolid c (List.mem_of_getLast? hIs)
  rw [trim, hDrop, dropEnd_of_getLast? _ _ hLast,
    String.ofList_toList]

/-
  Whether a text is another one with white space around it,
  or with none.
-/
def Pads
    (padded text : String) : Prop :=
  ∃ before after : List Char,
    before.all isBlank = true ∧ after.all isBlank = true ∧
      padded.toList = before ++ text.toList ++ after

/- A text needs no white space around it. -/
theorem Pads.refl
    (text : String) :
    Pads text text :=
  ⟨[], [], rfl, rfl, by simp⟩

/- A text may be filled up with spaces and end in one. -/
theorem Pads.of_rightpad
    (width : Nat)
    (text : String) :
    Pads
      (String.ofList
        (text.toList.rightpad width ' ' ++ [' ']))
      text := by
  refine
    ⟨[], List.replicate (width - text.toList.length) ' ' ++ [' '],
      rfl, ?_, by simp [List.rightpad]⟩
  rw [List.all_append, List.all_replicate]
  split <;> rfl

/- The white space around a text is dropped with its own. -/
theorem Pads.trim_eq
    {padded text : String}
    (hPads : Pads padded text) :
    trim padded = trim text := by
  rcases hPads with ⟨before, after, hBefore, hAfter, hText⟩
  have hFirst :
      padded.toList.dropWhile isBlank =
        (text.toList ++ after).dropWhile isBlank := by
    rw [hText, List.append_assoc,
      List.dropWhile_append_of_pos (by simpa using hBefore)]
  rw [trim, trim, hFirst, List.dropWhile_append]
  split
  · rename_i hBlank
    rw [dropWhile_of_all _ _ hAfter, List.isEmpty_iff.mp hBlank]
  · rw [dropEnd_append _ _ _ hAfter]

end Text

end Beeb
