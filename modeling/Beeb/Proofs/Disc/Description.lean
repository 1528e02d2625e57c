import Beeb.Disc.Encoding
import Beeb.Disc.Summary
import Beeb.Proofs.Disc.Catalogue
import Beeb.Proofs.Numeral.Reading

/-
  The description of a disc image can be read: it shows the
  title, the numbers of the image, and of each file the name
  and the numbers.

  Main declarations:
    * `Numeral.Spells`
    * `Disc.Row.read?_row`
    * `Disc.Summary.read?_describe`
    * `Disc.description_read`
-/

------------------------------------------------------------
-- Numbers As Words
------------------------------------------------------------

namespace Beeb

namespace Numeral

/- Whether a word spells a number in digits. -/
structure Spells
    (base : Nat)
    (word : List Char)
    (n : Nat) : Prop where
  solid : ' ' ∉ word
  some : word ≠ []
  value_eq : value base word = n

/- Digits that are there spell their value. -/
theorem Spells.of_digits
    (base : Nat)
    (word : List Char)
    (hSome : word ≠ [])
    (hDigits : ∀ c ∈ word, isDigitOf base c = true) :
    Spells base word (value base word) :=
  { solid := fun hMem =>
      ne_of_isDigitOf base ' ' (hDigits ' ' hMem) ' ' rfl rfl
    some := hSome
    value_eq := rfl }

/- Hexadecimal text spells its number. -/
theorem spells_hex
    (width : Nat)
    (n : Int)
    (hPositive : 0 ≤ n) :
    Spells 16 (Text.hex width n).toList n.toNat := by
  rcases value_hexDigits width n.toNat with ⟨hValue, hAll⟩
  have hSome :
      (Text.hexDigits width n.toNat).map Char.toUpper ≠ [] := by
    simp [Text.hexDigits, List.leftpad, Nat.toDigits_ne_nil]
  have hSpells :=
    Spells.of_digits 16 _ hSome (List.all_eq_true.mp hAll)
  rw [Text.toList_hex width n hPositive]
  rwa [hValue] at hSpells

/- Decimal digits spell their number. -/
theorem spells_toDigits
    (n : Nat) :
    Spells 10 (Nat.toDigits 10 n) n := by
  rcases value_decimalDigits n with ⟨hValue, hDigits⟩
  have hSpells :=
    Spells.of_digits 10 _ Nat.toDigits_ne_nil hDigits
  rwa [hValue] at hSpells

end Numeral

end Beeb

------------------------------------------------------------
-- Rows
------------------------------------------------------------

namespace Beeb

namespace Disc

/- The words of a number, and of what follows it. -/
theorem words_of_spells
    {base n : Nat}
    {word : List Char}
    (hSpells : Numeral.Spells base word n)
    (cs : List Char) :
    Text.words (word ++ ' ' :: cs) = word :: Text.words cs := by
  rw [Text.words_append,
    Text.words_of_notMem word hSpells.solid hSpells.some]
  rfl

/- The line of a file is read again. -/
theorem Row.read?_row
    (e : Entry)
    (hStorable : e.Storable) :
    Row.read? e.row = some e.shown := by
  have hLength :=
    Numeral.spells_hex 4 e.length hStorable.length_nonneg
  have hLoad :=
    Numeral.spells_hex 8 e.loadAddress (Int.natCast_nonneg _)
  have hExec :=
    Numeral.spells_hex 8 e.execAddress (Int.natCast_nonneg _)
  have hSector := Numeral.spells_toDigits e.startSector.toNat
  have hDecimal :
      (Numeral.decimal e.startSector).toList =
        Nat.toDigits 10 e.startSector.toNat := by
    rw [← Numeral.toList_decimal,
      Int.toNat_of_nonneg hStorable.startSector_nonneg]
  let name := e.filename.toList.rightpad 7 ' '
  have hName : name.length = 7 :=
    e.length_rightpad_filename hStorable
  have hRow :
      e.row.toList =
        name ++
          (List.replicate 3 ' ' ++
            ((Text.hex 4 e.length).toList ++
              ' ' :: (List.replicate 2 ' ' ++
                ((Text.hex 8 e.loadAddress).toList ++
                  ' ' ::
                    ((Text.hex 8 e.execAddress).toList ++
                      ' ' ::
                        (Nat.toDigits 10
                          e.startSector.toNat).leftpad 3
                            ' '))))) := by
    simp [Entry.row, name, hDecimal, List.replicate]
  have hWords :
      Text.words (e.row.toList.drop 7) =
        [(Text.hex 4 e.length).toList,
          (Text.hex 8 e.loadAddress).toList,
          (Text.hex 8 e.execAddress).toList,
          Nat.toDigits 10 e.startSector.toNat] := by
    rw [hRow, List.drop_left' hName,
      Text.words_replicate_append, words_of_spells hLength,
      Text.words_replicate_append, words_of_spells hLoad,
      words_of_spells hExec, List.leftpad,
      Text.words_replicate_append,
      Text.words_of_notMem _ hSector.solid hSector.some]
  have hFilename :
      Text.dropEnd isFiller (e.row.toList.take 7) =
        e.filename.toList := by
    rw [hRow, List.take_left' hName]
    simp only [name, List.rightpad]
    rw [Text.dropEnd_append _ _ _ (by simp [isFiller]),
      Text.dropEnd_of_getLast? _ _ hStorable.filename_last]
  simp only [Row.read?, hWords, hFilename, hLength.value_eq,
    hLoad.value_eq, hExec.value_eq, hSector.value_eq,
    String.ofList_toList, Int.toNat_natCast,
    Int.toNat_of_nonneg hStorable.length_nonneg,
    Int.toNat_of_nonneg hStorable.startSector_nonneg]
  rfl

/- The lines of files are read again. -/
theorem mapM_read?_row
    (entries : List Entry)
    (hStorable : ∀ e ∈ entries, e.Storable) :
    (entries.map Entry.row).mapM Row.read? =
      some (entries.map Entry.shown) := by
  induction entries with
  | nil => rfl
  | cons e entries ih =>
    rw [List.map_cons, List.mapM_cons,
      Row.read?_row e (hStorable e (by simp)),
      ih fun f hMem => hStorable f (by simp [hMem])]
    rfl

end Disc

end Beeb

------------------------------------------------------------
-- Descriptions
------------------------------------------------------------

namespace Beeb

namespace Disc

/- What stands behind a heading. -/
theorem drop_heading
    (heading text : String)
    (width : Nat)
    (hWidth : heading.toList.length = width) :
    (heading ++ text).toList.drop width = text.toList := by
  rw [String.toList_append, List.drop_left' hWidth]

/- The description of an image is read again. -/
theorem Summary.read?_describe
    (image : Image)
    (hStorable : ∀ e ∈ image.entries, e.Storable) :
    Summary.read? image.describe = some image.summary := by
  have hDecimal :
      ∀ n : Nat,
        Numeral.value 10 (Nat.repr n).toList = n := by
    intro n
    rw [Nat.toList_repr]
    exact (Numeral.spells_toDigits n).value_eq
  have hCycle :
      Numeral.value 16 (Text.hex 0 image.cycle).toList =
        image.cycle :=
    (Numeral.spells_hex 0 image.cycle
      (Int.natCast_nonneg _)).value_eq
  simp only [Image.describe, List.cons_append, List.nil_append,
    Summary.read?, mapM_read?_row image.entries hStorable,
    drop_heading "Disk Title  " _ 12 rfl,
    drop_heading "Num Files   " _ 12 rfl,
    drop_heading "Num Sectors " _ 12 rfl,
    drop_heading "Boot Option " _ 12 rfl,
    drop_heading "Disk Cycle  0x" _ 14 rfl, hDecimal, hCycle,
    String.ofList_toList]
  rfl

/-
  The description of an image that was read from a disc
  shows what its summary says, and so two of them that are
  the same are of images with the same title and numbers, as
  many files, and the same name and numbers for each.
-/
theorem description_read
    (data : Bytes)
    (image : Image)
    (hParse : Image.parse data = .ok image) :
    Summary.read? image.describe = some image.summary ∧
      ∀ data' image',
        Image.parse data' = .ok image' →
          image.describe = image'.describe →
            image.title = image'.title ∧
              image.entries.length = image'.entries.length ∧
              image.sectors = image'.sectors ∧
              image.bootOption = image'.bootOption ∧
              image.cycle = image'.cycle ∧
              ∀ (index : Nat) (e e' : Entry),
                image.entries[index]? = some e →
                  image'.entries[index]? = some e' →
                    e.filename = e'.filename ∧
                      e.length = e'.length ∧
                      e.loadAddress = e'.loadAddress ∧
                      e.execAddress = e'.execAddress ∧
                      e.startSector = e'.startSector := by
  have hRead :
      ∀ data image,
        Image.parse data = .ok image →
          Summary.read? image.describe = some image.summary :=
    fun data image hParse =>
      Summary.read?_describe image
        (Image.eq_ofData_of_parse data image hParse).2
  refine ⟨hRead data image hParse, ?_⟩
  intro data' image' hParse' hSame
  have hSummary : image.summary = image'.summary := by
    have hBoth := hRead data image hParse
    rw [hSame, hRead data' image' hParse'] at hBoth
    exact (Option.some.inj hBoth).symm
  simp only [Image.summary, Summary.mk.injEq] at hSummary
  rcases hSummary with
    ⟨hTitle, hCount, hSectors, hBoot, hCycle, hRows⟩
  refine
    ⟨hTitle, hCount, hSectors, hBoot, hCycle, ?_⟩
  intro index e e' hEntry hEntry'
  have hShown := congrArg (·[index]?) hRows
  simp only [List.getElem?_map, hEntry, hEntry',
    Option.map_some, Option.some.injEq, Entry.shown,
    Row.mk.injEq] at hShown
  exact hShown

/- The bytes of a disc with an empty file in a directory. -/
def directoryData
    (directory : String) : Bytes :=
  let e : Entry :=
    { filename := "A B", directory, length := 0
      startSector := 2 }
  let v : Volume :=
    { title := "", sectors := 2, bootOption := 0, cycle := 0
      files := [⟨e, #[], rfl⟩] }
  v.catalogue.toArray

/-
  Two discs that differ in the directory of a file are
  described alike.
-/
theorem description_read_directories :
    ∃ image image',
      Image.parse (directoryData "$") = .ok image ∧
        Image.parse (directoryData "A") = .ok image' ∧
        image.describe = image'.describe ∧
        Summary.read? image.describe = some image.summary ∧
        image.sectors = image'.sectors := by
  let image := Image.ofData (directoryData "$")
  let image' := Image.ofData (directoryData "A")
  have hParse :
      Image.parse (directoryData "$") = .ok image :=
    Image.parse_eq _ (by decide +kernel)
  have hParse' :
      Image.parse (directoryData "A") = .ok image' :=
    Image.parse_eq _ (by decide +kernel)
  have hSame : image.describe = image'.describe := by
    decide +kernel
  rcases description_read _ image hParse with ⟨hRead, hAlike⟩
  rcases hAlike _ image' hParse' hSame with
    ⟨-, -, hSectors, -⟩
  exact
    ⟨image, image', hParse, hParse', hSame, hRead, hSectors⟩

end Disc

end Beeb
