import Beeb.Disc.Catalogue
import Beeb.Report

/-
  Disc images: a catalogue and the bytes of the files.

  Key definitions include:
    * `Beeb.Disc.Image`
    * `Beeb.Disc.Image.parse`
    * `Beeb.Disc.Image.find`
    * `Beeb.Disc.Image.contents`
    * `Beeb.Disc.Image.describe`
    * `Beeb.Disc.Image.reports`
-/

------------------------------------------------------------
-- Images
------------------------------------------------------------

namespace Beeb

namespace Disc

/- A disc: what its catalogue says, and all of its bytes. -/
structure Image where
  title : String
  sectors : Nat
  bootOption : Nat
  cycle : Nat
  entries : List Entry
  data : Bytes
deriving DecidableEq

namespace Image

/-
  The title: two groups of characters, less what fills them
  up.
-/
def readTitle
    (data : Bytes) : String :=
  let bytes :=
    (data.extract 0 8).toList ++
      (data.extract sectorSize (sectorSize + 4)).toList
  String.ofList
    (Text.dropEnd isFiller
      (bytes.map fun b => Char.ofNat b.toNat))

/- Read a disc image. -/
def parse
    (data : Bytes) : Except DiscError Image :=
  if data.size < catalogueSize then
    .error (.tooSmall data.size)
  else do
    let number := fun i =>
      (byte data (sectorSize + i)).map UInt8.toNat
    let count := (← number 5) / blockSize
    if maxFiles < count then .error (.tooManyFiles count)
    let entries ← (List.range count).mapM (readEntry data)
    return { title := readTitle data
             sectors :=
               (← number 7) + 256 * ((← number 6) % 4)
             bootOption := (← number 6) / 16 % 4
             cycle := ← number 4
             entries, data }

/- The image of bytes whose entries can all be read. -/
theorem parse_eq_ok
    (data : Bytes)
    (entries : List Entry)
    (hSize : catalogueSize ≤ data.size)
    (hEntries :
      (List.range
          (data.byteAt (sectorSize + 5) / blockSize)).mapM
          (readEntry data) =
        .ok entries) :
    parse data =
      .ok
        { title := readTitle data
          sectors :=
            data.byteAt (sectorSize + 7) +
              256 * (data.byteAt (sectorSize + 6) % 4)
          bootOption := data.byteAt (sectorSize + 6) / 16 % 4
          cycle := data.byteAt (sectorSize + 4)
          entries, data } := by
  have hNumber :
      ∀ i < 8,
        (byte data (sectorSize + i)).map UInt8.toNat =
          .ok (data.byteAt (sectorSize + i)) := by
    intro i hSmall
    have hInside : sectorSize + i < data.size := by
      simp only [catalogueSize, sectorSize] at hSize ⊢
      omega
    rw [byte_eq_ok data _ hInside]
    rfl
  have hCount :
      ¬ maxFiles < data.byteAt (sectorSize + 5) / blockSize := by
    have hByte := (data.getD (sectorSize + 5) 0).toNat_lt
    simp only [maxFiles, blockSize, Bytes.byteAt]
    omega
  rw [parse, if_neg (Nat.not_lt.mpr hSize)]
  simp only [hNumber 4 (by decide), hNumber 5 (by decide),
    hNumber 6 (by decide), hNumber 7 (by decide), bind,
    Except.bind, hCount, if_false, hEntries]
  rfl

end Image

end Disc

end Beeb

------------------------------------------------------------
-- Files Of An Image
------------------------------------------------------------

namespace Beeb

namespace Disc

namespace Image

/-
  The files of the given names in catalogue order; all files
  if no name is given.
-/
def find
    (image : Image)
    (names : List String) : List Entry :=
  if names.isEmpty then image.entries
  else
    image.entries.filter fun e => names.contains e.filename

/- The bytes of a file. -/
def contents
    (image : Image)
    (e : Entry) : Except DiscError Bytes :=
  if e.runsPast image.data.size then
    .error (e.pastEnd image.data.size)
  else .ok (image.data.slice e.start e.stop)

end Image

end Disc

end Beeb

------------------------------------------------------------
-- Descriptions
------------------------------------------------------------

namespace Beeb

namespace Disc

/-
  A row of the description: a file's name and numbers in
  columns.
-/
def Entry.row
    (e : Entry) : String :=
  String.ofList (e.filename.toList.rightpad 7 ' ') ++ "   " ++
    Text.hex 4 e.length ++ "   " ++
    Text.hex 8 e.loadAddress ++ " " ++
    Text.hex 8 e.execAddress ++ " " ++
    String.ofList
      ((Numeral.decimal e.startSector).toList.leftpad 3 ' ')

namespace Image

/- The lines that describe an image. -/
def describe
    (image : Image) : List String :=
  ["Disk Title  " ++ image.title,
    "Num Files   " ++ Nat.repr image.entries.length,
    "Num Sectors " ++ Nat.repr image.sectors,
    "Boot Option " ++ Nat.repr image.bootOption,
    "Disk Cycle  0x" ++ Text.hex 0 image.cycle,
    "",
    "Filename  Length LoadAddr ExecAddr Sector"] ++
    image.entries.map Entry.row

/- The reports on files whose data is not all in the image. -/
def reports
    (image : Image) : List Report :=
  (image.entries.filter
      (·.runsPast image.data.size)).map
    fun e => .entryPastEnd e.qualifiedName

end Image

end Disc

end Beeb
