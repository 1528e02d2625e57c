import Beeb.Bytes
import Beeb.Numeral.Basic
import Beeb.Text.Blank

/-
  Catalogues of Acorn DFS discs.

  The catalogue fills the first two sectors:

    000-007  first eight characters of the title
    008-0FF  31 names: seven characters and a directory
    100-103  last four characters of the title
    104      cycle number
    105      number of files, times eight
    106      boot option (bits 4-5), sectors (bits 0-1)
    107      sectors, low byte
    108-1FF  31 blocks of numbers

  A block of numbers holds the low 16 bits of the load
  address, the execution address and the length, a byte of
  high bits, and the low byte of the start sector.  The
  high bits are, from the top, those of the execution
  address, the length, the load address and the sector.

  Key definitions include:
    * `Beeb.DiscError`
    * `Beeb.Disc.Entry`
    * `Beeb.Disc.readName`
    * `Beeb.Disc.readEntry`
-/

------------------------------------------------------------
-- Errors
------------------------------------------------------------

namespace Beeb

/- Why a disc image is refused. -/
inductive DiscError where
/- The image is too small to hold a catalogue. -/
| tooSmall (size : Nat)
/- A number of files that no catalogue has room for. -/
| tooManyFiles (count : Nat)
/- A name of fewer than seven bytes. -/
| shortName
/- A byte of the catalogue that is not there. -/
| outside (e : FetchError)
/- A file whose data is not all in the image. -/
| pastEnd (name : String) (start stop : Int) (size : Nat)
/- A position that has too many digits to be written. -/
| unwritable (e : NumeralError)
deriving DecidableEq, Repr

namespace Disc

/- The size of a sector. -/
def sectorSize : Nat := 256

/- The size of a catalogue. -/
def catalogueSize : Nat := 2 * sectorSize

/- The size of a name, and of a block of numbers. -/
def blockSize : Nat := 8

/- The most files that a catalogue has room for. -/
def maxFiles : Nat := 31

end Disc

/- The wording of a disc error. -/
def DiscError.message : DiscError → String
| .tooSmall size =>
  "disk image is " ++ Nat.repr size ++
    " bytes, smaller than the " ++ Nat.repr Disc.catalogueSize ++
    " byte catalog"
| .tooManyFiles count =>
  "catalog claims " ++ Nat.repr count ++
    " entries, the maximum is " ++ Nat.repr Disc.maxFiles
| .shortName => "catalog name block is too short"
| .outside e => e.message
| .pastEnd name start stop size =>
  name ++ ": data [" ++ Numeral.decimal start ++ ", " ++
    Numeral.decimal stop ++ ") exceeds image size " ++
    Nat.repr size
| .unwritable e => e.message

end Beeb

------------------------------------------------------------
-- Entries
------------------------------------------------------------

namespace Beeb

namespace Disc

/- One file of a catalogue. -/
structure Entry where
  filename : String
  directory : String := "$"
  length : Int
  loadAddress : Nat := 0
  execAddress : Nat := 0
  startSector : Int
  /- The flag bits of the name, one for each character. -/
  attributes : Nat := 0
  locked : Bool := false
deriving DecidableEq, Repr

namespace Entry

/- The position of the first byte. -/
def start
    (e : Entry) : Int :=
  e.startSector * sectorSize

/- The position past the last byte. -/
def stop
    (e : Entry) : Int :=
  e.start + e.length

/- The name with its directory. -/
def qualifiedName
    (e : Entry) : String :=
  e.directory ++ "." ++ e.filename

/-
  Whether the data of a file runs past the end of an image.
-/
def runsPast
    (e : Entry)
    (size : Nat) : Bool :=
  (size : Int) < e.stop

/-
  The error of a file whose data runs past the end of an
  image.
-/
def pastEnd
    (e : Entry)
    (size : Nat) : DiscError :=
  match Numeral.decimal? e.start, Numeral.decimal? e.stop with
  | .ok _, .ok _ => .pastEnd e.filename e.start e.stop size
  | .error cause, _ | _, .error cause => .unwritable cause

end Entry

end Disc

end Beeb

------------------------------------------------------------
-- Names
------------------------------------------------------------

namespace Beeb

namespace Disc

/- What fills up a name or a title. -/
def isFiller
    (c : Char) : Bool :=
  c = ' ' || c = '\x00'

/- The character of a byte without its top bit. -/
def character
    (b : UInt8) : Char :=
  Char.ofNat (b.toNat % 128)

/- The top bits of bytes, the first in the lowest place. -/
def flags : List UInt8 → Nat
| [] => 0
| b :: bs => b.toNat / 128 + 2 * flags bs

/- The name and the flag bits of seven bytes. -/
def readName
    (block : List UInt8) : Except DiscError (String × Nat) :=
  let name := block.take 7
  if name.length < 7 then .error .shortName
  else
    .ok
      (String.ofList
          (Text.dropEnd isFiller (name.map character)),
        flags name)

end Disc

end Beeb

------------------------------------------------------------
-- Reading Entries
------------------------------------------------------------

namespace Beeb

namespace Disc

/- A number of 16 low bits and two high bits. -/
def wide
    (low high upper : Nat) : Nat :=
  low + 256 * high + 65536 * (upper % 4)

/- A byte that must be there. -/
def byte
    (bytes : Bytes)
    (index : Nat) : Except DiscError UInt8 :=
  (bytes.fetch index).mapError .outside

/- It is there if the bytes do not end before it. -/
theorem byte_eq_ok
    (bytes : Bytes)
    (index : Nat)
    (hInside : index < bytes.size) :
    byte bytes index = .ok (bytes.getD index 0) := by
  have hPositive : ¬ (index : Int) < 0 := by omega
  have hFetch :
      bytes.fetch index = .ok (bytes.getD index 0) := by
    simp [Bytes.fetch, hPositive, hInside]
  rw [byte, hFetch]
  rfl

/- The entry of a file, found by its number. -/
def readEntry
    (image : Bytes)
    (index : Nat) : Except DiscError Entry := do
  let nameAt := blockSize + index * blockSize
  let infoAt := sectorSize + blockSize + index * blockSize
  let (filename, attributes) ←
    readName (image.extract nameAt (nameAt + 7)).toList
  let directory ← byte image (nameAt + 7)
  let info := image.extract infoAt (infoAt + blockSize)
  let number := fun i => (byte info i).map UInt8.toNat
  let upper ← number 6
  return { filename, attributes
           directory := String.ofList [character directory]
           locked := 128 ≤ directory.toNat
           length :=
             wide (← number 4) (← number 5) (upper / 16)
           loadAddress :=
             wide (← number 0) (← number 1) (upper / 4)
           execAddress :=
             wide (← number 2) (← number 3) (upper / 64)
           startSector :=
             ((← number 7) + 256 * (upper % 4) : Nat) }

end Disc

end Beeb
