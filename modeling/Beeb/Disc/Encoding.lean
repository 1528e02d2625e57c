import Beeb.Disc.Image

/-
  Writing discs: the bytes that a catalogue and its files
  are stored as.

  A name is filled up with spaces, a title with zeros.

  Key definitions include:
    * `Beeb.Disc.withFlags`
    * `Beeb.Disc.Entry.nameBlock`
    * `Beeb.Disc.Entry.infoBlock`
    * `Beeb.Disc.Volume`
    * `Beeb.Disc.Volume.catalogue`
    * `Beeb.Disc.Volume.encode`
-/

------------------------------------------------------------
-- Names
------------------------------------------------------------

namespace Beeb

namespace Disc

/- The byte of a character, with a flag as its top bit. -/
def flagged
    (flag : Bool)
    (c : Char) : UInt8 :=
  UInt8.ofNat (c.toNat % 128 + 128 * flag.toNat)

/- The number of a byte with a flag. -/
theorem toNat_flagged
    (flag : Bool)
    (c : Char) :
    (flagged flag c).toNat =
      c.toNat % 128 + 128 * flag.toNat := by
  have hFlag := Bool.toNat_lt flag
  simp [flagged]
  omega

/- The character of a byte with a flag. -/
theorem character_flagged
    (flag : Bool)
    (c : Char)
    (hSmall : c.toNat < 128) :
    character (flagged flag c) = c := by
  have hToNat :
      (c.toNat % 128 + 128 * flag.toNat) % 128 = c.toNat := by
    omega
  rw [character, toNat_flagged, hToNat]
  exact Char.ofNat_toNat c

/-
  The bytes of characters, with the bits of a number as
  their top bits, the lowest first.
-/
def withFlags : Nat → List Char → List UInt8
| _, [] => []
| bits, c :: cs =>
  flagged (bits % 2 = 1) c :: withFlags (bits / 2) cs

/- Each character becomes one byte. -/
theorem length_withFlags
    (bits : Nat)
    (cs : List Char) :
    (withFlags bits cs).length = cs.length := by
  induction cs generalizing bits with
  | nil => rfl
  | cons c cs ih => simp [withFlags, ih]

/- The flags can be read again. -/
theorem flags_withFlags
    (bits : Nat)
    (cs : List Char) :
    flags (withFlags bits cs) = bits % Nat.pow 2 cs.length := by
  induction cs generalizing bits with
  | nil =>
    simp [withFlags, flags]
    omega
  | cons c cs ih =>
    have hBit : bits % 2 = 0 ∨ bits % 2 = 1 := by omega
    have hFlag :
        (decide (bits % 2 = 1)).toNat = bits % 2 := by
      rcases hBit with hBit | hBit <;> simp [hBit]
    have hPow :
        Nat.pow 2 (cs.length + 1) = 2 * Nat.pow 2 cs.length :=
      Nat.mul_comm _ _
    rw [withFlags, flags, ih, toNat_flagged]
    rw [List.length_cons, hPow, Nat.mod_mul]
    rw [hFlag]
    omega

/- The characters can be read again. -/
theorem map_character_withFlags
    (bits : Nat)
    (cs : List Char)
    (hSmall : ∀ c ∈ cs, c.toNat < 128) :
    (withFlags bits cs).map character = cs := by
  induction cs generalizing bits with
  | nil => rfl
  | cons c cs ih =>
    rw [withFlags, List.map_cons]
    rw [character_flagged _ _ (hSmall c List.mem_cons_self)]
    rw [ih _ fun d hd => hSmall d (List.mem_cons_of_mem c hd)]

/- The eight bytes of a name and its directory. -/
def Entry.nameBlock
    (e : Entry) : List UInt8 :=
  withFlags e.attributes (e.filename.toList.rightpad 7 ' ') ++
    [flagged e.locked (e.directory.toList.headD '$')]

end Disc

end Beeb

------------------------------------------------------------
-- Blocks Of Numbers
------------------------------------------------------------

namespace Beeb

namespace Disc

/- The low 16 bits of a number, low byte first. -/
def lowBytes
    (n : Nat) : List UInt8 :=
  [UInt8.ofNat (n % 256), UInt8.ofNat (n / 256 % 256)]

/- The two bits of a number above the low 16. -/
def highBits
    (n : Nat) : Nat :=
  n / 65536 % 4

/- The eight bytes of the numbers of a file. -/
def Entry.infoBlock
    (e : Entry) : List UInt8 :=
  let length := e.length.toNat
  let sector := e.startSector.toNat
  let upper :=
    64 * highBits e.execAddress + 16 * highBits length +
      4 * highBits e.loadAddress + sector / 256 % 4
  lowBytes e.loadAddress ++ lowBytes e.execAddress ++
    lowBytes length ++
    [UInt8.ofNat upper, UInt8.ofNat (sector % 256)]

end Disc

end Beeb

------------------------------------------------------------
-- Volumes
------------------------------------------------------------

namespace Beeb

namespace Disc

/- A file and its bytes, as many as the entry says. -/
structure StoredFile where
  entry : Entry
  payload : Bytes
  length_eq : entry.length = payload.size

/- What is to be stored on a disc. -/
structure Volume where
  title : String
  sectors : Nat
  bootOption : Nat
  cycle : Nat
  files : List StoredFile

namespace Volume

/- The twelve bytes of the title. -/
def titleBytes
    (v : Volume) : List UInt8 :=
  (v.title.toList.map fun c => UInt8.ofNat c.toNat).rightpad
    12 0

/- The bytes from `104` to `107` of the catalogue. -/
def numbers
    (v : Volume) : List UInt8 :=
  [UInt8.ofNat v.cycle,
    UInt8.ofNat (v.files.length * blockSize),
    UInt8.ofNat (16 * v.bootOption + v.sectors / 256 % 4),
    UInt8.ofNat (v.sectors % 256)]

/- The two sectors of the catalogue. -/
def catalogue
    (v : Volume) : List UInt8 :=
  let entries := v.files.map StoredFile.entry
  (v.titleBytes.take 8 ++
      entries.flatMap Entry.nameBlock).rightpad sectorSize 0 ++
    (v.titleBytes.drop 8 ++ v.numbers ++
      entries.flatMap Entry.infoBlock).rightpad sectorSize 0

end Volume

end Disc

end Beeb

------------------------------------------------------------
-- Images
------------------------------------------------------------

namespace Beeb

namespace Disc

/-
  Put bytes into an image at an index; zeros fill the gap if
  the image ends before it.
-/
def store
    (image : Bytes)
    (index : Nat)
    (payload : Bytes) : Bytes :=
  image.extract 0 index ++
    Array.replicate (index - image.size) 0 ++ payload ++
    image.extract (index + payload.size) image.size

/- The image after files were put into it, in order. -/
def storeAll
    (image : Bytes)
    (files : List StoredFile) : Bytes :=
  files.foldl
    (fun image f => store image f.entry.start.toNat f.payload)
    image

/- The image of a volume. -/
def Volume.encode
    (v : Volume) : Bytes :=
  storeAll v.catalogue.toArray v.files

end Disc

end Beeb
