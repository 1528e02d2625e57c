import Beeb.Proofs.Attempts
import Beeb.Proofs.Disc.Blocks

/-
  Catalogues: whatever the bytes of an image are, its
  catalogue can be read if it is there at all, and no bit of
  its entries is lost.

  Main declarations:
    * `Disc.entryAt`
    * `Disc.entryAt_kept`
    * `Disc.Image.ofData`
    * `Disc.Image.parse_eq`
    * `Disc.Image.eq_ofData_of_parse`
    * `Disc.Image.catalogue_bits_kept`
-/

------------------------------------------------------------
-- Whole Catalogues
------------------------------------------------------------

namespace Beeb

namespace Disc

/- The entry of a number. -/
def entryAt
    (data : Bytes)
    (index : Nat) : Entry :=
  .ofBlocks (blockAt data (nameAt index))
    (blockAt data (infoAt index))

/- The last block of a catalogue is still inside it. -/
theorem infoAt_le
    (index : Nat)
    (hIndex : index < maxFiles) :
    infoAt index + blockSize ≤ catalogueSize := by
  simp only [infoAt, catalogueSize, sectorSize, blockSize,
    maxFiles] at *
  omega

/- The block of numbers of a file is whole. -/
theorem length_infoAt
    (data : Bytes)
    (index : Nat)
    (hSize : catalogueSize ≤ data.size)
    (hIndex : index < maxFiles) :
    (blockAt data (infoAt index)).length = blockSize :=
  length_blockAt _ _
    (Nat.le_trans (infoAt_le index hIndex) hSize)

/- The name block of a file is whole. -/
theorem length_nameAt
    (data : Bytes)
    (index : Nat)
    (hSize : catalogueSize ≤ data.size)
    (hIndex : index < maxFiles) :
    (blockAt data (nameAt index)).length = blockSize := by
  apply length_blockAt
  have hInfo := infoAt_le index hIndex
  unfold infoAt at hInfo
  unfold nameAt
  omega

/-
  An entry that was read fits into its blocks and is written
  as them, if its name is filled up as it was.
-/
theorem entryAt_kept
    (data : Bytes)
    (index : Nat)
    (hSize : catalogueSize ≤ data.size)
    (hIndex : index < maxFiles) :
    let e := entryAt data index
    e.Storable ∧
      blockAt data (infoAt index) = e.infoBlock ∧
      ∃ filling,
        blockAt data (nameAt index) = e.nameBlockWith filling ∧
          e.filename.toList.length + filling.length = 7 ∧
          ∀ c ∈ filling, isFiller c = true := by
  have hName := length_nameAt data index hSize hIndex
  have hInfo := length_infoAt data index hSize hIndex
  exact
    ⟨Entry.storable_ofBlocks _ _ hName,
      (Entry.infoBlock_ofBlocks _ _ hInfo).symm,
      Entry.exists_nameBlockWith _ _ hName⟩

/- The places of both blocks of an entry. -/
theorem blockAt_eq
    (data : Bytes)
    (index : Nat) :
    (data.extract (0x008 + 8 * index)
          (0x010 + 8 * index)).toList =
        blockAt data (nameAt index) ∧
      (data.extract (0x108 + 8 * index)
          (0x110 + 8 * index)).toList =
        blockAt data (infoAt index) := by
  unfold blockAt nameAt infoAt sectorSize blockSize
  constructor
  · congr 2 <;> omega
  · congr 2 <;> omega

namespace Image

/- The number of files of an image. -/
def fileCount
    (data : Bytes) : Nat :=
  data.byteAt (sectorSize + 5) / blockSize

/- It is a number that there is room for. -/
theorem fileCount_le
    (data : Bytes) :
    fileCount data ≤ maxFiles := by
  have hByte := (data.getD (sectorSize + 5) 0).toNat_lt
  simp only [fileCount, maxFiles, blockSize, Bytes.byteAt]
  omega

/- What the catalogue of some bytes says. -/
def ofData
    (data : Bytes) : Image where
  title := readTitle data
  sectors :=
    data.byteAt (sectorSize + 7) +
      256 * (data.byteAt (sectorSize + 6) % 4)
  bootOption := data.byteAt (sectorSize + 6) / 16 % 4
  cycle := data.byteAt (sectorSize + 4)
  entries := (List.range (fileCount data)).map (entryAt data)
  data := data

/- Each catalogue that is there can be read. -/
theorem parse_eq
    (data : Bytes)
    (hSize : catalogueSize ≤ data.size) :
    parse data = .ok (ofData data) := by
  apply parse_eq_ok data _ hSize
  apply mapM_eq_ok
  intro index hMem
  have hCount := fileCount_le data
  have hIndex : index < maxFiles :=
    Nat.lt_of_lt_of_le (List.mem_range.mp hMem) hCount
  apply readEntry_eq_ok
  exact Nat.le_trans (infoAt_le index hIndex) hSize

/- Each entry of an image has a number that there is room for. -/
theorem entryAt_of_getElem?
    (data : Bytes)
    (index : Nat)
    (e : Entry)
    (hEntry : (ofData data).entries[index]? = some e) :
    index < maxFiles ∧ entryAt data index = e := by
  rcases List.getElem?_eq_some_iff.mp hEntry with
    ⟨hInside, hRead⟩
  simp only [ofData, List.length_map, List.length_range]
    at hInside
  simp only [ofData, List.getElem_map, List.getElem_range]
    at hRead
  exact
    ⟨Nat.lt_of_lt_of_le hInside (fileCount_le data), hRead⟩

/- Each entry of an image fits into two blocks. -/
theorem storable_of_mem
    (data : Bytes)
    (hSize : catalogueSize ≤ data.size)
    (e : Entry)
    (hMem : e ∈ (ofData data).entries) :
    e.Storable := by
  rcases List.mem_iff_getElem?.mp hMem with ⟨index, hEntry⟩
  rcases entryAt_of_getElem? data index e hEntry with
    ⟨hIndex, rfl⟩
  exact (entryAt_kept data index hSize hIndex).1

/- What is read from bytes is what their catalogue says. -/
theorem eq_ofData_of_parse
    (data : Bytes)
    (image : Image)
    (hParse : parse data = .ok image) :
    image = ofData data ∧ ∀ e ∈ image.entries, e.Storable := by
  by_cases hSize : catalogueSize ≤ data.size
  · rw [parse_eq data hSize] at hParse
    cases hParse
    exact ⟨rfl, storable_of_mem data hSize⟩
  · rw [parse, if_pos (Nat.not_le.mp hSize)] at hParse
    cases hParse

/-
  Bytes that are too few for a catalogue are refused, and
  all others make an image. It has as many entries as the
  count byte says; each of them fits into its two blocks;
  and writing it gives these blocks again, if its name is
  filled up as it was: with spaces or zeros.
-/
theorem catalogue_bits_kept
    (data : Bytes) :
    (data.size < 0x200 →
        parse data = .error (.tooSmall data.size)) ∧
      (0x200 ≤ data.size →
        ∃ image count,
          parse data = .ok image ∧
            data[0x105]? = some count ∧
            image.entries.length = count.toNat / 8 ∧
            (∀ e ∈ image.entries, e.Storable) ∧
            ∀ (index : Nat) (e : Entry),
              image.entries[index]? = some e →
                (data.extract (0x108 + 8 * index)
                      (0x110 + 8 * index)).toList =
                    e.infoBlock ∧
                  ∃ filling : List Char,
                    (data.extract (0x008 + 8 * index)
                          (0x010 + 8 * index)).toList =
                        e.nameBlockWith filling ∧
                      e.filename.toList.length +
                          filling.length = 7 ∧
                      ∀ c ∈ filling, c = ' ' ∨ c = '\x00') := by
  refine ⟨fun hSmall => if_pos hSmall, fun hSize => ?_⟩
  have hCountByte : 0x105 < data.size := by omega
  have hCount :
      fileCount data = data[0x105].toNat / 8 := by
    simp [fileCount, Bytes.byteAt, sectorSize, blockSize,
      hCountByte]
  refine
    ⟨ofData data, data[0x105], parse_eq data hSize,
      Array.getElem?_eq_getElem hCountByte, ?_, ?_, ?_⟩
  · simp only [ofData, List.length_map, List.length_range,
      hCount]
  · exact storable_of_mem data hSize
  · intro index e hEntry
    rcases entryAt_of_getElem? data index e hEntry with
      ⟨hIndex, rfl⟩
    rcases entryAt_kept data index hSize hIndex with
      ⟨-, hInfo, filling, hName, hLength, hAll⟩
    rcases blockAt_eq data index with ⟨hNameAt, hInfoAt⟩
    refine
      ⟨hInfoAt.trans hInfo, filling, hNameAt.trans hName,
        hLength, fun c hMem => ?_⟩
    simpa [isFiller] using hAll c hMem

end Image

end Disc

end Beeb
