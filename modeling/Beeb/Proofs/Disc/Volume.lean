import Beeb.Proofs.Disc.Catalogue

/-
  Volumes: what is stored on a disc is read from it again.

  The files are put into the image one after another. Each
  keeps its bytes, as no file that comes later covers any of
  them, and so does the catalogue.

  Main declarations:
    * `Disc.getElem?_store`
    * `Disc.StoredFile.Covers`
    * `Disc.Volume.Storable`
    * `Disc.Volume.encode_holds`
    * `Disc.Volume.catalogue_at_start`
    * `Disc.Volume.stored_volume_read`
-/

------------------------------------------------------------
-- Putting Bytes Into An Image
------------------------------------------------------------

namespace Beeb

namespace Disc

/- An image grows as far as it has to. -/
theorem size_store
    (image : Bytes)
    (index : Nat)
    (payload : Bytes) :
    (store image index payload).size =
      max image.size (index + payload.size) := by
  simp only [store, Array.size_append, Array.size_extract,
    Array.size_replicate]
  omega

/- The bytes that were put into an image are there. -/
theorem getElem?_store
    (image : Bytes)
    (index i : Nat)
    (payload : Bytes)
    (hInside : i < payload.size) :
    (store image index payload)[index + i]? = payload[i]? := by
  have hFront :
      (image.extract 0 index).size + (index - image.size) =
        index := by
    rw [Array.size_extract]
    omega
  unfold store
  rw [Array.getElem?_append_left
      (by
        simp only [Array.size_append, Array.size_replicate]
        omega),
    Array.getElem?_append_right
      (by
        simp only [Array.size_append, Array.size_replicate]
        omega)]
  simp only [Array.size_append, Array.size_replicate, hFront]
  rw [Nat.add_sub_cancel_left]

/- All other bytes of the image stay what they were. -/
theorem getElem?_store_of_outside
    (image : Bytes)
    (index i : Nat)
    (payload : Bytes)
    (hInside : i < image.size)
    (hOutside : i < index ∨ index + payload.size ≤ i) :
    (store image index payload)[i]? = image[i]? := by
  simp only [store, Array.getElem?_append,
    Array.getElem?_extract, Array.size_append,
    Array.size_extract, Array.size_replicate]
  rcases hOutside with hBefore | hAfter
  · rw [if_pos (by omega), if_pos (by omega),
      if_pos (by omega), if_pos (by omega), Nat.zero_add]
  · rw [if_neg (by omega), if_pos (by omega)]
    congr 1
    omega

end Disc

end Beeb

------------------------------------------------------------
-- Putting Files Into An Image
------------------------------------------------------------

namespace Beeb

namespace Disc

namespace StoredFile

/- Whether a file has a byte at a position. -/
def Covers
    (f : StoredFile)
    (position : Nat) : Prop :=
  f.entry.start ≤ position ∧ position < f.entry.stop

/- Whether the bytes of a file are where its entry says. -/
def HeldBy
    (f : StoredFile)
    (image : Bytes) : Prop :=
  f.entry.start.toNat + f.payload.size ≤ image.size ∧
    ∀ i < f.payload.size,
      image[f.entry.start.toNat + i]? = f.payload[i]?

/- The positions of a file that does not start too early. -/
theorem covers_iff
    (f : StoredFile)
    (position : Nat)
    (hStart : 0 ≤ f.entry.startSector) :
    f.Covers position ↔
      f.entry.start.toNat ≤ position ∧
        position < f.entry.start.toNat + f.payload.size := by
  have hSize := f.length_eq
  unfold Covers Entry.stop Entry.start sectorSize
  omega

/- The contents of a file are read from the image. -/
theorem contents_of_heldBy
    (f : StoredFile)
    (image : Image)
    (hStart : 0 ≤ f.entry.startSector)
    (hHeld : f.HeldBy image.data) :
    image.contents f.entry = .ok f.payload := by
  rcases hHeld with ⟨hSize, hBytes⟩
  have hLength := f.length_eq
  have hStartNat : (f.entry.start.toNat : Int) = f.entry.start := by
    unfold Entry.start sectorSize
    omega
  have hStop :
      f.entry.stop =
        (f.entry.start.toNat + f.payload.size : Nat) := by
    unfold Entry.stop
    omega
  have hEnd : f.entry.runsPast image.data.size = false := by
    unfold Entry.runsPast
    rw [hStop]
    exact decide_eq_false (by omega)
  have hClamp :
      ∀ n : Nat, n ≤ image.data.size →
        Bytes.clamp image.data.size n = n := by
    intro n hSmall
    unfold Bytes.clamp
    rw [if_neg (by omega), Int.toNat_natCast]
    exact Nat.min_eq_left hSmall
  have hSlice :
      image.data.slice f.entry.start f.entry.stop =
        image.data.extract f.entry.start.toNat
          (f.entry.start.toNat + f.payload.size) := by
    rw [Bytes.slice, hStop, hClamp _ hSize, ← hStartNat,
      hClamp _ (by omega), Int.toNat_natCast]
  rw [Image.contents, hEnd, hSlice]
  simp only [Bool.false_eq_true, if_false]
  congr 1
  apply Array.ext_getElem?
  intro i
  rw [Array.getElem?_extract]
  split
  · exact hBytes i (by omega)
  · exact (Array.getElem?_eq_none (by omega)).symm

end StoredFile

/- The image does not shrink. -/
theorem size_le_storeAll
    (image : Bytes)
    (files : List StoredFile) :
    image.size ≤ (storeAll image files).size := by
  induction files generalizing image with
  | nil => exact Nat.le_refl _
  | cons f fs ih =>
    apply Nat.le_trans _ (ih _)
    rw [size_store]
    exact Nat.le_max_left _ _

/- A byte that no file covers stays what it was. -/
theorem getElem?_storeAll
    (image : Bytes)
    (files : List StoredFile)
    (i : Nat)
    (hStart : ∀ f ∈ files, 0 ≤ f.entry.startSector)
    (hInside : i < image.size)
    (hFree : ∀ f ∈ files, ¬ f.Covers i) :
    (storeAll image files)[i]? = image[i]? := by
  induction files generalizing image with
  | nil => rfl
  | cons f fs ih =>
    have hNot := hFree f List.mem_cons_self
    rw [f.covers_iff i (hStart f List.mem_cons_self)] at hNot
    have hGrown :
        i < (store image f.entry.start.toNat f.payload).size := by
      rw [size_store]
      omega
    have hKept :=
      getElem?_store_of_outside image f.entry.start.toNat i
        f.payload hInside (by omega)
    have hRest :=
      ih _ (fun g hg => hStart g (List.mem_cons_of_mem f hg))
        hGrown
        (fun g hg => hFree g (List.mem_cons_of_mem f hg))
    exact hRest.trans hKept

/-
  Each file has its bytes in the end if no position is
  covered by two of them: they are right when it is stored,
  and no later file covers them.
-/
theorem heldBy_storeAll
    (image : Bytes)
    (files : List StoredFile)
    (hStart : ∀ f ∈ files, 0 ≤ f.entry.startSector)
    (hDisjoint :
      files.Pairwise fun f g =>
        ∀ position, ¬ (f.Covers position ∧ g.Covers position)) :
    ∀ f ∈ files, f.HeldBy (storeAll image files) := by
  induction files generalizing image with
  | nil => simp
  | cons f fs ih =>
    rcases List.pairwise_cons.mp hDisjoint with ⟨hFirst, hRest⟩
    have hStartRest : ∀ g ∈ fs, 0 ≤ g.entry.startSector :=
      fun g hg => hStart g (List.mem_cons_of_mem f hg)
    let first := store image f.entry.start.toNat f.payload
    have hSize :
        f.entry.start.toNat + f.payload.size ≤ first.size := by
      rw [size_store]
      exact Nat.le_max_right _ _
    intro g hg
    rcases List.mem_cons.mp hg with rfl | hIn
    · refine
        ⟨Nat.le_trans hSize (size_le_storeAll first fs),
          fun i hInside => ?_⟩
      have hCovered : g.Covers (g.entry.start.toNat + i) := by
        rw [g.covers_iff _ (hStart g List.mem_cons_self)]
        omega
      calc (storeAll first fs)[g.entry.start.toNat + i]?
        _ = first[g.entry.start.toNat + i]? :=
          getElem?_storeAll first fs _ hStartRest (by omega)
            fun h hh hBoth => hFirst h hh _ ⟨hCovered, hBoth⟩
        _ = g.payload[i]? := getElem?_store _ _ _ _ hInside
    · exact ih first hStartRest hRest g hIn

end Disc

end Beeb

------------------------------------------------------------
-- Blocks In A Row
------------------------------------------------------------

namespace Beeb

namespace Disc

/- Blocks in a row are as long as all of them. -/
theorem length_flatten_blocks
    (blocks : List (List UInt8))
    (hBlocks : ∀ b ∈ blocks, b.length = blockSize) :
    blocks.flatten.length = blocks.length * blockSize := by
  rw [List.length_flatten, List.map_congr_left hBlocks,
    List.map_const', List.sum_replicate_nat]

/- Each of them is found by its number. -/
theorem take_drop_flatten
    (front back : List UInt8)
    (blocks : List (List UInt8))
    (index : Nat)
    (block : List UInt8)
    (hBlocks : ∀ b ∈ blocks, b.length = blockSize)
    (hAt : blocks[index]? = some block) :
    ((front ++ blocks.flatten ++ back).drop
        (front.length + index * blockSize)).take blockSize =
      block := by
  have hBlock : block.length = blockSize :=
    hBlocks block (List.mem_of_getElem? hAt)
  rcases List.getElem?_eq_some_iff.mp hAt with ⟨hIndex, rfl⟩
  have hSplit :
      blocks =
        blocks.take index ++
          blocks[index] :: blocks.drop (index + 1) := by
    rw [← List.drop_eq_getElem_cons hIndex,
      List.take_append_drop]
  have hBefore :
      (front ++ (blocks.take index).flatten).length =
        front.length + index * blockSize := by
    rw [List.length_append,
      length_flatten_blocks _ fun b hb =>
        hBlocks b (List.mem_of_mem_take hb),
      List.length_take_of_le (Nat.le_of_lt hIndex)]
  have hParts :
      front ++ blocks.flatten ++ back =
        front ++ (blocks.take index).flatten ++
          (blocks[index] ++
            ((blocks.drop (index + 1)).flatten ++ back)) := by
    conv => lhs; rw [hSplit]
    simp only [List.flatten_append, List.flatten_cons,
      List.append_assoc]
  rw [hParts, List.drop_left' hBefore, List.take_left' hBlock]

end Disc

end Beeb

------------------------------------------------------------
-- Volumes That Fit
------------------------------------------------------------

namespace Beeb

namespace Disc

namespace Volume

/-
  A volume that fits on a disc: its title and its numbers
  have no more characters and bits than there is room for,
  each of its files has an entry that fits and lies after
  the catalogue, and no position is covered by two files.
-/
structure Storable
    (v : Volume) : Prop where
  title_length : v.title.toList.length ≤ 12
  title_small : ∀ c ∈ v.title.toList, c.toNat < 256
  title_last :
    ∀ c ∈ v.title.toList.getLast?, isFiller c = false
  sectors_lt : v.sectors < 0x400
  bootOption_lt : v.bootOption < 4
  cycle_lt : v.cycle < 0x100
  files_length : v.files.length ≤ 31
  entries : ∀ f ∈ v.files, f.entry.Storable
  startSector_le : ∀ f ∈ v.files, 2 ≤ f.entry.startSector
  disjoint :
    v.files.Pairwise fun f g =>
      ∀ position, ¬ (f.Covers position ∧ g.Covers position)

/- The blocks of the first sector. -/
def nameBlocks
    (v : Volume) : List (List UInt8) :=
  v.titleBytes.take 8 ::
    v.files.map fun f => f.entry.nameBlock

/- The blocks of the second sector. -/
def infoBlocks
    (v : Volume) : List (List UInt8) :=
  (v.titleBytes.drop 8 ++ v.numbers) ::
    v.files.map fun f => f.entry.infoBlock

/- The catalogue is made of these blocks. -/
theorem catalogue_eq
    (v : Volume) :
    v.catalogue =
      v.nameBlocks.flatten.rightpad sectorSize 0 ++
        v.infoBlocks.flatten.rightpad sectorSize 0 := by
  simp only [catalogue, nameBlocks, infoBlocks,
    List.flatten_cons, List.flatMap_def, List.map_map,
    Function.comp_def]

section

variable {v : Volume}
variable (hStorable : v.Storable)

include hStorable

/- There are twelve bytes for the title. -/
theorem length_titleBytes :
    v.titleBytes.length = 12 := by
  have hLength := hStorable.title_length
  simp only [titleBytes, List.rightpad, List.length_append,
    List.length_map, List.length_replicate]
  omega

/- Each block of the first sector has eight bytes. -/
theorem length_of_mem_nameBlocks :
    ∀ b ∈ v.nameBlocks, b.length = blockSize := by
  intro b hMem
  rcases List.mem_cons.mp hMem with rfl | hName
  · rw [List.length_take, length_titleBytes hStorable]
    rfl
  · rcases List.mem_map.mp hName with ⟨f, hFile, rfl⟩
    exact f.entry.length_nameBlock (hStorable.entries f hFile)

/- Each block of the second sector has eight bytes. -/
theorem length_of_mem_infoBlocks :
    ∀ b ∈ v.infoBlocks, b.length = blockSize := by
  intro b hMem
  rcases List.mem_cons.mp hMem with rfl | hInfo
  · rw [List.length_append, List.length_drop,
      length_titleBytes hStorable]
    rfl
  · rcases List.mem_map.mp hInfo with ⟨f, -, rfl⟩
    rfl

/- The blocks of a sector fill it at most. -/
theorem length_rightpad_blocks
    (blocks : List (List UInt8))
    (hBlocks : ∀ b ∈ blocks, b.length = blockSize)
    (hCount : blocks.length = v.files.length + 1) :
    (blocks.flatten.rightpad sectorSize 0).length =
      sectorSize := by
  have hFiles := hStorable.files_length
  rw [List.rightpad, List.length_append, List.length_replicate,
    length_flatten_blocks blocks hBlocks, hCount]
  simp only [sectorSize, blockSize]
  omega

/- The first sector is full. -/
theorem length_nameSector :
    (v.nameBlocks.flatten.rightpad sectorSize 0).length =
      sectorSize :=
  length_rightpad_blocks hStorable _
    (length_of_mem_nameBlocks hStorable)
    (by rw [nameBlocks, List.length_cons, List.length_map])

/- The second sector is full. -/
theorem length_infoSector :
    (v.infoBlocks.flatten.rightpad sectorSize 0).length =
      sectorSize :=
  length_rightpad_blocks hStorable _
    (length_of_mem_infoBlocks hStorable)
    (by rw [infoBlocks, List.length_cons, List.length_map])

/- A catalogue has two sectors. -/
theorem length_catalogue :
    v.catalogue.length = catalogueSize := by
  rw [catalogue_eq, List.length_append,
    length_nameSector hStorable, length_infoSector hStorable]
  rfl

/- The bytes of each file are in the image. -/
theorem encode_holds :
    ∀ f ∈ v.files, f.HeldBy v.encode := by
  apply heldBy_storeAll _ _ _ hStorable.disjoint
  intro f hFile
  have hStart := hStorable.startSector_le f hFile
  omega

/-
  The image starts with the catalogue: no file covers any
  of it.
-/
theorem catalogue_at_start :
    v.catalogue <+: v.encode.toList := by
  rw [List.prefix_iff_getElem?]
  intro i hInside
  have hStart :
      ∀ f ∈ v.files, 0 ≤ f.entry.startSector := by
    intro f hFile
    have hSector := hStorable.startSector_le f hFile
    omega
  have hSmall : i < catalogueSize := by
    rw [← length_catalogue hStorable]
    exact hInside
  rw [Array.getElem?_toList, encode,
    getElem?_storeAll v.catalogue.toArray v.files i hStart
      hInside,
    List.getElem?_toArray, List.getElem?_eq_getElem hInside]
  intro f hFile hCovers
  have hSector := hStorable.startSector_le f hFile
  have hBefore := hCovers.1
  unfold Entry.start sectorSize at hBefore
  unfold catalogueSize sectorSize at hSmall
  omega

end

end Volume

end Disc

end Beeb

------------------------------------------------------------
-- Reading What Was Stored
------------------------------------------------------------

namespace Beeb

namespace Disc

namespace Volume

section

variable {v : Volume}
variable (hStorable : v.Storable)

include hStorable

/- Bytes of the catalogue are read from the image. -/
theorem blockAt_encode
    (position : Nat)
    (hInside : position + blockSize ≤ catalogueSize) :
    blockAt v.encode position =
      (v.catalogue.drop position).take blockSize := by
  rcases catalogue_at_start hStorable with ⟨rest, hRest⟩
  rw [← length_catalogue hStorable] at hInside
  rw [blockAt, Array.toList_extract,
    List.extract_eq_take_drop, ← hRest,
    List.drop_append_of_le_length (by omega),
    List.take_append_of_le_length
      (by rw [List.length_drop]; omega),
    Nat.add_sub_cancel_left]

/- The blocks of the first sector are read again. -/
theorem blockAt_nameBlocks
    (index : Nat)
    (block : List UInt8)
    (hAt : v.nameBlocks[index]? = some block) :
    blockAt v.encode (index * blockSize) = block := by
  have hIndex := (List.getElem?_eq_some_iff.mp hAt).1
  have hFiles := hStorable.files_length
  rw [nameBlocks, List.length_cons, List.length_map] at hIndex
  rw [blockAt_encode hStorable _
    (by simp only [blockSize, catalogueSize, sectorSize]; omega)]
  have hRead :=
    take_drop_flatten []
      (List.replicate
          (sectorSize - v.nameBlocks.flatten.length) 0 ++
        v.infoBlocks.flatten.rightpad sectorSize 0)
      v.nameBlocks index block
      (length_of_mem_nameBlocks hStorable) hAt
  rw [catalogue_eq, List.rightpad, List.append_assoc]
  rwa [List.length_nil, Nat.zero_add, List.nil_append] at hRead

/- So are those of the second sector. -/
theorem blockAt_infoBlocks
    (index : Nat)
    (block : List UInt8)
    (hAt : v.infoBlocks[index]? = some block) :
    blockAt v.encode (sectorSize + index * blockSize) =
      block := by
  have hIndex := (List.getElem?_eq_some_iff.mp hAt).1
  have hFiles := hStorable.files_length
  rw [infoBlocks, List.length_cons, List.length_map] at hIndex
  rw [blockAt_encode hStorable _
    (by simp only [blockSize, catalogueSize, sectorSize]; omega)]
  have hRead :=
    take_drop_flatten
      (v.nameBlocks.flatten.rightpad sectorSize 0)
      (List.replicate
        (sectorSize - v.infoBlocks.flatten.length) 0)
      v.infoBlocks index block
      (length_of_mem_infoBlocks hStorable) hAt
  rwa [length_nameSector hStorable, List.append_assoc,
    ← List.rightpad, ← catalogue_eq] at hRead

/- The first eight characters of the title. -/
theorem blockAt_title :
    blockAt v.encode 0 = v.titleBytes.take 8 := by
  have hRead := blockAt_nameBlocks hStorable 0 _ rfl
  rwa [Nat.zero_mul] at hRead

/- The other four, and the numbers. -/
theorem blockAt_numbers :
    blockAt v.encode sectorSize =
      v.titleBytes.drop 8 ++ v.numbers := by
  have hRead := blockAt_infoBlocks hStorable 0 _ rfl
  rwa [Nat.zero_mul, Nat.add_zero] at hRead

/- The entry of a file is read again. -/
theorem entryAt_encode
    (index : Nat)
    (f : StoredFile)
    (hFile : v.files[index]? = some f) :
    entryAt v.encode index = f.entry := by
  have hName :
      blockAt v.encode (nameAt index) = f.entry.nameBlock := by
    have hPosition : nameAt index = (index + 1) * blockSize := by
      unfold nameAt blockSize
      omega
    rw [hPosition]
    apply blockAt_nameBlocks hStorable
    rw [nameBlocks, List.getElem?_cons_succ,
      List.getElem?_map, hFile, Option.map_some]
  have hInfo :
      blockAt v.encode (infoAt index) = f.entry.infoBlock := by
    have hPosition :
        infoAt index = sectorSize + (index + 1) * blockSize := by
      unfold infoAt blockSize
      omega
    rw [hPosition]
    apply blockAt_infoBlocks hStorable
    rw [infoBlocks, List.getElem?_cons_succ,
      List.getElem?_map, hFile, Option.map_some]
  rw [entryAt, hName, hInfo]
  exact
    Entry.ofBlocks_blocks f.entry
      (hStorable.entries f (List.mem_of_getElem? hFile))

/- The characters of the title, filled up with zeros. -/
theorem map_titleBytes :
    v.titleBytes.map (fun b => Char.ofNat b.toNat) =
      v.title.toList ++
        List.replicate (12 - v.title.toList.length) '\x00' := by
  have hSame :
      ∀ c ∈ v.title.toList,
        Char.ofNat (UInt8.ofNat c.toNat).toNat = c := by
    intro c hMem
    rw [UInt8.toNat_ofNat_of_lt'
      (hStorable.title_small c hMem)]
    exact Char.ofNat_toNat c
  have hTitle :
      v.title.toList.map
          ((fun b : UInt8 => Char.ofNat b.toNat) ∘
            fun c => UInt8.ofNat c.toNat) =
        v.title.toList :=
    (List.map_congr_left hSame).trans (List.map_id' _)
  rw [titleBytes, List.rightpad, List.map_append,
    List.map_map, hTitle, List.map_replicate, List.length_map]
  rfl

/- The title is read again, less the zeros after it. -/
theorem readTitle_encode :
    Image.readTitle v.encode = v.title := by
  have hFirst :
      (v.encode.extract 0 8).toList = v.titleBytes.take 8 :=
    blockAt_title hStorable
  have hSecond :
      (v.encode.extract sectorSize (sectorSize + 4)).toList =
        v.titleBytes.drop 8 := by
    have hTake :
        (v.encode.extract sectorSize (sectorSize + 4)).toList =
          (blockAt v.encode sectorSize).take 4 := by
      rw [blockAt, Array.toList_extract, Array.toList_extract,
        List.extract_eq_take_drop, List.extract_eq_take_drop,
        List.take_take]
      rfl
    rw [hTake, blockAt_numbers hStorable]
    apply List.take_left'
    rw [List.length_drop, length_titleBytes hStorable]
  rw [Image.readTitle, hFirst, hSecond,
    List.take_append_drop]
  simp only [map_titleBytes hStorable]
  rw [Text.dropEnd_append _ _ _ (by simp [isFiller]),
    Text.dropEnd_of_getLast? _ _ hStorable.title_last,
    String.ofList_toList]

/- The bytes after the title are read again. -/
theorem byteAt_encode
    (i : Nat)
    (hSmall : i < 4) :
    v.encode.byteAt (sectorSize + (4 + i)) =
      (v.numbers.getD i 0).toNat := by
  have hTitle : (v.titleBytes.drop 8).length = 4 := by
    rw [List.length_drop, length_titleBytes hStorable]
  rw [Bytes.byteAt, ← getD_blockAt _ _ _
      (by simp only [blockSize]; omega),
    blockAt_numbers hStorable]
  simp only [List.getD_eq_getElem?_getD]
  rw [List.getElem?_append_right (by omega), hTitle,
    Nat.add_sub_cancel_left]

/- There are as many entries as files. -/
theorem fileCount_encode :
    Image.fileCount v.encode = v.files.length := by
  have hFiles := hStorable.files_length
  have hByte := byteAt_encode hStorable 1 (by decide)
  unfold Image.fileCount
  rw [hByte, numbers, List.getD_cons_succ, List.getD_cons_zero,
    UInt8.toNat_ofNat_of_lt'
      (by simp only [UInt8.size, blockSize]; omega)]
  exact Nat.mul_div_cancel _ (by decide)

/- The entries of all files are read again. -/
theorem entries_encode :
    (Image.ofData v.encode).entries =
      v.files.map StoredFile.entry := by
  apply List.ext_getElem
  · simp only [Image.ofData, List.length_map,
      List.length_range, fileCount_encode hStorable]
  · intro index hLeft hRight
    rw [List.length_map] at hRight
    simp only [Image.ofData, List.getElem_map,
      List.getElem_range]
    exact
      entryAt_encode hStorable index _
        (List.getElem?_eq_getElem hRight)

end

/-
  What is stored on a disc is read from it again: the title,
  the numbers, the entries of all files in their order, and
  the bytes of each file.
-/
theorem stored_volume_read
    (v : Volume)
    (hStorable : v.Storable) :
    ∃ image,
      Image.parse v.encode = .ok image ∧
        image.title = v.title ∧
        image.sectors = v.sectors ∧
        image.bootOption = v.bootOption ∧
        image.cycle = v.cycle ∧
        image.entries = v.files.map StoredFile.entry ∧
        ∀ f ∈ v.files,
          image.contents f.entry = .ok f.payload := by
  have hSize : catalogueSize ≤ v.encode.size := by
    rw [← length_catalogue hStorable]
    exact (catalogue_at_start hStorable).length_le
  have hSectors := hStorable.sectors_lt
  have hBoot := hStorable.bootOption_lt
  have hCycle := byteAt_encode hStorable 0 (by decide)
  have hUpper := byteAt_encode hStorable 2 (by decide)
  have hLower := byteAt_encode hStorable 3 (by decide)
  simp only [numbers, List.getD_cons_zero,
    List.getD_cons_succ, Nat.reduceAdd] at hCycle hUpper hLower
  rw [UInt8.toNat_ofNat_of_lt' hStorable.cycle_lt] at hCycle
  rw [UInt8.toNat_ofNat_of_lt'
    (by simp only [UInt8.size]; omega)] at hUpper hLower
  refine
    ⟨.ofData v.encode, Image.parse_eq _ hSize,
      readTitle_encode hStorable, ?_, ?_, hCycle,
      entries_encode hStorable, ?_⟩
  · simp only [Image.ofData, hUpper, hLower]
    omega
  · simp only [Image.ofData, hUpper]
    omega
  · intro f hFile
    have hStart := hStorable.startSector_le f hFile
    exact
      f.contents_of_heldBy _ (by omega)
        (encode_holds hStorable f hFile)

/-
  A disc with two files, of which the first lies after the
  second.
-/
def games : Volume :=
  { title := "GAMES", sectors := 800, bootOption := 3,
    cycle := 18
    files :=
      [⟨{ filename := "ELITE", length := 3, startSector := 3,
          loadAddress := 0x31900, execAddress := 0x2190A,
          attributes := 5, locked := true },
        #[1, 2, 3], rfl⟩,
      ⟨{ filename := "B", directory := "A", length := 1,
          startSector := 2, execAddress := 0x3FFFF },
        #[9], rfl⟩] }

/- It fits. -/
theorem storable_games : games.Storable := by
  have hRead :
      ∀ f ∈ games.files,
        Entry.ofBlocks f.entry.nameBlock f.entry.infoBlock =
            f.entry ∧
          f.entry.nameBlock.length = blockSize := by
    decide +kernel
  have hSmall :
      games.title.toList.all (·.toNat < 256) = true := by
    decide +kernel
  have hLast : games.title.toList.getLast? = some 'S' := by
    decide +kernel
  refine
    { title_length := by decide
      title_small := fun c hMem =>
        of_decide_eq_true (List.all_eq_true.mp hSmall c hMem)
      title_last := by
        rw [hLast]
        rintro _ ⟨⟩
        rfl
      sectors_lt := by decide
      bootOption_lt := by decide
      cycle_lt := by decide
      files_length := by decide
      entries := fun f hFile => ?_
      startSector_le := by decide
      disjoint := ?_ }
  · rw [← (hRead f hFile).1]
    exact Entry.storable_ofBlocks _ _ (hRead f hFile).2
  · apply List.pairwise_pair.mpr
    simp only [StoredFile.Covers, Entry.start, Entry.stop,
      sectorSize]
    omega

/- It is read again. -/
theorem stored_volume_read_games :
    ∃ image,
      Image.parse games.encode = .ok image ∧
        image.title = "GAMES" ∧
        image.cycle = 18 ∧
        image.entries.map Entry.qualifiedName =
          ["$.ELITE", "A.B"] ∧
        ∀ f ∈ games.files,
          image.contents f.entry = .ok f.payload := by
  rcases stored_volume_read games storable_games with
    ⟨image, hParse, hTitle, -, -, hCycle, hEntries, hContents⟩
  refine ⟨image, hParse, hTitle, hCycle, ?_, hContents⟩
  rw [hEntries]
  rfl

end Volume

end Disc

end Beeb
