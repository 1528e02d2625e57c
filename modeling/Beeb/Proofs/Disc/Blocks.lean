import Beeb.Disc.Encoding

/-
  Entries and the two blocks of eight bytes that hold them.

  Reading the blocks of an entry gives the entry, and
  writing an entry that was read gives its blocks, up to
  the characters that fill up its name.

  Main declarations:
    * `Disc.blockAt`
    * `Disc.Entry.ofBlocks`
    * `Disc.readEntry_eq_ok`
    * `Disc.Entry.Storable`
    * `Disc.Entry.storable_ofBlocks`
    * `Disc.Entry.ofBlocks_blocks`
    * `Disc.Entry.infoBlock_ofBlocks`
    * `Disc.Entry.exists_nameBlockWith`
-/

------------------------------------------------------------
-- Characters And Flags
------------------------------------------------------------

namespace Beeb

namespace Disc

/- The character of a byte is below 128. -/
theorem toNat_character
    (b : UInt8) :
    (character b).toNat = b.toNat % 128 := by
  have hValid : (b.toNat % 128).isValidChar := by
    left
    omega
  rw [character, Char.ofNat, dif_pos hValid]
  rfl

/- A byte is its character and its top bit. -/
theorem flagged_character
    (b : UInt8) :
    flagged (128 ≤ b.toNat) (character b) = b := by
  have hByte := b.toNat_lt
  apply UInt8.toNat_inj.mp
  rw [toNat_flagged, toNat_character]
  by_cases hTop : 128 ≤ b.toNat
  · simp only [hTop, decide_true, Bool.toNat_true]
    omega
  · simp only [hTop, decide_false, Bool.toNat_false]
    omega

/- Bytes are their characters and their flags. -/
theorem withFlags_flags
    (bs : List UInt8) :
    withFlags (flags bs) (bs.map character) = bs := by
  induction bs with
  | nil => rfl
  | cons b bs ih =>
    have hByte := b.toNat_lt
    have hTop :
        ((b.toNat / 128 + 2 * flags bs) % 2 = 1) =
          (128 ≤ b.toNat) := by
      rw [eq_iff_iff]
      omega
    have hRest :
        (b.toNat / 128 + 2 * flags bs) / 2 = flags bs := by
      omega
    simp only [flags, List.map_cons, withFlags, hTop, hRest,
      flagged_character, ih]

/- There is one flag for each byte. -/
theorem flags_lt
    (bs : List UInt8) :
    flags bs < Nat.pow 2 bs.length := by
  induction bs with
  | nil => simp [flags]
  | cons b bs ih =>
    have hByte := b.toNat_lt
    have hPow :
        Nat.pow 2 (bs.length + 1) = 2 * Nat.pow 2 bs.length :=
      Nat.mul_comm _ _
    rw [flags, List.length_cons, hPow]
    omega

end Disc

end Beeb

------------------------------------------------------------
-- Numbers And Bits
------------------------------------------------------------

namespace Beeb

namespace Disc

/- A number of 18 bits is put together from its parts. -/
theorem wide_parts
    (n upper : Nat)
    (hSmall : n < 0x40000)
    (hUpper : upper % 4 = highBits n) :
    wide (n % 256) (n / 256 % 256) upper = n := by
  unfold highBits at hUpper
  unfold wide
  omega

/- Two bytes and two bits make a number of 18 bits. -/
theorem wide_lt
    (low high : UInt8)
    (upper : Nat) :
    wide low.toNat high.toNat upper < 0x40000 := by
  have hLow := low.toNat_lt
  have hHigh := high.toNat_lt
  unfold wide
  omega

/- The low bytes of such a number. -/
theorem lowBytes_wide
    (low high : UInt8)
    (upper : Nat) :
    lowBytes (wide low.toNat high.toNat upper) =
      [low, high] := by
  have hLow := low.toNat_lt
  have hHigh := high.toNat_lt
  have hFirst :
      wide low.toNat high.toNat upper % 256 = low.toNat := by
    unfold wide
    omega
  have hSecond :
      wide low.toNat high.toNat upper / 256 % 256 =
        high.toNat := by
    unfold wide
    omega
  rw [lowBytes, hFirst, hSecond, UInt8.ofNat_toNat,
    UInt8.ofNat_toNat]

/- The high bits of such a number. -/
theorem highBits_wide
    (low high : UInt8)
    (upper : Nat) :
    highBits (wide low.toNat high.toNat upper) = upper % 4 := by
  have hLow := low.toNat_lt
  have hHigh := high.toNat_lt
  unfold highBits wide
  omega

end Disc

end Beeb

------------------------------------------------------------
-- Entries Of Blocks
------------------------------------------------------------

namespace Beeb

namespace Disc

/- Eight bytes of an image. -/
def blockAt
    (image : Bytes)
    (position : Nat) : List UInt8 :=
  (image.extract position (position + blockSize)).toList

/- There are eight of them if the image does not end. -/
theorem length_blockAt
    (image : Bytes)
    (position : Nat)
    (hInside : position + blockSize ≤ image.size) :
    (blockAt image position).length = blockSize := by
  rw [blockAt, Array.length_toList, Array.size_extract]
  omega

/- One of them. -/
theorem byte_blockAt
    (image : Bytes)
    (position i : Nat)
    (hInside : position + blockSize ≤ image.size)
    (hSmall : i < blockSize) :
    byte (image.extract position (position + blockSize)) i =
      .ok ((blockAt image position).getD i 0) := by
  rw [byte_eq_ok _ _ (by rw [Array.size_extract]; omega)]
  rw [blockAt, List.getD_eq_getElem?_getD, Array.getElem?_toList,
    Array.getD_eq_getD_getElem?]

/- One of them, in the image. -/
theorem getD_blockAt
    (image : Bytes)
    (position i : Nat)
    (hSmall : i < blockSize) :
    (blockAt image position).getD i 0 =
      image.getD (position + i) 0 := by
  rw [blockAt, List.getD_eq_getElem?_getD, Array.getElem?_toList,
    Array.getElem?_extract, Array.getD_eq_getD_getElem?]
  split
  · rfl
  · rename_i hOutside
    rw [Array.getElem?_eq_none (by omega)]

namespace Entry

/- The entry of a name block and a block of numbers. -/
def ofBlocks
    (name info : List UInt8) : Entry :=
  let number := fun i => (info.getD i 0).toNat
  let upper := number 6
  let directory := name.getD 7 0
  { filename :=
      String.ofList
        (Text.dropEnd isFiller ((name.take 7).map character))
    directory := String.ofList [character directory]
    length := wide (number 4) (number 5) (upper / 16)
    loadAddress := wide (number 0) (number 1) (upper / 4)
    execAddress := wide (number 2) (number 3) (upper / 64)
    startSector := (number 7 + 256 * (upper % 4) : Nat)
    attributes := flags (name.take 7)
    locked := 128 ≤ directory.toNat }

end Entry

/- Where the name of a file is. -/
def nameAt
    (index : Nat) : Nat :=
  blockSize + index * blockSize

/- Where the numbers of a file are. -/
def infoAt
    (index : Nat) : Nat :=
  sectorSize + blockSize + index * blockSize

/- An entry is read from the two blocks of its number. -/
theorem readEntry_eq_ok
    (image : Bytes)
    (index : Nat)
    (hInside : infoAt index + blockSize ≤ image.size) :
    readEntry image index =
      .ok
        (.ofBlocks (blockAt image (nameAt index))
          (blockAt image (infoAt index))) := by
  have hNameInside : nameAt index + blockSize ≤ image.size := by
    unfold infoAt at hInside
    unfold nameAt
    omega
  have hName :
      (image.extract (nameAt index) (nameAt index + 7)).toList =
        (blockAt image (nameAt index)).take 7 := by
    rw [blockAt, Array.toList_extract, Array.toList_extract,
      List.extract_eq_take_drop, List.extract_eq_take_drop,
      List.take_take]
    congr 1
    unfold blockSize
    omega
  have hLength :
      ((blockAt image (nameAt index)).take 7).length = 7 := by
    rw [List.length_take, length_blockAt _ _ hNameInside]
    rfl
  have hRead :
      readName
          (image.extract (nameAt index)
            (nameAt index + 7)).toList =
        .ok
          (String.ofList
              (Text.dropEnd isFiller
                (((blockAt image (nameAt index)).take 7).map
                  character)),
            flags ((blockAt image (nameAt index)).take 7)) := by
    rw [hName]
    unfold readName
    simp only [List.take_take, Nat.min_self, hLength,
      Nat.lt_irrefl, if_false]
  have hDirectory :
      byte image (nameAt index + 7) =
        .ok ((blockAt image (nameAt index)).getD 7 0) := by
    rw [byte_eq_ok _ _ (by unfold blockSize at *; omega),
      getD_blockAt _ _ _ (by decide)]
  have hInfo :=
    fun i hSmall => byte_blockAt image _ i hInside hSmall
  unfold nameAt at hRead hDirectory
  unfold infoAt at hInfo
  unfold readEntry
  simp only [hRead, hDirectory, bind, Except.bind, Except.map,
    hInfo 0 (by decide), hInfo 1 (by decide),
    hInfo 2 (by decide), hInfo 3 (by decide),
    hInfo 4 (by decide), hInfo 5 (by decide),
    hInfo 6 (by decide), hInfo 7 (by decide)]
  rfl

end Disc

end Beeb

------------------------------------------------------------
-- Entries That Fit
------------------------------------------------------------

namespace Beeb

namespace Disc

namespace Entry

/-
  An entry that fits into two blocks: its name does not end
  with what fills it up, and its characters and numbers have
  no more bits than there is room for.
-/
structure Storable
    (e : Entry) : Prop where
  filename_length : e.filename.toList.length ≤ 7
  filename_small : ∀ c ∈ e.filename.toList, c.toNat < 128
  filename_last :
    ∀ c ∈ e.filename.toList.getLast?, isFiller c = false
  directory :
    ∃ c : Char,
      e.directory = String.ofList [c] ∧ c.toNat < 128
  length_nonneg : 0 ≤ e.length
  length_lt : e.length < 0x40000
  loadAddress_lt : e.loadAddress < 0x40000
  execAddress_lt : e.execAddress < 0x40000
  startSector_nonneg : 0 ≤ e.startSector
  startSector_lt : e.startSector < 0x400
  attributes_lt : e.attributes < 0x80

/-
  The eight bytes of a name with the characters that fill it
  up, and of its directory.
-/
def nameBlockWith
    (e : Entry)
    (filling : List Char) : List UInt8 :=
  withFlags e.attributes (e.filename.toList ++ filling) ++
    [flagged e.locked (e.directory.toList.headD '$')]

/- A name is filled up with spaces when it is written. -/
theorem nameBlock_eq
    (e : Entry) :
    e.nameBlock =
      e.nameBlockWith
        (List.replicate (7 - e.filename.toList.length) ' ') :=
  rfl

/- The entry of any two blocks fits into them. -/
theorem storable_ofBlocks
    (name info : List UInt8)
    (hName : name.length = blockSize) :
    (ofBlocks name info).Storable := by
  have hSector :
      ((info.getD 7 0).toNat +
          256 * ((info.getD 6 0).toNat % 4)) < 0x400 := by
    have hByte := (info.getD 7 0).toNat_lt
    omega
  have hTake : (name.take 7).length = 7 := by
    rw [List.length_take, hName]
    rfl
  rcases Text.exists_dropEnd_append isFiller
      ((name.take 7).map character) with
    ⟨filling, hFilling, -⟩
  have hLength := congrArg List.length hFilling
  rw [List.length_map, hTake, List.length_append] at hLength
  refine
    { filename_length := ?_
      filename_small := ?_
      filename_last := ?_
      directory := ⟨_, rfl, ?_⟩
      length_nonneg := Int.natCast_nonneg _
      length_lt := Int.ofNat_lt.mpr (wide_lt _ _ _)
      loadAddress_lt := wide_lt _ _ _
      execAddress_lt := wide_lt _ _ _
      startSector_nonneg := Int.natCast_nonneg _
      startSector_lt := Int.ofNat_lt.mpr hSector
      attributes_lt := ?_ }
  · simp only [ofBlocks, String.toList_ofList]
    omega
  · intro c hMem
    simp only [ofBlocks, String.toList_ofList] at hMem
    have hIn : c ∈ (name.take 7).map character := by
      rw [hFilling]
      exact List.mem_append_left _ hMem
    rcases List.mem_map.mp hIn with ⟨b, -, rfl⟩
    rw [toNat_character]
    omega
  · simp only [ofBlocks, String.toList_ofList]
    exact Text.getLast?_dropEnd _ _
  · rw [toNat_character]
    omega
  · have hFlags := flags_lt (name.take 7)
    rw [hTake] at hFlags
    exact hFlags

end Entry

end Disc

end Beeb

------------------------------------------------------------
-- Reading And Writing
------------------------------------------------------------

namespace Beeb

namespace Disc

namespace Entry

/- The byte of high bits and the last byte, put together. -/
theorem upperBytes_eq
    (upper sector : UInt8) :
    let number := sector.toNat + 256 * (upper.toNat % 4)
    UInt8.ofNat
          (64 * (upper.toNat / 64 % 4) +
              16 * (upper.toNat / 16 % 4) +
              4 * (upper.toNat / 4 % 4) +
            number / 256 % 4) =
        upper ∧
      UInt8.ofNat (number % 256) = sector := by
  intro number
  have hUpper := upper.toNat_lt
  have hSector := sector.toNat_lt
  have hFirst :
      64 * (upper.toNat / 64 % 4) +
            16 * (upper.toNat / 16 % 4) +
            4 * (upper.toNat / 4 % 4) +
          number / 256 % 4 =
        upper.toNat := by
    omega
  have hSecond : number % 256 = sector.toNat := by omega
  rw [hFirst, hSecond]
  exact ⟨UInt8.ofNat_toNat, UInt8.ofNat_toNat⟩

/- The numbers that were read are written again. -/
theorem infoBlock_ofBlocks
    (name info : List UInt8)
    (hInfo : info.length = 8) :
    (ofBlocks name info).infoBlock = info := by
  match info, hInfo with
  | [load, load', exec, exec', length, length', upper, sector],
      _ =>
    rcases upperBytes_eq upper sector with ⟨hUpper, hSector⟩
    simp only [infoBlock, ofBlocks, List.getD_cons_succ,
      List.getD_cons_zero, Int.toNat_natCast, lowBytes_wide,
      highBits_wide, hUpper, hSector]
    rfl

/-
  The name that was read is written again with the same
  filling, which is of spaces and zeros.
-/
theorem exists_nameBlockWith
    (name info : List UInt8)
    (hName : name.length = 8) :
    ∃ filling,
      name = (ofBlocks name info).nameBlockWith filling ∧
        (ofBlocks name info).filename.toList.length +
            filling.length = 7 ∧
        ∀ c ∈ filling, isFiller c = true := by
  have hTake : (name.take 7).length = 7 := by
    rw [List.length_take, hName]
    rfl
  have hDrop : name.drop 7 = [name.getD 7 0] := by
    rw [List.drop_eq_getElem_cons (by omega),
      List.drop_of_length_le (by omega),
      List.getD_eq_getElem?_getD,
      List.getElem?_eq_getElem (by omega), Option.getD_some]
  rcases Text.exists_dropEnd_append isFiller
      ((name.take 7).map character) with
    ⟨filling, hFilling, hAll⟩
  have hLength := congrArg List.length hFilling
  rw [List.length_map, hTake, List.length_append] at hLength
  refine ⟨filling, ?_, ?_, hAll⟩
  · simp only [nameBlockWith, ofBlocks, String.toList_ofList,
      List.headD_cons]
    rw [← hFilling, withFlags_flags, flagged_character,
      ← hDrop, List.take_append_drop]
  · simp only [ofBlocks, String.toList_ofList]
    exact hLength.symm

/- A name that is filled up has seven characters. -/
theorem length_rightpad_filename
    (e : Entry)
    (hStorable : e.Storable) :
    (e.filename.toList.rightpad 7 ' ').length = 7 := by
  have hLength := hStorable.filename_length
  rw [List.rightpad, List.length_append, List.length_replicate]
  omega

/- The name and the directory take eight bytes. -/
theorem length_nameBlock
    (e : Entry)
    (hStorable : e.Storable) :
    e.nameBlock.length = blockSize := by
  rw [nameBlock, List.length_append, length_withFlags,
    e.length_rightpad_filename hStorable]
  rfl

/- The name of an entry that was written is read again. -/
theorem ofBlocks_nameBlock
    (e : Entry)
    (info : List UInt8)
    (hStorable : e.Storable) :
    let read := ofBlocks e.nameBlock info
    read.filename = e.filename ∧
      read.directory = e.directory ∧
      read.attributes = e.attributes ∧
      read.locked = e.locked := by
  intro read
  let filling :=
    List.replicate (7 - e.filename.toList.length) ' '
  let padded := e.filename.toList ++ filling
  have hPadded : padded.length = 7 :=
    e.length_rightpad_filename hStorable
  have hName :
      e.nameBlock =
        withFlags e.attributes padded ++
          [flagged e.locked (e.directory.toList.headD '$')] :=
    e.nameBlock_eq
  have hWritten :
      (withFlags e.attributes padded).length = 7 := by
    rw [length_withFlags, hPadded]
  have hTake :
      e.nameBlock.take 7 = withFlags e.attributes padded := by
    rw [hName, List.take_left' hWritten]
  have hLast :
      e.nameBlock.getD 7 0 =
        flagged e.locked (e.directory.toList.headD '$') := by
    rw [hName, List.getD_eq_getElem?_getD,
      List.getElem?_append_right (by omega), hWritten]
    rfl
  have hSmall : ∀ c ∈ padded, c.toNat < 128 := by
    intro c hMem
    rcases List.mem_append.mp hMem with hIn | hFill
    · exact hStorable.filename_small c hIn
    · rw [List.eq_of_mem_replicate hFill]
      decide
  rcases hStorable.directory with ⟨d, hDirectory, hd⟩
  simp only [hDirectory, String.toList_ofList,
    List.headD_cons] at hLast
  refine ⟨?_, ?_, ?_, ?_⟩
  · simp only [read, ofBlocks, hTake,
      map_character_withFlags _ _ hSmall, padded]
    rw [Text.dropEnd_append _ _ _ (by simp [filling, isFiller]),
      Text.dropEnd_of_getLast? _ _ hStorable.filename_last,
      String.ofList_toList]
  · simp only [read, ofBlocks, hLast,
      character_flagged _ d hd, hDirectory]
  · simp only [read, ofBlocks, hTake, flags_withFlags, hPadded]
    exact Nat.mod_eq_of_lt hStorable.attributes_lt
  · simp only [read, ofBlocks, hLast, toNat_flagged]
    cases e.locked
    · rw [Bool.toNat_false, decide_eq_false (by omega)]
    · rw [Bool.toNat_true, decide_eq_true (by omega)]

/- The numbers of an entry that was written are read again. -/
theorem ofBlocks_infoBlock
    (e : Entry)
    (name : List UInt8)
    (hStorable : e.Storable) :
    let read := ofBlocks name e.infoBlock
    read.length = e.length ∧
      read.loadAddress = e.loadAddress ∧
      read.execAddress = e.execAddress ∧
      read.startSector = e.startSector := by
  intro read
  have hLengthNat : (e.length.toNat : Int) = e.length :=
    Int.toNat_of_nonneg hStorable.length_nonneg
  have hSectorNat : (e.startSector.toNat : Int) = e.startSector :=
    Int.toNat_of_nonneg hStorable.startSector_nonneg
  have hLength := hStorable.length_lt
  have hSector := hStorable.startSector_lt
  let exec := highBits e.execAddress
  let length := highBits e.length.toNat
  let load := highBits e.loadAddress
  let sector := e.startSector.toNat
  have hBits :
      exec < 4 ∧ length < 4 ∧ load < 4 ∧
        sector / 256 % 4 < 4 := by
    refine ⟨?_, ?_, ?_, ?_⟩ <;> exact Nat.mod_lt _ (by decide)
  let upper :=
    64 * exec + 16 * length + 4 * load + sector / 256 % 4
  have hUpper :
      upper / 64 % 4 = exec ∧ upper / 16 % 4 = length ∧
        upper / 4 % 4 = load ∧
        upper % 4 = sector / 256 % 4 ∧ upper < 256 := by
    omega
  have hBytes :
      e.infoBlock.map UInt8.toNat =
        [e.loadAddress % 256, e.loadAddress / 256 % 256,
          e.execAddress % 256, e.execAddress / 256 % 256,
          e.length.toNat % 256, e.length.toNat / 256 % 256,
          upper, sector % 256] := by
    have hLow :
        ∀ n : Nat, (UInt8.ofNat (n % 256)).toNat = n % 256 :=
      fun n =>
        UInt8.toNat_ofNat_of_lt' (Nat.mod_lt n (by decide))
    have hHigh : (UInt8.ofNat upper).toNat = upper :=
      UInt8.toNat_ofNat_of_lt' hUpper.2.2.2.2
    simp only [infoBlock, lowBytes, List.map_cons,
      List.map_nil, List.cons_append, List.nil_append, hLow]
    rw [hHigh]
  have hNumber :
      ∀ i, (e.infoBlock.getD i 0).toNat =
        (e.infoBlock.map UInt8.toNat).getD i 0 := by
    intro i
    simp only [List.getD_eq_getElem?_getD, List.getElem?_map]
    cases e.infoBlock[i]? <;> rfl
  simp only [read, ofBlocks, hNumber, hBytes,
    List.getD_cons_succ, List.getD_cons_zero]
  refine ⟨?_, ?_, ?_, ?_⟩
  · rw [wide_parts _ _ (by omega) hUpper.2.1, hLengthNat]
  · exact wide_parts _ _ hStorable.loadAddress_lt hUpper.2.2.1
  · exact wide_parts _ _ hStorable.execAddress_lt hUpper.1
  · omega

attribute [ext] Entry

/- An entry that was written is read again. -/
theorem ofBlocks_blocks
    (e : Entry)
    (hStorable : e.Storable) :
    ofBlocks e.nameBlock e.infoBlock = e := by
  rcases ofBlocks_nameBlock e e.infoBlock hStorable with
    ⟨hFilename, hDirectory, hAttributes, hLocked⟩
  rcases ofBlocks_infoBlock e e.nameBlock hStorable with
    ⟨hLength, hLoad, hExec, hSector⟩
  exact
    Entry.ext hFilename hDirectory hLength hLoad hExec hSector
      hAttributes hLocked

end Entry

end Disc

end Beeb
