import Beeb.Proofs.Disc.Catalogue
import Beeb.Proofs.Disc.Interruption
import Beeb.Proofs.Step

/-
  Files whose data is not all in an image: what the
  description of the image reports of them, and what an
  extraction does that is asked for one.

  Main declarations:
    * `Disc.Image.ReportsOn`
    * `Disc.Image.reportsOn_iff`
    * `Disc.Image.exists_first_reported`
    * `Disc.ExtractError.isRefusal`
    * `Disc.CanHold`
    * `Disc.contents_of_inside`
    * `Disc.failure_extract_of_past`
    * `Disc.refused_iff_reported`
-/

------------------------------------------------------------
-- Reports On Entries
------------------------------------------------------------

namespace Beeb

namespace Disc

namespace Image

/-
  Whether the description of an image reports on an entry:
  the reports are those on the entries before it, one on it,
  and those on the entries after it.
-/
def ReportsOn
    (image : Image)
    (e : Entry) : Prop :=
  ∃ before after,
    image.entries = before ++ e :: after ∧
      image.reports =
        { image with entries := before }.reports ++
          .entryPastEnd e.qualifiedName ::
            { image with entries := after }.reports

/- It reports on the entries that run past the end. -/
theorem reportsOn_iff
    (image : Image)
    (e : Entry) :
    image.ReportsOn e ↔
      e ∈ image.entries ∧ image.data.size < e.stop := by
  constructor
  · rintro ⟨before, after, hEntries, hReports⟩
    refine ⟨by simp [hEntries], ?_⟩
    by_contra hInside
    have hNone : e.runsPast image.data.size = false :=
      decide_eq_false hInside
    have hCount := congrArg List.length hReports
    simp [reports, hEntries, hNone] at hCount
  · rintro ⟨hMem, hPast⟩
    rcases List.append_of_mem hMem with
      ⟨before, after, hEntries⟩
    have hSome : e.runsPast image.data.size = true :=
      decide_eq_true hPast
    exact
      ⟨before, after, hEntries, by
        simp [reports, hEntries, hSome]⟩

/- Of the entries that it reports on one is the first. -/
theorem exists_first_reported
    (image : Image)
    (entries : List Entry)
    (e : Entry)
    (hMem : e ∈ entries)
    (hReported : image.ReportsOn e) :
    ∃ before first after,
      entries = before ++ first :: after ∧
        (∀ b ∈ before, ¬ image.ReportsOn b) ∧
        image.ReportsOn first := by
  induction entries with
  | nil => cases hMem
  | cons head rest ih =>
    by_cases hHead : image.ReportsOn head
    · exact ⟨[], head, rest, rfl, by simp, hHead⟩
    · have hLater : e ∈ rest := by
        rcases List.mem_cons.mp hMem with rfl | hLater
        · exact absurd hReported hHead
        · exact hLater
      rcases ih hLater with
        ⟨before, first, after, rfl, hSilent, hFirst⟩
      exact
        ⟨head :: before, first, after, rfl,
          List.forall_mem_cons.mpr ⟨hHead, hSilent⟩, hFirst⟩

end Image

end Disc

end Beeb

------------------------------------------------------------
-- Entries That Were Read
------------------------------------------------------------

namespace Beeb

namespace Disc

/- A number of few digits can be written. -/
theorem decimal?_of_small
    (n : Int)
    (hPositive : 0 ≤ n)
    (hSmall : n < 0x100000) :
    Numeral.decimal? n = .ok (Numeral.decimal n) := by
  rw [Numeral.decimal?_eq_ok_iff]
  have hDigits :
      (Nat.toDigits 10 n.natAbs).length ≤ 7 :=
    (Nat.length_toDigits_le_iff (by decide) (by decide)).mpr
      (by omega)
  exact ⟨Nat.le_trans hDigits (by decide), rfl⟩

variable (e : Entry)
variable (hStorable : e.Storable)

include hStorable

/- The data of an entry that was read lies in 2 to the 20 bytes. -/
theorem range_of_storable :
    0 ≤ e.start ∧ e.start ≤ e.stop ∧ e.stop < 0x100000 := by
  have hSector := hStorable.startSector_nonneg
  have hSectors := hStorable.startSector_lt
  have hLength := hStorable.length_nonneg
  have hLengths := hStorable.length_lt
  simp only [Entry.stop, Entry.start, sectorSize]
  omega

/- So the range of its data can be written. -/
theorem pastEnd_of_storable
    (size : Nat) :
    e.pastEnd size =
      .pastEnd e.filename e.start e.stop size := by
  rcases range_of_storable e hStorable with
    ⟨hStart, hOrder, hStop⟩
  rw [Entry.pastEnd,
    decimal?_of_small e.start hStart (by omega),
    decimal?_of_small e.stop (by omega) hStop]

/- Data that is all in an image is there from its start on. -/
theorem contents_of_inside
    (image : Image)
    (hInside : e.stop ≤ image.data.size) :
    ∃ bytes,
      image.contents e = .ok bytes ∧
        (bytes.size : Int) = e.length ∧
        bytes.toList =
          (image.data.toList.drop
              (256 * e.startSector.toNat)).take
            e.length.toNat := by
  rcases range_of_storable e hStorable with
    ⟨hStart, hOrder, -⟩
  have hNot : e.runsPast image.data.size = false :=
    decide_eq_false (Int.not_lt.mpr hInside)
  have hLength : e.stop - e.start = e.length := by
    unfold Entry.stop
    omega
  have hSector :
      e.start.toNat = 256 * e.startSector.toNat := by
    unfold Entry.start sectorSize
    omega
  have hBytes :=
    Bytes.toList_slice image.data e.start e.stop hStart hOrder
  rw [hLength, hSector] at hBytes
  refine
    ⟨_, by simp only [Image.contents, hNot]; rfl, ?_, hBytes⟩
  have hSize :=
    Bytes.length_slice image.data e.start e.stop hStart hOrder
      (by omega)
  rw [Array.length_toList] at hSize
  omega

end Disc

end Beeb

------------------------------------------------------------
-- Refusals
------------------------------------------------------------

namespace Beeb

namespace Disc

/-
  Whether an extraction is refused for its directory or for
  the image. A file that cannot be written is another
  matter.
-/
def ExtractError.isRefusal : ExtractError → Bool
| .notADirectory _ => true
| .disc (.unwritable _) | .disc (.outside _) => false
| .disc _ => true
| .file _ => false

/-
  Whether a path is that of a directory, or of one that can
  be made.
-/
def CanHold
    (out : Path)
    (t : FileTree) : Prop :=
  t.kind? out = some .directory ∨
    t.kind? out = none ∧
      ((Files.makeDirectories out : StateM FileTree _) t).1 =
        .ok ()

/- An extraction can have a directory that is there or made. -/
theorem prepare_of_canHold
    (out : Path)
    (t : FileTree)
    (hOut : CanHold out t) :
    ((prepare out : StateM FileTree _) t).1 = .ok () := by
  rw [prepare_eq]
  rcases hOut with hThere | ⟨hNone, hMade⟩
  · rw [hThere]
  · simp only [hNone, hMade]
    rfl

variable (image : Image)
variable (names : List String)
variable (out : Path)
variable (t : FileTree)
variable (hOut : CanHold out t)

include hOut

/-
  An extraction with a directory is not refused if the data
  of all selected entries is in the image.
-/
theorem isRefusal_of_inside
    (hInside :
      ∀ e ∈ image.find names, e.stop ≤ image.data.size)
    (error : ExtractError)
    (hFailure :
      ((extract image names out : StateM FileTree _)
        t).1.failure = some error) :
    error.isRefusal = false := by
  rcases (exists_payloads_iff image _).mpr hInside with
    ⟨files, hFiles⟩
  rw [extract_eq, prepare_of_canHold out t hOut, hFiles]
    at hFailure
  rcases failure_writeAll out _ files error hFailure with
    ⟨cause, rfl⟩
  rfl

/-
  Otherwise it is refused for the first selected entry whose
  data is not all in the image.
-/
theorem failure_extract_of_past
    (before after : List Entry)
    (e : Entry)
    (hSelected : image.find names = before ++ e :: after)
    (hBefore : ∀ b ∈ before, b.stop ≤ image.data.size)
    (hPast : image.data.size < e.stop) :
    ((extract image names out : StateM FileTree _)
        t).1.failure =
      some (.disc (e.pastEnd image.data.size)) := by
  have hHere :
      image.contents e = .error (e.pastEnd image.data.size) :=
    if_pos (decide_eq_true hPast)
  rcases (exists_payloads_iff image before).mpr hBefore with
    ⟨files, hFiles⟩
  have hPayloads :
      payloads image (image.find names) =
        .error (e.pastEnd image.data.size) := by
    unfold payloads at hFiles ⊢
    rw [hSelected, List.mapM_append, hFiles, List.mapM_cons,
      hHere]
    rfl
  rw [extract_eq, prepare_of_canHold out t hOut, hPayloads]

end Disc

end Beeb

------------------------------------------------------------
-- Reports And Refusals
------------------------------------------------------------

namespace Beeb

namespace Disc

/-
  An extraction that can have its directory is refused if
  and only if the description of the image reports on one of
  the selected entries, and it is refused for the first of
  these in the catalogue. The data of a selected entry on
  which there is no report is in the image: as many bytes as
  the entry says, from its first sector on.
-/
theorem refused_iff_reported
    (data : Bytes)
    (image : Image)
    (names : List String)
    (out : Path)
    (t : FileTree)
    (hParse : Image.parse data = .ok image)
    (hOut : CanHold out t) :
    let r := (extract image names out : StateM FileTree _) t
    let selected :=
      image.entries.filter fun e =>
        names = [] ∨ e.filename ∈ names
    ((∃ error,
        r.1.failure = some error ∧ error.isRefusal = true) ↔
      ∃ e ∈ selected, image.ReportsOn e) ∧
      (∀ before e after,
        selected = before ++ e :: after →
          (∀ b ∈ before, ¬ image.ReportsOn b) →
            image.ReportsOn e →
              r.1.failure =
                some
                  (.disc
                    (.pastEnd e.filename e.start e.stop
                      data.size))) ∧
      ∀ e ∈ selected,
        ¬ image.ReportsOn e →
          ∃ bytes,
            image.contents e = .ok bytes ∧
              (bytes.size : Int) = e.length ∧
              bytes.toList =
                (data.toList.drop
                    (256 * e.startSector.toNat)).take
                  e.length.toNat := by
  intro r selected
  rcases Image.eq_ofData_of_parse data image hParse with
    ⟨hImage, hStorable⟩
  have hData : image.data = data := by rw [hImage]; rfl
  have hFind : image.find names = selected := image.find_eq names
  have hEntries : ∀ e ∈ selected, e ∈ image.entries :=
    fun e hMem => (List.mem_filter.mp hMem).1
  have hInside :
      ∀ e ∈ selected,
        ¬ image.ReportsOn e → e.stop ≤ image.data.size :=
    fun e hMem hSilent =>
      Int.not_lt.mp fun hPast =>
        hSilent
          ((image.reportsOn_iff e).mpr
            ⟨hEntries e hMem, hPast⟩)
  have hFirst :
      ∀ before e after,
        selected = before ++ e :: after →
          (∀ b ∈ before, ¬ image.ReportsOn b) →
            image.ReportsOn e →
              r.1.failure =
                some
                  (.disc
                    (.pastEnd e.filename e.start e.stop
                      data.size)) := by
    intro before e after hSplit hBefore hReported
    rcases (image.reportsOn_iff e).mp hReported with
      ⟨hMem, hPast⟩
    rw [← hData, ← pastEnd_of_storable e (hStorable e hMem)]
    exact
      failure_extract_of_past image names out t hOut before
        after e (hFind.trans hSplit)
        (fun b hb =>
          hInside b (by simp [hSplit, hb]) (hBefore b hb))
        hPast
  refine ⟨⟨?_, ?_⟩, hFirst, ?_⟩
  · -- Without a report there is nothing to refuse.
    rintro ⟨error, hFailure, hRefusal⟩
    by_contra hNone
    have hAll :
        ∀ e ∈ image.find names, e.stop ≤ image.data.size := by
      intro e hMem
      rw [hFind] at hMem
      exact
        hInside e hMem fun hReported =>
          hNone ⟨e, hMem, hReported⟩
    rw [isRefusal_of_inside image names out t hOut hAll error
      hFailure] at hRefusal
    cases hRefusal
  · rintro ⟨e, hMem, hReported⟩
    rcases image.exists_first_reported selected e hMem
        hReported with
      ⟨before, first, after, hSplit, hSilent, hHere⟩
    exact
      ⟨_, hFirst before first after hSplit hSilent hHere, rfl⟩
  · intro e hMem hSilent
    rw [← hData]
    exact
      contents_of_inside e (hStorable e (hEntries e hMem)) image
        (hInside e hMem hSilent)

/- A disc that was cut off after its first file. -/
def curtailed : Bytes :=
  (nameless.catalogue ++ [5]).toArray

/- Its second file is reported, and cannot be extracted. -/
theorem refused_iff_reported_curtailed :
    ∃ image e,
      Image.parse curtailed = .ok image ∧
        image.ReportsOn e ∧
        let out : Path := .ofString "o"
        let t : FileTree := FileTree.put {} ["o"] .directory
        CanHold out t ∧
          ((extract image [] out : StateM FileTree _)
              t).1.failure =
            some (.disc (.pastEnd "" 768 769 513)) := by
  have hSize : curtailed.size = 513 := by decide +kernel
  have hParse :
      Image.parse curtailed = .ok (.ofData curtailed) :=
    Image.parse_eq curtailed (by rw [hSize]; decide)
  have hEntries :
      (Image.ofData curtailed).entries =
        nameless.files.map StoredFile.entry := by
    decide +kernel
  have hOut :
      CanHold (.ofString "o")
        (FileTree.put {} ["o"] .directory) :=
    .inl (by decide +kernel)
  let first : Entry :=
    { filename := "B", length := 1, startSector := 2 }
  let second : Entry :=
    { filename := "", length := 1, startSector := 3 }
  have hReports :
      ∀ e ∈ [first, second],
        (Image.ofData curtailed).ReportsOn e ↔ e = second := by
    intro e hMem
    rw [Image.reportsOn_iff, hEntries]
    change _ ∧ (curtailed.size : Int) < _ ↔ _
    rw [hSize]
    revert e hMem
    decide
  refine
    ⟨_, second, hParse, (hReports second (by simp)).mpr rfl,
      hOut, ?_⟩
  rw [← hSize]
  apply
    (refused_iff_reported curtailed _ [] _ _ hParse hOut).2.1
      [first] second []
  · simp only [hEntries]
    rfl
  · intro e hMem
    rw [List.mem_singleton.mp hMem, hReports first (by simp)]
    decide
  · exact (hReports second (by simp)).mpr rfl

end Disc

end Beeb
