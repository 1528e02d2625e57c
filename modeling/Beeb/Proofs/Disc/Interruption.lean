import Beeb.Disc.Encoding
import Beeb.Proofs.Disc.Extraction
import Beeb.Proofs.Files.Changes
import Mathlib.Data.List.TakeWhile

/-
  Extractions that fail: what they leave behind.

  Nothing is written if the directory cannot be had or the
  bytes of a selected entry are not all in the image.  An
  entry whose file is refused is found too late, when those
  before it have been written.

  Main declarations:
    * `Disc.written_writeAll`
    * `Disc.Ready`
    * `Disc.written_of_ready`
    * `Disc.changed_by_extract`
    * `Disc.failed_extraction_leaves`
-/

------------------------------------------------------------
-- Files That Are Reached
------------------------------------------------------------

namespace Beeb

namespace Disc

/-
  The files before the first that is refused are written,
  and one is refused if its path cannot be written to.
-/
theorem written_writeAll
    (out : Path)
    (t : FileTree)
    (files : List (Entry × Bytes)) :
    let r := (writeAll out files : StateM FileTree _) t
    let writable := fun file : Entry × Bytes =>
      t.isWritable (file.1.target out)
    r.1.written =
        (files.takeWhile writable).map (·.1.target out) ∧
      (r.1.failure = none ↔ ∀ file ∈ files, writable file) := by
  induction files generalizing t with
  | nil => exact ⟨rfl, by simp [writeAll]; rfl⟩
  | cons file files ih =>
    rcases file with ⟨e, bytes⟩
    cases hWritable : t.isWritable (e.target out) with
    | false =>
      cases hWrite : t.write (e.target out) bytes with
      | ok u =>
        rw [t.isWritable_of_write u _ bytes hWrite]
          at hWritable
        cases hWritable
      | error error =>
        rw [writeAll_of_error out t e bytes files error hWrite]
        simp [hWritable]
    | true =>
      rcases t.write_of_isWritable _ bytes hWritable with
        ⟨u, hWrite⟩
      rw [writeAll_of_ok out t u e bytes files hWrite]
      rcases t.write_eq_ok u _ bytes hWrite with
        ⟨location, hLocate, hNew, rfl⟩
      rcases ih (t.put location (.file bytes)) with
        ⟨hWritten, hFailure⟩
      simp only [t.isWritable_put_file location bytes _ hNew]
        at hWritten hFailure
      simp [hWritable, hWritten, hFailure]

/- When the bytes of all entries can be looked up. -/
theorem exists_payloads_iff
    (image : Image)
    (entries : List Entry) :
    (∃ files, payloads image entries = .ok files) ↔
      ∀ e ∈ entries, e.stop ≤ image.data.size := by
  unfold payloads
  rw [exists_mapM_eq_ok_iff]
  refine forall₂_congr fun e _ => ?_
  unfold Image.contents Entry.runsPast
  by_cases hInside : e.stop ≤ image.data.size
  · simp [Except.map, hInside, Int.not_lt.mpr hInside]
  · simp [Except.map, hInside, Int.not_le.mp hInside]

end Disc

end Beeb

------------------------------------------------------------
-- What Is Written
------------------------------------------------------------

namespace Beeb

namespace Disc

variable (image : Image)
variable (names : List String)
variable (out : Path)
variable (t : FileTree)

/-
  Whether an extraction comes to write files: there is a
  directory for them, or one can be made, and the bytes of
  the selected entries are all in the image.
-/
def Ready : Prop :=
  ((prepare out : StateM FileTree _) t).1 = .ok () ∧
    ∀ e ∈ image.find names, e.stop ≤ image.data.size

/-
  The files written are those of the selected entries before
  the first that is refused. None is refused if and only if
  the extraction does not fail.
-/
theorem written_of_ready
    (hReady : Ready image names out t) :
    let r := (extract image names out : StateM FileTree _) t
    let built := ((prepare out : StateM FileTree _) t).2
    let writable := fun e : Entry =>
      built.isWritable (e.target out)
    r.1.written =
        ((image.find names).takeWhile writable).map
          (Entry.target out) ∧
      (r.1.failure = none ↔
        ∀ e ∈ image.find names, writable e) := by
  intro r built writable
  rcases hReady with ⟨hPrepare, hInside⟩
  rcases (exists_payloads_iff image _).mpr hInside with
    ⟨files, hFiles⟩
  have hRun :
      r = (writeAll out files : StateM FileTree _) built := by
    simp only [r, extract_eq, hPrepare, hFiles]
    rfl
  have hEntries := (payloads_eq_ok image _ files hFiles).1
  rcases written_writeAll out built files with
    ⟨hWritten, hFailure⟩
  rw [hRun, ← hEntries]
  refine ⟨?_, ?_⟩
  · rw [hWritten, List.takeWhile_map, List.map_map]
    rfl
  · rw [hFailure, List.forall_mem_map]

/- Without a directory or some of the bytes, nothing is. -/
theorem written_of_not_ready
    (hNot : ¬ Ready image names out t) :
    let r := (extract image names out : StateM FileTree _) t
    r.1.written = [] ∧ r.1.failure ≠ none := by
  intro r
  cases hPrepare :
      ((prepare out : StateM FileTree _) t).1 with
  | error e => simp [r, extract_eq, hPrepare]
  | ok done =>
    cases hFiles : payloads image (image.find names) with
    | error e => simp [r, extract_eq, hPrepare, hFiles]
    | ok files =>
      refine absurd ⟨hPrepare, ?_⟩ hNot
      exact (exists_payloads_iff image _).mp ⟨files, hFiles⟩

end Disc

end Beeb

------------------------------------------------------------
-- What Has Changed
------------------------------------------------------------

namespace Beeb

namespace Disc

variable (image : Image)
variable (names : List String)
variable (out : Path)
variable (t : FileTree)

/- A directory to write to needs none but those on its way. -/
theorem buildsTo_prepare :
    t.BuildsTo out ((prepare out : StateM FileTree _) t).2 := by
  rw [prepare_eq]
  cases t.kind? out with
  | none => exact FileTree.buildsTo_makeDirectories out t
  | some kind => cases kind <;> exact .refl out t

/- An extraction writes some files to a tree that it built. -/
theorem wrote_extract :
    let r := (extract image names out : StateM FileTree _) t
    let built := ((prepare out : StateM FileTree _) t).2
    ∃ done,
      Wrote out built done r.2 ∧
        r.1.written = done.map (·.1.target out) := by
  intro r built
  simp only [r, extract_eq]
  split
  · exact ⟨[], .nothing built, rfl⟩
  · split
    · exact ⟨[], .nothing built, rfl⟩
    · rename_i files _
      rcases wrote_writeAll out built files with
        ⟨done, rest, -, hWrote, hWritten, -⟩
      exact ⟨done, hWrote, hWritten⟩

/-
  What is different afterwards is a new directory on the way
  to that of the extraction, or a file that was written.
-/
theorem changed_by_extract
    (location : Location) :
    let r := (extract image names out : StateM FileTree _) t
    r.2.node? location ≠ t.node? location →
      (t.node? location = none ∧
          r.2.node? location = some .directory ∧
          ∃ count, r.2.locate (out.upTo count) = .ok location) ∨
        ∃ path ∈ r.1.written,
          ∃ bytes,
            r.2.locate path = .ok location ∧
              r.2.node? location = some (.file bytes) := by
  intro r hChanged
  rcases wrote_extract image names out t with
    ⟨done, hWrote, hWritten⟩
  have hBuilds := buildsTo_prepare out t
  rcases hWrote.node?_eq_or location with
    hSame | ⟨file, hMem, hLocate, -, hNode⟩
  · rw [hSame] at hChanged ⊢
    rcases hBuilds.builds.node location with
      hOld | ⟨hNone, hMade⟩
    · exact absurd hOld hChanged
    rcases hBuilds.locate location hChanged with
      ⟨count, hLocate⟩
    exact
      .inl
        ⟨hNone, hMade, count,
          (hWrote.locate_iff _ _).mpr hLocate⟩
  · refine .inr ⟨file.1.target out, ?_, file.2, ?_, hNode⟩
    · rw [hWritten]
      exact List.mem_map_of_mem (f := (·.1.target out)) hMem
    · exact (hWrote.locate_iff _ _).mpr hLocate

/- At the path of a written file there is a file. -/
theorem file_at_written
    (path : Path)
    (location : Location) :
    let r := (extract image names out : StateM FileTree _) t
    path ∈ r.1.written →
      r.2.locate path = .ok location →
        ∃ bytes, r.2.node? location = some (.file bytes) := by
  intro r hMem hLocate
  rcases wrote_extract image names out t with
    ⟨done, hWrote, hWritten⟩
  rw [hWritten] at hMem
  rcases List.mem_map.mp hMem with ⟨file, hFile, rfl⟩
  exact
    hWrote.exists_bytes file location hFile
      ((hWrote.locate_iff _ _).mp hLocate)

end Disc

end Beeb

------------------------------------------------------------
-- Failed Extractions
------------------------------------------------------------

namespace Beeb

namespace Disc

/-
  An extraction that fails has written no file if it did not
  come so far, because there was no directory or some of the
  bytes were not in the image. Otherwise it has written the
  files of the selected entries before the first that was
  refused. All else that it has changed is that there are
  new directories, its own or some on the way to it. So no
  file has been created or changed if and only if those that
  were written had been there just as they are now.
-/
theorem failed_extraction_leaves
    (image : Image)
    (names : List String)
    (out : Path)
    (t : FileTree)
    (hFailed :
      ((extract image names out : StateM FileTree _)
        t).1.failure ≠ none) :
    let r := (extract image names out : StateM FileTree _) t
    let built := ((prepare out : StateM FileTree _) t).2
    let selected :=
      image.entries.filter fun e =>
        names = [] ∨ e.filename ∈ names
    let reached :=
      selected.takeWhile fun e =>
        built.isWritable (e.target out)
    (Ready image names out t →
        r.1.written = reached.map (Entry.target out) ∧
          ∃ e after,
            selected = reached ++ e :: after ∧
              built.isWritable (e.target out) = false) ∧
      (¬ Ready image names out t → r.1.written = []) ∧
      (∀ location,
        r.2.node? location ≠ t.node? location →
          (t.node? location = none ∧
              r.2.node? location = some .directory ∧
              ∃ count,
                r.2.locate (out.upTo count) = .ok location) ∨
            ∃ path ∈ r.1.written,
              ∃ bytes,
                r.2.locate path = .ok location ∧
                  r.2.node? location = some (.file bytes)) ∧
      ((∀ location bytes,
          r.2.node? location = some (.file bytes) ↔
            t.node? location = some (.file bytes)) ↔
        ∀ path ∈ r.1.written,
          ∀ location,
            r.2.locate path = .ok location →
              r.2.node? location = t.node? location) := by
  intro r built selected reached
  have hFind : image.find names = selected := image.find_eq names
  refine ⟨?_, ?_, ?_, ?_, ?_⟩
  · -- One of the selected entries is refused.
    intro hReady
    rcases written_of_ready image names out t hReady with
      ⟨hWritten, hFailure⟩
    rw [hFind] at hWritten hFailure
    have hRefused :
        selected.dropWhile
            (fun e => built.isWritable (e.target out)) ≠
          [] := by
      rw [Ne, List.dropWhile_eq_nil_iff, ← hFailure]
      exact hFailed
    rcases List.exists_cons_of_ne_nil hRefused with
      ⟨e, after, hAfter⟩
    refine ⟨hWritten, e, after, ?_, ?_⟩
    · rw [← hAfter]
      exact List.takeWhile_append_dropWhile.symm
    · have hHead := List.head_dropWhile_not _ hRefused
      simp only [hAfter, List.head_cons] at hHead
      exact hHead
  · intro hNot
    exact (written_of_not_ready image names out t hNot).1
  · exact changed_by_extract image names out t
  · -- At the place of a written file there is one.
    intro hSame path hMem location hLocate
    rcases file_at_written image names out t path location
        hMem hLocate with
      ⟨bytes, hNode⟩
    exact hNode.trans ((hSame location bytes).mp hNode).symm
  · -- At any other place there is what was there before.
    intro hKept location bytes
    by_cases hChanged :
        r.2.node? location = t.node? location
    · rw [hChanged]
    · rcases changed_by_extract image names out t location
          hChanged with
        ⟨hNone, hMade, -⟩ | ⟨path, hMem, _, hLocate, -⟩
      · rw [hNone]
        change r.2.node? location = _ at hMade
        simp [hMade]
      · exact
          absurd (hKept path hMem location hLocate) hChanged

/- A disc with a file whose name is empty, after another. -/
def nameless : Volume :=
  { title := "", sectors := 4, bootOption := 0, cycle := 0
    files :=
      [⟨{ filename := "B", length := 1, startSector := 2 },
          #[5], rfl⟩,
        ⟨{ filename := "", length := 1, startSector := 3 },
          #[6], rfl⟩] }

/- The bytes of this disc. -/
def namelessData : Bytes :=
  (nameless.catalogue ++ [5] ++ List.replicate 255 0 ++
    [6]).toArray

/- What its catalogue says. -/
def namelessImage : Image :=
  { title := "", sectors := 4, bootOption := 0, cycle := 0
    entries := nameless.files.map StoredFile.entry
    data := namelessData }

/- Parsing the bytes gives this image. -/
theorem parse_nameless :
    Image.parse namelessData = .ok namelessImage := by
  rw [Image.parse_eq_ok namelessData namelessImage.entries
    (by decide +kernel) (by decide +kernel)]
  simp only [namelessImage, Except.ok.injEq, Image.mk.injEq,
    and_true]
  decide +kernel

/- The second of two files is refused: the first is there. -/
theorem failed_extraction_leaves_first :
    let e : Entry :=
      { filename := "B", length := 1, startSector := 2 }
    let other : Entry :=
      { filename := "", length := 1, startSector := 3 }
    let out : Path := .ofString "o"
    ∃ image,
      Image.parse namelessData = .ok image ∧
        image.entries = [e, other] ∧
        let r := (extract image [] out : StateM FileTree _) {}
        r.1.failure ≠ none ∧
          r.1.written = [e.target out] ∧
          ¬ ∀ location bytes,
            r.2.node? location = some (.file bytes) ↔
              FileTree.node? {} location =
                some (.file bytes) := by
  intro e other out
  have hEntries : namelessImage.entries = [e, other] := rfl
  have hFailed :
      ((extract namelessImage [] out : StateM FileTree _)
        {}).1.failure ≠ none := by
    decide +kernel
  have hReady : Ready namelessImage [] out {} := by
    unfold Ready
    decide +kernel
  rcases failed_extraction_leaves namelessImage [] out {}
      hFailed with
    ⟨hWritten, -, -, hKept⟩
  have hFirst :
      ((extract namelessImage [] out : StateM FileTree _)
        {}).1.written = [e.target out] := by
    rw [(hWritten hReady).1]
    decide +kernel
  have hMem :
      e.target out ∈
        ((extract namelessImage [] out : StateM FileTree _)
          {}).1.written := by
    rw [hFirst]
    exact List.mem_singleton_self _
  refine
    ⟨namelessImage, parse_nameless, hEntries, hFailed, hFirst,
      fun hSame => ?_⟩
  have hNode :=
    hKept.mp hSame (e.target out) hMem ["o", "B"]
      (by decide +kernel)
  exact absurd hNode (by decide +kernel)

/-
  An extraction can fail with a file written: the path of
  the second file is that of the directory.
-/
theorem file_written_before_refusal :
    ∃ image,
      Image.parse namelessData = .ok image ∧
        let out : Path := .ofString "o"
        let t : FileTree := FileTree.put {} ["o"] .directory
        let r := (extract image [] out : StateM FileTree _) t
        r.1.failure = some (.file ⟨.isADirectory, out⟩) ∧
          t.node? ["o", "B"] = none ∧
          r.2.node? ["o", "B"] = some (.file #[5]) := by
  refine ⟨namelessImage, parse_nameless, ?_⟩
  decide +kernel

end Disc

end Beeb
